import IndicatorFormula.Proofs.Token.LongestMatch

/-!
Blanks between the tokens of a text. A text is cut into stretches wherever blanks are to be put in,
before, behind or between its tokens. With the blanks it has the same tokens, each lower by the line
breaks that were put in front of it (`lexemes_spaced`).
-/

namespace IndicatorFormula.Token

/-- A part of a text, its lexemes, and the blanks that are to be put in front of it. -/
structure Stretch where
  inserted : List Char
  text : List Char
  lexemes : List Lexeme

namespace Stretch

def original (stretches : List Stretch) : List Char :=
  stretches.flatMap Stretch.text

def spaced (stretches : List Stretch) : List Char :=
  stretches.flatMap fun stretch => stretch.inserted ++ stretch.text

/-- The lexemes of stretches with that many line breaks put in before them. -/
def lowered (lines : Nat) : List Stretch → List Lexeme
  | [] => []
  | stretch :: later =>
    let lines := lines + stretch.inserted.count '\n'
    stretch.lexemes.map (Lexeme.relayout (.down lines)) ++ lowered lines later

end Stretch

/-- The stretches make up a text behind `before`, and each begins and ends between tokens of it. -/
def AreStretches : List Char → List Stretch → Prop
  | _, [] => True
  | before, stretch :: later =>
    (∀ c ∈ stretch.inserted, IsBlank c) ∧
      Divides before stretch.text (Stretch.original later) stretch.lexemes ∧
        AreStretches (before ++ stretch.text) later

variable {before before' text text' after after' : List Char} {token : Token} {lines : Nat}
  {lexemes lexemes' : List Lexeme} {stretches : List Stretch}

theorem Divides.append (h : Divides before text (text' ++ after) lexemes)
    (h' : Divides (before ++ text) text' after lexemes') :
    Divides before (text ++ text') after (lexemes ++ lexemes') := by
  generalize hafter : text' ++ after = rest at h
  induction h with
  | blank hgap => exact h'.gap_append hgap
  | @token before gap text _ token lexemes hgap htoken h ih =>
    subst hafter
    rw [List.append_assoc (gap ++ token.text.toList)]
    rw [← List.append_assoc text] at htoken
    refine .token hgap htoken (ih ?_ rfl)
    simpa only [List.append_assoc] using h'

/-- A text can be cut in front of each of its tokens and behind the last. -/
theorem Divides.exists_cut (h : Divides before text after (lexemes ++ lexemes')) :
    ∃ front back, text = front ++ back ∧ Divides before front (back ++ after) lexemes ∧
      Divides (before ++ front) back after lexemes' := by
  generalize hwhole : lexemes ++ lexemes' = whole at h
  induction h generalizing lexemes with
  | @blank before gap after hgap =>
    obtain ⟨rfl, rfl⟩ := List.append_eq_nil_iff.1 hwhole
    exact ⟨gap, [], (List.append_nil gap).symm, .blank hgap, .blank fun _ h => nomatch h⟩
  | @token before gap text after token whole hgap htoken h ih =>
    rcases List.append_eq_cons_iff.1 hwhole with ⟨rfl, rfl⟩ | ⟨lexemes, rfl, rfl⟩
    · refine ⟨[], _, rfl, .blank fun _ h => (nomatch h), ?_⟩
      rw [List.append_nil]
      exact .token hgap htoken h
    · obtain ⟨front, back, rfl, hfront, hback⟩ := ih rfl
      refine ⟨gap ++ token.text.toList ++ front, back, (List.append_assoc ..).symm, ?_, ?_⟩
      · rw [List.append_assoc] at htoken
        exact .token hgap htoken hfront
      · simpa only [List.append_assoc] using hback

/-- However the tokens of a text are parted, the text can be cut in the same places. -/
theorem Divides.exists_stretches {parts : List (List Char × List Lexeme)} (hne : parts ≠ [])
    (hblank : ∀ part ∈ parts, ∀ c ∈ part.1, IsBlank c)
    (h : Divides before text [] (parts.flatMap Prod.snd)) :
    ∃ stretches, AreStretches before stretches ∧ Stretch.original stretches = text ∧
      stretches.map (fun stretch => (stretch.inserted, stretch.lexemes)) = parts := by
  induction parts generalizing before text with
  | nil => exact absurd rfl hne
  | cons part parts ih =>
    obtain ⟨hinserted, hblank⟩ := List.forall_mem_cons.1 hblank
    rw [List.flatMap_cons] at h
    cases parts with
    | nil =>
      rw [List.flatMap_nil, List.append_nil] at h
      exact ⟨[⟨part.1, text, part.2⟩], ⟨hinserted, h, trivial⟩, List.append_nil text, rfl⟩
    | cons next parts =>
      obtain ⟨front, back, rfl, hfront, hback⟩ := h.exists_cut
      rw [List.append_nil] at hfront
      obtain ⟨stretches, hstretches, rfl, hparts⟩ := ih (List.cons_ne_nil _ _) hblank hback
      exact ⟨⟨part.1, front, part.2⟩ :: stretches, ⟨hinserted, hfront, hstretches⟩, rfl,
        congrArg (part :: ·) hparts⟩

theorem IsLongest.of_head? (h : token.IsLongest after)
    (hafter : ∀ c ∈ after'.head?, c ∈ after.head? ∨ IsBlank c) : token.IsLongest after' := by
  refine ⟨h.written, fun c hc hmatches => ?_⟩
  rcases hafter c hc with hc | hblank
  · exact h.maximal c hc hmatches
  · exact hmatches.not_isBlank c (List.mem_append_right _ (List.mem_singleton.2 rfl)) hblank

theorem mem_head?_append {c : Char} (hafter : ∀ c ∈ after'.head?, c ∈ after.head? ∨ IsBlank c)
    (hc : c ∈ (text ++ after').head?) : c ∈ (text ++ after).head? ∨ IsBlank c := by
  cases text with
  | nil => exact hafter c hc
  | cons d text => exact .inl hc

/-- Blanks behind a part of a text do not change its tokens, and those before it only move them. -/
theorem Divides.move (h : Divides before text after lexemes)
    (hbefore : before'.count '\n' = before.count '\n' + lines)
    (hafter : ∀ c ∈ after'.head?, c ∈ after.head? ∨ IsBlank c) :
    Divides before' text after' (lexemes.map (Lexeme.relayout (.down lines))) := by
  induction h generalizing before' with
  | blank hgap => exact .blank hgap
  | @token before gap text after token lexemes hgap htoken h ih =>
    have hgapped : (before' ++ gap).count '\n' = (before ++ gap).count '\n' + lines := by
      rw [List.count_append, List.count_append, hbefore, Nat.add_right_comm]
    have hline : Lexeme.relayout (.down lines) ⟨token, 1 + (before ++ gap).count '\n'⟩ =
        ⟨token, 1 + (before' ++ gap).count '\n'⟩ := by
      rw [Lexeme.relayout, relayout_down, hgapped, ← Nat.add_assoc]
      rfl
    rw [List.map_cons, hline]
    refine .token hgap (htoken.of_head? fun c hc => mem_head?_append hafter hc) (ih ?_ hafter)
    rw [List.count_append, hgapped, Nat.add_right_comm, ← List.count_append]

theorem mem_head?_spaced {c : Char} (h : AreStretches before stretches)
    (hc : c ∈ (Stretch.spaced stretches).head?) :
    c ∈ (Stretch.original stretches).head? ∨ IsBlank c := by
  induction stretches generalizing before c with
  | nil => cases hc
  | cons stretch later ih =>
    obtain ⟨hinserted, -, hlater⟩ := h
    obtain ⟨_ | ⟨d, inserted⟩, text, lexemes⟩ := stretch
    · exact mem_head?_append (fun c hc => ih hlater hc) hc
    · cases hc
      exact .inr (hinserted c (List.mem_cons_self ..))

theorem divides_original (h : AreStretches before stretches) :
    Divides before (Stretch.original stretches) [] (stretches.flatMap Stretch.lexemes) := by
  induction stretches generalizing before with
  | nil => exact .blank fun _ h => nomatch h
  | cons stretch later ih =>
    obtain ⟨-, hdivides, hlater⟩ := h
    rw [← List.append_nil (Stretch.original later)] at hdivides
    exact hdivides.append (ih hlater)

theorem divides_spaced (h : AreStretches before stretches)
    (hbefore : before'.count '\n' = before.count '\n' + lines) :
    Divides before' (Stretch.spaced stretches) [] (Stretch.lowered lines stretches) := by
  induction stretches generalizing before before' lines with
  | nil => exact .blank fun _ h => nomatch h
  | cons stretch later ih =>
    obtain ⟨hinserted, hdivides, hlater⟩ := h
    have hcount : (before' ++ stretch.inserted).count '\n' =
        before.count '\n' + (lines + stretch.inserted.count '\n') := by
      rw [List.count_append, hbefore, Nat.add_assoc]
    have hmoved := hdivides.move hcount fun c hc => mem_head?_spaced hlater hc
    rw [← List.append_nil (Stretch.spaced later)] at hmoved
    have hrest : (before' ++ stretch.inserted ++ stretch.text).count '\n' =
        (before ++ stretch.text).count '\n' + (lines + stretch.inserted.count '\n') := by
      rw [List.count_append, hcount, List.count_append, Nat.add_right_comm]
    have hwhole := (hmoved.append (ih hlater hrest)).gap_append hinserted
    rwa [← List.append_assoc] at hwhole

theorem lexemes_original (h : AreStretches [] stretches) :
    Token.lexemes (String.ofList (Stretch.original stretches)) =
      .ok (stretches.flatMap Stretch.lexemes) := by
  apply lexemes_of_divides
  rw [String.toList_ofList]
  exact divides_original h

theorem lexemes_spaced (h : AreStretches [] stretches) :
    Token.lexemes (String.ofList (Stretch.spaced stretches)) =
      .ok (Stretch.lowered 0 stretches) := by
  apply lexemes_of_divides
  rw [String.toList_ofList]
  exact divides_spaced h rfl

end IndicatorFormula.Token
