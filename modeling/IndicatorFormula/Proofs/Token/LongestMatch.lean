import IndicatorFormula.Proofs.Token.Pattern

/-!
The tokens of a whole text, without the scanner. A text divides into blanks and tokens none of which
could be longer (`Divides`). What the scanner finds is such a division, up to the first character at
which nothing begins (`lexemes_iff_divides`).
-/

namespace IndicatorFormula.Token

/-- A part of a text divides into blanks and tokens, where `before` and `after` are the parts in
front of it and behind it. A token is on the line that the line breaks in front of it make. -/
inductive Divides : List Char → List Char → List Char → List Lexeme → Prop
  | blank {before gap after : List Char} (hgap : ∀ c ∈ gap, IsBlank c) :
    Divides before gap after []
  | token {before gap text after : List Char} {token : Token} {lexemes : List Lexeme}
    (hgap : ∀ c ∈ gap, IsBlank c) (htoken : token.IsLongest (text ++ after))
    (h : Divides (before ++ gap ++ token.text.toList) text after lexemes) :
    Divides before (gap ++ token.text.toList ++ text) after
      (⟨token, 1 + (before ++ gap).count '\n'⟩ :: lexemes)

/-- Neither a blank nor a token begins the text. -/
def BeginsNothing (text : List Char) : Prop :=
  (∀ c ∈ text.head?, ¬IsBlank c) ∧
    ∀ (pattern : Pattern) (start : List Char), start <+: text → ¬pattern.Matches start

variable {c : Char} {before gap text after : List Char} {token : Token} {lexemes : List Lexeme}

theorem scan_blank (hgap : ∀ c ∈ gap, IsBlank c) (line : Nat) (cs : List Char) :
    scan line (gap ++ cs) = scan (line + gap.count '\n') cs := by
  induction gap generalizing line with
  | nil => rfl
  | cons c gap ih =>
    obtain ⟨hc, htail⟩ := List.forall_mem_cons.1 hgap
    rw [List.cons_append]
    by_cases hnewline : c = '\n'
    · subst hnewline
      rw [scan_newline, ih htail, List.count_cons_self, Nat.add_right_comm, Nat.add_assoc]
    · have hseparator := (isBlank_iff.1 hc).resolve_left hnewline
      rw [scan_separator hnewline hseparator, ih htail, List.count_cons_of_ne hnewline]

theorem IsLongest.exists_cons (h : token.IsLongest after) :
    ∃ c ds, token.text.toList = c :: ds ∧ ¬IsBlank c := by
  cases htext : token.text.toList with
  | nil => exact absurd (htext ▸ h.written) (Pattern.not_matches_nil _)
  | cons c ds =>
    exact ⟨c, ds, rfl, h.written.not_isBlank c (htext ▸ List.mem_cons_self ..)⟩

theorem scan_of_isLongest (h : token.IsLongest after) (line : Nat) :
    scan line (token.text.toList ++ after) = (scan line after).map (⟨token, line⟩ :: ·) := by
  obtain ⟨c, ds, htext, hc⟩ := h.exists_cons
  have hfirst : first? c (ds ++ after) = some (token, after) :=
    first?_of_isLongest h (by rw [htext, List.cons_append])
  rw [isBlank_iff, not_or] at hc
  rw [htext, List.cons_append, scan_token hc.1 hc.2 hfirst]

/-- The scanner passes over a divided part and goes on behind it. -/
theorem scan_of_divides (h : Divides before text after lexemes) :
    scan (1 + before.count '\n') (text ++ after) =
      (scan (1 + (before ++ text).count '\n') after).map (lexemes ++ ·) := by
  induction h with
  | @blank before gap after hgap =>
    rw [scan_blank hgap, List.count_append, Nat.add_assoc]
    cases scan (1 + (before.count '\n' + gap.count '\n')) after <;> rfl
  | @token before gap text after token lexemes hgap htoken h ih =>
    have hcount : (before ++ gap ++ token.text.toList).count '\n' = (before ++ gap).count '\n' := by
      rw [List.count_append, count_of_matches htoken.written, Nat.add_zero]
    have hwhole : before ++ (gap ++ token.text.toList ++ text) =
        before ++ gap ++ token.text.toList ++ text := by
      simp only [List.append_assoc]
    rw [hcount] at ih
    rw [List.append_assoc, List.append_assoc, scan_blank hgap, Nat.add_assoc, ← List.count_append,
      scan_of_isLongest htoken, ih, hwhole]
    cases scan (1 + (before ++ gap ++ token.text.toList ++ text).count '\n') after <;> rfl

theorem beginsNothing_nil : BeginsNothing [] := by
  refine ⟨fun c hc => (nomatch hc), fun pattern start hstart => ?_⟩
  rw [List.prefix_nil.1 hstart]
  exact pattern.not_matches_nil

theorem Divides.gap_append (hgap : ∀ c ∈ gap, IsBlank c)
    (h : Divides (before ++ gap) text after lexemes) :
    Divides before (gap ++ text) after lexemes := by
  cases h with
  | blank hgap' => exact .blank (List.forall_mem_append.2 ⟨hgap, hgap'⟩)
  | @token _ gap' text _ token lexemes hgap' htoken h =>
    rw [List.append_assoc before] at h ⊢
    rw [← List.append_assoc, ← List.append_assoc]
    exact .token (List.forall_mem_append.2 ⟨hgap, hgap'⟩) htoken h

/-- Every text divides up to a place where nothing begins, which may be its end. -/
theorem exists_divides (before cs : List Char) :
    ∃ text after lexemes, cs = text ++ after ∧ Divides before text after lexemes ∧
      BeginsNothing after := by
  cases cs with
  | nil => exact ⟨[], [], [], rfl, .blank fun _ h => (nomatch h), beginsNothing_nil⟩
  | cons c cs =>
    -- a blank joins the gap of the next token, so it is passed before dividing on
    by_cases hc : IsBlank c
    · obtain ⟨text, after, lexemes, rfl, h, hafter⟩ := exists_divides (before ++ [c]) cs
      have hgap := h.gap_append (List.forall_mem_singleton.2 hc)
      exact ⟨[c] ++ text, after, lexemes, rfl, hgap, hafter⟩
    · cases hfirst : first? c cs with
      | none =>
        refine ⟨[], c :: cs, [], rfl, .blank fun _ h => (nomatch h), fun d hd => ?_,
          first?_eq_none_iff.1 hfirst⟩
        cases hd
        exact hc
      | some result =>
        obtain ⟨token, rest⟩ := result
        obtain ⟨hsplit, htoken⟩ := first?_eq_some_iff.1 hfirst
        have hlength := length_le_of_first? hfirst
        obtain ⟨text, after, lexemes, rfl, h, hafter⟩ :=
          exists_divides (before ++ [] ++ token.text.toList) rest
        exact ⟨[] ++ token.text.toList ++ text, after, _, by rw [hsplit, List.append_assoc]; rfl,
          .token (fun _ h => nomatch h) htoken h, hafter⟩
termination_by cs.length

theorem lexemes_of_divides {source : String} (h : Divides [] source.toList [] lexemes) :
    Token.lexemes source = .ok lexemes := by
  have hscan := scan_of_divides h
  rw [List.append_nil, scan.eq_1] at hscan
  exact hscan.trans (congrArg Except.ok (List.append_nil lexemes))

theorem lexemes_of_beginsNothing {source : String} (hsource : source.toList = text ++ c :: after)
    (h : Divides [] text (c :: after) lexemes) (hnothing : BeginsNothing (c :: after)) :
    Token.lexemes source = .error (.invalidCharacter c (1 + text.count '\n')) := by
  have hc := hnothing.1 c rfl
  rw [isBlank_iff, not_or] at hc
  have hscan := scan_of_divides h
  rw [scan_invalid hc.1 hc.2 (first?_eq_none_iff.2 hnothing.2), ← hsource] at hscan
  exact hscan

theorem divides_cases (source : String) :
    (∃ lexemes, Divides [] source.toList [] lexemes) ∨
      ∃ text c after lexemes, source.toList = text ++ c :: after ∧
        Divides [] text (c :: after) lexemes ∧ BeginsNothing (c :: after) := by
  obtain ⟨text, after, lexemes, hsource, h, hnothing⟩ := exists_divides [] source.toList
  cases after with
  | nil =>
    rw [hsource, List.append_nil]
    exact .inl ⟨lexemes, h⟩
  | cons c after => exact .inr ⟨text, c, after, lexemes, hsource, h, hnothing⟩

theorem divides_of_lexemes {source : String} (h : Token.lexemes source = .ok lexemes) :
    Divides [] source.toList [] lexemes := by
  rcases divides_cases source with ⟨found, hfound⟩ | ⟨text, c, after, found, hsource, hfound, hc⟩
  · rw [lexemes_of_divides hfound] at h
    exact Except.ok.inj h ▸ hfound
  · rw [lexemes_of_beginsNothing hsource hfound hc] at h
    cases h

theorem Divides.pairwise_line (h : Divides before text after lexemes) :
    (∀ lexeme ∈ lexemes, 1 + before.count '\n' ≤ lexeme.line) ∧
      lexemes.Pairwise fun a b => a.line ≤ b.line := by
  induction h with
  | blank hgap => exact ⟨fun _ h => (nomatch h), .nil⟩
  | @token before gap text after token lexemes hgap htoken h ih =>
    obtain ⟨hfrom, hpairwise⟩ := ih
    have hgapped : 1 + before.count '\n' ≤ 1 + (before ++ gap).count '\n' := by
      rw [List.count_append]
      omega
    have hlater : ∀ lexeme ∈ lexemes, 1 + (before ++ gap).count '\n' ≤ lexeme.line := by
      intro lexeme hmem
      have hline := hfrom lexeme hmem
      rw [List.count_append] at hline
      omega
    refine ⟨List.forall_mem_cons.2 ⟨hgapped, fun lexeme hmem => ?_⟩,
      List.pairwise_cons.2 ⟨hlater, hpairwise⟩⟩
    exact Nat.le_trans hgapped (hlater lexeme hmem)

theorem pairwise_line_of_lexemes {source : String} {lexemes : List Lexeme}
    (h : Token.lexemes source = .ok lexemes) : lexemes.Pairwise fun a b => a.line ≤ b.line :=
  (divides_of_lexemes h).pairwise_line.2

/-- The lexemes of a text are those of its division, and a text without one is refused at the first
character at which nothing begins. -/
theorem lexemes_iff_divides (source : String) :
    (∀ lexemes, Token.lexemes source = .ok lexemes ↔ Divides [] source.toList [] lexemes) ∧
      ∀ e, Token.lexemes source = .error e ↔
        ∃ text c after lexemes, source.toList = text ++ c :: after ∧
          Divides [] text (c :: after) lexemes ∧ BeginsNothing (c :: after) ∧
            e = .invalidCharacter c (1 + text.count '\n') := by
  refine ⟨fun lexemes => ⟨divides_of_lexemes, lexemes_of_divides⟩, fun e => ⟨fun h => ?_, ?_⟩⟩
  · rcases divides_cases source with ⟨found, hfound⟩ | ⟨text, c, after, found, hsource, hfound, hc⟩
    · rw [lexemes_of_divides hfound] at h
      cases h
    · rw [lexemes_of_beginsNothing hsource hfound hc] at h
      exact ⟨text, c, after, found, hsource, hfound, hc, (Except.error.inj h).symm⟩
  · rintro ⟨text, c, after, found, hsource, hfound, hc, rfl⟩
    exact lexemes_of_beginsNothing hsource hfound hc

/-- A digit of another script goes on with a name and begins nothing. -/
example : Token.lexemes "A\u0663;\n\u0663" = .error (.invalidCharacter '\u0663' 2) := by
  with_unfolding_all rfl

end IndicatorFormula.Token
