import IndicatorFormula.Proofs.Layout
import IndicatorFormula.Token.Scan

/-!
The lexemes of two texts put together. A text whose last token is a semicolon, or which has no
token, joins what follows without a seam: the lexemes are those of both, the later ones lower by
the lines of the earlier text (`lexemes_append`).
-/

namespace IndicatorFormula

/-- No statement is left open at the end of the lexemes. -/
def EndsStatement (lexemes : List Lexeme) : Prop :=
  ∀ last ∈ lexemes.getLast?, last.token = .semicolon

theorem endsStatement_nil : EndsStatement [] :=
  fun _ hmem => nomatch hmem

theorem endsStatement_cons {lexeme : Lexeme} {lexemes : List Lexeme} :
    EndsStatement (lexeme :: lexemes) ↔
      (lexemes = [] → lexeme.token = .semicolon) ∧ EndsStatement lexemes := by
  cases lexemes with
  | nil =>
    refine ⟨fun h => ⟨fun _ => h lexeme rfl, endsStatement_nil⟩, fun h last hlast => ?_⟩
    cases hlast
    exact h.1 rfl
  | cons second lexemes =>
    rw [EndsStatement, EndsStatement, List.getLast?_cons_cons]
    exact ⟨fun h => ⟨fun hnil => (nomatch hnil), h⟩, And.right⟩

theorem endsStatement_append {v w : List Lexeme} (hw : w ≠ []) :
    EndsStatement (v ++ w) ↔ EndsStatement w := by
  rw [EndsStatement, EndsStatement, List.getLast?_append, List.getLast?_eq_some_getLast hw,
    Option.some_or]

theorem EndsStatement.semicolon {rest : List Lexeme} (h : EndsStatement rest) (w : List Lexeme)
    (line : Nat) : EndsStatement (w ++ ⟨.semicolon, line⟩ :: rest) :=
  (endsStatement_append (List.cons_ne_nil _ _)).2 (endsStatement_cons.2 ⟨fun _ => rfl, h⟩)

theorem Token.relayout_down (lines : Nat) (token : Token) :
    token.relayout (.down lines) = token := by
  cases token <;> rfl

namespace Token

variable {c : Char} {cs after : List Char} {token : Token} {line : Nat} {lexemes : List Lexeme}

/-- The line breaks of a text. -/
def newlines (text : String) : Nat :=
  text.toList.count '\n'

/-! ## One token -/

theorem span_append {p : Char → Bool} (h : cs.dropWhile p ≠ []) (ds : List Char) :
    (cs ++ ds).takeWhile p = cs.takeWhile p ∧ (cs ++ ds).dropWhile p = cs.dropWhile p ++ ds := by
  rw [List.takeWhile_append, List.dropWhile_append, List.isEmpty_eq_false_iff.2 h]
  refine ⟨if_neg fun hlength => ?_, if_neg Bool.false_ne_true⟩
  have hparts := congrArg List.length (List.takeWhile_append_dropWhile (p := p) (l := cs))
  rw [List.length_append, hlength, Nat.add_eq_left, List.length_eq_zero_iff] at hparts
  exact h hparts

theorem takeEquals_of_ne {d : Char} (hd : d ≠ '=') :
    takeEquals c (d :: cs) = (String.singleton c, d :: cs) := by
  unfold takeEquals
  split
  · next heq => exact absurd (List.cons.inj heq).1 hd
  · rfl

theorem takeEquals_append (h : (takeEquals c cs).2 ≠ []) (ds : List Char) :
    takeEquals c (cs ++ ds) = ((takeEquals c cs).1, (takeEquals c cs).2 ++ ds) := by
  cases cs with
  | nil => exact absurd rfl h
  | cons d cs =>
    by_cases hd : d = '='
    · subst hd
      rfl
    · rw [List.cons_append, takeEquals_of_ne hd, takeEquals_of_ne hd]
      rfl

theorem ofMark?_append (h : ofMark? c cs = some (token, after))
    (hseam : after ≠ [] ∨ token = semicolon) (ds : List Char) :
    ofMark? c (cs ++ ds) = some (token, after ++ ds) := by
  unfold ofMark? at h ⊢
  split at h
  case h_14 => cases h
  case h_9 | h_10 | h_11 | h_12 | h_13 =>
    cases h
    have hafter := hseam.resolve_right fun htoken => nomatch htoken
    rw [takeEquals_append hafter]
  all_goals
    cases h
    rfl

/-- A token is as long with more text behind it, unless nothing stood behind it. -/
theorem first?_append (h : first? c cs = some (token, after))
    (hseam : after ≠ [] ∨ token = semicolon) (ds : List Char) :
    first? c (cs ++ ds) = some (token, after ++ ds) := by
  unfold first? at h ⊢
  split at h
  · next hnumber =>
    cases h
    obtain ⟨htake, hdrop⟩ := span_append (hseam.resolve_right fun htoken => nomatch htoken) ds
    rw [if_pos hnumber, htake, hdrop]
  · next hnumber =>
    split at h
    · next hletter =>
      cases h
      obtain ⟨htake, hdrop⟩ := span_append (hseam.resolve_right fun htoken => nomatch htoken) ds
      rw [if_neg hnumber, if_pos hletter, htake, hdrop]
    · next hletter =>
      rw [if_neg hnumber, if_neg hletter]
      exact ofMark?_append h hseam ds

theorem count_dropWhile {p : Char → Bool} (hp : p '\n' = false) (cs : List Char) :
    (cs.dropWhile p).count '\n' = cs.count '\n' := by
  have htake : (cs.takeWhile p).count '\n' = 0 := by
    refine List.count_eq_zero.2 fun hmem => ?_
    exact absurd (List.all_eq_true.1 List.all_takeWhile _ hmem) (Bool.not_eq_true _ ▸ hp)
  have hparts := congrArg (List.count '\n') (List.takeWhile_append_dropWhile (p := p) (l := cs))
  rwa [List.count_append, htake, Nat.zero_add] at hparts

theorem count_takeEquals (c : Char) (cs : List Char) :
    (takeEquals c cs).2.count '\n' = cs.count '\n' := by
  unfold takeEquals
  split
  · rw [List.count_cons_of_ne (by decide)]
  · rfl

theorem count_of_first? (h : first? c cs = some (token, after)) :
    after.count '\n' = cs.count '\n' := by
  unfold first? at h
  split at h
  · cases h
    exact count_dropWhile (by decide) cs
  · split at h
    · cases h
      exact count_dropWhile (by decide) cs
    · unfold ofMark? at h
      split at h <;> cases h <;> first | rfl | exact count_takeEquals _ cs

/-! ## Texts -/

theorem scan_newline (line : Nat) (cs : List Char) :
    scan line ('\n' :: cs) = scan (line + 1) cs := by
  rw [scan]
  exact if_pos rfl

theorem scan_separator (hnewline : c ≠ '\n') (hseparator : isSeparator c = true) (line : Nat)
    (cs : List Char) : scan line (c :: cs) = scan line cs := by
  rw [scan, if_neg hnewline]
  exact if_pos hseparator

theorem scan_invalid (hnewline : c ≠ '\n') (hseparator : ¬isSeparator c = true)
    (hfirst : first? c cs = none) (line : Nat) :
    scan line (c :: cs) = .error (.invalidCharacter c line) := by
  rw [scan, if_neg hnewline, if_neg hseparator]
  split
  · rfl
  · next heq =>
    rw [hfirst] at heq
    cases heq

theorem scan_token (hnewline : c ≠ '\n') (hseparator : ¬isSeparator c = true)
    (hfirst : first? c cs = some (token, after)) (line : Nat) :
    scan line (c :: cs) = (scan line after).map (⟨token, line⟩ :: ·) := by
  rw [scan, if_neg hnewline, if_neg hseparator]
  split
  · next heq =>
    rw [hfirst] at heq
    cases heq
  · next token' after' heq =>
    rw [hfirst] at heq
    cases heq
    cases scan line after <;> rfl

theorem scan_append (h : scan line cs = .ok lexemes) (hends : EndsStatement lexemes)
    (ds : List Char) :
    scan line (cs ++ ds) = (scan (line + cs.count '\n') ds).map (lexemes ++ ·) := by
  fun_induction scan line cs generalizing lexemes with
  | case1 line =>
    cases h
    change scan line ds = (scan line ds).map id
    cases scan line ds <;> rfl
  | case2 line rest ih =>
    rw [List.cons_append, scan_newline, ih h hends, List.count_cons_self, Nat.add_right_comm,
      Nat.add_assoc]
  | case3 line c rest hnewline hseparator ih =>
    rw [List.cons_append, scan_separator hnewline hseparator, ih h hends,
      List.count_cons_of_ne hnewline]
  | case4 line c rest hnewline hseparator hfirst => cases h
  | case5 line c rest hnewline hseparator token after hfirst e hafter ih => cases h
  | case6 line c rest hnewline hseparator token after hfirst later hafter ih =>
    cases h
    obtain ⟨hlast, hlater⟩ := endsStatement_cons.1 hends
    -- nothing behind the token means that it is the last one
    have hseam : after ≠ [] ∨ token = semicolon := by
      by_cases hnil : after = []
      · subst hnil
        rw [scan] at hafter
        exact .inr (hlast (Except.ok.inj hafter).symm)
      · exact .inl hnil
    rw [List.cons_append, scan_token hnewline hseparator (first?_append hfirst hseam ds),
      ih hafter hlater, count_of_first? hfirst, List.count_cons_of_ne hnewline]
    cases scan (line + rest.count '\n') ds <;> rfl

theorem scan_down (lines line : Nat) (cs : List Char) :
    scan (line + lines) cs =
      ((scan line cs).map (List.map (Lexeme.relayout (.down lines)))).mapError
        (SyntaxError.relayout (.down lines)) := by
  fun_induction scan line cs with
  | case1 line =>
    rw [scan]
    rfl
  | case2 line rest ih => rw [scan_newline, Nat.add_right_comm, ih]
  | case3 line c rest hnewline hseparator ih => rw [scan_separator hnewline hseparator, ih]
  | case4 line c rest hnewline hseparator hfirst =>
    rw [scan_invalid hnewline hseparator hfirst]
    rfl
  | case5 line c rest hnewline hseparator token after hfirst e hafter ih =>
    rw [scan_token hnewline hseparator hfirst, ih, hafter]
    rfl
  | case6 line c rest hnewline hseparator token after hfirst later hafter ih =>
    have hlexeme : Lexeme.relayout (.down lines) ⟨token, line⟩ = ⟨token, line + lines⟩ := by
      rw [Lexeme.relayout, relayout_down]
      rfl
    rw [scan_token hnewline hseparator hfirst, ih, hafter, ← hlexeme]
    rfl

theorem lexemes_append {source : String} (h : Token.lexemes source = .ok lexemes)
    (hends : EndsStatement lexemes) (later : String) :
    Token.lexemes (source ++ later) =
      (((Token.lexemes later).map (List.map (Lexeme.relayout (.down (newlines source))))).mapError
        (SyntaxError.relayout (.down (newlines source)))).map (lexemes ++ ·) := by
  rw [Token.lexemes, String.toList_append, scan_append h hends, scan_down]
  rfl

end Token

end IndicatorFormula
