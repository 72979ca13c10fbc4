import IndicatorFormula.Program

/-!
One turn of a run: what it takes from the lexemes and what it leaves to the next.
-/

namespace IndicatorFormula

namespace Statement

variable {scope : Scope} {lexemes : List Lexeme} {s : Statement}

theorem rest_parseWhole_suffix (scope : Scope) (lexemes : List Lexeme) :
    (parseWhole scope lexemes).rest <:+ lexemes := by
  unfold parseWhole
  dsimp only
  split
  · exact rest_parse_suffix scope lexemes
  · exact (rest_parseEnd_suffix ..).trans (rest_parse_suffix scope lexemes)

theorem result_parse_of_parseWhole (h : (parseWhole scope lexemes).result = .ok s) :
    (parse scope lexemes).result = .ok s := by
  unfold parseWhole at h
  dsimp only at h
  split at h
  · cases h
  · next s' hs' =>
    rw [hs']
    cases hend : (parseEnd scope (parse scope lexemes).rest).result with
    | error e =>
      rw [hend] at h
      cases h
    | ok =>
      rw [hend] at h
      exact h

end Statement

namespace Program

variable {inputs : Inputs} {table after : Table Series} {endLine : Nat} {lexemes : List Lexeme}
  {s : Statement}

theorem runLexemes_nil : runLexemes inputs endLine table [] = .ok table := by
  rw [runLexemes]
  rfl

theorem runLexemes_of_unreadable {e : SyntaxError} (hempty : ¬lexemes.isEmpty = true)
    (he : (Statement.parseWhole (scope table endLine) lexemes).result = .error e) :
    runLexemes inputs endLine table lexemes = .error (.unreadable e) := by
  rw [runLexemes, if_neg hempty]
  dsimp only
  split
  · next e' he' =>
    rw [he'] at he
    cases he
    rfl
  · next s hs =>
    rw [hs] at he
    cases he

theorem runLexemes_of_unevaluable {e : EvaluationError} (hempty : ¬lexemes.isEmpty = true)
    (hs : (Statement.parseWhole (scope table endLine) lexemes).result = .ok s)
    (he : s.execute inputs table = .error e) :
    runLexemes inputs endLine table lexemes = .error (.unevaluable e) := by
  rw [runLexemes, if_neg hempty]
  dsimp only
  split
  · next e' he' =>
    rw [he'] at hs
    cases hs
  · next s' hs' =>
    rw [hs'] at hs
    cases hs
    simp only [he]

theorem runLexemes_of_ok (hempty : ¬lexemes.isEmpty = true)
    (hs : (Statement.parseWhole (scope table endLine) lexemes).result = .ok s)
    (hafter : s.execute inputs table = .ok after) :
    runLexemes inputs endLine table lexemes = runLexemes inputs endLine after
      (Statement.parseWhole (scope table endLine) lexemes).rest := by
  rw [runLexemes, if_neg hempty]
  dsimp only
  split
  · next e he =>
    rw [he] at hs
    cases hs
  · next s' hs' =>
    rw [hs'] at hs
    cases hs
    simp only [hafter]

end Program

end IndicatorFormula
