import IndicatorFormula.Expr.Parse

/-!
The statements of a formula, read one at a time from its lexemes. A statement that begins with a
name and an assignment mark gives the name the value that follows; any other is an expression. A
semicolon ends each.
-/

namespace IndicatorFormula.Statement

/-- A reserved name that is to be assigned is refused before anything is taken. -/
def parse (scope : Scope) (lexemes : List Lexeme) : Parsed Statement :=
  match lexemes with
  | ⟨.identifier name, line⟩ :: ⟨.assign mark, markLine⟩ :: rest =>
    if isReserved name then
      ⟨.error (.reservedName name line),
        ⟨.identifier name, line⟩ :: ⟨.assign mark, markLine⟩ :: rest⟩
    else
      let value := Expr.parse scope .sum rest
      ⟨value.result.map (assign name · line), value.rest⟩
  | _ =>
    let value := Expr.parse scope .sum lexemes
    let line := (lexemes.head?.map Lexeme.line).getD scope.endLine
    ⟨value.result.map (bare · line), value.rest⟩

/-- Takes the semicolon, or whatever stands in its place. -/
def parseEnd (scope : Scope) : List Lexeme → Parsed Unit
  | [] => ⟨.error (.missingSemicolon none scope.endLine), []⟩
  | ⟨.semicolon, _⟩ :: rest => ⟨.ok (), rest⟩
  | ⟨token, line⟩ :: rest => ⟨.error (.missingSemicolon (some token) line), rest⟩

/-- A statement with its semicolon. -/
def parseWhole (scope : Scope) (lexemes : List Lexeme) : Parsed Statement :=
  let statement := parse scope lexemes
  match statement.result with
  | .error e => ⟨.error e, statement.rest⟩
  | .ok s =>
    let mark := parseEnd scope statement.rest
    ⟨mark.result.map fun _ => s, mark.rest⟩

theorem rest_parse_suffix (scope : Scope) (lexemes : List Lexeme) :
    (parse scope lexemes).rest <:+ lexemes := by
  unfold parse
  split
  · split
    · exact List.suffix_rfl
    · exact ((Expr.rest_parse_suffix ..).trans (List.suffix_cons ..)).trans (List.suffix_cons ..)
  · exact Expr.rest_parse_suffix ..

theorem rest_parseEnd_suffix (scope : Scope) (lexemes : List Lexeme) :
    (parseEnd scope lexemes).rest <:+ lexemes := by
  unfold parseEnd
  split
  · exact List.suffix_rfl
  · exact List.suffix_cons ..
  · exact List.suffix_cons ..

theorem length_rest_lt_of_parseEnd_ok {scope : Scope} {lexemes : List Lexeme}
    (h : (parseEnd scope lexemes).result = .ok ()) :
    (parseEnd scope lexemes).rest.length < lexemes.length := by
  unfold parseEnd at h ⊢
  split at h
  · cases h
  · exact Nat.lt_succ_self _
  · cases h

theorem length_rest_lt_of_parseWhole_ok {scope : Scope} {lexemes : List Lexeme} {s : Statement}
    (h : (parseWhole scope lexemes).result = .ok s) :
    (parseWhole scope lexemes).rest.length < lexemes.length := by
  simp only [parseWhole] at h ⊢
  split at h
  · cases h
  · next hstatement =>
    dsimp only
    have hend : (parseEnd scope (parse scope lexemes).rest).result = .ok () := by
      cases hresult : (parseEnd scope (parse scope lexemes).rest).result with
      | error e => rw [hresult] at h; cases h
      | ok => rfl
    exact Nat.lt_of_lt_of_le (length_rest_lt_of_parseEnd_ok hend)
      (rest_parse_suffix scope lexemes).length_le

end IndicatorFormula.Statement
