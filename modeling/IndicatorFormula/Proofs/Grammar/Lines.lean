import IndicatorFormula.Proofs.Evaluation.Faults
import IndicatorFormula.Proofs.Grammar.Nodes
import IndicatorFormula.Proofs.Grammar.Reads

/-!
Where lines come from. Every node of a tree that is read stands for a lexeme it was read from, and
has its line (`granted_lexeme_mem`). A syntax error has the line of a lexeme that was taken by
then, or that of the end where nothing is left (`Reads.line_from`).
-/

namespace IndicatorFormula

namespace Expr

/-- The number, the name or the operator that a node stands for. -/
def lexeme : Expr → Lexeme
  | number text line => ⟨.number text, line⟩
  | input name line | symbol name line => ⟨.identifier name, line⟩
  | binary op _ _ line => ⟨.operator op, line⟩
  | call f _ line => ⟨.identifier f.name, line⟩

theorem line_lexeme (e : Expr) : e.lexeme.line = e.line := by
  cases e <;> rfl

theorem Faults.line_eq {inputs : Inputs} {table : Table Series} {node : Expr}
    {error : EvaluationError} (h : node.Faults inputs table error) : error.line = node.line := by
  cases h with
  | operands hl hr hcombine =>
    rcases Series.combine_eq_error_iff.1 hcombine with ⟨-, rfl⟩ | ⟨-, -, index, -, rfl⟩ <;> rfl
  | _ => rfl

end Expr

namespace Grammar

open IndicatorFormula.Expr (Level Bracket Frame)

variable {scope : Scope} {chain : Chain} {stack stack' : List Frame} {place : Place}
  {lexemes taken rest : List Lexeme} {lexeme : Lexeme} {line : Nat}

theorem granted_lexeme_mem (scope : Scope) :
    Granted scope fun w node => node.lexeme ∈ w where
  mono hsub h := hsub h
  number h := h
  input h _ := h
  symbol h _ _ := h
  binary h := h
  call h _ := h

theorem line_of_ofCall {f : Builtin} {es : List Expr} {e : SyntaxError}
    (h : Expr.ofCall f es line = .error e) : e.line = line := by
  rcases ofCall_eq_error_cases h with rfl | rfl | ⟨series, period, n, -, -, -, -, rfl⟩ <;> rfl

def callLines (stack : List Frame) : List Nat :=
  stack.filterMap fun frame =>
    match frame.bracket with
    | .group => none
    | .call _ line _ => some line

/-- A line that a reader can report: that of a lexeme it took or of a call that is open, or that of
the end where nothing is left. -/
inductive LineFrom (scope : Scope) (stack : List Frame) (taken rest : List Lexeme) : Nat → Prop
  | lexeme {lexeme : Lexeme} {line : Nat} (hmem : lexeme ∈ taken) (hline : lexeme.line = line) :
    LineFrom scope stack taken rest line
  | call {line : Nat} (h : line ∈ callLines stack) : LineFrom scope stack taken rest line
  | theEnd (h : rest = []) : LineFrom scope stack taken rest scope.endLine

theorem LineFrom.cons (h : LineFrom scope stack' taken rest line)
    (hstack : callLines stack' ⊆ lexeme.line :: callLines stack) :
    LineFrom scope stack (lexeme :: taken) rest line := by
  cases h with
  | lexeme hmem hline => exact .lexeme (List.mem_cons_of_mem _ hmem) hline
  | call hline =>
    rcases List.mem_cons.1 (hstack hline) with rfl | hline
    · exact .lexeme (List.mem_cons_self ..) rfl
    · exact .call hline
  | theEnd hrest => exact .theEnd hrest

theorem exists_lineFrom_cons
    (h : ∃ taken, lexemes = taken ++ rest ∧ LineFrom scope stack' taken rest line)
    (hstack : callLines stack' ⊆ lexeme.line :: callLines stack) :
    ∃ taken, lexeme :: lexemes = taken ++ rest ∧ LineFrom scope stack taken rest line := by
  obtain ⟨taken, rfl, hline⟩ := h
  exact ⟨lexeme :: taken, rfl, hline.cons hstack⟩

theorem Reads.line_from {p : Parsed Expr} (h : Reads scope chain stack place lexemes p)
    {error : SyntaxError} (herror : p.result = .error error) :
    ∃ taken, lexemes = taken ++ p.rest ∧ LineFrom scope stack taken p.rest error.line := by
  induction h with
  | nothing | unclosed =>
    cases herror
    exact ⟨[], rfl, .theEnd rfl⟩
  | number h ih | openGroup h ih | name hcall hname h ih | operator hop h ih | closeGroup h ih
  | comma h ih =>
    exact exists_lineFrom_cons (ih herror) (List.subset_cons_self ..)
  | unknownCall hname =>
    cases herror
    exact ⟨[_, _], rfl, .lexeme (List.mem_cons_self ..) rfl⟩
  | openCall h ih =>
    -- the call is open from its parenthesis on, its line is that of its name
    exact exists_lineFrom_cons (exists_lineFrom_cons (ih herror) (List.subset_cons_self ..))
      (List.Subset.refl _)
  | unknownName hcall hname | unexpected htoken | refused htoken =>
    cases herror
    exact ⟨[_], rfl, .lexeme (List.mem_cons_self ..) rfl⟩
  | finish hop => cases herror
  | refusedCall hcheck =>
    cases herror
    refine ⟨[_], rfl, .call ?_⟩
    rw [line_of_ofCall hcheck]
    exact List.mem_cons_self ..
  | closeCall hes h ih =>
    exact exists_lineFrom_cons (ih herror)
      (List.Subset.trans (List.subset_cons_self ..) (List.subset_cons_self ..))

theorem ReadsStatement.line_from {p : Parsed Statement} (h : ReadsStatement scope lexemes p)
    {error : SyntaxError} (herror : p.result = .error error) :
    (p.rest = lexemes ∧ ∃ first ∈ lexemes.head?, first.line = error.line) ∨
      ∃ taken, lexemes = taken ++ p.rest ∧ LineFrom scope [] taken p.rest error.line := by
  cases h with
  | reserved hname =>
    cases herror
    exact .inl ⟨rfl, _, rfl, rfl⟩
  | assign hname h =>
    have hvalue := h.line_from (map_result_eq_error herror)
    exact .inr (exists_lineFrom_cons (exists_lineFrom_cons hvalue (List.subset_cons_self ..))
      (List.subset_cons_self ..))
  | bare hassign h => exact .inr (h.line_from (map_result_eq_error herror))

/-- An assignment to a reserved name is refused before anything is taken. -/
theorem line_from_of_parseWhole {error : SyntaxError}
    (h : Statement.parseWhole scope lexemes = ⟨.error error, rest⟩) :
    (rest = lexemes ∧ ∃ first ∈ lexemes.head?, first.line = error.line) ∨
      ∃ taken, lexemes = taken ++ rest ∧ LineFrom scope [] taken rest error.line := by
  have hwhole := readsWhole_parseWhole scope lexemes
  rw [h] at hwhole
  cases hwhole with
  | failed h => exact h.line_from rfl
  | @unended s token line rest h htoken =>
    obtain ⟨w, rfl, -⟩ := statement_of_parse h.eq
    exact .inr ⟨w ++ [⟨token, line⟩], (List.append_cons ..), .lexeme
      (List.mem_append_right w (List.mem_cons_self ..)) rfl⟩
  | exhausted h =>
    exact .inr ⟨lexemes, (List.append_nil lexemes).symm, .theEnd rfl⟩

end Grammar

end IndicatorFormula
