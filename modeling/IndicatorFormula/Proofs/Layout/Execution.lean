import IndicatorFormula.Proofs.Layout.Reading
import IndicatorFormula.Proofs.Program.Steps
import IndicatorFormula.Proofs.Program.TwoPasses

/-!
Execution respects layout: where a formula is laid out anew it gives the same table or the same
failure, laid out anew (`runLexemes_relayout`).
-/

namespace IndicatorFormula

variable (r : Relayout) {inputs : Inputs} {table : Table Series}

theorem Series.combine_relayout (op : Operator) (line : Nat) (left right : Series) :
    combine op (r.line line) left right =
      (combine op line left right).mapError (EvaluationError.relayout r) := by
  unfold combine
  split
  · rfl
  · split <;> rfl

theorem mapError_bind {ε ε' α β : Type} (f : ε → ε') (x : Except ε α) (g : α → Except ε β) :
    (x >>= g).mapError f = x.mapError f >>= fun a => (g a).mapError f := by
  cases x <;> rfl

theorem Expr.evaluate_relayout (e : Expr) :
    (e.relayout r).evaluate inputs table =
      (e.evaluate inputs table).mapError (EvaluationError.relayout r) := by
  induction e using Expr.induction_evaluated with
  | number text line =>
    simp only [relayout, evaluate]
    split <;> rfl
  | input name line =>
    simp only [relayout, evaluate]
    split <;> rfl
  | symbol name line =>
    simp only [relayout, evaluate]
    split <;> rfl
  | binary op left right line ihl ihr =>
    simp only [relayout, evaluate, mapError_bind, ihl, ihr, Series.combine_relayout]
  | call f es line ih =>
    rw [relayout_call, evaluate, evaluate]
    split
    · rfl
    · rcases es with _ | ⟨argument, _ | ⟨period, _ | ⟨_, _⟩⟩⟩
      · rfl
      · rfl
      · simp only [List.map_cons, List.map_nil, integerLiteral?_relayout, ih argument period rfl]
        split
        · rfl
        · rw [mapError_bind]
          rfl
      · rfl

theorem Statement.execute_relayout (s : Statement) :
    (s.relayout r).execute inputs table =
      (s.execute inputs table).mapError (EvaluationError.relayout r) := by
  cases s with
  | assign name value line =>
    simp only [relayout, execute_assign, mapError_bind, Expr.evaluate_relayout]
    rfl
  | bare value line =>
    simp only [relayout, execute_bare, mapError_bind, Expr.evaluate_relayout]
    rfl

@[simp] theorem Statement.assigned_relayout (s : Statement) :
    (s.relayout r).assigned = s.assigned := by
  cases s <;> rfl

namespace Program

variable {endLine : Nat} {lexemes : List Lexeme} {names : List String}

theorem not_isEmpty_relayout (hempty : ¬lexemes.isEmpty = true) :
    ¬(lexemes.map (Lexeme.relayout r)).isEmpty = true := by
  rwa [List.isEmpty_map]

theorem runLexemes_relayout :
    runLexemes inputs (r.line endLine) table (lexemes.map (Lexeme.relayout r)) =
      (runLexemes inputs endLine table lexemes).mapError (Failure.relayout r) := by
  fun_induction runLexemes inputs endLine table lexemes with
  | case1 table lexemes hempty =>
    rw [List.isEmpty_iff.1 hempty]
    exact runLexemes_nil
  | case2 table lexemes hempty statement e he =>
    have hempty' := not_isEmpty_relayout r hempty
    have hwhole := Grammar.parseWhole_relayout_of_error r he
    exact runLexemes_of_unreadable hempty' hwhole
  | case3 table lexemes hempty statement s hs e he =>
    have hempty' := not_isEmpty_relayout r hempty
    have he' : (s.relayout r).execute inputs table = .error (e.relayout r) := by
      rw [Statement.execute_relayout, he]
      rfl
    have hwhole := Grammar.parseWhole_relayout_of_ok r hs
    exact runLexemes_of_unevaluable hempty' hwhole he'
  | case4 table lexemes hempty statement s hs after hafter ih =>
    have hempty' := not_isEmpty_relayout r hempty
    have hafter' : (s.relayout r).execute inputs table = .ok after := by
      rw [Statement.execute_relayout, hafter]
      rfl
    have hwhole := Grammar.parseWhole_relayout_of_ok r hs
    have hstep := runLexemes_of_ok hempty' hwhole hafter'
    -- the next statement begins at the same lexeme
    have hrest : (Statement.parseWhole (scope table (r.line endLine))
        (lexemes.map (Lexeme.relayout r))).rest = statement.rest.map (Lexeme.relayout r) :=
      congrArg Parsed.rest (Grammar.parseWhole_relayout r (scope table endLine) lexemes)
    exact hstep.trans (hrest ▸ ih)

def Reading.relayout (reading : Reading) : Reading :=
  ⟨reading.statements.map (Statement.relayout r), reading.error.map (SyntaxError.relayout r)⟩

/-- The statements that are read keep to the lines of the lexemes. -/
theorem readAll_relayout :
    readAll (r.line endLine) names (lexemes.map (Lexeme.relayout r)) =
      (readAll endLine names lexemes).relayout r := by
  fun_induction readAll endLine names lexemes with
  | case1 names lexemes hempty =>
    rw [List.isEmpty_iff.1 hempty, List.map_nil, readAll_nil]
    rfl
  | case2 names lexemes hempty statement e he =>
    have hempty' := not_isEmpty_relayout r hempty
    have hwhole := Grammar.parseWhole_relayout_of_error r he
    exact readAll_of_error hempty' hwhole
  | case3 names lexemes hempty statement s hs later ih =>
    have hempty' := not_isEmpty_relayout r hempty
    have hwhole := Grammar.parseWhole_relayout_of_ok r hs
    have hstep := readAll_of_ok hempty' hwhole
    have hrest : (Statement.parseWhole ⟨names, r.line endLine⟩
        (lexemes.map (Lexeme.relayout r))).rest = statement.rest.map (Lexeme.relayout r) :=
      congrArg Parsed.rest (Grammar.parseWhole_relayout r ⟨names, endLine⟩ lexemes)
    rw [Statement.assigned_relayout, hrest, ih] at hstep
    exact hstep

end Program

end IndicatorFormula
