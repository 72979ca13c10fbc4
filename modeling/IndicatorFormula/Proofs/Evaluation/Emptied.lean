import IndicatorFormula.Proofs.Evaluation.Faults
import IndicatorFormula.Proofs.Evaluation.Length
import IndicatorFormula.Proofs.Table.Map

/-!
Evaluation without the points. On series emptied of their points an expression comes to the same,
emptied, and to the same error, unless on the points themselves it divides by zero
(`Expr.evaluate_emptied`). Where there are no points, nothing divides by zero.
-/

namespace IndicatorFormula

def EvaluationError.IsZeroDivision : EvaluationError → Prop
  | divisionByZero .. => True
  | badNumber .. | unboundInput .. | unboundSymbol .. | unimplemented .. | malformedCall ..
  | lengthMismatch .. => False

def FailsBy {ε α : Type} (kind : ε → Prop) (x : Except ε α) : Prop :=
  ∃ e, x = .error e ∧ kind e

theorem bind_unless {ε α α' β β' : Type} {kind : ε → Prop} {x : Except ε α} {x' : Except ε α'}
    {f : α → Except ε β} {f' : α' → Except ε β'} {a : α → α'} {b : β → β'}
    (hx : FailsBy kind x ∨ x' = x.map a)
    (hf : ∀ v, x = .ok v → FailsBy kind (f v) ∨ f' (a v) = (f v).map b) :
    FailsBy kind (x >>= f) ∨ x' >>= f' = (x >>= f).map b := by
  rcases hx with ⟨e, rfl, he⟩ | rfl
  · exact .inl ⟨e, rfl, he⟩
  · cases x with
    | error e => exact .inr rfl
    | ok v => exact hf v rfl

def Table.emptied (table : Table Series) : Table Series :=
  table.map fun _ => []

def Inputs.emptied (table : Table Series) : Inputs where
  table := table.emptied
  length := 0
  aligned := by
    intro entry hentry
    obtain ⟨original, -, rfl⟩ := List.mem_map.1 hentry
    rfl

variable {inputs : Inputs} {table : Table Series}

theorem Table.get?_emptied (table : Table Series) (name : String) :
    table.emptied.get? name = (table.get? name).map fun _ => [] :=
  get?_map ..

theorem Series.combine_emptied {op : Operator} {line : Nat} {l r : Series}
    (hlength : l.length = r.length) :
    FailsBy EvaluationError.IsZeroDivision (combine op line l r) ∨
      combine op line [] [] = (combine op line l r).map fun _ => [] := by
  have hnone : combine op line [] [] = .ok [] :=
    combine_eq_ok_iff.2 ⟨rfl, fun _ _ hx => (nomatch hx), rfl⟩
  cases hcombine : combine op line l r with
  | ok s => exact .inr hnone
  | error e =>
    rcases combine_eq_error_iff.1 hcombine with ⟨hne, -⟩ | ⟨-, -, index, -, rfl⟩
    · exact absurd hlength hne
    · exact .inl ⟨_, rfl, trivial⟩

theorem Builtin.series?_emptied {f : Builtin} {g : Series → Int → Series} (h : f.series? = some g)
    (n : Int) : g [] n = [] :=
  List.eq_nil_of_length_eq_zero (length_series? h [] n)

theorem Expr.evaluate_emptied (hmeasures : inputs.Measures table) (e : Expr) :
    FailsBy EvaluationError.IsZeroDivision (e.evaluate inputs table) ∨
      e.evaluate (.emptied inputs.table) table.emptied =
        (e.evaluate inputs table).map fun _ => [] := by
  induction e using Expr.induction_evaluated with
  | number text line =>
    right
    rw [evaluate, evaluate]
    cases Decimal.readFloat? text <;> rfl
  | input name line =>
    right
    have hget : (Inputs.emptied inputs.table).get? name = (inputs.get? name).map fun _ => [] :=
      Table.get?_emptied ..
    rw [evaluate, evaluate, hget]
    cases inputs.get? name <;> rfl
  | symbol name line =>
    right
    rw [evaluate, evaluate, Table.get?_emptied]
    cases table.get? name <;> rfl
  | binary op left right line ihl ihr =>
    rw [evaluate, evaluate]
    refine bind_unless ihl fun l hl => bind_unless ihr fun r hr => Series.combine_emptied ?_
    rw [length_of_evaluate hmeasures hl, length_of_evaluate hmeasures hr]
  | call f es line ih =>
    rcases call_cases f es with hf | ⟨hf, hes⟩ | ⟨g, argument, period, n, hg, rfl, hn⟩
    · rw [evaluate_call_unimplemented hf, evaluate_call_unimplemented hf]
      exact .inr rfl
    · rw [evaluate_call_malformed hf hes, evaluate_call_malformed hf hes]
      exact .inr rfl
    · rw [evaluate_call_eq_bind hg hn, evaluate_call_eq_bind hg hn]
      exact bind_unless (ih argument period rfl) fun s _ =>
        .inr (congrArg _ (Builtin.series?_emptied hg n))

theorem Statement.execute_emptied (hmeasures : inputs.Measures table) (s : Statement) :
    FailsBy EvaluationError.IsZeroDivision (s.execute inputs table) ∨
      s.execute (.emptied inputs.table) table.emptied =
        (s.execute inputs table).map Table.emptied := by
  cases s with
  | assign name value line =>
    rw [execute_assign, execute_assign]
    exact bind_unless (Expr.evaluate_emptied hmeasures value) fun series _ =>
      .inr (congrArg _ (Table.map_insert ..).symm)
  | bare value line =>
    rw [execute_bare, execute_bare]
    exact bind_unless (Expr.evaluate_emptied hmeasures value) fun _ _ => .inr rfl

/-- A divisor has no zero where it has no point. -/
theorem Expr.not_zeroDivision_of_length_eq_zero (hlength : inputs.length = 0)
    (hmeasures : inputs.Measures table) (e : Expr) :
    ¬FailsBy EvaluationError.IsZeroDivision (e.evaluate inputs table) := by
  rintro ⟨error, herror, hzero⟩
  obtain ⟨node, -, hfaults⟩ := exists_faults_of_evaluate herror
  cases hfaults with
  | @operands op left right line l r error hl hr hcombine =>
    rcases Series.combine_eq_error_iff.1 hcombine with ⟨-, rfl⟩ | ⟨-, -, index, hindex, -⟩
    · exact hzero
    · have hr : r = [] :=
        List.eq_nil_of_length_eq_zero ((length_of_evaluate hmeasures hr).trans hlength)
      rw [hr] at hindex
      cases hindex
  | _ => exact hzero

end IndicatorFormula
