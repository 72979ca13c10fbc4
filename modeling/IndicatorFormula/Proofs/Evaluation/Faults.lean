import IndicatorFormula.Proofs.Evaluation.Pointwise

/-!
Why evaluation fails: an error is the fault of one of the nodes that evaluation comes to
(`Expr.exists_faults_of_evaluate`), and `Expr.Faults` says for each kind of node what its faults
are.
-/

namespace IndicatorFormula

theorem except_bind_eq_error_iff {ε α β : Type} {x : Except ε α} {f : α → Except ε β} {e : ε} :
    (x >>= f) = .error e ↔ x = .error e ∨ ∃ a, x = .ok a ∧ f a = .error e := by
  cases x with
  | error e' =>
    refine ⟨fun h => .inl (congrArg _ (Except.error.inj h)), ?_⟩
    rintro (h | ⟨a, ha, -⟩)
    · exact congrArg _ (Except.error.inj h)
    · cases ha
  | ok a =>
    refine ⟨fun h => .inr ⟨a, rfl, h⟩, ?_⟩
    rintro (h | ⟨a', ha, h⟩)
    · cases h
    · cases ha
      exact h

theorem Series.combine_eq_error_iff {op : Operator} {line : Nat} {l r : Series}
    {error : EvaluationError} : Series.combine op line l r = .error error ↔
      (l.length ≠ r.length ∧ .lengthMismatch op l.length r.length line = error) ∨
        l.length = r.length ∧ op = .div ∧
          ∃ index, r.firstZero? = some index ∧ .divisionByZero index line = error := by
  unfold Series.combine
  by_cases hlength : l.length = r.length
  · by_cases hop : op = .div
    · cases hzero : r.firstZero? with
      | none =>
        simp only [hlength, hop, ne_eq, not_true_eq_false, if_false, if_true, false_and,
          reduceCtorEq, exists_false, and_false, or_false]
      | some index =>
        simp only [hlength, hop, ne_eq, not_true_eq_false, if_false, if_true, false_and, true_and,
          false_or, Option.some.injEq, exists_eq_left', Except.error.injEq]
    · simp only [hlength, hop, ne_eq, not_true_eq_false, if_false, false_and, and_false, or_false,
        reduceCtorEq]
  · simp only [hlength, ne_eq, not_false_eq_true, if_true, true_and, false_and, or_false,
      Except.error.injEq]

namespace Expr

/-- The errors that evaluation raises at a node itself, the nodes below it apart. -/
inductive Faults (inputs : Inputs) (table : Table Series) : Expr → EvaluationError → Prop
  | number {text : String} {line : Nat} (h : Decimal.readFloat? text = none) :
    Faults inputs table (number text line) (.badNumber text line)
  | input {name : String} {line : Nat} (h : inputs.get? name = none) :
    Faults inputs table (input name line) (.unboundInput name line)
  | symbol {name : String} {line : Nat} (h : table.get? name = none) :
    Faults inputs table (symbol name line) (.unboundSymbol name line)
  | operands {op : Operator} {left right : Expr} {line : Nat} {l r : Series}
    {error : EvaluationError} (hl : left.evaluate inputs table = .ok l)
    (hr : right.evaluate inputs table = .ok r) (h : Series.combine op line l r = .error error) :
    Faults inputs table (binary op left right line) error
  | unimplemented {f : Builtin} {es : List Expr} {line : Nat} (h : f.isImplemented = false) :
    Faults inputs table (call f es line) (.unimplemented f line)
  | malformed {f : Builtin} {es : List Expr} {line : Nat} (hf : f.isImplemented = true)
    (h : ¬∃ argument period n, es = [argument, period] ∧ period.integerLiteral? = some n) :
    Faults inputs table (call f es line) (.malformedCall f line)

variable {inputs : Inputs} {table : Table Series} {error : EvaluationError}

theorem evaluate_number_eq_error_iff {text : String} {line : Nat} :
    evaluate inputs table (number text line) = .error error ↔
      Decimal.readFloat? text = none ∧ .badNumber text line = error := by
  rw [evaluate]
  cases Decimal.readFloat? text with
  | none => simp only [true_and, Except.error.injEq]
  | some x => simp only [reduceCtorEq, false_and]

theorem evaluate_input_eq_error_iff {name : String} {line : Nat} :
    evaluate inputs table (input name line) = .error error ↔
      inputs.get? name = none ∧ .unboundInput name line = error := by
  rw [evaluate]
  cases inputs.get? name with
  | none => simp only [true_and, Except.error.injEq]
  | some s => simp only [reduceCtorEq, false_and]

theorem evaluate_symbol_eq_error_iff {name : String} {line : Nat} :
    evaluate inputs table (symbol name line) = .error error ↔
      table.get? name = none ∧ .unboundSymbol name line = error := by
  rw [evaluate]
  cases table.get? name with
  | none => simp only [true_and, Except.error.injEq]
  | some s => simp only [reduceCtorEq, false_and]

theorem evaluate_binary_eq_error_iff {op : Operator} {left right : Expr} {line : Nat} :
    evaluate inputs table (binary op left right line) = .error error ↔
      left.evaluate inputs table = .error error ∨
        ∃ l, left.evaluate inputs table = .ok l ∧
          (right.evaluate inputs table = .error error ∨
            ∃ r, right.evaluate inputs table = .ok r ∧
              Series.combine op line l r = .error error) := by
  rw [evaluate]
  simp only [except_bind_eq_error_iff]

theorem evaluate_call_unimplemented {f : Builtin} {es : List Expr} {line : Nat}
    (hf : f.isImplemented = false) :
    evaluate inputs table (call f es line) = .error (.unimplemented f line) := by
  have hg : f.series? = none := by
    cases hg : f.series? with
    | none => rfl
    | some g => exact absurd (exists_series?_iff.1 ⟨g, hg⟩) (Bool.not_eq_true _ ▸ hf)
  simp only [evaluate, hg]

theorem evaluate_call_malformed {f : Builtin} {es : List Expr} {line : Nat}
    (hf : f.isImplemented = true)
    (hes : ¬∃ argument period n, es = [argument, period] ∧ period.integerLiteral? = some n) :
    evaluate inputs table (call f es line) = .error (.malformedCall f line) := by
  obtain ⟨g, hg⟩ := exists_series?_iff.2 hf
  rw [evaluate]
  simp only [hg]
  split
  · next argument period =>
    cases hn : period.integerLiteral? with
    | none => rfl
    | some n => exact absurd ⟨argument, period, n, rfl, hn⟩ hes
  · rfl

theorem evaluate_call_eq_bind {f : Builtin} {g : Series → Int → Series} {argument period : Expr}
    {n : Int} (hg : f.series? = some g) (hn : period.integerLiteral? = some n) (line : Nat) :
    evaluate inputs table (call f [argument, period] line) =
      argument.evaluate inputs table >>= fun s => .ok (g s n) := by
  rw [evaluate]
  simp only [hg, hn]

theorem evaluate_call_eq_error_iff {f : Builtin} {g : Series → Int → Series}
    {argument period : Expr} {n : Int} (hg : f.series? = some g)
    (hn : period.integerLiteral? = some n) (line : Nat) :
    evaluate inputs table (call f [argument, period] line) = .error error ↔
      argument.evaluate inputs table = .error error := by
  rw [evaluate_call_eq_bind hg hn, except_bind_eq_error_iff]
  simp only [reduceCtorEq, and_false, exists_false, or_false]

/-- The checks of a call come before its argument, in this order. -/
theorem call_cases (f : Builtin) (es : List Expr) :
    f.isImplemented = false ∨
      (f.isImplemented = true ∧
        ¬∃ argument period n, es = [argument, period] ∧ period.integerLiteral? = some n) ∨
      ∃ g argument period n, f.series? = some g ∧ es = [argument, period] ∧
        period.integerLiteral? = some n := by
  by_cases hf : f.isImplemented = true
  · obtain ⟨g, hg⟩ := exists_series?_iff.2 hf
    by_cases hes : ∃ argument period n, es = [argument, period] ∧ period.integerLiteral? = some n
    · obtain ⟨argument, period, n, hes, hn⟩ := hes
      exact .inr (.inr ⟨g, argument, period, n, hg, hes, hn⟩)
    · exact .inr (.inl ⟨hf, hes⟩)
  · exact .inl (Bool.not_eq_true _ ▸ hf)

theorem exists_faults_of_evaluate {e : Expr} (h : e.evaluate inputs table = .error error) :
    ∃ node, e.Visits node ∧ node.Faults inputs table error := by
  induction e using Expr.induction_evaluated with
  | number text line =>
    obtain ⟨hvalue, rfl⟩ := evaluate_number_eq_error_iff.1 h
    exact ⟨_, .self, .number hvalue⟩
  | input name line =>
    obtain ⟨hvalue, rfl⟩ := evaluate_input_eq_error_iff.1 h
    exact ⟨_, .self, .input hvalue⟩
  | symbol name line =>
    obtain ⟨hvalue, rfl⟩ := evaluate_symbol_eq_error_iff.1 h
    exact ⟨_, .self, .symbol hvalue⟩
  | binary op left right line ihl ihr =>
    rcases evaluate_binary_eq_error_iff.1 h with hl | ⟨l, hl, hr | ⟨r, hr, hcombine⟩⟩
    · obtain ⟨node, hvisits, hfaults⟩ := ihl hl
      exact ⟨node, hvisits.left, hfaults⟩
    · obtain ⟨node, hvisits, hfaults⟩ := ihr hr
      exact ⟨node, hvisits.right, hfaults⟩
    · exact ⟨_, .self, .operands hl hr hcombine⟩
  | call f es line ih =>
    rcases call_cases f es with hf | ⟨hf, hes⟩ | ⟨g, argument, period, n, hg, rfl, hn⟩
    · rw [evaluate_call_unimplemented hf] at h
      cases h
      exact ⟨_, .self, .unimplemented hf⟩
    · rw [evaluate_call_malformed hf hes] at h
      cases h
      exact ⟨_, .self, .malformed hf hes⟩
    · obtain ⟨node, hvisits, hfaults⟩ :=
        ih argument period rfl ((evaluate_call_eq_error_iff hg hn line).1 h)
      exact ⟨node, hvisits.argument, hfaults⟩

end Expr

theorem Statement.execute_eq_error_iff {inputs : Inputs} {table : Table Series} {s : Statement}
    {error : EvaluationError} : s.execute inputs table = .error error ↔
      s.value.evaluate inputs table = .error error := by
  cases s with
  | assign name value line =>
    rw [execute_assign, except_bind_eq_error_iff]
    simp only [reduceCtorEq, and_false, exists_false, or_false, Statement.value]
  | bare value line =>
    rw [execute_bare, except_bind_eq_error_iff]
    simp only [reduceCtorEq, and_false, exists_false, or_false, Statement.value]

end IndicatorFormula
