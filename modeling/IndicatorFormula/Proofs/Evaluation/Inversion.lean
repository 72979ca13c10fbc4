import IndicatorFormula.Evaluation

/-!
When evaluation succeeds, and with what: one equivalence for each kind of node, for the combination
of two series and for each kind of statement. `Expr.induction_evaluated` is the induction over what
evaluation visits: of the arguments of a call only the first of two.
-/

namespace IndicatorFormula

theorem Series.firstZero?_eq_none_iff {s : Series} :
    s.firstZero? = none ↔ ∀ x ∈ s, (x == 0.0) = false := by
  rw [Series.firstZero?, List.findIdx?_eq_none_iff]

theorem Series.combine_eq_ok_iff {op : Operator} {line : Nat} {l r s : Series} :
    Series.combine op line l r = .ok s ↔
      l.length = r.length ∧ (op = .div → ∀ x ∈ r, (x == 0.0) = false) ∧
        List.zipWith op.apply l r = s := by
  unfold Series.combine
  by_cases hlength : l.length = r.length
  · rw [if_neg (not_not_intro hlength)]
    by_cases hop : op = .div
    · subst hop
      rw [if_pos rfl]
      cases hzero : r.firstZero? with
      | some index =>
        refine ⟨fun h => (nomatch h), fun h => ?_⟩
        rw [Series.firstZero?_eq_none_iff.2 (h.2.1 rfl)] at hzero
        cases hzero
      | none =>
        exact ⟨fun h => ⟨hlength, fun _ => Series.firstZero?_eq_none_iff.1 hzero, Except.ok.inj h⟩,
          fun h => congrArg _ h.2.2⟩
    · rw [if_neg hop]
      exact ⟨fun h => ⟨hlength, fun h' => absurd h' hop, Except.ok.inj h⟩,
        fun h => congrArg _ h.2.2⟩
  · rw [if_pos hlength]
    exact ⟨fun h => (nomatch h), fun h => absurd h.1 hlength⟩

theorem except_bind_eq_ok_iff {ε α β : Type} {x : Except ε α} {f : α → Except ε β} {b : β} :
    (x >>= f) = .ok b ↔ ∃ a, x = .ok a ∧ f a = .ok b := by
  cases x with
  | error e =>
    refine iff_of_false (fun h => nomatch h) ?_
    rintro ⟨a, ha, -⟩
    cases ha
  | ok a =>
    refine ⟨fun h => ⟨a, rfl, h⟩, ?_⟩
    rintro ⟨a', ha, h⟩
    cases ha
    exact h

theorem mapError_eq_ok_iff {ε ε' α : Type} {x : Except ε α} {f : ε → ε'} {a : α} :
    x.mapError f = .ok a ↔ x = .ok a := by
  cases x with
  | error e => exact iff_of_false (fun h => nomatch h) fun h => nomatch h
  | ok a' =>
    exact ⟨fun h => congrArg _ (Except.ok.inj h), fun h => congrArg _ (Except.ok.inj h)⟩

namespace Expr

theorem induction_evaluated {motive : Expr → Prop}
    (number : ∀ text line, motive (number text line))
    (input : ∀ name line, motive (input name line))
    (symbol : ∀ name line, motive (symbol name line))
    (binary : ∀ op left right line, motive left → motive right → motive (binary op left right line))
    (call : ∀ f es line, (∀ argument period, es = [argument, period] → motive argument) →
      motive (call f es line)) : ∀ e, motive e
  | .number text line => number text line
  | .input name line => input name line
  | .symbol name line => symbol name line
  | .binary op left right line =>
    binary op left right line (induction_evaluated number input symbol binary call left)
      (induction_evaluated number input symbol binary call right)
  | .call f es line => call f es line fun argument period hes => by
    subst hes
    exact induction_evaluated number input symbol binary call argument

variable {inputs : Inputs} {table : Table Series} {s : Series} {line : Nat}

theorem evaluate_number_eq_ok_iff {text : String} :
    evaluate inputs table (number text line) = .ok s ↔
      ∃ x, Decimal.readFloat? text = some x ∧ Series.constant inputs.length x = s := by
  rw [evaluate]
  cases Decimal.readFloat? text with
  | none => simp only [reduceCtorEq, false_and, exists_false]
  | some x => simp only [Option.some.injEq, Except.ok.injEq, exists_eq_left']

theorem evaluate_input_eq_ok_iff {name : String} :
    evaluate inputs table (input name line) = .ok s ↔ inputs.get? name = some s := by
  rw [evaluate]
  cases inputs.get? name with
  | none => simp only [reduceCtorEq]
  | some x => simp only [Option.some.injEq, Except.ok.injEq]

theorem evaluate_symbol_eq_ok_iff {name : String} :
    evaluate inputs table (symbol name line) = .ok s ↔ table.get? name = some s := by
  rw [evaluate]
  cases table.get? name with
  | none => simp only [reduceCtorEq]
  | some x => simp only [Option.some.injEq, Except.ok.injEq]

theorem evaluate_binary_eq_ok_iff {op : Operator} {left right : Expr} :
    evaluate inputs table (binary op left right line) = .ok s ↔
      ∃ l, evaluate inputs table left = .ok l ∧ ∃ r, evaluate inputs table right = .ok r ∧
        Series.combine op line l r = .ok s := by
  rw [evaluate, except_bind_eq_ok_iff]
  simp only [except_bind_eq_ok_iff]

theorem evaluate_call_eq_ok_iff {f : Builtin} {es : List Expr} :
    evaluate inputs table (call f es line) = .ok s ↔
      ∃ g argument period n x, f.series? = some g ∧ es = [argument, period] ∧
        period.integerLiteral? = some n ∧ evaluate inputs table argument = .ok x ∧ g x n = s := by
  rw [evaluate]
  constructor
  · intro h
    split at h
    · cases h
    · next g hg =>
      split at h
      · next argument period =>
        split at h
        · cases h
        · next n hn =>
          obtain ⟨x, hx, hs⟩ := except_bind_eq_ok_iff.1 h
          exact ⟨g, argument, period, n, x, hg, rfl, hn, hx, Except.ok.inj hs⟩
      · cases h
  · rintro ⟨g, argument, period, n, x, hg, rfl, hn, hx, rfl⟩
    simp only [hg, hn, hx]
    rfl

end Expr

namespace Statement

def value : Statement → Expr
  | assign _ value _ | bare value _ => value

variable {inputs : Inputs} {table after : Table Series} {e : Expr} {line : Nat}

theorem execute_assign_eq_ok_iff {name : String} :
    (assign name e line).execute inputs table = .ok after ↔
      ∃ s, e.evaluate inputs table = .ok s ∧ table.insert name s = after := by
  rw [execute_assign, except_bind_eq_ok_iff]
  simp only [Except.ok.injEq]

theorem execute_bare_eq_ok_iff :
    (bare e line).execute inputs table = .ok after ↔
      (∃ s, e.evaluate inputs table = .ok s) ∧ table = after := by
  rw [execute_bare, except_bind_eq_ok_iff]
  simp only [Except.ok.injEq, exists_and_right]

end Statement

end IndicatorFormula
