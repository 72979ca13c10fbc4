import IndicatorFormula.Proofs.Evaluation.Faults

/-!
Which error evaluation reports where several nodes are at fault. `Expr.checks` lists the checks of
an expression in the order in which they are made: a call is checked before its first argument, a
divisor after both operands. Evaluation fails exactly with the first check that fails
(`Expr.evaluate_reports_first`).
-/

namespace IndicatorFormula

/-! ## Zeros of a divisor -/

namespace Series

variable {s : Series} {i : Nat}

/-- The point at an index is a zero of either sign. -/
def IsZeroAt (s : Series) (i : Nat) : Prop :=
  s[i]? = some 0.0 ∨ s[i]? = some (-0.0)

def IsFirstZero (s : Series) (i : Nat) : Prop :=
  s.IsZeroAt i ∧ ∀ j < i, ¬s.IsZeroAt j

theorem isZeroAt_iff (hi : i < s.length) : s.IsZeroAt i ↔ (s[i] == 0.0) = true := by
  rw [IsZeroAt, List.getElem?_eq_getElem hi, Option.some_inj, Option.some_inj, beq_zero_iff]

theorem IsZeroAt.lt_length (h : s.IsZeroAt i) : i < s.length := by
  rcases h with h | h <;> exact (List.getElem?_eq_some_iff.1 h).1

theorem IsZeroAt.exists_mem (h : s.IsZeroAt i) : ∃ x ∈ s, (x == 0.0) = true :=
  ⟨_, List.getElem_mem h.lt_length, (isZeroAt_iff h.lt_length).1 h⟩

theorem firstZero?_eq_some_iff : s.firstZero? = some i ↔ s.IsFirstZero i := by
  rw [firstZero?, List.findIdx?_eq_some_iff_getElem]
  constructor
  · rintro ⟨hi, hzero, hbefore⟩
    exact ⟨(isZeroAt_iff hi).2 hzero,
      fun j hj => mt (isZeroAt_iff (Nat.lt_trans hj hi)).1 (hbefore j hj)⟩
  · rintro ⟨hzero, hbefore⟩
    have hi := hzero.lt_length
    exact ⟨hi, (isZeroAt_iff hi).1 hzero,
      fun j hj => mt (isZeroAt_iff (Nat.lt_trans hj hi)).2 (hbefore j hj)⟩

theorem IsFirstZero.unique {j : Nat} (hi : s.IsFirstZero i) (hj : s.IsFirstZero j) : i = j := by
  rcases Nat.lt_trichotomy i j with h | h | h
  · exact absurd hi.1 (hj.2 i h)
  · exact h
  · exact absurd hj.1 (hi.2 j h)

end Series

namespace Expr

/-! ## Checks -/

inductive Check
  | number (text : String) (line : Nat)
  | input (name : String) (line : Nat)
  | symbol (name : String) (line : Nat)
  | implemented (function : Builtin) (line : Nat)
  | shape (function : Builtin) (arguments : List Expr) (line : Nat)
  | divisor (right : Expr) (line : Nat)

/-- Only a division has its divisor checked. -/
def checks : Expr → List Check
  | number text line => [.number text line]
  | input name line => [.input name line]
  | symbol name line => [.symbol name line]
  | binary op left right line =>
    checks left ++ (checks right ++ if op = .div then [.divisor right line] else [])
  | call f arguments line =>
    .implemented f line :: .shape f arguments line ::
      match arguments with
      | [] => []
      | argument :: _ => checks argument

variable {inputs : Inputs} {table : Table Series} {e : Expr} {check : Check}
  {cs ds : List Check} {error error' : EvaluationError} {s : Series}

/-- How a check fails, and the error that it reports. -/
inductive Check.Fails (inputs : Inputs) (table : Table Series) : Check → EvaluationError → Prop
  | number {text : String} {line : Nat} (h : Decimal.readFloat? text = none) :
    Fails inputs table (.number text line) (.badNumber text line)
  | input {name : String} {line : Nat} (h : inputs.get? name = none) :
    Fails inputs table (.input name line) (.unboundInput name line)
  | symbol {name : String} {line : Nat} (h : table.get? name = none) :
    Fails inputs table (.symbol name line) (.unboundSymbol name line)
  | implemented {f : Builtin} {line : Nat} (h : f.isImplemented = false) :
    Fails inputs table (.implemented f line) (.unimplemented f line)
  | shape {f : Builtin} {arguments : List Expr} {line : Nat}
    (h : ¬∃ argument period n, arguments = [argument, period] ∧ period.integerLiteral? = some n) :
    Fails inputs table (.shape f arguments line) (.malformedCall f line)
  | divisor {right : Expr} {line index : Nat} {r : Series}
    (hr : right.evaluate inputs table = .ok r) (h : r.IsFirstZero index) :
    Fails inputs table (.divisor right line) (.divisionByZero index line)

def Check.Passes (inputs : Inputs) (table : Table Series) (check : Check) : Prop :=
  ∀ error, ¬check.Fails inputs table error

/-- The error of the first check that fails. -/
inductive FirstFails (inputs : Inputs) (table : Table Series) :
    List Check → EvaluationError → Prop
  | here {check : Check} {cs : List Check} {error : EvaluationError}
    (h : check.Fails inputs table error) : FirstFails inputs table (check :: cs) error
  | later {check : Check} {cs : List Check} {error : EvaluationError}
    (hcheck : check.Passes inputs table) (h : FirstFails inputs table cs error) :
    FirstFails inputs table (check :: cs) error

theorem Check.Fails.unique (h : check.Fails inputs table error)
    (h' : check.Fails inputs table error') : error = error' := by
  cases h with
  | divisor hr hzero =>
    cases h' with
    | divisor hr' hzero' =>
      obtain rfl := Except.ok.inj (hr.symm.trans hr')
      rw [hzero.unique hzero']
  | _ =>
    cases h'
    rfl

theorem FirstFails.unique (h : FirstFails inputs table cs error)
    (h' : FirstFails inputs table cs error') : error = error' := by
  induction h with
  | here hfails =>
    cases h' with
    | here hfails' => exact hfails.unique hfails'
    | later hcheck _ => exact absurd hfails (hcheck _)
  | later hcheck _ ih =>
    cases h' with
    | here hfails' => exact absurd hfails' (hcheck _)
    | later _ h' => exact ih h'

theorem FirstFails.exists_mem (h : FirstFails inputs table cs error) :
    ∃ check ∈ cs, check.Fails inputs table error := by
  induction h with
  | here hfails => exact ⟨_, List.mem_cons_self .., hfails⟩
  | later _ _ ih =>
    obtain ⟨check, hmem, hfails⟩ := ih
    exact ⟨check, List.mem_cons_of_mem _ hmem, hfails⟩

theorem FirstFails.append (h : FirstFails inputs table cs error) (ds : List Check) :
    FirstFails inputs table (cs ++ ds) error := by
  induction h with
  | here hfails => exact .here hfails
  | later hcheck _ ih => exact .later hcheck ih

theorem FirstFails.after (h : FirstFails inputs table ds error)
    (hcs : ∀ check ∈ cs, check.Passes inputs table) : FirstFails inputs table (cs ++ ds) error := by
  induction cs with
  | nil => exact h
  | cons check cs ih =>
    obtain ⟨hcheck, hcs⟩ := List.forall_mem_cons.1 hcs
    exact .later hcheck (ih hcs)

/-! ## The order of evaluation -/

theorem passes_number {text : String} {line : Nat} {x : Float}
    (h : Decimal.readFloat? text = some x) : (Check.number text line).Passes inputs table := by
  intro error hfails
  cases hfails with
  | number hnone => exact Option.some_ne_none x (h.symm.trans hnone)

theorem passes_input {name : String} {line : Nat} (h : inputs.get? name = some s) :
    (Check.input name line).Passes inputs table := by
  intro error hfails
  cases hfails with
  | input hnone => exact Option.some_ne_none s (h.symm.trans hnone)

theorem passes_symbol {name : String} {line : Nat} (h : table.get? name = some s) :
    (Check.symbol name line).Passes inputs table := by
  intro error hfails
  cases hfails with
  | symbol hnone => exact Option.some_ne_none s (h.symm.trans hnone)

theorem passes_implemented {f : Builtin} {line : Nat} (hf : f.isImplemented = true) :
    (Check.implemented f line).Passes inputs table := by
  intro error hfails
  cases hfails with
  | implemented h =>
    rw [hf] at h
    cases h

theorem passes_shape {f : Builtin} {arguments : List Expr} {line : Nat}
    (harguments : ∃ argument period n,
      arguments = [argument, period] ∧ period.integerLiteral? = some n) :
    (Check.shape f arguments line).Passes inputs table := by
  intro error hfails
  cases hfails with
  | shape h => exact h harguments

theorem passes_divisor {right : Expr} {line : Nat} {r : Series}
    (hr : right.evaluate inputs table = .ok r) (hdivisor : ∀ x ∈ r, (x == 0.0) = false) :
    (Check.divisor right line).Passes inputs table := by
  intro error hfails
  cases hfails with
  | divisor hr' hzero =>
    obtain rfl := Except.ok.inj (hr.symm.trans hr')
    obtain ⟨x, hx, hzero⟩ := hzero.1.exists_mem
    rw [hdivisor x hx] at hzero
    cases hzero

theorem passes_of_evaluate (h : e.evaluate inputs table = .ok s) :
    ∀ check ∈ e.checks, check.Passes inputs table := by
  induction e using Expr.induction_evaluated generalizing s with
  | number text line =>
    obtain ⟨x, hx, -⟩ := evaluate_number_eq_ok_iff.1 h
    exact List.forall_mem_singleton.2 (passes_number hx)
  | input name line =>
    exact List.forall_mem_singleton.2 (passes_input (evaluate_input_eq_ok_iff.1 h))
  | symbol name line =>
    exact List.forall_mem_singleton.2 (passes_symbol (evaluate_symbol_eq_ok_iff.1 h))
  | binary op left right line ihl ihr =>
    obtain ⟨l, hl, r, hr, hcombine⟩ := evaluate_binary_eq_ok_iff.1 h
    obtain ⟨-, hdivisor, -⟩ := Series.combine_eq_ok_iff.1 hcombine
    rw [checks, List.forall_mem_append, List.forall_mem_append]
    refine ⟨ihl hl, ihr hr, ?_⟩
    split
    · next hop => exact List.forall_mem_singleton.2 (passes_divisor hr (hdivisor hop))
    · exact List.forall_mem_nil _
  | call f es line ih =>
    obtain ⟨g, argument, period, n, x, hg, rfl, hn, hx, -⟩ := evaluate_call_eq_ok_iff.1 h
    rw [checks, List.forall_mem_cons, List.forall_mem_cons]
    exact ⟨passes_implemented (exists_series?_iff.1 ⟨g, hg⟩),
      passes_shape ⟨argument, period, n, rfl, hn⟩, ih argument period rfl hx⟩

theorem firstFails_of_evaluate (hmeasures : inputs.Measures table)
    (h : e.evaluate inputs table = .error error) : FirstFails inputs table e.checks error := by
  induction e using Expr.induction_evaluated with
  | number text line =>
    obtain ⟨hvalue, rfl⟩ := evaluate_number_eq_error_iff.1 h
    exact .here (.number hvalue)
  | input name line =>
    obtain ⟨hvalue, rfl⟩ := evaluate_input_eq_error_iff.1 h
    exact .here (.input hvalue)
  | symbol name line =>
    obtain ⟨hvalue, rfl⟩ := evaluate_symbol_eq_error_iff.1 h
    exact .here (.symbol hvalue)
  | binary op left right line ihl ihr =>
    rw [checks]
    rcases evaluate_binary_eq_error_iff.1 h with hl | ⟨l, hl, hr | ⟨r, hr, hcombine⟩⟩
    · exact (ihl hl).append _
    · exact ((ihr hr).append _).after (passes_of_evaluate hl)
    · refine .after (.after ?_ (passes_of_evaluate hr)) (passes_of_evaluate hl)
      -- both operands have the length of the inputs, so it is the divisor that is refused
      rcases Series.combine_eq_error_iff.1 hcombine with ⟨hlength, -⟩ | ⟨-, hop, index, hindex, rfl⟩
      · rw [length_of_evaluate hmeasures hl, length_of_evaluate hmeasures hr] at hlength
        exact absurd rfl hlength
      · rw [if_pos hop]
        exact .here (.divisor hr (Series.firstZero?_eq_some_iff.1 hindex))
  | call f es line ih =>
    unfold checks
    rcases call_cases f es with hf | ⟨hf, hes⟩ | ⟨g, argument, period, n, hg, rfl, hn⟩
    · rw [evaluate_call_unimplemented hf] at h
      cases h
      exact .here (.implemented hf)
    · rw [evaluate_call_malformed hf hes] at h
      cases h
      exact .later (passes_implemented hf) (.here (.shape hes))
    · have hargument := ih argument period rfl ((evaluate_call_eq_error_iff hg hn line).1 h)
      exact .later (passes_implemented (exists_series?_iff.1 ⟨g, hg⟩))
        (.later (passes_shape ⟨argument, period, n, rfl, hn⟩) hargument)

theorem evaluate_eq_error_iff (hmeasures : inputs.Measures table) :
    e.evaluate inputs table = .error error ↔ FirstFails inputs table e.checks error := by
  refine ⟨firstFails_of_evaluate hmeasures, fun hfirst => ?_⟩
  cases h : e.evaluate inputs table with
  | ok s =>
    obtain ⟨check, hmem, hfails⟩ := hfirst.exists_mem
    exact absurd hfails (passes_of_evaluate h check hmem error)
  | error error' => rw [(firstFails_of_evaluate hmeasures h).unique hfirst]

theorem exists_division_of_evaluate {index line : Nat}
    (h : e.evaluate inputs table = .error (.divisionByZero index line)) :
    ∃ left right r, e.Visits (binary .div left right line) ∧
      right.evaluate inputs table = .ok r ∧ r.IsFirstZero index := by
  obtain ⟨node, hvisits, hfaults⟩ := exists_faults_of_evaluate h
  cases hfaults with
  | operands hl hr hcombine =>
    rcases Series.combine_eq_error_iff.1 hcombine with ⟨-, hmismatch⟩ | ⟨-, rfl, _, hindex, hzero⟩
    · cases hmismatch
    · cases hzero
      exact ⟨_, _, _, hvisits, hr, Series.firstZero?_eq_some_iff.1 hindex⟩

/-- Evaluation reports the error of the first check that fails. A division by zero names the line of
a division and the first index at which its divisor is a zero of either sign. -/
theorem evaluate_reports_first (hreaches : inputs.Reaches table) (e : Expr) :
    (∀ error, e.evaluate inputs table = .error error ↔ FirstFails inputs table e.checks error) ∧
      ∀ index line, e.evaluate inputs table = .error (.divisionByZero index line) →
        ∃ left right r, e.Visits (binary .div left right line) ∧
          right.evaluate inputs table = .ok r ∧ r.IsFirstZero index :=
  ⟨fun _ => evaluate_eq_error_iff hreaches.measures, fun _ _ => exists_division_of_evaluate⟩

/-- The divisor is a zero on the second day. The name behind it and the call that has no meaning are
come to later. -/
theorem evaluate_reports_first_division :
    threeCloses.Reaches .empty ∧
      FirstFails threeCloses .empty
        (binary .add
          (binary .div (symbol "A" 1) (binary .sub (input "CLOSE" 2) (number "2" 2) 2) 1)
          (call .sma [symbol "A" 3] 3) 1).checks (.unboundSymbol "A" 1) ∧
      FirstFails threeCloses .empty
        (binary .add
          (binary .div (number "1" 1) (binary .sub (input "CLOSE" 2) (number "2" 2) 2) 1)
          (call .sma [symbol "A" 3] 3) 1).checks (.divisionByZero 1 1) := by
  have hreaches : threeCloses.Reaches .empty := .empty
  exact ⟨hreaches, ((evaluate_reports_first hreaches _).1 _).1 rfl,
    ((evaluate_reports_first hreaches _).1 _).1 rfl⟩

end Expr

end IndicatorFormula
