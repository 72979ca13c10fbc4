import IndicatorFormula.Proofs.Evaluation.Inversion
import IndicatorFormula.Table.Lemmas

/-!
Every series of a formula is as long as its inputs: the inputs are by their type, and evaluation
and execution keep to it, whatever the statements are.
-/

namespace IndicatorFormula

def Inputs.Measures (inputs : Inputs) (table : Table Series) : Prop :=
  ∀ name s, table.get? name = some s → s.length = inputs.length

/-- The tables that statements build from the empty one. -/
inductive Inputs.Reaches (inputs : Inputs) : Table Series → Prop
  | empty : inputs.Reaches .empty
  | execute {table after : Table Series} {s : Statement} :
    inputs.Reaches table → s.execute inputs table = .ok after → inputs.Reaches after

variable {inputs : Inputs} {table after : Table Series} {s : Series}

theorem Inputs.measures_empty : inputs.Measures .empty :=
  fun _ _ h => nomatch h

theorem Inputs.Measures.insert (hmeasures : inputs.Measures table) (hs : s.length = inputs.length)
    (name : String) : inputs.Measures (table.insert name s) := by
  intro other t ht
  rw [Table.get?_insert] at ht
  split at ht
  · cases ht
    exact hs
  · exact hmeasures other t ht

theorem Inputs.length_of_get? {name : String} (h : inputs.get? name = some s) :
    s.length = inputs.length := by
  obtain ⟨before, rest, hentries, -⟩ := List.lookup_eq_some_iff.1 h
  have hmem : (name, s) ∈ inputs.table.entries :=
    hentries ▸ List.mem_append_right _ (List.mem_cons_self ..)
  exact inputs.aligned _ hmem

theorem Builtin.length_series? {f : Builtin} {g : Series → Int → Series} (h : f.series? = some g)
    (s : Series) (n : Int) : (g s n).length = s.length := by
  cases f <;> cases h
  · exact Series.length_overWindows ..
  · exact Series.length_lag ..
  · exact Series.length_overWindows ..
  · exact Series.length_overWindows ..

theorem Expr.length_of_evaluate {e : Expr} (hmeasures : inputs.Measures table)
    (h : e.evaluate inputs table = .ok s) : s.length = inputs.length := by
  induction e using Expr.induction_evaluated generalizing s with
  | number text line =>
    obtain ⟨x, -, rfl⟩ := evaluate_number_eq_ok_iff.1 h
    exact List.length_replicate
  | input name line => exact Inputs.length_of_get? (evaluate_input_eq_ok_iff.1 h)
  | symbol name line => exact hmeasures name s (evaluate_symbol_eq_ok_iff.1 h)
  | binary op left right line ihl ihr =>
    obtain ⟨l, hl, r, -, hs⟩ := evaluate_binary_eq_ok_iff.1 h
    obtain ⟨hlength, -, rfl⟩ := Series.combine_eq_ok_iff.1 hs
    rw [List.length_zipWith, ← hlength, Nat.min_self]
    exact ihl hl
  | call f es line ih =>
    obtain ⟨g, argument, period, n, x, hg, hes, -, hx, rfl⟩ := evaluate_call_eq_ok_iff.1 h
    rw [Builtin.length_series? hg]
    exact ih argument period hes hx

theorem Inputs.Measures.execute {st : Statement} (hmeasures : inputs.Measures table)
    (h : st.execute inputs table = .ok after) : inputs.Measures after := by
  cases st with
  | assign name value line =>
    obtain ⟨s, hs, rfl⟩ := Statement.execute_assign_eq_ok_iff.1 h
    exact hmeasures.insert (Expr.length_of_evaluate hmeasures hs) name
  | bare value line =>
    obtain ⟨-, rfl⟩ := Statement.execute_bare_eq_ok_iff.1 h
    exact hmeasures

theorem Inputs.Reaches.measures (h : inputs.Reaches table) : inputs.Measures table := by
  induction h with
  | empty => exact measures_empty
  | execute _ hexecute ih => exact ih.execute hexecute

end IndicatorFormula
