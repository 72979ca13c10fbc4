import IndicatorFormula.Error
import IndicatorFormula.Series
import IndicatorFormula.Table

/-!
The series given to a formula from outside. All of them have the same number of points, which
every series of the formula shares.
-/

namespace IndicatorFormula

structure Inputs where
  table : Table Series
  length : Nat
  aligned : ∀ entry ∈ table.entries, entry.2.length = length

namespace Inputs

/-- Every series is held against the first one, and the first that differs is reported. -/
def ofTable (table : Table Series) : Except UnevenInputs Inputs :=
  let length := (table.entries.head?.map fun entry => entry.2.length).getD 0
  match h : table.entries.find? fun entry => entry.2.length != length with
  | some (name, s) => .error ⟨name, length, s.length⟩
  | none => .ok ⟨table, length, fun entry hentry => by
      simpa only [bne_iff_ne, ne_eq, Decidable.not_not] using List.find?_eq_none.1 h entry hentry⟩

def get? (inputs : Inputs) (name : String) : Option Series :=
  inputs.table.get? name

end Inputs

end IndicatorFormula
