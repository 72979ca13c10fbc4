import IndicatorFormula.Series
import IndicatorFormula.SignedWord

/-!
A lagged series shows at each moment the point of an earlier one, or of a later one where the
offset is negative. A moment whose source lies outside the series has a missing point.
-/

namespace IndicatorFormula.Series

/-- `index - offset`, where both the index and the difference are signed words and the difference
is an index below `length`. -/
def sourceIndex? (index : Nat) (offset : Int) (length : Nat) : Option Nat :=
  let source : Int := index - offset
  if FitsWord index ∧ FitsWord source ∧ 0 ≤ source ∧ source < length then some source.toNat
  else none

def lag (s : Series) (offset : Int) : Series :=
  (List.range s.length).map fun i =>
    match sourceIndex? i offset s.length with
    | some j => s[j]?.getD missing
    | none => missing

@[simp] theorem length_lag (s : Series) (offset : Int) : (lag s offset).length = s.length := by
  simp only [lag, List.length_map, List.length_range]

end IndicatorFormula.Series
