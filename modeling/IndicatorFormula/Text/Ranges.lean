/-!
Classes of characters given as ascending ranges of code points, both ends included.
-/

namespace IndicatorFormula.Text

/-- Stops at the first range that begins after the code point. -/
def inRanges (n : Nat) : List (Nat × Nat) → Bool
  | [] => false
  | (first, last) :: rest => decide (first ≤ n) && (decide (n ≤ last) || inRanges n rest)

end IndicatorFormula.Text
