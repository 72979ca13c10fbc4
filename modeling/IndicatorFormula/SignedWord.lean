/-!
Whole numbers that fit a signed word of 64 bits. Periods and offsets of a formula are such
numbers.
-/

namespace IndicatorFormula

/-- From `-2 ^ 63` to below `2 ^ 63`. -/
def FitsWord (z : Int) : Prop :=
  -0x8000000000000000 ≤ z ∧ z < 0x8000000000000000

instance (z : Int) : Decidable (FitsWord z) :=
  inferInstanceAs (Decidable (_ ∧ _))

end IndicatorFormula
