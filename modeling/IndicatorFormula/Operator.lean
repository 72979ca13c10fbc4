/-!
The four arithmetic operators on points. A point is a double, and a missing point is NaN, so every
operator is the double-precision operation itself.
-/

namespace IndicatorFormula

inductive Operator
  | add
  | sub
  | mul
  | div
  deriving DecidableEq, Repr

namespace Operator

def text : Operator → String
  | add => "+"
  | sub => "-"
  | mul => "*"
  | div => "/"

/-- Does not look at the divisor: a zero is refused where whole series meet. -/
def apply : Operator → Float → Float → Float
  | add, a, b => a + b
  | sub, a, b => a - b
  | mul, a, b => a * b
  | div, a, b => a / b

end Operator

end IndicatorFormula
