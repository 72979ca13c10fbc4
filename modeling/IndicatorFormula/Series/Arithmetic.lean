import IndicatorFormula.Error
import IndicatorFormula.Series

/-!
Operators on whole series, moment by moment. The series must be equally long, and no point of a
divisor may be a zero of either sign; a missing divisor gives a missing point.
-/

namespace IndicatorFormula.Series

def firstZero? (s : Series) : Option Nat :=
  s.findIdx? (· == 0.0)

def combine (operator : Operator) (line : Nat) (left right : Series) :
    Except EvaluationError Series :=
  if left.length ≠ right.length then
    .error (.lengthMismatch operator left.length right.length line)
  else
    match if operator = .div then right.firstZero? else none with
    | some index => .error (.divisionByZero index line)
    | none => .ok (List.zipWith operator.apply left right)

end IndicatorFormula.Series
