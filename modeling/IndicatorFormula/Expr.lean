import IndicatorFormula.Decimal.Reading
import IndicatorFormula.Vocabulary
import IndicatorFormula.Operator

/-!
Expressions and statements. A number keeps its text and is read when it is evaluated. An input
names one of the series given from outside, a symbol one that an earlier statement assigned. Every
node carries a line: that of its number or name, or of its operator.
-/

namespace IndicatorFormula

inductive Expr
  | number (text : String) (line : Nat)
  | input (name : String) (line : Nat)
  | symbol (name : String) (line : Nat)
  | binary (operator : Operator) (left right : Expr) (line : Nat)
  | call (function : Builtin) (arguments : List Expr) (line : Nat)
  deriving Repr

namespace Expr

def line : Expr → Nat
  | number _ line | input _ line | symbol _ line | binary _ _ _ line | call _ _ line => line

/-- The value of a number written as a whole number. -/
def integerLiteral? : Expr → Option Int
  | number text _ => Decimal.readWord? text
  | _ => none

end Expr

inductive Statement
  | assign (name : String) (value : Expr) (line : Nat)
  | bare (value : Expr) (line : Nat)
  deriving Repr

end IndicatorFormula
