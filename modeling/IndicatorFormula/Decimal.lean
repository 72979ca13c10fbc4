/-!
Decimals and the doubles nearest to them. A decimal is a whole number of units of a power of ten;
`toFloat` rounds it to the nearest double, to the even one when two are equally near.
-/

namespace IndicatorFormula

structure Decimal where
  significand : Nat
  exponent : Int
  deriving DecidableEq, Repr

namespace Decimal

def infinity : Float := 1.0 / 0.0

/-- A positive decimal above `10 ^ 400` is infinite and one below `10 ^ -399` is zero; no power of
ten beyond these is computed. -/
def toFloat (d : Decimal) : Float :=
  if d.significand = 0 then 0.0
  else if 400 < d.exponent then infinity
  else if d.exponent < -(400 + d.significand.log2 : Int) then 0.0
  else
    match d.exponent with
    | .ofNat e => Float.ofScientific d.significand false e
    | .negSucc e => Float.ofScientific d.significand true (e + 1)

/-- The number written by a run of decimal digits. -/
def ofDigits (digits : List Char) : Nat :=
  digits.foldl (fun n c => 10 * n + (c.toNat - '0'.toNat)) 0

end Decimal

end IndicatorFormula
