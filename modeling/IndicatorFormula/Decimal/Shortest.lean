import IndicatorFormula.Decimal

/-!
The shortest decimal of a double: the fewest digits that read back as the same double, and of
these the nearest to it, with an even last digit when two are equally near. The search goes from
coarse powers of ten to fine ones and tries, on each, the two neighbours of the double.
-/

namespace IndicatorFormula.Decimal

/-- The double is `mantissa * 2 ^ exponent`. -/
structure Binary where
  mantissa : Nat
  exponent : Int

/-- The size of a finite double, without its sign. -/
def Binary.ofFloat (x : Float) : Binary :=
  let magnitude : Nat := x.toBits.toNat % (1 <<< 63)
  let field : Nat := magnitude >>> 52
  let fraction : Nat := magnitude % (1 <<< 52)
  if field = 0 then ⟨fraction, -1074⟩ else ⟨fraction + (1 <<< 52), (field : Int) - 1075⟩

namespace Binary

/-- Numerator and denominator of the value in units of `10 ^ unit`. -/
def ratio (b : Binary) (unit : Int) : Nat × Nat :=
  ((b.mantissa <<< b.exponent.toNat) * Nat.pow 10 (-unit).toNat,
    (1 <<< (-b.exponent).toNat) * Nat.pow 10 unit.toNat)

/-- The two multiples of `10 ^ unit` next to the value, the nearer one first, and the even one first
when the value is half-way. -/
def neighbours (b : Binary) (unit : Int) : List Decimal :=
  let (numerator, denominator) := b.ratio unit
  let below := numerator / denominator
  let twice := 2 * (numerator % denominator)
  if twice < denominator ∨ twice = denominator ∧ below % 2 = 0 then
    [⟨below, unit⟩, ⟨below + 1, unit⟩]
  else [⟨below + 1, unit⟩, ⟨below, unit⟩]

/-- An exponent of ten that is not below that of the value's first digit. -/
def firstUnit (b : Binary) : Int :=
  (b.mantissa.log2 + b.exponent + 1) * 30103 / 100000 + 1

/-- Twenty powers of ten reach past the seventeenth digit. -/
def units (b : Binary) : List Int :=
  (List.range 20).map fun (k : Nat) => b.firstUnit - k

/-- All digits of the value. -/
def exact (b : Binary) : Decimal :=
  ⟨(b.mantissa <<< b.exponent.toNat) * Nat.pow 5 (-b.exponent).toNat, min b.exponent 0⟩

def shortest (b : Binary) (x : Float) : Decimal :=
  let readsBack (d : Decimal) : Bool := d.toFloat.toBits == x.toBits
  (b.units.findSome? fun unit => (b.neighbours unit).find? readsBack).getD b.exact

end Binary

/-- The shortest decimal of the size of a finite double. -/
def shortest (x : Float) : Decimal :=
  (Binary.ofFloat x).shortest x.abs

end IndicatorFormula.Decimal
