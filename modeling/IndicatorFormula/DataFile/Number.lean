import IndicatorFormula.Decimal.Reading

/-!
The numbers of a data file: a whole part without leading zeros, then a fraction and an exponent,
each of which may be absent.

Digits are gathered as long as they fit a word of 64 bits, and those that follow are dropped. The
gathered number is rounded to a double and then multiplied or divided by a power of ten, so that a
number of up to 15 digits and an exponent of up to 22 is exact, and a longer one may differ from
the nearest double in its last place. A number too large for a double is refused.
-/

namespace IndicatorFormula.DataFile

/-- The parts of a number, as written. -/
structure Numeral where
  negative : Bool
  whole : List Char
  fraction : List Char
  exponent : Int

namespace Numeral

/-- The digits taken so far and those that follow; the latter are left from the first one that does
not fit. -/
def gather (taken : Nat) : List Char → Nat × List Char
  | [] => (taken, [])
  | c :: cs =>
    let next := 10 * taken + (c.toNat - '0'.toNat)
    if next < 1 <<< 64 then gather next cs else (taken, c :: cs)

/-- The gathered digits, and the power of ten that their last one counts. -/
def scaled (n : Numeral) : Nat × Int :=
  let (taken, droppedWhole) := gather 0 n.whole
  let (taken, droppedFraction) := gather taken n.fraction
  (taken,
    droppedWhole.length + droppedFraction.length - n.fraction.length + n.exponent)

def powerOfTen (e : Nat) : Float :=
  Float.ofScientific 1 false e

/-- `x * 10 ^ e`, where `10 ^ 308` is the largest power that is a double. -/
def scale? (x : Float) (e : Int) : Option Float :=
  if 0 ≤ e then
    if e ≤ 308 then
      let y := x * powerOfTen e.toNat
      if y.isInf then none else some y
    else if x == 0.0 then some x else none
  else if -308 ≤ e then some (x / powerOfTen (-e).toNat)
  else if x == 0.0 then some x
  else scale? (x / powerOfTen 308) (e + 308)
termination_by (-e).toNat

def toFloat? (n : Numeral) : Option Float :=
  let (taken, exponent) := n.scaled
  (scale? (Float.ofNat taken) exponent).map fun x => if n.negative then -x else x

end Numeral

/-- At least one digit. -/
def readDigits? (cs : List Char) : Option (List Char × List Char) :=
  if (cs.takeWhile Char.isDigit).isEmpty then none
  else some (cs.takeWhile Char.isDigit, cs.dropWhile Char.isDigit)

def readWhole? (cs : List Char) : Option (List Char × List Char) :=
  (readDigits? cs).filter fun (digits, _) => digits.head? != some '0' || digits.length == 1

def readFraction? : List Char → Option (List Char × List Char)
  | '.' :: rest => readDigits? rest
  | rest => some ([], rest)

def readExponent? : List Char → Option (Int × List Char)
  | [] => some (0, [])
  | c :: rest =>
    if c = 'e' ∨ c = 'E' then
      let signed := Decimal.splitSign rest
      (readDigits? signed.2).map fun (digits, after) =>
        let n : Int := Decimal.ofDigits digits
        (if signed.1 then -n else n, after)
    else some (0, c :: rest)

def readUnsigned? (negative : Bool) (cs : List Char) : Option (Numeral × List Char) := do
  let (whole, afterWhole) ← readWhole? cs
  let (fraction, afterFraction) ← readFraction? afterWhole
  let (exponent, rest) ← readExponent? afterFraction
  some (⟨negative, whole, fraction, exponent⟩, rest)

/-- Only a minus may stand before a number. -/
def readNumeral? : List Char → Option (Numeral × List Char)
  | '-' :: rest => readUnsigned? true rest
  | rest => readUnsigned? false rest

theorem length_lt_of_readDigits? {cs digits rest : List Char}
    (h : readDigits? cs = some (digits, rest)) : rest.length < cs.length := by
  unfold readDigits? at h
  split at h
  · cases h
  · next hne =>
    cases h
    have hlength := congrArg List.length
      (List.takeWhile_append_dropWhile (p := Char.isDigit) (l := cs))
    have hpos := List.length_pos_iff.2 fun he => hne (List.isEmpty_iff.2 he)
    simp only [List.length_append] at hlength
    omega

theorem length_lt_of_readWhole? {cs digits rest : List Char}
    (h : readWhole? cs = some (digits, rest)) : rest.length < cs.length :=
  length_lt_of_readDigits? (Option.filter_eq_some_iff.1 h).1

theorem length_le_of_readFraction? {cs digits rest : List Char}
    (h : readFraction? cs = some (digits, rest)) : rest.length ≤ cs.length := by
  unfold readFraction? at h
  split at h
  · exact Nat.le_succ_of_le (Nat.le_of_lt (length_lt_of_readDigits? h))
  · cases h
    exact Nat.le_refl _

theorem length_splitSign_le (cs : List Char) : (Decimal.splitSign cs).2.length ≤ cs.length := by
  unfold Decimal.splitSign
  split
  · exact Nat.le_succ _
  · exact Nat.le_succ _
  · exact Nat.le_refl _

theorem length_le_of_readExponent? {cs rest : List Char} {exponent : Int}
    (h : readExponent? cs = some (exponent, rest)) : rest.length ≤ cs.length := by
  unfold readExponent? at h
  split at h
  · cases h
    exact Nat.le_refl _
  · next c tail =>
    split at h
    · obtain ⟨⟨digits, after⟩, hdigits, heq⟩ := Option.map_eq_some_iff.1 h
      cases heq
      have hlt := length_lt_of_readDigits? hdigits
      have hle := length_splitSign_le tail
      simp only [List.length_cons]
      omega
    · cases h
      exact Nat.le_refl _

theorem length_lt_of_readUnsigned? {negative : Bool} {cs rest : List Char} {numeral : Numeral}
    (h : readUnsigned? negative cs = some (numeral, rest)) : rest.length < cs.length := by
  simp only [readUnsigned?, Option.bind_eq_bind, Option.bind_eq_some_iff, Option.some.injEq,
    Prod.mk.injEq] at h
  obtain ⟨⟨whole, afterWhole⟩, hwhole, ⟨fraction, afterFraction⟩, hfraction, ⟨exponent, after⟩,
    hexponent, -, rfl⟩ := h
  exact Nat.lt_of_le_of_lt
    (Nat.le_trans (length_le_of_readExponent? hexponent) (length_le_of_readFraction? hfraction))
    (length_lt_of_readWhole? hwhole)

theorem length_lt_of_readNumeral? {cs rest : List Char} {numeral : Numeral}
    (h : readNumeral? cs = some (numeral, rest)) : rest.length < cs.length := by
  unfold readNumeral? at h
  split at h
  · exact Nat.lt_succ_of_lt (length_lt_of_readUnsigned? h)
  · exact length_lt_of_readUnsigned? h

end IndicatorFormula.DataFile
