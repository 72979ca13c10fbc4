import IndicatorFormula.Decimal
import IndicatorFormula.Series
import IndicatorFormula.SignedWord

/-!
Numbers written as text. A point is a decimal with an optional sign, fraction and exponent, or one
of the words `inf`, `infinity` and `nan` in upper or lower case; a whole number is an optional
sign and digits, within a signed word. Neither allows blanks.
-/

namespace IndicatorFormula.Decimal

/-- Whether the text is negative, and what follows its sign. -/
def splitSign : List Char → Bool × List Char
  | '+' :: rest => (false, rest)
  | '-' :: rest => (true, rest)
  | rest => (false, rest)

/-- The digits after a point, and what follows them. -/
def splitFraction : List Char → List Char × List Char
  | '.' :: rest => rest.span Char.isDigit
  | rest => ([], rest)

def readDigits? (cs : List Char) : Option Nat :=
  if !cs.isEmpty && cs.all Char.isDigit then some (ofDigits cs) else none

/-- The exponent that ends a text, zero where the text has none. -/
def readExponent? : List Char → Option Int
  | [] => some 0
  | c :: rest =>
    if c = 'e' ∨ c = 'E' then
      let (negative, digits) := splitSign rest
      (readDigits? digits).map fun n => if negative then -(n : Int) else n
    else none

def read? (cs : List Char) : Option Decimal :=
  let (whole, afterWhole) := cs.span Char.isDigit
  let (fraction, afterFraction) := splitFraction afterWhole
  if whole.isEmpty && fraction.isEmpty then none
  else
    (readExponent? afterFraction).map fun e =>
      ⟨ofDigits (whole ++ fraction), e - fraction.length⟩

def readMagnitude? (cs : List Char) : Option Float :=
  let word := String.ofList (cs.map Char.toLower)
  if word = "inf" ∨ word = "infinity" then some infinity
  else if word = "nan" then some Series.missing
  else (read? cs).map toFloat

def readFloat? (text : String) : Option Float :=
  let (negative, magnitude) := splitSign text.toList
  (readMagnitude? magnitude).map fun x => if negative then -x else x

def readWord? (text : String) : Option Int :=
  let (negative, digits) := splitSign text.toList
  (readDigits? digits).bind fun n =>
    let z : Int := if negative then -(n : Int) else n
    if FitsWord z then some z else none

end IndicatorFormula.Decimal
