import IndicatorFormula.Decimal.Shortest
import IndicatorFormula.Series
import IndicatorFormula.Table

/-!
The report of a table: one JSON object, a member for each name in the order of the table. A point
that is missing or infinite is `null`; any other has the fewest digits that read back.
-/

namespace IndicatorFormula.Report

/-- Digits without an exponent, the first of which counts `10 ^ e`; a fraction always follows. -/
def positional (digits : List Char) (e : Int) : List Char :=
  if e < 0 then '0' :: '.' :: (List.replicate (-e - 1).toNat '0' ++ digits)
  else
    let width := e.toNat + 1
    let fraction := digits.drop width
    digits.take width ++ List.replicate (width - digits.length) '0' ++
      '.' :: (if fraction.isEmpty then ['0'] else fraction)

/-- Digits with one before the point and an exponent, which always has a sign. -/
def scientific (digits : List Char) (e : Int) : List Char :=
  let fraction := digits.drop 1
  digits.take 1 ++ (if fraction.isEmpty then [] else '.' :: fraction) ++
    'e' :: (if e < 0 then '-' else '+') :: (toString e.natAbs).toList

/-- A number is positional from `10 ^ -5` to below `10 ^ 16`. -/
def ofDecimal (d : Decimal) : List Char :=
  let digits := (toString d.significand).toList
  let e : Int := d.exponent + digits.length - 1
  if -5 ≤ e ∧ e ≤ 15 then positional digits e else scientific digits e

def magnitude (x : Float) : List Char :=
  if x == 0.0 then ['0', '.', '0'] else ofDecimal (Decimal.shortest x)

def isNegative (x : Float) : Bool :=
  decide (1 <<< 63 ≤ x.toBits.toNat)

def point (x : Float) : String :=
  if x.isNaN || x.isInf then "null"
  else String.ofList (if isNegative x then '-' :: magnitude x else magnitude x)

def hexDigit (n : Nat) : Char :=
  if n < 10 then Char.ofNat ('0'.toNat + n) else Char.ofNat ('a'.toNat + (n - 10))

def escape (c : Char) : List Char :=
  match c with
  | '"' => ['\\', '"']
  | '\\' => ['\\', '\\']
  | '\x08' => ['\\', 'b']
  | '\t' => ['\\', 't']
  | '\n' => ['\\', 'n']
  | '\x0c' => ['\\', 'f']
  | '\r' => ['\\', 'r']
  | c =>
    if c.toNat < 0x20 then ['\\', 'u', '0', '0', hexDigit (c.toNat / 16), hexDigit (c.toNat % 16)]
    else [c]

def quote (name : String) : String :=
  String.ofList ('"' :: (name.toList.flatMap escape ++ ['"']))

inductive Layout
  | compact
  | indented
  deriving DecidableEq, Repr

def spaces (n : Nat) : String :=
  String.ofList (List.replicate n ' ')

/-- Items in brackets. The indented layout gives each a line of its own, two columns inside those of
the brackets. -/
def enclose (layout : Layout) (column : Nat) (opening closing : String) (items : List String) :
    String :=
  match layout, items with
  | _, [] => opening ++ closing
  | .compact, items => opening ++ String.intercalate "," items ++ closing
  | .indented, items =>
    let lead := "\n" ++ spaces (column + 2)
    opening ++ lead ++ String.intercalate ("," ++ lead) items ++ "\n" ++ spaces column ++ closing

def member (layout : Layout) (entry : String × Series) : String :=
  let colon := match layout with
    | .compact => ":"
    | .indented => ": "
  quote entry.1 ++ colon ++ enclose layout 2 "[" "]" (entry.2.map point)

def render (layout : Layout) (table : Table Series) : String :=
  enclose layout 0 "\x7b" "\x7d" (table.entries.map (member layout))

end IndicatorFormula.Report
