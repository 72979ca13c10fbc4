import IndicatorFormula.DataFile.Number
import IndicatorFormula.DataFile.Name
import IndicatorFormula.Series

/-!
The names, points and marks of a data file. Blanks between them are passed over.
-/

namespace IndicatorFormula.DataFile

inductive Item
  | openObject
  | closeObject
  | openArray
  | closeArray
  | colon
  | comma
  | name (text : String)
  | point (value : Float)

def isBlank (c : Char) : Bool :=
  c == ' ' || c == '\t' || c == '\n' || c == '\r'

def readPoint? (cs : List Char) : Option (Item × List Char) := do
  let (numeral, rest) ← readNumeral? cs
  let x ← numeral.toFloat?
  some (.point x, rest)

def readNull? : List Char → Option (Item × List Char)
  | 'n' :: 'u' :: 'l' :: 'l' :: rest => some (.point Series.missing, rest)
  | _ => none

/-- The item that begins with `c`, and what follows it. -/
def firstItem? (c : Char) (cs : List Char) : Option (Item × List Char) :=
  match c with
  | '\x7b' => some (.openObject, cs)
  | '\x7d' => some (.closeObject, cs)
  | '[' => some (.openArray, cs)
  | ']' => some (.closeArray, cs)
  | ':' => some (.colon, cs)
  | ',' => some (.comma, cs)
  | '"' => (readName? cs).map fun (text, rest) => (.name text, rest)
  | 'n' => readNull? (c :: cs)
  | _ => readPoint? (c :: cs)

theorem length_lt_of_readPoint? {cs rest : List Char} {item : Item}
    (h : readPoint? cs = some (item, rest)) : rest.length < cs.length := by
  simp only [readPoint?, Option.bind_eq_bind, Option.bind_eq_some_iff, Option.some.injEq,
    Prod.mk.injEq] at h
  obtain ⟨⟨numeral, after⟩, hnumeral, _, _, _, rfl⟩ := h
  exact length_lt_of_readNumeral? hnumeral

theorem length_lt_of_readNull? {cs rest : List Char} {item : Item}
    (h : readNull? cs = some (item, rest)) : rest.length < cs.length := by
  unfold readNull? at h
  split at h
  · cases h
    simp only [List.length_cons]
    omega
  · cases h

theorem length_le_of_firstItem? {c : Char} {cs rest : List Char} {item : Item}
    (h : firstItem? c cs = some (item, rest)) : rest.length ≤ cs.length := by
  unfold firstItem? at h
  split at h
  case h_7 =>
    obtain ⟨⟨text, after⟩, hname, heq⟩ := Option.map_eq_some_iff.1 h
    cases heq
    exact Nat.le_of_lt (length_lt_of_readName? hname)
  case h_8 => exact Nat.le_of_lt_succ (length_lt_of_readNull? h)
  case h_9 => exact Nat.le_of_lt_succ (length_lt_of_readPoint? h)
  all_goals
    cases h
    exact Nat.le_refl _

def items? (cs : List Char) : Option (List Item) :=
  match cs with
  | [] => some []
  | c :: rest =>
    if isBlank c then items? rest
    else
      match _h : firstItem? c rest with
      | none => none
      | some (item, after) => (items? after).map (item :: ·)
termination_by cs.length
decreasing_by
  · exact Nat.lt_succ_self _
  · exact Nat.lt_succ_of_le (length_le_of_firstItem? ‹_›)

end IndicatorFormula.DataFile
