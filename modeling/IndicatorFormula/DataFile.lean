import IndicatorFormula.DataFile.Item
import IndicatorFormula.Table

/-!
Data files. A file is one JSON object whose members are arrays of numbers and `null`; each member
is a series, and `null` is a missing point. Of two members with one name the last counts.
-/

namespace IndicatorFormula.DataFile

/-- The points up to the closing bracket, where a point is due. -/
def readPoints? : List Item → Option (Series × List Item)
  | .point x :: .comma :: rest => (readPoints? rest).map fun (s, after) => (x :: s, after)
  | .point x :: .closeArray :: rest => some ([x], rest)
  | _ => none

def readArray? : List Item → Option (Series × List Item)
  | .openArray :: .closeArray :: rest => some ([], rest)
  | .openArray :: rest => readPoints? rest
  | _ => none

theorem length_lt_of_readPoints? {items rest : List Item} {s : Series}
    (h : readPoints? items = some (s, rest)) : rest.length < items.length := by
  fun_induction readPoints? items generalizing s with
  | case1 x items ih =>
    obtain ⟨⟨s', after⟩, hs, heq⟩ := Option.map_eq_some_iff.1 h
    cases heq
    exact Nat.lt_trans (ih hs) (Nat.lt_trans (Nat.lt_succ_self _) (Nat.lt_succ_self _))
  | case2 x items =>
    cases h
    exact Nat.lt_trans (Nat.lt_succ_self _) (Nat.lt_succ_self _)
  | case3 => cases h

theorem length_lt_of_readArray? {items rest : List Item} {s : Series}
    (h : readArray? items = some (s, rest)) : rest.length < items.length := by
  unfold readArray? at h
  split at h
  · cases h
    exact Nat.lt_trans (Nat.lt_succ_self _) (Nat.lt_succ_self _)
  · exact Nat.lt_trans (length_lt_of_readPoints? h) (Nat.lt_succ_self _)
  · cases h

/-- The members up to the closing brace, where a member is due, and nothing after it. -/
def readMembers? (items : List Item) : Option (List (String × Series)) :=
  match items with
  | .name n :: .colon :: rest =>
    match _h : readArray? rest with
    | some (s, .comma :: after) => (readMembers? after).map ((n, s) :: ·)
    | some (s, [.closeObject]) => some [(n, s)]
    | _ => none
  | _ => none
termination_by items.length
decreasing_by
  have := length_lt_of_readArray? ‹_›
  simp only [List.length_cons] at this ⊢
  omega

def readObject? : List Item → Option (List (String × Series))
  | [.openObject, .closeObject] => some []
  | .openObject :: rest => readMembers? rest
  | _ => none

def read? (text : String) : Option (Table Series) :=
  (items? text.toList).bind fun items => (readObject? items).map Table.ofList

end IndicatorFormula.DataFile
