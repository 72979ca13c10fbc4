import IndicatorFormula.Proofs.DataFile.Items
import IndicatorFormula.Proofs.Series.Order

/-!
What a data file holds: names with arrays of numbers and nulls, in order. The items that are read as
an object are those of its members and no other (`readObject?_eq_some_iff`), so that a file is read
exactly where it holds an object (`read?_eq_some_iff`).
-/

namespace IndicatorFormula.DataFile

variable {items rest : List Item} {s : Series} {members : List (String × Series)} {text : String}
  {table : Table Series}

/-! ## Items of members -/

theorem eq_of_readPoints? (h : readPoints? items = some (s, rest)) :
    s ≠ [] ∧ items = separated pointItems s ++ .closeArray :: rest := by
  fun_induction readPoints? items generalizing s with
  | case1 x items ih =>
    obtain ⟨⟨later, after⟩, hlater, heq⟩ := Option.map_eq_some_iff.1 h
    cases heq
    obtain ⟨hne, rfl⟩ := ih hlater
    obtain ⟨y, later, rfl⟩ := List.exists_cons_of_ne_nil hne
    exact ⟨List.cons_ne_nil _ _, by rw [separated_cons_cons]; rfl⟩
  | case2 x items =>
    cases h
    exact ⟨List.cons_ne_nil _ _, by rw [separated_singleton]; rfl⟩
  | case3 => cases h

theorem eq_of_readArray? (h : readArray? items = some (s, rest)) :
    items = .openArray :: (separated pointItems s ++ .closeArray :: rest) := by
  unfold readArray? at h
  split at h
  · cases h
    rfl
  · rw [(eq_of_readPoints? h).2]
  · cases h

theorem eq_of_readMembers? (h : readMembers? items = some members) :
    members ≠ [] ∧ items = separated memberItems members ++ [.closeObject] := by
  fun_induction readMembers? items generalizing members with
  | case1 name items s after harray ih =>
    obtain ⟨later, hlater, rfl⟩ := Option.map_eq_some_iff.1 h
    obtain ⟨hne, rfl⟩ := ih hlater
    obtain ⟨entry, later, rfl⟩ := List.exists_cons_of_ne_nil hne
    refine ⟨List.cons_ne_nil _ _, ?_⟩
    rw [eq_of_readArray? harray, separated_cons_cons, List.append_assoc, memberItems_append]
    rfl
  | case2 name items s harray =>
    cases h
    refine ⟨List.cons_ne_nil _ _, ?_⟩
    rw [eq_of_readArray? harray, separated_singleton, memberItems_append]
  | case3 => cases h
  | case4 => cases h

theorem readObject?_eq_some_iff : readObject? items = some members ↔
    items = .openObject :: (separated memberItems members ++ [.closeObject]) := by
  constructor
  · intro h
    unfold readObject? at h
    split at h
    · cases h
      rfl
    · rw [(eq_of_readMembers? h).2]
    · cases h
  · rintro rfl
    exact readObject?_separated members

/-! ## Objects -/

/-- Names, each with the points of its array, `none` where a `null` stands. -/
abbrev Object := List (String × List (Option Float))

def withGaps (points : List (Option Float)) : Series :=
  points.map (·.getD Series.missing)

def Object.entries (object : Object) : List (String × Series) :=
  object.map fun member => (member.1, withGaps member.2)

/-- The text is that of the object, in which no number is a missing point. -/
structure Holds (text : String) (object : Object) : Prop where
  items_eq : items? text.toList =
    some (.openObject :: (separated memberItems object.entries ++ [.closeObject]))
  numbers : ∀ member ∈ object, ∀ x, some x ∈ member.2 → x.isNaN = false

/-- The array that has the points. -/
def gaps (s : Series) : List (Option Float) :=
  s.map fun x => if x.isNaN then none else some x

theorem withGaps_gaps (s : Series) : withGaps (gaps s) = s := by
  have hpoint : ∀ x ∈ s, (if x.isNaN then none else some x).getD Series.missing = x := by
    intro x _
    split
    · next hnan => exact Series.eq_of_isNaN (by decide) hnan
    · rfl
  rw [withGaps, gaps, List.map_map]
  exact (List.map_congr_left hpoint).trans (List.map_id' s)

theorem members?_eq_some_iff : members? text = some members ↔
    ∃ object, Holds text object ∧ object.entries = members := by
  have hitems : members? text = some members ↔ items? text.toList =
      some (.openObject :: (separated memberItems members ++ [.closeObject])) := by
    simp only [members?, Option.bind_eq_some_iff, readObject?_eq_some_iff, exists_eq_right]
  rw [hitems]
  constructor
  -- the object has a gap for each missing point
  · intro h
    have hentries : Object.entries (members.map fun entry => (entry.1, gaps entry.2)) =
        members := by
      simp only [Object.entries, List.map_map, Function.comp_def, withGaps_gaps, List.map_id']
    refine ⟨_, ⟨hentries.symm ▸ h, fun member hmember x hx => ?_⟩, hentries⟩
    obtain ⟨entry, -, rfl⟩ := List.mem_map.1 hmember
    obtain ⟨y, -, hy⟩ := List.mem_map.1 hx
    rw [Option.ite_none_left_eq_some, Option.some_inj] at hy
    exact hy.2 ▸ Bool.not_eq_true _ ▸ hy.1
  · rintro ⟨object, hobject, rfl⟩
    exact hobject.items_eq

theorem read?_eq_some_iff : read? text = some table ↔
    ∃ object, Holds text object ∧ Table.ofList object.entries = table := by
  simp only [read?_eq_map, Option.map_eq_some_iff, members?_eq_some_iff]
  constructor
  · rintro ⟨members, ⟨object, hobject, rfl⟩, rfl⟩
    exact ⟨object, hobject, rfl⟩
  · rintro ⟨object, hobject, rfl⟩
    exact ⟨_, ⟨object, hobject, rfl⟩, rfl⟩

end IndicatorFormula.DataFile
