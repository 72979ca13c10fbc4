import IndicatorFormula.Inputs

/-!
Which tables are inputs: those whose series all have the same length, which is then the length of
the first, and zero where there is none.
-/

namespace IndicatorFormula.Inputs

variable {table : Table Series} {inputs : Inputs}

def firstLength (table : Table Series) : Nat :=
  (table.entries.head?.map fun entry => entry.2.length).getD 0

theorem ofTable_eq_ok_iff :
    ofTable table = .ok inputs ↔ inputs.table = table ∧ inputs.length = firstLength table := by
  constructor
  · intro h
    unfold ofTable at h
    dsimp only at h
    split at h
    · cases h
    · cases h
      exact ⟨rfl, rfl⟩
  · obtain ⟨table', length, aligned⟩ := inputs
    rintro ⟨htable, hlength⟩
    subst htable
    change length = firstLength table' at hlength
    subst hlength
    unfold ofTable
    dsimp only
    split
    · next name s hfind =>
      have hmem := List.mem_of_find?_eq_some hfind
      have hlength := List.find?_some hfind
      exact absurd (aligned _ hmem) (bne_iff_ne.1 hlength)
    · rfl

theorem exists_ofTable_eq_ok_iff :
    (∃ inputs, ofTable table = .ok inputs) ↔ ∃ n, ∀ entry ∈ table.entries, entry.2.length = n := by
  constructor
  · rintro ⟨inputs, h⟩
    obtain ⟨rfl, -⟩ := ofTable_eq_ok_iff.1 h
    exact ⟨inputs.length, inputs.aligned⟩
  · rintro ⟨n, h⟩
    have hfirst : ∀ entry ∈ table.entries, entry.2.length = firstLength table := by
      intro entry hentry
      obtain ⟨first, rest, hentries⟩ := List.exists_cons_of_ne_nil (List.ne_nil_of_mem hentry)
      have hlength : firstLength table = first.2.length := by
        rw [firstLength, hentries]
        rfl
      rw [hlength, h entry hentry, h first (hentries ▸ List.mem_cons_self ..)]
    exact ⟨⟨table, firstLength table, hfirst⟩, ofTable_eq_ok_iff.2 ⟨rfl, rfl⟩⟩

end IndicatorFormula.Inputs
