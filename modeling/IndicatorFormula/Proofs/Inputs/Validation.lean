import IndicatorFormula.Proofs.Inputs.Alignment
import IndicatorFormula.Table.Lemmas

/-!
The check of the input series, for a map whose entries may be enumerated in any order. It passes
where all series have one length. Where they have not, it reports the entry of the least name whose
length is not that of the least name of all (`ofTable_ofList`).
-/

namespace IndicatorFormula.Inputs

variable {table : Table Series} {entries : List (String × Series)}
  {first entry other : String × Series} {p : Series → Prop} {q : Series → Bool} {e : UnevenInputs}

/-- Of the entries whose series has the property, the one of the least name. -/
structure IsFirst (entries : List (String × Series)) (p : Series → Prop)
    (entry : String × Series) : Prop where
  mem : entry ∈ entries
  holds : p entry.2
  least : ∀ other ∈ entries, p other.2 → entry.1 ≤ other.1

theorem IsFirst.eq (h : IsFirst table.entries p entry) (h' : IsFirst table.entries p other) :
    entry = other := by
  have hname : entry.1 = other.1 :=
    String.le_antisymm (h.least other h'.mem h'.holds) (h'.least entry h.mem h.holds)
  have hvalue := (Table.get?_eq_some_iff_mem.2 h.mem).symm.trans
    ((congrArg table.get? hname).trans (Table.get?_eq_some_iff_mem.2 h'.mem))
  exact Prod.ext hname (Option.some_inj.1 hvalue)

theorem isFirst_of_find? (hq : ∀ s, q s = true ↔ p s)
    (h : table.entries.find? (fun entry => q entry.2) = some entry) :
    IsFirst table.entries p entry := by
  obtain ⟨hentry, before, after, hentries, hbefore⟩ := List.find?_eq_some_iff_append.1 h
  refine ⟨List.mem_of_find?_eq_some h, (hq _).1 hentry, fun other hother hp => ?_⟩
  have hordered := table.ordered
  rw [hentries] at hother hordered
  rcases List.mem_append.1 hother with hother | hother
  · have hnot := hbefore other hother
    rw [(hq _).2 hp] at hnot
    cases hnot
  · rcases List.mem_cons.1 hother with rfl | hother
    · exact String.le_refl _
    · have hlt := (List.pairwise_cons.1 (List.pairwise_append.1 hordered).2.1).1 other hother
      exact Std.le_of_lt hlt

theorem find?_eq_some_iff_isFirst (hq : ∀ s, q s = true ↔ p s) :
    table.entries.find? (fun entry => q entry.2) = some entry ↔ IsFirst table.entries p entry := by
  refine ⟨isFirst_of_find? hq, fun h => ?_⟩
  have hsome : (table.entries.find? fun entry => q entry.2).isSome = true :=
    List.find?_isSome.2 ⟨entry, h.mem, (hq _).2 h.holds⟩
  obtain ⟨found, hfound⟩ := Option.isSome_iff_exists.1 hsome
  rw [hfound, (isFirst_of_find? hq hfound).eq h]

theorem head?_eq_find? (entries : List (String × Series)) :
    entries.head? = entries.find? fun _ => true := by
  cases entries <;> rfl

theorem head?_eq_some_iff_isFirst :
    table.entries.head? = some first ↔ IsFirst table.entries (fun _ => True) first := by
  rw [head?_eq_find?]
  exact find?_eq_some_iff_isFirst (q := fun _ => true) fun _ => iff_of_true rfl trivial

theorem firstLength_eq (h : IsFirst table.entries (fun _ => True) first) :
    firstLength table = first.2.length := by
  rw [firstLength, head?_eq_some_iff_isFirst.2 h]
  rfl

theorem exists_isFirst (h : entry ∈ table.entries) :
    ∃ first, IsFirst table.entries (fun _ => True) first := by
  obtain ⟨first, hfirst⟩ := Option.isSome_iff_exists.1
    (List.isSome_head?.2 (List.ne_nil_of_mem h))
  exact ⟨first, head?_eq_some_iff_isFirst.1 hfirst⟩

theorem ofTable_eq_error_iff : ofTable table = .error e ↔
    ∃ first uneven, IsFirst table.entries (fun _ => True) first ∧
      IsFirst table.entries (fun s => s.length ≠ first.2.length) uneven ∧
      e = ⟨uneven.1, first.2.length, uneven.2.length⟩ := by
  have hlengths (n : Nat) (s : Series) : (s.length != n) = true ↔ s.length ≠ n := bne_iff_ne
  constructor
  · intro h
    unfold ofTable at h
    dsimp only at h
    split at h
    · next name s hfind =>
      cases h
      obtain ⟨first, hfirst⟩ := exists_isFirst (List.mem_of_find?_eq_some hfind)
      -- the entries are ordered, so the first of them has the least name
      have hlength := firstLength_eq hfirst
      unfold firstLength at hlength
      rw [hlength] at hfind ⊢
      exact ⟨first, (name, s), hfirst, isFirst_of_find? (hlengths _) hfind, rfl⟩
    · cases h
  · rintro ⟨first, uneven, hfirst, huneven, rfl⟩
    have hfind := (find?_eq_some_iff_isFirst (hlengths _)).2 huneven
    have hlength := firstLength_eq hfirst
    rw [← hlength] at hfind ⊢
    unfold ofTable
    dsimp only
    split
    · next hfind' =>
      cases hfind.symm.trans hfind'
      rfl
    · next hnone => cases hfind.symm.trans hnone

theorem isFirst_ofList_iff (h : (entries.map Prod.fst).Nodup) :
    IsFirst (Table.ofList entries).entries p entry ↔ IsFirst entries p entry := by
  have hmem (entry : String × Series) : entry ∈ (Table.ofList entries).entries ↔ entry ∈ entries :=
    Table.mem_entries_ofList_iff h
  constructor <;> rintro ⟨hentry, hp, hleast⟩
  · exact ⟨(hmem _).1 hentry, hp, fun other hother => hleast other ((hmem _).2 hother)⟩
  · exact ⟨(hmem _).2 hentry, hp, fun other hother => hleast other ((hmem _).1 hother)⟩

/-- A map of named series, enumerated in some order, passes where all series have the same length.
That is then the length of the inputs, zero where there are none, and each series is found under its
name. Otherwise the least name whose series has not the length of that of the least name of all is
reported, with both lengths. The order of the entries makes no difference. -/
theorem ofTable_ofList (h : (entries.map Prod.fst).Nodup) :
    ((∃ inputs, ofTable (Table.ofList entries) = .ok inputs) ↔
      ∀ a ∈ entries, ∀ b ∈ entries, a.2.length = b.2.length) ∧
    (∀ inputs, ofTable (Table.ofList entries) = .ok inputs →
      (∀ entry ∈ entries, entry.2.length = inputs.length) ∧
        (entries = [] → inputs.length = 0) ∧
        ∀ name s, inputs.get? name = some s ↔ (name, s) ∈ entries) ∧
    (∀ e, ofTable (Table.ofList entries) = .error e ↔
      ∃ first uneven, IsFirst entries (fun _ => True) first ∧
        IsFirst entries (fun s => s.length ≠ first.2.length) uneven ∧
        e = ⟨uneven.1, first.2.length, uneven.2.length⟩) ∧
    ∀ entries', entries.Perm entries' →
      ofTable (Table.ofList entries') = ofTable (Table.ofList entries) := by
  have hmem (entry : String × Series) : entry ∈ (Table.ofList entries).entries ↔ entry ∈ entries :=
    Table.mem_entries_ofList_iff h
  refine ⟨?_, fun inputs hinputs => ?_, fun e => ?_, fun entries' hperm => ?_⟩
  · simp only [exists_ofTable_eq_ok_iff, hmem]
    constructor
    · rintro ⟨n, hn⟩ a ha b hb
      rw [hn a ha, hn b hb]
    · intro heven
      cases entries with
      | nil => exact ⟨0, List.forall_mem_nil _⟩
      | cons first rest =>
        exact ⟨_, fun entry hentry => heven entry hentry first List.mem_cons_self⟩
  · obtain ⟨htable, hlength⟩ := ofTable_eq_ok_iff.1 hinputs
    refine ⟨fun entry hentry => ?_, ?_, fun name s => ?_⟩
    · exact inputs.aligned entry (htable ▸ (hmem entry).2 hentry)
    · rintro rfl
      exact hlength
    · rw [get?, htable, Table.get?_eq_some_iff_mem, hmem]
  · simp only [ofTable_eq_error_iff, isFirst_ofList_iff h]
  · rw [Table.ofList_perm h hperm]

theorem ofTable_ofList_uneven :
    (([("OPEN", [1.0]), ("HIGH", []), ("CLOSE", [1.0, 2.0])] : List (String × Series)).map
      Prod.fst).Nodup ∧
    ofTable (Table.ofList [("OPEN", [1.0]), ("HIGH", []), ("CLOSE", [1.0, 2.0])]) =
      .error ⟨"HIGH", 2, 0⟩ ∧
    ofTable (Table.ofList [("CLOSE", [1.0, 2.0]), ("HIGH", []), ("OPEN", [1.0])]) =
      .error ⟨"HIGH", 2, 0⟩ := by
  have hnames : (([("OPEN", [1.0]), ("HIGH", []), ("CLOSE", [1.0, 2.0])] :
      List (String × Series)).map Prod.fst).Nodup := by decide
  obtain ⟨-, -, herror, horder⟩ := ofTable_ofList hnames
  have huneven := (herror ⟨"HIGH", 2, 0⟩).2 ⟨("CLOSE", [1.0, 2.0]), ("HIGH", []),
    ⟨.tail _ (.tail _ (.head _)), trivial, by decide⟩,
    ⟨.tail _ (.head _), by decide, by decide⟩, rfl⟩
  exact ⟨hnames, huneven, (horder _ (List.reverse_perm _).symm).trans huneven⟩

end IndicatorFormula.Inputs
