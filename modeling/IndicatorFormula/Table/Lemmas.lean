import IndicatorFormula.Table

/-!
Tables through their look-ups. An insertion changes one look-up and no other (`get?_insert`), so
that of entries inserted in turn the last of a name counts (`get?_ofList`). Two tables with the same
look-ups are equal (`ext_get?`).
-/

namespace IndicatorFormula.Table

variable {α β : Type}

theorem lookup_cons_ite (name : String) (entry : String × α) (entries : List (String × α)) :
    (entry :: entries).lookup name =
      if name = entry.1 then some entry.2 else entries.lookup name := by
  rw [List.lookup_cons]
  split
  · next h => rw [if_pos (beq_iff_eq.1 h)]
  · next h => rw [if_neg (beq_eq_false_iff_ne.1 h)]

theorem lookup_insertEntry (name other : String) (value : α) (entries : List (String × α)) :
    (insertEntry name value entries).lookup other =
      if other = name then some value else entries.lookup other := by
  induction entries with
  | nil => exact lookup_cons_ite ..
  | cons head rest ih =>
    unfold insertEntry
    split
    · exact lookup_cons_ite ..
    · split
      · next heq =>
        simp only [lookup_cons_ite, ← heq]
        split <;> rfl
      · next hne =>
        simp only [lookup_cons_ite, ih]
        split
        · next heq => rw [if_neg (heq ▸ Ne.symm hne)]
        · rfl

theorem get?_insert (t : Table α) (name other : String) (value : α) :
    (t.insert name value).get? other = if other = name then some value else t.get? other :=
  lookup_insertEntry ..

theorem lookup_eq_none_of_lt {name : String} {entries : List (String × α)}
    (h : ∀ entry ∈ entries, name < entry.1) : entries.lookup name = none := by
  rw [List.lookup_eq_none_iff]
  intro entry hentry
  exact bne_iff_ne.2 fun heq => String.lt_irrefl _ (heq ▸ h entry hentry)

theorem head_le_of_lookup_eq {a b : String × α} {l l' : List (String × α)}
    (hb : ∀ entry ∈ l', b.1 < entry.1)
    (heq : ∀ name, (a :: l).lookup name = (b :: l').lookup name) : ¬a.1 < b.1 := by
  intro hlt
  have h := heq a.1
  rw [lookup_cons_ite, if_pos rfl, lookup_eq_none_of_lt] at h
  · cases h
  · intro entry hentry
    rcases List.mem_cons.1 hentry with rfl | hentry
    · exact hlt
    · exact String.lt_trans hlt (hb entry hentry)

theorem eq_of_lookup_eq {l l' : List (String × α)} (h : l.Pairwise fun a b => a.1 < b.1)
    (h' : l'.Pairwise fun a b => a.1 < b.1)
    (heq : ∀ name, l.lookup name = l'.lookup name) : l = l' := by
  induction l generalizing l' with
  | nil =>
    cases l' with
    | nil => rfl
    | cons b l' =>
      have hb := heq b.1
      rw [lookup_cons_ite, if_pos rfl] at hb
      cases hb
  | cons a l ih =>
    cases l' with
    | nil =>
      have ha := heq a.1
      rw [lookup_cons_ite, if_pos rfl] at ha
      cases ha
    | cons b l' =>
      obtain ⟨ha, hl⟩ := List.pairwise_cons.1 h
      obtain ⟨hb, hl'⟩ := List.pairwise_cons.1 h'
      -- the lesser of two first names would be found in one of the lists only
      have hname : a.1 = b.1 := String.le_antisymm
        (String.not_lt.1 (head_le_of_lookup_eq ha fun name => (heq name).symm))
        (String.not_lt.1 (head_le_of_lookup_eq hb heq))
      have hvalue := heq a.1
      rw [lookup_cons_ite, lookup_cons_ite, if_pos rfl, if_pos hname] at hvalue
      have hhead : a = b := Prod.ext hname (Option.some.inj hvalue)
      subst hhead
      refine congrArg _ (ih hl hl' fun name => ?_)
      by_cases hn : name = a.1
      · subst hn
        rw [lookup_eq_none_of_lt ha, lookup_eq_none_of_lt hb]
      · have := heq name
        rwa [lookup_cons_ite, lookup_cons_ite, if_neg hn, if_neg hn] at this

theorem ext_get? {t t' : Table α} (h : ∀ name, t.get? name = t'.get? name) : t = t' := by
  obtain ⟨entries, ordered⟩ := t
  obtain ⟨entries', ordered'⟩ := t'
  obtain rfl : entries = entries' := eq_of_lookup_eq ordered ordered' h
  rfl

theorem insert_comm {name other : String} (h : name ≠ other) (t : Table α) (value value' : α) :
    (t.insert name value).insert other value' = (t.insert other value').insert name value := by
  refine ext_get? fun found => ?_
  simp only [get?_insert]
  split
  · next hother => rw [if_neg fun hname => h (hname.symm.trans hother)]
  · rfl

theorem lookup_map (f : α → β) (entries : List (String × α)) (name : String) :
    (entries.map fun entry => (entry.1, f entry.2)).lookup name =
      (entries.lookup name).map f := by
  induction entries with
  | nil => rfl
  | cons entry entries ih =>
    rw [List.map_cons, lookup_cons_ite, lookup_cons_ite, ih]
    split <;> rfl

theorem lookup_eq_some_iff_mem {entries : List (String × α)} (h : (entries.map Prod.fst).Nodup)
    {name : String} {value : α} :
    entries.lookup name = some value ↔ (name, value) ∈ entries := by
  induction entries with
  | nil => exact iff_of_false (Option.some_ne_none _).symm List.not_mem_nil
  | cons entry entries ih =>
    obtain ⟨hentry, hentries⟩ := List.nodup_cons.1 h
    rw [lookup_cons_ite, List.mem_cons, Prod.ext_iff]
    split
    · next heq =>
      have hmem : (name, value) ∉ entries := fun hmem =>
        hentry (heq ▸ List.mem_map_of_mem (f := Prod.fst) hmem)
      simp only [heq, true_and, Option.some_inj, eq_comm, heq ▸ hmem, or_false]
    · next hne => simp only [hne, false_and, false_or, ih hentries]

/-- The value of the last entry of the name. -/
def lastValue? (entries : List (String × α)) (name : String) : Option α :=
  entries.reverse.lookup name

theorem lastValue?_append (entries later : List (String × α)) (name : String) :
    lastValue? (entries ++ later) name =
      (lastValue? later name).or (lastValue? entries name) := by
  rw [lastValue?, List.reverse_append, List.lookup_append]
  rfl

theorem lastValue?_map (f : α → β) (entries : List (String × α)) (name : String) :
    lastValue? (entries.map fun entry => (entry.1, f entry.2)) name =
      (lastValue? entries name).map f := by
  rw [lastValue?, ← List.map_reverse, lookup_map]
  rfl

theorem lastValue?_eq_some_iff_mem {entries : List (String × α)}
    (h : (entries.map Prod.fst).Nodup) {name : String} {value : α} :
    lastValue? entries name = some value ↔ (name, value) ∈ entries := by
  have hreverse := ((List.reverse_perm entries).map Prod.fst).nodup_iff.2 h
  rw [lastValue?, lookup_eq_some_iff_mem hreverse, List.mem_reverse]

theorem get?_insertAll (t : Table α) (entries : List (String × α)) (name : String) :
    (t.insertAll entries).get? name = (lastValue? entries name).or (t.get? name) := by
  induction entries generalizing t with
  | nil => rfl
  | cons entry entries ih =>
    have hrest := ih (t.insert entry.1 entry.2)
    rw [insertAll, List.foldl_cons, ← insertAll, hrest, get?_insert, lastValue?, lastValue?,
      List.reverse_cons, List.lookup_append, Option.or_assoc, lookup_cons_ite, List.lookup_nil]
    split <;> rfl

theorem get?_ofList (entries : List (String × α)) (name : String) :
    (ofList entries).get? name = lastValue? entries name :=
  (get?_insertAll empty entries name).trans Option.or_none

theorem insertAll_ofList (entries later : List (String × α)) :
    (ofList entries).insertAll later = ofList (entries ++ later) :=
  (List.foldl_append ..).symm

theorem isEmpty_ofList_iff {entries : List (String × α)} :
    (ofList entries).isEmpty = true ↔ entries = [] := by
  constructor
  · intro h
    have hnone (name : String) : lastValue? entries name = none := by
      rw [← get?_ofList, get?, List.isEmpty_iff.1 h]
      rfl
    cases hreverse : entries.reverse with
    | nil => exact List.reverse_eq_nil_iff.1 hreverse
    | cons entry rest =>
      have hsome := hnone entry.1
      rw [lastValue?, hreverse, lookup_cons_ite, if_pos rfl] at hsome
      cases hsome
  · rintro rfl
    rfl

theorem nodup_names (t : Table α) : t.names.Nodup := by
  refine List.pairwise_map.2 (t.ordered.imp fun hlt heq => ?_)
  rw [heq] at hlt
  exact String.lt_irrefl _ hlt

theorem get?_eq_some_iff_mem {t : Table α} {name : String} {value : α} :
    t.get? name = some value ↔ (name, value) ∈ t.entries :=
  lookup_eq_some_iff_mem t.nodup_names

/-- Where no name comes twice, the table has the entries that it is made of. -/
theorem mem_entries_ofList_iff {entries : List (String × α)} (h : (entries.map Prod.fst).Nodup)
    {entry : String × α} : entry ∈ (ofList entries).entries ↔ entry ∈ entries := by
  rw [← get?_eq_some_iff_mem, get?_ofList, lastValue?_eq_some_iff_mem h]

theorem ofList_entries (t : Table α) : ofList t.entries = t := by
  refine ext_get? fun name => Option.ext fun value => ?_
  rw [get?_eq_some_iff_mem, get?_eq_some_iff_mem, mem_entries_ofList_iff t.nodup_names]

theorem ofList_perm {entries entries' : List (String × α)} (h : (entries.map Prod.fst).Nodup)
    (hperm : entries.Perm entries') : ofList entries = ofList entries' := by
  have h' := (hperm.map Prod.fst).nodup_iff.1 h
  refine ext_get? fun name => Option.ext fun value => ?_
  rw [get?_eq_some_iff_mem, get?_eq_some_iff_mem, mem_entries_ofList_iff h,
    mem_entries_ofList_iff h', hperm.mem_iff]

theorem mem_names_iff {t : Table α} {name : String} :
    name ∈ t.names ↔ (t.get? name).isSome := by
  simp only [names, get?]
  induction t.entries with
  | nil =>
    simp only [List.map_nil, List.not_mem_nil, List.lookup_nil, Option.isSome_none,
      Bool.false_eq_true]
  | cons head rest ih =>
    rw [List.map_cons, List.mem_cons, lookup_cons_ite, ih]
    split
    · next h => simp only [h, true_or, Option.isSome_some]
    · next h => simp only [h, false_or]

end IndicatorFormula.Table
