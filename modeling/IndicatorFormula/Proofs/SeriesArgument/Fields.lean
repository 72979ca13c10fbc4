import IndicatorFormula.Proofs.Text
import IndicatorFormula.SeriesArgument

/-!
The fields of a series argument. `Writes` says how fields are written: with commas between them,
with one comma more at the end or without, and with any blanks around it all. What is written with
some fields is read as these, each trimmed (`Writes.fields_eq`), and everything is written with some
fields (`exists_writes`).
-/

namespace IndicatorFormula.NamedSeries

open Text (AllBlank isBlank trim trimStart)

variable {before after values u cs field : List Char} {fs : List (List Char)} {c x : Char}

/-! ## Commas -/

theorem splitFields_eq_splitOn (cs : List Char) : splitFields cs = cs.splitOn ',' := by
  induction cs with
  | nil => rfl
  | cons c cs ih =>
    rw [splitFields, List.splitOn_cons_eq_if_modifyHead, ih]
    by_cases hc : c = ','
    · rw [if_pos hc, if_pos (beq_iff_eq.2 hc)]
    · rw [if_neg hc, if_neg (mt beq_iff_eq.1 hc)]
      obtain ⟨field, fs, hfs⟩ := List.exists_cons_of_ne_nil (List.splitOn_ne_nil ',' cs)
      rw [hfs, List.modifyHead_cons]

theorem splitFields_intercalate (hcommas : ∀ field ∈ fs, ',' ∉ field) (hne : fs ≠ []) :
    splitFields ([','].intercalate fs) = fs := by
  rw [splitFields_eq_splitOn, List.splitOn_intercalate ',' hcommas hne]

theorem intercalate_splitFields (cs : List Char) : [','].intercalate (splitFields cs) = cs := by
  rw [splitFields_eq_splitOn, List.intercalate_splitOn]

theorem splitFields_ne_nil (cs : List Char) : splitFields cs ≠ [] := by
  rw [splitFields_eq_splitOn]
  exact List.splitOn_ne_nil ',' cs

theorem splitFields_of_not_mem (h : ',' ∉ cs) : splitFields cs = [cs] := by
  rw [splitFields_eq_splitOn, List.splitOn_eq_singleton h]

theorem splitFields_append_comma (u cs : List Char) :
    splitFields (u ++ ',' :: cs) = splitFields u ++ splitFields cs := by
  simp only [splitFields_eq_splitOn, List.splitOn_append_cons_self]

theorem splitFields_cons (hc : c ≠ ',') (cs : List Char) :
    splitFields (c :: cs) = (splitFields cs).modifyHead (c :: ·) := by
  simp only [splitFields_eq_splitOn, List.splitOn_cons_eq_if_modifyHead, beq_iff_eq, if_neg hc]

/-- What stands in front of the first comma goes into the first field. -/
theorem splitFields_append_left (h : ',' ∉ before) (cs : List Char) :
    splitFields (before ++ cs) = (splitFields cs).modifyHead (before ++ ·) := by
  induction before with
  | nil => exact (congrFun List.modifyHead_id _).symm
  | cons c before ih =>
    have hc : c ≠ ',' := Ne.symm (List.ne_of_not_mem_cons h)
    rw [List.cons_append, splitFields_cons hc, ih (List.not_mem_of_not_mem_cons h),
      List.modifyHead_modifyHead]
    rfl

/-- What stands behind the last comma goes into the last field. -/
theorem exists_splitFields_append_right (h : ',' ∉ after) (cs : List Char) :
    ∃ fs field, splitFields cs = fs ++ [field] ∧
      splitFields (cs ++ after) = fs ++ [field ++ after] := by
  by_cases hcs : ',' ∈ cs
  · obtain ⟨back, front, hreverse, hback⟩ := List.eq_append_cons_of_mem (List.mem_reverse.2 hcs)
    obtain rfl : cs = front.reverse ++ ',' :: back.reverse := by
      rw [← List.reverse_reverse cs, hreverse, List.reverse_append, List.reverse_cons,
        List.append_assoc, List.singleton_append]
    have hback : ',' ∉ back.reverse := fun hmem => hback (List.mem_reverse.1 hmem)
    refine ⟨splitFields front.reverse, back.reverse, ?_, ?_⟩
    · rw [splitFields_append_comma, splitFields_of_not_mem hback]
    · rw [List.append_assoc, List.cons_append, splitFields_append_comma,
        splitFields_of_not_mem (List.not_mem_append hback h)]
  · refine ⟨[], cs, splitFields_of_not_mem hcs, ?_⟩
    rw [splitFields_of_not_mem (List.not_mem_append hcs h), List.nil_append]

theorem not_mem_of_mem_splitFields (cs : List Char) : ∀ field ∈ splitFields cs, ',' ∉ field := by
  induction cs with
  | nil => exact List.forall_mem_singleton.2 List.not_mem_nil
  | cons c cs ih =>
    by_cases hc : c = ','
    · subst hc
      exact List.forall_mem_cons.2 ⟨List.not_mem_nil, ih⟩
    · obtain ⟨field, fs, hfs⟩ := List.exists_cons_of_ne_nil (splitFields_ne_nil cs)
      rw [splitFields_cons hc, hfs, List.modifyHead_cons]
      rw [hfs] at ih
      obtain ⟨hfield, hfs⟩ := List.forall_mem_cons.1 ih
      exact List.forall_mem_cons.2
        ⟨List.not_mem_cons_of_ne_of_not_mem (Ne.symm hc) hfield, hfs⟩

/-! ## Trimmed fields -/

theorem not_mem_of_allBlank (h : AllBlank cs) : ',' ∉ cs :=
  h.not_mem rfl

/-- Blanks around a text are blanks around its first field and its last. -/
theorem map_trim_splitFields_append_left (hbefore : AllBlank before) (cs : List Char) :
    (splitFields (before ++ cs)).map trim = (splitFields cs).map trim := by
  obtain ⟨field, fs, hfs⟩ := List.exists_cons_of_ne_nil (splitFields_ne_nil cs)
  rw [splitFields_append_left (not_mem_of_allBlank hbefore), hfs, List.modifyHead_cons,
    List.map_cons, List.map_cons, Text.trim_append_left hbefore]

theorem map_trim_splitFields_append_right (hafter : AllBlank after) (cs : List Char) :
    (splitFields (cs ++ after)).map trim = (splitFields cs).map trim := by
  obtain ⟨fs, field, hfs, hsplit⟩ :=
    exists_splitFields_append_right (not_mem_of_allBlank hafter) cs
  rw [hsplit, hfs, List.map_append, List.map_append, List.map_singleton, List.map_singleton,
    Text.trim_append_right hafter]

theorem map_trim_splitFields_trimStart (cs : List Char) :
    (splitFields (trimStart cs)).map trim = (splitFields cs).map trim := by
  obtain ⟨before, hcs, hbefore⟩ := Text.exists_eq_trimStart cs
  rw [← map_trim_splitFields_append_left hbefore (trimStart cs), ← hcs]

theorem fields_of_dropped_eq_nil (h : dropFinalComma (trim values) = []) : fields values = [] := by
  rw [fields, h]

theorem fields_of_dropped_ne_nil (h : dropFinalComma (trim values) ≠ []) :
    fields values = (splitFields (dropFinalComma (trim values))).map trim := by
  unfold fields
  split
  · next hnil => exact absurd hnil h
  · rfl

theorem dropFinalComma_comma (cs : List Char) : dropFinalComma (cs ++ [',']) = cs := by
  rw [dropFinalComma, if_pos List.getLast?_concat, List.dropLast_concat]

theorem dropFinalComma_of_ne (hc : c ≠ ',') (cs : List Char) :
    dropFinalComma (cs ++ [c]) = cs ++ [c] := by
  refine if_neg fun h => hc ?_
  rw [List.getLast?_concat] at h
  exact Option.some.inj h

theorem fields_of_allBlank (h : AllBlank values) : fields values = [] :=
  fields_of_dropped_eq_nil (by rw [Text.trim_of_allBlank h]; rfl)

theorem dropFinalComma_trim_of_comma (hafter : AllBlank after) (u : List Char) :
    dropFinalComma (trim (u ++ ',' :: after)) = trimStart u := by
  rw [Text.trim_append_cons rfl hafter, dropFinalComma_comma]

theorem fields_of_comma (hu : AllBlank u) (hafter : AllBlank after) :
    fields (u ++ ',' :: after) = [] := by
  refine fields_of_dropped_eq_nil ?_
  rw [dropFinalComma_trim_of_comma hafter, Text.trimStart_of_allBlank hu]

theorem fields_of_ended (hu : ¬AllBlank u) (hafter : AllBlank after) :
    fields (u ++ ',' :: after) = (splitFields u).map trim := by
  have hdropped := dropFinalComma_trim_of_comma hafter u
  have hne : trimStart u ≠ [] := fun h => hu (List.dropWhile_eq_nil_iff.1 h)
  rw [fields_of_dropped_ne_nil (hdropped.symm ▸ hne), hdropped, map_trim_splitFields_trimStart]

theorem fields_of_unended (hx : isBlank x = false) (hcomma : x ≠ ',') (hafter : AllBlank after)
    (u : List Char) : fields (u ++ x :: after) = (splitFields (u ++ x :: after)).map trim := by
  have hdropped : dropFinalComma (trim (u ++ x :: after)) = trimStart (u ++ [x]) := by
    rw [Text.trim_append_cons hx hafter, dropFinalComma_of_ne hcomma,
      Text.trimStart_append_cons hx]
  have hne : trimStart (u ++ [x]) ≠ [] := by
    rw [Text.trimStart_append_cons hx]
    exact List.append_ne_nil_of_right_ne_nil _ (List.cons_ne_nil _ _)
  calc fields (u ++ x :: after)
      = (splitFields (trimStart (u ++ [x]))).map trim := by
        rw [fields_of_dropped_ne_nil (hdropped.symm ▸ hne), hdropped]
    _ = (splitFields (u ++ [x])).map trim := map_trim_splitFields_trimStart _
    _ = (splitFields (u ++ x :: after)).map trim := by
        rw [← map_trim_splitFields_append_right hafter (u ++ [x]), List.append_assoc,
          List.singleton_append]

/-! ## What is written -/

/-- The value part of an argument, and the fields it is written with. A comma alone, like nothing
at all, writes no field. -/
inductive Writes : List Char → List (List Char) → Prop
  | nothing {blanks : List Char} : AllBlank blanks → Writes blanks []
  | comma {before after : List Char} : AllBlank before → AllBlank after →
      Writes (before ++ ',' :: after) []
  | ended {before after : List Char} {fs : List (List Char)} :
      AllBlank before → AllBlank after → (∀ field ∈ fs, ',' ∉ field) →
      (2 ≤ fs.length ∨ ∃ first ∈ fs.head?, ¬AllBlank first) →
      Writes (before ++ [','].intercalate fs ++ ',' :: after) fs
  | unended {before after : List Char} {fs : List (List Char)} :
      AllBlank before → AllBlank after → (∀ field ∈ fs, ',' ∉ field) →
      (∃ last ∈ fs.getLast?, ¬AllBlank last) →
      Writes (before ++ [','].intercalate fs ++ after) fs

theorem not_allBlank_intercalate_iff : ¬AllBlank ([','].intercalate fs) ↔
    2 ≤ fs.length ∨ ∃ first ∈ fs.head?, ¬AllBlank first := by
  match fs with
  | [] => exact ⟨fun h => absurd Text.allBlank_nil h, by rintro (h | ⟨_, h, -⟩) <;> cases h⟩
  | [first] =>
    rw [List.intercalate_singleton]
    refine ⟨fun h => .inr ⟨first, rfl, h⟩, ?_⟩
    rintro (hlength | ⟨_, hhead, h⟩)
    · exact absurd hlength (Nat.lt_irrefl 1)
    · cases hhead
      exact h
  | first :: second :: fs =>
    refine iff_of_true (fun hblank => not_mem_of_allBlank hblank ?_) (.inl (Nat.le_add_left 2 _))
    rw [List.intercalate_cons_cons]
    exact List.mem_append_left _ (List.mem_append_right _ List.mem_cons_self)

theorem exists_intercalate_eq_append (h : field ∈ fs.getLast?) :
    ∃ u, [','].intercalate fs = u ++ field := by
  induction fs with
  | nil => cases h
  | cons first fs ih =>
    cases fs with
    | nil =>
      cases h
      exact ⟨[], List.intercalate_singleton⟩
    | cons second fs =>
      obtain ⟨u, hu⟩ := ih (List.getLast?_cons_cons ▸ h)
      refine ⟨first ++ [','] ++ u, ?_⟩
      rw [List.intercalate_cons_cons, hu, List.append_assoc _ u]

theorem map_trim_splitFields_intercalate (hbefore : AllBlank before)
    (hcommas : ∀ field ∈ fs, ',' ∉ field) (hne : fs ≠ []) :
    (splitFields (before ++ [','].intercalate fs)).map trim = fs.map trim := by
  rw [map_trim_splitFields_append_left hbefore, splitFields_intercalate hcommas hne]

theorem Writes.fields_eq (h : Writes values fs) : fields values = fs.map trim := by
  cases h with
  | nothing hblanks => exact fields_of_allBlank hblanks
  | comma hbefore hafter => exact fields_of_comma hbefore hafter
  | @ended before after _ hbefore hafter hcommas hnonblank =>
    have hjoined := not_allBlank_intercalate_iff.2 hnonblank
    have hne : fs ≠ [] := by
      rintro rfl
      exact hjoined Text.allBlank_nil
    have hu : ¬AllBlank (before ++ [','].intercalate fs) := fun h =>
      hjoined (List.forall_mem_append.1 h).2
    rw [fields_of_ended hu hafter, map_trim_splitFields_intercalate hbefore hcommas hne]
  | @unended before after _ hbefore hafter hcommas hlast =>
    obtain ⟨last, hlast, hnonblank⟩ := hlast
    have hmem := List.mem_of_getLast? hlast
    obtain ⟨u, hu⟩ := exists_intercalate_eq_append hlast
    obtain ⟨v, x, blanks, rfl, hx, hblanks⟩ := Text.exists_last_of_not_allBlank hnonblank
    -- The last character that is not blank stands in the last field, so it is no comma.
    have hcomma : x ≠ ',' := by
      rintro rfl
      exact hcommas _ hmem (List.mem_append_right v List.mem_cons_self)
    have hvalues : before ++ [','].intercalate fs ++ after =
        (before ++ (u ++ v)) ++ x :: (blanks ++ after) := by
      simp only [hu, List.append_assoc, List.cons_append]
    rw [hvalues, fields_of_unended hx hcomma (hblanks.append hafter), ← hvalues,
      map_trim_splitFields_append_right hafter,
      map_trim_splitFields_intercalate hbefore hcommas (List.ne_nil_of_mem hmem)]

theorem exists_writes (values : List Char) : ∃ fs, Writes values fs := by
  by_cases hvalues : AllBlank values
  · exact ⟨[], .nothing hvalues⟩
  obtain ⟨u, x, after, rfl, hx, hafter⟩ := Text.exists_last_of_not_allBlank hvalues
  by_cases hcomma : x = ','
  · subst hcomma
    by_cases hu : AllBlank u
    · exact ⟨[], .comma hu hafter⟩
    · rw [← intercalate_splitFields u] at hu
      have hended := Writes.ended Text.allBlank_nil hafter (not_mem_of_mem_splitFields u)
        (not_allBlank_intercalate_iff.1 hu)
      rw [List.nil_append, intercalate_splitFields] at hended
      exact ⟨_, hended⟩
  · have hsingle : ',' ∉ [x] := mt List.mem_singleton.1 (Ne.symm hcomma)
    obtain ⟨fs, field, -, hsplit⟩ := exists_splitFields_append_right hsingle u
    have hlast : ∃ last ∈ (splitFields (u ++ [x])).getLast?, ¬AllBlank last := by
      refine ⟨field ++ [x], hsplit ▸ List.getLast?_concat, fun h => ?_⟩
      exact h.not_mem hx (List.mem_append_right field List.mem_cons_self)
    have hunended := Writes.unended Text.allBlank_nil hafter (not_mem_of_mem_splitFields _) hlast
    rw [List.nil_append, intercalate_splitFields, List.append_assoc, List.singleton_append]
      at hunended
    exact ⟨_, hunended⟩

end IndicatorFormula.NamedSeries
