import IndicatorFormula.Text.Blank
import Mathlib.Data.List.TakeWhile

/-!
Spans of characters, and the blanks around a text. A span ends at the first character that does not
belong to it, so what stands behind that character changes nothing (`span_append_of_head?`).
-/

namespace IndicatorFormula.Text

/-! ## Spans -/

section Span

variable {p : Char → Bool} {cs after : List Char}

theorem span_append_of_head? (hafter : ∀ c ∈ after.head?, p c = false) (cs : List Char) :
    (cs ++ after).takeWhile p = cs.takeWhile p ∧
      (cs ++ after).dropWhile p = cs.dropWhile p ++ after := by
  induction cs with
  | nil =>
    cases after with
    | nil => exact ⟨rfl, rfl⟩
    | cons c after =>
      have hc : ¬p c = true := Bool.not_eq_true _ ▸ hafter c rfl
      exact ⟨List.takeWhile_cons_of_neg hc, List.dropWhile_cons_of_neg hc⟩
  | cons c cs ih =>
    rw [List.cons_append, List.takeWhile_cons, List.takeWhile_cons, List.dropWhile_cons,
      List.dropWhile_cons, ih.1, ih.2]
    split <;> exact ⟨rfl, rfl⟩

theorem span_exact (hcs : ∀ c ∈ cs, p c = true) (hafter : ∀ c ∈ after.head?, p c = false) :
    (cs ++ after).takeWhile p = cs ∧ (cs ++ after).dropWhile p = after := by
  have hspan := span_append_of_head? hafter cs
  rwa [List.takeWhile_eq_self_iff.2 hcs, List.dropWhile_eq_nil_iff.2 hcs] at hspan

end Span

/-! ## Blanks -/

def AllBlank (cs : List Char) : Prop :=
  ∀ c ∈ cs, isBlank c = true

instance (cs : List Char) : Decidable (AllBlank cs) :=
  decidable_of_iff (cs.all isBlank = true) List.all_eq_true

variable {before after cs u : List Char} {x : Char}

theorem allBlank_nil : AllBlank [] :=
  List.forall_mem_nil _

theorem AllBlank.append (hbefore : AllBlank before) (hafter : AllBlank after) :
    AllBlank (before ++ after) :=
  List.forall_mem_append.2 ⟨hbefore, hafter⟩

theorem AllBlank.not_mem (h : AllBlank cs) (hx : isBlank x = false) : x ∉ cs := by
  intro hmem
  rw [h x hmem] at hx
  cases hx

theorem exists_last_of_not_allBlank (h : ¬AllBlank cs) :
    ∃ u x after, cs = u ++ x :: after ∧ isBlank x = false ∧ AllBlank after := by
  induction cs with
  | nil => exact absurd allBlank_nil h
  | cons c cs ih =>
    by_cases hcs : AllBlank cs
    · refine ⟨[], c, cs, rfl, Bool.not_eq_true _ ▸ fun hc => h ?_, hcs⟩
      exact List.forall_mem_cons.2 ⟨hc, hcs⟩
    · obtain ⟨u, x, after, rfl, hx, hafter⟩ := ih hcs
      exact ⟨c :: u, x, after, rfl, hx, hafter⟩

theorem trimStart_append (hbefore : AllBlank before) (cs : List Char) :
    trimStart (before ++ cs) = trimStart cs :=
  List.dropWhile_append_of_pos hbefore

theorem trimStart_of_allBlank (h : AllBlank cs) : trimStart cs = [] :=
  List.dropWhile_eq_nil_iff.2 h

/-- Of what stands in front of a character that is not blank only blanks are dropped. -/
theorem trimStart_append_cons (hx : isBlank x = false) (u after : List Char) :
    trimStart (u ++ x :: after) = trimStart u ++ x :: after :=
  (span_append_of_head? (fun _ hc => Option.some_inj.1 hc ▸ hx) u).2

theorem trimEnd_append_cons (hx : isBlank x = false) (hafter : AllBlank after) (u : List Char) :
    trimEnd (u ++ x :: after) = u ++ [x] := by
  have hreverse : AllBlank after.reverse := fun c hc => hafter c (List.mem_reverse.1 hc)
  have htrim := trimStart_append_cons hx after.reverse u.reverse
  rw [trimStart_of_allBlank hreverse, List.nil_append] at htrim
  rw [trimEnd, List.reverse_append, List.reverse_cons, List.append_assoc, List.singleton_append,
    htrim, List.reverse_cons, List.reverse_reverse]

theorem trim_append_cons (hx : isBlank x = false) (hafter : AllBlank after) (u : List Char) :
    trim (u ++ x :: after) = trimStart u ++ [x] := by
  rw [trim, trimStart_append_cons hx, trimEnd_append_cons hx hafter]

theorem trim_of_allBlank (h : AllBlank cs) : trim cs = [] := by
  rw [trim, trimStart_of_allBlank h]
  rfl

theorem trim_eq_nil_iff : trim cs = [] ↔ AllBlank cs := by
  refine ⟨fun h => ?_, trim_of_allBlank⟩
  by_contra hcs
  obtain ⟨u, x, after, rfl, hx, hafter⟩ := exists_last_of_not_allBlank hcs
  rw [trim_append_cons hx hafter] at h
  exact List.append_ne_nil_of_right_ne_nil _ (List.cons_ne_nil _ _) h

theorem trim_append_left (hbefore : AllBlank before) (cs : List Char) :
    trim (before ++ cs) = trim cs := by
  rw [trim, trim, trimStart_append hbefore]

theorem trim_append_right (hafter : AllBlank after) (cs : List Char) :
    trim (cs ++ after) = trim cs := by
  by_cases hcs : AllBlank cs
  · rw [trim_of_allBlank hcs, trim_of_allBlank (hcs.append hafter)]
  · obtain ⟨u, x, blanks, rfl, hx, hblanks⟩ := exists_last_of_not_allBlank hcs
    rw [List.append_assoc, List.cons_append, trim_append_cons hx (hblanks.append hafter),
      trim_append_cons hx hblanks]

theorem exists_eq_trimStart (cs : List Char) :
    ∃ before, cs = before ++ trimStart cs ∧ AllBlank before :=
  ⟨cs.takeWhile isBlank, List.takeWhile_append_dropWhile.symm, fun _ => List.mem_takeWhile_imp⟩

end IndicatorFormula.Text
