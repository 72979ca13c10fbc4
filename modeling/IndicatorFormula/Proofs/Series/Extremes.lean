import IndicatorFormula.Proofs.Evaluation.Pointwise
import Mathlib.Data.List.Forall2

/-!
The highest and the lowest point of each window. They are extremes of the points in the window that
are not missing, whatever the period, and missing where there are none (`extremes_of_window`).
Windows of such extremes come to the extremes of one wider window (`extremes_of_extremes`).
-/

namespace IndicatorFormula.Series

variable {cmp : Float → Float → Ordering} {f : Series → Float} {s : Series} {P Q : Float → Prop}
  {period p q : Int} {i : Nat} {m m' x : Float}

/-- The points that the window at an index spans, missing ones apart. -/
def InWindow (s : Series) (period : Int) (i : Nat) (x : Float) : Prop :=
  ∃ j : Nat, (i : Int) - period + 1 ≤ j ∧ j ≤ i ∧ s[j]? = some x ∧ x.isNaN = false

theorem InWindow.isNaN (h : InWindow s period i x) : x.isNaN = false := by
  obtain ⟨j, -, -, -, hx⟩ := h
  exact hx

theorem mem_present_trailing (hi : i < s.length) :
    x ∈ (s.trailing period.toNat i).present ↔ InWindow s period i x := by
  rw [present_trailing hi, pointsInWindow, windowPoints, List.mem_filter, List.mem_map]
  constructor
  · rintro ⟨⟨j, hj, rfl⟩, hx⟩
    obtain ⟨hji, hstart⟩ := List.mem_filter.1 hj
    have hji : j ≤ i := Nat.le_of_lt_succ (List.mem_range.1 hji)
    have hget : s[j]? = some (s[j]?.getD missing) := by
      rw [List.getElem?_eq_getElem (Nat.lt_of_le_of_lt hji hi), Option.getD_some]
    exact ⟨j, of_decide_eq_true hstart, hji, hget, (Bool.not_eq_true' _).mp hx⟩
  · rintro ⟨j, hstart, hji, hget, hx⟩
    refine ⟨⟨j, List.mem_filter.2 ⟨List.mem_range.2 (Nat.lt_succ_of_le hji),
      decide_eq_true hstart⟩, ?_⟩, (Bool.not_eq_true' _).mpr hx⟩
    rw [hget, Option.getD_some]

/-- A window is a slice of the series, and nothing of it lies outside. -/
theorem exists_eq_append_trailing (hi : i < s.length) (n : Nat) :
    ∃ before after, s = before ++ s.trailing n i ++ after ∧ before.length = i + 1 - n ∧
      (before ++ s.trailing n i).length = i + 1 := by
  have hwindow : s.take (i + 1 - n) ++ s.trailing n i = s.take (i + 1) := by
    have hsplit := List.take_append_drop (i + 1 - n) (s.take (i + 1))
    rwa [List.take_take, Nat.min_eq_left (Nat.sub_le ..), ← trailing_eq_drop_take] at hsplit
  refine ⟨s.take (i + 1 - n), s.drop (i + 1), ?_, ?_, ?_⟩
  · rw [hwindow, List.take_append_drop]
  · rw [List.length_take, Nat.min_eq_left]
    omega
  · rw [hwindow, List.length_take, Nat.min_eq_left hi]

/-! ## Extremes -/

/-- One of the points `P` that none of them comes after, or a missing point where there are none. -/
inductive IsExtreme (cmp : Float → Float → Ordering) (P : Float → Prop) : Float → Prop
  | missing {m : Float} (hm : m.isNaN = true) (hnone : ∀ x, ¬P x) : IsExtreme cmp P m
  | attained {m : Float} (hm : P m) (hle : ∀ x, P x → (cmp x m).isLE = true) : IsExtreme cmp P m

theorem IsExtreme.congr (h : IsExtreme cmp P m) (hPQ : ∀ x, P x ↔ Q x) : IsExtreme cmp Q m := by
  obtain rfl : P = Q := funext fun x => propext (hPQ x)
  exact h

theorem IsExtreme.of_exists (h : IsExtreme cmp P m) (hsome : ∃ x, P x) :
    P m ∧ ∀ x, P x → (cmp x m).isLE = true := by
  cases h with
  | missing hm hnone =>
    obtain ⟨x, hx⟩ := hsome
    exact absurd hx (hnone x)
  | attained hm hle => exact ⟨hm, hle⟩

theorem IsExtreme.isNaN_iff (h : IsExtreme cmp P m) (hP : ∀ x, P x → x.isNaN = false) :
    m.isNaN = true ↔ ∀ x, ¬P x := by
  cases h with
  | missing hm hnone => exact ⟨fun _ => hnone, fun _ => hm⟩
  | attained hm hle =>
    refine ⟨fun hnan => ?_, fun hnone => absurd hm (hnone _)⟩
    rw [hP _ hm] at hnan
    cases hnan

/-- The function finds the extreme of every window. -/
def FindsExtremes (cmp : Float → Float → Ordering) (f : Series → Float) : Prop :=
  ∀ window : Series, IsExtreme cmp (· ∈ window.present) (f window)

theorem findsExtremes_foldl [Std.TransCmp cmp] {pick : Float → Float → Float}
    (hpick : ∀ x y, x.isNaN = false → y.isNaN = false →
      pick x y = if cmp x y = .lt then y else x) :
    FindsExtremes cmp fun window =>
      match window.present with
      | [] => Series.missing
      | x :: xs => xs.foldl pick x := by
  intro window
  have hpresent := forall_mem_present window
  dsimp only
  split
  · next hnone =>
    rw [hnone]
    exact .missing (by decide) fun x => List.not_mem_nil
  · next x xs hsome =>
    rw [hsome] at hpresent ⊢
    obtain ⟨hx, hxs⟩ := List.forall_mem_cons.1 hpresent
    have hfirst := (isFirstGreatest_singleton cmp x).foldl hpick hx hxs
    have hle := hfirst.isLE
    obtain ⟨before, after, heq, -, -⟩ := hfirst
    refine .attained ?_ hle
    rw [← List.singleton_append, heq]
    exact List.mem_append_right _ (List.mem_cons_self ..)

theorem findsExtremes_greatest : FindsExtremes comparePoints greatest :=
  findsExtremes_foldl fun x y hx hy => by simp only [larger, lt_iff_comparePoints hx hy]

theorem findsExtremes_least : FindsExtremes (fun x y => comparePoints y x) least :=
  findsExtremes_foldl fun x y hx hy => by simp only [smaller, lt_iff_comparePoints hy hx]

theorem getElem?_overWindows (f : Series → Float) (period : Int) (hi : i < s.length) :
    (overWindows f s period)[i]? = some (f (s.trailing period.toNat i)) := by
  rw [overWindows, List.getElem?_map, List.getElem?_range hi, Option.map_some]

theorem FindsExtremes.isExtreme (hf : FindsExtremes cmp f) (period : Int) (hi : i < s.length) :
    IsExtreme cmp (InWindow s period i) (f (s.trailing period.toNat i)) :=
  (hf _).congr fun _ => mem_present_trailing hi

/-- Whatever the period, the highest point of a window is one of its points that are not missing
and none of them exceeds it, and the lowest is one that exceeds none; both are missing exactly where
there are no such points. -/
theorem extremes_of_window (s : Series) (period : Int) :
    (highest s period).length = s.length ∧ (lowest s period).length = s.length ∧
    ∀ i < s.length, ∃ high low,
      (highest s period)[i]? = some high ∧ (lowest s period)[i]? = some low ∧
      (high.isNaN = true ↔ ∀ x, ¬InWindow s period i x) ∧
      (low.isNaN = true ↔ ∀ x, ¬InWindow s period i x) ∧
      ((∃ x, InWindow s period i x) →
        (∃ x, InWindow s period i x ∧ (x == high) = true) ∧
        (∃ x, InWindow s period i x ∧ (x == low) = true) ∧
        (∀ x, InWindow s period i x → low ≤ x ∧ x ≤ high) ∧ low ≤ high) ∧
      ∃ before after, s = before ++ s.trailing period.toNat i ++ after ∧
        before.length = i + 1 - period.toNat ∧
        (before ++ s.trailing period.toNat i).length = i + 1 := by
  refine ⟨length_overWindows .., length_overWindows .., fun i hi => ?_⟩
  have hhigh := findsExtremes_greatest.isExtreme period hi
  have hlow := findsExtremes_least.isExtreme period hi
  refine ⟨_, _, getElem?_overWindows greatest period hi, getElem?_overWindows least period hi,
    hhigh.isNaN_iff fun x hx => hx.isNaN, hlow.isNaN_iff fun x hx => hx.isNaN, ?_,
    exists_eq_append_trailing hi _⟩
  rintro ⟨x, hx⟩
  obtain ⟨hhigh, hge⟩ := hhigh.of_exists ⟨x, hx⟩
  obtain ⟨hlow, hle⟩ := hlow.of_exists ⟨x, hx⟩
  have hbetween (y : Float) (hy : InWindow s period i y) :
      least (s.trailing period.toNat i) ≤ y ∧ y ≤ greatest (s.trailing period.toNat i) :=
    ⟨(le_iff_comparePoints hlow.isNaN hy.isNaN).2 (hle y hy),
      (le_iff_comparePoints hy.isNaN hhigh.isNaN).2 (hge y hy)⟩
  exact ⟨⟨_, hhigh, beq_self hhigh.isNaN⟩, ⟨_, hlow, beq_self hlow.isNaN⟩, hbetween,
    (hbetween _ hhigh).1⟩

/-- The window begins long before the series, and one of the points in it is missing. -/
theorem extremes_of_window_long :
    (∃ x, InWindow [3.0, missing, 1.0] 9223372036854775807 2 x) ∧
      (∃ x, InWindow [3.0, missing, 1.0] 9223372036854775807 2 x ∧ (x == 3.0) = true) ∧
      (∃ x, InWindow [3.0, missing, 1.0] 9223372036854775807 2 x ∧ (x == 1.0) = true) ∧
      ∀ x, InWindow [3.0, missing, 1.0] 9223372036854775807 2 x → 1.0 ≤ x ∧ x ≤ 3.0 := by
  have hsome : ∃ x, InWindow [3.0, missing, 1.0] 9223372036854775807 2 x :=
    ⟨1.0, 2, by decide, by decide, rfl, by decide +kernel⟩
  obtain ⟨-, -, hwindows⟩ := extremes_of_window [3.0, missing, 1.0] 9223372036854775807
  obtain ⟨high, low, hhigh, hlow, -, -, hextremes, -⟩ := hwindows 2 (by decide)
  have hhighest : (highest [3.0, missing, 1.0] 9223372036854775807)[2]? = some 3.0 := by
    decide +kernel
  have hlowest : (lowest [3.0, missing, 1.0] 9223372036854775807)[2]? = some 1.0 := by
    decide +kernel
  obtain rfl : 3.0 = high := Option.some.inj (hhighest.symm.trans hhigh)
  obtain rfl : 1.0 = low := Option.some.inj (hlowest.symm.trans hlow)
  obtain ⟨hattained, hattained', hbetween, -⟩ := hextremes hsome
  exact ⟨hsome, hattained, hattained', hbetween⟩

/-! ## Windows of extremes -/

/-- Both missing, or equal as numbers. -/
def SamePoint (x y : Float) : Prop :=
  x.isNaN = true ∧ y.isNaN = true ∨ (x == y) = true

theorem IsExtreme.samePoint [Std.TransCmp cmp]
    (hcmp : ∀ x y, x.isNaN = false → y.isNaN = false → cmp x y = .eq → (x == y) = true)
    (hP : ∀ x, P x → x.isNaN = false) (h : IsExtreme cmp P m) (h' : IsExtreme cmp P m') :
    SamePoint m m' := by
  cases h with
  | missing hm hnone => exact .inl ⟨hm, (h'.isNaN_iff hP).2 hnone⟩
  | attained hm hle =>
    obtain ⟨hm', hle'⟩ := h'.of_exists ⟨m, hm⟩
    exact .inr (hcmp m m' (hP m hm) (hP m' hm')
      (Std.OrientedCmp.isLE_antisymm (hle' m hm) (hle m' hm')))

/-- A point of the wider window lies in one of the windows that are stacked: in the one that ends
where it stands, or in the first of them if that is later. -/
theorem exists_inWindow_of_wider (hp : 1 ≤ p) (hq : 1 ≤ q) (hx : InWindow s (p + q - 1) i x) :
    ∃ j : Nat, (i : Int) - q + 1 ≤ j ∧ j ≤ i ∧ InWindow s p j x := by
  obtain ⟨k, hstart, hki, hget, hpresent⟩ := hx
  refine ⟨max k ((i : Int) - q + 1).toNat, ?_, ?_, k, ?_, ?_, hget, hpresent⟩ <;> omega

theorem InWindow.wider {j : Nat} (hstart : (i : Int) - q + 1 ≤ j) (hji : j ≤ i)
    (h : InWindow s p j x) : InWindow s (p + q - 1) i x := by
  obtain ⟨k, hk, hkj, hget, hpresent⟩ := h
  exact ⟨k, by omega, by omega, hget, hpresent⟩

/-- The extremes of narrow windows are those of the points below them, so that a window of extremes
has the extreme of all points they are taken from. -/
theorem FindsExtremes.wider [Std.TransCmp cmp] (hf : FindsExtremes cmp f) (hp : 1 ≤ p) (hq : 1 ≤ q)
    (hi : i < s.length) (h : IsExtreme cmp (InWindow (overWindows f s p) q i) m) :
    IsExtreme cmp (InWindow s (p + q - 1) i) m := by
  have hinner {j : Nat} (hji : j ≤ i) {y : Float} (hget : (overWindows f s p)[j]? = some y) :
      IsExtreme cmp (InWindow s p j) y := by
    have hj : j < s.length := Nat.lt_of_le_of_lt hji hi
    rw [getElem?_overWindows f p hj] at hget
    cases hget
    exact hf.isExtreme p hj
  -- every point of the wider window is below an extreme that the outer window spans
  have hbelow {x : Float} (hx : InWindow s (p + q - 1) i x) :
      ∃ y, InWindow (overWindows f s p) q i y ∧ (cmp x y).isLE = true := by
    obtain ⟨j, hstart, hji, hxj⟩ := exists_inWindow_of_wider hp hq hx
    have hget := getElem?_overWindows f p (Nat.lt_of_le_of_lt hji hi)
    obtain ⟨hy, hle⟩ := (hinner hji hget).of_exists ⟨x, hxj⟩
    exact ⟨_, ⟨j, hstart, hji, hget, hy.isNaN⟩, hle x hxj⟩
  cases h with
  | missing hm hnone =>
    refine .missing hm fun x hx => ?_
    obtain ⟨y, hy, -⟩ := hbelow hx
    exact hnone y hy
  | attained hm hle =>
    obtain ⟨j, hstart, hji, hget, hpresent⟩ := hm
    refine .attained ?_ fun x hx => ?_
    · cases hinner hji hget with
      | missing hmissing hnone =>
        rw [hpresent] at hmissing
        cases hmissing
      | attained hmj _ => exact hmj.wider hstart hji
    · obtain ⟨y, hy, hxy⟩ := hbelow hx
      exact Std.TransCmp.isLE_trans hxy (hle y hy)

theorem forall₂_overWindows {R : Float → Float → Prop} {t : Series} (hlength : t.length = s.length)
    (h : ∀ i < s.length, R (f (t.trailing p.toNat i)) (f (s.trailing q.toNat i))) :
    List.Forall₂ R (overWindows f t p) (overWindows f s q) := by
  rw [overWindows, overWindows, hlength, List.forall₂_map_left_iff, List.forall₂_map_right_iff,
    List.forall₂_same]
  exact fun i hi => h i (List.mem_range.1 hi)

theorem FindsExtremes.samePoint_overWindows [Std.TransCmp cmp] (hf : FindsExtremes cmp f)
    (hcmp : ∀ x y, x.isNaN = false → y.isNaN = false → cmp x y = .eq → (x == y) = true)
    (hp : 1 ≤ p) (hq : 1 ≤ q) (s : Series) :
    List.Forall₂ SamePoint (overWindows f (overWindows f s p) q) (overWindows f s (p + q - 1)) := by
  refine forall₂_overWindows (length_overWindows ..) fun i hi => ?_
  have hi' : i < (overWindows f s p).length := by rwa [length_overWindows]
  exact (hf.wider hp hq hi (hf.isExtreme q hi')).samePoint hcmp (fun _ hx => hx.isNaN)
    (hf.isExtreme (p + q - 1) hi)

/-- The extremes of windows of extremes are those of one window, which is as wide as both
together. -/
theorem extremes_of_extremes (hp : 1 ≤ p) (hq : 1 ≤ q) (s : Series) :
    List.Forall₂ SamePoint (highest (highest s p) q) (highest s (p + q - 1)) ∧
      List.Forall₂ SamePoint (lowest (lowest s p) q) (lowest s (p + q - 1)) :=
  ⟨findsExtremes_greatest.samePoint_overWindows
      (fun _ _ hx hy => (beq_iff_comparePoints hx hy).2) hp hq s,
    findsExtremes_least.samePoint_overWindows
      (fun _ _ hx hy heq => (beq_iff_comparePoints hx hy).2 (Std.OrientedCmp.eq_symm heq)) hp hq s⟩

/-- Of the inner windows the first spans a missing point alone. -/
theorem extremes_of_extremes_missing :
    List.Forall₂ SamePoint (highest (highest [missing, 3.0, missing, missing, 1.0] 2) 2)
        [missing, 3.0, 3.0, 3.0, 1.0] ∧
      List.Forall₂ SamePoint (lowest (lowest [missing, 3.0, missing, missing, 1.0] 2) 2)
        [missing, 3.0, 3.0, 3.0, 1.0] := by
  have hhighest : highest [missing, 3.0, missing, missing, 1.0] (2 + 2 - 1) =
      [missing, 3.0, 3.0, 3.0, 1.0] := by
    decide +kernel
  have hlowest : lowest [missing, 3.0, missing, missing, 1.0] (2 + 2 - 1) =
      [missing, 3.0, 3.0, 3.0, 1.0] := by
    decide +kernel
  have h := extremes_of_extremes (p := 2) (q := 2) (by decide) (by decide)
    [missing, 3.0, missing, missing, 1.0]
  rwa [hhighest, hlowest] at h

end IndicatorFormula.Series
