import IndicatorFormula.Proofs.Point.Exact
import IndicatorFormula.Proofs.Series.Extremes
import Mathlib.Algebra.Order.BigOperators.Group.List
import Mathlib.Data.Nat.Cast.Field

/-!
The mean of each window. Where its points are added up and divided without rounding
(`HasExactMean`), the mean lies between the extremes of the window, and is missing where these are
(`mean_between_extremes`).
-/

namespace IndicatorFormula.Series

open Point (IsRepresentable value)

variable {s xs window : Series} {period : Int} {i : Nat} {x v : Float}

/-! ## Exact means -/

/-- The points add up to a point, one after the other, and their mean is one. -/
structure HasExactMean (xs : Series) : Prop where
  isFinite : ∀ x ∈ xs, x.isFinite = true
  sum : ∀ ys, ys <+: xs → IsRepresentable (ys.map value).sum
  mean : IsRepresentable ((xs.map value).sum / xs.length)

theorem value_sum (hfinite : ∀ x ∈ xs, x.isFinite = true)
    (hsum : ∀ ys, ys <+: xs → IsRepresentable (ys.map value).sum) :
    (sum xs).isFinite = true ∧ value (sum xs) = (xs.map value).sum := by
  induction xs using List.reverseRecOn with
  | nil =>
    have hzero : sum [] = Float.ofNat 0 := by decide +kernel
    rw [hzero, List.map_nil, List.sum_nil]
    exact Point.value_ofNat_of_lt (by decide)
  | append_singleton xs x ih =>
    obtain ⟨hfinite', hvalue⟩ := ih (fun y hy => hfinite y (List.mem_append_left _ hy))
      fun ys hys => hsum ys (hys.trans (List.prefix_append ..))
    have hx := hfinite x (List.mem_append_right _ (List.mem_singleton_self x))
    have hlast := hsum (xs ++ [x]) List.prefix_rfl
    have hfold : sum (xs ++ [x]) = sum xs + x := by
      rw [sum, List.foldl_append, List.foldl_cons, List.foldl_nil, ← sum]
    rw [List.map_append, List.sum_append, List.map_singleton, List.sum_singleton, ← hvalue]
      at hlast ⊢
    rw [hfold]
    exact Point.value_add hfinite' hx hlast

theorem HasExactMean.value_mean (h : HasExactMean window.present) (hne : window.present ≠ [])
    (hlength : window.present.length < 2 ^ 63) :
    (Series.mean window).isFinite = true ∧
      value (Series.mean window) =
        (window.present.map value).sum / window.present.length := by
  obtain ⟨hfinite, hvalue⟩ := value_sum h.isFinite h.sum
  have hmean : Series.mean window =
      Series.sum window.present / Float.ofNat window.present.length := by
    rw [mean_eq, Point.mean, if_neg (by rwa [List.isEmpty_iff]), Series.sum]
  have hrepresentable := h.mean
  rw [← hvalue] at hrepresentable ⊢
  rw [hmean]
  exact Point.value_div_ofNat (List.length_pos_iff.2 hne) hlength hfinite hrepresentable

/-- Whole numbers have an exact mean if it is one of them and their sum has 53 bits. -/
theorem hasExactMean_ofNat {ns : List Nat} (hsum : ns.sum < 2 ^ 53) (hmean : ns.length ∣ ns.sum) :
    HasExactMean (ns.map Float.ofNat) := by
  have hlt (n : Nat) (hn : n ∈ ns) : n < 2 ^ 53 := (List.le_sum_of_mem hn).trans_lt hsum
  have hrepresentable {n : Nat} (hn : n ≤ ns.sum) : IsRepresentable n :=
    ⟨_, Point.value_ofNat_of_lt (hn.trans_lt hsum)⟩
  have hvalues (k : Nat) : (((ns.map Float.ofNat).take k).map value).sum = (ns.take k).sum := by
    rw [← List.map_take, List.map_map, Nat.cast_list_sum]
    exact congrArg List.sum (List.map_congr_left fun n hn =>
      (Point.value_ofNat_of_lt (hlt n (List.mem_of_mem_take hn))).2)
  refine ⟨List.forall_mem_map.2 fun n hn => (Point.value_ofNat_of_lt (hlt n hn)).1,
    fun ys hys => ?_, ?_⟩
  · rw [List.prefix_iff_eq_take.1 hys, hvalues]
    exact hrepresentable ((List.take_sublist ..).sum_le_sum fun _ _ => Nat.zero_le _)
  · have hall := hvalues ns.length
    rw [List.take_of_length_le (List.length_map ..).le, List.take_length] at hall
    rw [hall, List.length_map, ← Nat.cast_div_charZero hmean]
    exact hrepresentable (Nat.div_le_self ..)

/-! ## Means and extremes -/

theorem le_mean {qs : List ℚ} {q : ℚ} (hne : qs ≠ []) (h : ∀ r ∈ qs, q ≤ r) :
    q ≤ qs.sum / qs.length := by
  have hpos : (0 : ℚ) < qs.length := by exact_mod_cast List.length_pos_iff.2 hne
  rw [le_div_iff₀ hpos, mul_comm, ← nsmul_eq_mul]
  exact List.card_nsmul_le_sum qs q h

theorem mean_le {qs : List ℚ} {q : ℚ} (hne : qs ≠ []) (h : ∀ r ∈ qs, r ≤ q) :
    qs.sum / qs.length ≤ q := by
  have hpos : (0 : ℚ) < qs.length := by exact_mod_cast List.length_pos_iff.2 hne
  rw [div_le_iff₀ hpos, mul_comm, ← nsmul_eq_mul]
  exact List.sum_le_card_nsmul qs q h

theorem HasExactMean.between (h : HasExactMean window.present) (hne : window.present ≠ [])
    (hlength : window.present.length < 2 ^ 63) :
    least window ≤ Series.mean window ∧ Series.mean window ≤ greatest window := by
  obtain ⟨hfinite, hvalue⟩ := h.value_mean hne hlength
  have hne' : window.present.map value ≠ [] := mt List.map_eq_nil_iff.1 hne
  have hsome := List.exists_mem_of_ne_nil _ hne
  obtain ⟨hlow, hle⟩ := (findsExtremes_least window).of_exists hsome
  obtain ⟨hhigh, hge⟩ := (findsExtremes_greatest window).of_exists hsome
  have hpresent := forall_mem_present window
  constructor
  · rw [Point.le_iff_value_le (h.isFinite _ hlow) hfinite, hvalue, ← List.length_map]
    refine le_mean hne' (List.forall_mem_map.2 fun x hx => ?_)
    rw [← Point.le_iff_value_le (h.isFinite _ hlow) (h.isFinite x hx)]
    exact (le_iff_comparePoints (hpresent _ hlow) (hpresent x hx)).2 (hle x hx)
  · rw [Point.le_iff_value_le hfinite (h.isFinite _ hhigh), hvalue, ← List.length_map]
    refine mean_le hne' (List.forall_mem_map.2 fun x hx => ?_)
    rw [← Point.le_iff_value_le (h.isFinite x hx) (h.isFinite _ hhigh)]
    exact (le_iff_comparePoints (hpresent x hx) (hpresent _ hhigh)).2 (hge x hx)

/-- What lies between two points that equal a number equals it. -/
theorem beq_of_between {low high : Float} (hx : x.isNaN = false) (hlow : (low == v) = true)
    (hhigh : (high == v) = true) (hlow' : low.isNaN = false) (hhigh' : high.isNaN = false)
    (h : low ≤ x ∧ x ≤ high) : (x == v) = true := by
  have hv := isNaN_of_beq hlow
  rw [beq_iff_comparePoints hlow' hv] at hlow
  rw [beq_iff_comparePoints hhigh' hv] at hhigh
  rw [le_iff_comparePoints hlow' hx, le_iff_comparePoints hx hhigh'] at h
  rw [beq_iff_comparePoints hx hv]
  refine Std.OrientedCmp.isLE_antisymm ?_ ?_
  · exact Std.TransCmp.isLE_trans h.2 (hhigh ▸ rfl)
  · exact Std.TransCmp.isLE_trans (Std.OrientedCmp.eq_symm hlow ▸ rfl) h.1

theorem HasExactMean.isNaN_mean_iff (h : HasExactMean window.present)
    (hlength : window.present.length < 2 ^ 63) :
    (Series.mean window).isNaN = true ↔ window.present = [] := by
  constructor
  · contrapose!
    intro hne
    exact ne_true_of_eq_false (Point.isNaN_eq_false (h.value_mean hne hlength).1)
  · intro hempty
    rw [mean_eq, hempty]
    decide +kernel

theorem length_pointsInWindow_lt (hword : FitsWord period) (hi : i < s.length) :
    (s.pointsInWindow period i).length < 2 ^ 63 := by
  rw [← present_trailing hi]
  have hfilter : (s.trailing period.toNat i).present.length ≤ (s.trailing period.toNat i).length :=
    List.length_filter_le ..
  have htake : (s.trailing period.toNat i).length ≤ period.toNat :=
    (List.length_take_le ..).trans (min_le_left ..)
  have hlt := hword.2
  omega

/-- Where a window is summed and divided without rounding, its mean is missing where its extremes
are, lies between them elsewhere, and is the number that all of its points are if they are one. -/
theorem mean_between_extremes (hword : FitsWord period) (hi : i < s.length)
    (h : HasExactMean (s.pointsInWindow period i)) :
    ∃ average high low,
      (movingAverage s period)[i]? = some average ∧ (highest s period)[i]? = some high ∧
      (lowest s period)[i]? = some low ∧
      (average.isNaN = true ↔ high.isNaN = true) ∧ (average.isNaN = true ↔ low.isNaN = true) ∧
      (average.isNaN = false → low ≤ average ∧ average ≤ high ∧ value average =
        ((s.pointsInWindow period i).map value).sum / (s.pointsInWindow period i).length) ∧
      ∀ v, (∃ x, InWindow s period i x) → (∀ x, InWindow s period i x → (x == v) = true) →
        (average == v) = true := by
  have hlength := length_pointsInWindow_lt hword hi
  have hlow := findsExtremes_least.isExtreme period hi
  have hhigh := findsExtremes_greatest.isExtreme period hi
  refine ⟨_, _, _, getElem?_overWindows mean period hi, getElem?_overWindows greatest period hi,
    getElem?_overWindows least period hi, ?_⟩
  have hmem (x : Float) : x ∈ (s.trailing period.toNat i).present ↔ InWindow s period i x :=
    mem_present_trailing hi
  rw [← present_trailing hi] at h hlength ⊢
  -- where the window stands in the series no longer matters
  generalize s.trailing period.toNat i = window at h hlength hlow hhigh hmem ⊢
  have hempty : window.present = [] ↔ ∀ x, ¬InWindow s period i x := by
    simp only [List.eq_nil_iff_forall_not_mem, hmem]
  have hnan := h.isNaN_mean_iff hlength
  rw [hlow.isNaN_iff fun x hx => hx.isNaN, hhigh.isNaN_iff fun x hx => hx.isNaN, ← hempty]
  refine ⟨hnan, hnan, fun hpresent => ?_, fun v hexists hall => ?_⟩
  · have hne := mt hnan.2 (ne_true_of_eq_false hpresent)
    obtain ⟨hle, hge⟩ := h.between hne hlength
    exact ⟨hle, hge, (h.value_mean hne hlength).2⟩
  · have hne := mt hempty.1 (not_forall_not.2 hexists)
    obtain ⟨hlow, -⟩ := hlow.of_exists hexists
    obtain ⟨hhigh, -⟩ := hhigh.of_exists hexists
    exact beq_of_between (eq_false_of_ne_true (mt hnan.1 hne)) (hall _ hlow) (hall _ hhigh)
      hlow.isNaN hhigh.isNaN (h.between hne hlength)

/-- The window begins before the series, and one of the points in it is missing. -/
theorem mean_between_extremes_gap :
    FitsWord 4 ∧ HasExactMean (pointsInWindow [2.0, missing, 6.0, 1.0] 4 2) ∧
      ∃ average high low,
        (movingAverage [2.0, missing, 6.0, 1.0] 4)[2]? = some average ∧
        (highest [2.0, missing, 6.0, 1.0] 4)[2]? = some high ∧
        (lowest [2.0, missing, 6.0, 1.0] 4)[2]? = some low ∧
        low ≤ average ∧ average ≤ high ∧ value average = 4 := by
  have hword : FitsWord 4 := by decide
  have hwindow : pointsInWindow [2.0, missing, 6.0, 1.0] 4 2 = [2, 6].map Float.ofNat := by
    decide +kernel
  have h : HasExactMean (pointsInWindow [2.0, missing, 6.0, 1.0] 4 2) := by
    rw [hwindow]
    exact hasExactMean_ofNat (by decide) (by decide)
  have hpresent : (movingAverage [2.0, missing, 6.0, 1.0] 4)[2]? = some 4.0 := by
    decide +kernel
  obtain ⟨average, high, low, haverage, hhigh, hlow, -, -, hbetween, -⟩ :=
    mean_between_extremes hword (by decide) h
  obtain rfl : average = 4.0 := Option.some.inj (haverage.symm.trans hpresent)
  obtain ⟨hle, hge, hvalue⟩ := hbetween (by decide +kernel)
  refine ⟨hword, h, _, high, low, haverage, hhigh, hlow, hle, hge, ?_⟩
  have htwo : value (Float.ofNat 2) = (2 : Nat) := (Point.value_ofNat_of_lt (by decide)).2
  have hsix : value (Float.ofNat 6) = (6 : Nat) := (Point.value_ofNat_of_lt (by decide)).2
  rw [hvalue, hwindow]
  norm_num [htwo, hsix]

end IndicatorFormula.Series
