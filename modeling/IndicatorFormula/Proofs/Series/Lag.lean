import IndicatorFormula.Proofs.Evaluation.Pointwise

/-!
A lag is an exact shift of the points (`lag_exact`): lags in one direction add up, also where the
sum of their offsets is no signed word. A window function passes over the gap that a lag leaves, so
that it may come before or after the lag (`windows_of_lag`).
-/

namespace IndicatorFormula.Series

variable {s : Series} {points lagged : Nat → Float} {a b offset z : Int} {i : Nat}

/-! ## Lags of lags -/

/-- The point at a whole number, missing where that is no index. -/
def pointAt (s : Series) (z : Int) : Float :=
  if 0 ≤ z ∧ z < s.length then s[z.toNat]?.getD missing else missing

theorem pointAt_of_outside (hz : ¬(0 ≤ z ∧ z < s.length)) : s.pointAt z = missing :=
  if_neg hz

theorem lag_eq_ofPoints (hword : FitsWord s.length) (offset : Int) :
    lag s offset = ofPoints s.length fun i => s.pointAt (i - offset) := by
  have hlag := lag_ofPoints hword offset fun i => s[i]?.getD missing
  rwa [ofPoints_getElem?] at hlag

theorem getElem?_lag (hword : FitsWord s.length) (offset : Int) (hi : i < s.length) :
    (lag s offset)[i]? = some (s.pointAt (i - offset)) := by
  rw [lag_eq_ofPoints hword, ofPoints, List.getElem?_map, List.getElem?_range hi, Option.map_some]

theorem pointAt_lag (hword : FitsWord s.length) (hz : 0 ≤ z ∧ z < s.length) (offset : Int) :
    (lag s offset).pointAt z = s.pointAt (z - offset) := by
  have hindex : ((z.toNat : Nat) : Int) = z := Int.toNat_of_nonneg hz.1
  rw [pointAt, length_lag, if_pos hz, getElem?_lag hword offset (by omega), Option.getD_some,
    hindex]

/-- Where the first of two lags in one direction has no point, both together have none. -/
theorem pointAt_lag_sub (hword : FitsWord s.length) (hsigns : 0 ≤ a ∧ 0 ≤ b ∨ a ≤ 0 ∧ b ≤ 0)
    (hi : i < s.length) : (lag s a).pointAt (i - b) = s.pointAt (i - a - b) := by
  by_cases hz : 0 ≤ (i : Int) - b ∧ (i : Int) - b < s.length
  · have hcomm : (i : Int) - b - a = i - a - b := by omega
    rw [pointAt_lag hword hz, hcomm]
  · rw [pointAt_of_outside (by rwa [length_lag]), pointAt_of_outside (by omega)]

theorem lag_lag (hword : FitsWord s.length) (hsigns : 0 ≤ a ∧ 0 ≤ b ∨ a ≤ 0 ∧ b ≤ 0) :
    lag (lag s a) b = lag s (a + b) := by
  have hword' : FitsWord (lag s a).length := by rwa [length_lag]
  rw [lag_eq_ofPoints hword', lag_eq_ofPoints hword (a + b), length_lag]
  refine ofPoints_congr fun i hi => ?_
  rw [pointAt_lag_sub hword hsigns hi, Int.sub_sub]

theorem lag_zero (hword : FitsWord s.length) : lag s 0 = s := by
  rw [lag_eq_ofPoints hword]
  refine Eq.trans (ofPoints_congr fun i hi => ?_) (ofPoints_getElem? s)
  rw [pointAt, if_pos (by omega), Int.sub_zero, Int.toNat_natCast]

/-- A lag shows the point of the index less its offset, and a missing point where the series has no
such index. Lags in one direction are one lag, also where their offsets add up to no signed word,
and a lag of zero changes nothing. -/
theorem lag_exact (hword : FitsWord s.length) :
    (∀ offset, (lag s offset).length = s.length ∧
      ∀ i < s.length, (lag s offset)[i]? = some (s.pointAt (i - offset))) ∧
    (∀ a b, (0 ≤ a ∧ 0 ≤ b ∨ a ≤ 0 ∧ b ≤ 0) →
      (∀ i < s.length, (lag (lag s a) b)[i]? = some (s.pointAt (i - a - b))) ∧
        lag (lag s a) b = lag s (a + b)) ∧
    lag s 0 = s := by
  refine ⟨fun offset => ⟨length_lag s offset, fun i hi => getElem?_lag hword offset hi⟩,
    fun a b hsigns => ⟨fun i hi => ?_, lag_lag hword hsigns⟩, lag_zero hword⟩
  have hword' : FitsWord (lag s a).length := by rwa [length_lag]
  have hi' : i < (lag s a).length := by rwa [length_lag]
  rw [getElem?_lag hword' b hi', pointAt_lag_sub hword hsigns hi]

/-- The two offsets are the largest there are, then the smallest, and no sum of them is a word. -/
theorem lag_exact_far :
    FitsWord ([1.0, 2.0, 3.0] : Series).length ∧
      (lag (lag [1.0, 2.0, 3.0] 0x7FFFFFFFFFFFFFFF) 0x7FFFFFFFFFFFFFFF)[2]? = some missing ∧
      (lag (lag [1.0, 2.0, 3.0] (-0x8000000000000000)) (-0x8000000000000000))[0]? = some missing ∧
      lag (lag [1.0, 2.0, 3.0] (-1)) (-1) = [3.0, missing, missing] := by
  have hword : FitsWord ([1.0, 2.0, 3.0] : Series).length := by decide
  obtain ⟨-, hlags, -⟩ := lag_exact hword
  refine ⟨hword, ?_, ?_, ?_⟩
  · exact (hlags 0x7FFFFFFFFFFFFFFF 0x7FFFFFFFFFFFFFFF (by decide)).1 2 (by decide)
  · exact (hlags (-0x8000000000000000) (-0x8000000000000000) (by decide)).1 0 (by decide)
  · rw [(hlags (-1) (-1) (by decide)).2]
    decide +kernel

/-- In different directions the points that the first lag drops are lost. -/
example : lag (lag [1.0, 2.0] 1) (-1) ≠ lag [1.0, 2.0] 0 := by
  decide +kernel

/-! ## Windows of lags -/

theorem filter_present_map_of_missing {js : List Nat} (h : ∀ j ∈ js, lagged j = missing) :
    (js.map lagged).filter (fun x => !x.isNaN) = [] := by
  rw [List.filter_eq_nil_iff, List.forall_mem_map]
  intro j hj
  rw [h j hj]
  decide

theorem windowPoints_of_missing (hgap : ∀ j ≤ i, lagged j = missing) (period : Int) :
    windowPoints lagged period i = [] := by
  refine filter_present_map_of_missing fun j hj => hgap j ?_
  exact Nat.le_of_lt_succ (List.mem_range.1 (List.mem_filter.1 hj).1)

/-- A window has the points that it had before a gap was put in front of them, and no other. -/
theorem windowPoints_add {k : Nat} (hgap : ∀ j < k, lagged j = missing)
    (hpoints : ∀ j ≤ i, lagged (k + j) = points j) (period : Int) :
    windowPoints lagged period (k + i) = windowPoints points period i := by
  have hstart (j : Nat) : decide (((k + i : Nat) : Int) - period + 1 ≤ (k + j : Nat)) =
      decide ((i : Int) - period + 1 ≤ j) := by
    apply decide_eq_decide.2
    omega
  unfold windowPoints
  dsimp only
  rw [Nat.add_assoc, List.range_add, List.filter_append, List.map_append, List.filter_append,
    filter_present_map_of_missing, List.nil_append, List.filter_map (f := (k + ·)), List.map_map]
  · simp only [Function.comp_def, hstart]
    congr 1
    refine List.map_congr_left fun j hj => hpoints j ?_
    exact Nat.le_of_lt_succ (List.mem_range.1 (List.mem_filter.1 hj).1)
  · exact fun j hj => hgap j (List.mem_range.1 (List.mem_filter.1 hj).1)

/-- A function of the points that are not missing comes before or after a lag. -/
theorem overWindows_lag {f g : Series → Float} (h : ∀ window, f window = g window.present)
    (hempty : g [] = missing) (hword : FitsWord s.length) (hoffset : 0 ≤ offset) (period : Int) :
    overWindows f (lag s offset) period = lag (overWindows f s period) offset := by
  obtain ⟨k, rfl⟩ := Int.eq_ofNat_of_zero_le hoffset
  rw [← ofPoints_getElem? s, lag_ofPoints hword, overWindows_ofPoints h, overWindows_ofPoints h,
    lag_ofPoints hword]
  refine ofPoints_congr fun i hi => ?_
  have hgap : ∀ j < k, ¬(0 ≤ (j : Int) - k ∧ (j : Int) - k < s.length) := by omega
  by_cases hki : k ≤ i
  · obtain ⟨i, rfl⟩ := Nat.exists_eq_add_of_le hki
    have hsource (j : Nat) (hj : j ≤ i) :
        0 ≤ ((k + j : Nat) : Int) - k ∧ ((k + j : Nat) : Int) - k < s.length := by omega
    have hindex (j : Nat) : (((k + j : Nat) : Int) - k).toNat = j := by omega
    rw [if_pos (hsource i (Nat.le_refl i)), hindex, windowPoints_add]
    · exact fun j hj => if_neg (hgap j hj)
    · exact fun j hj => by rw [if_pos (hsource j hj), hindex]
  · rw [if_neg (hgap i (by omega)), windowPoints_of_missing, hempty]
    exact fun j hj => if_neg (hgap j (by omega))

/-- A window function of a lag is the lag of the window function, where the lag does not look ahead:
the windows pass over the gap in front, and those that span nothing else are missing as it is. -/
theorem windows_of_lag (hword : FitsWord s.length) (hoffset : 0 ≤ offset) (period : Int) :
    movingAverage (lag s offset) period = lag (movingAverage s period) offset ∧
      highest (lag s offset) period = lag (highest s period) offset ∧
      lowest (lag s offset) period = lag (lowest s period) offset :=
  ⟨overWindows_lag mean_eq rfl hword hoffset period,
    overWindows_lag greatest_eq rfl hword hoffset period,
    overWindows_lag least_eq rfl hword hoffset period⟩

/-- The gap of the lag and the missing point of the series stand in one window. -/
theorem windows_of_lag_gap :
    FitsWord ([missing, 1.0, 4.0] : Series).length ∧ (0 : Int) ≤ 1 ∧
      movingAverage (lag [missing, 1.0, 4.0] 1) 2 = [missing, missing, 1.0] ∧
      highest (lag [missing, 1.0, 4.0] 1) 2 = [missing, missing, 1.0] ∧
      lowest (lag [missing, 1.0, 4.0] 1) 2 = [missing, missing, 1.0] := by
  have hword : FitsWord ([missing, 1.0, 4.0] : Series).length := by decide
  have hoffset : (0 : Int) ≤ 1 := by decide
  obtain ⟨hmean, hhigh, hlow⟩ := windows_of_lag hword hoffset 2
  refine ⟨hword, hoffset, ?_⟩
  rw [hmean, hhigh, hlow]
  decide +kernel

end IndicatorFormula.Series
