import IndicatorFormula.Series.Lag
import IndicatorFormula.Series.Window

/-!
Series given by their points. A lag and a window of such a series are given by the points again:
the lag by one of them, the window by those of the indices that it spans.
-/

namespace IndicatorFormula.Series

def ofPoints (length : Nat) (points : Nat → Float) : Series :=
  (List.range length).map points

/-- The points of the window that are not missing, oldest first. -/
def windowPoints (points : Nat → Float) (period : Int) (i : Nat) : Series :=
  let indices := (List.range (i + 1)).filter fun j : Nat => (i : Int) - period + 1 ≤ j
  (indices.map points).filter fun x => !x.isNaN

/-- The points of the window of a series that are not missing, oldest first. -/
def pointsInWindow (s : Series) (period : Int) (i : Nat) : Series :=
  windowPoints (fun j => s[j]?.getD missing) period i

variable {n : Nat} {points other : Nat → Float}

theorem length_ofPoints : (ofPoints n points).length = n := by
  rw [ofPoints, List.length_map, List.length_range]

theorem forall_mem_ofPoints {P : Float → Prop} :
    (∀ x ∈ ofPoints n points, P x) ↔ ∀ i < n, P (points i) := by
  simp only [ofPoints, List.forall_mem_map, List.mem_range]

theorem ofPoints_congr (h : ∀ i < n, points i = other i) : ofPoints n points = ofPoints n other :=
  List.map_congr_left fun i hi => h i (List.mem_range.1 hi)

theorem ofPoints_getElem? (s : Series) : ofPoints s.length (fun i => s[i]?.getD missing) = s := by
  apply List.ext_getElem length_ofPoints
  intro i hi hi'
  rw [length_ofPoints] at hi
  simp only [ofPoints, List.getElem_map, List.getElem_range, List.getElem?_eq_getElem hi,
    Option.getD_some]

theorem constant_eq_ofPoints (x : Float) : constant n x = ofPoints n fun _ => x := by
  rw [constant, ofPoints, List.map_const', List.length_range]

theorem zipWith_ofPoints (f : Float → Float → Float) :
    List.zipWith f (ofPoints n points) (ofPoints n other) =
      ofPoints n fun i => f (points i) (other i) := by
  rw [ofPoints, ofPoints, List.zipWith_map, List.zipWith_self]
  rfl

/-! ## Lags -/

theorem sourceIndex?_of_lt {i : Nat} (hi : i < n) (hword : FitsWord n) (offset : Int) :
    sourceIndex? i offset n =
      if 0 ≤ (i : Int) - offset ∧ (i : Int) - offset < n then some ((i : Int) - offset).toNat
      else none := by
  unfold sourceIndex? FitsWord at *
  dsimp only
  -- an index into the series is itself a signed word
  congr 1
  apply propext
  omega

theorem lag_ofPoints (hword : FitsWord n) (offset : Int) (points : Nat → Float) :
    lag (ofPoints n points) offset = ofPoints n fun i =>
      if 0 ≤ (i : Int) - offset ∧ (i : Int) - offset < n then points ((i : Int) - offset).toNat
      else missing := by
  unfold lag
  rw [length_ofPoints]
  refine ofPoints_congr fun i hi => ?_
  rw [sourceIndex?_of_lt hi hword]
  by_cases hsource : 0 ≤ (i : Int) - offset ∧ (i : Int) - offset < n
  · rw [if_pos hsource, if_pos hsource]
    have hlt : ((i : Int) - offset).toNat < n := by omega
    simp only [ofPoints, List.getElem?_map, List.getElem?_range hlt, Option.map_some,
      Option.getD_some]
  · rw [if_neg hsource, if_neg hsource]

/-- A lag below zero looks ahead. -/
theorem getElem?_lag_ahead {s : Series} {i ahead : Nat} (h : i + ahead < s.length)
    (hword : FitsWord s.length) : (lag s (-ahead))[i]? = s[i + ahead]? := by
  have hi : i < s.length := by omega
  have hsource : 0 ≤ (i : Int) - -ahead ∧ (i : Int) - -ahead < s.length := by omega
  have hindex : ((i : Int) - -ahead).toNat = i + ahead := by omega
  have hlag := lag_ofPoints hword (-ahead) fun i => s[i]?.getD missing
  rw [ofPoints_getElem?] at hlag
  rw [hlag, ofPoints, List.getElem?_map, List.getElem?_range hi, Option.map_some, if_pos hsource,
    hindex, List.getElem?_eq_getElem h, Option.getD_some]

/-! ## Windows -/

theorem trailing_eq_drop_take (s : Series) (length i : Nat) :
    trailing s length i = (s.take (i + 1)).drop (i + 1 - length) := by
  have hlength : i + 1 - (i + 1 - length) = min length (i + 1) := by omega
  rw [trailing, List.drop_take, hlength]

theorem filter_le_range (first last : Nat) :
    (List.range last).filter (fun j => first ≤ j) = (List.range last).drop first := by
  induction last with
  | zero => rw [List.range_zero, List.filter_nil, List.drop_nil]
  | succ last ih =>
    rw [List.range_succ, List.filter_append, ih, List.drop_append, List.length_range]
    congr 1
    by_cases hfirst : first ≤ last
    · have hdrop : first - last = 0 := by omega
      rw [hdrop, List.drop_zero, List.filter_eq_self]
      exact List.forall_mem_singleton.2 (decide_eq_true hfirst)
    · have hdrop : first - last = first - last - 1 + 1 := by omega
      rw [hdrop, List.drop_succ_cons, List.drop_nil, List.filter_eq_nil_iff]
      exact List.forall_mem_singleton.2 (mt of_decide_eq_true hfirst)

theorem present_trailing_ofPoints {i : Nat} (hi : i < n) (period : Int) :
    (trailing (ofPoints n points) period.toNat i).present = windowPoints points period i := by
  have hindices : (List.range (i + 1)).filter (fun j : Nat => (i : Int) - period + 1 ≤ j) =
      (List.range (i + 1)).drop (i + 1 - period.toNat) := by
    rw [← filter_le_range]
    apply List.filter_congr
    intro j hj
    have hj := List.mem_range.1 hj
    apply decide_eq_decide.2
    omega
  have htake : min (i + 1) n = i + 1 := by omega
  unfold windowPoints
  dsimp only
  rw [hindices, present, trailing_eq_drop_take, ofPoints, ← List.map_take, ← List.map_drop,
    List.take_range, htake]

theorem present_trailing {s : Series} {i : Nat} (hi : i < s.length) (period : Int) :
    (s.trailing period.toNat i).present = s.pointsInWindow period i := by
  rw [pointsInWindow, ← present_trailing_ofPoints hi, ofPoints_getElem?]

end IndicatorFormula.Series
