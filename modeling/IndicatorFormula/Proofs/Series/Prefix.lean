import IndicatorFormula.Series.Lag
import IndicatorFormula.Series.Window
import Mathlib.Algebra.Group.Nat.Defs

/-!
The functions of a series on its first `k` points. Window functions and lags by no less than zero
give the first `k` points of what they give on the whole series: no point of theirs depends on a
later one.
-/

namespace IndicatorFormula.Series

theorem map_range_take {f g : Nat → Float} {n k : Nat} (h : ∀ i < min k n, f i = g i) :
    (List.range (min k n)).map f = ((List.range n).map g).take k := by
  rw [← List.map_take, List.take_range]
  exact List.map_congr_left fun i hi => h i (List.mem_range.1 hi)

theorem sourceIndex?_of_nonneg {offset : Int} (h : 0 ≤ offset) {i n : Nat} (hi : i < n) :
    sourceIndex? i offset n = sourceIndex? i offset (i + 1) := by
  have hsource : (i : Int) - offset < n := by omega
  have hsource' : (i : Int) - offset < (i + 1 : Nat) := by omega
  simp only [sourceIndex?, hsource, hsource', and_true]

theorem sourceIndex?_eq_some_iff {offset : Int} {i n j : Nat} : sourceIndex? i offset n = some j ↔
    i < 2 ^ 63 ∧ (j : Int) = i - offset ∧ j < n ∧ j < 2 ^ 63 := by
  unfold sourceIndex? FitsWord
  dsimp only
  rw [Option.ite_none_right_eq_some, Option.some_inj]
  omega

theorem lt_of_sourceIndex? {offset : Int} {i n j : Nat} (h : sourceIndex? i offset n = some j) :
    j < n :=
  (sourceIndex?_eq_some_iff.1 h).2.2.1

theorem sub_eq_of_sourceIndex? {offset : Int} {i n j : Nat} (h : sourceIndex? i offset n = some j) :
    (i : Int) - offset = j :=
  (sourceIndex?_eq_some_iff.1 h).2.1.symm

theorem lag_take {offset : Int} (h : 0 ≤ offset) (s : Series) (k : Nat) :
    lag (s.take k) offset = (lag s offset).take k := by
  unfold lag
  rw [List.length_take]
  apply map_range_take
  intro i hi
  have hik : i < k := Nat.lt_of_lt_of_le hi (Nat.min_le_left ..)
  have hin : i < s.length := Nat.lt_of_lt_of_le hi (Nat.min_le_right ..)
  rw [sourceIndex?_of_nonneg h hi, sourceIndex?_of_nonneg h hin]
  cases hj : sourceIndex? i offset (i + 1) with
  | none => rfl
  | some j =>
    have hjk : j < k := Nat.lt_of_lt_of_le (lt_of_sourceIndex? hj) hik
    dsimp only
    rw [List.getElem?_take_of_lt hjk]

/-- A lag below zero looks ahead. -/
example : lag ([1.0, 2.0].take 1) (-1) ≠ (lag [1.0, 2.0] (-1)).take 1 := by
  decide +kernel

theorem trailing_take (s : Series) {k i : Nat} (hi : i < k) (n : Nat) :
    trailing (s.take k) n i = trailing s n i := by
  have hlength : min (min n (i + 1)) (k - (i + 1 - n)) = min n (i + 1) := by omega
  rw [trailing, trailing, List.drop_take, List.take_take, hlength]

theorem overWindows_take (f : Series → Float) (s : Series) (period : Int) (k : Nat) :
    overWindows f (s.take k) period = (overWindows f s period).take k := by
  unfold overWindows
  rw [List.length_take]
  apply map_range_take
  intro i hi
  rw [trailing_take s (Nat.lt_of_lt_of_le hi (Nat.min_le_left ..))]

end IndicatorFormula.Series
