import IndicatorFormula.Proofs.Series.Prefix

/-!
The source of a lagged point, found in words of 64 bits. Each step gives the word of the exact value
where there is one, and nothing where there is none (`signed?_eq_some_iff`,
`difference?_eq_some_iff`, `unsigned?_eq_some_iff`). So nothing wraps on the way, and the source is
that of whole numbers of any size (`sourceIndex?_exact`).
-/

namespace IndicatorFormula.Series

variable {index length w : UInt64} {offset a b d : Int64} {r : Nat}

/-! ## Steps -/

/-- The word with a sign that has the same bits, unless that is negative. -/
def signed? (w : UInt64) : Option Int64 :=
  if w < 0x8000000000000000 then some w.toInt64 else none

/-- The difference modulo `2 ^ 64`, unless it is on the wrong side of the first word. -/
def difference? (a b : Int64) : Option Int64 :=
  if 0 ≤ b ↔ a - b ≤ a then some (a - b) else none

/-- The word without a sign that has the same bits, unless the given one is negative. -/
def unsigned? (a : Int64) : Option UInt64 :=
  if 0 ≤ a then some a.toUInt64 else none

/-- `sourceIndex?` in words. -/
def sourceWord? (index : UInt64) (offset : Int64) (length : UInt64) : Option UInt64 := do
  let place ← signed? index
  let shifted ← difference? place offset
  let source ← unsigned? shifted
  if source < length then some source else none

theorem toInt_toInt64_of_lt (h : w.toNat < 2 ^ 63) : w.toInt64.toInt = w.toNat :=
  BitVec.toInt_eq_toNat_of_lt (Nat.mul_lt_mul_of_pos_left h Nat.two_pos)

theorem signed?_eq_some_iff : signed? w = some a ↔ a.toInt = w.toNat := by
  have hlimit : w < 0x8000000000000000 ↔ w.toNat < 2 ^ 63 := UInt64.lt_iff_toNat_lt
  unfold signed?
  split
  · next h => rw [Option.some_inj, ← Int64.toInt_inj, toInt_toInt64_of_lt (hlimit.1 h), eq_comm]
  · next h =>
    have hge := mt hlimit.2 h
    have ha := a.toInt_lt
    refine iff_of_false (Option.some_ne_none _).symm ?_
    omega

/-- The difference of words is the exact one, or it is on the other side of the first word. -/
theorem toInt_sub_eq_iff (a b : Int64) :
    (a - b).toInt = a.toInt - b.toInt ↔ (0 ≤ b ↔ a - b ≤ a) := by
  have ha := a.toInt_lt
  have ha' := a.le_toInt
  have hb := b.toInt_lt
  have hb' := b.le_toInt
  rw [Int64.le_iff_toInt_le, Int64.le_iff_toInt_le, Int64.toInt_zero, Int64.toInt_sub, Int.bmod_def]
  omega

theorem difference?_eq_some_iff : difference? a b = some d ↔ d.toInt = a.toInt - b.toInt := by
  unfold difference?
  split
  · next h =>
    rw [Option.some_inj, ← Int64.toInt_inj, (toInt_sub_eq_iff a b).2 h, eq_comm]
  · next h =>
    have hwraps := mt (toInt_sub_eq_iff a b).1 h
    have hd := d.toInt_lt
    have hd' := d.le_toInt
    rw [Int64.toInt_sub] at hwraps
    refine iff_of_false (Option.some_ne_none _).symm fun heq => hwraps ?_
    exact heq ▸ Int.bmod_eq_of_le (by omega) (by omega)

theorem unsigned?_eq_some_iff : unsigned? a = some w ↔ (w.toNat : Int) = a.toInt := by
  have hsign : 0 ≤ a ↔ 0 ≤ a.toInt := Int64.le_iff_toInt_le
  unfold unsigned?
  split
  · next h =>
    have hvalue : (a.toUInt64.toNat : Int) = a.toInt := by
      rw [Int64.toNat_toUInt64_of_le h]
      exact Int.toNat_of_nonneg (hsign.1 h)
    rw [Option.some_inj, ← UInt64.toNat_inj, ← Int.natCast_inj, hvalue, eq_comm]
  · next h =>
    have hneg := mt hsign.2 h
    refine iff_of_false (Option.some_ne_none _).symm ?_
    omega

/-! ## The source -/

theorem sourceWord?_eq_some_iff : sourceWord? index offset length = some w ↔
    ∃ place shifted : Int64, place.toInt = index.toNat ∧
      shifted.toInt = place.toInt - offset.toInt ∧ (w.toNat : Int) = shifted.toInt ∧
      w.toNat < length.toNat := by
  simp only [sourceWord?, Option.bind_eq_bind, Option.bind_eq_some_iff, signed?_eq_some_iff,
    difference?_eq_some_iff, Option.ite_none_right_eq_some, Option.some_inj,
    UInt64.lt_iff_toNat_lt]
  constructor
  · rintro ⟨place, hplace, shifted, hshifted, source, hsource, hlt, rfl⟩
    exact ⟨place, shifted, hplace, hshifted, unsigned?_eq_some_iff.1 hsource, hlt⟩
  · rintro ⟨place, shifted, hplace, hshifted, hsource, hlt⟩
    exact ⟨place, hplace, shifted, hshifted, w, unsigned?_eq_some_iff.2 hsource, hlt, rfl⟩

/-- Every difference of two indices is a word. -/
theorem sourceIndex?_eq_some_iff_of_lt {i n : Nat} {z : Int} (hn : n ≤ 2 ^ 63) (hi : i < n) :
    sourceIndex? i z n = some r ↔ (r : Int) = i - z ∧ r < n := by
  rw [sourceIndex?_eq_some_iff]
  omega

theorem exists_word {n : Nat} (h : n < 2 ^ 63) :
    ∃ (w : UInt64) (a : Int64), w.toNat = n ∧ a.toInt = n := by
  have hw : (UInt64.ofNat n).toNat = n := UInt64.toNat_ofNat_of_lt' (Nat.lt_trans h (by decide))
  refine ⟨.ofNat n, (UInt64.ofNat n).toInt64, hw, ?_⟩
  rw [toInt_toInt64_of_lt (hw.symm ▸ h), hw]

theorem map_sourceWord?_eq_some_iff : (sourceWord? index offset length).map UInt64.toNat = some r ↔
    sourceIndex? index.toNat offset.toInt length.toNat = some r := by
  simp only [Option.map_eq_some_iff, sourceWord?_eq_some_iff, sourceIndex?_eq_some_iff]
  constructor
  · rintro ⟨w, ⟨place, shifted, hplace, hshifted, hsource, hlt⟩, rfl⟩
    have hplace' := place.toInt_lt
    have hshifted' := shifted.toInt_lt
    omega
  · rintro ⟨hindex, hsource, hlt, hr⟩
    obtain ⟨-, place, -, hplace⟩ := exists_word hindex
    obtain ⟨w, shifted, rfl, hshifted⟩ := exists_word hr
    exact ⟨w, ⟨place, shifted, hplace, by omega, hshifted.symm, hlt⟩, rfl⟩

/-- The source is the index less the offset, as whole numbers of any size, where the index and the
source are below `2 ^ 63` and the source is an index of the list. In words it is the same, and each
word on the way has the exact value. Of a list of at most `2 ^ 63` points no source is out of
reach. -/
theorem sourceIndex?_exact (index : UInt64) (offset : Int64) (length : UInt64) :
    (∀ r : Nat, sourceIndex? index.toNat offset.toInt length.toNat = some r ↔
      index.toNat < 2 ^ 63 ∧ (r : Int) = index.toNat - offset.toInt ∧ r < length.toNat ∧
        r < 2 ^ 63) ∧
    (sourceWord? index offset length).map UInt64.toNat =
      sourceIndex? index.toNat offset.toInt length.toNat ∧
    (∀ w, sourceWord? index offset length = some w ↔
      ∃ place shifted : Int64, place.toInt = index.toNat ∧
        shifted.toInt = place.toInt - offset.toInt ∧ (w.toNat : Int) = shifted.toInt ∧
        w.toNat < length.toNat) ∧
    (length.toNat ≤ 2 ^ 63 → index.toNat < length.toNat → ∀ r : Nat,
      sourceIndex? index.toNat offset.toInt length.toNat = some r ↔
        (r : Int) = index.toNat - offset.toInt ∧ r < length.toNat) :=
  ⟨fun _ => sourceIndex?_eq_some_iff, Option.ext fun _ => map_sourceWord?_eq_some_iff,
    fun _ => sourceWord?_eq_some_iff, fun hlength hindex _ =>
      sourceIndex?_eq_some_iff_of_lt hlength hindex⟩

theorem sourceIndex?_exact_last :
    (0x8000000000000000 : UInt64).toNat ≤ 2 ^ 63 ∧
      (0x7FFFFFFFFFFFFFFF : UInt64).toNat < (0x8000000000000000 : UInt64).toNat ∧
      sourceIndex? 0x7FFFFFFFFFFFFFFF 0x7FFFFFFFFFFFFFFF 0x8000000000000000 = some 0 := by
  have hlength : (0x8000000000000000 : UInt64).toNat ≤ 2 ^ 63 := by decide
  have hindex : (0x7FFFFFFFFFFFFFFF : UInt64).toNat < (0x8000000000000000 : UInt64).toNat := by
    decide
  obtain ⟨-, -, -, hsource⟩ :=
    sourceIndex?_exact 0x7FFFFFFFFFFFFFFF 0x7FFFFFFFFFFFFFFF 0x8000000000000000
  exact ⟨hlength, hindex, (hsource hlength hindex 0).2 (by decide)⟩

/-- The difference is no signed word, although it is an index of the list. -/
example : sourceIndex? 1 (-0x7FFFFFFFFFFFFFFF) 0xFFFFFFFFFFFFFFFF = none := by
  decide

end IndicatorFormula.Series
