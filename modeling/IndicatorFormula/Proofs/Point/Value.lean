import IndicatorFormula.Proofs.Series.Order
import Mathlib.Algebra.Order.Field.Power
import Mathlib.Data.Rat.Cast.Order
import Mathlib.Tactic.Linarith
import Mathlib.Tactic.Positivity
import Mathlib.Tactic.Ring

/-!
The number that a finite point is. A point is unpacked to a significand and an exponent of a form of
its own (`IsCanonical`), packing such a form loses nothing (`unpack_pack`), and points compare as
their numbers do (`comparePoints_eq_compare`).
-/

namespace IndicatorFormula.Point

open Float.Model (Format UnpackedFloat)
open Float.Model.UnpackedFloat

def number : UnpackedFloat → ℚ
  | .finite sign m e _ => sign.apply m * 2 ^ e
  | .zero _ | .infinity _ | .notANumber => 0

/-- Zero unless the point is finite. -/
def value (x : Float) : ℚ :=
  number x.toModel.unpack

/-- The significand has 53 bits, or as many as the least exponent leaves it. -/
structure IsScaled (m : Nat) (e : Int) : Prop where
  lt : m < 2 ^ 53
  least : -1074 ≤ e
  greatest : e ≤ 971
  full : 2 ^ 52 ≤ m ∨ e = -1074

/-- Zeros, and the finite forms that unpacking gives. -/
inductive IsCanonical : UnpackedFloat → Prop
  | zero (sign : Sign) : IsCanonical (.zero sign)
  | finite (sign : Sign) {m : Nat} {e : Int} (hm : 0 < m) (h : IsScaled m e) :
    IsCanonical (.finite sign m e hm)

variable {u v w : UnpackedFloat} {x y : Float} {m m' : Nat} {e e' : Int}

/-! ## Unpacking and packing -/

theorem isScaled_subnormal (hm : m < 2 ^ 52) : IsScaled m (-1074) :=
  ⟨by omega, by omega, by omega, .inr rfl⟩

theorem isScaled_normal (hm : m < 2 ^ 52) {k : Nat} (hpos : 0 < k) (hk : k < 2047) :
    IsScaled (2 ^ 52 + m) (k - 1075) :=
  ⟨by omega, by omega, by omega, .inl (by omega)⟩

theorem toNat_implicit (f : BitVec 52) : (1#1 ++ f).toNat = 2 ^ 52 + f.toNat := by
  rw [BitVec.toNat_append, ← Nat.shiftLeft_add_eq_or_of_lt f.isLt]
  rfl

theorem ofBitVec_unpackSign (sign : Sign) (k : BitVec 11) (f : BitVec 52) :
    Sign.ofBitVec (unpackSign (packComponents .binary64 sign k f)) = sign := by
  unfold unpackSign packComponents BitVec.extractLsb
  rw [BitVec.extractLsb'_append_eq_of_le (by decide),
    BitVec.extractLsb'_append_eq_of_le (by decide)]
  cases sign <;> rfl

section Fields

variable {b : BitVec 64} {sign : Sign} {k : Nat}

theorem unpack_zero (hsign : Sign.ofBitVec (@unpackSign .binary64 b) = sign)
    (hexponent : @unpackExponent .binary64 b = 0#11)
    (hfraction : @unpackMantissa .binary64 b = 0#52) :
    UnpackedFloat.unpack .binary64 b = .zero sign := by
  have hspecial : @unpackExponent .binary64 b ≠ -1#11 := by
    rw [hexponent]
    decide
  subst hsign
  exact (if_neg hspecial).trans ((if_pos hexponent).trans (dif_pos hfraction))

theorem unpack_subnormal (hsign : Sign.ofBitVec (@unpackSign .binary64 b) = sign)
    (hexponent : @unpackExponent .binary64 b = 0#11)
    (hfraction : (@unpackMantissa .binary64 b).toNat = m) (hm : 0 < m) :
    UnpackedFloat.unpack .binary64 b = .finite sign m (-1074) hm := by
  have hspecial : @unpackExponent .binary64 b ≠ -1#11 := by
    rw [hexponent]
    decide
  have hne : @unpackMantissa .binary64 b ≠ 0#52 := by
    intro heq
    rw [heq] at hfraction
    exact hm.ne hfraction
  refine (if_neg hspecial).trans ((if_pos hexponent).trans ((dif_neg hne).trans ?_))
  rw [finite.injEq, hexponent]
  exact ⟨hsign, hfraction, rfl⟩

theorem unpack_normal (hsign : Sign.ofBitVec (@unpackSign .binary64 b) = sign)
    (hexponent : (@unpackExponent .binary64 b).toNat = k) (hpos : 0 < k) (hk : k < 2047)
    (hfraction : (1#1 ++ @unpackMantissa .binary64 b).toNat = m) (hm : 0 < m) :
    UnpackedFloat.unpack .binary64 b = .finite sign m (k - 1075) hm := by
  have hspecial : @unpackExponent .binary64 b ≠ -1#11 := by
    intro heq
    rw [heq] at hexponent
    exact hk.ne' hexponent
  have hleast : @unpackExponent .binary64 b ≠ 0#11 := by
    intro heq
    rw [heq] at hexponent
    exact hpos.ne hexponent
  refine (if_neg hspecial).trans ((if_neg hleast).trans ?_)
  rw [finite.injEq, hexponent]
  exact ⟨hsign, hfraction, rfl⟩

theorem isCanonical_unpack (h : (UnpackedFloat.unpack .binary64 b).isFinite = true) :
    IsCanonical (UnpackedFloat.unpack .binary64 b) := by
  have hfraction : (@unpackMantissa .binary64 b).toNat < 2 ^ 52 := BitVec.isLt _
  have hexponent : (@unpackExponent .binary64 b).toNat < 2048 := BitVec.isLt _
  have hne {u : UnpackedFloat} (hu : u.isFinite = false) :
      UnpackedFloat.unpack .binary64 b ≠ u := by
    rintro rfl
    rw [h] at hu
    cases hu
  -- the exponent field tells infinities, subnormal and normal points apart
  by_cases hspecial : (@unpackExponent .binary64 b).toNat = 2047
  · replace hspecial : @unpackExponent .binary64 b = -1#11 := BitVec.eq_of_toNat_eq hspecial
    by_cases hmantissa : @unpackMantissa .binary64 b = 0#52
    · exact absurd ((if_pos hspecial).trans (if_pos hmantissa)) (hne rfl)
    · exact absurd ((if_pos hspecial).trans (if_neg hmantissa)) (hne rfl)
  by_cases hleast : (@unpackExponent .binary64 b).toNat = 0
  · replace hleast : @unpackExponent .binary64 b = 0#11 := BitVec.eq_of_toNat_eq hleast
    rcases Nat.eq_zero_or_pos (@unpackMantissa .binary64 b).toNat with hmantissa | hmantissa
    · rw [unpack_zero rfl hleast (BitVec.eq_of_toNat_eq hmantissa)]
      exact .zero _
    · rw [unpack_subnormal rfl hleast rfl hmantissa]
      exact .finite _ _ (isScaled_subnormal hfraction)
  · have hpos := Nat.pos_of_ne_zero hleast
    have hlt : (@unpackExponent .binary64 b).toNat < 2047 := by omega
    rw [unpack_normal rfl rfl hpos hlt (toNat_implicit _) (by omega)]
    exact .finite _ _ (isScaled_normal hfraction hpos hlt)

end Fields

theorem unpack_packComponents_subnormal (sign : Sign) (hm : 0 < m) (hlt : m < 2 ^ 52) :
    UnpackedFloat.unpack .binary64 (packComponents .binary64 sign 0#11 (BitVec.ofNat 52 m)) =
      .finite sign m (-1074) hm := by
  have hfraction : (BitVec.ofNat 52 m).toNat = m := Nat.mod_eq_of_lt hlt
  refine unpack_subnormal (ofBitVec_unpackSign ..) unpackExponent_packComponents ?_ hm
  rwa [unpackMantissa_packComponents]

theorem unpack_packComponents_normal (sign : Sign) {k : Nat} (hpos : 0 < k) (hk : k < 2047)
    (hm : 0 < m) (hlow : 2 ^ 52 ≤ m) (hlt : m < 2 ^ 53) :
    UnpackedFloat.unpack .binary64
        (packComponents .binary64 sign (BitVec.ofNat 11 k) (BitVec.ofNat 52 m)) =
      .finite sign m (k - 1075) hm := by
  have hexponent : (BitVec.ofNat 11 k).toNat = k := Nat.mod_eq_of_lt (by omega)
  have hfraction : (1#1 ++ BitVec.ofNat 52 m).toNat = m := by
    rw [toNat_implicit, BitVec.toNat_ofNat]
    omega
  refine unpack_normal (ofBitVec_unpackSign ..) ?_ hpos hk ?_ hm
  · rwa [unpackExponent_packComponents]
  · rwa [unpackMantissa_packComponents]

theorem log2_lt_of_isScaled (h : IsScaled m e) (hm : 0 < m) : m.log2 < 53 :=
  (Nat.log2_lt hm.ne').2 h.lt

theorem le_log2 (hm : 0 < m) (hlow : 2 ^ 52 ≤ m) : 52 ≤ m.log2 :=
  (Nat.le_log2 hm.ne').2 hlow

theorem pack_normal (h : IsScaled m e) (hm : 0 < m) (hlow : 2 ^ 52 ≤ m) (sign : Sign) :
    UnpackedFloat.pack .binary64 (.finite sign m e hm) =
      packComponents .binary64 sign (BitVec.ofNat 11 (e + (1023 : Nat) + (52 : Nat)).toNat)
        (BitVec.ofNat 52 m) := by
  have hgreatest := h.greatest
  have hlog := log2_lt_of_isScaled h hm
  have hlog' := le_log2 hm hlow
  have hfinite : ¬2 ^ 11 ≤ (e + (1023 : Nat) + (52 : Nat)).toNat + 1 := by omega
  have hbits : m.log2 + 1 = 53 := by omega
  exact (if_neg hfinite).trans (if_pos hbits)

theorem pack_subnormal (h : IsScaled m e) (hm : 0 < m) (hlt : m < 2 ^ 52) (sign : Sign) :
    UnpackedFloat.pack .binary64 (.finite sign m e hm) =
      packComponents .binary64 sign 0#11 (BitVec.ofNat 52 m) := by
  have hgreatest := h.greatest
  have hlog : m.log2 < 52 := (Nat.log2_lt hm.ne').2 hlt
  have hfinite : ¬2 ^ 11 ≤ (e + (1023 : Nat) + (52 : Nat)).toNat + 1 := by omega
  have hbits : m.log2 + 1 ≠ 53 := by omega
  exact (if_neg hfinite).trans (if_neg hbits)

theorem unpack_pack (h : IsCanonical u) : (Float.Model.pack u).unpack = u := by
  change UnpackedFloat.unpack .binary64 (UnpackedFloat.pack .binary64 u) = u
  cases h with
  | zero sign => cases sign <;> rfl
  | @finite sign m e hm h =>
    by_cases hlow : 2 ^ 52 ≤ m
    · have hleast := h.least
      have hgreatest := h.greatest
      rw [pack_normal h hm hlow,
        unpack_packComponents_normal sign (by omega) (by omega) hm hlow h.lt, finite.injEq]
      exact ⟨rfl, rfl, by omega⟩
    · rw [pack_subnormal h hm (by omega), unpack_packComponents_subnormal sign hm (by omega),
        finite.injEq]
      exact ⟨rfl, rfl, (h.full.resolve_left hlow).symm⟩

/-! ## Order -/

theorem IsScaled.mul_lt (h : IsScaled m e) (h' : IsScaled m' e')
    (hlt : e < e' ∨ e = e' ∧ m < m') : (m : ℚ) * 2 ^ e < m' * 2 ^ e' := by
  have hpos : (0 : ℚ) < 2 ^ e := by positivity
  rcases hlt with hlt | ⟨rfl, hlt⟩
  · -- the larger exponent is not the least one, so its significand is full
    have hfull : 2 ^ 52 ≤ m' := h'.full.resolve_right (by have := h.least; omega)
    have hm : (m : ℚ) < 2 ^ 53 := by exact_mod_cast h.lt
    have hm' : (2 ^ 52 : ℚ) ≤ m' := by exact_mod_cast hfull
    have hpow : (2 : ℚ) * 2 ^ e ≤ 2 ^ e' := by
      rw [← zpow_one_add₀ two_ne_zero]
      exact zpow_le_zpow_right₀ one_le_two (by omega)
    calc (m : ℚ) * 2 ^ e < 2 ^ 53 * 2 ^ e := by gcongr
      _ = 2 ^ 52 * (2 * 2 ^ e) := by ring
      _ ≤ m' * 2 ^ e' := by gcongr
  · have hm : (m : ℚ) < m' := by exact_mod_cast hlt
    gcongr

theorem number_finite_positive (hm : 0 < m) :
    number (.finite .positive m e hm) = m * 2 ^ e := by
  change ((m : Int) : ℚ) * 2 ^ e = _
  rw [Int.cast_natCast]

theorem number_finite_negative (hm : 0 < m) :
    number (.finite .negative m e hm) = -(m * 2 ^ e) := by
  change ((-m : Int) : ℚ) * 2 ^ e = _
  rw [Int.cast_neg, Int.cast_natCast, neg_mul]

theorem compareRanks_eq_lt_iff {r r' : Int × Int × Int} :
    Series.compareRanks r r' = .lt ↔
      r.1 < r'.1 ∨ r.1 = r'.1 ∧ (r.2.1 < r'.2.1 ∨ r.2.1 = r'.2.1 ∧ r.2.2 < r'.2.2) := by
  simp only [Series.compareRanks, compareLex, compareOn, Ordering.then_eq_lt, compare_lt_iff_lt,
    compare_eq_iff_eq]

theorem compareRanks_eq_eq_iff {r r' : Int × Int × Int} :
    Series.compareRanks r r' = .eq ↔ r = r' := by
  simp only [Series.compareRanks, compareLex, compareOn, Ordering.then_eq_eq, compare_eq_iff_eq,
    Prod.ext_iff]

theorem number_eq_of_rank (u : UnpackedFloat) :
    number u = (Series.rank u).2.2 * 2 ^ ((Series.rank u).1 * (Series.rank u).2.1) := by
  have hzero (k : Int) : (0 : ℚ) = ((0 : Int) : ℚ) * 2 ^ k := by rw [Int.cast_zero, zero_mul]
  cases u with
  | infinity sign => cases sign <;> exact hzero _
  | notANumber => exact hzero _
  | zero sign => exact hzero _
  | finite sign m e hm =>
    cases sign with
    | positive =>
      change _ = ((m : Int) : ℚ) * 2 ^ (1 * e)
      rw [number_finite_positive, Int.cast_natCast, one_mul]
    | negative =>
      change _ = ((-m : Int) : ℚ) * 2 ^ (-1 * -e)
      rw [number_finite_negative, Int.cast_neg, Int.cast_natCast, neg_mul_neg, one_mul, neg_mul]

theorem IsCanonical.sign_cases (h : IsCanonical u) :
    (Series.rank u).1 = -1 ∧ number u < 0 ∨ (Series.rank u).1 = 0 ∧ number u = 0 ∨
      (Series.rank u).1 = 1 ∧ 0 < number u := by
  cases h with
  | zero sign => exact .inr (.inl ⟨rfl, rfl⟩)
  | @finite sign m e hm h =>
    have hpos : (0 : ℚ) < m * 2 ^ e := by positivity
    cases sign with
    | positive => exact .inr (.inr ⟨rfl, by rwa [number_finite_positive]⟩)
    | negative => exact .inl ⟨rfl, by rwa [number_finite_negative, neg_lt_zero]⟩

theorem number_lt_of_rank (hu : IsCanonical u) (hv : IsCanonical v)
    (h : Series.compareRanks (Series.rank u) (Series.rank v) = .lt) : number u < number v := by
  rcases compareRanks_eq_lt_iff.1 h with hclass | ⟨hclass, hlt⟩
  · rcases hu.sign_cases with ⟨hu, hu'⟩ | ⟨hu, hu'⟩ | ⟨hu, hu'⟩ <;>
      rcases hv.sign_cases with ⟨hv, hv'⟩ | ⟨hv, hv'⟩ | ⟨hv, hv'⟩ <;>
      first | omega | linarith
  · cases hu with
    | zero sign =>
      cases hv with
      | zero sign' =>
        dsimp only [Series.rank] at hlt
        omega
      | finite sign' hm' hv => cases sign' <;> cases hclass
    | @finite sign m e hm hu =>
      cases hv with
      | zero sign' => cases sign <;> cases hclass
      | @finite sign' m' e' hm' hv =>
        cases sign <;> cases sign' <;> dsimp only [Series.rank] at hclass hlt
        · rw [number_finite_negative, number_finite_negative, neg_lt_neg_iff]
          exact hv.mul_lt hu (by omega)
        · cases hclass
        · cases hclass
        · rw [number_finite_positive, number_finite_positive]
          exact hu.mul_lt hv (by omega)

theorem compareRanks_eq_compare (hu : IsCanonical u) (hv : IsCanonical v) :
    Series.compareRanks (Series.rank u) (Series.rank v) = compare (number u) (number v) := by
  cases h : Series.compareRanks (Series.rank u) (Series.rank v) with
  | lt => exact (compare_lt_iff_lt.2 (number_lt_of_rank hu hv h)).symm
  | eq =>
    rw [number_eq_of_rank u, number_eq_of_rank v, compareRanks_eq_eq_iff.1 h,
      compare_eq_iff_eq.2 rfl]
  | gt =>
    have hlt := number_lt_of_rank hv hu (Std.OrientedCmp.lt_of_gt h)
    exact (compare_gt_iff_gt.2 hlt).symm

theorem isNaN_eq_false (h : x.isFinite = true) : x.isNaN = false := by
  change x.toModel.unpack.isFinite = true at h
  change x.toModel.unpack.isNaN = false
  generalize x.toModel.unpack = u at h ⊢
  cases u with
  | notANumber => cases h
  | infinity | zero | finite => rfl

theorem comparePoints_eq_compare (hx : x.isFinite = true) (hy : y.isFinite = true) :
    Series.comparePoints x y = compare (value x) (value y) :=
  compareRanks_eq_compare (isCanonical_unpack hx) (isCanonical_unpack hy)

theorem le_iff_value_le (hx : x.isFinite = true) (hy : y.isFinite = true) :
    x ≤ y ↔ value x ≤ value y := by
  rw [Series.le_iff_comparePoints (isNaN_eq_false hx) (isNaN_eq_false hy),
    comparePoints_eq_compare hx hy, ← Ordering.ne_gt_iff_isLE]
  exact compare_le_iff_le

end IndicatorFormula.Point
