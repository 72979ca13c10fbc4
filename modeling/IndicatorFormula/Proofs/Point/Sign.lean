import IndicatorFormula.Decimal
import IndicatorFormula.Proofs.Point.Value

/-!
Points without a sign. They are closed under rounding, and under the product and the quotient with a
positive number. A decimal comes from such operations on its digits, so the point nearest to it is
neither missing nor negative (`isNonneg_toFloat`).
-/

namespace IndicatorFormula.Point

open Float.Model (UnpackedFloat)
open Float.Model.UnpackedFloat

/-- Infinite, a zero or a number, of positive sign. -/
inductive IsUnsigned : UnpackedFloat → Prop
  | infinity : IsUnsigned (.infinity .positive)
  | zero : IsUnsigned (.zero .positive)
  | finite {m : Nat} {e : Int} (hm : 0 < m) : IsUnsigned (.finite .positive m e hm)

/-- The point is not missing, and its sign bit is not set. -/
structure IsNonneg (x : Float) : Prop where
  isNaN_eq : x.isNaN = false
  toBits_lt : x.toBits.toNat < 2 ^ 63

variable {u v : UnpackedFloat} {x : Float} {b : BitVec 64} {m : Nat} {e : Int}

/-! ## Packing -/

theorem unpack_cases (b : BitVec 64) :
    UnpackedFloat.unpack .binary64 b = .infinity (.ofBitVec (@unpackSign .binary64 b)) ∨
    UnpackedFloat.unpack .binary64 b = .notANumber ∧ @unpackExponent .binary64 b = -1#11 ∧
      @unpackMantissa .binary64 b ≠ 0#52 ∨
    UnpackedFloat.unpack .binary64 b = .zero (.ofBitVec (@unpackSign .binary64 b)) ∨
    ∃ m e hm, UnpackedFloat.unpack .binary64 b =
      .finite (.ofBitVec (@unpackSign .binary64 b)) m e hm := by
  by_cases hspecial : @unpackExponent .binary64 b = -1#11
  · by_cases hmantissa : @unpackMantissa .binary64 b = 0#52
    · exact .inl ((if_pos hspecial).trans (if_pos hmantissa))
    · exact .inr (.inl ⟨(if_pos hspecial).trans (if_neg hmantissa), hspecial, hmantissa⟩)
  · by_cases hexponent : @unpackExponent .binary64 b = 0#11
    · by_cases hmantissa : @unpackMantissa .binary64 b = 0#52
      · exact .inr (.inr (.inl (unpack_zero rfl hexponent hmantissa)))
      · have hm : 0 < (@unpackMantissa .binary64 b).toNat :=
          Nat.pos_of_ne_zero fun hzero => hmantissa (BitVec.eq_of_toNat_eq hzero)
        exact .inr (.inr (.inr ⟨_, _, hm, unpack_subnormal rfl hexponent rfl hm⟩))
    · exact .inr (.inr (.inr ⟨_, _, _, (if_neg hspecial).trans (if_neg hexponent)⟩))

theorem isUnsigned_unpack (hsign : Sign.ofBitVec (@unpackSign .binary64 b) = .positive)
    (hspecial : @unpackExponent .binary64 b = -1#11 → @unpackMantissa .binary64 b = 0#52) :
    IsUnsigned (UnpackedFloat.unpack .binary64 b) := by
  rcases unpack_cases b with h | ⟨-, hexponent, hmantissa⟩ | h | ⟨m, e, hm, h⟩
  · rw [h, hsign]
    exact .infinity
  · exact absurd (hspecial hexponent) hmantissa
  · rw [h, hsign]
    exact .zero
  · rw [h, hsign]
    exact .finite hm

theorem isUnsigned_unpack_packComponents {k : BitVec 11} {f : BitVec 52}
    (h : k = -1#11 → f = 0#52) :
    IsUnsigned (UnpackedFloat.unpack .binary64 (packComponents .binary64 .positive k f)) := by
  refine isUnsigned_unpack (ofBitVec_unpackSign ..) ?_
  rwa [unpackExponent_packComponents, unpackMantissa_packComponents]

theorem IsUnsigned.unpack_pack (h : IsUnsigned u) : IsUnsigned (Float.Model.pack u).unpack := by
  change IsUnsigned (UnpackedFloat.unpack .binary64 (UnpackedFloat.pack .binary64 u))
  cases h with
  | infinity => exact isUnsigned_unpack_packComponents fun _ => rfl
  | zero => exact isUnsigned_unpack_packComponents fun _ => rfl
  | finite hm =>
    unfold UnpackedFloat.pack
    dsimp only
    split
    · exact isUnsigned_unpack_packComponents fun _ => rfl
    · next hfinite =>
      split
      · refine isUnsigned_unpack_packComponents fun hk => ?_
        -- an exponent of all ones would have been too large for a finite point
        have hexponent := congrArg BitVec.toNat hk
        rw [BitVec.toNat_ofNat] at hexponent
        change _ % 2048 = 2047 at hexponent
        change ¬2048 ≤ _ + 1 at hfinite
        omega
      · exact isUnsigned_unpack_packComponents fun hk => absurd hk (by decide)

theorem sign_of_isUnsigned_unpack (h : IsUnsigned (UnpackedFloat.unpack .binary64 b)) :
    Sign.ofBitVec (@unpackSign .binary64 b) = .positive := by
  rcases unpack_cases b with hcase | ⟨hcase, -⟩ | hcase | ⟨m, e, hm, hcase⟩ <;>
    rw [hcase] at h <;>
    generalize Sign.ofBitVec (@unpackSign .binary64 b) = sign at h ⊢ <;>
    cases h <;> rfl

theorem toNat_unpackSign (b : BitVec 64) :
    (@unpackSign .binary64 b).toNat = b.toNat / 0x8000000000000000 % 2 := by
  change (b.extractLsb 63 63).toNat = _
  rw [BitVec.extractLsb_toNat, Nat.shiftRight_eq_div_pow]

theorem toNat_lt_of_sign (h : Sign.ofBitVec (@unpackSign .binary64 b) = .positive) :
    b.toNat < 2 ^ 63 := by
  have hbit : @unpackSign .binary64 b = 0#1 := by
    by_contra hne
    rw [Sign.ofBitVec, if_neg hne] at h
    cases h
  have hsign := congrArg BitVec.toNat hbit
  rw [toNat_unpackSign, BitVec.toNat_ofNat] at hsign
  have hbits := b.isLt
  omega

theorem isNonneg_of_isUnsigned (h : IsUnsigned x.toModel.unpack) : IsNonneg x := by
  refine ⟨?_, toNat_lt_of_sign (sign_of_isUnsigned_unpack h)⟩
  change x.toModel.unpack.isNaN = false
  generalize x.toModel.unpack = u at h ⊢
  cases h <;> rfl

/-! ## Operations -/

section Cases

variable {p : Prop} [Decidable p]

theorem isUnsigned_ite (hu : IsUnsigned u) (hv : IsUnsigned v) :
    IsUnsigned (if p then u else v) := by
  by_cases h : p
  · rwa [if_pos h]
  · rwa [if_neg h]

theorem isUnsigned_dite {f : p → UnpackedFloat} {g : ¬p → UnpackedFloat}
    (hf : ∀ h, IsUnsigned (f h)) (hg : ∀ h, IsUnsigned (g h)) :
    IsUnsigned (if h : p then f h else g h) := by
  by_cases h : p
  · rw [dif_pos h]
    exact hf h
  · rw [dif_neg h]
    exact hg h

end Cases

theorem isUnsigned_roundWithAccuracy (m : Nat) (e : Int) (accuracy : Accuracy) :
    IsUnsigned (roundWithAccuracy .binary64 .positive m e accuracy) :=
  isUnsigned_dite (fun _ => .zero) fun _ => .finite _

theorem IsUnsigned.mul (h : IsUnsigned u) (hm : 0 < m) :
    IsUnsigned (UnpackedFloat.mul .binary64 u (.finite .positive m e hm)) := by
  cases h with
  | infinity => exact .infinity
  | zero => exact .zero
  | finite hm' => exact isUnsigned_roundWithAccuracy ..

theorem IsUnsigned.div (h : IsUnsigned u) (hm : 0 < m) :
    IsUnsigned (UnpackedFloat.div .binary64 u (.finite .positive m e hm)) := by
  cases h with
  | infinity => exact .infinity
  | zero => exact .zero
  | finite hm' => exact isUnsigned_roundWithAccuracy ..

theorem isUnsigned_ofUInt64 (n : UInt64) : IsUnsigned (ofUInt64 .binary64 n) := by
  change IsUnsigned (UnpackedFloat.normalize .binary64 (n.toNat : Int) 0 .positive)
  unfold UnpackedFloat.normalize
  split
  · next hneg => exact absurd (compare_lt_iff_lt.1 hneg) (Int.natCast_nonneg _).not_gt
  · exact .zero
  · exact isUnsigned_roundWithAccuracy ..

theorem isUnsigned_ofScientific (m : Nat) (e : Int) : IsUnsigned (ofScientific .binary64 m e) := by
  refine isUnsigned_dite (fun _ => .zero) fun hm => ?_
  refine isUnsigned_ite .infinity (isUnsigned_ite .zero ?_)
  exact isUnsigned_ite ((IsUnsigned.finite _).mul _) ((IsUnsigned.finite _).div _)

/-! ## Decimals -/

theorem rank_powersOfTen (k : Fin Float.exactlyRepresentablePowersOfTen.size) :
    (Series.rank Float.exactlyRepresentablePowersOfTen[k].toModel.unpack).1 = 1 := by
  decide +kernel +revert

theorem exists_eq_finite_of_rank (h : (Series.rank u).1 = 1) :
    ∃ m e hm, u = .finite .positive m e hm := by
  rcases u with (_ | _) | _ | _ | ⟨_ | _, m, e, hm⟩
  case finite.positive => exact ⟨m, e, hm, rfl⟩
  all_goals cases h

theorem isUnsigned_unpack_ofScientific (m : Nat) (down : Bool) (k : Nat) :
    IsUnsigned (Float.ofScientific m down k).toModel.unpack := by
  unfold Float.ofScientific
  split
  · next hfast =>
    have hk : k < Float.exactlyRepresentablePowersOfTen.size := Nat.lt_succ_of_le hfast.2
    obtain ⟨m', e, hm, hpower⟩ := exists_eq_finite_of_rank (rank_powersOfTen ⟨k, hk⟩)
    have hdigits : IsUnsigned m.toUInt64.toFloat.toModel.unpack :=
      (isUnsigned_ofUInt64 _).unpack_pack
    dsimp only
    split
    · have hquotient := hdigits.div (e := e) hm
      rw [← hpower] at hquotient
      exact hquotient.unpack_pack
    · have hproduct := hdigits.mul (e := e) hm
      rw [← hpower] at hproduct
      exact hproduct.unpack_pack
  · exact (isUnsigned_ofScientific ..).unpack_pack

theorem isUnsigned_zero : IsUnsigned (0.0 : Float).toModel.unpack :=
  isUnsigned_unpack_ofScientific ..

theorem isUnsigned_infinity : IsUnsigned Decimal.infinity.toModel.unpack := by
  have hinfinity : Decimal.infinity.toModel.unpack = .infinity .positive := by
    with_unfolding_all rfl
  rw [hinfinity]
  exact .infinity

/-- The point nearest to a decimal is neither missing nor negative. -/
theorem isNonneg_toFloat (d : Decimal) : IsNonneg d.toFloat := by
  refine isNonneg_of_isUnsigned ?_
  unfold Decimal.toFloat
  split
  · exact isUnsigned_zero
  · split
    · exact isUnsigned_infinity
    · split
      · exact isUnsigned_zero
      · split <;> exact isUnsigned_unpack_ofScientific ..

end IndicatorFormula.Point
