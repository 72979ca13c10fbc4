import IndicatorFormula.Proofs.Point.Value
import Mathlib.Data.Nat.Factorization.Basic

/-!
Arithmetic without rounding. Where the exact sum or quotient of finite points is itself a point
(`IsRepresentable`), adding (`value_add`) or dividing (`value_div`) gives that point.
-/

namespace IndicatorFormula.Point

open Float.Model (Format UnpackedFloat totalExponent)
open Float.Model.UnpackedFloat

variable {u v w : UnpackedFloat} {x y : Float} {m m' : Nat} {e e' : Int}

/-! ## Scaling -/

theorem mul_two_zpow_shiftLeft (h : e' ≤ e) (m : Nat) :
    ((m <<< (e - e').toNat : Nat) : ℚ) * 2 ^ e' = m * 2 ^ e := by
  have hexponent : (2 : ℚ) ^ e = 2 ^ (e - e').toNat * 2 ^ e' := by
    rw [← zpow_natCast, ← zpow_add₀ two_ne_zero]
    congr 1
    omega
  rw [Nat.shiftLeft_eq, Nat.cast_mul, Nat.cast_pow, Nat.cast_ofNat, hexponent, mul_assoc]

theorem eq_mul_two_pow (h : e' ≤ e) (hvalue : (m' : ℚ) * 2 ^ e' = m * 2 ^ e) :
    m' = m * 2 ^ (e - e').toNat := by
  rw [← mul_two_zpow_shiftLeft h, Nat.shiftLeft_eq] at hvalue
  exact_mod_cast mul_right_cancel₀ (zpow_ne_zero e' two_ne_zero) hvalue

theorem log2_mul_two_pow (hm : 0 < m) (k : Nat) : (m * 2 ^ k).log2 = m.log2 + k := by
  have hlow := Nat.log2_self_le hm.ne'
  have hhigh : m < 2 ^ (m.log2 + 1) := Nat.lt_log2_self
  have hpos : 0 < 2 ^ k := Nat.two_pow_pos k
  rw [Nat.log2_eq_iff (Nat.mul_pos hm hpos).ne', Nat.add_right_comm, Nat.pow_add, Nat.pow_add]
  exact ⟨Nat.mul_le_mul_right _ hlow, Nat.mul_lt_mul_of_pos_right hhigh hpos⟩

theorem totalExponent_mul_two_pow (hm : 0 < m) (e : Int) (k : Nat) :
    totalExponent (m * 2 ^ k) (e - k) = totalExponent m e := by
  unfold totalExponent
  rw [log2_mul_two_pow hm]
  omega

theorem targetExponent_eq (total : Int) :
    Format.binary64.targetExponent total = max (total - 53) (-1074) :=
  rfl

theorem IsScaled.targetExponent (h : IsScaled m e) (hm : 0 < m) :
    Format.binary64.targetExponent (totalExponent m e) = e := by
  have hlog := log2_lt_of_isScaled h hm
  have hleast := h.least
  rw [targetExponent_eq, totalExponent]
  rcases h.full with hfull | rfl
  · have hlog' := le_log2 hm hfull
    omega
  · omega

/-! ## Rounding -/

theorem shiftRight_mul_two_pow (m k : Nat) :
    (⟨m * 2 ^ k, false, false⟩ : ExtendedMantissa) >>> k = ⟨m, false, false⟩ := by
  change k.repeat ExtendedMantissa.shiftRightOne _ = _
  induction k generalizing m with
  | zero => rw [Nat.pow_zero, Nat.mul_one]; rfl
  | succ k ih =>
    rw [Nat.pow_succ', ← Nat.mul_assoc, Nat.repeat, ih, ExtendedMantissa.shiftRightOne]
    simp only [Nat.mul_div_cancel _ Nat.two_pos, Nat.mul_mod_left, bne_self_eq_false, Bool.or_false]

theorem IsScaled.shiftToTargetExponent (h : IsScaled m e) (hm : 0 < m) (k : Nat) :
    shiftToTargetExponent .binary64 (m * 2 ^ k) (e - k) .exact = (⟨m, false, false⟩, e) := by
  have hshift : (e - (e - k)).toNat = k := by omega
  have hexponent : e - k + k = e := by omega
  rw [UnpackedFloat.shiftToTargetExponent, totalExponent_mul_two_pow hm, h.targetExponent hm,
    UnpackedFloat.shiftToExponent]
  simp only [hshift, hexponent, ExtendedMantissa.ofMantissaAndAccuracy, shiftRight_mul_two_pow]

theorem IsScaled.shiftToTargetExponent_self (h : IsScaled m e) (hm : 0 < m) :
    UnpackedFloat.shiftToTargetExponent .binary64 m e .exact = (⟨m, false, false⟩, e) := by
  simpa only [Nat.pow_zero, Nat.mul_one, Nat.cast_zero, sub_zero] using
    h.shiftToTargetExponent hm 0

theorem IsScaled.roundWithAccuracy (h : IsScaled m e) (hm : 0 < m) (sign : Sign) (k : Nat) :
    roundWithAccuracy .binary64 sign (m * 2 ^ k) (e - k) .exact = .finite sign m e hm := by
  have hrounded : ExtendedMantissa.roundedMantissa ⟨m, false, false⟩ = m := rfl
  rw [UnpackedFloat.roundWithAccuracy, h.shiftToTargetExponent hm k]
  dsimp only
  rw [hrounded, h.shiftToTargetExponent_self hm, dif_neg hm.ne']

theorem pos_of_value_eq (hm : 0 < m) (hvalue : (m' : ℚ) * 2 ^ e' = m * 2 ^ e) : 0 < m' := by
  have hpos : (0 : ℚ) < m' * 2 ^ e' := by
    rw [hvalue]
    positivity
  exact_mod_cast pos_of_mul_pos_left hpos (by positivity)

theorem totalExponent_eq_of_le (hle : e' ≤ e) (hm : 0 < m)
    (hvalue : (m' : ℚ) * 2 ^ e' = m * 2 ^ e) : totalExponent m' e' = totalExponent m e := by
  have hexponent : e' = e - (e - e').toNat := by omega
  rw [eq_mul_two_pow hle hvalue]
  nth_rewrite 2 [hexponent]
  exact totalExponent_mul_two_pow hm e _

theorem totalExponent_eq_of_value_eq (hm : 0 < m) (hvalue : (m' : ℚ) * 2 ^ e' = m * 2 ^ e) :
    totalExponent m' e' = totalExponent m e := by
  rcases le_total e' e with hle | hle
  · exact totalExponent_eq_of_le hle hm hvalue
  · exact (totalExponent_eq_of_le hle (pos_of_value_eq hm hvalue) hvalue.symm).symm

/-- A number of scaled form is rounded to itself, however it is written. -/
theorem IsScaled.round (h : IsScaled m e) (hm : 0 < m) (sign : Sign)
    (hvalue : (m' : ℚ) * 2 ^ e' = m * 2 ^ e) :
    round .binary64 sign m' e' = .finite sign m e hm := by
  unfold UnpackedFloat.round decreaseExponent
  rw [totalExponent_eq_of_value_eq hm hvalue, h.targetExponent hm]
  dsimp only
  rcases le_total e' e with hle | hle
  · have hshift : (e' - e).toNat = 0 := by omega
    have hexponent : e' - (0 : Nat) = e - (e - e').toNat := by omega
    rw [hshift, hexponent, Nat.shiftLeft_zero, eq_mul_two_pow hle hvalue]
    exact h.roundWithAccuracy hm sign _
  · have hexponent : e' - (e' - e).toNat = e - (0 : Nat) := by omega
    have hmantissa : m' <<< (e' - e).toNat = m * 2 ^ 0 := by
      rw [Nat.shiftLeft_eq, ← eq_mul_two_pow hle hvalue.symm, Nat.pow_zero, Nat.mul_one]
    rw [hexponent, hmantissa]
    exact h.roundWithAccuracy hm sign 0

/-! ## Sums -/

/-- The form stands for the number and is one that a point unpacks to. -/
def Denotes (u : UnpackedFloat) (q : ℚ) : Prop :=
  IsCanonical u ∧ number u = q

theorem cast_apply (sign : Sign) (k : Nat) : (sign.apply k : ℚ) = sign.apply 1 * k := by
  cases sign with
  | positive => simp only [Sign.apply, Int.cast_natCast, Int.cast_one, one_mul]
  | negative => simp only [Sign.apply, Int.cast_neg, Int.cast_natCast, Int.cast_one, neg_one_mul]

theorem number_finite (sign : Sign) (hm : 0 < m) :
    number (.finite sign m e hm) = sign.apply 1 * (m * 2 ^ e) := by
  change (sign.apply m : ℚ) * 2 ^ e = _
  rw [cast_apply, mul_assoc]

theorem number_finite_ne_zero (sign : Sign) (hm : 0 < m) : number (.finite sign m e hm) ≠ 0 := by
  have hpos : (0 : ℚ) < m * 2 ^ e := by positivity
  cases sign with
  | positive => rw [number_finite_positive]; exact hpos.ne'
  | negative => rw [number_finite_negative]; exact (neg_lt_zero.2 hpos).ne

theorem denotes_normalize (hw : IsCanonical w) {z : Int} (hvalue : number w = z * 2 ^ e)
    (zeroSign : Sign) : Denotes (UnpackedFloat.normalize .binary64 z e zeroSign) (number w) := by
  have hpow : (0 : ℚ) < 2 ^ e := by positivity
  cases hw with
  | zero sign =>
    have hz : (z : ℚ) = 0 := (mul_eq_zero.1 hvalue.symm).resolve_right hpow.ne'
    obtain rfl : z = 0 := by exact_mod_cast hz
    exact ⟨.zero zeroSign, rfl⟩
  | @finite sign m e' hm h =>
    have hpos : (0 : ℚ) < m * 2 ^ e' := by positivity
    -- normalizing goes by the sign of the sum, which is that of its number
    cases sign with
    | positive =>
      rw [number_finite_positive] at hvalue
      have hz : (0 : ℚ) < z := pos_of_mul_pos_left (hvalue ▸ hpos) hpow.le
      have hz : 0 < z := by exact_mod_cast hz
      have hcast : ((z.toNat : Nat) : ℚ) = z := by exact_mod_cast Int.toNat_of_nonneg hz.le
      rw [UnpackedFloat.normalize, compare_gt_iff_gt.2 hz]
      dsimp only
      rw [h.round hm .positive (by rw [hcast, hvalue])]
      exact ⟨.finite .positive hm h, rfl⟩
    | negative =>
      rw [number_finite_negative] at hvalue
      have hz : (0 : ℚ) < -z := pos_of_mul_pos_left (by linarith) hpow.le
      have hz : z < 0 := by
        rw [neg_pos] at hz
        exact_mod_cast hz
      have hcast : (((-z).toNat : Nat) : ℚ) = -z := by
        exact_mod_cast Int.toNat_of_nonneg (Int.neg_nonneg_of_nonpos hz.le)
      rw [UnpackedFloat.normalize, compare_lt_iff_lt.2 hz]
      dsimp only
      rw [h.round hm .negative (by rw [hcast]; linarith)]
      exact ⟨.finite .negative hm h, rfl⟩

theorem denotes_add (hu : IsCanonical u) (hv : IsCanonical v) (hw : IsCanonical w)
    (hvalue : number w = number u + number v) : Denotes (add .binary64 u v) (number w) := by
  cases hu with
  | zero sign =>
    cases hv with
    | zero sign' =>
      rw [hvalue]
      cases sign <;> cases sign' <;> exact ⟨.zero _, (add_zero 0).symm⟩
    | finite sign' hm' hv => exact ⟨.finite sign' hm' hv, by rw [hvalue]; exact (zero_add _).symm⟩
  | finite sign hm hu =>
    cases hv with
    | zero sign' => exact ⟨.finite sign hm hu, by rw [hvalue]; exact (add_zero _).symm⟩
    | finite sign' hm' hv =>
      refine denotes_normalize hw ?_ .positive
      rw [hvalue, number_finite, number_finite, Int.cast_add, cast_apply, cast_apply, add_mul,
        mul_assoc, mul_assoc, mul_two_zpow_shiftLeft (min_le_left ..),
        mul_two_zpow_shiftLeft (min_le_right ..)]

/-! ## Quotients -/

theorem log2_mul_le {m₂ : Nat} (hm : 0 < m) (hm₂ : 0 < m₂) :
    (m * m₂).log2 ≤ m.log2 + m₂.log2 + 1 := by
  have hlt : m * m₂ < 2 ^ (m.log2 + 1) * 2 ^ (m₂.log2 + 1) :=
    Nat.mul_lt_mul'' Nat.lt_log2_self Nat.lt_log2_self
  rw [← Nat.pow_add, ← Nat.log2_lt (Nat.mul_pos hm hm₂).ne'] at hlt
  omega

section Quotient

variable {m₁ m₂ : Nat} {e₁ e₂ : Int}

/-- Division scales the dividend far enough for every digit of an exact quotient. -/
theorem divCore_eq (h : IsScaled m e) (hm : 0 < m) (hm₂ : 0 < m₂)
    (hvalue : (m₁ : ℚ) * 2 ^ e₁ = (m * m₂ : Nat) * 2 ^ (e + e₂)) :
    ∃ k : Nat, divCore .binary64 m₁ e₁ m₂ e₂ = (m * 2 ^ k, e - k, .exact) := by
  have htotal := totalExponent_eq_of_value_eq (Nat.mul_pos hm hm₂) hvalue
  have hlog := log2_mul_le hm hm₂
  have htarget := h.targetExponent hm
  unfold divCore
  dsimp only
  generalize hscale : min (e₁ - e₂)
    (Format.binary64.targetExponent (totalExponent m₁ e₁ - totalExponent m₂ e₂)) = scale
  -- the scale is low enough for every digit of the quotient
  have hscale' : scale ≤ e := by
    rw [targetExponent_eq] at htarget hscale
    unfold totalExponent at *
    omega
  have hshift : scale ≤ e₁ - e₂ := hscale ▸ min_le_left ..
  have hdividend : m₁ <<< (e₁ - e₂ - scale).toNat = m * m₂ * 2 ^ (e - scale).toNat := by
    refine eq_mul_two_pow hscale' ?_
    rw [mul_two_zpow_shiftLeft hshift, zpow_sub₀ two_ne_zero, ← mul_div_assoc, hvalue,
      zpow_add₀ two_ne_zero, ← mul_assoc, mul_div_cancel_right₀ _ (zpow_ne_zero e₂ two_ne_zero)]
  have hexponent : scale = e - (e - scale).toNat := by omega
  refine ⟨(e - scale).toNat, ?_⟩
  rw [hdividend, Nat.mul_right_comm, Nat.mul_div_cancel _ hm₂, Nat.mul_mod_left]
  exact congrArg (fun f => (_, f, _)) hexponent

theorem div_finite (sign₁ sign₂ : Sign) (hm₁ : 0 < m₁) (hm₂ : 0 < m₂) :
    div .binary64 (.finite sign₁ m₁ e₁ hm₁) (.finite sign₂ m₂ e₂ hm₂) =
      roundWithAccuracy .binary64 (sign₁ / sign₂) (divCore .binary64 m₁ e₁ m₂ e₂).1
        (divCore .binary64 m₁ e₁ m₂ e₂).2.1 (divCore .binary64 m₁ e₁ m₂ e₂).2.2 :=
  rfl

end Quotient

theorem sign_eq_div {sign sign₁ sign₂ : Sign} {p q : ℚ} (hp : 0 < p) (hq : 0 < q)
    (hvalue : sign.apply 1 * sign₂.apply 1 * p = sign₁.apply 1 * q) :
    sign = sign₁ / sign₂ ∧ p = q := by
  cases sign <;> cases sign₁ <;> cases sign₂ <;>
    simp only [Sign.apply, Int.cast_neg, Int.cast_one] at hvalue <;>
    first
    | exact ⟨rfl, by linarith⟩
    | exact absurd hvalue (by linarith)

theorem denotes_div (hu : IsCanonical u) (hv : IsCanonical v) (hne : number v ≠ 0)
    (hw : IsCanonical w) (hvalue : number w * number v = number u) :
    Denotes (div .binary64 u v) (number w) := by
  cases hv with
  | zero sign₂ => exact absurd rfl hne
  | @finite sign₂ m₂ e₂ hm₂ hv =>
    cases hu with
    | zero sign₁ =>
      rw [(mul_eq_zero.1 hvalue).resolve_right hne]
      exact ⟨.zero _, rfl⟩
    | @finite sign₁ m₁ e₁ hm₁ hu =>
      have hpos₁ : (0 : ℚ) < m₁ * 2 ^ e₁ := by positivity
      have hpos₂ : (0 : ℚ) < m₂ * 2 ^ e₂ := by positivity
      cases hw with
      | zero sign => exact absurd (hvalue.symm.trans (zero_mul _)) (number_finite_ne_zero sign₁ hm₁)
      | @finite sign m e hm hw =>
        have hpos : (0 : ℚ) < m * 2 ^ e := by positivity
        rw [number_finite, number_finite, number_finite, mul_mul_mul_comm] at hvalue
        obtain ⟨rfl, hquotient⟩ := sign_eq_div (mul_pos hpos hpos₂) hpos₁ hvalue
        rw [mul_mul_mul_comm, ← Nat.cast_mul, ← zpow_add₀ two_ne_zero] at hquotient
        obtain ⟨k, hcore⟩ := divCore_eq hw hm hm₂ hquotient.symm
        have hdiv : div .binary64 (.finite sign₁ m₁ e₁ hm₁) (.finite sign₂ m₂ e₂ hm₂) =
            .finite (sign₁ / sign₂) m e hm := by
          rw [div_finite, hcore]
          exact hw.roundWithAccuracy hm _ k
        rw [hdiv]
        exact ⟨.finite _ hm hw, rfl⟩

/-! ## Points -/

/-- The number is one of the finite points. -/
def IsRepresentable (q : ℚ) : Prop :=
  ∃ x : Float, x.isFinite = true ∧ value x = q

theorem isFinite_of_isCanonical (h : IsCanonical u) : u.isFinite = true := by
  cases h <;> rfl

variable {q : ℚ} {n : Nat}

theorem Denotes.value (h : Denotes u q) (hx : x.toModel = .pack u) :
    x.isFinite = true ∧ value x = q := by
  have hunpack : x.toModel.unpack = u := by rw [hx, unpack_pack h.1]
  constructor
  · change x.toModel.unpack.isFinite = true
    rw [hunpack]
    exact isFinite_of_isCanonical h.1
  · rw [Point.value, hunpack]
    exact h.2

theorem isRepresentable_iff : IsRepresentable q ↔ ∃ u, Denotes u q := by
  constructor
  · rintro ⟨x, hx, rfl⟩
    exact ⟨_, isCanonical_unpack hx, rfl⟩
  · rintro ⟨u, hu⟩
    exact ⟨⟨.pack u⟩, hu.value rfl⟩

/-- A sum that is a point is not rounded. -/
theorem value_add (hx : x.isFinite = true) (hy : y.isFinite = true)
    (h : IsRepresentable (value x + value y)) :
    (x + y).isFinite = true ∧ value (x + y) = value x + value y := by
  obtain ⟨w, hw, hvalue⟩ := isRepresentable_iff.1 h
  have hsum := denotes_add (isCanonical_unpack hx) (isCanonical_unpack hy) hw hvalue
  rw [hvalue] at hsum
  exact hsum.value rfl

/-- A quotient that is a point is not rounded. -/
theorem value_div (hx : x.isFinite = true) (hy : y.isFinite = true) (hne : value y ≠ 0)
    (h : IsRepresentable (value x / value y)) :
    (x / y).isFinite = true ∧ value (x / y) = value x / value y := by
  obtain ⟨w, hw, hvalue⟩ := isRepresentable_iff.1 h
  have hquotient := denotes_div (isCanonical_unpack hx) (isCanonical_unpack hy) hne hw
    ((eq_div_iff hne).1 hvalue)
  rw [hvalue] at hquotient
  exact hquotient.value rfl

/-! ## Counts -/

theorem mantissa_shiftRight (em : ExtendedMantissa) (k : Nat) :
    (em >>> k).mantissa = em.mantissa / 2 ^ k := by
  change (k.repeat ExtendedMantissa.shiftRightOne em).mantissa = _
  induction k with
  | zero => rw [Nat.pow_zero, Nat.div_one]; rfl
  | succ k ih =>
    rw [Nat.repeat, ExtendedMantissa.shiftRightOne, ih, Nat.div_div_eq_div_mul, Nat.pow_succ]

theorem roundedMantissa_bounds (em : ExtendedMantissa) :
    em.mantissa ≤ em.roundedMantissa ∧ em.roundedMantissa ≤ em.mantissa + 1 := by
  obtain ⟨m, round, sticky⟩ := em
  have hparity := Nat.mod_lt m Nat.two_pos
  cases round <;> cases sticky <;>
    simp only [ExtendedMantissa.roundedMantissa, ExtendedMantissa.accuracy,
      Accuracy.roundToNearestEven] <;>
    omega

/-- Rounding up carries into one more digit at most. -/
theorem exists_shiftToTargetExponent_eq (hm : 2 ^ 52 ≤ m) (hm' : m ≤ 2 ^ 53) (hleast : -1074 ≤ e)
    (hgreatest : e < 971) :
    ∃ r f, shiftToTargetExponent .binary64 m e .exact = (⟨r, false, false⟩, f) ∧ 0 < r ∧
      IsScaled r f := by
  by_cases hcarry : m = 2 ^ 53
  · have h : IsScaled (2 ^ 52) (e + 1) := ⟨by omega, by omega, by omega, .inl le_rfl⟩
    have hexponent : e + 1 - (1 : Nat) = e := by omega
    have hshift := h.shiftToTargetExponent (Nat.two_pow_pos 52) 1
    rw [hexponent, ← Nat.pow_add, ← hcarry] at hshift
    exact ⟨_, _, hshift, Nat.two_pow_pos 52, h⟩
  · have h : IsScaled m e := ⟨by omega, by omega, by omega, .inl hm⟩
    have hpos : 0 < m := by omega
    exact ⟨m, e, h.shiftToTargetExponent_self hpos, hpos, h⟩

theorem div_two_pow_bounds {k : Nat} (hpos : 0 < m) (hk : m.log2 = 52 + k) :
    2 ^ 52 ≤ m / 2 ^ k ∧ m / 2 ^ k < 2 ^ 53 := by
  have hbits : 53 + k = m.log2 + 1 := by omega
  rw [Nat.le_div_iff_mul_le (Nat.two_pow_pos k), Nat.div_lt_iff_lt_mul (Nat.two_pow_pos k),
    ← Nat.pow_add, ← Nat.pow_add, ← hk, hbits]
  exact ⟨Nat.log2_self_le hpos.ne', Nat.lt_log2_self⟩

/-- No number of at least 53 bits is rounded to zero, nor out of range if it is far from its end. -/
theorem exists_roundWithAccuracy_eq (hm : 2 ^ 52 ≤ m) (hleast : -1074 ≤ e)
    (hgreatest : e + m.log2 < 1022) (sign : Sign) :
    ∃ r f hr, roundWithAccuracy .binary64 sign m e .exact = .finite sign r f hr ∧
      IsScaled r f := by
  have hpos : 0 < m := by omega
  obtain ⟨k, hk⟩ := Nat.exists_eq_add_of_le (le_log2 hpos hm)
  have hfirst : shiftToTargetExponent .binary64 m e .exact =
      ((⟨m, false, false⟩ : ExtendedMantissa) >>> k, e + k) := by
    have hshift : (Format.binary64.targetExponent (totalExponent m e) - e).toNat = k := by
      rw [targetExponent_eq, totalExponent]
      omega
    rw [UnpackedFloat.shiftToTargetExponent, UnpackedFloat.shiftToExponent, hshift]
    rfl
  obtain ⟨hlow, hhigh⟩ := div_two_pow_bounds hpos hk
  have hrounded := roundedMantissa_bounds ((⟨m, false, false⟩ : ExtendedMantissa) >>> k)
  rw [mantissa_shiftRight] at hrounded
  obtain ⟨r, f, hsecond, hr, h⟩ := exists_shiftToTargetExponent_eq
    (hlow.trans hrounded.1) (hrounded.2.trans hhigh) (e := e + k) (by omega) (by omega)
  refine ⟨r, f, hr, ?_, h⟩
  rw [UnpackedFloat.roundWithAccuracy, hfirst]
  dsimp only
  rw [hsecond, dif_neg hr.ne']

theorem mul_one_of_isCanonical (hu : IsCanonical u) :
    mul .binary64 u (Float.Model.ofBits 0x3FF0000000000000).unpack = u := by
  change mul .binary64 u (.finite .positive (2 ^ 52) (-52) (Nat.two_pow_pos 52)) = u
  cases hu with
  | zero sign => cases sign <;> rfl
  | @finite sign m e hm h =>
    have hmul : mul .binary64 (.finite sign m e hm)
        (.finite .positive (2 ^ 52) (-52) (Nat.two_pow_pos 52)) =
          roundWithAccuracy .binary64 (sign * .positive) (m * 2 ^ 52) (e - (52 : Nat)) .exact := rfl
    have hsign : sign * .positive = sign := by cases sign <;> rfl
    rw [hmul, h.roundWithAccuracy hm, hsign]

theorem isRepresentable_natCast (hm : m < 2 ^ 53) {k : Nat} (hk : k ≤ 971) :
    IsRepresentable ((m * 2 ^ k : Nat) : ℚ) := by
  rw [isRepresentable_iff]
  rcases Nat.eq_zero_or_pos m with rfl | hpos
  · exact ⟨.zero .positive, .zero _, by rw [Nat.zero_mul]; rfl⟩
  · have hlog := (Nat.log2_lt hpos.ne').2 hm
    have hpos' : 0 < m * 2 ^ (52 - m.log2) := Nat.mul_pos hpos (Nat.two_pow_pos _)
    have hbits : (m * 2 ^ (52 - m.log2)).log2 = 52 := by
      rw [log2_mul_two_pow hpos]
      omega
    obtain ⟨hlow, hhigh⟩ := (Nat.log2_eq_iff hpos'.ne').1 hbits
    refine ⟨.finite .positive (m * 2 ^ (52 - m.log2)) (k - (52 - m.log2 : Nat)) hpos',
      .finite _ _ ⟨hhigh, by omega, by omega, .inl hlow⟩, ?_⟩
    rw [number_finite_positive, Nat.cast_mul, Nat.cast_mul, mul_assoc, zpow_sub₀ two_ne_zero,
      zpow_natCast, zpow_natCast, Nat.cast_pow, Nat.cast_pow, Nat.cast_ofNat,
      mul_div_cancel₀ _ (pow_ne_zero _ two_ne_zero)]

theorem ofNat_of_lt (h : n < 2 ^ 53) :
    Float.ofNat n = n.toUInt64.toFloat * Float.ofBits 0x3FF0000000000000 := by
  change Float.ofScientific n false 0 = _
  rw [Float.ofScientific, dif_pos ⟨h, by decide⟩]
  rfl

theorem toModel_ofNat_of_le (h : 2 ^ 53 ≤ n) :
    (Float.ofNat n).toModel =
      .pack (roundWithAccuracy .binary64 .positive (n * 2 ^ 53) (-53) .exact) := by
  change (Float.ofScientific n false 0).toModel = _
  rw [Float.ofScientific, dif_neg (by omega)]
  change Float.Model.pack (ofScientific .binary64 n 0) = _
  rw [ofScientific, dif_neg (by omega), if_neg (by decide),
    if_neg (not_lt.2 (neg_nonpos.2 (by positivity))), if_pos (by decide)]
  change Float.Model.pack
    (roundWithAccuracy .binary64 .positive (n <<< 53 * 1) (-53 + 0) .exact) = _
  rw [Nat.shiftLeft_eq, Nat.mul_one, Int.add_zero]

theorem value_ofNat_of_lt (h : n < 2 ^ 53) :
    (Float.ofNat n).isFinite = true ∧ value (Float.ofNat n) = n := by
  have hrepresentable := isRepresentable_natCast h (Nat.zero_le 971)
  rw [Nat.pow_zero, Nat.mul_one] at hrepresentable
  obtain ⟨w, hw, hvalue⟩ := isRepresentable_iff.1 hrepresentable
  have hword : n.toUInt64.toNat = n := Nat.mod_eq_of_lt (by omega)
  have hcount : Denotes (ofUInt64 .binary64 n.toUInt64) n := by
    have hnormalize : number w = ((n.toUInt64.toNat : Nat) : Int) * 2 ^ (0 : Int) := by
      rw [hvalue, hword, zpow_zero, mul_one, Int.cast_natCast]
    exact hvalue ▸ denotes_normalize hw hnormalize .positive
  rw [ofNat_of_lt h]
  refine hcount.value ?_
  change Float.Model.pack (mul .binary64 (Float.Model.pack (ofUInt64 .binary64 n.toUInt64)).unpack
    (Float.Model.ofBits 0x3FF0000000000000).unpack) = _
  rw [unpack_pack hcount.1, mul_one_of_isCanonical hcount.1]

/-- A larger count is rounded, but no count is rounded to zero or out of range. -/
theorem value_ofNat_pos (hpos : 0 < n) (h : n < 2 ^ 63) :
    (Float.ofNat n).isFinite = true ∧ 0 < value (Float.ofNat n) := by
  rcases Nat.lt_or_ge n (2 ^ 53) with hlt | hge
  · obtain ⟨hfinite, hvalue⟩ := value_ofNat_of_lt hlt
    exact ⟨hfinite, by rw [hvalue]; exact_mod_cast hpos⟩
  · have hlog := (Nat.log2_lt hpos.ne').2 h
    have hbits : (n * 2 ^ 53).log2 = n.log2 + 53 := log2_mul_two_pow hpos 53
    obtain ⟨r, f, hr, hround, hscaled⟩ := exists_roundWithAccuracy_eq (m := n * 2 ^ 53) (e := -53)
      (by omega) (by omega) (by omega) .positive
    have hdenotes : Denotes (.finite .positive r f hr) _ := ⟨.finite _ hr hscaled, rfl⟩
    obtain ⟨hfinite, hvalue⟩ := hdenotes.value (hround ▸ toModel_ofNat_of_le hge)
    refine ⟨hfinite, ?_⟩
    rw [hvalue, number_finite_positive]
    positivity

theorem exists_isScaled (hne : q ≠ 0) (h : IsRepresentable q) :
    ∃ m e, 0 < m ∧ IsScaled m e ∧ |q| = m * 2 ^ e := by
  obtain ⟨w, hw, rfl⟩ := isRepresentable_iff.1 h
  cases hw with
  | zero sign => exact absurd rfl hne
  | @finite sign m e hm hscaled =>
    have hpos : (0 : ℚ) < m * 2 ^ e := by positivity
    refine ⟨m, e, hm, hscaled, ?_⟩
    cases sign with
    | positive => rw [number_finite_positive, abs_of_pos hpos]
    | negative => rw [number_finite_negative, abs_neg, abs_of_pos hpos]

/-- A number of more than 53 bits is a multiple of its significand. -/
theorem IsScaled.exponent_nonneg (h : IsScaled m e) (hlarge : (2 : ℚ) ^ 53 ≤ m * 2 ^ e) :
    0 ≤ e := by
  by_contra hneg
  have hone : (2 : ℚ) ^ e ≤ 1 := zpow_le_one_of_nonpos₀ one_le_two (by omega)
  have hle : (m : ℚ) * 2 ^ e ≤ m := mul_le_of_le_one_right (Nat.cast_nonneg m) hone
  have hlt : (m : ℚ) < 2 ^ 53 := by exact_mod_cast h.lt
  linarith

theorem value_ofNat (h : IsRepresentable n) :
    (Float.ofNat n).isFinite = true ∧ value (Float.ofNat n) = n := by
  rcases Nat.lt_or_ge n (2 ^ 53) with hlt | hge
  · exact value_ofNat_of_lt hlt
  · have hne : (n : ℚ) ≠ 0 := by exact_mod_cast (by omega : n ≠ 0)
    obtain ⟨m, e, hm, hscaled, hvalue⟩ := exists_isScaled hne h
    rw [Nat.abs_cast] at hvalue
    have hlarge : (2 : ℚ) ^ 53 ≤ m * 2 ^ e := by
      rw [← hvalue]
      exact_mod_cast hge
    obtain ⟨k, rfl⟩ := Int.eq_ofNat_of_zero_le (hscaled.exponent_nonneg hlarge)
    have hcount : n = m * 2 ^ k := by
      rw [zpow_natCast] at hvalue
      exact_mod_cast hvalue
    have hround := hscaled.roundWithAccuracy hm .positive (k + 53)
    have hshift : (k : Int) - (k + 53 : Nat) = -53 := by omega
    have hdenotes : Denotes (.finite .positive m k hm) n :=
      ⟨.finite _ hm hscaled, by rw [number_finite_positive, hvalue]⟩
    refine hdenotes.value ?_
    rw [toModel_ofNat_of_le hge, hcount, Nat.mul_assoc, ← Nat.pow_add, ← hround, hshift]

/-- The odd part of a factor divides the significand of the product. -/
theorem odd_le_of_value_eq {o j : Nat} (hodd : Odd o) (hm' : 0 < m')
    (hvalue : ((2 ^ j * o * m : Nat) : ℚ) * 2 ^ e = m' * 2 ^ e') : o ≤ m' := by
  have hdvd : o ∣ 2 ^ j * o * m := (Nat.dvd_mul_left o _).mul_right m
  refine Nat.le_of_dvd hm' ?_
  rcases le_total e e' with hle | hle
  · have hcoprime : o.Coprime (2 ^ (e' - e).toNat) := hodd.coprime_two_right.pow_right _
    rw [eq_mul_two_pow hle hvalue] at hdvd
    exact hcoprime.dvd_of_dvd_mul_right hdvd
  · rw [eq_mul_two_pow hle hvalue.symm]
    exact hdvd.mul_right _

/-- Only a count that is a point itself takes one point to another. -/
theorem isRepresentable_of_mul (hpos : 0 < n) (hn : n < 2 ^ 63) (hne : q ≠ 0)
    (hq : IsRepresentable q) (hproduct : IsRepresentable (n * q)) : IsRepresentable n := by
  obtain ⟨j, o, hodd, rfl⟩ := Nat.exists_eq_two_pow_mul_odd hpos.ne'
  have hcount : ((2 ^ j * o : Nat) : ℚ) ≠ 0 := by exact_mod_cast hpos.ne'
  obtain ⟨m, e, hm, -, hfactor⟩ := exists_isScaled hne hq
  obtain ⟨m', e', hm', hscaled', hproduct⟩ := exists_isScaled (mul_ne_zero hcount hne) hproduct
  rw [abs_mul, Nat.abs_cast, hfactor, ← mul_assoc, ← Nat.cast_mul] at hproduct
  have hle := odd_le_of_value_eq hodd hm' hproduct
  have hj : j < 63 := by
    rw [← Nat.pow_lt_pow_iff_right Nat.one_lt_two]
    exact (Nat.le_mul_of_pos_right _ hodd.pos).trans_lt hn
  rw [Nat.mul_comm]
  exact isRepresentable_natCast (hle.trans_lt hscaled'.lt) (by omega)

/-- Dividing by a count divides by the number itself, also where the count would be rounded: then no
quotient but zero is a point. -/
theorem value_div_ofNat (hpos : 0 < n) (hn : n < 2 ^ 63) (hx : x.isFinite = true)
    (h : IsRepresentable (value x / n)) :
    (x / Float.ofNat n).isFinite = true ∧ value (x / Float.ofNat n) = value x / n := by
  have hcount : (n : ℚ) ≠ 0 := by exact_mod_cast hpos.ne'
  obtain ⟨hfinite, hpositive⟩ := value_ofNat_pos hpos hn
  have hquotient : value x / value (Float.ofNat n) = value x / n := by
    by_cases hzero : value x = 0
    · rw [hzero, zero_div, zero_div]
    · have hproduct : n * (value x / n) = value x := mul_div_cancel₀ (value x) hcount
      have hrepresentable := isRepresentable_of_mul hpos hn (div_ne_zero hzero hcount) h
        ⟨x, hx, hproduct.symm⟩
      rw [(value_ofNat hrepresentable).2]
  rw [← hquotient] at h ⊢
  exact value_div hx hfinite hpositive.ne' h

end IndicatorFormula.Point
