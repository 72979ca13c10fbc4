import IndicatorFormula.Series.Window

/-!
The order of points. Points that are not missing compare as their ranks do, and ranks are ordered
linearly; the two zeros are level. The larger, or the smaller, of all points of a series taken in
turn is the first that no other exceeds (`foldl_larger`), or that exceeds no other
(`foldl_smaller`).
-/

namespace IndicatorFormula.Series

open Float.Model (UnpackedFloat)

/-! ## Ranks -/

/-- The class of its sign, the exponent and the significand, by which a number is compared. -/
def rank : UnpackedFloat → Int × Int × Int
  | .infinity .negative => (-2, 0, 0)
  | .finite .negative m e _ => (-1, -e, -m)
  | .zero _ | .notANumber => (0, 0, 0)
  | .finite .positive m e _ => (1, e, m)
  | .infinity .positive => (2, 0, 0)

def compareRanks : Int × Int × Int → Int × Int × Int → Ordering :=
  compareLex (compareOn Prod.fst)
    (compareLex (compareOn fun r => r.2.1) (compareOn fun r => r.2.2))

instance : Std.TransCmp compareRanks :=
  inferInstanceAs (Std.TransCmp (compareLex _ _))

theorem compare_neg (a b : Int) : compare (-a) (-b) = (compare a b).swap := by
  rw [Int.compare_swap, Int.compare_eq_ite_lt, Int.compare_eq_ite_lt]
  simp only [Int.neg_lt_neg_iff]

theorem compare_natCast (a b : Nat) : compare (a : Int) b = compare a b := by
  rw [Int.compare_eq_ite_lt, Nat.compare_eq_ite_lt]
  simp only [Int.ofNat_lt]

theorem compare_eq_compareRanks {u v : UnpackedFloat} (hu : u.isNaN = false)
    (hv : v.isNaN = false) : u.compare v = some (compareRanks (rank u) (rank v)) := by
  -- only finite values of one sign are told apart by more than the class
  rcases u with (_ | _) | _ | _ | ⟨_ | _, m, e, _⟩ <;>
    rcases v with (_ | _) | _ | _ | ⟨_ | _, m', e', _⟩ <;>
    first
    | rfl
    | exact absurd hu (by decide)
    | exact absurd hv (by decide)
    | skip
  · show some ((compare e e').then (compare m m')).swap =
      some ((compare (-e) (-e')).then (compare (-(m : Int)) (-(m' : Int))))
    rw [compare_neg, compare_neg, compare_natCast, Ordering.swap_then]
  · show some ((compare e e').then (compare m m')) =
      some ((compare e e').then (compare (m : Int) (m' : Int)))
    rw [compare_natCast]

def comparePoints (x y : Float) : Ordering :=
  compareRanks (rank x.toModel.unpack) (rank y.toModel.unpack)

instance : Std.TransCmp comparePoints where
  eq_swap {x y} := by
    show compareRanks _ _ = (compareRanks _ _).swap
    exact Std.OrientedCmp.eq_swap
  isLE_trans {x y z} hxy hyz := by
    show (compareRanks _ _).isLE = true
    exact Std.TransCmp.isLE_trans hxy hyz

variable {x y : Float}

theorem lt_iff_comparePoints (hx : x.isNaN = false) (hy : y.isNaN = false) :
    x < y ↔ comparePoints x y = .lt := by
  have hlt : x < y ↔ x.toModel.unpack.lt y.toModel.unpack = true := decide_eq_true_iff
  rw [hlt, UnpackedFloat.lt, compare_eq_compareRanks hx hy]
  exact beq_iff_eq.trans Option.some_inj

theorem le_iff_comparePoints (hx : x.isNaN = false) (hy : y.isNaN = false) :
    x ≤ y ↔ (comparePoints x y).isLE = true := by
  have hle : x ≤ y ↔ x.toModel.unpack.le y.toModel.unpack = true := decide_eq_true_iff
  rw [hle, UnpackedFloat.le, compare_eq_compareRanks hx hy]
  rfl

theorem beq_iff_comparePoints (hx : x.isNaN = false) (hy : y.isNaN = false) :
    (x == y) = true ↔ comparePoints x y = .eq := by
  have hbeq : (x == y) = (x.toModel.unpack.compare y.toModel.unpack == some .eq) := rfl
  rw [hbeq, compare_eq_compareRanks hx hy]
  exact beq_iff_eq.trans Option.some_inj

theorem beq_self (hx : x.isNaN = false) : (x == x) = true :=
  (beq_iff_comparePoints hx hx).2 Std.ReflCmp.compare_self

theorem isNaN_of_beq (h : (x == y) = true) : y.isNaN = false := by
  change (x.toModel.unpack.compare y.toModel.unpack == some .eq) = true at h
  change y.toModel.unpack.isNaN = false
  generalize x.toModel.unpack = u, y.toModel.unpack = v at h ⊢
  cases v with
  | notANumber => cases u <;> cases h
  | infinity | zero | finite => rfl

/-! ## Zeros -/

theorem eq_of_bits (h : x.toModel.toBits.toBitVec = y.toModel.toBits.toBitVec) : x = y := by
  obtain ⟨⟨⟨b⟩, valid⟩⟩ := x
  obtain ⟨⟨⟨b'⟩, valid'⟩⟩ := y
  cases h
  rfl

theorem toNat_unpackMantissa (b : BitVec 64) :
    (@UnpackedFloat.unpackMantissa .binary64 b).toNat = b.toNat % 0x10000000000000 := by
  rw [UnpackedFloat.unpackMantissa, BitVec.toNat_cast, BitVec.extractLsb_toNat]
  rfl

theorem toNat_unpackExponent (b : BitVec 64) :
    (@UnpackedFloat.unpackExponent .binary64 b).toNat = b.toNat / 0x10000000000000 % 0x800 := by
  rw [UnpackedFloat.unpackExponent, BitVec.toNat_cast, BitVec.extractLsb_toNat,
    Nat.shiftRight_eq_div_pow]
  rfl

theorem fields_of_unpack_eq_zero {b : BitVec 64} {sign : UnpackedFloat.Sign}
    (h : UnpackedFloat.unpack .binary64 b = .zero sign) :
    @UnpackedFloat.unpackExponent .binary64 b = 0#11 ∧
      @UnpackedFloat.unpackMantissa .binary64 b = 0#52 := by
  by_cases hspecial : @UnpackedFloat.unpackExponent .binary64 b = -1#11
  · by_cases hmantissa : @UnpackedFloat.unpackMantissa .binary64 b = 0#52
    · have hinfinity := h.symm.trans ((if_pos hspecial).trans (if_pos hmantissa))
      cases hinfinity
    · have hmissing := h.symm.trans ((if_pos hspecial).trans (if_neg hmantissa))
      cases hmissing
  · by_cases hexponent : @UnpackedFloat.unpackExponent .binary64 b = 0#11
    · by_cases hmantissa : @UnpackedFloat.unpackMantissa .binary64 b = 0#52
      · exact ⟨hexponent, hmantissa⟩
      · have hsubnormal :=
          h.symm.trans ((if_neg hspecial).trans ((if_pos hexponent).trans (dif_neg hmantissa)))
        cases hsubnormal
    · have hnormal := h.symm.trans ((if_neg hspecial).trans (if_neg hexponent))
      cases hnormal

theorem bits_of_unpack_eq_zero {b : BitVec 64} {sign : UnpackedFloat.Sign}
    (h : UnpackedFloat.unpack .binary64 b = .zero sign) : b = 0#64 ∨ b = BitVec.intMin 64 := by
  obtain ⟨hexponent, hmantissa⟩ := fields_of_unpack_eq_zero h
  have hexponent := congrArg BitVec.toNat hexponent
  have hmantissa := congrArg BitVec.toNat hmantissa
  rw [toNat_unpackExponent] at hexponent
  rw [toNat_unpackMantissa] at hmantissa
  have hbits := b.isLt
  -- what is left is the bit of the sign
  have hsign : b.toNat = (0#64).toNat ∨ b.toNat = (BitVec.intMin 64).toNat := by
    simp only [BitVec.toNat_ofNat, BitVec.toNat_intMin] at *
    omega
  exact hsign.imp BitVec.eq_of_toNat_eq BitVec.eq_of_toNat_eq

theorem exists_eq_zero_of_beq {u : UnpackedFloat} (h : u.beq (.zero .positive) = true) :
    ∃ sign, u = .zero sign := by
  rcases u with (_ | _) | _ | sign | ⟨_ | _, m, e, _⟩
  case zero => exact ⟨sign, rfl⟩
  all_goals cases h

theorem beq_zero_iff : (x == 0.0) = true ↔ x = 0.0 ∨ x = -0.0 := by
  constructor
  · intro h
    obtain ⟨sign, hsign⟩ := exists_eq_zero_of_beq h
    rcases bits_of_unpack_eq_zero hsign with hbits | hbits
    · refine Or.inl (eq_of_bits ?_)
      rw [hbits]
      rfl
    · refine Or.inr (eq_of_bits ?_)
      rw [hbits]
      decide +kernel
  · rintro (rfl | rfl) <;> decide +kernel

/-! ## Missing points -/

theorem fields_of_isNaN_unpack {b : BitVec 64}
    (h : (UnpackedFloat.unpack .binary64 b).isNaN = true) :
    @UnpackedFloat.unpackExponent .binary64 b = -1#11 ∧
      @UnpackedFloat.unpackMantissa .binary64 b ≠ 0#52 := by
  have hne {u : UnpackedFloat} (hu : u.isNaN = false) : UnpackedFloat.unpack .binary64 b ≠ u := by
    rintro rfl
    rw [h] at hu
    cases hu
  by_cases hspecial : @UnpackedFloat.unpackExponent .binary64 b = -1#11
  · refine ⟨hspecial, fun hmantissa => ?_⟩
    exact hne rfl ((if_pos hspecial).trans (if_pos hmantissa))
  · by_cases hexponent : @UnpackedFloat.unpackExponent .binary64 b = 0#11
    · by_cases hmantissa : @UnpackedFloat.unpackMantissa .binary64 b = 0#52
      · exact absurd ((if_neg hspecial).trans ((if_pos hexponent).trans (dif_pos hmantissa)))
          (hne rfl)
      · exact absurd ((if_neg hspecial).trans ((if_pos hexponent).trans (dif_neg hmantissa)))
          (hne rfl)
    · exact absurd ((if_neg hspecial).trans (if_neg hexponent)) (hne rfl)

theorem bits_of_isNaN (h : x.isNaN = true) :
    x.toModel.toBits.toBitVec = UnpackedFloat.packedNaN .binary64 := by
  obtain ⟨hexponent, hmantissa⟩ := fields_of_isNaN_unpack h
  exact x.toModel.valid.eq_packedNaN hexponent hmantissa

theorem eq_of_isNaN (hx : x.isNaN = true) (hy : y.isNaN = true) : x = y :=
  eq_of_bits ((bits_of_isNaN hx).trans (bits_of_isNaN hy).symm)

theorem isFinite_of_not (hnan : x.isNaN = false) (hinf : x.isInf = false) : x.isFinite = true := by
  change x.toModel.unpack.isNaN = false at hnan
  change x.toModel.unpack.isInf = false at hinf
  change x.toModel.unpack.isFinite = true
  generalize x.toModel.unpack = u at hnan hinf ⊢
  cases u with
  | infinity sign => cases hinf
  | notANumber => cases hnan
  | zero sign => rfl
  | finite sign mantissa exponent hpos => rfl

/-! ## Extremes -/

variable {cmp : Float → Float → Ordering} [Std.TransCmp cmp] {s t : Series} {m : Float}

def IsFirstGreatest (cmp : Float → Float → Ordering) (s : Series) (m : Float) : Prop :=
  ∃ before after, s = before ++ m :: after ∧
    (∀ x ∈ before, cmp x m = .lt) ∧ ∀ x ∈ after, (cmp x m).isLE = true

theorem IsFirstGreatest.isLE (h : IsFirstGreatest cmp s m) : ∀ x ∈ s, (cmp x m).isLE = true := by
  obtain ⟨before, after, rfl, hbefore, hafter⟩ := h
  intro x hx
  rcases List.mem_append.1 hx with hx | hx
  · rw [hbefore x hx]
    rfl
  · rcases List.mem_cons.1 hx with rfl | hx
    · exact Std.ReflCmp.isLE_rfl
    · exact hafter x hx

theorem IsFirstGreatest.concat (h : IsFirstGreatest cmp s m) (y : Float) :
    IsFirstGreatest cmp (s ++ [y]) (if cmp m y = .lt then y else m) := by
  split
  · next hlt =>
    have hbefore : ∀ x ∈ s, cmp x y = .lt := fun x hx =>
      Std.TransCmp.lt_of_isLE_of_lt (h.isLE x hx) hlt
    exact ⟨s, [], rfl, hbefore, List.forall_mem_nil _⟩
  · next hlt =>
    obtain ⟨before, after, rfl, hbefore, hafter⟩ := h
    have hy : (cmp y m).isLE = true := by
      rw [← Ordering.ne_gt_iff_isLE]
      exact fun hgt => hlt (Std.OrientedCmp.lt_of_gt hgt)
    refine ⟨before, after ++ [y], List.append_assoc .., hbefore, ?_⟩
    exact List.forall_mem_append.2 ⟨hafter, List.forall_mem_singleton.2 hy⟩

theorem IsFirstGreatest.foldl {pick : Float → Float → Float}
    (hpick : ∀ x y, x.isNaN = false → y.isNaN = false →
      pick x y = if cmp x y = .lt then y else x)
    (h : IsFirstGreatest cmp s m) (hm : m.isNaN = false) (ht : ∀ x ∈ t, x.isNaN = false) :
    IsFirstGreatest cmp (s ++ t) (t.foldl pick m) := by
  induction t generalizing s m with
  | nil => rwa [List.append_nil]
  | cons y t ih =>
    obtain ⟨hy, ht⟩ := List.forall_mem_cons.1 ht
    have hnext := h.concat y
    rw [← hpick m y hm hy] at hnext
    have hpresent : (pick m y).isNaN = false := by
      rw [hpick m y hm hy]
      split <;> assumption
    rw [List.foldl_cons, List.append_cons]
    exact ih hnext hpresent ht

theorem IsFirstGreatest.find? {below : Float → Float → Bool} (h : IsFirstGreatest cmp s m)
    (hbelow : ∀ x ∈ s, ∀ y ∈ s, below x y = (cmp x y).isLE) :
    s.find? (fun y => s.all (below · y)) = some m := by
  have hle := h.isLE
  obtain ⟨before, after, hs, hbefore, -⟩ := h
  have hm : m ∈ s := hs ▸ List.mem_append_right _ (List.mem_cons_self ..)
  have hall : s.all (below · m) = true := by
    refine List.all_eq_true.2 fun x hx => ?_
    rw [hbelow x hx m hm]
    exact hle x hx
  have hfirst : ∀ x ∈ before, (!s.all (below · x)) = true := by
    intro x hx
    have hxs : x ∈ s := hs ▸ List.mem_append_left _ hx
    rw [Bool.not_eq_true', List.all_eq_false]
    refine ⟨m, hm, ?_⟩
    rw [hbelow m hm x hxs]
    exact Std.OrientedCmp.not_isLE_of_lt (hbefore x hx)
  exact List.find?_eq_some_iff_append.2 ⟨hall, before, after, hs, hfirst⟩

theorem isFirstGreatest_singleton (cmp : Float → Float → Ordering) (x : Float) :
    IsFirstGreatest cmp [x] x :=
  ⟨[], [], rfl, List.forall_mem_nil _, List.forall_mem_nil _⟩

/-- Where both follow an order, picking from all points in turn finds the first that is above
all. -/
theorem find?_eq_foldl (cmp : Float → Float → Ordering) [Std.TransCmp cmp]
    {pick : Float → Float → Float} {below : Float → Float → Bool}
    (hpick : ∀ x y, x.isNaN = false → y.isNaN = false →
      pick x y = if cmp x y = .lt then y else x)
    (hbelow : ∀ x y, x.isNaN = false → y.isNaN = false → below x y = (cmp x y).isLE)
    (h : ∀ y ∈ x :: s, y.isNaN = false) :
    (x :: s).find? (fun m => (x :: s).all (below · m)) = some (s.foldl pick x) := by
  obtain ⟨hx, hs⟩ := List.forall_mem_cons.1 h
  have hfirst := (isFirstGreatest_singleton cmp x).foldl hpick hx hs
  exact hfirst.find? fun y hy z hz => hbelow y z (h y hy) (h z hz)

theorem foldl_larger (h : ∀ y ∈ x :: s, y.isNaN = false) :
    (x :: s).find? (fun m => (x :: s).all (· ≤ m)) = some (s.foldl larger x) := by
  refine find?_eq_foldl comparePoints ?_ ?_ h
  · intro y z hy hz
    simp only [larger, lt_iff_comparePoints hy hz]
  · intro y z hy hz
    rw [Bool.eq_iff_iff, decide_eq_true_iff, le_iff_comparePoints hy hz]

theorem foldl_smaller (h : ∀ y ∈ x :: s, y.isNaN = false) :
    (x :: s).find? (fun m => (x :: s).all (m ≤ ·)) = some (s.foldl smaller x) := by
  refine find?_eq_foldl (fun y z => comparePoints z y) ?_ ?_ h
  · intro y z hy hz
    simp only [smaller, lt_iff_comparePoints hz hy]
  · intro y z hy hz
    rw [Bool.eq_iff_iff, decide_eq_true_iff, le_iff_comparePoints hz hy]

end IndicatorFormula.Series
