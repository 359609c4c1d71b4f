import StructureGraph.Proofs.Binary64.Arithmetic

namespace StructureGraph.Binary64

open Float.Model
open Float.Model.UnpackedFloat (Sign)

variable {u : UnpackedFloat} {a b : Float}

theorem isCanonical_unpacked (a : Float) : IsCanonical a.toModel.unpack := isCanonical_unpack _

/-- One as a float. -/
def one : UnpackedFloat := .finite .positive (2 ^ 52) (-52) (Nat.two_pow_pos 52)

theorem isFinite_one : IsFinite one := ⟨⟨by norm_num, by norm_num, by norm_num, .inl le_rfl⟩, rfl⟩

theorem value_one : value one = 1 := by
  rw [one, value_positive]
  norm_num

private theorem rounds_toFloat {n : ℕ} (h : n < 2 ^ 53) : Rounds n n.toUInt64.toFloat.toModel.unpack := by
  have hn : n.toUInt64.toNat = n := Nat.mod_eq_of_lt (by omega)
  have hrounds := rounds_normalize n 0 .positive
  rw [zpow_zero, mul_one, Int.cast_natCast] at hrounds
  change Rounds n (stored (.normalize .binary64 (n.toUInt64.toNat : ℤ) 0 .positive))
  rwa [hn]

private theorem ofNat_of_lt {n : ℕ} (h : n < 2 ^ 53) :
    (Float.ofNat n).toModel.unpack = times n.toUInt64.toFloat.toModel.unpack one := by
  have hone : (Float.exactlyRepresentablePowersOfTen[0]).toModel.unpack = one := rfl
  rw [← hone]
  unfold Float.ofNat
  simp only [OfScientific.ofScientific, Float.ofScientific]
  rw [dif_pos ⟨h, by norm_num⟩]
  rfl

private theorem ofNat_of_le {n : ℕ} (h : 2 ^ 53 ≤ n) :
    (Float.ofNat n).toModel.unpack = stored (.ofScientific .binary64 n 0) := by
  unfold Float.ofNat
  simp only [OfScientific.ofScientific, Float.ofScientific]
  rw [dif_neg (by omega)]
  rfl

theorem isFinite_of_rounds {n : ℕ} (hu : IsCanonical u) (h : Rounds n u) (hn : n ≤ 2 ^ 53) :
    IsFinite u :=
  have hgrid := isOnGrid_natCast hn
  h.isFinite hu hgrid hgrid le_rfl le_rfl (neg_limit_lt (Nat.cast_nonneg n))
    (lt_limit (by exact_mod_cast hn.trans (by norm_num)))

private theorem rounds_ofNat_of_lt {n : ℕ} (h : n < 2 ^ 53) : Rounds n (Float.ofNat n).toModel.unpack := by
  have hrounds := rounds_toFloat h
  have hfinite := isFinite_of_rounds (isCanonical_unpacked _) hrounds h.le
  have hproduct := rounds_times hfinite isFinite_one
  rw [hrounds.value_eq (isOnGrid_natCast h.le), value_one, mul_one] at hproduct
  rwa [ofNat_of_lt h]

/-- Greater numbers are read as decimal text is. -/
theorem rounds_ofNat_of_le {n : ℕ} (h : 2 ^ 53 ≤ n) : Rounds n (Float.ofNat n).toModel.unpack := by
  have hn : n ≠ 0 := by omega
  have hlow : ¬ (0 : ℤ) < -(2 ^ Format.binary64.exponentBits + n.log2) :=
    not_lt.mpr (neg_nonpos.mpr (by positivity))
  have hpos : 0 < n <<< 53 := by
    rw [Nat.shiftLeft_eq]
    positivity
  have hplace : -(53 : ℕ) ≤ placeOf (n <<< 53) (-(53 : ℕ)) := by
    rw [placeOf, log2_shiftLeft (Nat.pos_of_ne_zero hn)]
    omega
  have hvalue : ((n <<< 53 : ℕ) : ℚ) * 2 ^ (-(53 : ℕ) : ℤ) = n := by
    have hwritten := decreaseExponent_eq n (e := 0) (t := -(53 : ℕ)) (by norm_num)
    rwa [show (0 - -((53 : ℕ) : ℤ)).toNat = 53 from rfl, zpow_zero, mul_one] at hwritten
  have hrounds := rounds_roundWithAccuracy .positive hpos hplace
  rw [hvalue, show Sign.positive.apply 1 = 1 from rfl, Int.cast_one, one_mul] at hrounds
  rw [ofNat_of_le h]
  unfold UnpackedFloat.ofScientific
  rw [dif_neg hn, if_neg (by norm_num), if_neg hlow, if_pos le_rfl, UnpackedFloat.mul,
    mantissaBits_eq, Int.toNat_zero, pow_zero, mul_one, add_zero]
  exact hrounds

theorem rounds_ofNat (n : ℕ) : Rounds n (Float.ofNat n).toModel.unpack :=
  (Nat.lt_or_ge n (2 ^ 53)).elim rounds_ofNat_of_lt rounds_ofNat_of_le

private theorem mantissa_shiftToExponent (m : ℕ) (e : ℤ) :
    (UnpackedFloat.shiftToExponent m e .exact 0).1.mantissa = m / 2 ^ (0 - e).toNat :=
  (isShifted_shiftRight m (0 - e).toNat).mantissa

private theorem roundToInt_eq (s : Sign) (m : ℕ) (e : ℤ) :
    UnpackedFloat.roundToInt s m e = s.apply ⌊(m : ℚ) * 2 ^ e⌋₊ := by
  have hfloor : m <<< (e - 0).toNat / 2 ^ (0 - (e - (e - 0).toNat)).toNat = ⌊(m : ℚ) * 2 ^ e⌋₊ := by
    rcases le_or_gt 0 e with hle | hgt
    · obtain ⟨k, rfl⟩ := Int.eq_ofNat_of_zero_le hle
      have hvalue : (m : ℚ) * 2 ^ (k : ℤ) = (m * 2 ^ k : ℕ) := by
        rw [zpow_natCast]
        push_cast
        rfl
      rw [hvalue, Nat.floor_natCast, Nat.shiftLeft_eq]
      simp
    · obtain ⟨k, hk⟩ := Int.eq_ofNat_of_zero_le (neg_nonneg.mpr hgt.le)
      obtain rfl : e = -k := by omega
      have hvalue : (m : ℚ) * 2 ^ (-k : ℤ) = m / (2 ^ k : ℕ) := by
        rw [zpow_neg, zpow_natCast]
        push_cast
        rfl
      rw [hvalue, Nat.floor_div_eq_div]
      simp
  unfold UnpackedFloat.roundToInt UnpackedFloat.decreaseExponent
  simp only [mantissa_shiftToExponent, hfloor]

private theorem toInt_eq (h : u.isFinite = true) (low high : ℤ) :
    (u.toInt low high).toNat = ⌊value u⌋₊ := by
  obtain ⟨s, rfl⟩ | ⟨s, m, e, hm, rfl⟩ := zero_or_finite h
  · exact Nat.floor_zero.symm
  · rw [UnpackedFloat.toInt, roundToInt_eq]
    cases s with
    | negative =>
      rw [Nat.floor_of_nonpos (value_negative_lt hm).le]
      simp [Sign.apply]
    | positive =>
      rw [value_positive]
      rfl

private theorem toNat_toUInt64_of_isFinite (h : u.isFinite = true) :
    u.toUInt64.toNat = min ⌊value u⌋₊ (2 ^ 64 - 1) := by
  unfold UnpackedFloat.toUInt64
  rw [toInt_eq h]
  rcases Nat.lt_or_ge ⌊value u⌋₊ UInt64.size with hlt | hge
  · rw [UInt64.toNat_ofNatClamp_of_lt hlt]
    exact (Nat.min_eq_left (Nat.le_sub_one_of_lt hlt)).symm
  · rw [UInt64.toNat_ofNatClamp_of_le hge]
    exact (Nat.min_eq_right ((Nat.sub_le _ _).trans hge)).symm

/-- A float becomes the whole number below it, or the nearest one that has 64 bits. -/
theorem toNat_toUInt64 (u : UnpackedFloat) : u.toUInt64.toNat = min ⌊value u⌋₊ (2 ^ 64 - 1) := by
  cases u with
  | notANumber => rw [value, Nat.floor_zero]; rfl
  | infinity s =>
    cases s with
    | negative =>
      rw [value_infinity_negative, Nat.floor_of_nonpos (neg_nonpos.mpr limit_pos.le)]
      rfl
    | positive =>
      have hle : 2 ^ 64 - 1 ≤ ⌊limit⌋₊ := Nat.le_floor (lt_limit (by norm_num)).le
      rw [value_infinity_positive, Nat.min_eq_right hle]
      rfl
  | zero s => exact toNat_toUInt64_of_isFinite rfl
  | finite s m e hm => exact toNat_toUInt64_of_isFinite rfl

theorem lt_iff (ha : a.toModel.unpack ≠ .notANumber) (hb : b.toModel.unpack ≠ .notANumber) :
    a < b ↔ value a.toModel.unpack < value b.toModel.unpack := by
  obtain ⟨o, hcompare, ho⟩ :=
    comparesAsValues (isCanonical_unpacked a) (isCanonical_unpacked b) ha hb
  have hlt : a < b ↔ (a.toModel.unpack.compare b.toModel.unpack == some .lt) = true :=
    decide_eq_true_iff (p := a.toModel < b.toModel)
  rw [hlt, hcompare, beq_iff_eq, Option.some.injEq]
  exact ho.eq_lt

/-- A comparison that holds is one of numbers. -/
theorem ne_notANumber_of_le (h : a ≤ b) :
    a.toModel.unpack ≠ .notANumber ∧ b.toModel.unpack ≠ .notANumber := by
  have hcompare : (a.toModel.unpack.compare b.toModel.unpack).any (·.isLE) = true :=
    of_decide_eq_true (p := a.toModel ≤ b.toModel) h
  constructor
  · intro hnan
    rw [hnan] at hcompare
    cases hcompare
  · intro hnan
    rw [hnan] at hcompare
    generalize a.toModel.unpack = u at hcompare
    cases u <;> cases hcompare

theorem le_iff (ha : a.toModel.unpack ≠ .notANumber) (hb : b.toModel.unpack ≠ .notANumber) :
    a ≤ b ↔ value a.toModel.unpack ≤ value b.toModel.unpack := by
  obtain ⟨o, hcompare, ho⟩ :=
    comparesAsValues (isCanonical_unpacked a) (isCanonical_unpacked b) ha hb
  have hle : a ≤ b ↔ (a.toModel.unpack.compare b.toModel.unpack).any (·.isLE) = true :=
    decide_eq_true_iff (p := a.toModel ≤ b.toModel)
  rw [hle, hcompare]
  cases o with
  | lt => exact iff_of_true rfl ho.le
  | eq => exact iff_of_true rfl ho.le
  | gt => exact iff_of_false Bool.false_ne_true ho.not_ge

theorem le_of_le_of_le {c : Float} (hab : a ≤ b) (hbc : b ≤ c) : a ≤ c := by
  obtain ⟨ha, hb⟩ := ne_notANumber_of_le hab
  have hc := (ne_notANumber_of_le hbc).2
  rw [le_iff ha hb] at hab
  rw [le_iff hb hc] at hbc
  exact (le_iff ha hc).mpr (hab.trans hbc)

theorem not_lt_of_notANumber (hb : b.toModel.unpack = .notANumber) : ¬ a < b := by
  intro h
  have hcompare : (a.toModel.unpack.compare b.toModel.unpack == some .lt) = true :=
    of_decide_eq_true (p := a.toModel < b.toModel) h
  rw [hb] at hcompare
  generalize a.toModel.unpack = u at hcompare
  cases u <;> cases hcompare

end StructureGraph.Binary64
