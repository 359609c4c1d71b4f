import Mathlib
import StructureGraph.Proofs.Binary64.Grid

namespace StructureGraph.Binary64

open Float.Model
open Float.Model.UnpackedFloat (Sign)

variable {u v : UnpackedFloat} {s : Sign} {m : ℕ} {e : ℤ}

/-- The number that a float stands for. What is no number stands for zero. -/
def value : UnpackedFloat → ℚ
  | .notANumber => 0
  | .infinity s => s.apply 1 * limit
  | .zero _ => 0
  | .finite s m e _ => s.apply 1 * (m * 2 ^ e)

/-- All bits of the mantissa are used, unless the number is too near to zero. -/
def IsCanonical : UnpackedFloat → Prop
  | .finite _ m e _ => m < 2 ^ 53 ∧ -1074 ≤ e ∧ e ≤ 971 ∧ (2 ^ 52 ≤ m ∨ e = -1074)
  | _ => True

theorem zero_ne_notANumber (s : Sign) : UnpackedFloat.zero s ≠ .notANumber := by
  intro h
  cases h

theorem infinity_ne_notANumber (s : Sign) : UnpackedFloat.infinity s ≠ .notANumber := by
  intro h
  cases h

theorem finite_ne_notANumber (hm : 0 < m) : UnpackedFloat.finite s m e hm ≠ .notANumber := by
  intro h
  cases h

theorem zero_or_finite (h : u.isFinite = true) :
    (∃ s, u = .zero s) ∨ ∃ s m e hm, u = .finite s m e hm := by
  cases u with
  | notANumber => cases h
  | infinity s => cases h
  | zero s => exact .inl ⟨s, rfl⟩
  | finite s m e hm => exact .inr ⟨s, m, e, hm, rfl⟩

private theorem exponentBias_eq : Format.binary64.exponentBias = 1023 := rfl

theorem mantissaBits_eq : Format.binary64.mantissaBits = 53 := rfl

/-- What becomes of a float when it is stored in 64 bits. -/
def stored (u : UnpackedFloat) : UnpackedFloat :=
  UnpackedFloat.unpack .binary64 (UnpackedFloat.pack .binary64 u)

theorem toNat_implicit_append (b : BitVec 52) : (1#1 ++ b).toNat = 2 ^ 52 + b.toNat := by
  rw [BitVec.toNat_append]
  exact (Nat.shiftLeft_add_eq_or_of_lt b.isLt 1).symm

theorem isCanonical_unpack (b : BitVec 64) : IsCanonical (UnpackedFloat.unpack .binary64 b) := by
  fun_cases UnpackedFloat.unpack .binary64 b with
  | case1 => trivial
  | case2 => trivial
  | case3 => trivial
  | case4 mantissa exponentBits exponent _ _ _ hzero hmantissa =>
    have hlt : mantissa.toNat < 2 ^ 52 := mantissa.isLt
    have hexponent : exponent = -1075 := by simp only [exponent, hzero]; rfl
    exact ⟨by omega, by omega, by omega, .inr (by omega)⟩
  | case5 mantissa exponentBits exponent _ _ hall hzero =>
    have hlt : mantissa.toNat < 2 ^ 52 := mantissa.isLt
    have hpositive : exponentBits.toNat ≠ 0 := fun h => hzero (BitVec.eq_of_toNat_eq h)
    have hfinite : exponentBits.toNat ≠ 2047 := fun h => hall (BitVec.eq_of_toNat_eq h)
    have hbits : exponentBits.toNat < 2048 := exponentBits.isLt
    have hexponent : exponent = exponentBits.toNat - (1023 + 52) := rfl
    have hmantissa := toNat_implicit_append mantissa
    exact ⟨by omega, by omega, by omega, .inl (by omega)⟩

private theorem unpack_subnormal (s : Sign) (hm : 0 < m) (hlt : m < 2 ^ 52) :
    UnpackedFloat.unpack .binary64 (UnpackedFloat.packComponents .binary64 s 0#11 (.ofNat 52 m)) =
      .finite s m (-1074) hm := by
  have hmantissa : (BitVec.ofNat 52 m).toNat = m := Nat.mod_eq_of_lt hlt
  have hnonzero : BitVec.ofNat 52 m ≠ 0#52 := by
    intro hzero
    rw [hzero] at hmantissa
    exact hm.ne hmantissa
  unfold UnpackedFloat.unpack
  simp only [UnpackedFloat.unpackExponent_packComponents, UnpackedFloat.unpackMantissa_packComponents,
    UnpackedFloat.unpackSign_packComponents, Sign.ofBitVec_toBitVec, hnonzero, hmantissa, dif_neg, not_false_eq_true]
  rfl

private theorem unpack_normal (s : Sign) (hm : 0 < m) (hlow : 2 ^ 52 ≤ m) (hlt : m < 2 ^ 53)
    (helow : -1074 ≤ e) (hehigh : e ≤ 971) :
    UnpackedFloat.unpack .binary64
        (UnpackedFloat.packComponents .binary64 s (.ofNat 11 (e + 1075).toNat) (.ofNat 52 m)) =
      .finite s m e hm := by
  have hexponent : (BitVec.ofNat 11 (e + 1075).toNat).toNat = (e + 1075).toNat :=
    Nat.mod_eq_of_lt (by omega)
  have hmantissa : (1#1 ++ BitVec.ofNat 52 m).toNat = m := by
    rw [toNat_implicit_append, BitVec.toNat_ofNat]
    omega
  have hall : BitVec.ofNat 11 (e + 1075).toNat ≠ -1#11 := by
    intro h
    have h' : (e + 1075).toNat = 2047 := hexponent.symm.trans (congrArg BitVec.toNat h)
    omega
  have hzero : BitVec.ofNat 11 (e + 1075).toNat ≠ 0#11 := by
    intro h
    have h' : (e + 1075).toNat = 0 := hexponent.symm.trans (congrArg BitVec.toNat h)
    omega
  unfold UnpackedFloat.unpack
  simp only [UnpackedFloat.unpackExponent_packComponents, UnpackedFloat.unpackMantissa_packComponents,
    UnpackedFloat.unpackSign_packComponents, Sign.ofBitVec_toBitVec, hall, hzero, if_false, hexponent, hmantissa,
    exponentBias_eq]
  congr 1
  omega

theorem stored_finite (hm : 0 < m) (h : IsCanonical (.finite s m e hm)) :
    stored (.finite s m e hm) = .finite s m e hm := by
  obtain ⟨hlt, hlow, hhigh, hfull⟩ := h
  have hbiased : e + (1023 : ℕ) + (52 : ℕ) = e + 1075 := by omega
  have hfits : ¬ 2 ^ 11 ≤ (e + 1075).toNat + 1 := by omega
  unfold stored UnpackedFloat.pack
  simp only [exponentBias_eq, mantissaBits_eq, hbiased, hfits, if_false]
  by_cases hnormal : 2 ^ 52 ≤ m
  · have hlog : m.log2 = 52 := (Nat.log2_eq_iff hm.ne').mpr ⟨hnormal, hlt⟩
    rw [if_pos (by rw [hlog])]
    exact unpack_normal s hm hnormal hlt hlow hhigh
  · have hlog : m.log2 < 52 := (Nat.log2_lt hm.ne').mpr (by omega)
    obtain rfl : e = -1074 := hfull.resolve_left hnormal
    rw [if_neg (by omega)]
    exact unpack_subnormal s hm (by omega)

/-- Numbers that are too great are stored as infinities. -/
theorem stored_of_lt (hm : 0 < m) (h : 971 < e) : stored (.finite s m e hm) = .infinity s := by
  have hbiased : e + (1023 : ℕ) + (52 : ℕ) = e + 1075 := by omega
  have hfits : 2 ^ 11 ≤ (e + 1075).toNat + 1 := by omega
  unfold stored UnpackedFloat.pack
  simp only [exponentBias_eq, hbiased, hfits, if_true]
  cases s <;> rfl

theorem stored_zero (s : Sign) : stored (.zero s) = .zero s := by
  cases s <;> rfl

theorem stored_of_isCanonical (h : IsCanonical u) : stored u = u := by
  cases u with
  | finite s m e hm => exact stored_finite hm h
  | notANumber => rfl
  | infinity s => cases s <;> rfl
  | zero s => exact stored_zero s

theorem isCanonical_stored (u : UnpackedFloat) : IsCanonical (stored u) := isCanonical_unpack _

@[simp]
theorem value_zero (s : Sign) : value (.zero s) = 0 := rfl

theorem value_positive (hm : 0 < m) : value (.finite .positive m e hm) = m * 2 ^ e :=
  one_mul _

private theorem value_negative (hm : 0 < m) : value (.finite .negative m e hm) = -(m * 2 ^ e) := by
  simp [value, Sign.apply]

private theorem magnitude_pos (hm : 0 < m) : 0 < (m : ℚ) * 2 ^ e := by
  positivity

private theorem magnitude_lt (hm : 0 < m) (h : IsCanonical (.finite s m e hm)) :
    (m : ℚ) * 2 ^ e < limit := by
  obtain ⟨hlt, -, hhigh, -⟩ := h
  have hmantissa : (m : ℚ) < 2 ^ 53 := by exact_mod_cast hlt
  have hpower : (2 : ℚ) ^ e ≤ 2 ^ (971 : ℤ) := zpow_le_zpow_right₀ (by norm_num) hhigh
  calc (m : ℚ) * 2 ^ e < 2 ^ 53 * 2 ^ e := by gcongr
    _ ≤ limit := by unfold limit; gcongr

/-- The exponents decide before the mantissas do. -/
theorem magnitude_lt_of_exponent_lt {m' : ℕ} {e' : ℤ} {hm : 0 < m} {hm' : 0 < m'}
    (h : IsCanonical (.finite s m e hm)) {s' : Sign} (h' : IsCanonical (.finite s' m' e' hm'))
    (hlt : e < e') : (m : ℚ) * 2 ^ e < m' * 2 ^ e' := by
  obtain ⟨hmlt, hlow, -, -⟩ := h
  obtain ⟨-, -, -, hfull⟩ := h'
  have hmantissa : (m : ℚ) < 2 ^ 53 := by exact_mod_cast hmlt
  have hmantissa' : (2 : ℚ) ^ 52 ≤ m' := by
    exact_mod_cast hfull.resolve_right (by omega)
  have hpower : (2 : ℚ) ^ (e + 1) ≤ 2 ^ e' := zpow_le_zpow_right₀ (by norm_num) hlt
  calc (m : ℚ) * 2 ^ e < 2 ^ 53 * 2 ^ e := by gcongr
    _ = 2 ^ 52 * 2 ^ (e + 1) := by rw [zpow_add_one₀ (by norm_num)]; ring
    _ ≤ m' * 2 ^ e' := by gcongr

private theorem compares_magnitude {m' : ℕ} {e' : ℤ} {hm : 0 < m} {hm' : 0 < m'} {s' : Sign}
    (h : IsCanonical (.finite s m e hm)) (h' : IsCanonical (.finite s' m' e' hm')) :
    ((compare e e').then (compare m m')).Compares ((m : ℚ) * 2 ^ e) (m' * 2 ^ e') := by
  rcases lt_trichotomy e e' with hlt | rfl | hgt
  · rw [compare_lt_iff_lt.mpr hlt]
    exact magnitude_lt_of_exponent_lt h h' hlt
  · have hpower : (0 : ℚ) < 2 ^ e := by positivity
    rw [compare_eq_iff_eq.mpr rfl]
    rcases lt_trichotomy m m' with hlt | rfl | hgt
    · rw [compare_lt_iff_lt.mpr hlt]
      exact mul_lt_mul_of_pos_right (Nat.cast_lt.mpr hlt) hpower
    · rw [compare_eq_iff_eq.mpr rfl]
      rfl
    · rw [compare_gt_iff_gt.mpr hgt]
      exact mul_lt_mul_of_pos_right (Nat.cast_lt.mpr hgt) hpower
  · rw [compare_gt_iff_gt.mpr hgt]
    exact magnitude_lt_of_exponent_lt h' h hgt

private theorem compares_neg {o : Ordering} {x y : ℚ} (h : o.Compares x y) : o.swap.Compares (-x) (-y) := by
  cases o with
  | lt => exact neg_lt_neg h
  | eq => exact congrArg (-·) h
  | gt => exact neg_lt_neg h

theorem value_infinity_positive : value (.infinity .positive) = limit := one_mul _

theorem value_infinity_negative : value (.infinity .negative) = -limit := by
  simp [value, Sign.apply]

theorem isOnGrid_value (h : IsCanonical u) : IsOnGrid (value u) := by
  cases u with
  | notANumber => exact_mod_cast isOnGrid_intCast (n := 0) (by norm_num)
  | zero s => exact_mod_cast isOnGrid_intCast (n := 0) (by norm_num)
  | infinity s =>
    cases s with
    | negative => exact value_infinity_negative ▸ isOnGrid_limit.neg
    | positive => exact value_infinity_positive ▸ isOnGrid_limit
  | finite s m e hm =>
    obtain ⟨hlt, hlow, hhigh, -⟩ := h
    have hgrid : IsOnGrid (m * 2 ^ e) := ⟨m, e, by rw [abs_of_nonneg] <;> omega, hlow, hhigh, by simp⟩
    cases s with
    | negative => exact value_negative hm ▸ hgrid.neg
    | positive => exact value_positive hm ▸ hgrid

/-- Two floats are compared as the numbers that they stand for. -/
def ComparesAsValues (u v : UnpackedFloat) : Prop :=
  ∃ o : Ordering, u.compare v = some o ∧ o.Compares (value u) (value v)

private theorem comparesAsValues_infinities (s s' : Sign) :
    ComparesAsValues (.infinity s) (.infinity s') := by
  have hlt : value (.infinity .negative) < value (.infinity .positive) := by
    rw [value_infinity_negative, value_infinity_positive]
    exact neg_lt_self limit_pos
  cases s <;> cases s'
  case negative.negative => exact ⟨.eq, rfl, rfl⟩
  case negative.positive => exact ⟨.lt, rfl, hlt⟩
  case positive.negative => exact ⟨.gt, rfl, hlt⟩
  case positive.positive => exact ⟨.eq, rfl, rfl⟩

theorem value_bounds_of_isFinite (hu : IsCanonical u) (hfinite : u.isFinite = true) :
    -limit < value u ∧ value u < limit := by
  have hpos := limit_pos
  obtain ⟨s, rfl⟩ | ⟨s, m, e, hm, rfl⟩ := zero_or_finite hfinite
  · exact ⟨neg_lt_zero.mpr hpos, hpos⟩
  · have hmpos := magnitude_pos (e := e) hm
    have hlt := magnitude_lt hm hu
    cases s with
    | negative =>
      rw [value_negative]
      exact ⟨neg_lt_neg hlt, (neg_lt_zero.mpr hmpos).trans hpos⟩
    | positive =>
      rw [value_positive]
      exact ⟨(neg_lt_zero.mpr hpos).trans hmpos, hlt⟩

private theorem comparesAsValues_infinity (s : Sign) (hu : IsCanonical u) (hfinite : u.isFinite = true) :
    ComparesAsValues (.infinity s) u ∧ ComparesAsValues u (.infinity s) := by
  obtain ⟨hlow, hhigh⟩ := value_bounds_of_isFinite hu hfinite
  rw [← value_infinity_negative] at hlow
  rw [← value_infinity_positive] at hhigh
  obtain ⟨s', rfl⟩ | ⟨s', m, e, hm, rfl⟩ := zero_or_finite hfinite
  all_goals
    cases s with
    | negative => exact ⟨⟨.lt, rfl, hlow⟩, ⟨.gt, rfl, hlow⟩⟩
    | positive => exact ⟨⟨.gt, rfl, hhigh⟩, ⟨.lt, rfl, hhigh⟩⟩

theorem value_negative_lt (hm : 0 < m) : value (.finite .negative m e hm) < 0 := by
  rw [value_negative]
  exact neg_lt_zero.mpr (magnitude_pos hm)

theorem value_positive_gt (hm : 0 < m) : 0 < value (.finite .positive m e hm) := by
  rw [value_positive]
  exact magnitude_pos hm

theorem comparesAsValues_zero (s s' : Sign) (hm : 0 < m) :
    ComparesAsValues (.zero s) (.finite s' m e hm) ∧
      ComparesAsValues (.finite s' m e hm) (.zero s) := by
  cases s' with
  | negative => exact ⟨⟨.gt, rfl, value_negative_lt hm⟩, ⟨.lt, rfl, value_negative_lt hm⟩⟩
  | positive => exact ⟨⟨.lt, rfl, value_positive_gt hm⟩, ⟨.gt, rfl, value_positive_gt hm⟩⟩

private theorem comparesAsValues_finite {s' : Sign} {m' : ℕ} {e' : ℤ} {hm : 0 < m} {hm' : 0 < m'}
    (h : IsCanonical (.finite s m e hm)) (h' : IsCanonical (.finite s' m' e' hm')) :
    ComparesAsValues (.finite s m e hm) (.finite s' m' e' hm') := by
  cases s <;> cases s'
  case negative.negative =>
    refine ⟨_, rfl, ?_⟩
    rw [value_negative, value_negative]
    exact compares_neg (compares_magnitude h h')
  case negative.positive =>
    exact ⟨.lt, rfl, (value_negative_lt hm).trans (value_positive_gt hm')⟩
  case positive.negative =>
    exact ⟨.gt, rfl, (value_negative_lt hm').trans (value_positive_gt hm)⟩
  case positive.positive =>
    refine ⟨_, rfl, ?_⟩
    rw [value_positive, value_positive]
    exact compares_magnitude h h'

theorem comparesAsValues (hu : IsCanonical u) (hv : IsCanonical v) (hun : u ≠ .notANumber)
    (hvn : v ≠ .notANumber) : ComparesAsValues u v := by
  cases u with
  | notANumber => exact absurd rfl hun
  | infinity s =>
    cases v with
    | notANumber => exact absurd rfl hvn
    | infinity s' => exact comparesAsValues_infinities s s'
    | zero s' => exact (comparesAsValues_infinity s hv rfl).1
    | finite s' m' e' hm' => exact (comparesAsValues_infinity s hv rfl).1
  | zero s =>
    cases v with
    | notANumber => exact absurd rfl hvn
    | infinity s' => exact (comparesAsValues_infinity s' hu rfl).2
    | zero s' => exact ⟨.eq, rfl, rfl⟩
    | finite s' m' e' hm' => exact (comparesAsValues_zero s s' hm').1
  | finite s m e hm =>
    cases v with
    | notANumber => exact absurd rfl hvn
    | infinity s' => exact (comparesAsValues_infinity s' hu rfl).2
    | zero s' => exact (comparesAsValues_zero s' s hm).2
    | finite s' m' e' hm' => exact comparesAsValues_finite hu hv

end StructureGraph.Binary64
