import StructureGraph.Proofs.Binary64.Rounding

namespace StructureGraph.Binary64

open Float.Model
open Float.Model.UnpackedFloat (Sign)

variable {u v w : UnpackedFloat} {x y z : ℚ}

/-- A float in canonical form that is neither infinite nor without a number. -/
def IsFinite (u : UnpackedFloat) : Prop := IsCanonical u ∧ u.isFinite = true

theorem IsFinite.ne_notANumber (h : IsFinite u) : u ≠ .notANumber := by
  rintro rfl
  cases h.2

private theorem Rounds.value_le (h : Rounds x u) (h' : Rounds y v) (hlt : x < y) : value u ≤ value v :=
  h.2.le_of_lt h'.2 hlt

/-- Each number has one canonical form, up to the sign of zero. -/
theorem eq_or_zero_of_value_eq (hu : IsFinite u) (hv : IsFinite v) (h : value u = value v) :
    u = v ∨ (∃ s, u = .zero s) ∧ ∃ s, v = .zero s := by
  obtain ⟨o, hcompare, ho⟩ := comparesAsValues hu.1 hv.1 hu.ne_notANumber hv.ne_notANumber
  obtain rfl : o = .eq := ho.eq_eq.mpr h
  have hbeq : u.beq v = true := by
    rw [UnpackedFloat.beq, hcompare]
    rfl
  obtain ⟨-, -, heq | ⟨hu, hv⟩ | ⟨hu, hv⟩⟩ := (UnpackedFloat.beq_iff_ne_notANumber_and_eq u v).mp hbeq
  · exact .inl heq
  · exact .inr ⟨⟨_, hu⟩, _, hv⟩
  · exact .inr ⟨⟨_, hu⟩, _, hv⟩

/-- The float nearest to the difference of two floats. -/
def minus (u v : UnpackedFloat) : UnpackedFloat := stored (.sub .binary64 u v)

theorem decreaseExponent_eq (m : ℕ) {e t : ℤ} (h : t ≤ e) :
    ((m <<< (e - t).toNat : ℕ) : ℚ) * 2 ^ t = m * 2 ^ e := by
  have hvalue := decreaseExponent_value m e t
  have hexponent : e - (e - t).toNat = t := by omega
  simp only [UnpackedFloat.decreaseExponent, hexponent] at hvalue
  exact hvalue

private theorem apply_natCast (s : Sign) (m : ℕ) : ((s.apply m : ℤ) : ℚ) = s.apply 1 * m := by
  cases s <;> simp [Sign.apply]

private theorem apply_neg_one (s : Sign) : (-s).apply 1 = -s.apply 1 := by
  cases s <;> rfl

private theorem apply_mul_one (s s' : Sign) : (s * s').apply 1 = s.apply 1 * s'.apply 1 := by
  cases s <;> cases s' <;> rfl

theorem rounds_minus (hu : IsFinite u) (hv : IsFinite v) : Rounds (value u - value v) (minus u v) := by
  obtain ⟨hu, hufinite⟩ := hu
  obtain ⟨hv, hvfinite⟩ := hv
  obtain ⟨s, rfl⟩ | ⟨s, m, e, hm, rfl⟩ := zero_or_finite hufinite
  · obtain ⟨s', rfl⟩ | ⟨s', m', e', hm', rfl⟩ := zero_or_finite hvfinite
    · rw [value_zero, value_zero, sub_zero]
      cases s <;> cases s' <;> exact rounds_stored_zero _
    · have hnegative : value (.zero s) - value (.finite s' m' e' hm') = value (.finite (-s') m' e' hm') := by
        rw [value_zero, zero_sub, value, value, apply_neg_one, Int.cast_neg,
          neg_mul]
      rw [hnegative]
      exact rounds_stored (u := .finite (-s') m' e' hm') hv (finite_ne_notANumber hm')
  · obtain ⟨s', rfl⟩ | ⟨s', m', e', hm', rfl⟩ := zero_or_finite hvfinite
    · rw [value_zero, sub_zero]
      exact rounds_stored hu (finite_ne_notANumber hm)
    · let least := min e e'
      let difference : ℤ :=
        s.apply (m <<< (e - least).toNat : ℕ) - s'.apply (m' <<< (e' - least).toNat : ℕ)
      have hdifference : value (.finite s m e hm) - value (.finite s' m' e' hm') =
          difference * 2 ^ least := by
        rw [Int.cast_sub, apply_natCast, apply_natCast, sub_mul, mul_assoc, mul_assoc,
          decreaseExponent_eq m (min_le_left e e'), decreaseExponent_eq m' (min_le_right e e')]
        rfl
      rw [hdifference]
      exact rounds_normalize difference least _

/-- The float nearest to the product of two floats. -/
def times (u v : UnpackedFloat) : UnpackedFloat := stored (.mul .binary64 u v)

/-- A product has enough bits to be rounded, unless it is next to nothing. -/
theorem le_placeOf_mul {m m' : ℕ} {e e' : ℤ} {s s' : Sign} {hm : 0 < m} {hm' : 0 < m'}
    (h : IsCanonical (.finite s m e hm)) (h' : IsCanonical (.finite s' m' e' hm')) :
    e + e' ≤ placeOf (m * m') (e + e') := by
  obtain ⟨-, -, -, hfull⟩ := h
  obtain ⟨-, -, -, hfull'⟩ := h'
  have hlog : 2 ^ 52 ≤ m * m' → 52 ≤ (m * m').log2 := (Nat.le_log2 (Nat.mul_pos hm hm').ne').mpr
  unfold placeOf
  rcases hfull with hm52 | he
  · have := hlog (hm52.trans (Nat.le_mul_of_pos_right m hm'))
    omega
  · rcases hfull' with hm52 | he'
    · have := hlog (hm52.trans (Nat.le_mul_of_pos_left m' hm))
      omega
    · omega

theorem rounds_times (hu : IsFinite u) (hv : IsFinite v) : Rounds (value u * value v) (times u v) := by
  obtain ⟨hu, hufinite⟩ := hu
  obtain ⟨hv, hvfinite⟩ := hv
  obtain ⟨s, rfl⟩ | ⟨s, m, e, hm, rfl⟩ := zero_or_finite hufinite
  · rw [value_zero, zero_mul]
    obtain ⟨s', rfl⟩ | ⟨s', m', e', hm', rfl⟩ := zero_or_finite hvfinite
    all_goals exact rounds_stored_zero (s * s')
  · obtain ⟨s', rfl⟩ | ⟨s', m', e', hm', rfl⟩ := zero_or_finite hvfinite
    · rw [value_zero, mul_zero]
      exact rounds_stored_zero (s * s')
    · have hproduct : value (.finite s m e hm) * value (.finite s' m' e' hm') =
          (s * s').apply 1 * ((m * m' : ℕ) * 2 ^ (e + e')) := by
        rw [value, value, apply_mul_one, Int.cast_mul, Nat.cast_mul, zpow_add₀ (by norm_num)]
        ring
      rw [hproduct]
      exact rounds_roundWithAccuracy _ (Nat.mul_pos hm hm') (le_placeOf_mul hu hv)

theorem minus_notANumber (v : UnpackedFloat) : minus .notANumber v = .notANumber := by
  cases v <;> exact stored_of_isCanonical (u := .notANumber) trivial

theorem minus_infinity (s : Sign) (hv : v.isFinite = true) : minus (.infinity s) v = .infinity s := by
  obtain ⟨s', rfl⟩ | ⟨s', m, e, hm, rfl⟩ := zero_or_finite hv
  all_goals exact stored_of_isCanonical (u := .infinity s) trivial

/-- A number above all finite ones remains so if it is multiplied, but it has no product with zero. -/
theorem times_infinity (hv : v.isFinite = true) (hnonneg : 0 ≤ value v) :
    times (.infinity .positive) v = if value v = 0 then .notANumber else .infinity .positive := by
  obtain ⟨s, rfl⟩ | ⟨s, m, e, hm, rfl⟩ := zero_or_finite hv
  · rw [if_pos (value_zero s)]
    exact stored_of_isCanonical (u := .notANumber) trivial
  · cases s with
    | negative => exact absurd hnonneg (value_negative_lt hm).not_ge
    | positive =>
      rw [if_neg (value_positive_gt hm).ne']
      exact stored_of_isCanonical (u := .infinity .positive) trivial

theorem Rounds.value_eq (h : Rounds x u) (hx : IsOnGrid x) : value u = x := h.2.eq_of_isOnGrid hx

theorem isOnGrid_zero : IsOnGrid 0 := isOnGrid_value (u := .zero .positive) trivial

/-- Rounded results are in the order of the exact ones. -/
theorem value_le_of_rounds {f : UnpackedFloat → UnpackedFloat} {g : ℚ → ℚ}
    (hrounds : ∀ u, IsFinite u → Rounds (g (value u)) (f u)) (hg : Function.Injective g)
    (hzero : IsOnGrid (g 0)) (hu : IsFinite u) (hv : IsFinite v)
    (hle : g (value u) ≤ g (value v)) : value (f u) ≤ value (f v) := by
  rcases hle.lt_or_eq with hlt | heq
  · exact (hrounds u hu).value_le (hrounds v hv) hlt
  · rcases eq_or_zero_of_value_eq hu hv (hg heq) with rfl | ⟨⟨s, rfl⟩, s', rfl⟩
    · exact le_rfl
    · exact ((hrounds _ hu).value_eq hzero).trans_le ((hrounds _ hv).value_eq hzero).ge

theorem minus_le_minus_left (hu : IsFinite u) (hv : IsFinite v) (hw : IsFinite w)
    (hle : value u ≤ value v) : value (minus w v) ≤ value (minus w u) :=
  value_le_of_rounds (g := (value w - ·)) (fun _ => rounds_minus hw) sub_right_injective
    (by simpa using isOnGrid_value hw.1) hv hu (sub_le_sub_left hle _)

theorem minus_le_minus_right (hu : IsFinite u) (hv : IsFinite v) (hw : IsFinite w)
    (hle : value u ≤ value v) : value (minus u w) ≤ value (minus v w) :=
  value_le_of_rounds (f := (minus · w)) (g := (· - value w)) (fun _ hu => rounds_minus hu hw)
    sub_left_injective (by simpa using (isOnGrid_value hw.1).neg) hu hv (sub_le_sub_right hle _)

theorem times_le_times (hu : IsFinite u) (hv : IsFinite v) (hw : IsFinite w)
    (hnonneg : 0 ≤ value w) (hle : value u ≤ value v) : value (times w u) ≤ value (times w v) := by
  rcases hnonneg.eq_or_lt with hzero | hpos
  · have hu := rounds_times hw hu
    have hv := rounds_times hw hv
    rw [← hzero, zero_mul] at hu hv
    exact (hu.value_eq isOnGrid_zero).trans_le (hv.value_eq isOnGrid_zero).ge
  · exact value_le_of_rounds (g := (value w * ·)) (fun _ => rounds_times hw)
      (mul_right_injective₀ hpos.ne') (by simpa using isOnGrid_zero) hu hv
      (mul_le_mul_of_nonneg_left hle hnonneg)

theorem isFinite_of_lt (hu : IsCanonical u) (hnumber : u ≠ .notANumber) (hlow : -limit < value u)
    (hhigh : value u < limit) : IsFinite u := by
  refine ⟨hu, ?_⟩
  cases u with
  | notANumber => exact absurd rfl hnumber
  | infinity s =>
    cases s with
    | negative => exact absurd value_infinity_negative hlow.ne'
    | positive => exact absurd value_infinity_positive hhigh.ne
  | zero s => rfl
  | finite s m e hm => rfl

/-- A result is between the floats that the exact result is between. -/
theorem Rounds.bounds (h : Rounds x u) (hlow : IsOnGrid y) (hhigh : IsOnGrid z) (hyx : y ≤ x)
    (hxz : x ≤ z) : y ≤ value u ∧ value u ≤ z :=
  ⟨h.2.le_of_isOnGrid_le hlow hyx, h.2.le_of_le_isOnGrid hhigh hxz⟩

theorem Rounds.isFinite (h : Rounds x u) (hu : IsCanonical u) (hlow : IsOnGrid y)
    (hhigh : IsOnGrid z) (hyx : y ≤ x) (hxz : x ≤ z) (hy : -limit < y) (hz : z < limit) :
    IsFinite u :=
  have hbounds := h.bounds hlow hhigh hyx hxz
  isFinite_of_lt hu h.1 (hy.trans_le hbounds.1) (hbounds.2.trans_lt hz)

/-- Numbers that are not below zero are finite, or greater than all that are. -/
theorem Rounds.isFinite_or (h : Rounds x u) (hu : IsCanonical u) (hx : 0 ≤ x) :
    IsFinite u ∨ u = .infinity .positive := by
  have hnonneg : 0 ≤ value u := h.2.le_of_isOnGrid_le isOnGrid_zero hx
  cases u with
  | notANumber => exact absurd rfl h.1
  | infinity s =>
    cases s with
    | negative =>
      rw [value_infinity_negative] at hnonneg
      exact absurd hnonneg (neg_lt_zero.mpr limit_pos).not_ge
    | positive => exact .inr rfl
  | zero s => exact .inl ⟨hu, rfl⟩
  | finite s m e hm => exact .inl ⟨hu, rfl⟩

end StructureGraph.Binary64
