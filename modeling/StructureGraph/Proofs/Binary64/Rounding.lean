import StructureGraph.Proofs.Binary64.Value

namespace StructureGraph.Binary64

open Float.Model
open Float.Model.UnpackedFloat (ExtendedMantissa Sign)

variable {u : UnpackedFloat} {m n r : ℕ} {e t : ℤ} {x y : ℚ} {em : ExtendedMantissa}

/-- A mantissa less its last places, with what these are as compared with half of the place before. -/
structure IsShifted (m n : ℕ) (em : ExtendedMantissa) : Prop where
  mantissa : em.mantissa = m / 2 ^ n
  roundBit : em.roundBit = true ↔ 2 ^ n ≤ 2 * (m % 2 ^ n)
  stickyBit : em.stickyBit = true ↔ m % 2 ^ n ≠ 0 ∧ 2 * (m % 2 ^ n) ≠ 2 ^ n

theorem isShifted_zero (m : ℕ) : IsShifted m 0 (.ofMantissaAndAccuracy m .exact) := by
  constructor <;> simp [ExtendedMantissa.ofMantissaAndAccuracy, Nat.mod_one]

private theorem IsShifted.shiftRightOne (h : IsShifted m n em) : IsShifted m (n + 1) em.shiftRightOne := by
  have hpower : 2 ^ (n + 1) = 2 * 2 ^ n := Nat.pow_succ'
  have hlost : m % 2 ^ (n + 1) = m % 2 ^ n + 2 ^ n * (m / 2 ^ n % 2) := Nat.mod_pow_succ
  have hlt : m % 2 ^ n < 2 ^ n := Nat.mod_lt _ (by positivity)
  constructor
  case mantissa =>
    rw [Nat.pow_succ, ← Nat.div_div_eq_div_mul, ← h.mantissa]
    rfl
  case roundBit =>
    simp only [ExtendedMantissa.shiftRightOne, h.mantissa, bne_iff_ne]
    rw [hlost, hpower]
    rcases Nat.mod_two_eq_zero_or_one (m / 2 ^ n) with hd | hd <;> rw [hd] <;> omega
  case stickyBit =>
    simp only [ExtendedMantissa.shiftRightOne, Bool.or_eq_true, h.roundBit, h.stickyBit]
    rw [hlost, hpower]
    rcases Nat.mod_two_eq_zero_or_one (m / 2 ^ n) with hd | hd <;> rw [hd] <;> omega

theorem isShifted_shiftRight (m n : ℕ) :
    IsShifted m n (ExtendedMantissa.ofMantissaAndAccuracy m .exact >>> n) := by
  induction n with
  | zero => exact isShifted_zero m
  | succ n ih => exact ih.shiftRightOne

/-- What is lost is rounded off if it is less than half of the last place, and up if it is more. -/
theorem IsShifted.roundedMantissa (h : IsShifted m n em) :
    em.roundedMantissa = m / 2 ^ n ∧ 2 * (m % 2 ^ n) ≤ 2 ^ n ∨
      em.roundedMantissa = m / 2 ^ n + 1 ∧ 2 ^ n ≤ 2 * (m % 2 ^ n) := by
  obtain ⟨q, roundBit, stickyBit⟩ := em
  obtain ⟨hq, hround, hsticky⟩ := h
  rw [← hq]
  cases roundBit <;> cases stickyBit
  case false.false =>
    exact .inl ⟨rfl, by simp at hround; omega⟩
  case false.true =>
    exact .inl ⟨rfl, by simp at hround; omega⟩
  case true.false =>
    have htie : 2 * (m % 2 ^ n) = 2 ^ n := by simp at hround hsticky; omega
    rcases Nat.mod_two_eq_zero_or_one q with heven | hodd
    · exact .inl ⟨congrArg (q + ·) heven, htie.le⟩
    · exact .inr ⟨congrArg (q + ·) hodd, htie.ge⟩
  case true.true =>
    exact .inr ⟨rfl, by simpa using hround⟩

/-- At most half of the last place is lost or gained. -/
theorem IsShifted.abs_sub_le (h : IsShifted m n em) :
    |(em.roundedMantissa : ℚ) * 2 ^ n - m| ≤ 2 ^ n / 2 := by
  have hm : (2 : ℚ) ^ n * (m / 2 ^ n : ℕ) + (m % 2 ^ n : ℕ) = m := by
    exact_mod_cast Nat.div_add_mod m (2 ^ n)
  have hlt : ((m % 2 ^ n : ℕ) : ℚ) < 2 ^ n := by
    exact_mod_cast Nat.mod_lt m (by positivity : 0 < 2 ^ n)
  rcases h.roundedMantissa with ⟨hround, hrest⟩ | ⟨hround, hrest⟩
  · have hrest : 2 * ((m % 2 ^ n : ℕ) : ℚ) ≤ 2 ^ n := by exact_mod_cast hrest
    rw [hround, abs_le]
    constructor <;> nlinarith
  · have hrest : (2 : ℚ) ^ n ≤ 2 * ((m % 2 ^ n : ℕ) : ℚ) := by exact_mod_cast hrest
    rw [hround, abs_le]
    push_cast
    constructor <;> nlinarith

private theorem two_zpow_pos (t : ℤ) : (0 : ℚ) < 2 ^ t := by
  positivity

private theorem two_zpow_sub_one (t : ℤ) : (2 : ℚ) ^ (t - 1) = 2 ^ t / 2 :=
  zpow_sub_one₀ (by norm_num) t

/-- A number rounded to a whole mantissa. The mantissa has all its bits unless the exponent is the least. -/
structure IsRounded (x : ℚ) (r : ℕ) (t : ℤ) : Prop where
  near : |r * 2 ^ t - x| ≤ 2 ^ t / 2
  least_le : -1074 ≤ t
  lt : x < 2 ^ 53 * 2 ^ t
  full : t = -1074 ∨ 2 ^ 52 * 2 ^ t ≤ x

theorem IsRounded.le (h : IsRounded x r t) : r ≤ 2 ^ 53 := by
  have hstep := two_zpow_pos t
  have hnear := (abs_le.mp h.near).2
  have hlt : (r : ℚ) * 2 ^ t < (2 ^ 53 + 1) * 2 ^ t := by linarith [h.lt]
  have hr : (r : ℚ) < 2 ^ 53 + 1 := lt_of_mul_lt_mul_right hlt hstep.le
  exact Nat.lt_succ_iff.mp (by exact_mod_cast hr)

private theorem IsRounded.isFull (h : IsRounded x r t) : t = -1074 ∨ 2 ^ 52 ≤ r := by
  refine h.full.imp_right fun hfull => ?_
  have hstep := two_zpow_pos t
  have hnear := (abs_le.mp h.near).1
  have hlt : (2 ^ 52 - 1 : ℚ) * 2 ^ t < r * 2 ^ t := by linarith
  have hr : (2 : ℚ) ^ 52 < r + 1 := by linarith [lt_of_mul_lt_mul_right hlt hstep.le]
  exact Nat.lt_succ_iff.mp (by exact_mod_cast hr)

/-- No multiple of the last place is nearer. -/
theorem IsRounded.le_abs_multiple (h : IsRounded x r t) (k : ℤ) :
    |r * 2 ^ t - x| ≤ |k * 2 ^ t - x| := by
  have hstep := two_zpow_pos t
  rcases eq_or_ne (r : ℤ) k with hk | hk
  · rw [← hk, Int.cast_natCast]
  · have hapart : (1 : ℚ) ≤ |(r : ℚ) - k| := by
      exact_mod_cast Int.one_le_abs (sub_ne_zero.mpr hk)
    have htriangle : |(r : ℚ) - k| * 2 ^ t ≤ |r * 2 ^ t - x| + |k * 2 ^ t - x| := by
      rw [← abs_of_pos hstep, ← abs_mul, abs_of_pos hstep, sub_mul]
      calc |(r : ℚ) * 2 ^ t - k * 2 ^ t| = |(r * 2 ^ t - x) - (k * 2 ^ t - x)| := by ring_nf
        _ ≤ |r * 2 ^ t - x| + |k * 2 ^ t - x| := abs_sub _ _
    nlinarith [h.near]

/-- Multiples of lesser places lie below a number whose mantissa has all its bits. -/
theorem IsRounded.le_abs (h : IsRounded x r t) {a b : ℤ} (ha : |a| ≤ 2 ^ 53) (hb : -1074 ≤ b) :
    |r * 2 ^ t - x| ≤ |a * 2 ^ b - x| := by
  rcases le_or_gt t b with hle | hgt
  · have hmultiple : (a : ℚ) * 2 ^ b = (a * 2 ^ (b - t).toNat : ℤ) * 2 ^ t := by
      push_cast
      rw [mul_assoc, ← zpow_natCast, Int.toNat_of_nonneg (by omega), ← zpow_add₀ (by norm_num),
        sub_add_cancel]
    rw [hmultiple]
    exact h.le_abs_multiple _
  · have hfull : 2 ^ 52 * 2 ^ t ≤ x := h.full.resolve_left (by omega)
    have hmantissa : (a : ℚ) ≤ 2 ^ 53 := by exact_mod_cast (abs_le.mp ha).2
    have hpower : (2 : ℚ) ^ b ≤ 2 ^ (t - 1) := zpow_le_zpow_right₀ (by norm_num) (by omega)
    have hbelow : (a : ℚ) * 2 ^ b ≤ 2 ^ 52 * 2 ^ t := by
      calc (a : ℚ) * 2 ^ b ≤ 2 ^ 53 * 2 ^ b := by gcongr
        _ ≤ 2 ^ 53 * 2 ^ (t - 1) := by gcongr
        _ = 2 ^ 52 * 2 ^ t := by rw [two_zpow_sub_one]; ring
    have hleast := h.le_abs_multiple (2 ^ 52)
    rw [Int.cast_pow, Int.cast_ofNat] at hleast
    calc |r * 2 ^ t - x| ≤ |2 ^ 52 * 2 ^ t - x| := hleast
      _ = x - 2 ^ 52 * 2 ^ t := by rw [abs_sub_comm, abs_of_nonneg (sub_nonneg.mpr hfull)]
      _ ≤ x - a * 2 ^ b := by linarith
      _ ≤ |a * 2 ^ b - x| := by rw [abs_sub_comm]; exact le_abs_self _

theorem IsRounded.isNearest (h : IsRounded x r t) (ht : t ≤ 971) : IsNearest x (r * 2 ^ t) := by
  refine ⟨⟨r, t, ?_, h.least_le, ht, by push_cast; rfl⟩, ?_⟩
  · have hr := h.le
    rw [abs_of_nonneg (by positivity)]
    exact_mod_cast hr
  · rintro z ⟨a, b, ha, hb, -, rfl⟩
    exact h.le_abs ha hb

private theorem IsRounded.isNearest_limit (h : IsRounded x r t) (ht : 971 < t) : IsNearest x limit := by
  have hfull : 2 ^ 52 * 2 ^ t ≤ x := h.full.resolve_left (by omega)
  have hpower : (2 : ℚ) ^ (971 : ℤ) ≤ 2 ^ (t - 1) := zpow_le_zpow_right₀ (by norm_num) (by omega)
  have hbeyond : limit ≤ x := by
    calc limit ≤ 2 ^ 53 * 2 ^ (t - 1) := by unfold limit; gcongr
      _ = 2 ^ 52 * 2 ^ t := by rw [two_zpow_sub_one]; ring
      _ ≤ x := hfull
  refine ⟨isOnGrid_limit, fun z hz => ?_⟩
  have hle := hz.le_limit
  rw [abs_of_nonpos (by linarith), abs_of_nonpos (by linarith)]
  linarith

/-- The exponent of a number whose mantissa has all its bits, or the least exponent. -/
def placeOf (m : ℕ) (e : ℤ) : ℤ := max (m.log2 + 1 + e - 53) (-1074)

/-- The mantissa with that exponent. -/
def roundedTo (m : ℕ) (e : ℤ) : ℕ :=
  (ExtendedMantissa.ofMantissaAndAccuracy m .exact >>> (placeOf m e - e).toNat).roundedMantissa

private theorem isRounded_roundedTo (hm : 0 < m) (he : e ≤ placeOf m e) :
    IsRounded (m * 2 ^ e) (roundedTo m e) (placeOf m e) := by
  have hlog : (2 : ℚ) ^ (m.log2 : ℤ) ≤ m := by
    rw [zpow_natCast]
    exact_mod_cast Nat.log2_self_le hm.ne'
  have hlog' : (m : ℚ) < 2 ^ (m.log2 + 1 : ℤ) := by
    rw [← Nat.cast_succ, zpow_natCast]
    exact_mod_cast Nat.lt_log2_self
  have hplace : placeOf m e = max (m.log2 + 1 + e - 53) (-1074) := rfl
  constructor
  case near =>
    have hsplit : (2 : ℚ) ^ placeOf m e = 2 ^ (placeOf m e - e).toNat * 2 ^ e := by
      rw [← zpow_natCast, Int.toNat_of_nonneg (by omega), ← zpow_add₀ (by norm_num), sub_add_cancel]
    have hshift := (isShifted_shiftRight m (placeOf m e - e).toNat).abs_sub_le
    rw [hsplit, ← mul_assoc, ← sub_mul, abs_mul, abs_of_pos (two_zpow_pos e), mul_div_right_comm]
    exact mul_le_mul_of_nonneg_right hshift (two_zpow_pos e).le
  case least_le => exact le_max_right _ _
  case lt =>
    calc (m : ℚ) * 2 ^ e < 2 ^ (m.log2 + 1 : ℤ) * 2 ^ e := by gcongr
      _ = 2 ^ (m.log2 + 1 + e) := by rw [← zpow_add₀ (by norm_num)]
      _ ≤ 2 ^ (53 + placeOf m e) := zpow_le_zpow_right₀ (by norm_num) (by omega)
      _ = 2 ^ 53 * 2 ^ placeOf m e := zpow_add₀ (by norm_num) _ _
  case full =>
    refine (eq_or_ne (placeOf m e) (-1074)).imp_right fun hne => ?_
    calc (2 : ℚ) ^ 52 * 2 ^ placeOf m e = 2 ^ (52 + placeOf m e) := (zpow_add₀ (by norm_num) _ _).symm
      _ = 2 ^ ((m.log2 : ℤ) + e) := by congr 1; omega
      _ = 2 ^ (m.log2 : ℤ) * 2 ^ e := zpow_add₀ (by norm_num) _ _
      _ ≤ m * 2 ^ e := by gcongr

private theorem shiftToTargetExponent_eq (m : ℕ) (e : ℤ) :
    UnpackedFloat.shiftToTargetExponent .binary64 m e .exact =
      (ExtendedMantissa.ofMantissaAndAccuracy m .exact >>> (placeOf m e - e).toNat,
        e + (placeOf m e - e).toNat) := rfl

private theorem placeOf_le (hr : r < 2 ^ 53) (ht : -1074 ≤ t) : placeOf r t ≤ t := by
  have hlog : r.log2 < 53 := by
    rcases eq_or_ne r 0 with rfl | hne
    · simp
    · exact (Nat.log2_lt hne).mpr hr
  unfold placeOf
  omega

/-- A mantissa that fits is not shifted again. -/
theorem shiftToTargetExponent_of_lt (hr : r < 2 ^ 53) (ht : -1074 ≤ t) :
    UnpackedFloat.shiftToTargetExponent .binary64 r t .exact = (⟨r, false, false⟩, t) := by
  have hplace := placeOf_le hr ht
  have hzero : (placeOf r t - t).toNat = 0 := by omega
  rw [shiftToTargetExponent_eq, hzero, Int.natCast_zero, add_zero]
  rfl

/-- A mantissa that was rounded up to one place more is shifted by that place. -/
theorem shiftToTargetExponent_of_eq (ht : -1074 ≤ t) :
    UnpackedFloat.shiftToTargetExponent .binary64 (2 ^ 53) t .exact =
      (⟨2 ^ 52, false, false⟩, t + 1) := by
  have hplace : placeOf (2 ^ 53) t = t + 1 := by
    rw [placeOf, Nat.log2_two_pow]
    omega
  have hone : (placeOf (2 ^ 53) t - t).toNat = 1 := by omega
  rw [shiftToTargetExponent_eq, hone]
  rfl

private theorem roundWithAccuracy_eq (s : Sign) (hm : 0 < m) (he : e ≤ placeOf m e) :
    UnpackedFloat.roundWithAccuracy .binary64 s m e .exact =
      if h : roundedTo m e = 0 then .zero s
      else if roundedTo m e < 2 ^ 53 then
        .finite s (roundedTo m e) (placeOf m e) (Nat.pos_of_ne_zero h)
      else .finite s (2 ^ 52) (placeOf m e + 1) (Nat.two_pow_pos 52) := by
  have hrounded := isRounded_roundedTo hm he
  have hfirst : e + (placeOf m e - e).toNat = placeOf m e := by omega
  unfold UnpackedFloat.roundWithAccuracy
  rw [shiftToTargetExponent_eq, hfirst]
  change (match UnpackedFloat.shiftToTargetExponent .binary64 (roundedTo m e) (placeOf m e) .exact with
    | (em, t) => if h : em.mantissa = 0 then UnpackedFloat.zero s
      else .finite s em.mantissa t (Nat.pos_of_ne_zero h)) = _
  rcases hrounded.le.lt_or_eq with hlt | heq
  · rw [shiftToTargetExponent_of_lt hlt hrounded.least_le]
    simp only [hlt, if_true]
  · have hplace := shiftToTargetExponent_of_eq hrounded.least_le
    rw [← heq] at hplace
    rw [hplace]
    simp [heq]

/-- A float that stands for a number nearest to the given one. -/
def Rounds (x : ℚ) (u : UnpackedFloat) : Prop := u ≠ .notANumber ∧ IsNearest x (value u)

theorem rounds_stored (h : IsCanonical u) (hu : u ≠ .notANumber) : Rounds (value u) (stored u) := by
  rw [stored_of_isCanonical h]
  exact ⟨hu, (isOnGrid_value h).isNearest⟩

theorem rounds_stored_zero (s : Sign) : Rounds 0 (stored (.zero s)) :=
  rounds_stored (u := .zero s) trivial (zero_ne_notANumber s)

theorem IsNearest.apply (h : IsNearest x y) (s : Sign) :
    IsNearest (s.apply 1 * x) (s.apply 1 * y) := by
  cases s with
  | negative => simpa [Sign.apply] using h.neg
  | positive => simpa [Sign.apply] using h

private theorem IsRounded.rounds_finite (h : IsRounded x r t) (s : Sign) (hr : 0 < r) (hlt : r < 2 ^ 53) :
    Rounds (s.apply 1 * x) (stored (.finite s r t hr)) := by
  rcases le_or_gt t 971 with hle | hgt
  · rw [stored_finite hr ⟨hlt, h.least_le, hle, h.isFull.symm⟩]
    exact ⟨finite_ne_notANumber hr, (h.isNearest hle).apply s⟩
  · rw [stored_of_lt hr hgt]
    exact ⟨infinity_ne_notANumber s, (h.isNearest_limit hgt).apply s⟩

/-- A mantissa with one place too many is written with the next exponent. -/
theorem IsRounded.rounds_carried (h : IsRounded x (2 ^ 53) t) (s : Sign) :
    Rounds (s.apply 1 * x) (stored (.finite s (2 ^ 52) (t + 1) (Nat.two_pow_pos 52))) := by
  have hlow := h.least_le
  have hcarried : ((2 ^ 53 : ℕ) : ℚ) * 2 ^ t = (2 ^ 52 : ℕ) * 2 ^ (t + 1) := by
    rw [zpow_add_one₀ (by norm_num)]
    push_cast
    ring
  rcases lt_trichotomy t 971 with hlt | rfl | hgt
  · rw [stored_finite _ ⟨by norm_num, by omega, by omega, .inl le_rfl⟩]
    have hnearest := (h.isNearest hlt.le).apply s
    rw [hcarried] at hnearest
    exact ⟨finite_ne_notANumber _, hnearest⟩
  · rw [stored_of_lt _ (by norm_num)]
    have hnearest := (h.isNearest le_rfl).apply s
    rw [Nat.cast_pow, Nat.cast_ofNat] at hnearest
    exact ⟨infinity_ne_notANumber s, hnearest⟩
  · rw [stored_of_lt _ (by omega)]
    exact ⟨infinity_ne_notANumber s, (h.isNearest_limit hgt).apply s⟩

theorem rounds_roundWithAccuracy (s : Sign) (hm : 0 < m) (he : e ≤ placeOf m e) :
    Rounds (s.apply 1 * (m * 2 ^ e)) (stored (.roundWithAccuracy .binary64 s m e .exact)) := by
  have hrounded := isRounded_roundedTo hm he
  rw [roundWithAccuracy_eq s hm he]
  rcases Nat.eq_zero_or_pos (roundedTo m e) with hzero | hpos
  · rw [dif_pos hzero, stored_zero]
    have hplace : placeOf m e = -1074 := hrounded.isFull.resolve_right (by omega)
    have hnearest := (hrounded.isNearest (by omega)).apply s
    rw [hzero, Nat.cast_zero, zero_mul, mul_zero] at hnearest
    exact ⟨zero_ne_notANumber s, hnearest⟩
  · rw [dif_neg hpos.ne']
    rcases hrounded.le.lt_or_eq with hlt | heq
    · rw [if_pos hlt]
      exact hrounded.rounds_finite s hpos hlt
    · rw [if_neg heq.not_lt]
      rw [heq] at hrounded
      exact hrounded.rounds_carried s

/-- Writing a number with a lesser exponent does not change it. -/
theorem decreaseExponent_value (m : ℕ) (e t : ℤ) :
    ((UnpackedFloat.decreaseExponent m e t).1 : ℚ) * 2 ^ (UnpackedFloat.decreaseExponent m e t).2 =
      m * 2 ^ e := by
  simp only [UnpackedFloat.decreaseExponent, Nat.shiftLeft_eq]
  push_cast
  rw [mul_assoc, ← zpow_natCast, ← zpow_add₀ (by norm_num)]
  congr 2
  omega

theorem log2_shiftLeft (hm : 0 < m) (n : ℕ) : (m <<< n).log2 = m.log2 + n := by
  rw [Nat.shiftLeft_eq, Nat.log2_eq_iff (by positivity), Nat.pow_add, add_right_comm, Nat.pow_add]
  exact ⟨Nat.mul_le_mul_right _ (Nat.log2_self_le hm.ne'),
    Nat.mul_lt_mul_of_pos_right Nat.lt_log2_self (by positivity)⟩

private theorem rounds_round (s : Sign) (hm : 0 < m) (e : ℤ) :
    Rounds (s.apply 1 * (m * 2 ^ e)) (stored (.round .binary64 s m e)) := by
  have hplace : e - (e - placeOf m e).toNat ≤
      placeOf (m <<< (e - placeOf m e).toNat) (e - (e - placeOf m e).toNat) := by
    unfold placeOf
    rw [log2_shiftLeft hm]
    omega
  have hpos : 0 < m <<< (e - placeOf m e).toNat := by
    rw [Nat.shiftLeft_eq]
    positivity
  rw [← decreaseExponent_value m e (placeOf m e)]
  exact rounds_roundWithAccuracy s hpos hplace

theorem rounds_normalize (k e : ℤ) (s : Sign) :
    Rounds (k * 2 ^ e) (stored (.normalize .binary64 k e s)) := by
  unfold UnpackedFloat.normalize
  rcases lt_trichotomy k 0 with hlt | rfl | hgt
  · rw [compare_lt_iff_lt.mpr hlt]
    have hmagnitude : (((-k).toNat : ℕ) : ℚ) = -k := by
      exact_mod_cast Int.toNat_of_nonneg (neg_nonneg.mpr hlt.le)
    have hrounds := rounds_round .negative (m := (-k).toNat) (by omega) e
    rw [hmagnitude] at hrounds
    simpa [Sign.apply] using hrounds
  · rw [compare_eq_iff_eq.mpr rfl, Int.cast_zero, zero_mul]
    exact rounds_stored_zero s
  · rw [compare_gt_iff_gt.mpr hgt]
    have hmagnitude : ((k.toNat : ℕ) : ℚ) = k := by
      exact_mod_cast Int.toNat_of_nonneg hgt.le
    have hrounds := rounds_round .positive (m := k.toNat) (by omega) e
    rw [hmagnitude] at hrounds
    simpa [Sign.apply] using hrounds

end StructureGraph.Binary64
