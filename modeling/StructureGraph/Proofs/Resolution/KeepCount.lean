import StructureGraph.Proofs.Binary64.Conversion
import StructureGraph.Proofs.Resolution.ExactCount
import StructureGraph.Proofs.Resolution.Ranking

namespace StructureGraph.Resolution

open Float.Model (UnpackedFloat)
open StructureGraph.Binary64

variable {c : CallCounts} {keep keep' : Nat → Nat} {name : String} {total : Nat} {dropped : ℚ}
  {a b : Float} {p q : Share}

private theorem ceilNat_mono (ha : a.toModel.unpack ≠ .notANumber) (hb : b.toModel.unpack ≠ .notANumber)
    (h : value a.toModel.unpack ≤ value b.toModel.unpack) : ceilNat a ≤ ceilNat b := by
  have hwhole : a.toUInt64.toNat ≤ b.toUInt64.toNat := by
    change a.toModel.unpack.toUInt64.toNat ≤ b.toModel.unpack.toUInt64.toNat
    rw [toNat_toUInt64, toNat_toUInt64]
    exact min_le_min_right _ (Nat.floor_mono h)
  have habove : a.toUInt64.toNat = b.toUInt64.toNat → Float.ofNat a.toUInt64.toNat < a →
      Float.ofNat b.toUInt64.toNat < b := by
    intro heq hlt
    have hnumber := (rounds_ofNat b.toUInt64.toNat).1
    rw [heq, lt_iff hnumber ha] at hlt
    exact (lt_iff hnumber hb).mpr (hlt.trans_le h)
  unfold ceilNat
  dsimp only
  split
  case isTrue hlt =>
    split
    case isTrue => exact Nat.succ_le_succ hwhole
    case isFalse hnot =>
      have hne : a.toUInt64.toNat ≠ b.toUInt64.toNat := fun heq => hnot (habove heq hlt)
      omega
  case isFalse => split <;> omega

private theorem ceilNat_of_notANumber (ha : a.toModel.unpack = .notANumber) : ceilNat a = 0 := by
  have hwhole : a.toUInt64.toNat = 0 := by
    change a.toModel.unpack.toUInt64.toNat = 0
    rw [ha]
    rfl
  rw [ceilNat, if_neg (not_lt_of_notANumber ha), hwhole]

/-- Numbers that have all whole places are rounded up exactly. -/
theorem ceilNat_eq (ha : IsFinite a.toModel.unpack) (h : value a.toModel.unpack ≤ 2 ^ 53) :
    ceilNat a = ⌈value a.toModel.unpack⌉₊ := by
  let whole := ⌊value a.toModel.unpack⌋₊
  have hle : whole ≤ 2 ^ 53 := by
    have hfloor := Nat.floor_mono h
    rwa [show (2 ^ 53 : ℚ) = (2 ^ 53 : ℕ) by norm_num, Nat.floor_natCast] at hfloor
  have hwhole : a.toUInt64.toNat = whole := by
    change a.toModel.unpack.toUInt64.toNat = whole
    rw [toNat_toUInt64]
    exact Nat.min_eq_left (hle.trans (by norm_num))
  have habove : Float.ofNat whole < a ↔ (whole : ℚ) < value a.toModel.unpack := by
    have hrounds := rounds_ofNat whole
    rw [lt_iff hrounds.1 ha.ne_notANumber, hrounds.value_eq (isOnGrid_natCast hle)]
  unfold ceilNat
  dsimp only
  rw [hwhole]
  split
  case isTrue hlt =>
    rw [habove] at hlt
    exact ((Nat.ceil_eq_iff (Nat.succ_ne_zero whole)).mpr
      ⟨hlt, by exact_mod_cast (Nat.lt_floor_add_one _).le⟩).symm
  case isFalse hnot =>
    rw [habove] at hnot
    exact le_antisymm (Nat.floor_le_ceil _) (Nat.ceil_le.mpr (not_lt.mp hnot))

/-- A share as it is unpacked. -/
def Share.form (p : Share) : UnpackedFloat := p.value.toModel.unpack

/-- What is left of a whole when a share of it is dropped. -/
def Share.left (p : Share) : UnpackedFloat := minus one p.form

/-- A number of methods as a float. -/
def wholeForm (total : Nat) : UnpackedFloat := (Float.ofNat total).toModel.unpack

/-- What is left of so many methods. -/
def part (total : Nat) (p : Share) : UnpackedFloat := times (wholeForm total) p.left

private theorem isFinite_form (p : Share) : IsFinite p.form ∧ 0 ≤ value p.form ∧ value p.form ≤ 1 := by
  obtain ⟨hlow, hhigh⟩ := p.inRange
  have hzero : (0.0 : Float).toModel.unpack = .zero .positive := rfl
  have hone : (1.0 : Float).toModel.unpack = one := rfl
  have hnumber := (ne_notANumber_of_le hlow).2
  rw [le_iff (hzero ▸ zero_ne_notANumber _) hnumber, hzero] at hlow
  rw [le_iff hnumber (hone ▸ isFinite_one.ne_notANumber), hone, value_one] at hhigh
  exact ⟨isFinite_of_lt (isCanonical_unpacked _) hnumber (neg_limit_lt hlow)
    (lt_limit (hhigh.trans (by norm_num))), hlow, hhigh⟩

private theorem form_le (h : p.value ≤ q.value) : value p.form ≤ value q.form :=
  (le_iff (isFinite_form p).1.ne_notANumber (isFinite_form q).1.ne_notANumber).mp h

private theorem rounds_left (p : Share) : Rounds (1 - value p.form) p.left := by
  rw [← value_one]
  exact rounds_minus isFinite_one (isFinite_form p).1

private theorem isFinite_left (p : Share) : IsFinite p.left ∧ 0 ≤ value p.left ∧ value p.left ≤ 1 := by
  obtain ⟨-, hlow, hhigh⟩ := isFinite_form p
  have hone : IsOnGrid 1 := by exact_mod_cast isOnGrid_natCast (n := 1) (by norm_num)
  have hlow' : 0 ≤ 1 - value p.form := sub_nonneg.mpr hhigh
  have hhigh' : 1 - value p.form ≤ 1 := sub_le_self 1 hlow
  exact ⟨(rounds_left p).isFinite (isCanonical_stored _) isOnGrid_zero hone hlow' hhigh'
    (neg_limit_lt le_rfl) (lt_limit (by norm_num)),
    (rounds_left p).bounds isOnGrid_zero hone hlow' hhigh'⟩

private theorem left_le (h : p.value ≤ q.value) : value q.left ≤ value p.left :=
  minus_le_minus_left (isFinite_form p).1 (isFinite_form q).1 isFinite_one (form_le h)

private theorem value_wholeForm_nonneg (total : Nat) : 0 ≤ value (wholeForm total) :=
  (rounds_ofNat total).2.le_of_isOnGrid_le isOnGrid_zero (Nat.cast_nonneg total)

private theorem isFinite_part (htotal : IsFinite (wholeForm total)) (p : Share) :
    IsFinite (part total p) ∧ 0 ≤ value (part total p) ∧ value (part total p) ≤ value (wholeForm total) := by
  obtain ⟨hleft, hlow, hhigh⟩ := isFinite_left p
  have hrounds := rounds_times htotal hleft
  have hgrid := isOnGrid_value htotal.1
  have hlow' := mul_nonneg (value_wholeForm_nonneg total) hlow
  have hhigh' := mul_le_of_le_one_right (value_wholeForm_nonneg total) hhigh
  exact ⟨hrounds.isFinite (isCanonical_stored _) isOnGrid_zero hgrid hlow' hhigh'
    (neg_limit_lt le_rfl) (value_bounds_of_isFinite htotal.1 htotal.2).2,
    hrounds.bounds isOnGrid_zero hgrid hlow' hhigh'⟩

/-- What is left of so many methods, less the slack. -/
def rawCount (total : Nat) (p : Share) : Float := Float.ofNat total * (Float.ofNat 1 - p.value) - slack

private theorem keepCount_eq (total : Nat) (p : Share) :
    keepCount total p.value = clampKept total (ceilNat (rawCount total p)) := rfl

private theorem unpack_rawCount (total : Nat) (p : Share) :
    (rawCount total p).toModel.unpack = minus (part total p) slack.toModel.unpack := rfl

private theorem isFinite_slack : IsFinite slack.toModel.unpack := ⟨isCanonical_unpacked _, rfl⟩

private theorem ceilNat_rawCount_le_of_isFinite (h : p.value ≤ q.value)
    (htotal : IsFinite (wholeForm total)) :
    ceilNat (rawCount total q) ≤ ceilNat (rawCount total p) := by
  have hp := (isFinite_part htotal p).1
  have hq := (isFinite_part htotal q).1
  have hpart : value (part total q) ≤ value (part total p) :=
    times_le_times (isFinite_left q).1 (isFinite_left p).1 htotal (value_wholeForm_nonneg total)
      (left_le h)
  exact ceilNat_mono (rounds_minus hq isFinite_slack).1 (rounds_minus hp isFinite_slack).1
    (minus_le_minus_right hq hp isFinite_slack hpart)

private theorem unpack_rawCount_of_infinite (p : Share) (htotal : wholeForm total = .infinity .positive) :
    (rawCount total p).toModel.unpack =
      if value p.left = 0 then .notANumber else .infinity .positive := by
  obtain ⟨hleft, hnonneg, -⟩ := isFinite_left p
  rw [unpack_rawCount, part, htotal, times_infinity hleft.2 hnonneg]
  split
  case isTrue => exact minus_notANumber _
  case isFalse => exact minus_infinity _ isFinite_slack.2

private theorem ceilNat_rawCount_le_of_infinite (h : p.value ≤ q.value)
    (htotal : wholeForm total = .infinity .positive) :
    ceilNat (rawCount total q) ≤ ceilNat (rawCount total p) := by
  have hp := unpack_rawCount_of_infinite p htotal
  have hq := unpack_rawCount_of_infinite q htotal
  rcases eq_or_ne (value q.left) 0 with hzero | hne
  · rw [if_pos hzero] at hq
    rw [ceilNat_of_notANumber hq]
    exact Nat.zero_le _
  · have hpos : 0 < value q.left := lt_of_le_of_ne (isFinite_left q).2.1 hne.symm
    rw [if_neg hne] at hq
    rw [if_neg (hpos.trans_le (left_le h)).ne'] at hp
    exact ceilNat_mono (hq ▸ infinity_ne_notANumber _) (hp ▸ infinity_ne_notANumber _)
      (le_of_eq (by rw [hp, hq]))

/-- Where a greater share is dropped, no more methods are kept. -/
theorem keepCount_antitone (h : p.value ≤ q.value) (total : Nat) :
    keepCount total q.value ≤ keepCount total p.value := by
  rw [keepCount_eq, keepCount_eq]
  refine clampKept_mono le_rfl ?_
  have hrounds := rounds_ofNat total
  rcases hrounds.isFinite_or (isCanonical_unpacked _) (Nat.cast_nonneg total) with htotal | htotal
  · exact ceilNat_rawCount_le_of_isFinite h htotal
  -- So many methods count as infinitely many, of which the slack takes nothing.
  · exact ceilNat_rawCount_le_of_infinite h htotal

private theorem abs_value_left_sub_le (hp : IsNearest dropped (value p.form)) (hlow : 0 ≤ dropped)
    (hhigh : dropped ≤ 1) : |value p.left - (1 - dropped)| ≤ 1 / 2 ^ 53 := by
  obtain ⟨-, hplow, hphigh⟩ := isFinite_form p
  have hroom : (2 : ℚ) ^ 53 * 2 ^ (-53 : ℤ) = 1 := by norm_num
  have hform : |value p.form - dropped| ≤ 2 ^ (-53 : ℤ) / 2 := by
    refine hp.abs_sub_le (by norm_num) (by norm_num) ?_
    rwa [hroom, abs_of_nonneg hlow]
  have hleft : |value p.left - (1 - value p.form)| ≤ 2 ^ (-53 : ℤ) / 2 := by
    refine (rounds_left p).2.abs_sub_le (by norm_num) (by norm_num) ?_
    rw [hroom, abs_of_nonneg] <;> linarith
  calc |value p.left - (1 - dropped)|
      ≤ |value p.left - (1 - value p.form)| + |1 - value p.form - (1 - dropped)| := abs_sub_le _ _ _
    _ = |value p.left - (1 - value p.form)| + |value p.form - dropped| := by
      rw [sub_sub_sub_cancel_left, abs_sub_comm dropped]
    _ ≤ 2 ^ (-53 : ℤ) / 2 + 2 ^ (-53 : ℤ) / 2 := add_le_add hleft hform
    _ = 1 / 2 ^ 53 := by norm_num

private theorem value_wholeForm (htotal : total ≤ 2 ^ 20) : value (wholeForm total) = total :=
  (rounds_ofNat total).value_eq (isOnGrid_natCast (htotal.trans (by norm_num)))

private theorem isFinite_wholeForm (htotal : total ≤ 2 ^ 20) : IsFinite (wholeForm total) :=
  isFinite_of_rounds (isCanonical_unpacked _) (rounds_ofNat total) (htotal.trans (by norm_num))

private theorem two_pow_mul_zpow : (2 : ℚ) ^ 53 * 2 ^ (-33 : ℤ) = 2 ^ 20 := by norm_num

private theorem abs_value_part_sub_le (hp : IsNearest dropped (value p.form)) (hlow : 0 ≤ dropped)
    (hhigh : dropped ≤ 1) (htotal : total ≤ 2 ^ 20) :
    |value (part total p) - total * (1 - dropped)| ≤ 3 / 2 ^ 34 := by
  obtain ⟨hleft, hleftlow, hlefthigh⟩ := isFinite_left p
  have hnonneg : (0 : ℚ) ≤ total := Nat.cast_nonneg total
  have hle : (total : ℚ) ≤ 2 ^ 20 := by exact_mod_cast htotal
  have hrounds := rounds_times (isFinite_wholeForm htotal) hleft
  rw [value_wholeForm htotal] at hrounds
  have hfits : |total * value p.left| ≤ 2 ^ 20 := by
    rw [abs_of_nonneg (mul_nonneg hnonneg hleftlow)]
    exact (mul_le_of_le_one_right hnonneg hlefthigh).trans hle
  have hpart : |value (part total p) - total * value p.left| ≤ 2 ^ (-33 : ℤ) / 2 :=
    hrounds.2.abs_sub_le (by norm_num) (by norm_num) (two_pow_mul_zpow ▸ hfits)
  have hexact : |total * value p.left - total * (1 - dropped)| ≤ 2 ^ 20 * (1 / 2 ^ 53) := by
    rw [← mul_sub, abs_mul, abs_of_nonneg hnonneg]
    exact mul_le_mul hle (abs_value_left_sub_le hp hlow hhigh) (abs_nonneg _) (by norm_num)
  calc |value (part total p) - total * (1 - dropped)|
      ≤ |value (part total p) - total * value p.left| + |total * value p.left - total * (1 - dropped)| :=
        abs_sub_le _ _ _
    _ ≤ 2 ^ (-33 : ℤ) / 2 + 2 ^ 20 * (1 / 2 ^ 53) := add_le_add hpart hexact
    _ = 3 / 2 ^ 34 := by norm_num

private theorem value_slack : |value slack.toModel.unpack - 1 / 10 ^ 9| ≤ 1 / 10 ^ 20 := by
  obtain ⟨hm, hslack⟩ : ∃ hm, slack.toModel.unpack = .finite .positive 4835703278458517 (-82) hm :=
    ⟨by norm_num, rfl⟩
  rw [hslack, value_positive]
  norm_num

/-- The floats differ from exact arithmetic by much less than the slack. -/
theorem abs_value_rawCount_sub_le (hp : IsNearest dropped (value p.form)) (hlow : 0 ≤ dropped)
    (hhigh : dropped ≤ 1) (htotal : total ≤ 2 ^ 20) :
    |value (rawCount total p).toModel.unpack - (total * (1 - dropped) - 1 / 10 ^ 9)| ≤
      1 / (2 * 10 ^ 9) := by
  obtain ⟨hpart, hpartlow, hparthigh⟩ := isFinite_part (isFinite_wholeForm htotal) p
  have hle : (total : ℚ) ≤ 2 ^ 20 := by exact_mod_cast htotal
  rw [value_wholeForm htotal] at hparthigh
  have hslack := abs_le.mp value_slack
  have hfits : |value (part total p) - value slack.toModel.unpack| ≤ 2 ^ 20 := by
    rw [abs_le]
    constructor <;> linarith
  have hraw : |value (rawCount total p).toModel.unpack -
      (value (part total p) - value slack.toModel.unpack)| ≤ 1 / 2 ^ 34 := by
    refine le_of_le_of_eq (b := 2 ^ (-33 : ℤ) / 2) ?_ (by norm_num)
    exact (rounds_minus hpart isFinite_slack).2.abs_sub_le (by norm_num) (by norm_num)
      (two_pow_mul_zpow ▸ hfits)
  have hexact := abs_le.mp (abs_value_part_sub_le hp hlow hhigh htotal)
  rw [abs_le] at hraw ⊢
  constructor <;> linarith

/-- If a share is the float nearest to a number of up to eight decimal places, then of up to a million
methods as many are kept as in exact arithmetic. -/
theorem keepCount_eq_exactKeepCount (hp : IsNearest dropped (value p.form)) (hlow : 0 ≤ dropped)
    (hhigh : dropped ≤ 1) (hplaces : HasPlaces 8 dropped) (htotal : total ≤ 2 ^ 20) :
    keepCount total p.value = exactKeepCount total dropped := by
  have hnear := abs_le.mp (abs_value_rawCount_sub_le hp hlow hhigh htotal)
  have hleft : 0 ≤ (total : ℚ) * (1 - dropped) :=
    mul_nonneg (Nat.cast_nonneg total) (sub_nonneg.mpr hhigh)
  have hall : (total : ℚ) * (1 - dropped) ≤ 2 ^ 20 :=
    (mul_le_of_le_one_right (Nat.cast_nonneg total) (sub_le_self 1 hlow)).trans (by exact_mod_cast htotal)
  have hplaces' := hasPlaces_left total hplaces
  have hceil : ⌈value (rawCount total p).toModel.unpack⌉ =
      ⌈(total : ℚ) * (1 - dropped) - 1 / 1000000000⌉ := by
    rw [ceil_sub_slack hplaces']
    exact ceil_eq_of_hasPlaces hplaces' (by linarith) (by linarith)
  have hfinite : IsFinite (rawCount total p).toModel.unpack := by
    have hpart := (isFinite_part (isFinite_wholeForm htotal) p).1
    refine isFinite_of_lt (isCanonical_unpacked _) (rounds_minus hpart isFinite_slack).1 ?_ ?_
    · exact (neg_lt_neg (lt_limit (x := 1) (by norm_num))).trans_le (by linarith)
    · exact lt_limit (by linarith)
  rw [keepCount_eq, exactKeepCount_eq, ceilNat_eq hfinite (by linarith), ← Int.ceil_toNat, hceil,
    Int.ceil_toNat]

/-- Without the slack there would be four. -/
example : keepCount 10 0.7 = 3 ∧ keepCountIn Float.ofNat 0.0 ceilNat 10 0.7 = 4 := by decide +kernel

/-- Where more methods are kept of a class of any size, none of the class is lost. -/
theorem methodsOf_keepRanked_sublist (h : ∀ total, keep total ≤ keep' total) :
    (methodsOf (keepRanked c keep) name).Sublist (methodsOf (keepRanked c keep') name) := by
  rw [methodsOf_keepRanked, methodsOf_keepRanked]
  refine List.monotone_filter_right _ fun e he => ?_
  rw [List.contains_iff_mem] at he ⊢
  exact keptOf_subset h he

private theorem methodsOf_significant_sublist (h : p.value ≤ q.value) (c : CallCounts) (name : String) :
    (methodsOf (significant q c) name).Sublist (methodsOf (significant p c) name) := by
  unfold significant
  by_cases hq : q.value ≤ 0.0
  · rw [if_pos hq, if_pos (le_of_le_of_le h hq)]
  · rw [if_neg hq]
    by_cases hp : p.value ≤ 0.0
    · rw [if_pos hp, methodsOf_keepRanked]
      exact List.filter_sublist
    · rw [if_neg hp]
      exact methodsOf_keepRanked_sublist (keepCount_antitone h)

/-- In exact arithmetic at least one method of a class is kept and at most all of them. There are as many
as the share leaves, rounded up, or one less, which is so only if the share has more than eight decimal
places. No more are kept where a greater share is dropped, and no fewer of more methods. Hence a greater
share leaves no method of any class that a lesser one does not, and with floats neither. -/
theorem keepCount_follows_formula {total : Nat} {dropped : ℚ} (htotal : 1 ≤ total)
    (hlow : 0 ≤ dropped) (hhigh : dropped ≤ 1) :
    let kept := exactKeepCount total dropped
    let formula : ℤ := max 1 ⌈(total : ℚ) * (1 - dropped)⌉
    (HasPlaces 8 dropped → kept = formula) ∧
    (kept = formula ∨ kept = formula - 1) ∧
    (1 ≤ kept ∧ kept ≤ total) ∧
    Antitone (exactKeepCount total) ∧
    Monotone (exactKeepCount · dropped) ∧
    (∀ greater, dropped ≤ greater → ∀ c name,
      (methodsOf (keepRanked c (exactKeepCount · greater)) name).Sublist
        (methodsOf (keepRanked c (exactKeepCount · dropped)) name)) ∧
    ∀ p q : Share, p.value ≤ q.value →
      (∀ total, keepCount total q.value ≤ keepCount total p.value) ∧
      ∀ c name, (methodsOf (significant q c) name).Sublist (methodsOf (significant p c) name) := by
  intro kept formula
  have hkept : (kept : ℤ) = max 1 ⌈(total : ℚ) * (1 - dropped) - 1 / 1000000000⌉ :=
    cast_exactKeepCount htotal hlow
  have hbound : (1 : ℤ) ≤ kept := by exact_mod_cast one_le_exactKeepCount total dropped
  refine ⟨fun hplaces => ?_, ?_, ⟨one_le_exactKeepCount _ _, exactKeepCount_le htotal _⟩,
    exactKeepCount_antitone total, exactKeepCount_mono hhigh, fun greater h c name => ?_,
    fun p q h => ⟨keepCount_antitone h, methodsOf_significant_sublist h⟩⟩
  · rw [hkept, ceil_sub_slack (hasPlaces_left total hplaces)]
  · simp only [formula]
    rcases ceil_sub_slack_or ((total : ℚ) * (1 - dropped)) with heq | heq <;> omega
  · exact methodsOf_keepRanked_sublist fun total => exactKeepCount_antitone total h

/-- Seven of ten methods are left when three tenths are dropped. When six tenths are, a class keeps no
others. -/
theorem keepCount_follows_formula_ten :
    let threeTenths : Share := ⟨0.3, by decide +kernel, by decide +kernel⟩
    let sixTenths : Share := ⟨0.6, by decide +kernel, by decide +kernel⟩
    let c : CallCounts := .ofList [("p.C.a()", 5), ("p.C.b()", 3), ("p.C.m()", 1)]
    (exactKeepCount 10 (3 / 10) : ℤ) = 7 ∧
      exactKeepCount 10 (6 / 10) ≤ exactKeepCount 10 (3 / 10) ∧
      exactKeepCount 10 (3 / 10) ≤ exactKeepCount 11 (3 / 10) ∧
      (methodsOf (significant sixTenths c) "p.C").Sublist (methodsOf (significant threeTenths c) "p.C") := by
  intro threeTenths sixTenths c
  obtain ⟨hformula, -, -, hantitone, hmonotone, -, hshares⟩ :=
    @keepCount_follows_formula 10 (3 / 10) (by norm_num) (by norm_num) (by norm_num)
  refine ⟨?_, hantitone (by norm_num), hmonotone (by norm_num), ?_⟩
  · rw [hformula ⟨30000000, by norm_num⟩]
    norm_num
  · exact (hshares threeTenths sixTenths (by decide +kernel)).2 c "p.C"

end StructureGraph.Resolution
