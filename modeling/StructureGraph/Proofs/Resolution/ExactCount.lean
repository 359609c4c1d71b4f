import Mathlib.Algebra.Order.Floor.Semifield
import Mathlib.Data.Rat.Floor
import Mathlib.Tactic.Linarith
import Mathlib.Tactic.NormNum
import Mathlib.Tactic.Ring
import StructureGraph.Resolution.Significance

namespace StructureGraph.Resolution

variable {total total' raw raw' places : Nat} {dropped dropped' x y : ℚ}

theorem clampKept_mono (htotal : total ≤ total') (hraw : raw ≤ raw') :
    clampKept total raw ≤ clampKept total' raw' := by
  unfold clampKept
  omega

/-- A number with so many decimal places, or fewer. -/
def HasPlaces (places : Nat) (x : ℚ) : Prop := ∃ k : ℤ, x * 10 ^ places = k

theorem hasPlaces_left (total : Nat) (h : HasPlaces places dropped) :
    HasPlaces places (total * (1 - dropped)) := by
  obtain ⟨k, hk⟩ := h
  refine ⟨total * (10 ^ places - k), ?_⟩
  push_cast
  rw [← hk]
  ring

/-- A number that is less by not so much as its last place can tell is rounded up to the same. -/
theorem ceil_eq_of_hasPlaces (h : HasPlaces places x) (hle : y ≤ x) (hlt : x < y + 1 / 10 ^ places) :
    ⌈y⌉ = ⌈x⌉ := by
  obtain ⟨k, hk⟩ := h
  have hpos : (0 : ℚ) < 10 ^ places := by positivity
  have hplace : (⌈x⌉ - 1) * 10 ^ places + 1 ≤ k := by
    have hbelow : ((⌈x⌉ - 1 : ℤ) : ℚ) * 10 ^ places < k := by
      rw [← hk]
      push_cast
      exact mul_lt_mul_of_pos_right (by linarith [Int.ceil_lt_add_one x]) hpos
    exact Int.add_one_le_of_lt (by exact_mod_cast hbelow)
  have hbelow : (⌈x⌉ : ℚ) - 1 + 1 / 10 ^ places ≤ x := by
    refine le_of_mul_le_mul_right ?_ hpos
    rw [hk, add_mul, one_div_mul_cancel hpos.ne']
    exact_mod_cast hplace
  rw [Int.ceil_eq_iff]
  constructor
  · linarith
  · linarith [Int.le_ceil x]

theorem ceil_sub_slack (h : HasPlaces 8 x) : ⌈x - 1 / 1000000000⌉ = ⌈x⌉ :=
  ceil_eq_of_hasPlaces h (by linarith) (by linarith)

theorem ceil_sub_slack_or (x : ℚ) :
    ⌈x - 1 / 1000000000⌉ = ⌈x⌉ ∨ ⌈x - 1 / 1000000000⌉ = ⌈x⌉ - 1 := by
  have hle : ⌈x - 1 / 1000000000⌉ ≤ ⌈x⌉ := Int.ceil_mono (by linarith)
  have hge : ⌈x⌉ - 1 ≤ ⌈x - 1 / 1000000000⌉ := by
    rw [← Int.ceil_sub_one]
    exact Int.ceil_mono (by linarith)
  omega

private theorem rat_ceil_eq (x : ℚ) : x.ceil = ⌈x⌉ :=
  le_antisymm (Rat.ceil_le_iff.mpr (Int.le_ceil x)) (Int.ceil_le.mpr Rat.le_ceil)

theorem exactKeepCount_eq (total : Nat) (dropped : ℚ) :
    exactKeepCount total dropped =
      clampKept total ⌈(total : ℚ) * (1 - dropped) - 1 / 1000000000⌉₊ := by
  rw [exactKeepCount, keepCountIn, rat_ceil_eq, Int.ceil_toNat, Nat.cast_one]

/-- As no less than nothing is dropped, no more than all are left. -/
theorem cast_exactKeepCount (htotal : 1 ≤ total) (hlow : 0 ≤ dropped) :
    (exactKeepCount total dropped : ℤ) =
      max 1 ⌈(total : ℚ) * (1 - dropped) - 1 / 1000000000⌉ := by
  have hle : ⌈(total : ℚ) * (1 - dropped) - 1 / 1000000000⌉₊ ≤ total := by
    have hleft : (total : ℚ) * (1 - dropped) ≤ total :=
      mul_le_of_le_one_right (Nat.cast_nonneg total) (sub_le_self 1 hlow)
    exact Nat.ceil_le.mpr (by linarith)
  rw [exactKeepCount_eq]
  rw [← Int.ceil_toNat] at hle ⊢
  unfold clampKept
  omega

theorem one_le_exactKeepCount (total : Nat) (dropped : ℚ) : 1 ≤ exactKeepCount total dropped :=
  Nat.le_max_left _ _

theorem exactKeepCount_le (htotal : 1 ≤ total) (dropped : ℚ) : exactKeepCount total dropped ≤ total := by
  rw [exactKeepCount_eq]
  unfold clampKept
  omega

theorem exactKeepCount_antitone (total : Nat) : Antitone (exactKeepCount total) := by
  intro dropped dropped' h
  rw [exactKeepCount_eq, exactKeepCount_eq]
  refine clampKept_mono le_rfl (Nat.ceil_mono (sub_le_sub_right ?_ _))
  exact mul_le_mul_of_nonneg_left (sub_le_sub_left h 1) (Nat.cast_nonneg total)

theorem exactKeepCount_mono (hhigh : dropped ≤ 1) : Monotone (exactKeepCount · dropped) := by
  intro total total' h
  dsimp only
  rw [exactKeepCount_eq, exactKeepCount_eq]
  refine clampKept_mono h (Nat.ceil_mono (sub_le_sub_right ?_ _))
  exact mul_le_mul_of_nonneg_right (Nat.cast_le.mpr h) (sub_nonneg.mpr hhigh)

end StructureGraph.Resolution
