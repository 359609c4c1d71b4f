import Mathlib.Algebra.Order.Field.Power
import Mathlib.Algebra.Order.Round
import Mathlib.Algebra.Order.Ring.Rat
import Mathlib.Data.Rat.Floor
import Mathlib.Tactic.Linarith
import Mathlib.Tactic.NormNum
import Mathlib.Tactic.Ring

namespace StructureGraph.Binary64

variable {x x' y y' z : ℚ}

/-- The numbers with 53 binary digits. Those that lie farthest out stand for the infinities. -/
def IsOnGrid (x : ℚ) : Prop :=
  ∃ m e : ℤ, |m| ≤ 2 ^ 53 ∧ -1074 ≤ e ∧ e ≤ 971 ∧ x = m * 2 ^ e

/-- The greatest number of the grid, which stands for infinity. -/
def limit : ℚ := 2 ^ 53 * 2 ^ (971 : ℤ)

/-- No number of the grid is nearer to the first number than the second one is. -/
def IsNearest (x y : ℚ) : Prop := IsOnGrid y ∧ ∀ z, IsOnGrid z → |y - x| ≤ |z - x|

theorem limit_pos : 0 < limit := by
  unfold limit
  positivity

theorem lt_limit (h : x ≤ 2 ^ 64) : x < limit := by
  have hpower : (2 : ℚ) ^ (11 : ℤ) < 2 ^ (971 : ℤ) := zpow_lt_zpow_right₀ (by norm_num) (by norm_num)
  calc x ≤ 2 ^ 64 := h
    _ = 2 ^ 53 * 2 ^ (11 : ℤ) := by norm_num
    _ < limit := by unfold limit; gcongr

theorem neg_limit_lt (h : 0 ≤ x) : -limit < x := (neg_lt_zero.mpr limit_pos).trans_le h

theorem isOnGrid_limit : IsOnGrid limit :=
  ⟨2 ^ 53, 971, by norm_num, by norm_num, le_rfl, by norm_num [limit]⟩

theorem IsOnGrid.le_limit (h : IsOnGrid x) : x ≤ limit := by
  obtain ⟨m, e, hm, -, hhigh, rfl⟩ := h
  have hmantissa : (m : ℚ) ≤ 2 ^ 53 := by exact_mod_cast (abs_le.mp hm).2
  have hpower : (2 : ℚ) ^ e ≤ 2 ^ (971 : ℤ) := zpow_le_zpow_right₀ (by norm_num) hhigh
  calc (m : ℚ) * 2 ^ e ≤ 2 ^ 53 * 2 ^ e := by gcongr
    _ ≤ limit := by unfold limit; gcongr

theorem isOnGrid_intCast {n : ℤ} (h : |n| ≤ 2 ^ 53) : IsOnGrid n :=
  ⟨n, 0, h, by norm_num, by norm_num, by simp⟩

theorem isOnGrid_natCast {n : ℕ} (h : n ≤ 2 ^ 53) : IsOnGrid n := by
  have habs : |(n : ℤ)| ≤ 2 ^ 53 := by
    rw [Nat.abs_cast]
    exact_mod_cast h
  exact_mod_cast isOnGrid_intCast habs

theorem IsOnGrid.neg (h : IsOnGrid x) : IsOnGrid (-x) := by
  obtain ⟨m, e, hm, hlow, hhigh, rfl⟩ := h
  exact ⟨-m, e, by rwa [abs_neg], hlow, hhigh, by push_cast; ring⟩

theorem IsNearest.neg (h : IsNearest x y) : IsNearest (-x) (-y) := by
  refine ⟨h.1.neg, fun z hz => ?_⟩
  have hle := h.2 (-z) hz.neg
  rw [show -y - -x = -(y - x) by ring, abs_neg]
  rwa [show -z - x = -(z - -x) by ring, abs_neg] at hle

theorem IsOnGrid.isNearest (h : IsOnGrid x) : IsNearest x x :=
  ⟨h, fun z _ => by simp⟩

theorem IsNearest.eq_of_isOnGrid (h : IsNearest x y) (hx : IsOnGrid x) : y = x := by
  have hzero : |y - x| ≤ 0 := by simpa using h.2 x hx
  linarith [abs_nonpos_iff.mp hzero]

/-- Rounding keeps the order, whichever way the ties go. -/
theorem IsNearest.le_of_lt (h : IsNearest x y) (h' : IsNearest x' y') (hlt : x < x') : y ≤ y' := by
  by_contra hgt
  rw [not_le] at hgt
  have hleft : (y - x) ^ 2 ≤ (y' - x) ^ 2 := sq_le_sq.mpr (h.2 y' h'.1)
  have hright : (y' - x') ^ 2 ≤ (y - x') ^ 2 := sq_le_sq.mpr (h'.2 y h.1)
  nlinarith [mul_pos (sub_pos.mpr hgt) (sub_pos.mpr hlt)]

theorem IsNearest.le_of_le_isOnGrid (h : IsNearest x y) (hz : IsOnGrid z) (hle : x ≤ z) : y ≤ z := by
  rcases hle.eq_or_lt with rfl | hlt
  · exact (h.eq_of_isOnGrid hz).le
  · exact h.le_of_lt hz.isNearest hlt

theorem IsNearest.le_of_isOnGrid_le (h : IsNearest x y) (hz : IsOnGrid z) (hle : z ≤ x) : z ≤ y := by
  rcases hle.eq_or_lt with rfl | hlt
  · exact (h.eq_of_isOnGrid hz).ge
  · exact hz.isNearest.le_of_lt h hlt

/-- A nearest number of the grid is as near as half of a last place that the number has room for. -/
theorem IsNearest.abs_sub_le (h : IsNearest x y) {e : ℤ} (hlow : -1074 ≤ e) (hhigh : e ≤ 971)
    (hx : |x| ≤ 2 ^ 53 * 2 ^ e) : |y - x| ≤ 2 ^ e / 2 := by
  have hpos : (0 : ℚ) < 2 ^ e := by positivity
  have hround : |x / 2 ^ e - round (x / 2 ^ e)| ≤ 1 / 2 := abs_sub_round _
  have hmantissa : |round (x / 2 ^ e)| ≤ 2 ^ 53 := by
    have hquotient : |x / 2 ^ e| ≤ 2 ^ 53 := by
      rwa [abs_div, abs_of_pos hpos, div_le_iff₀ hpos]
    have hlt : |(round (x / 2 ^ e) : ℚ)| < 2 ^ 53 + 1 := by
      rw [abs_le] at hround hquotient
      exact abs_lt.mpr ⟨by linarith, by linarith⟩
    exact Int.lt_add_one_iff.mp (by exact_mod_cast hlt)
  calc |y - x| ≤ |round (x / 2 ^ e) * 2 ^ e - x| := h.2 _ ⟨_, e, hmantissa, hlow, hhigh, rfl⟩
    _ = |x / 2 ^ e - round (x / 2 ^ e)| * 2 ^ e := by
      rw [abs_sub_comm, ← abs_of_pos hpos, ← abs_mul, abs_of_pos hpos, sub_mul,
        div_mul_cancel₀ x hpos.ne']
    _ ≤ 1 / 2 * 2 ^ e := by gcongr
    _ = 2 ^ e / 2 := by ring

end StructureGraph.Binary64
