import Mathlib.Algebra.Order.Floor.Div
import Mathlib.Algebra.Order.Round
import Mathlib.Data.Rat.Floor

namespace Lzamp.Lib

/-- Adding half the divisor rounds halves up. -/
theorem round_div_two_mul (n : ℕ) {half : ℕ} (hpos : 0 < half) :
    round ((n : ℚ) / (2 * half : ℕ)) = ((n + half) / (2 * half) : ℕ) := by
  have hne : (half : ℚ) ≠ 0 := by exact_mod_cast hpos.ne'
  have hsum : (n : ℚ) / (2 * half : ℕ) + 1 / 2 = ((n + half : ℕ) : ℚ) / ((2 * half : ℕ) : ℚ) := by
    push_cast
    field_simp
  rw [round_eq, hsum, Rat.floor_natCast_div_natCast, Int.natCast_div]

theorem le_mul_ceil {n d : ℕ} (hpos : 0 < d) : n ≤ d * ((n + d - 1) / d) := by
  rw [← Nat.ceilDiv_eq_add_pred_div]
  exact le_smul_ceilDiv hpos

theorem ceil_div_natCast (n : ℕ) {d : ℕ} (hpos : 0 < d) :
    ⌈(n : ℚ) / d⌉ = ((n + d - 1) / d : ℕ) := by
  have hd : (0 : ℚ) < d := by exact_mod_cast hpos
  rw [Int.ceil_eq_iff]
  constructor
  · have hle : (n + d - 1) / d * d ≤ n + d - 1 := Nat.div_mul_le_self _ _
    rw [lt_div_iff₀ hd, sub_mul, one_mul, sub_lt_iff_lt_add]
    exact_mod_cast (show (n + d - 1) / d * d < n + d by omega)
  · rw [div_le_iff₀' hd]
    exact_mod_cast le_mul_ceil hpos

end Lzamp.Lib
