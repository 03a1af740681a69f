import Mathlib.Data.BitVec
import Mathlib.Logic.Function.Iterate

namespace Lzamp.Lib

variable {w : ℕ}

def nextNonzero (x : BitVec w) : BitVec w :=
  if x + 1 = 0 then x + 1 + 1 else x + 1

theorem toNat_nextNonzero (hw : 0 < w) (x : BitVec w) :
    (nextNonzero x).toNat = x.toNat % (2 ^ w - 1) + 1 := by
  have hone : (1 : BitVec w).toNat = 1 := BitVec.toNat_one hw
  have hx := x.isLt
  have hsucc : (x + 1).toNat = (x.toNat + 1) % 2 ^ w := by rw [BitVec.toNat_add, hone]
  unfold nextNonzero
  by_cases hlast : x.toNat + 1 = 2 ^ w
  · have hzero : x + 1 = 0 := by
      apply BitVec.eq_of_toNat_eq
      rw [hsucc, hlast, Nat.mod_self]
      rfl
    rw [if_pos hzero, hzero, show x.toNat = 2 ^ w - 1 by omega, Nat.mod_self]
    simp [hw]
  · have hlt : x.toNat + 1 < 2 ^ w := by omega
    have hne : x + 1 ≠ 0 := by
      intro hzero
      rw [hzero, Nat.mod_eq_of_lt hlt] at hsucc
      exact absurd hsucc (by simp)
    rw [if_neg hne, hsucc, Nat.mod_eq_of_lt hlt, Nat.mod_eq_of_lt (by omega)]

theorem toNat_iterate_nextNonzero (hw : 0 < w) (k : ℕ) :
    (nextNonzero^[k + 1] (0 : BitVec w)).toNat = k % (2 ^ w - 1) + 1 := by
  induction k with
  | zero => simp [toNat_nextNonzero hw]
  | succ k ih =>
    rw [Function.iterate_succ_apply', toNat_nextNonzero hw, ih, Nat.mod_add_mod]

theorem iterate_nextNonzero_ne_zero (hw : 0 < w) (k : ℕ) :
    nextNonzero^[k + 1] (0 : BitVec w) ≠ 0 := by
  intro hzero
  have h := toNat_iterate_nextNonzero hw k
  rw [hzero] at h
  exact absurd h (by simp)

/-- A value comes back only after all the others. -/
theorem iterate_nextNonzero_ne (hw : 0 < w) {i j : ℕ} (hij : i < j) (hnear : j - i < 2 ^ w - 1) :
    nextNonzero^[i + 1] (0 : BitVec w) ≠ nextNonzero^[j + 1] 0 := by
  intro heq
  have h := congrArg BitVec.toNat heq
  rw [toNat_iterate_nextNonzero hw, toNat_iterate_nextNonzero hw, Nat.add_right_cancel_iff] at h
  have hzero : (j - i) % (2 ^ w - 1) = 0 := Nat.sub_mod_eq_zero_of_mod_eq h.symm
  rw [Nat.mod_eq_of_lt hnear] at hzero
  omega

end Lzamp.Lib
