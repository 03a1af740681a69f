import Mathlib.Data.BitVec
import Mathlib.Tactic.Ring

namespace Lzamp.Lib

/-- The number that a string of bytes spells, least significant byte first. -/
def leNat : List (BitVec 8) → ℕ
  | [] => 0
  | b :: bs => b.toNat + 256 * leNat bs

/-- The `width` lowest bytes of a number. -/
def leBytes : ℕ → ℕ → List (BitVec 8)
  | 0, _ => []
  | width + 1, n => BitVec.ofNat 8 n :: leBytes width (n / 256)

@[simp] theorem length_leBytes (width n : ℕ) : (leBytes width n).length = width := by
  induction width generalizing n with
  | zero => rfl
  | succ width ih => simp [leBytes, ih]

theorem leNat_leBytes (width n : ℕ) : leNat (leBytes width n) = n % 256 ^ width := by
  induction width generalizing n with
  | zero => simp [leBytes, leNat, Nat.mod_one]
  | succ width ih =>
    have hsplit : n % (256 * 256 ^ width) = n % 256 + 256 * (n / 256 % 256 ^ width) := Nat.mod_mul
    rw [leBytes, leNat, ih, BitVec.toNat_ofNat, pow_succ' 256 width, hsplit]

theorem leBytes_leNat (bs : List (BitVec 8)) : leBytes bs.length (leNat bs) = bs := by
  induction bs with
  | nil => rfl
  | cons b bs ih =>
    have hb := b.isLt
    have hdiv : (b.toNat + 256 * leNat bs) / 256 = leNat bs := by omega
    have hlow : BitVec.ofNat 8 (b.toNat + 256 * leNat bs) = b := by
      apply BitVec.eq_of_toNat_eq
      rw [BitVec.toNat_ofNat]
      omega
    rw [List.length_cons, leNat, leBytes, hdiv, hlow, ih]

theorem leNat_lt (bs : List (BitVec 8)) : leNat bs < 256 ^ bs.length := by
  induction bs with
  | nil => simp [leNat]
  | cons b bs ih =>
    have hb := b.isLt
    rw [List.length_cons, leNat, pow_succ']
    omega

/-- Four bytes as the shifts and ORs by which C puts them together. -/
theorem toNat_or_shifts (a b c d : BitVec 8) :
    (a.setWidth 32 ||| (b.setWidth 32 <<< 8) ||| (c.setWidth 32 <<< 16) |||
      (d.setWidth 32 <<< 24)).toNat = leNat [a, b, c, d] := by
  have ha := a.isLt
  have hb := b.isLt
  have hc := c.isLt
  have hd := d.isLt
  have hlow : a.toNat ||| b.toNat <<< 8 = b.toNat <<< 8 + a.toNat := by
    rw [Nat.or_comm]
    exact (Nat.shiftLeft_add_eq_or_of_lt ha _).symm
  have hmid : (b.toNat <<< 8 + a.toNat) ||| c.toNat <<< 16 =
      c.toNat <<< 16 + (b.toNat <<< 8 + a.toNat) := by
    rw [Nat.or_comm]
    refine (Nat.shiftLeft_add_eq_or_of_lt ?_ _).symm
    omega
  have hhigh : (c.toNat <<< 16 + (b.toNat <<< 8 + a.toNat)) ||| d.toNat <<< 24 =
      d.toNat <<< 24 + (c.toNat <<< 16 + (b.toNat <<< 8 + a.toNat)) := by
    rw [Nat.or_comm]
    refine (Nat.shiftLeft_add_eq_or_of_lt ?_ _).symm
    omega
  have hshift (x : BitVec 8) (k : ℕ) (hk : k ≤ 24) :
      (x.setWidth 32 <<< k).toNat = x.toNat <<< k := by
    rw [BitVec.toNat_shiftLeft, BitVec.toNat_setWidth, Nat.mod_eq_of_lt (by omega : x.toNat < 2 ^ 32)]
    apply Nat.mod_eq_of_lt
    rw [Nat.shiftLeft_eq]
    calc x.toNat * 2 ^ k < 2 ^ 8 * 2 ^ k := (Nat.mul_lt_mul_right (Nat.two_pow_pos k)).mpr x.isLt
      _ = 2 ^ (8 + k) := by rw [pow_add]
      _ ≤ 2 ^ 32 := Nat.pow_le_pow_right (by decide) (by omega)
  rw [BitVec.toNat_or, BitVec.toNat_or, BitVec.toNat_or, hshift b 8 (by decide),
    hshift c 16 (by decide), hshift d 24 (by decide), BitVec.toNat_setWidth,
    Nat.mod_eq_of_lt (by omega : a.toNat < 2 ^ 32), hlow, hmid, hhigh]
  simp only [Nat.shiftLeft_eq, leNat]
  omega

end Lzamp.Lib
