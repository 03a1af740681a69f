import Mathlib.Logic.Function.Basic
import Lzamp.Lib.Bytes

namespace Lzamp.Lib

def wordsBytes (words : List (BitVec 32)) : List (BitVec 8) :=
  words.flatMap fun w => leBytes 4 w.toNat

/-- Byte `i` of a buffer. -/
def byteAt (words : ℕ → BitVec 32) (i : ℕ) : BitVec 8 :=
  (words (i / 4) >>> (i % 4 * 8)).setWidth 8

theorem toNat_byteAt (words : ℕ → BitVec 32) (i : ℕ) :
    (byteAt words i).toNat = (words (i / 4)).toNat / 2 ^ (i % 4 * 8) % 256 := by
  rw [byteAt, BitVec.toNat_setWidth, BitVec.toNat_ushiftRight, Nat.shiftRight_eq_div_pow]

theorem leBytes_eq_byteAt (words : ℕ → BitVec 32) (n : ℕ) :
    leBytes 4 (words n).toNat = [byteAt words (4 * n), byteAt words (4 * n + 1),
      byteAt words (4 * n + 2), byteAt words (4 * n + 3)] := by
  have hbyte (k : ℕ) (hk : k < 4) :
      byteAt words (4 * n + k) = BitVec.ofNat 8 ((words n).toNat / 2 ^ (k * 8)) := by
    have hdiv : (4 * n + k) / 4 = n := by omega
    have hmod : (4 * n + k) % 4 = k := by omega
    apply BitVec.eq_of_toNat_eq
    rw [toNat_byteAt, hdiv, hmod, BitVec.toNat_ofNat]
  have hzero := hbyte 0 (by decide)
  rw [Nat.add_zero] at hzero
  rw [hzero, hbyte 1 (by decide), hbyte 2 (by decide), hbyte 3 (by decide)]
  simp only [leBytes, Nat.div_div_eq_div_mul]
  norm_num

theorem wordsBytes_map_range (words : ℕ → BitVec 32) (n : ℕ) :
    wordsBytes ((List.range n).map words) = (List.range (4 * n)).map (byteAt words) := by
  induction n with
  | zero => rfl
  | succ n ih =>
    have hrange : List.range (4 * (n + 1)) =
        List.range (4 * n) ++ [4 * n, 4 * n + 1, 4 * n + 2, 4 * n + 3] := by
      simp only [Nat.mul_succ, List.range_succ, List.append_assoc, List.cons_append,
        List.nil_append]
    unfold wordsBytes at ih ⊢
    rw [List.range_succ, List.map_append, List.flatMap_append, ih, hrange, List.map_append]
    simp [leBytes_eq_byteAt]

theorem map_range_getD (l : List (BitVec 8)) {n : ℕ} (h : l.length ≤ n) :
    (List.range n).map (fun i => l.getD i 0) = l ++ List.replicate (n - l.length) 0 := by
  apply List.ext_getElem
  · simp [h]
  · intro i _ _
    by_cases hi : i < l.length
    · simp [hi]
    · simp [List.getElem_append_right (not_lt.mp hi), hi]

theorem mapIdx_map_range {α β : Type} (f : ℕ → α) (g : ℕ → α → β) (n : ℕ) :
    ((List.range n).map f).mapIdx g = (List.range n).map fun i => g i (f i) :=
  List.ext_getElem (by simp) (by simp)

/-- OR a byte into its place in the buffer. -/
def putByte (words : ℕ → BitVec 32) (pos : ℕ) (byte : BitVec 8) : ℕ → BitVec 32 :=
  Function.update words (pos / 4)
    (words (pos / 4) ||| byte.setWidth 32 <<< (pos % 4 * 8))

theorem byteAt_putByte_self (words : ℕ → BitVec 32) (pos : ℕ) (byte : BitVec 8) :
    byteAt (putByte words pos byte) pos = byteAt words pos ||| byte := by
  apply BitVec.eq_of_getLsbD_eq
  intro j hj
  have hmod := Nat.mod_lt pos (show 0 < 4 by decide)
  have hin : pos % 4 * 8 + j < 32 := by omega
  have hj32 : j < 32 := by omega
  simp [byteAt, putByte, hj, hin, hj32]

theorem byteAt_putByte_of_ne (words : ℕ → BitVec 32) {pos i : ℕ} (byte : BitVec 8) (h : i ≠ pos) :
    byteAt (putByte words pos byte) i = byteAt words i := by
  unfold byteAt putByte
  by_cases hword : i / 4 = pos / 4
  · apply BitVec.eq_of_getLsbD_eq
    intro j hj
    rw [hword, Function.update_self]
    -- the two bytes of one word do not overlap
    have hbit : (byte.setWidth 32 <<< (pos % 4 * 8)).getLsbD (i % 4 * 8 + j) = false := by
      rw [BitVec.getLsbD_shiftLeft, BitVec.getLsbD_setWidth]
      by_cases hlow : i % 4 * 8 + j < pos % 4 * 8
      · simp [hlow]
      · rw [BitVec.getLsbD_of_ge byte _ (by omega)]
        simp
    rw [BitVec.getLsbD_setWidth, BitVec.getLsbD_setWidth, BitVec.getLsbD_ushiftRight,
      BitVec.getLsbD_ushiftRight, BitVec.getLsbD_or, hbit, Bool.or_false]
  · rw [Function.update_of_ne hword]

theorem byteAt_foldl_putByte (data : List (BitVec 8)) (start : ℕ) (words : ℕ → BitVec 32) (i : ℕ) :
    byteAt ((data.zipIdx start).foldl (fun words entry => putByte words entry.2 entry.1) words) i =
      byteAt words i ||| if start ≤ i then data.getD (i - start) 0 else 0 := by
  induction data generalizing start words with
  | nil => simp
  | cons byte data ih =>
    rw [List.zipIdx_cons, List.foldl_cons, ih]
    rcases Nat.lt_trichotomy i start with hlt | rfl | hgt
    · rw [byteAt_putByte_of_ne words byte hlt.ne, if_neg (by omega), if_neg (by omega)]
    · rw [byteAt_putByte_self, if_neg (by omega), if_pos le_rfl, Nat.sub_self]
      simp
    · obtain ⟨k, rfl⟩ := Nat.exists_eq_add_of_lt hgt
      rw [byteAt_putByte_of_ne words byte hgt.ne', if_pos (by omega), if_pos hgt.le,
        show start + k + 1 - (start + 1) = k by omega, show start + k + 1 - start = k + 1 by omega,
        List.getD_cons_succ]

end Lzamp.Lib
