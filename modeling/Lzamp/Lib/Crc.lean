import Mathlib.Algebra.CharP.Two
import Mathlib.Algebra.Field.ZMod
import Mathlib.Algebra.Polynomial.OfFn
import Mathlib.Data.BitVec
import Mathlib.RingTheory.AdjoinRoot

namespace Lzamp.Lib.Crc
open Polynomial

variable {w n : ℕ}

/-- The polynomial of a word, lowest bit the highest power. -/
noncomputable def word (r : BitVec w) : (ZMod 2)[X] :=
  ofFn w fun i => if r.getMsbD i then 1 else 0

theorem coeff_word (r : BitVec w) (k : ℕ) :
    (word r).coeff k = if r.getMsbD k then 1 else 0 := by
  by_cases hk : k < w
  · exact ofFn_coeff_eq_val_of_lt _ hk
  · have hout : r.getMsbD k = false := BitVec.getMsbD_of_ge r k (by omega)
    rw [word, ofFn_coeff_eq_zero_of_ge _ (by omega), hout]
    rfl

theorem degree_word_lt (r : BitVec w) : (word r).degree < w := ofFn_degree_lt _

theorem word_injective : Function.Injective (word (w := w)) := by
  intro a b h
  apply BitVec.eq_of_getMsbD_eq
  intro i _
  have hi := congrArg (fun p => coeff p i) h
  simp only [coeff_word] at hi
  cases ha : a.getMsbD i <;> cases hb : b.getMsbD i <;> simp [ha, hb] at hi ⊢

theorem word_xor (a b : BitVec w) : word (a ^^^ b) = word a + word b := by
  ext k
  rw [coeff_add, coeff_word, coeff_word, coeff_word, BitVec.getMsbD_xor]
  cases a.getMsbD k <;> cases b.getMsbD k <;> decide

@[simp] theorem word_zero : word 0#w = 0 := by
  ext k
  simp [coeff_word]

theorem word_twoPow {i : ℕ} (hi : i < w) : word (BitVec.twoPow w i) = X ^ (w - 1 - i) := by
  ext k
  have hiff : k = w - i - 1 ↔ k = w - 1 - i := by omega
  simp [coeff_word, coeff_X_pow, BitVec.getMsbD_twoPow, hi, hiff]

theorem coeff_word_extract (e : BitVec n) (s a k : ℕ) :
    (word (e.extractLsb' s a)).coeff k =
      if k < a ∧ e.getLsbD (s + (a - 1 - k)) = true then 1 else 0 := by
  have hlow : k < a → a - 1 - k < a := by omega
  rw [coeff_word, BitVec.getMsbD_eq_getLsbD, BitVec.getLsbD_extractLsb']
  by_cases hk : k < a
  · simp [hk, hlow hk]
  · simp [hk]

theorem word_split (e : BitVec n) (s a b : ℕ) :
    word (e.extractLsb' s (a + b)) =
      word (e.extractLsb' s a) * X ^ b + word (e.extractLsb' (s + a) b) := by
  ext k
  rw [coeff_add, coeff_mul_X_pow', coeff_word_extract, coeff_word_extract, coeff_word_extract]
  by_cases hk : b ≤ k
  · have hbit : a + b - 1 - k = a - 1 - (k - b) := by omega
    have hin : k < a + b ↔ k - b < a := by omega
    have hout : ¬ k < b := by omega
    simp only [hk, hout, hbit, hin, if_true, false_and, if_false, add_zero]
  · have hbit : k < b → s + (a + b - 1 - k) = s + a + (b - 1 - k) := by omega
    have hlt : k < b := by omega
    have hin : k < a + b := by omega
    simp only [hk, hlt, hbit hlt, hin, if_false, true_and, zero_add]

theorem extractLsb_eq_zero {e : BitVec n} {s a : ℕ} (h : ∀ i < a, e.getLsbD (s + i) = false) :
    e.extractLsb' s a = 0#a := by
  apply BitVec.eq_of_getLsbD_eq
  intro i hi
  rw [BitVec.getLsbD_extractLsb', h i hi, Bool.and_false, BitVec.getLsbD_zero]

theorem word_of_window {e : BitVec n} {s a : ℕ} (hs : s + a ≤ n)
    (h : ∀ k, e.getLsbD k = true → s ≤ k ∧ k < s + a) :
    word e = word (e.extractLsb' s a) * X ^ (n - (s + a)) := by
  have hbefore : e.extractLsb' 0 s = 0#s := by
    apply extractLsb_eq_zero
    intro i hi
    by_contra hbit
    have := h (0 + i) (Bool.eq_true_of_not_eq_false hbit)
    omega
  have hafter : e.extractLsb' (s + a) (n - (s + a)) = 0#(n - (s + a)) := by
    apply extractLsb_eq_zero
    intro i hi
    by_contra hbit
    have := h (s + a + i) (Bool.eq_true_of_not_eq_false hbit)
    omega
  have hlength : s + (a + (n - (s + a))) = n := by omega
  have hwhole : word e = word (e.extractLsb' 0 (s + (a + (n - (s + a))))) := by
    rw [hlength, BitVec.extractLsb'_eq_self]
  rw [hwhole, word_split, word_split, zero_add, hbefore, hafter, word_zero, word_zero, zero_mul,
    zero_add, add_zero]

/-- The polynomial of a string of bytes, first byte first. -/
noncomputable def message : List (BitVec 8) → (ZMod 2)[X]
  | [] => 0
  | b :: bs => word b * X ^ (8 * bs.length) + message bs

theorem message_append (as bs : List (BitVec 8)) :
    message (as ++ bs) = message as * X ^ (8 * bs.length) + message bs := by
  induction as with
  | nil => rw [List.nil_append, message, zero_mul, zero_add]
  | cons a as ih =>
    rw [List.cons_append, message, message, ih, List.length_append, mul_add 8, pow_add]
    ring

theorem message_xor {as bs : List (BitVec 8)} (h : as.length = bs.length) :
    message (List.zipWith (· ^^^ ·) as bs) = message as + message bs := by
  induction as generalizing bs with
  | nil =>
    obtain rfl := List.eq_nil_of_length_eq_zero h.symm
    exact (add_zero _).symm
  | cons a as ih =>
    cases bs with
    | nil => exact absurd h (by simp)
    | cons b bs =>
      have hlen : as.length = bs.length := by simpa using h
      have hzip : (List.zipWith (· ^^^ ·) as bs).length = bs.length := by
        rw [List.length_zipWith, hlen, min_self]
      rw [List.zipWith_cons_cons, message, message, message, ih hlen, word_xor, hzip, hlen]
      ring

theorem message_ofFn_extractLsb (e : BitVec n) (s k : ℕ) :
    message (List.ofFn fun i : Fin k => e.extractLsb' (s + 8 * i.val) 8) =
      word (e.extractLsb' s (8 * k)) := by
  induction k generalizing s with
  | zero =>
    have hzero : e.extractLsb' s (8 * 0) = 0#(8 * 0) := BitVec.eq_of_zero_length rfl
    rw [hzero, word_zero]
    rfl
  | succ k ih =>
    have htail : (fun i : Fin k => e.extractLsb' (s + 8 * i.succ.val) 8) =
        fun i : Fin k => e.extractLsb' (s + 8 + 8 * i.val) 8 := by
      funext i
      rw [Fin.val_succ, mul_add, mul_one, add_assoc s 8, add_comm 8]
    have hsum : 8 * (k + 1) = 8 + 8 * k := by ring
    rw [List.ofFn_succ, message, List.length_ofFn, htail, ih, hsum, word_split]
    rfl

/-- The CRC of a string of bytes, reflected in and out: the remainder of the message shifted by the
width, with `init` added to its first bits.  `invFun` takes the word that spells it. -/
noncomputable def crc (G : (ZMod 2)[X]) (init xorOut : BitVec w) (bytes : List (BitVec 8)) :
    BitVec w :=
  Function.invFun word
    ((word init * X ^ (8 * bytes.length) + message bytes * X ^ w) %ₘ G) ^^^ xorOut

/-- The generator of degree `w` whose other coefficients are the word `g`. -/
noncomputable def generator (g : BitVec w) : (ZMod 2)[X] := X ^ w + word g

def step (g r : BitVec w) : BitVec w := (r >>> 1) ^^^ (if r.getLsbD 0 then g else 0#w)

def feed (g r : BitVec w) (byte : BitVec 8) : BitVec w := (step g)^[8] (r ^^^ byte.setWidth w)

def run (g r : BitVec w) (bytes : List (BitVec 8)) : BitVec w := bytes.foldl (feed g) r

theorem generator_monic (g : BitVec w) : (generator g).Monic := monic_X_pow_add (degree_word_lt g)

theorem degree_generator (g : BitVec w) : (generator g).degree = w := by
  rw [generator, degree_add_eq_left_of_degree_lt, degree_X_pow]
  rw [degree_X_pow]
  exact degree_word_lt g

theorem X_mul_word (r : BitVec w) :
    X * word r = word (r >>> 1) + if r.getLsbD 0 then X ^ w else 0 := by
  ext k
  have hlast (k : ℕ) (hk : k + 1 = w) : r.getMsbD k = r.getLsbD 0 := by
    have hlt : k < w := by omega
    have hzero : w - 1 - k = 0 := by omega
    rw [BitVec.getMsbD_eq_getLsbD, hzero, decide_eq_true hlt, Bool.true_and]
  have hcarry : (if r.getLsbD 0 then (X : (ZMod 2)[X]) ^ w else 0).coeff k =
      if r.getLsbD 0 = true ∧ k = w then 1 else 0 := by
    cases r.getLsbD 0 <;> simp [coeff_X_pow]
  rw [coeff_add, coeff_word, hcarry, BitVec.getMsbD_ushiftRight]
  cases k with
  | zero =>
    have hout : 0 = w → r.getLsbD 0 = false := fun hw => BitVec.getLsbD_of_ge r 0 hw.ge
    rw [coeff_X_mul_zero]
    by_cases hw : 0 = w
    · simp [hout hw]
    · simp [hw]
  | succ k =>
    rw [coeff_X_mul, coeff_word, Nat.add_sub_cancel]
    rcases lt_trichotomy (k + 1) w with hk | hk | hk
    · simp [hk, hk.ne]
    · simp [hk, hlast k hk]
    · have hout : r.getMsbD k = false := BitVec.getMsbD_of_ge r k (by omega)
      simp [hout, hk.ne']

theorem mk_word_step (g r : BitVec w) :
    AdjoinRoot.mk (generator g) (word (step g r)) =
      AdjoinRoot.root (generator g) * AdjoinRoot.mk (generator g) (word r) := by
  have hstep : word (step g r) = X * word r - if r.getLsbD 0 then generator g else 0 := by
    rw [X_mul_word, step, word_xor, generator]
    cases r.getLsbD 0
    · simp
    · rw [if_pos rfl, if_pos rfl, if_pos rfl, CharTwo.sub_eq_add]
      linear_combination (-1 : (ZMod 2)[X]) * CharTwo.add_self_eq_zero ((X : (ZMod 2)[X]) ^ w)
  have hmul : AdjoinRoot.mk (generator g) (X * word r) =
      AdjoinRoot.root (generator g) * AdjoinRoot.mk (generator g) (word r) := by
    rw [map_mul, AdjoinRoot.mk_X]
  rw [hstep, map_sub, hmul]
  cases r.getLsbD 0
  · simp
  · rw [if_pos rfl, AdjoinRoot.mk_self, sub_zero]

theorem mk_word_iterate (g r : BitVec w) (k : ℕ) :
    AdjoinRoot.mk (generator g) (word ((step g)^[k] r)) =
      AdjoinRoot.root (generator g) ^ k * AdjoinRoot.mk (generator g) (word r) := by
  induction k with
  | zero => rw [pow_zero, one_mul, Function.iterate_zero_apply]
  | succ k ih => rw [Function.iterate_succ_apply', mk_word_step, ih, pow_succ', mul_assoc]

theorem word_byte (hw : 8 ≤ w) (byte : BitVec 8) :
    word (byte.setWidth w) = word byte * X ^ (w - 8) := by
  ext k
  rw [coeff_mul_X_pow', coeff_word, coeff_word, BitVec.getMsbD_setWidth]
  by_cases hk : w - 8 ≤ k
  · have hsub : k + 8 - w = k - (w - 8) := by omega
    simp [hk, hsub]
  · simp [hk]

theorem mk_word_feed (hw : 8 ≤ w) (g r : BitVec w) (byte : BitVec 8) :
    AdjoinRoot.mk (generator g) (word (feed g r byte)) =
      AdjoinRoot.mk (generator g) (word r * X ^ 8 + word byte * X ^ w) := by
  have hpow : (X : (ZMod 2)[X]) ^ w = X ^ (w - 8) * X ^ 8 := by
    rw [← pow_add, Nat.sub_add_cancel hw]
  rw [feed, mk_word_iterate, word_xor, word_byte hw, ← AdjoinRoot.mk_X, ← map_pow, ← map_mul,
    hpow]
  refine congrArg (AdjoinRoot.mk (generator g)) ?_
  ring

/-- The register holds the remainder of what was fed, shifted by its width. -/
theorem mk_word_run (hw : 8 ≤ w) (g r : BitVec w) (bytes : List (BitVec 8)) :
    AdjoinRoot.mk (generator g) (word (run g r bytes)) = AdjoinRoot.mk (generator g)
      (word r * X ^ (8 * bytes.length) + message bytes * X ^ w) := by
  induction bytes generalizing r with
  | nil => simp [run, message]
  | cons byte bytes ih =>
    have hsum : 8 * (byte :: bytes).length = 8 + 8 * bytes.length := by
      rw [List.length_cons]
      ring
    have hfeed := mk_word_feed hw g r byte
    have hcons : run g r (byte :: bytes) = run g (feed g r byte) bytes := rfl
    rw [hcons, ih, map_add, map_mul, hfeed, ← map_mul, ← map_add, hsum, message, pow_add]
    refine congrArg (AdjoinRoot.mk (generator g)) ?_
    ring

theorem eq_of_mk_word_eq {g a b : BitVec w}
    (h : AdjoinRoot.mk (generator g) (word a) = AdjoinRoot.mk (generator g) (word b)) :
    a = b := by
  have hdvd : generator g ∣ word (a ^^^ b) := by
    rw [word_xor, ← CharTwo.sub_eq_add]
    exact AdjoinRoot.mk_eq_mk.mp h
  have hzero : word (a ^^^ b) = word 0#w := by
    rw [word_zero]
    refine eq_zero_of_dvd_of_degree_lt hdvd ?_
    rw [degree_generator]
    exact degree_word_lt _
  exact BitVec.xor_eq_zero_iff.mp (word_injective hzero)

/-- The shift register computes the CRC. -/
theorem crc_eq_run (hw : 8 ≤ w) (g init xorOut : BitVec w) (bytes : List (BitVec 8)) :
    crc (generator g) init xorOut bytes = run g init bytes ^^^ xorOut := by
  have hmod : (word init * X ^ (8 * bytes.length) + message bytes * X ^ w) %ₘ generator g =
      word (run g init bytes) := by
    rw [← modByMonic_eq_of_dvd_sub (generator_monic g)
      (AdjoinRoot.mk_eq_mk.mp (mk_word_run hw g init bytes)),
      modByMonic_eq_self_iff (generator_monic g), degree_generator]
    exact degree_word_lt _
  rw [crc, hmod, Function.leftInverse_invFun word_injective]

section Detection

variable {g : BitVec w} (hg : g.getMsbD 0 = true)
include hg

theorem isCoprime_X_pow (k : ℕ) : IsCoprime (generator g) (X ^ k) := by
  refine IsCoprime.pow_right ?_
  by_cases hw : w = 0
  · subst hw
    exact absurd hg (by simp)
  · have hone : (generator g).coeff 0 = 1 := by
      rw [generator, coeff_add, coeff_X_pow, if_neg (Ne.symm hw), coeff_word, if_pos hg, zero_add]
    have hdiv := divX_mul_X_add (generator g)
    rw [hone, map_one] at hdiv
    refine ⟨1, -(generator g).divX, ?_⟩
    linear_combination -hdiv

theorem dvd_of_run_eq (hw : 8 ≤ w) {r : BitVec w} {as bs : List (BitVec 8)}
    (hlen : as.length = bs.length) (h : run g r as = run g r bs) :
    generator g ∣ message (List.zipWith (· ^^^ ·) as bs) := by
  have hmk := congrArg (fun r => AdjoinRoot.mk (generator g) (word r)) h
  simp only [mk_word_run hw, hlen] at hmk
  have hdvd := AdjoinRoot.mk_eq_mk.mp hmk
  have hdiff : word r * X ^ (8 * bs.length) + message as * X ^ w -
      (word r * X ^ (8 * bs.length) + message bs * X ^ w) =
        message (List.zipWith (· ^^^ ·) as bs) * X ^ w := by
    rw [message_xor hlen, ← CharTwo.sub_eq_add (message as)]
    ring
  rw [hdiff] at hdvd
  exact (isCoprime_X_pow hg w).dvd_of_dvd_mul_right hdvd

/-- A burst no longer than the register is detected. -/
theorem not_dvd_burst {q : BitVec w} (hq : q ≠ 0#w) (k : ℕ) :
    ¬ generator g ∣ word q * X ^ k := by
  intro hdvd
  have hmk : AdjoinRoot.mk (generator g) (word q) = AdjoinRoot.mk (generator g) (word 0#w) := by
    rw [word_zero, map_zero, AdjoinRoot.mk_eq_zero]
    exact (isCoprime_X_pow hg k).dvd_of_dvd_mul_right hdvd
  exact hq (eq_of_mk_word_eq hmk)

/-- Two errors are detected as long as the register has not come back to its start between them. -/
theorem not_dvd_pair (hw : 0 < w) {m : ℕ}
    (hm : (step g)^[m] (BitVec.twoPow w (w - 1)) ≠ BitVec.twoPow w (w - 1)) (k : ℕ) :
    ¬ generator g ∣ X ^ (m + k) + X ^ k := by
  intro hdvd
  have hone : word (BitVec.twoPow w (w - 1)) = 1 := by
    rw [word_twoPow (by omega), Nat.sub_self, pow_zero]
  have hfactor : (X : (ZMod 2)[X]) ^ (m + k) + X ^ k = (X ^ m - 1) * X ^ k := by
    rw [CharTwo.sub_eq_add]
    ring
  rw [hfactor] at hdvd
  refine hm (eq_of_mk_word_eq (g := g) ?_)
  rw [mk_word_iterate, hone, map_one, mul_one, ← AdjoinRoot.mk_X, ← map_pow,
    ← map_one (AdjoinRoot.mk (generator g)), AdjoinRoot.mk_eq_mk]
  exact (isCoprime_X_pow hg k).dvd_of_dvd_mul_right hdvd

end Detection

end Lzamp.Lib.Crc
