import Lzamp.Lib.Crc
import Lzamp.Mailmsg.RingContents

namespace Lzamp.Mailmsg
open Lib Polynomial

/-- The polynomial 0x04c11db7. -/
noncomputable def isoHdlcGenerator : (ZMod 2)[X] :=
  X ^ 32 + X ^ 26 + X ^ 23 + X ^ 22 + X ^ 16 + X ^ 12 + X ^ 11 + X ^ 10 + X ^ 8 + X ^ 7 + X ^ 5 +
    X ^ 4 + X ^ 2 + X + 1

noncomputable def isoHdlc (bytes : List U8) : U32 :=
  Crc.crc isoHdlcGenerator 0xffffffff#32 0xffffffff#32 bytes

theorem generator_eq : Crc.generator 0xedb88320#32 = isoHdlcGenerator := by
  have hbits : 0xedb88320#32 = BitVec.twoPow 32 5 ^^^ BitVec.twoPow 32 8 ^^^ BitVec.twoPow 32 9 ^^^
      BitVec.twoPow 32 15 ^^^ BitVec.twoPow 32 19 ^^^ BitVec.twoPow 32 20 ^^^
      BitVec.twoPow 32 21 ^^^ BitVec.twoPow 32 23 ^^^ BitVec.twoPow 32 24 ^^^
      BitVec.twoPow 32 26 ^^^ BitVec.twoPow 32 27 ^^^ BitVec.twoPow 32 29 ^^^
      BitVec.twoPow 32 30 ^^^ BitVec.twoPow 32 31 := by decide
  have hpow (i : ℕ) (hi : i < 32) : Crc.word (BitVec.twoPow 32 i) = X ^ (31 - i) :=
    Crc.word_twoPow hi
  rw [Crc.generator, hbits]
  simp only [Crc.word_xor, hpow, Nat.reduceLT, Nat.reduceSub]
  rw [isoHdlcGenerator]
  ring

/-- `-(crc & 1)` is all ones or zero. -/
theorem crcBit_eq_step : crcBit = Crc.step 0xedb88320#32 := by
  funext crc
  rw [crcBit, Crc.step, BitVec.and_one_eq_setWidth_ofBool_getLsbD]
  cases crc.getLsbD 0
  · exact congrArg (crc >>> 1 ^^^ ·) (by decide)
  · exact congrArg (crc >>> 1 ^^^ ·) (by decide)

theorem frameCrc32_eq_run (m : Message) : frameCrc32 m =
    Crc.run 0xedb88320#32 0xffffffff#32 (frameBytes m) ^^^ 0xffffffff#32 := by
  have hbyte : crcByte = Crc.feed 0xedb88320#32 := by
    funext crc byte
    rw [crcByte, crcBit_eq_step]
    rfl
  rw [frameCrc32, hbyte]
  exact BitVec.xor_allOnes.symm

theorem frameCrc32_eq_isoHdlc (m : Message) : frameCrc32 m = isoHdlc (frameBytes m) := by
  rw [isoHdlc, ← generator_eq, Crc.crc_eq_run (by decide), frameCrc32_eq_run]

/-- The check value of the catalogue: "123456789". -/
example : ~~~ ([0x31, 0x32, 0x33, 0x34, 0x35, 0x36, 0x37, 0x38, 0x39].foldl crcByte 0xffffffff#32) =
    0xcbf43926#32 := by decide +kernel

/-- An error in the bits `generation..payload`: bit `k` of `e` is bit `k % 8` of byte `k / 8`. -/
def Message.corrupt (m : Message) (e : BitVec 352) : Message where
  generation := m.generation ^^^ e.extractLsb' 0 32
  type := m.type ^^^ e.extractLsb' 32 32
  sequence := m.sequence ^^^ e.extractLsb' 64 32
  length := m.length ^^^ e.extractLsb' 96 32
  payload := fun i => m.payload i ^^^ e.extractLsb' (128 + 8 * i.val) 8
  crc32 := m.crc32
  commit := m.commit

/-- The error lies in 32 consecutive bits. -/
def IsBurst (e : BitVec 352) : Prop :=
  ∃ start, ∀ k, e.getLsbD k = true → start ≤ k ∧ k < start + 32

/-- The error is two flipped bits. -/
def IsPair (e : BitVec 352) : Prop :=
  ∃ i j, i < j ∧ j < 352 ∧ ∀ k, e.getLsbD k = decide (k = i ∨ k = j)

theorem storePayloadU32_eq_ofFn (v : U32) :
    storePayloadU32 v = List.ofFn fun i : Fin 4 => v.extractLsb' (0 + 8 * i.val) 8 := by
  have hbyte (s : ℕ) : (v >>> s).setWidth 8 = v.extractLsb' s 8 := by
    apply BitVec.eq_of_getLsbD_eq
    intro i hi
    simp [hi]
  have hfirst : v.setWidth 8 = v.extractLsb' 0 8 := by
    rw [← hbyte 0, BitVec.ushiftRight_zero]
  rw [storePayloadU32, hbyte, hbyte, hbyte, hfirst]
  rfl

theorem message_storePayloadU32 (v : U32) : Crc.message (storePayloadU32 v) = Crc.word v := by
  rw [storePayloadU32_eq_ofFn, Crc.message_ofFn_extractLsb]
  exact congrArg Crc.word BitVec.extractLsb'_eq_self

theorem length_frameBytes (m : Message) : (frameBytes m).length = 44 := by
  simp [frameBytes, storePayloadU32]

theorem message_error (e : BitVec 352) :
    Crc.message (frameBytes (Message.zero.corrupt e)) = Crc.word e := by
  have hpayload : (Message.zero.corrupt e).payload = fun i : Fin 28 =>
      e.extractLsb' (128 + 8 * i.val) 8 := by
    funext i
    exact BitVec.zero_xor
  have hword (s : ℕ) : (0 : U32) ^^^ e.extractLsb' s 32 = e.extractLsb' s 32 := BitVec.zero_xor
  have hsplit : Crc.word e = Crc.word (e.extractLsb' 0 (32 + (32 + (32 + (32 + 8 * 28))))) :=
    congrArg Crc.word BitVec.extractLsb'_eq_self.symm
  rw [hsplit, Crc.word_split, Crc.word_split, Crc.word_split, Crc.word_split, frameBytes,
    hpayload, Crc.message_append, Crc.message_append, Crc.message_append, Crc.message_append,
    Crc.message_ofFn_extractLsb]
  have hlength (v : U32) : (storePayloadU32 v).length = 4 := rfl
  simp only [message_storePayloadU32, Message.corrupt, Message.zero, hlength, List.length_ofFn,
    hword, zero_add, Nat.reduceAdd]
  ring

theorem zipWith_ofFn {n : ℕ} (f : U8 → U8 → U8) (a b : Fin n → U8) :
    List.zipWith f (List.ofFn a) (List.ofFn b) = List.ofFn fun i => f (a i) (b i) := by
  apply List.ext_getElem
  · simp
  · intro i _ _
    simp

theorem xor_frameBytes_corrupt (m : Message) (e : BitVec 352) :
    List.zipWith (· ^^^ ·) (frameBytes m) (frameBytes (m.corrupt e)) =
      frameBytes (Message.zero.corrupt e) := by
  have hcancel {w : ℕ} (a b : BitVec w) : a ^^^ (a ^^^ b) = 0#w ^^^ b := by
    rw [← BitVec.xor_assoc, BitVec.xor_self]
  have hstore (a b : U32) : List.zipWith (· ^^^ ·) (storePayloadU32 a) (storePayloadU32 (a ^^^ b)) =
      storePayloadU32 (0#32 ^^^ b) := by
    simp only [storePayloadU32, List.zipWith_cons_cons, List.zipWith_nil_left, ← hcancel a b,
      BitVec.setWidth_xor, BitVec.ushiftRight_xor_distrib]
  have hpayload : List.zipWith (· ^^^ ·) (List.ofFn m.payload) (List.ofFn (m.corrupt e).payload) =
      List.ofFn (Message.zero.corrupt e).payload := by
    rw [zipWith_ofFn]
    exact congrArg List.ofFn (funext fun i => hcancel _ _)
  simp only [frameBytes]
  rw [List.zipWith_append (by rfl), List.zipWith_append (by rfl), List.zipWith_append (by rfl),
    List.zipWith_append (by rfl), hpayload]
  simp only [Message.corrupt, hstore]
  rfl

theorem frameCrc32_corrupt_ne {e : BitVec 352}
    (he : ¬ Crc.generator 0xedb88320#32 ∣ Crc.word e) (m : Message) :
    frameCrc32 m ≠ frameCrc32 (m.corrupt e) := by
  intro hcrc
  rw [frameCrc32_eq_run, frameCrc32_eq_run, BitVec.xor_left_inj] at hcrc
  have hlen : (frameBytes m).length = (frameBytes (m.corrupt e)).length := by
    rw [length_frameBytes, length_frameBytes]
  have hdvd := Crc.dvd_of_run_eq (by decide) (by decide) hlen hcrc
  rw [xor_frameBytes_corrupt, message_error] at hdvd
  exact he hdvd

theorem not_dvd_of_isBurst {e : BitVec 352} (he : e ≠ 0) (hburst : IsBurst e) :
    ¬ Crc.generator 0xedb88320#32 ∣ Crc.word e := by
  obtain ⟨start, hwindow⟩ := hburst
  -- a window that sticks out at the end is moved back
  have hmoved : ∀ k, e.getLsbD k = true → min start 320 ≤ k ∧ k < min start 320 + 32 := by
    intro k hk
    have hin := hwindow k hk
    have hlt := BitVec.lt_of_getLsbD hk
    omega
  have hword := Crc.word_of_window (by omega) hmoved
  rw [hword]
  refine Crc.not_dvd_burst (by decide) ?_ _
  intro hzero
  rw [hzero, Crc.word_zero, zero_mul, ← Crc.word_zero] at hword
  exact he (Crc.word_injective hword)

/-- The powers of `X` modulo the generator do not come back to 1 within a frame. -/
theorem crcBit_period : BitVec.twoPow 32 31 ∉
    List.iterate crcBit (crcBit (BitVec.twoPow 32 31)) 351 := by decide +kernel

theorem not_dvd_of_isPair {e : BitVec 352} (hpair : IsPair e) :
    ¬ Crc.generator 0xedb88320#32 ∣ Crc.word e := by
  obtain ⟨i, j, hij, hj, hbits⟩ := hpair
  have he : e = BitVec.twoPow 352 i ^^^ BitVec.twoPow 352 j := by
    apply BitVec.eq_of_getLsbD_eq
    intro k hk
    have hi : i < 352 := by omega
    rw [hbits, BitVec.getLsbD_xor, BitVec.getLsbD_twoPow, BitVec.getLsbD_twoPow]
    by_cases hki : k = i
    · have hkj : k ≠ j := by omega
      simp [hki, hi, hij.ne, hij.ne']
    · simp [hki, Ne.symm hki, hj, eq_comm]
  have hi : 352 - 1 - i = (j - i) + (352 - 1 - j) := by omega
  rw [he, Crc.word_xor, Crc.word_twoPow (by omega), Crc.word_twoPow hj, hi]
  refine Crc.not_dvd_pair (by decide) (by decide) ?_ _
  intro hback
  refine crcBit_period (List.mem_iterate.mpr ⟨j - i - 1, by omega, ?_⟩)
  rw [← Function.iterate_succ_apply, crcBit_eq_step, Nat.succ_eq_add_one,
    Nat.sub_add_cancel (by omega)]
  exact hback.symm

theorem crc32_corrupt_ne {m : Message} {e : BitVec 352} (hcrc : m.crc32 = frameCrc32 m)
    (he : ¬ Crc.generator 0xedb88320#32 ∣ Crc.word e) :
    (m.corrupt e).crc32 ≠ frameCrc32 (m.corrupt e) := by
  intro heq
  exact frameCrc32_corrupt_ne he m (hcrc.symm.trans heq)

theorem frameCheck_corrupt_ne {m : Message} {e : BitVec 352} (hcrc : m.crc32 = frameCrc32 m)
    (he : ¬ Crc.generator 0xedb88320#32 ∣ Crc.word e) : frameCheck (m.corrupt e) ≠ ringOk := by
  rw [frameCheck, if_pos (crc32_corrupt_ne hcrc he)]
  split
  · decide
  · decide

/-- The frame CRC is CRC-32/ISO-HDLC, and a slot published by an accepted push and then hit by a
short error is never popped as a frame. -/
theorem frame_crc_detects_short_errors :
    (∀ m, frameCrc32 m = isoHdlc (frameBytes m)) ∧
    ∀ (r : Ring) (m : Message), (ringPush r m).1 = ringOk →
      ∀ e : BitVec 352, e ≠ 0 → IsBurst e ∨ IsPair e →
      ∀ (r' : Ring) (message : Message),
        r'.slot (slotIndex r'.consumer) =
          ((ringPush r m).2.slot (slotIndex r.producer)).corrupt e →
        (ringPop r' message).1 ≠ ringOk := by
  refine ⟨frameCrc32_eq_isoHdlc, ?_⟩
  intro r m hpush e he hshort r' message hslot
  obtain ⟨hm, hroom⟩ := (ringPush_ok_iff r m).mp hpush
  have hsealed : (ringPush r m).2.slot (slotIndex r.producer) = m.seal := by
    rw [ringPush_eq, if_neg hm, if_neg hroom]
    exact Function.update_self ..
  have hdvd := hshort.elim (not_dvd_of_isBurst he) not_dvd_of_isPair
  rw [hsealed] at hslot
  by_cases hempty : r'.consumer = r'.producer
  · rw [ringPop_empty hempty]
    exact (by decide : ringEmpty ≠ ringOk)
  · by_cases hcommit : (r'.slot (slotIndex r'.consumer)).commit =
        (r'.slot (slotIndex r'.consumer)).sequence
    · rw [ringPop_committed hempty hcommit, hslot]
      exact frameCheck_corrupt_ne rfl hdvd
    · rw [ringPop, if_neg hempty, if_pos hcommit]
      exact (by decide : ringIncomplete ≠ ringOk)

/-- One flipped bit of the generation of a PING. -/
theorem frame_crc_detects_flipped_bit :
    let m : Message := { Message.zero with generation := 3, type := msgPing, sequence := 8 }
    let r := (ringPush Ring.zero m).2
    (ringPush Ring.zero m).1 = ringOk ∧
      (ringPop { r with slot := fun i => (r.slot i).corrupt (BitVec.twoPow 352 0) }
        Message.zero).1 ≠ ringOk := by
  have hne : BitVec.twoPow 352 0 ≠ 0 := by decide +kernel
  refine ⟨by decide, frame_crc_detects_short_errors.2 Ring.zero _ (by decide)
    (BitVec.twoPow 352 0) hne (.inl ⟨0, ?_⟩) _ _ rfl⟩
  intro k hk
  rw [BitVec.getLsbD_twoPow] at hk
  obtain rfl : 0 = k := of_decide_eq_true (Bool.and_eq_true_iff.mp hk).2
  decide

end Lzamp.Mailmsg
