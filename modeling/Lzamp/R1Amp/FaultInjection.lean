import Lzamp.Mailmsg.FrameCrc
import Lzamp.R1Amp.DataPlane

namespace Lzamp.R1Amp
open Mailmsg Lib

/-- `slot->payload[0] ^= 0xff` as an error in the checked bits. -/
def payloadFault : BitVec 352 := 0xff#352 <<< 128

theorem payloadFault_ne_zero : payloadFault ≠ 0 := by decide +kernel

theorem payloadFault_isBurst : IsBurst payloadFault := by
  have hbits : ∀ k : Fin 352, payloadFault.getLsbD k = true → 128 ≤ k.val ∧ k.val < 160 := by
    decide +kernel
  exact ⟨128, fun k hk => hbits ⟨k, BitVec.lt_of_getLsbD hk⟩ hk⟩

theorem corrupt_payloadFault (m : Message) : m.corrupt payloadFault =
    { m with payload := Function.update m.payload 0 (m.payload 0 ^^^ 0xff#8) } := by
  have hheader (v : U32) {s : ℕ} (hs : payloadFault.extractLsb' s 32 = 0#32) :
      v ^^^ payloadFault.extractLsb' s 32 = v := by
    rw [hs, BitVec.xor_zero]
  have hbytes : ∀ i : Fin 28, payloadFault.extractLsb' (128 + 8 * i.val) 8 =
      if i = 0 then 0xff#8 else 0#8 := by
    decide +kernel
  have hpayload : (fun i => m.payload i ^^^ payloadFault.extractLsb' (128 + 8 * i.val) 8) =
      Function.update m.payload 0 (m.payload 0 ^^^ 0xff#8) := by
    funext i
    rw [hbytes]
    by_cases hi : i = 0
    · rw [hi, if_pos rfl, Function.update_self]
    · rw [if_neg hi, Function.update_of_ne hi, BitVec.xor_zero]
  rw [Message.corrupt, hheader _ (by decide +kernel), hheader _ (by decide +kernel),
    hheader _ (by decide +kernel), hheader _ (by decide +kernel), hpayload]

theorem frameCheck_payloadFault {m : Message} (hm : ¬ m.Malformed) :
    frameCheck (m.seal.corrupt payloadFault) = ringBadCrc := by
  have hform : ¬ (m.seal.corrupt payloadFault).Malformed := by
    rw [corrupt_payloadFault]
    exact hm
  have hburst := not_dvd_of_isBurst payloadFault_ne_zero payloadFault_isBurst
  rw [frameCheck, if_neg hform, if_pos (crc32_corrupt_ne rfl hburst)]

theorem mailmsgLinuxRingPush_eq (r : Ring) (m : Message) (corruptPayload : Bool) :
    mailmsgLinuxRingPush r m corruptPayload =
      if m.Malformed then (-einval, r)
      else if next r.producer = r.consumer then (-enospc, r)
      else (0, { r with
        slot := Function.update r.slot (slotIndex r.producer)
          (if corruptPayload then m.seal.corrupt payloadFault else m.seal)
        producer := next r.producer }) := by
  cases corruptPayload with
  | false => rfl
  | true =>
    rw [corrupt_payloadFault]
    rfl

/-- The private enqueue accepts and refuses what the library does and leaves the same ring; with the
fault, only the first payload byte of the new slot differs, and the slot is consumed as BAD_CRC. -/
theorem linux_ring_push_agrees (r : Ring) (m : Message) :
    ((mailmsgLinuxRingPush r m false).1 = 0 ↔ (ringPush r m).1 = ringOk) ∧
    ((mailmsgLinuxRingPush r m false).1 = -einval ↔ (ringPush r m).1 = ringInvalid) ∧
    ((mailmsgLinuxRingPush r m false).1 = -enospc ↔ (ringPush r m).1 = ringFull) ∧
    (mailmsgLinuxRingPush r m false).2 = (ringPush r m).2 ∧
    ((ringPush r m).1 = ringOk →
      let sound := (ringPush r m).2
      let slot := sound.slot (slotIndex r.producer)
      let faulty : Message :=
        { slot with payload := Function.update slot.payload 0 (slot.payload 0 ^^^ 0xff#8) }
      mailmsgLinuxRingPush r m true =
        (0, { sound with slot := Function.update sound.slot (slotIndex r.producer) faulty }) ∧
      faulty.payload 0 ≠ slot.payload 0 ∧
      ∀ (r' : Ring) (message : Message), r'.consumer ≠ r'.producer →
        r'.slot (slotIndex r'.consumer) = faulty →
        ringPop r' message = (ringBadCrc, r'.released, faulty)) := by
  simp only [mailmsgLinuxRingPush_eq, ringPush_eq]
  by_cases hm : m.Malformed
  · simp [hm]
  · by_cases hfull : next r.producer = r.consumer
    · simp [hm, hfull]
    · have hslot : (r.published m).slot (slotIndex r.producer) = m.seal :=
        Function.update_self ..
      rw [if_neg hm, if_neg hfull, if_neg hm, if_neg hfull, if_neg hm, if_neg hfull]
      refine ⟨(by decide : (0 : Int) = 0 ↔ ringOk = ringOk),
        (by decide : 0 = -einval ↔ ringOk = ringInvalid),
        (by decide : 0 = -enospc ↔ ringOk = ringFull), rfl, fun _ => ⟨?_, ?_, ?_⟩⟩
      · rw [hslot, corrupt_payloadFault]
        exact congrArg (Prod.mk 0) (Mailmsg.Ring.ext rfl rfl (Function.update_idem ..).symm)
      · rw [Function.update_self]
        exact (by decide +kernel : ∀ byte : U8, byte ^^^ 0xff#8 ≠ byte) _
      · intro r' message hne hhead
        rw [hslot, ← corrupt_payloadFault] at hhead ⊢
        have hcommit : (r'.slot (slotIndex r'.consumer)).commit =
            (r'.slot (slotIndex r'.consumer)).sequence := by
          rw [hhead, corrupt_payloadFault]
          rfl
        rw [ringPop_committed hne hcommit, hhead, frameCheck_payloadFault hm]

theorem linux_ring_push_agrees_ping :
    let m : Message := { Message.zero with generation := 3, type := msgPing, sequence := 8 }
    (ringPush Ring.zero m).1 = ringOk ∧ (mailmsgLinuxRingPush Ring.zero m true).1 = 0 ∧
      (ringPop (mailmsgLinuxRingPush Ring.zero m true).2 Message.zero).1 = ringBadCrc := by
  intro m
  obtain ⟨hpush, -, hpop⟩ := (linux_ring_push_agrees Ring.zero m).2.2.2.2 (by decide)
  have hne : (mailmsgLinuxRingPush Ring.zero m true).2.consumer ≠
      (mailmsgLinuxRingPush Ring.zero m true).2.producer := by decide
  have hhead : slotIndex (ringPush Ring.zero m).2.consumer = slotIndex Ring.zero.producer := by
    decide
  refine ⟨by decide, by decide, ?_⟩
  rw [hpop (mailmsgLinuxRingPush Ring.zero m true).2 Message.zero hne ?_]
  rw [hpush]
  dsimp only
  rw [hhead, Function.update_self]

end Lzamp.R1Amp
