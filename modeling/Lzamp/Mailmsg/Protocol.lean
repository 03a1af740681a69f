import Mathlib.Data.Fintype.Pi
import Mathlib.Data.BitVec
import Mathlib.Logic.Function.Iterate
import Lzamp.Lib.Circular

namespace Lzamp

abbrev U8 := BitVec 8
abbrev U32 := BitVec 32
abbrev U64 := BitVec 64

namespace Mailmsg

def protocolMagic : U32 := 0x4d4d5347
def protocolVersion : U32 := 7

/-- `MAILMSG_PRIORITY_COUNT` is 4, `MAILMSG_RING_SLOTS` 8 and `MAILMSG_PAYLOAD_BYTES` 28; they are
written as numerals below so that arithmetic sees them. -/
abbrev Priority := Fin 4

instance priorityCount_neZero : NeZero 4 := ⟨by decide⟩
instance ringSlots_neZero : NeZero 8 := ⟨by decide⟩
instance payloadBytes_neZero : NeZero 28 := ⟨by decide⟩

abbrev prioCritical : Priority := 0
abbrev prioControl : Priority := 1

def msgNop : U32 := 0
def msgPing : U32 := 1
def msgPong : U32 := 2
def msgAck : U32 := 3
def msgNack : U32 := 4
def msgStopRequest : U32 := 5
def msgStopReady : U32 := 6
def msgStopRefused : U32 := 7
def msgSessionReady : U32 := 8
def msgGpioReadRequest : U32 := 9
def msgGpioReadResult : U32 := 10
def msgPeripheralRequest : U32 := 11
def msgPeripheralResult : U32 := 12

def nackBadCrc : U32 := 1
def nackInvalidFrame : U32 := 2
def stopRefusedInvalidRequest : U32 := 1
def stopRefusedBusy : U32 := 2

/-- Results are C `int`s with constants of their own: callers compare them across conventions. -/
abbrev ringOk : Int := 0
abbrev ringEmpty : Int := -1
abbrev ringFull : Int := -2
abbrev ringIncomplete : Int := -3
abbrev ringBadCrc : Int := -4
abbrev ringInvalid : Int := -5

/-- `BIT(p)` of a priority mask. -/
def bit (p : Priority) : U32 := 1#32 <<< p.val

/-- `mask & BIT(p)` as a condition. -/
def hasBit (mask : U32) (p : Priority) : Bool := mask &&& bit p != 0

def priorityIsReliable (p : Priority) : Bool := hasBit 0x3 p

theorem hasBit_eq_getLsbD (mask : U32) (p : Priority) : hasBit mask p = mask.getLsbD p.val := by
  have hp : p.val < 32 := by omega
  unfold hasBit bit
  cases h : mask.getLsbD p.val with
  | true =>
    simp only [bne_iff_ne, ne_eq]
    intro h0
    have hb := congrArg (fun v : U32 => v.getLsbD p.val) h0
    simp [h] at hb
    omega
  | false =>
    simp only [bne_eq_false_iff_eq]
    apply BitVec.eq_of_getLsbD_eq
    intro i hi
    by_cases hip : i = p.val
    · subst hip
      simp [h]
    · simp only [BitVec.getLsbD_and, BitVec.getLsbD_shiftLeft, BitVec.getLsbD_one]
      by_cases hlt : i < p.val
      · simp [hlt]
      · have hz : i - p.val ≠ 0 := by omega
        simp [hz]

@[simp] theorem hasBit_zero (p : Priority) : hasBit 0 p = false := by
  simp [hasBit]

@[simp] theorem hasBit_or (a b : U32) (p : Priority) :
    hasBit (a ||| b) p = (hasBit a p || hasBit b p) := by
  simp [hasBit_eq_getLsbD]

@[simp] theorem hasBit_and (a b : U32) (p : Priority) :
    hasBit (a &&& b) p = (hasBit a p && hasBit b p) := by
  simp [hasBit_eq_getLsbD]

@[simp] theorem hasBit_not (a : U32) (p : Priority) : hasBit (~~~ a) p = !hasBit a p := by
  have hp : p.val < 32 := by omega
  simp [hasBit_eq_getLsbD, hp]

theorem ne_zero_of_hasBit {a : U32} {p : Priority} (h : hasBit a p = true) : a ≠ 0 := by
  intro h0
  rw [h0, hasBit_zero] at h
  exact Bool.noConfusion h

@[simp] theorem hasBit_bit (p q : Priority) : hasBit (bit p) q = decide (p = q) := by
  revert p q
  decide

/-- One direction of the mailbox controller: a pending bit, a command and a data word for each
priority's channel. -/
@[ext] structure Doorbells where
  status : U32
  cmd : Priority → U32
  dat : Priority → U32
deriving DecidableEq

def channelWord (p : Priority) : U32 := BitVec.ofNat 32 p.val

/-- The CMD write followed by the DAT write, which raises the doorbell. -/
def Doorbells.ring (r : Doorbells) (p : Priority) (command value : U32) : Doorbells where
  status := r.status ||| bit p
  cmd := Function.update r.cmd p command
  dat := Function.update r.dat p value

@[ext] structure Message where
  generation : U32
  type : U32
  sequence : U32
  length : U32
  payload : Fin 28 → U8
  crc32 : U32
  commit : U32
deriving DecidableEq

/-- The all-zero frame of a cleared slot. -/
def Message.zero : Message := ⟨0, 0, 0, 0, fun _ => 0, 0, 0⟩

/-- The fields a sender chooses and a receiver reads. -/
def Message.fields (m : Message) : U32 × U32 × U32 × U32 × (Fin 28 → U8) :=
  (m.generation, m.type, m.sequence, m.length, m.payload)

/-- Little-endian bytes: `mailmsg_store_payload_u32`. -/
def storePayloadU32 (v : U32) : List U8 :=
  [v.setWidth 8, (v >>> 8).setWidth 8, (v >>> 16).setWidth 8, (v >>> 24).setWidth 8]

/-- `mailmsg_payload_u32` of the four bytes from offset `off`. -/
def payloadU32 (payload : Fin 28 → U8) (off : ℕ) : U32 :=
  let at' : ℕ → U32 := fun i =>
    if h : off + i < 28 then (payload ⟨off + i, h⟩).setWidth 32 else 0
  at' 0 ||| (at' 1 <<< 8) ||| (at' 2 <<< 16) ||| (at' 3 <<< 24)

/-- The 44 bytes `generation..payload` in memory order. -/
def frameBytes (m : Message) : List U8 :=
  storePayloadU32 m.generation ++ storePayloadU32 m.type ++ storePayloadU32 m.sequence ++
    storePayloadU32 m.length ++ List.ofFn m.payload

def crcBit (crc : U32) : U32 := (crc >>> 1) ^^^ (0xedb88320#32 &&& -(crc &&& 1#32))

def crcByte (crc : U32) (byte : U8) : U32 := crcBit^[8] (crc ^^^ byte.setWidth 32)

def frameCrc32 (m : Message) : U32 := ~~~ (frameBytes m).foldl crcByte 0xffffffff#32

/-- The header test shared by push and pop. -/
abbrev Message.Malformed (m : Message) : Prop :=
  m.generation = 0 ∨ m.sequence = 0 ∨ 28#32 < m.length

/-- What pop reports for a committed slot. -/
def frameCheck (m : Message) : Int :=
  if m.Malformed then ringInvalid
  else if m.crc32 ≠ frameCrc32 m then ringBadCrc
  else ringOk

theorem frameCheck_range (m : Message) :
    frameCheck m = ringOk ∨ frameCheck m = ringBadCrc ∨ frameCheck m = ringInvalid := by
  unfold frameCheck
  split_ifs <;> simp

/-- A submitted frame as push leaves it in its slot. -/
def Message.seal (m : Message) : Message := { m with crc32 := frameCrc32 m, commit := m.sequence }

@[simp] theorem Message.fields_seal (m : Message) : m.seal.fields = m.fields := rfl

theorem frameCheck_seal {m : Message} (h : ¬ m.Malformed) : frameCheck m.seal = ringOk := by
  have hcrc : m.seal.crc32 = frameCrc32 m.seal := rfl
  have hform : ¬ m.seal.Malformed := h
  rw [frameCheck, if_neg hform, if_neg (not_not.mpr hcrc)]

/-- `struct mailmsg_ring`.  An index outside the ring is undefined behaviour in C; `slotIndex` gives
it some slot, and nothing below relies on which. -/
@[ext] structure Ring where
  producer : U32
  consumer : U32
  slot : Fin 8 → Message
deriving DecidableEq

def Ring.zero : Ring := ⟨0, 0, fun _ => Message.zero⟩

def next (value : U32) : U32 := (value + 1) % 8#32

def slotIndex (index : U32) : Fin 8 := Fin.ofNat 8 index.toNat

/-- The `publish` and `acquire` hooks order memory and carry no data, so they leave no trace here;
`RingSteps` cuts the ring operations at the places where they stand. -/
def ringPush (ring : Ring) (message : Message) : Int × Ring :=
  let producer := ring.producer
  let next := next producer
  if message.Malformed then (ringInvalid, ring)
  else if next = ring.consumer then (ringFull, ring)
  else
    let slot := { message with commit := 0 }
    let slot := { slot with crc32 := frameCrc32 slot }
    let slot := { slot with commit := message.sequence }
    (ringOk, { ring with
      slot := Function.update ring.slot (slotIndex producer) slot
      producer := next })

/-- `message` is the caller's buffer: it is written only when a slot is consumed. -/
def ringPop (ring : Ring) (message : Message) : Int × Ring × Message :=
  let consumer := ring.consumer
  if consumer = ring.producer then (ringEmpty, ring, message)
  else
    let slot := ring.slot (slotIndex consumer)
    if slot.commit ≠ slot.sequence then (ringIncomplete, ring, message)
    else (frameCheck slot, { ring with consumer := next consumer }, slot)

def ringHasData (ring : Ring) : Int := if ring.producer ≠ ring.consumer then 1 else 0

def ringCount (ring : Ring) : Int :=
  let producer := ring.producer.toNat
  let consumer := ring.consumer.toNat
  if 8 ≤ producer ∨ 8 ≤ consumer then ringInvalid
  else if consumer ≤ producer then (producer : Int) - consumer
  else 8 - consumer + producer

theorem toNat_next (v : U32) : (next v).toNat = (v.toNat + 1) % 8 := by
  have h1 : (1 : U32).toNat = 1 := rfl
  have h8 : (8#32).toNat = 8 := rfl
  rw [next, BitVec.toNat_umod, BitVec.toNat_add, h1, h8]
  omega

/-- The index word at absolute position `n`. -/
def indexOf (n : ℕ) : U32 := BitVec.ofNat 32 (n % 8)

@[simp] theorem toNat_indexOf (n : ℕ) : (indexOf n).toNat = n % 8 := by
  simp only [indexOf, BitVec.toNat_ofNat]
  omega

@[simp] theorem next_indexOf (n : ℕ) : next (indexOf n) = indexOf (n + 1) := by
  apply BitVec.eq_of_toNat_eq
  rw [toNat_next, toNat_indexOf, toNat_indexOf]
  omega

@[simp] theorem slotIndex_indexOf (n : ℕ) : slotIndex (indexOf n) = Fin.ofNat 8 n := by
  apply Fin.ext
  simp [slotIndex]

theorem indexOf_inj {n k : ℕ} : indexOf n = indexOf k ↔ n % 8 = k % 8 := by
  rw [← BitVec.toNat_inj, toNat_indexOf, toNat_indexOf]

theorem indexOf_lt (n : ℕ) : (indexOf n).toNat < 8 := by
  rw [toNat_indexOf]
  exact Nat.mod_lt _ (by decide)

end Mailmsg

end Lzamp
