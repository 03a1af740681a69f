import Lzamp.Lib.Bytes
import Lzamp.Mailmsg.Protocol

namespace Lzamp.Agent
open Lib

/-- `AgentError` without its `details`, which are only printed. -/
structure AgentError where
  code : String
  message : String
deriving DecidableEq

/-- The exceptions that the agent's functions can raise. -/
inductive Exn where
  | agent (error : AgentError)
  | keyError
  | typeError
  | valueError
  | unicodeEncodeError
  | structError
  | recursionError
  | osError (errno : ℤ)
deriving DecidableEq

abbrev Py := Except Exn

def raiseAgent {α : Type} (code message : String) : Py α := .error (.agent ⟨code, message⟩)

/-- `struct.pack("<I", value)`. -/
def packU32 (value : ℤ) : Py (List U8) :=
  if 0 ≤ value ∧ value < 2 ^ 32 then pure (leBytes 4 value.toNat) else throw .structError

/-- The format `<n>s`: a byte string cut or padded to its width. -/
def packBytes (width : ℕ) (data : List U8) : List U8 :=
  data.take width ++ List.replicate (width - data.length) 0

/-- The format `<I` at an offset of a buffer that is long enough. -/
def unpackU32 (data : List U8) (offset : ℕ) : ℕ := leNat ((data.drop offset).take 4)

abbrev mailmsgFrameSize : ℕ := 48

/-- `MAILMSG_FRAME.pack`, of the format `<IIII32s`. -/
def mailmsgFramePack (priority messageType sequence length : ℤ) (payload : List U8) :
    Py (List U8) := do
  let priority ← packU32 priority
  let messageType ← packU32 messageType
  let sequence ← packU32 sequence
  let length ← packU32 length
  pure (priority ++ messageType ++ sequence ++ length ++ packBytes 32 payload)

/-- `MAILMSG_PERIPHERAL_PAYLOAD.pack`, of the format `<IIIII8s`. -/
def peripheralPayloadPack (a b c d e : ℤ) (data : List U8) : Py (List U8) := do
  let a ← packU32 a
  let b ← packU32 b
  let c ← packU32 c
  let d ← packU32 d
  let e ← packU32 e
  pure (a ++ b ++ c ++ d ++ e ++ packBytes 8 data)

structure PeripheralPayload where
  peer : ℕ
  status : ℕ
  op : ℕ
  value : ℕ
  length : ℕ
  data : List U8

def peripheralPayloadUnpack (payload : List U8) : Py PeripheralPayload :=
  if payload.length ≠ 28 then throw .structError
  else pure
    { peer := unpackU32 payload 0
      status := unpackU32 payload 4
      op := unpackU32 payload 8
      value := unpackU32 payload 12
      length := unpackU32 payload 16
      data := payload.drop 20 }

/-- `struct.unpack("<i", struct.pack("<I", status))`. -/
def signedU32 (status : ℕ) : ℤ := if status < 2 ^ 31 then status else (status : ℤ) - 2 ^ 32

def mailmsgPriorityControl : ℤ := 1

def packFrame (priority messageType value : ℤ) : Py (List U8) := do
  let value ← packU32 value
  mailmsgFramePack priority messageType 0 4 (value ++ List.replicate 28 0)

def packPeripheralFrame (operation arg0 arg1 arg2 : ℤ) (data : List U8) : Py (List U8) :=
  if 8 < data.length then
    raiseAgent "invalid_arguments" "peripheral inline data exceeds eight bytes"
  else do
    let payload ← peripheralPayloadPack operation arg0 arg1 arg2 data.length
      (data ++ List.replicate (8 - data.length) 0)
    mailmsgFramePack mailmsgPriorityControl 11 0 payload.length (payload ++ List.replicate 4 0)

structure Frame where
  priority : ℕ
  type : ℕ
  sequence : ℕ
  length : ℕ
  payload : List U8
deriving DecidableEq

def unpackFrame (data : List U8) : Py Frame :=
  if data.length ≠ mailmsgFrameSize then
    raiseAgent "short_frame" "MailMsg returned an unexpected record size"
  else
    let priority := unpackU32 data 0
    let length := unpackU32 data 12
    if priority ≠ 1 then
      raiseAgent "wrong_priority" "received a frame from an unexpected priority"
    else if 28 < length then
      raiseAgent "invalid_frame" "received payload length exceeds the MailMsg V7 limit"
    else pure
      { priority := priority
        type := unpackU32 data 4
        sequence := unpackU32 data 8
        length := length
        payload := (data.drop 16).take length }

def readU32 (payload : List U8) (offset : ℕ) : Py ℕ :=
  if payload.length < offset + 4 then raiseAgent "invalid_frame" "MailMsg payload is too short"
  else pure (unpackU32 payload offset)

def peripheralStatusError (status : ℤ) : AgentError :=
  if status = -1 then ⟨"peripheral_invalid_request", "Zephyr rejected the peripheral request"⟩
  else if status = -2 then ⟨"peripheral_timeout", "Zephyr peripheral polling timed out"⟩
  else if status = -19 then
    ⟨"peripheral_unavailable", "peripheral is unavailable in the active pin profile"⟩
  else if status = -22 then
    ⟨"peripheral_invalid_argument", "Zephyr rejected a peripheral argument"⟩
  else ⟨"peripheral_failed", "Zephyr peripheral operation failed"⟩

theorem peripheralStatusError_timeout {status : ℤ} :
    (peripheralStatusError status).code = "peripheral_timeout" ↔ status = -2 := by
  unfold peripheralStatusError
  split_ifs with h1 h2 h3 h4 <;> simp [*]

theorem peripheralStatusError_unavailable {status : ℤ} :
    (peripheralStatusError status).code = "peripheral_unavailable" ↔ status = -19 := by
  unfold peripheralStatusError
  split_ifs with h1 h2 h3 h4 <;> simp [*]

theorem packU32_ofNat {n : ℕ} (h : n < 2 ^ 32) : packU32 n = pure (leBytes 4 n) := by
  have hrange : 0 ≤ (n : ℤ) ∧ (n : ℤ) < 2 ^ 32 := ⟨by omega, by exact_mod_cast h⟩
  rw [packU32, if_pos hrange, Int.toNat_natCast]

theorem packBytes_of_length {width : ℕ} {data : List U8} (h : data.length = width) :
    packBytes width data = data := by
  rw [packBytes, List.take_of_length_le h.le, h, Nat.sub_self]
  exact List.append_nil data

section Request

variable (op arg0 arg1 arg2 : ℕ) (data : List U8)

def requestBytes : List U8 :=
  leBytes 4 op ++ leBytes 4 arg0 ++ leBytes 4 arg1 ++ leBytes 4 arg2 ++ leBytes 4 data.length ++
    (data ++ List.replicate (8 - data.length) 0)

def requestRecord : List U8 :=
  leBytes 4 1 ++ leBytes 4 11 ++ leBytes 4 0 ++ leBytes 4 28 ++
    (requestBytes op arg0 arg1 arg2 data ++ List.replicate 4 0)

variable {data}

theorem length_requestBytes (h : data.length ≤ 8) :
    (requestBytes op arg0 arg1 arg2 data).length = 28 := by
  simp [requestBytes]
  omega

theorem length_requestRecord (h : data.length ≤ 8) :
    (requestRecord op arg0 arg1 arg2 data).length = 48 := by
  simp [requestRecord, length_requestBytes op arg0 arg1 arg2 h]

variable {op arg0 arg1 arg2}

theorem packPeripheralFrame_eq (hop : op < 2 ^ 32) (h0 : arg0 < 2 ^ 32) (h1 : arg1 < 2 ^ 32)
    (h2 : arg2 < 2 ^ 32) (h : data.length ≤ 8) :
    packPeripheralFrame op arg0 arg1 arg2 data = .ok (requestRecord op arg0 arg1 arg2 data) := by
  have hlen : packU32 data.length = pure (leBytes 4 data.length) := packU32_ofNat (by omega)
  have hdata : (data ++ List.replicate (8 - data.length) (0 : U8)).length = 8 := by
    rw [List.length_append, List.length_replicate]
    omega
  have hbytes : (requestBytes op arg0 arg1 arg2 data).length = 28 :=
    length_requestBytes op arg0 arg1 arg2 h
  have hpayload : peripheralPayloadPack op arg0 arg1 arg2 data.length
      (data ++ List.replicate (8 - data.length) 0) = pure (requestBytes op arg0 arg1 arg2 data) := by
    simp only [peripheralPayloadPack, packU32_ofNat hop, packU32_ofNat h0, packU32_ofNat h1,
      packU32_ofNat h2, hlen, pure_bind, packBytes_of_length hdata]
    rfl
  have hframe : (requestBytes op arg0 arg1 arg2 data ++ List.replicate 4 (0 : U8)).length = 32 := by
    rw [List.length_append, hbytes, List.length_replicate]
  rw [packPeripheralFrame, if_neg (by omega), hpayload]
  have hwords : packU32 1 = pure (leBytes 4 1) ∧ packU32 11 = pure (leBytes 4 11) ∧
      packU32 0 = pure (leBytes 4 0) ∧ packU32 (28 : ℕ) = pure (leBytes 4 28) :=
    ⟨packU32_ofNat (by decide), packU32_ofNat (by decide), packU32_ofNat (by decide),
      packU32_ofNat (by decide)⟩
  obtain ⟨h1, h11, h0, h28⟩ := hwords
  rw [pure_bind, hbytes, mailmsgFramePack, packBytes_of_length hframe, mailmsgPriorityControl, h1,
    h11, h0, h28]
  simp only [pure_bind]
  rfl

end Request

/-- C's byte stores are Python's little-endian words. -/
theorem storePayloadU32_eq (v : U32) : Mailmsg.storePayloadU32 v = leBytes 4 v.toNat := by
  have hbyte (k : ℕ) : (v >>> k).setWidth 8 = BitVec.ofNat 8 (v.toNat / 2 ^ k) := by
    apply BitVec.eq_of_toNat_eq
    rw [BitVec.toNat_setWidth, BitVec.toNat_ushiftRight, Nat.shiftRight_eq_div_pow,
      BitVec.toNat_ofNat]
  have hlow : v.setWidth 8 = BitVec.ofNat 8 v.toNat := by
    apply BitVec.eq_of_toNat_eq
    rw [BitVec.toNat_setWidth, BitVec.toNat_ofNat]
  simp only [Mailmsg.storePayloadU32, leBytes, hbyte, hlow, Nat.div_div_eq_div_mul]
  rfl

theorem leNat_storePayloadU32 (v : U32) : leNat (Mailmsg.storePayloadU32 v) = v.toNat := by
  rw [storePayloadU32_eq, leNat_leBytes]
  exact Nat.mod_eq_of_lt v.isLt

theorem signedU32_ofInt {status : ℤ} (hlow : -2 ^ 31 ≤ status) (hhigh : status < 2 ^ 31) :
    signedU32 (BitVec.ofInt 32 status).toNat = status := by
  rw [signedU32, BitVec.toNat_ofInt]
  split_ifs <;> omega

end Lzamp.Agent
