import Lzamp.Agent.Frames
import Lzamp.Lib.PyText

namespace Lzamp.Agent
open Lib.PyText

/-- One pass of a waiting loop: what the clock, `poll` and `read` gave it. -/
inductive Turn where
  /-- No time is left. -/
  | expired
  /-- `poll` returned nothing, or the read would have blocked. -/
  | idle
  /-- POLLERR or POLLHUP without POLLIN. -/
  | hangup
  /-- The read failed with another error. -/
  | failed (errno : ℤ)
  | record (data : List U8)

/-- What the operating system answers to one call. -/
structure Host where
  /-- The errno of `os.open`, if it fails. -/
  openError : Option ℤ
  /-- The number of bytes `os.write` took, or its errno. -/
  written : Except ℤ ℕ
  turns : List Turn
  strerror : ℤ → String

structure Ack where
  sequence : ℕ
  peerSequence : ℕ
deriving DecidableEq

/-- The variables `ack` and `result` of the loop. -/
structure Waiting (ρ : Type) where
  ack : Option Ack
  result : Option ρ

/-- What distinguishes the loops. -/
structure ReplyKind (ρ : Type) where
  resultType : ℕ
  accept : Frame → Py ρ
  timeoutMessage : String

variable {ρ : Type}

def onAck (w : Waiting ρ) (frame : Frame) : Py (Waiting ρ) :=
  if frame.length < 8 then raiseAgent "invalid_ack" "ACK payload is too short"
  else do
    let status ← readU32 frame.payload 4
    if status ≠ 0 then raiseAgent "ack_failed" "Zephyr returned a nonzero ACK status"
    else do
      let peer ← readU32 frame.payload 0
      pure { w with ack := some ⟨frame.sequence, peer⟩ }

def onFrame (kind : ReplyKind ρ) (w : Waiting ρ) (frame : Frame) : Py (Waiting ρ) :=
  if frame.type = 3 then onAck w frame
  else if frame.type = 4 then raiseAgent "nack" "Zephyr rejected the request"
  else if frame.type = kind.resultType then do
    let result ← kind.accept frame
    pure { w with result := some result }
  else raiseAgent "unexpected_frame" "received an unexpected MailMsg type"

/-- The `while` loop; `none` when the turns run out first. -/
def awaitReplies (kind : ReplyKind ρ) (w : Waiting ρ) (turns : List Turn) :
    Option (Py (Ack × ρ)) :=
  match w.ack, w.result with
  | some ack, some result => some (pure (ack, result))
  | _, _ =>
    match turns with
    | [] => none
    | .expired :: _ => some (raiseAgent "timeout" kind.timeoutMessage)
    | .idle :: turns => awaitReplies kind w turns
    | .hangup :: _ => some (raiseAgent "mailmsg_offline" "MailMsg session went offline")
    | .failed errno :: _ => some (throw (.osError errno))
    | .record data :: turns =>
      match unpackFrame data >>= onFrame kind w with
      | .error e => some (throw e)
      | .ok w => awaitReplies kind w turns

abbrev enospc : ℤ := 28

/-- Open, write one record, and wait for both replies. -/
def exchange (kind : ReplyKind ρ) (request : Py (List U8)) (host : Host) :
    Option (Py (Ack × ρ)) :=
  match host.openError with
  | some errno => some (raiseAgent "mailmsg_open_failed" (host.strerror errno))
  | none =>
    match request, host.written with
    | .error e, _ => some (throw e)
    | .ok _, .error errno =>
      some (raiseAgent (if errno = enospc then "queue_full" else "mailmsg_write_failed")
        (host.strerror errno))
    | .ok _, .ok written =>
      if written ≠ mailmsgFrameSize then
        some (raiseAgent "short_write" "MailMsg accepted only part of the request")
      else awaitReplies kind ⟨none, none⟩ host.turns

structure PeriphResult where
  sequence : ℕ
  peerSequence : ℕ
  status : ℤ
  value : ℕ
  data : List U8
deriving DecidableEq

def acceptPeripheral (operation : ℤ) (frame : Frame) : Py PeriphResult :=
  if frame.length ≠ 28 then
    raiseAgent "invalid_peripheral_result" "peripheral result must be 28 bytes"
  else do
    let payload ← peripheralPayloadUnpack frame.payload
    if (payload.op : ℤ) ≠ operation ∨ 8 < payload.length then
      raiseAgent "invalid_peripheral_result" "operation or length mismatch"
    else
      pure ⟨frame.sequence, payload.peer, signedU32 payload.status, payload.value,
        payload.data.take payload.length⟩

def peripheralReply (operation : ℤ) : ReplyKind PeriphResult where
  resultType := 12
  accept := acceptPeripheral operation
  timeoutMessage := "timed out waiting for Zephyr ACK/result"

/-- The parts of a successful answer that come from the frames. -/
structure CallResult where
  value : ℕ
  data : List U8
  ackSequence : ℕ
  ackPeerSequence : ℕ
  resultSequence : ℕ

def finishPeripheral (ack : Ack) (result : PeriphResult) : Py CallResult :=
  if ack.peerSequence ≠ result.peerSequence then
    raiseAgent "sequence_mismatch" "ACK and result refer to different requests"
  else if result.status ≠ 0 then throw (.agent (peripheralStatusError result.status))
  else pure ⟨result.value, result.data, ack.sequence, ack.peerSequence, result.sequence⟩

structure GpioResult where
  sequence : ℕ
  peerSequence : ℕ
  line : ℕ
  value : ℕ
deriving DecidableEq

def acceptGpioRead (line : ℤ) (frame : Frame) : Py GpioResult :=
  if frame.length ≠ 12 then
    raiseAgent "invalid_gpio_result" "GPIO result payload must be 12 bytes"
  else do
    let resultLine ← readU32 frame.payload 4
    let value ← readU32 frame.payload 8
    if (resultLine : ℤ) ≠ line ∨ ¬ (value = 0 ∨ value = 1) then
      raiseAgent "invalid_gpio_result" "Zephyr returned an invalid GPIO sample"
    else do
      let peer ← readU32 frame.payload 0
      pure ⟨frame.sequence, peer, resultLine, value⟩

def gpioReadReply (line : ℤ) : ReplyKind GpioResult where
  resultType := 10
  accept := acceptGpioRead line
  timeoutMessage := "timed out waiting for Zephyr ACK/GPIO result"

def finishGpioRead (ack : Ack) (result : GpioResult) : Py CallResult :=
  if ack.peerSequence ≠ result.peerSequence then
    raiseAgent "sequence_mismatch" "ACK and GPIO result refer to different requests"
  else pure ⟨result.value, [], ack.sequence, ack.peerSequence, result.sequence⟩

def gpioReadLines : List ℤ := [25, 28, 29]

def executeGpioRead (line : ℤ) (host : Host) : Option (Py CallResult) :=
  if line ∉ gpioReadLines then
    some (raiseAgent "invalid_arguments" "line must be one of 25, 28, or 29")
  else
    (exchange (gpioReadReply line) (packFrame mailmsgPriorityControl 9 line) host).map fun r =>
      r >>= fun (ack, result) => finishGpioRead ack result

/-- `execute_zephyr_peripheral` once its arguments are numbers and bytes. -/
def executePeripheral (operation arg0 arg1 arg2 : ℤ) (data : List U8) (host : Host) :
    Option (Py CallResult) :=
  (exchange (peripheralReply operation) (packPeripheralFrame operation arg0 arg1 arg2 data)
    host).map fun r => r >>= fun (ack, result) => finishPeripheral ack result

/-- What holds of every result that a pass can accept holds of the one that the loop returns. -/
theorem awaitReplies_result {ρ : Type} {kind : ReplyKind ρ} {P : ρ → Prop} {turns : List Turn}
    (hP : ∀ data frame result, .record data ∈ turns → unpackFrame data = .ok frame →
      frame.type = kind.resultType → kind.accept frame = .ok result → P result)
    {w : Waiting ρ} (hw : ∀ result ∈ w.result, P result) {ack : Ack} {result : ρ}
    (h : awaitReplies kind w turns = some (.ok (ack, result))) : P result := by
  -- on the turns; the invariant is that a result already kept has the property
  induction turns generalizing w with
  | nil =>
    unfold awaitReplies at h
    split at h
    · rename_i hresult
      cases h
      exact hw _ hresult
    · cases h
  | cons turn turns ih =>
    have hP' : ∀ data frame result, .record data ∈ turns → unpackFrame data = .ok frame →
        frame.type = kind.resultType → kind.accept frame = .ok result → P result :=
      fun data frame result hmem => hP data frame result (List.mem_cons_of_mem _ hmem)
    unfold awaitReplies at h
    split at h
    · rename_i hresult
      cases h
      exact hw _ hresult
    · cases turn with
      | expired => cases h
      | idle => exact ih hP' hw h
      | hangup => cases h
      | failed errno => cases h
      | record data =>
        dsimp only at h
        split at h
        · cases h
        · rename_i w' hframe
          obtain ⟨frame, hunpack, hon⟩ := bind_eq_ok.mp hframe
          refine ih hP' ?_ h
          unfold onFrame at hon
          split_ifs at hon with hack hnack hresult
          · unfold onAck at hon
            split_ifs at hon
            · cases hon
            · obtain ⟨status, -, hon⟩ := bind_eq_ok.mp hon
              split_ifs at hon
              · cases hon
              · obtain ⟨peer, -, hon⟩ := bind_eq_ok.mp hon
                cases hon
                exact hw
          · cases hon
          · -- a later result replaces the one kept
            obtain ⟨r, haccept, hon⟩ := bind_eq_ok.mp hon
            cases hon
            rintro _ ⟨⟩
            exact hP data frame r List.mem_cons_self hunpack hresult haccept
          · cases hon

theorem acceptPeripheral_peer {operation : ℤ} {frame : Frame} {result : PeriphResult}
    (h : acceptPeripheral operation frame = .ok result) :
    frame.length = 28 ∧ result.peerSequence = unpackU32 frame.payload 0 := by
  unfold acceptPeripheral at h
  split_ifs at h with hlength
  · cases h
  · obtain ⟨payload, hpayload, h⟩ := bind_eq_ok.mp h
    split_ifs at h
    · cases h
    · cases h
      unfold peripheralPayloadUnpack at hpayload
      split_ifs at hpayload
      cases hpayload
      exact ⟨not_not.mp hlength, rfl⟩

theorem acceptGpioRead_peer {line : ℤ} {frame : Frame} {result : GpioResult}
    (h : acceptGpioRead line frame = .ok result) :
    frame.length = 12 ∧ result.peerSequence = unpackU32 frame.payload 0 := by
  unfold acceptGpioRead at h
  split_ifs at h with hlength
  · cases h
  · obtain ⟨resultLine, -, h⟩ := bind_eq_ok.mp h
    obtain ⟨value, -, h⟩ := bind_eq_ok.mp h
    split_ifs at h
    · cases h
    · obtain ⟨peer, hpeer, h⟩ := bind_eq_ok.mp h
      cases h
      unfold readU32 at hpeer
      split_ifs at hpeer
      · cases hpeer
      · cases hpeer
        exact ⟨not_not.mp hlength, rfl⟩

theorem finishPeripheral_peer {ack : Ack} {result : PeriphResult} {r : CallResult}
    (h : finishPeripheral ack result = .ok r) :
    ack.peerSequence = result.peerSequence ∧ r.ackPeerSequence = ack.peerSequence := by
  unfold finishPeripheral at h
  split_ifs at h with hpeer
  · cases h
  · cases h
    exact ⟨not_not.mp hpeer, rfl⟩

theorem finishGpioRead_peer {ack : Ack} {result : GpioResult} {r : CallResult}
    (h : finishGpioRead ack result = .ok r) :
    ack.peerSequence = result.peerSequence ∧ r.ackPeerSequence = ack.peerSequence := by
  unfold finishGpioRead at h
  split_ifs at h with hpeer
  · cases h
  · cases h
    exact ⟨not_not.mp hpeer, rfl⟩

end Lzamp.Agent
