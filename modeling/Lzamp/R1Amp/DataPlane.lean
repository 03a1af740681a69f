import Lzamp.R1Amp.Lifecycle

namespace Lzamp.R1Amp
open Mailmsg Lib

/-- Where a `read` call in progress stands.  It may block, so it is cut at its lock sections. -/
inductive ReadPhase where
  | entered
  | sampled (generation : U32)
  | waiting (generation : U32)
deriving DecidableEq

/-- `struct r1_amp_mailmsg_user_file`, with a name for the file and the reads in progress on it, of
which there may be several when threads share the file. -/
structure UserFile where
  id : ℕ
  channel : Priority
  readerClaimed : Bool
  reads : List ReadPhase
deriving DecidableEq

/-- `struct mailmsg_user_frame`, the 48-byte record of the devices. -/
structure UserFrame where
  priority : U32
  type : U32
  sequence : U32
  length : U32
  payload : Fin 32 → U8

abbrev userFrameBytes : ℕ := 48

def Driver.modifyUser (d : Driver) (p : Priority) (f : UserChannel → UserChannel) : Driver :=
  { d with user := Function.update d.user p (f (d.user p)) }

/-- `r1_amp_mailmsg_user_open`; `allocated` is whether `kzalloc` gave memory. -/
def mailmsgUserOpen (allocated : Bool) (d : Driver) : Int × Driver :=
  if !allocated then (-enomem, d)
  else
    let ret := mailmsgDataGateLocked d
    if ret ≠ 0 then (ret, d)
    else (0, { d with mailmsgUserOpenCount := d.mailmsgUserOpenCount + 1 })

def mailmsgUserRelease (file : UserFile) (d : Driver) : Driver :=
  let d := if file.readerClaimed then
      d.modifyUser file.channel fun c => { c with readerOpenCount := c.readerOpenCount - 1 }
    else d
  { d with mailmsgUserOpenCount := d.mailmsgUserOpenCount - 1 }

def mailmsgUserClaimReader (file : UserFile) (d : Driver) : Int × UserFile × Driver :=
  if file.readerClaimed then (0, file, d)
  else if (d.user file.channel).readerOpenCount ≠ 0 then (-ebusy, file, d)
  else (0, { file with readerClaimed := true },
    d.modifyUser file.channel fun c => { c with readerOpenCount := c.readerOpenCount + 1 })

def userFrame (p : Priority) (message : Message) : UserFrame where
  priority := channelWord p
  type := message.type
  sequence := message.sequence
  length := message.length
  payload := fun i =>
    if h : i.val < 28 then if i.val < message.length.toNat then message.payload ⟨i.val, h⟩ else 0
    else 0

inductive ReadResult where
  | frame (frame : UserFrame)
  | error (errno : Int)
  | block

/-- What `r1_amp_mailmsg_user_read` does with the `ret` its lock section leaves. -/
def userReadDispatch (nonblock copyFault : Bool) (p : Priority) (ret : Int) (message : Message) :
    ReadResult :=
  if ret = 0 then if copyFault then .error (-efault) else .frame (userFrame p message)
  else if ret = -eagain then .error ret
  else if ret = -enolink ∨ ret = -eshutdown then .error ret
  else if ret ≠ ringEmpty then .error (ringResultToErrno ret)
  else if nonblock then .error (-eagain)
  else .block

/-- One pass of `r1_amp_mailmsg_user_read` through its lock section. -/
def mailmsgUserReadTry (nonblock copyFault : Bool) (file : UserFile) (d : Driver) :
    ReadResult × Driver :=
  let gate := mailmsgDataGateLocked d
  if gate ≠ 0 then (userReadDispatch nonblock copyFault file.channel gate Message.zero, d)
  else
    let r := endpointReceive d.endpoint d.shared file.channel Message.zero
    (userReadDispatch nonblock copyFault file.channel r.ret r.message, d.received r)

/-- What `r1_amp_mailmsg_user_write` returns for the `ret` its lock section leaves. -/
def userWriteErrno (ret queueResult : Int) : Int :=
  if ret = -eagain ∨ ret = -enolink ∨ ret = -eshutdown then ret
  else if ret ≠ 0 then
    if ret ≤ endpointInvalid then ringResultToErrno ret else ringResultToErrno queueResult
  else userFrameBytes

/-- `r1_amp_mailmsg_user_write`; `frame` is `none` when `copy_from_user` fails. -/
def mailmsgUserWrite (count : ℕ) (frame : Option UserFrame) (file : UserFile) (d : Driver) :
    Int × Driver :=
  if count ≠ userFrameBytes then (-einval, d)
  else match frame with
  | none => (-efault, d)
  | some frame =>
    if frame.priority ≠ channelWord file.channel ∨ 28#32 < frame.length then (-einval, d)
    else
      let gate := mailmsgDataGateLocked d
      if gate ≠ 0 then (userWriteErrno gate SendResult.zero.queueResult, d)
      else
        let s := endpointSend mailmsgNotifyLocked d.mbox d.endpoint d.shared file.channel
          frame.type (some (List.ofFn frame.payload)) frame.length SendResult.zero
        (userWriteErrno s.ret s.result.queueResult,
          { d with endpoint := s.endpoint, shared := s.shared, mbox := s.notifier })

abbrev epollIn : Int := 0x1
abbrev epollErr : Int := 0x8
abbrev epollHup : Int := 0x10
abbrev epollRdNorm : Int := 0x40

def mailmsgUserPoll (file : UserFile) (d : Driver) : Int × UserFile × Driver :=
  let (ret, file, d) := mailmsgUserClaimReader file d
  if ret ≠ 0 then (epollErr, file, d)
  else
    let mask := match d.life.mailmsgState with
      | .offline | .stopping => epollHup + epollErr
      | .starting => epollErr
      | .active =>
        if 0 < endpointHasReceived d.endpoint d.shared file.channel then epollIn + epollRdNorm
        else 0
      | _ => 0
    (mask, file, d)

/-- `mailmsg_linux_ring_push`: the library push with an optional payload fault. -/
def mailmsgLinuxRingPush (ring : Ring) (message : Message) (corruptPayload : Bool) : Int × Ring :=
  let producer := ring.producer
  let next := (producer + 1) % 8#32
  if message.generation = 0 ∨ message.sequence = 0 ∨ 28#32 < message.length then (-einval, ring)
  else if next = ring.consumer then (-enospc, ring)
  else
    let slot := { message with commit := 0 }
    let slot := { slot with crc32 := frameCrc32 slot }
    let slot := if corruptPayload then
        { slot with payload := Function.update slot.payload 0 (slot.payload 0 ^^^ 0xff#8) }
      else slot
    let slot := { slot with commit := message.sequence }
    (0, { ring with
      slot := Function.update ring.slot (slotIndex producer) slot
      producer := next })

def mailmsgTestEnqueueLocked (p : Priority) (value : U32) (corruptPayload : Bool) (d : Driver) :
    Int × Driver :=
  if d.shared.magic ≠ protocolMagic ∨ d.shared.version ≠ protocolVersion ∨
      d.shared.generation ≠ d.endpoint.generation then (-eproto, d)
  else
    let (sequence, endpoint) := endpointNextSequence d.endpoint
    let request := composeFrame endpoint.generation msgPing sequence 4
      (some (storePayloadU32 value))
    let (ret, ring) := mailmsgLinuxRingPush (d.shared.linuxToCpu3 p) request corruptPayload
    (ret, { d with endpoint := endpoint, shared := d.shared.setTx .linux p ring })

/-- A text of two numbers whose first is a priority, as `sscanf` and the range check leave it. -/
def priorityArgument : Option (U32 × U32) → Option (Priority × U32)
  | some (priority, value) =>
    if h : priority.toNat < 4 then some (⟨priority.toNat, h⟩, value) else none
  | none => none

/-- `doorbell_store`; `parsed` is what `sscanf` found. -/
def doorbellStore (parsed : Option (U32 × U32)) (count : ℕ) (d : Driver) : Int × Driver :=
  match priorityArgument parsed with
  | none => (-einval, d)
  | some (p, value) =>
    let gate := mailmsgDataGateLocked d
    if gate ≠ 0 then (gate, d)
    else
      let (ret, mbox) := mboxDirectSendLocked d.mbox p (rawDoorbell ||| channelWord p) value
      (if ret < 0 then ret else count, { d with mbox := mbox })

/-- The accepted path of `mailmsg_send_ping` with a corrupted payload. -/
def sendCorruptPing (p : Priority) (value : U32) (count : ℕ) (d : Driver) : Int × Driver :=
  let (ret, d) := mailmsgTestEnqueueLocked p value true d
  if ret ≠ 0 then (ret, d)
  else (count, { d with mbox := (mailmsgNotifyLocked d.mbox p).2 })

/-- The accepted path of `mailmsg_send_ping` through the endpoint. -/
def sendPing (p : Priority) (value : U32) (count : ℕ) (d : Driver) : Int × Driver :=
  let s := endpointSend mailmsgNotifyLocked d.mbox d.endpoint d.shared p msgPing
    (some (storePayloadU32 value)) 4 SendResult.zero
  let d := { d with endpoint := s.endpoint, shared := s.shared, mbox := s.notifier }
  if s.ret ≠ 0 then
    (if s.ret ≤ endpointInvalid then ringResultToErrno s.ret
      else ringResultToErrno s.result.queueResult, d)
  else (count, d)

def mailmsgSendPing (parsed : Option (U32 × U32)) (count : ℕ) (corruptPayload : Bool)
    (d : Driver) : Int × Driver :=
  match priorityArgument parsed with
  | none => (-einval, d)
  | some (p, value) =>
    let gate := mailmsgDataGateLocked d
    if gate ≠ 0 then (gate, d)
    else if corruptPayload then sendCorruptPing p value count d
    else sendPing p value count d

def mailmsgPingStore (parsed : Option (U32 × U32)) (count : ℕ) (d : Driver) : Int × Driver :=
  mailmsgSendPing parsed count false d

def mailmsgCrcInjectStore (parsed : Option (U32 × U32)) (count : ℕ) (d : Driver) : Int × Driver :=
  mailmsgSendPing parsed count true d

/-- The text written to `mailmsg_notify_inject`. -/
inductive InjectText where
  | clear
  | numbers (priority : U32) (errno : Int) (remaining : U32)
  | other

def mailmsgNotifyInjectStore (text : InjectText) (count : ℕ) (d : Driver) : Int × Driver :=
  match text with
  | .clear => (count, { d with mbox := { d.mbox with notifyInjectRemaining := 0 } })
  | .other => (-einval, d)
  | .numbers priority errno remaining =>
    if 4#32 ≤ priority ∨ 0 ≤ errno ∨ errno < -maxErrno ∨ remaining = 0 ∨ 1000#32 < remaining then
      (-einval, d)
    else
      let gate := mailmsgDataGateLocked d
      if gate ≠ 0 then (gate, d)
      else (count, { d with mbox := { d.mbox with
        notifyInjectPriority := priority
        notifyInjectErrno := errno
        notifyInjectRemaining := remaining } })

def mailmsgQueuePushStore (parsed : Option (U32 × U32)) (count : ℕ) (d : Driver) : Int × Driver :=
  match priorityArgument parsed with
  | none => (-einval, d)
  | some (p, value) =>
    let gate := mailmsgDataGateLocked d
    if gate ≠ 0 then (gate, d)
    else
      let (ret, d) := mailmsgTestEnqueueLocked p value false d
      (storeResult ret count, d)

inductive ResponseReason where
  | protocolNotReady
  | lifecyclePending
  | lifecycleTimeout
  | offline
  | unarmed
  | empty
deriving DecidableEq

/-- One line of `mailmsg_response`. -/
inductive ResponseLine where
  | noData (reason : ResponseReason)
  | failed (p : Priority) (ret : Int)
  | feedback (p : Priority) (type sequence peerSequence : U32) (status : Int)
  | value (p : Priority) (type sequence word : U32)
deriving DecidableEq

def responseLine (p : Priority) (response : Message) : ResponseLine :=
  if (response.type = msgAck ∨ response.type = msgNack) ∧ 8#32 ≤ response.length then
    .feedback p response.type response.sequence (payloadU32 response.payload 0)
      (payloadU32 response.payload 4).toInt
  else
    .value p response.type response.sequence
      (if 4#32 ≤ response.length then payloadU32 response.payload 0 else 0)

def closedReason (state : SessionState) : ResponseReason :=
  match state with
  | .starting | .stopping => .lifecyclePending
  | .startTimeout | .stopTimeout => .lifecycleTimeout
  | .offline => .offline
  | _ => .unarmed

/-- The `while` loop over one reverse ring; `none` when it has not ended within the fuel. -/
def drainResponses (p : Priority) : ℕ → Driver → List ResponseLine →
    Option (Driver × List ResponseLine)
  | 0, _, _ => none
  | fuel + 1, d, lines =>
    let r := endpointReceive d.endpoint d.shared p Message.zero
    let d := d.received r
    if r.ret = ringEmpty then some (d, lines)
    else if r.ret ≠ 0 then
      let lines := lines ++ [.failed p r.ret]
      if r.ret = ringIncomplete ∨ r.ret ≤ endpointInvalid then some (d, lines)
      else drainResponses p fuel d lines
    else drainResponses p fuel d (lines ++ [responseLine p r.message])

def drainAll (fuel : ℕ) : List Priority → Driver → List ResponseLine →
    Option (Driver × List ResponseLine)
  | [], d, lines => some (d, lines)
  | p :: ps, d, lines =>
    match drainResponses p fuel d lines with
    | none => none
    | some (d, lines) => drainAll fuel ps d lines

def mailmsgResponseShow (fuel : ℕ) (d : Driver) : Option (Driver × List ResponseLine) :=
  if d.endpoint.role = none then some (d, [.noData .protocolNotReady])
  else if mailmsgDataGateLocked d ≠ 0 then
    some (d, [.noData (closedReason d.life.mailmsgState)])
  else
    match drainAll fuel [0, 1, 2, 3] d [] with
    | none => none
    | some (d, lines) => some (d, if lines = [] then [.noData .empty] else lines)

def drainStep (p : Priority) (s : Driver × List ResponseLine) :
    (Driver × List ResponseLine) ⊕ (Driver × List ResponseLine) :=
  let r := endpointReceive s.1.endpoint s.1.shared p Message.zero
  let d := s.1.received r
  if r.ret = ringEmpty then .inr (d, s.2)
  else if r.ret ≠ 0 then
    let lines := s.2 ++ [.failed p r.ret]
    if r.ret = ringIncomplete ∨ r.ret ≤ endpointInvalid then .inr (d, lines)
    else .inl (d, lines)
  else .inl (d, s.2 ++ [responseLine p r.message])

theorem drainResponses_eq (p : Priority) (fuel i : ℕ) (d : Driver) (lines : List ResponseLine) :
    drainResponses p fuel d lines = cutLoop (fun _ => drainStep p) fuel i (d, lines) := by
  induction fuel generalizing i d lines with
  | zero => rfl
  | succ fuel ih =>
    rw [drainResponses, cutLoop, drainStep]
    dsimp only
    split_ifs
    · rfl
    · rfl
    · exact ih ..
    · exact ih ..

section Draining

variable {P : Driver → Prop}

theorem drainResponses_rule {p : Priority}
    (hreceive : ∀ d, P d → P (d.received (endpointReceive d.endpoint d.shared p Message.zero)))
    {fuel : ℕ} {d d' : Driver} {lines lines' : List ResponseLine} (hd : P d)
    (h : drainResponses p fuel d lines = some (d', lines')) : P d' := by
  rw [drainResponses_eq p fuel 0] at h
  refine cutLoop_rule (P := fun s => P s.1) (Q := fun s => P s.1) ?_ ?_ hd h
  · intro _ s s' hs hround
    unfold drainStep at hround
    dsimp only at hround
    split_ifs at hround
    all_goals
      cases hround
      exact hreceive s.1 hs
  · intro _ s b hs hround
    unfold drainStep at hround
    dsimp only at hround
    split_ifs at hround
    all_goals
      cases hround
      exact hreceive s.1 hs

variable (hreceive : ∀ (p : Priority) d, P d →
  P (d.received (endpointReceive d.endpoint d.shared p Message.zero)))

include hreceive

theorem drainAll_rule {fuel : ℕ} {ps : List Priority} {d d' : Driver}
    {lines lines' : List ResponseLine} (hd : P d)
    (h : drainAll fuel ps d lines = some (d', lines')) : P d' := by
  induction ps generalizing d lines with
  | nil =>
    cases h
    exact hd
  | cons p ps ih =>
    rw [drainAll] at h
    cases hring : drainResponses p fuel d lines with
    | none =>
      rw [hring] at h
      cases h
    | some r =>
      rw [hring] at h
      exact ih (drainResponses_rule (hreceive p) hd hring) h

theorem responseShow_rule {fuel : ℕ} {d d' : Driver} {lines : List ResponseLine} (hd : P d)
    (h : mailmsgResponseShow fuel d = some (d', lines)) : P d' := by
  unfold mailmsgResponseShow at h
  split_ifs at h
  · cases h
    exact hd
  · cases h
    exact hd
  · cases hall : drainAll fuel [0, 1, 2, 3] d [] with
    | none =>
      rw [hall] at h
      cases h
    | some r =>
      rw [hall] at h
      cases h
      exact drainAll_rule hreceive hd hall

end Draining

/-- `r1_amp_mbox_rx_callback`; the callback runs without the lock. -/
def mboxRxCallback (p : Priority) (message : Option (U32 × U32)) (d : Driver) : Driver :=
  let mbox := d.mbox.modifyChannel p fun c =>
    let c := match message with
      | some (cmd, data) => { c with rxLastCmd := cmd, rxLastData := data }
      | none => c
    { c with rxCount := c.rxCount + 1 }
  { d with mbox := mbox }.modifyUser p fun c => { c with rxGeneration := c.rxGeneration + 1 }

end Lzamp.R1Amp
