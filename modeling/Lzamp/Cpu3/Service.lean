import Lzamp.Mailmsg.Endpoint

namespace Lzamp.Cpu3
open Mailmsg

/-- The build switches of the image. -/
structure Build where
  /-- `MAILMSG_ENABLE_STOP_CONTROL`. -/
  stopControl : Bool
  /-- `MAILMSG_TEST_SELF_OFF_VALUE`, if defined. -/
  selfOffValue : Option U32
  /-- `MAILMSG_TEST_SKIP_PRIORITY`; 4 skips none. -/
  skipPriority : ℕ
  /-- `MAILMSG_TEST_SKIP_SESSION_READY`. -/
  skipSessionReady : Bool

abbrev drainQuota : ℕ := 7

/-- The peripheral service and the GPIO driver, over a state of their own. -/
structure Backend (π : Type) where
  /-- `lzamp_peripheral_service_execute`: the result record, or `none` for a refused request. -/
  execute : π → Message → Option (List U8) × π
  /-- `lzamp_gpio3_get`: the level of a line, or `none` when it fails. -/
  gpioGet : π → U32 → Option U32 × π
  /-- `peripheral_service.spi_profile`. -/
  spiProfile : π → Bool

/-- The variables of `main.c` that the service reads and writes, without the observation lines. -/
structure State (π : Type) where
  endpoint : Endpoint
  shared : Shared
  b2a : Doorbells
  endpointReady : Bool
  sessionReadyCommitted : Bool
  sessionReadyPublished : Bool
  peripheralsReady : Bool
  peripherals : π
  rxErrorCount : U32
  txFullCount : U32

variable {π : Type}

def protocolAck : U32 := 0xb2a10000

def cpu3Notify (b2a : Doorbells) (p : Priority) : Int × Doorbells :=
  if hasBit b2a.status p then (notifyCoalesced, b2a)
  else (notifySent, b2a.ring p (protocolAck ||| channelWord p) (channelWord p))

def State.recordTxFull (c : State π) (result : SendResult) : State π :=
  if result.queueResult ≠ ringFull then c else { c with txFullCount := c.txFullCount + 1 }

/-- What every sender of the service does: send, and record a full ring. -/
def transmit (c : State π) (p : Priority) (type : U32) (payload : List U8) :
    Sent Doorbells × State π :=
  let s := endpointSend cpu3Notify c.b2a c.endpoint c.shared p type (some payload)
    (BitVec.ofNat 32 payload.length) SendResult.zero
  let c := { c with endpoint := s.endpoint, shared := s.shared, b2a := s.notifier }
  (s, if s.ret ≠ 0 then c.recordTxFull s.result else c)

def sendFeedback (c : State π) (p : Priority) (type peerSequence status : U32) : Bool × State π :=
  let t := transmit c p type (storePayloadU32 peerSequence ++ storePayloadU32 status)
  (t.1.ret = endpointOk, t.2)

/-- A stop reply counts only with its doorbell. -/
def sendStopFeedback (c : State π) (type peerSequence status : U32) : Bool × State π :=
  let t := transmit c prioCritical type (storePayloadU32 peerSequence ++ storePayloadU32 status)
  (t.1.ret = endpointOk ∧ notifyAccepted t.1.result.notifyResult, t.2)

def sendPong (c : State π) (p : Priority) (request : Message) : Bool × State π :=
  let type := if request.type = msgPing then msgPong else msgNop
  let t := transmit c p type (storePayloadU32 (payloadU32 request.payload 0 + 1))
  (t.1.ret = endpointOk, t.2)

def sendGpioReadResult (c : State π) (p : Priority) (request : Message) (line value : U32) :
    Bool × State π :=
  let t := transmit c p msgGpioReadResult
    (storePayloadU32 request.sequence ++ storePayloadU32 line ++ storePayloadU32 value)
  (t.1.ret = endpointOk, t.2)

def sendPeripheralResult (c : State π) (p : Priority) (payload : List U8) : Bool × State π :=
  let t := transmit c p msgPeripheralResult payload
  (t.1.ret = endpointOk, t.2)

/-- `mailmsg_service_session_ready`: a committed frame is not sent again, only rung for. -/
def serviceSessionReady (c : State π) : State π :=
  if !c.endpointReady ∨ c.sessionReadyPublished then c
  else if c.sessionReadyCommitted then
    let (ret, b2a) := cpu3Notify c.b2a prioCritical
    { c with b2a := b2a, sessionReadyPublished := notifyAccepted ret }
  else
    let t := transmit c prioCritical msgSessionReady
      (storePayloadU32 c.endpoint.generation ++ storePayloadU32 protocolVersion)
    if t.1.ret ≠ endpointOk then t.2
    else { t.2 with
      sessionReadyCommitted := true
      sessionReadyPublished := notifyAccepted t.1.result.notifyResult }

/-- The variables when `main` has bound the endpoint; the registers and the peripherals are as they
are found. -/
def boot (shared : Shared) (b2a : Doorbells) (peripheralsReady : Bool) (peripherals : π) :
    State π :=
  let bound := endpointBind Endpoint.zero shared .cpu3
  { endpoint := bound.2
    shared := shared
    b2a := b2a
    endpointReady := bound.1 = endpointOk
    sessionReadyCommitted := false
    sessionReadyPublished := false
    peripheralsReady := peripheralsReady
    peripherals := peripherals
    rxErrorCount := 0
    txFullCount := 0 }

/-- NACK on the priorities that promise one. -/
def nackIfReliable (c : State π) (p : Priority) (sequence reason : U32) : State π :=
  if priorityIsReliable p then (sendFeedback c p msgNack sequence reason).2 else c

/-- Handling a request either comes back or takes CPU3 off, which does not return. -/
inductive Handled (π : Type) where
  | done (c : State π)
  | cpuOff (c : State π)

/-- A frame that `receive` rejected as damaged or invalid. -/
def handleBadFrame (c : State π) (p : Priority) (ret : Int) (request : Message) : State π :=
  let reason := if ret = ringBadCrc then nackBadCrc else nackInvalidFrame
  let c := nackIfReliable c p request.sequence reason
  { c with rxErrorCount := c.rxErrorCount + 1 }

def handleStopRequest (b : Build) (c : State π) (request : Message) : Handled π :=
  if request.length ≠ 0 then
    .done (sendStopFeedback c msgStopRefused request.sequence stopRefusedInvalidRequest).2
  else if b.stopControl then
    let sent := sendStopFeedback c msgStopReady request.sequence 0
    if sent.1 then .cpuOff sent.2 else .done sent.2
  else .done (sendStopFeedback c msgStopRefused request.sequence stopRefusedBusy).2

/-- The test image's PING that switches CPU3 off. -/
def isSelfOff (b : Build) (p : Priority) (request : Message) : Bool :=
  match b.selfOffValue with
  | none => false
  | some value =>
    p = prioCritical ∧ request.type = msgPing ∧ request.length = 4 ∧
      payloadU32 request.payload 0 = value

def handlePeripheralRequest (bk : Backend π) (c : State π) (p : Priority) (request : Message) :
    State π :=
  if p ≠ prioControl ∨ !c.peripheralsReady then
    nackIfReliable c p request.sequence nackInvalidFrame
  else
    let (result, peripherals) := bk.execute c.peripherals request
    let c := { c with peripherals := peripherals }
    match result with
    | none => nackIfReliable c p request.sequence nackInvalidFrame
    | some result =>
      let ack := sendFeedback c p msgAck request.sequence 0
      if !ack.1 then ack.2 else (sendPeripheralResult ack.2 p result).2

def handleGpioReadRequest (bk : Backend π) (c : State π) (p : Priority) (request : Message) :
    State π :=
  if p ≠ prioControl ∨ !c.peripheralsReady ∨ bk.spiProfile c.peripherals ∨ request.length ≠ 4 then
    nackIfReliable c p request.sequence nackInvalidFrame
  else
    let line := payloadU32 request.payload 0
    let (value, peripherals) := bk.gpioGet c.peripherals line
    let c := { c with peripherals := peripherals }
    match value with
    | none => (sendFeedback c p msgNack request.sequence nackInvalidFrame).2
    | some value =>
      let ack := sendFeedback c p msgAck request.sequence 0
      if !ack.1 then ack.2 else (sendGpioReadResult ack.2 p request line value).2

/-- Everything else is acknowledged where promised, and answered. -/
def handleOther (c : State π) (p : Priority) (request : Message) : State π :=
  let c := if priorityIsReliable p then (sendFeedback c p msgAck request.sequence 0).2 else c
  (sendPong c p request).2

def handleRequest (b : Build) (bk : Backend π) (c : State π) (p : Priority) (request : Message) :
    Handled π :=
  -- STOP_REQUEST means something on the critical ring only; elsewhere it falls through
  if p = prioCritical ∧ request.type = msgStopRequest then handleStopRequest b c request
  else if isSelfOff b p request then .cpuOff c
  else if request.type = msgPeripheralRequest then .done (handlePeripheralRequest bk c p request)
  else if request.type = msgGpioReadRequest then .done (handleGpioReadRequest bk c p request)
  else .done (handleOther c p request)

def State.received (c : State π) (r : Received) : State π :=
  { c with endpoint := r.endpoint, shared := r.shared }

/-- One turn of the `while` loop: it goes on, or leaves the loop, having counted the frame or not
and having found the ring empty or not, or CPU3 is taken off. -/
inductive Turn (π : Type) where
  | again (c : State π)
  | left (c : State π) (counted sawEmpty : Bool)
  | cpuOff (c : State π)

def drainTurn (b : Build) (bk : Backend π) (p : Priority) (c : State π) : Turn π :=
  let r := endpointReceive c.endpoint c.shared p Message.zero
  let c := c.received r
  if r.ret = ringOk then
    match handleRequest b bk c p r.message with
    | .cpuOff c => .cpuOff c
    | .done c => .again c
  -- a bad frame was taken and counts, but the loop ends with it
  else if r.ret = ringBadCrc ∨ r.ret = ringInvalid then
    .left (handleBadFrame c p r.ret r.message) true false
  -- empty, incomplete or stale: the loop ends and the turn is not counted
  else .left c false (r.ret = ringEmpty)

/-- How the loop over one ring ends: with what is left of the quota, and whether its last receive
found the ring empty. -/
inductive Drained (π : Type) where
  | left (c : State π) (remaining : ℕ) (sawEmpty : Bool)
  | cpuOff (c : State π)

def drainLoop (b : Build) (bk : Backend π) (p : Priority) : ℕ → State π → Drained π
  | 0, c => .left c 0 false
  | remaining + 1, c =>
    match drainTurn b bk p c with
    | .again c => drainLoop b bk p remaining c
    | .left c counted sawEmpty => .left c (if counted then remaining else remaining + 1) sawEmpty
    | .cpuOff c => .cpuOff c

/-- The state of a pass over the priorities.  `sawEmpty` records the rings the pass found empty. -/
structure Pass (π : Type) where
  cpu3 : State π
  messages : U32
  lastPriority : U32
  reschedule : U32
  sawEmpty : Priority → Bool

inductive Service (π : Type) where
  | returned (pass : Pass π)
  | cpuOff (c : State π)

/-- What follows the loop over one ring: only a used-up quota asks whether more is queued. -/
def Pass.settle (pass : Pass π) (p : Priority) (c : State π) (remaining : ℕ) (sawEmpty : Bool) :
    Pass π :=
  let more := endpointHasReceived c.endpoint c.shared p
  { cpu3 := c
    messages := pass.messages + BitVec.ofNat 32 (drainQuota - remaining)
    lastPriority := channelWord p
    reschedule := if remaining = 0 ∧ more = 1 then pass.reschedule ||| bit p else pass.reschedule
    sawEmpty := Function.update pass.sawEmpty p (sawEmpty || (remaining = 0 ∧ more = 0)) }

def servicePriorities (b : Build) (bk : Backend π) (pending : U32) :
    List Priority → Pass π → Service π
  | [], pass => .returned pass
  | p :: ps, pass =>
    if !hasBit pending p ∨ p.val = b.skipPriority then servicePriorities b bk pending ps pass
    else match drainLoop b bk p drainQuota pass.cpu3 with
      | .cpuOff c => .cpuOff c
      | .left c remaining sawEmpty =>
        servicePriorities b bk pending ps (pass.settle p c remaining sawEmpty)

/-- `mailmsg_pingpong_test_service`, called with `*reschedule` zero. -/
def pingpongTestService (b : Build) (bk : Backend π) (pending lastPriority : U32) (c : State π) :
    Service π :=
  let pass : Pass π := ⟨c, 0, lastPriority, 0, fun _ => false⟩
  if !c.endpointReady then .returned pass
  else if !b.skipSessionReady ∧ !c.sessionReadyPublished then .returned pass
  else servicePriorities b bk pending [0, 1, 2, 3] pass

end Lzamp.Cpu3
