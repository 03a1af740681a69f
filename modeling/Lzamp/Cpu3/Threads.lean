import Lzamp.Cpu3.Replies
import Lzamp.Lib.Trace

namespace Lzamp.Cpu3
open Mailmsg Lib

variable {π : Type}

/-- The arguments of one `mailmsg_endpoint_send`. -/
structure Call where
  priority : Priority
  type : U32
  payload : List U8
deriving DecidableEq

/-- Where a call of `mailmsg_endpoint_send` stands: its frame refused or committed, its doorbell
tried. -/
inductive Sending where
  | entered
  | refused (ret : Int) (result : SendResult)
  | queued (result : SendResult)
  | rung (result : SendResult)
deriving DecidableEq

inductive SendAct where
  | enqueue
  /-- `mailmsg_cpu3_notify` returned `ret`. -/
  | notify (ret : Int) (b2a : Doorbells)

def State.enqueue (c : State π) (call : Call) : Enqueued :=
  endpointEnqueue c.endpoint c.shared call.priority call.type (some call.payload)
    (BitVec.ofNat 32 call.payload.length) SendResult.zero

def State.queued (c : State π) (q : Enqueued) : State π :=
  { c with endpoint := q.endpoint, shared := q.shared }

/-- What a send has come to once the push is over. -/
def Sending.after (q : Enqueued) : Sending :=
  if q.ret ≠ endpointOk then .refused q.ret q.result else .queued q.result

def sendStep (c : State π) (call : Call) : Sending → SendAct → Option (State π × Sending)
  | .entered, .enqueue =>
    some (c.queued (c.enqueue call), .after (c.enqueue call))
  | .queued result, .notify ret b2a =>
    some ({ c with b2a := b2a }, .rung { result with notifyAttempted := true, notifyResult := ret })
  | _, _ => none

/-- The return of a send: its result goes to the caller, and a full ring is recorded there. -/
def leaveSend (c : State π) (call : Call) : Sending → Option (State π × Int × SendResult)
  | .refused ret result => some (c.recordTxFull result, ret, result)
  | .rung result =>
    some ({ c with endpoint :=
      c.endpoint.modifyStats call.priority fun s => s.countNotify result.notifyResult },
      endpointOk, result)
  | _ => none

/-- Where the main thread stands in `mailmsg_service_session_ready`.  The number is what the
doorbell returned. -/
inductive MainThread where
  | looping
  | sending (pc : Sending)
  | returned (notifyResult : Int)
  | marked (notifyResult : Int)
  | retrying
  | retried (notifyResult : Int)
deriving DecidableEq

inductive MainAct where
  | call
  | send (a : SendAct)
  | leave
  | setCommitted
  | notify (ret : Int) (b2a : Doorbells)
  | setPublished

def sessionReadyCall (c : State π) : Call :=
  ⟨prioCritical, msgSessionReady,
    storePayloadU32 c.endpoint.generation ++ storePayloadU32 protocolVersion⟩

def mainStep (b : Build) (c : State π) : MainThread → MainAct → Option (State π × MainThread)
  | .looping, .call =>
    if b.skipSessionReady then none
    else if !c.endpointReady ∨ c.sessionReadyPublished then some (c, .looping)
    else if c.sessionReadyCommitted then some (c, .retrying)
    else some (c, .sending .entered)
  | .sending pc, .send a =>
    (sendStep c (sessionReadyCall c) pc a).map fun r => (r.1, .sending r.2)
  | .sending pc, .leave =>
    (leaveSend c (sessionReadyCall c) pc).map fun r =>
      (r.1, if r.2.1 ≠ endpointOk then .looping else .returned r.2.2.notifyResult)
  | .returned notifyResult, .setCommitted =>
    some ({ c with sessionReadyCommitted := true }, .marked notifyResult)
  | .marked notifyResult, .setPublished =>
    some ({ c with sessionReadyPublished := notifyAccepted notifyResult }, .looping)
  | .retrying, .notify ret b2a => some ({ c with b2a := b2a }, .retried ret)
  | .retried notifyResult, .setPublished =>
    some (if notifyAccepted notifyResult then { c with sessionReadyPublished := true } else c,
      .looping)
  | _, _ => none

/-- The sends that answer a frame, one after the other.  A sender reports whether the frame was
queued; those of the stop replies also require the doorbell. -/
inductive Script where
  | done
  | off
  | send (call : Call) (stop : Bool) (next : Bool → Script)

def delivered (stop : Bool) (ret : Int) (result : SendResult) : Bool :=
  ret = endpointOk ∧ (stop → notifyAccepted result.notifyResult)

def feedbackCall (p : Priority) (type peerSequence status : U32) : Call :=
  ⟨p, type, feedback peerSequence status⟩

def nackScript (p : Priority) (sequence reason : U32) : Script :=
  if priorityIsReliable p then
    .send (feedbackCall p msgNack sequence reason) false fun _ => .done
  else .done

def stopScript (b : Build) (request : Message) : Script :=
  if request.length ≠ 0 then
    .send (feedbackCall prioCritical msgStopRefused request.sequence stopRefusedInvalidRequest) true
      fun _ => .done
  else if b.stopControl then
    .send (feedbackCall prioCritical msgStopReady request.sequence 0) true
      fun sent => if sent then .off else .done
  else
    .send (feedbackCall prioCritical msgStopRefused request.sequence stopRefusedBusy) true
      fun _ => .done

def resultScript (p : Priority) (sequence : U32) (result : Call) : Script :=
  .send (feedbackCall p msgAck sequence 0) false fun sent =>
    if !sent then .done else .send result false fun _ => .done

def pongCall (p : Priority) (request : Message) : Call :=
  ⟨p, if request.type = msgPing then msgPong else msgNop,
    storePayloadU32 (payloadU32 request.payload 0 + 1)⟩

/-- The ACK's outcome is ignored. -/
def otherScript (p : Priority) (request : Message) : Script :=
  let pong := Script.send (pongCall p request) false fun _ => .done
  if priorityIsReliable p then
    .send (feedbackCall p msgAck request.sequence 0) false fun _ => pong
  else pong

def peripheralScript (bk : Backend π) (c : State π) (p : Priority) (request : Message) :
    State π × Script :=
  if p ≠ prioControl ∨ !c.peripheralsReady then
    (c, nackScript p request.sequence nackInvalidFrame)
  else
    let (result, peripherals) := bk.execute c.peripherals request
    ({ c with peripherals := peripherals },
      match result with
      | none => nackScript p request.sequence nackInvalidFrame
      | some result => resultScript p request.sequence ⟨p, msgPeripheralResult, result⟩)

def gpioReadScript (bk : Backend π) (c : State π) (p : Priority) (request : Message) :
    State π × Script :=
  if p ≠ prioControl ∨ !c.peripheralsReady ∨ bk.spiProfile c.peripherals ∨ request.length ≠ 4 then
    (c, nackScript p request.sequence nackInvalidFrame)
  else
    let line := payloadU32 request.payload 0
    let (value, peripherals) := bk.gpioGet c.peripherals line
    ({ c with peripherals := peripherals },
      match value with
      | none =>
        .send (feedbackCall p msgNack request.sequence nackInvalidFrame) false fun _ => .done
      | some value => resultScript p request.sequence ⟨p, msgGpioReadResult,
          storePayloadU32 request.sequence ++ storePayloadU32 line ++ storePayloadU32 value⟩)

/-- `handleRequest` cut at its sends. -/
def requestScript (b : Build) (bk : Backend π) (c : State π) (p : Priority) (request : Message) :
    State π × Script :=
  if p = prioCritical ∧ request.type = msgStopRequest then (c, stopScript b request)
  else if isSelfOff b p request then (c, .off)
  else if request.type = msgPeripheralRequest then peripheralScript bk c p request
  else if request.type = msgGpioReadRequest then gpioReadScript bk c p request
  else (c, otherScript p request)

/-- `handleReceived` cut at its sends.  The error count, which no send reads, is raised first. -/
def replyScript (b : Build) (bk : Backend π) (p : Priority) (ret : Int) (request : Message)
    (c : State π) : State π × Script :=
  if ret = ringOk then requestScript b bk c p request
  else if ret = ringBadCrc ∨ ret = ringInvalid then
    ({ c with rxErrorCount := c.rxErrorCount + 1 },
      nackScript p request.sequence (if ret = ringBadCrc then nackBadCrc else nackInvalidFrame))
  else (c, .done)

/-- Where `mailmsg_worker` stands.  `refused` tells whether a send for the frame in hand has been
refused.  The order in which a pass visits the rings and its quota are left open: it receives from
the rings it has doorbells for until it ends. -/
inductive WorkerThread where
  | waiting
  | taken
  | testing (pending : U32)
  | serving (pending : U32)
  | replying (pending : U32) (refused : Bool) (script : Script)
  | sending (pending : U32) (refused : Bool) (call : Call) (stop : Bool) (next : Bool → Script)
      (pc : Sending)
  | off

inductive WorkerAct where
  | take
  | swap
  | test
  | receive (p : Priority)
  | enter
  | send (a : SendAct)
  | leave
  | finish
  | endPass (reschedule : U32)

/-- A receive of the worker and what it returned. -/
structure Receipt where
  priority : Priority
  ret : Int
  message : Message

/-- A frame that CPU3 committed: by the main thread, or for the worker's `n`th receipt. -/
structure Pushed where
  call : Call
  author : Option ℕ
deriving DecidableEq

/-- CPU3.  The worker preempts the main thread, and the interrupt handler both; here all of them
interleave freely, and Linux takes reverse frames and queues requests between any two steps.
`received` and `log` are ghosts: the worker's receipts, and every frame committed to the reverse
rings, oldest first, whether or not Linux has taken it. -/
structure Threads (π : Type) where
  cpu3 : State π
  pending : U32
  sem : Bool
  main : MainThread
  worker : WorkerThread
  received : List Receipt
  log : List Pushed

def logged (c : State π) (call : Call) (author : Option ℕ) : SendAct → List Pushed
  | .enqueue => if (c.enqueue call).ret = endpointOk then [⟨call, author⟩] else []
  | .notify .. => []

def Threads.receive (b : Build) (bk : Backend π) (s : Threads π) (pending : U32) (p : Priority) :
    Threads π :=
  let r := endpointReceive s.cpu3.endpoint s.cpu3.shared p Message.zero
  let reply := replyScript b bk p r.ret r.message (s.cpu3.received r)
  { s with
    cpu3 := reply.1
    worker := .replying pending false reply.2
    received := s.received ++ [⟨p, r.ret, r.message⟩] }

def Threads.workerStep (b : Build) (bk : Backend π) (s : Threads π) :
    WorkerThread → WorkerAct → Option (Threads π)
  | .waiting, .take => if s.sem then some { s with sem := false, worker := .taken } else none
  | .taken, .swap => some { s with
      pending := 0, worker := if s.pending = 0 then .waiting else .testing s.pending }
  | .testing pending, .test => some { s with
      worker :=
        if !s.cpu3.endpointReady then .waiting
        else if !b.skipSessionReady ∧ !s.cpu3.sessionReadyPublished then .waiting
        else .serving pending }
  | .serving pending, .receive p =>
    if hasBit pending p ∧ p.val ≠ b.skipPriority then some (s.receive b bk pending p) else none
  | .serving _, .endPass reschedule => some { s with
      pending := s.pending ||| reschedule
      sem := s.sem || reschedule ≠ 0
      worker := .waiting }
  | .replying pending refused (.send call stop next), .enter =>
    some { s with worker := .sending pending refused call stop next .entered }
  | .replying pending _ .done, .finish => some { s with worker := .serving pending }
  | .replying _ _ .off, .finish => some { s with worker := .off }
  | .sending pending refused call stop next pc, .send a =>
    (sendStep s.cpu3 call pc a).map fun r => { s with
      cpu3 := r.1
      worker := .sending pending refused call stop next r.2
      log := s.log ++ logged s.cpu3 call (some (s.received.length - 1)) a }
  | .sending pending refused call stop next pc, .leave =>
    (leaveSend s.cpu3 call pc).map fun r => { s with
      cpu3 := r.1
      worker := .replying pending (refused || r.2.1 ≠ endpointOk)
        (next (delivered stop r.2.1 r.2.2)) }
  | _, _ => none

inductive ThreadAct where
  | main (a : MainAct)
  | worker (a : WorkerAct)
  /-- The interrupt handler marks a priority and gives the semaphore. -/
  | isr (p : Priority)
  /-- Linux takes a frame from a reverse ring. -/
  | popped (p : Priority)
  /-- Linux queues requests; any contents are possible. -/
  | requests (rings : Priority → Ring)

def Threads.mainStep (b : Build) (s : Threads π) (a : MainAct) : Option (Threads π) :=
  (Cpu3.mainStep b s.cpu3 s.main a).map fun r => { s with
    cpu3 := r.1
    main := r.2
    log := match a with
      | .send act => s.log ++ logged s.cpu3 (sessionReadyCall s.cpu3) none act
      | _ => s.log }

def State.popped (c : State π) (p : Priority) : State π :=
  { c with shared :=
    c.shared.setTx .cpu3 p (ringPop (c.shared.cpu3ToLinux p) Message.zero).2.1 }

def Threads.step (b : Build) (bk : Backend π) (s : Threads π) : ThreadAct → Option (Threads π)
  | .main a => s.mainStep b a
  | .worker a => s.workerStep b bk s.worker a
  | .isr p => some { s with pending := s.pending ||| bit p, sem := true }
  | .popped p => some { s with cpu3 := s.cpu3.popped p }
  | .requests rings => some { s with
      cpu3 := { s.cpu3 with shared := { s.cpu3.shared with linuxToCpu3 := rings } } }

def ThreadStep (b : Build) (bk : Backend π) (s : Threads π) (a : ThreadAct) (s' : Threads π) :
    Prop := s.step b bk a = some s'

/-- CPU3 when `main` has bound the endpoint and created the worker. -/
structure Threads.Booted (s : Threads π) : Prop where
  cpu3 : ∃ shared b2a peripheralsReady peripherals,
    s.cpu3 = boot shared b2a peripheralsReady peripherals
  main : s.main = .looping
  worker : s.worker = .waiting
  received : s.received = []
  log : s.log = []

inductive MainMove (b : Build) (s : Threads π) : Threads π → Prop
  | idle (h : s.main = .looping) : MainMove b s s
  | retry (h : s.main = .looping) (hskip : b.skipSessionReady = false)
      (hpublished : s.cpu3.sessionReadyPublished = false)
      (hcommitted : s.cpu3.sessionReadyCommitted = true) : MainMove b s { s with main := .retrying }
  | enter (h : s.main = .looping) (hskip : b.skipSessionReady = false)
      (hpublished : s.cpu3.sessionReadyPublished = false)
      (hcommitted : s.cpu3.sessionReadyCommitted = false) :
      MainMove b s { s with main := .sending .entered }
  | enqueue (h : s.main = .sending .entered) : MainMove b s { s with
      cpu3 := s.cpu3.queued (s.cpu3.enqueue (sessionReadyCall s.cpu3))
      main := .sending (.after (s.cpu3.enqueue (sessionReadyCall s.cpu3)))
      log := s.log ++ logged s.cpu3 (sessionReadyCall s.cpu3) none .enqueue }
  | ring {result : SendResult} (ret : Int) (b2a : Doorbells)
      (h : s.main = .sending (.queued result)) : MainMove b s { s with
      cpu3 := { s.cpu3 with b2a := b2a }
      main := .sending (.rung { result with notifyAttempted := true, notifyResult := ret })
      log := s.log ++ [] }
  | refused {ret : Int} {result : SendResult} (h : s.main = .sending (.refused ret result)) :
      MainMove b s { s with
      cpu3 := s.cpu3.recordTxFull result
      main := if ret ≠ endpointOk then .looping else .returned result.notifyResult }
  | sent {result : SendResult} (h : s.main = .sending (.rung result)) : MainMove b s { s with
      cpu3 := { s.cpu3 with endpoint :=
        s.cpu3.endpoint.modifyStats prioCritical fun s => s.countNotify result.notifyResult }
      main := .returned result.notifyResult }
  | setCommitted {n : Int} (h : s.main = .returned n) : MainMove b s { s with
      cpu3 := { s.cpu3 with sessionReadyCommitted := true }, main := .marked n }
  | setPublished {n : Int} (h : s.main = .marked n) : MainMove b s { s with
      cpu3 := { s.cpu3 with sessionReadyPublished := notifyAccepted n }, main := .looping }
  | retryRing (ret : Int) (b2a : Doorbells) (h : s.main = .retrying) : MainMove b s { s with
      cpu3 := { s.cpu3 with b2a := b2a }, main := .retried ret }
  | retryPublish {n : Int} (h : s.main = .retried n) : MainMove b s { s with
      cpu3 := if notifyAccepted n then { s.cpu3 with sessionReadyPublished := true } else s.cpu3
      main := .looping }

theorem mainStep_move {b : Build} {s s' : Threads π} {a : MainAct} (h : s.mainStep b a = some s') :
    MainMove b s s' := by
  obtain ⟨⟨c, m⟩, hstep, rfl⟩ := Option.map_eq_some_iff.mp h
  unfold Cpu3.mainStep at hstep
  split at hstep
  case h_1 hmain =>
    split_ifs at hstep with hskip hidle hcommitted
    · cases hstep
      have hsame : { s with main := MainThread.looping } = s := by rw [← hmain]
      change MainMove b s { s with main := .looping }
      rw [hsame]
      exact .idle hmain
    · cases hstep
      have hpublished := fun h => hidle (Or.inr h)
      exact .retry hmain (Bool.eq_false_iff.mpr hskip) (Bool.eq_false_iff.mpr hpublished) hcommitted
    · cases hstep
      have hpublished := fun h => hidle (Or.inr h)
      exact .enter hmain (Bool.eq_false_iff.mpr hskip) (Bool.eq_false_iff.mpr hpublished)
        (Bool.eq_false_iff.mpr hcommitted)
  case h_2 pc act hmain =>
    obtain ⟨r, hsend, heq⟩ := Option.map_eq_some_iff.mp hstep
    unfold sendStep at hsend
    split at hsend <;> cases hsend <;> cases heq
    · exact .enqueue hmain
    · exact .ring _ _ hmain
  case h_3 pc hmain =>
    obtain ⟨r, hleave, heq⟩ := Option.map_eq_some_iff.mp hstep
    unfold leaveSend at hleave
    split at hleave <;> cases hleave <;> cases heq
    · exact .refused hmain
    · exact .sent hmain
  case h_4 hmain =>
    cases hstep
    exact .setCommitted hmain
  case h_5 hmain =>
    cases hstep
    exact .setPublished hmain
  case h_6 hmain =>
    cases hstep
    exact .retryRing _ _ hmain
  case h_7 hmain =>
    cases hstep
    exact .retryPublish hmain
  case h_8 => cases hstep

inductive WorkerMove (b : Build) (bk : Backend π) (s : Threads π) : Threads π → Prop
  | take (h : s.worker = .waiting) : WorkerMove b bk s { s with sem := false, worker := .taken }
  | swap (h : s.worker = .taken) : WorkerMove b bk s { s with
      pending := 0, worker := if s.pending = 0 then .waiting else .testing s.pending }
  | giveUp {pending : U32} (h : s.worker = .testing pending) :
      WorkerMove b bk s { s with worker := .waiting }
  | serve {pending : U32} (h : s.worker = .testing pending)
      (hpublished : b.skipSessionReady = true ∨ s.cpu3.sessionReadyPublished = true) :
      WorkerMove b bk s { s with worker := .serving pending }
  | receive {pending : U32} (p : Priority) (h : s.worker = .serving pending) :
      WorkerMove b bk s (s.receive b bk pending p)
  | endPass {pending : U32} (reschedule : U32) (h : s.worker = .serving pending) :
      WorkerMove b bk s { s with
      pending := s.pending ||| reschedule, sem := s.sem || reschedule ≠ 0, worker := .waiting }
  | enter {pending : U32} {refused stop : Bool} {call : Call} {next : Bool → Script}
      (h : s.worker = .replying pending refused (.send call stop next)) :
      WorkerMove b bk s { s with worker := .sending pending refused call stop next .entered }
  | finish {pending : U32} {refused : Bool} (h : s.worker = .replying pending refused .done) :
      WorkerMove b bk s { s with worker := .serving pending }
  | off {pending : U32} {refused : Bool} (h : s.worker = .replying pending refused .off) :
      WorkerMove b bk s { s with worker := .off }
  | enqueue {pending : U32} {refused stop : Bool} {call : Call} {next : Bool → Script}
      (h : s.worker = .sending pending refused call stop next .entered) :
      WorkerMove b bk s { s with
      cpu3 := s.cpu3.queued (s.cpu3.enqueue call)
      worker := .sending pending refused call stop next (.after (s.cpu3.enqueue call))
      log := s.log ++ logged s.cpu3 call (some (s.received.length - 1)) .enqueue }
  | ring {pending : U32} {refused stop : Bool} {call : Call} {next : Bool → Script}
      {result : SendResult} (ret : Int) (b2a : Doorbells)
      (h : s.worker = .sending pending refused call stop next (.queued result)) :
      WorkerMove b bk s { s with
      cpu3 := { s.cpu3 with b2a := b2a }
      worker := .sending pending refused call stop next
        (.rung { result with notifyAttempted := true, notifyResult := ret })
      log := s.log ++ [] }
  | refused {pending : U32} {refused stop : Bool} {call : Call} {next : Bool → Script} {ret : Int}
      {result : SendResult}
      (h : s.worker = .sending pending refused call stop next (.refused ret result)) :
      WorkerMove b bk s { s with
      cpu3 := s.cpu3.recordTxFull result
      worker := .replying pending (refused || ret ≠ endpointOk) (next (delivered stop ret result)) }
  | sent {pending : U32} {refused stop : Bool} {call : Call} {next : Bool → Script}
      {result : SendResult} (h : s.worker = .sending pending refused call stop next (.rung result)) :
      WorkerMove b bk s { s with
      cpu3 := { s.cpu3 with endpoint :=
        s.cpu3.endpoint.modifyStats call.priority fun s => s.countNotify result.notifyResult }
      worker := .replying pending (refused || endpointOk ≠ endpointOk)
        (next (delivered stop endpointOk result)) }

theorem workerStep_move {b : Build} {bk : Backend π} {s s' : Threads π} {a : WorkerAct}
    (h : s.workerStep b bk s.worker a = some s') : WorkerMove b bk s s' := by
  unfold Threads.workerStep at h
  split at h
  case h_1 hw =>
    split_ifs at h
    cases h
    exact .take hw
  case h_2 hw =>
    cases h
    exact .swap hw
  case h_3 hw =>
    cases h
    split_ifs with hready hpublished
    · exact .giveUp hw
    · exact .giveUp hw
    · refine .serve hw ?_
      cases hskip : b.skipSessionReady with
      | true => exact .inl rfl
      | false => exact .inr (by simpa [hskip] using hpublished)
  case h_4 hw =>
    split_ifs at h
    cases h
    exact .receive _ hw
  case h_5 hw =>
    cases h
    exact .endPass _ hw
  case h_6 hw =>
    cases h
    exact .enter hw
  case h_7 hw =>
    cases h
    exact .finish hw
  case h_8 hw =>
    cases h
    exact .off hw
  case h_9 hw =>
    obtain ⟨r, hsend, rfl⟩ := Option.map_eq_some_iff.mp h
    unfold sendStep at hsend
    split at hsend <;> cases hsend
    · exact .enqueue hw
    · exact .ring _ _ hw
  case h_10 hw =>
    obtain ⟨r, hleave, rfl⟩ := Option.map_eq_some_iff.mp h
    unfold leaveSend at hleave
    split at hleave <;> cases hleave
    · exact .refused hw
    · exact .sent hw
  case h_11 => cases h

/-- What is logged is what the ring gets: the frame behind the others. -/
theorem enqueue_accepted {c : State π} {call : Call} (hplays : c.endpoint.Plays .cpu3)
    (h : (c.enqueue call).ret = endpointOk) (author : Option ℕ) :
    logged c call author .enqueue = [⟨call, author⟩] ∧
      (c.enqueue call).shared.cpu3ToLinux = Function.update c.shared.cpu3ToLinux call.priority
        ((c.shared.cpu3ToLinux call.priority).published
          (composeFrame c.endpoint.generation call.type (endpointNextSequence c.endpoint).1
            (BitVec.ofNat 32 call.payload.length) (some call.payload))) := by
  refine ⟨if_pos h, ?_⟩
  rcases endpointEnqueue_cases c.endpoint c.shared call.priority call.type (some call.payload)
    (BitVec.ofNat 32 call.payload.length) SendResult.zero with hq | ⟨role, hp, hq⟩
  · exact absurd h hq.ret
  · obtain rfl := hplays.eq_of_some hq.role_eq
    exact congrArg Shared.cpu3ToLinux hq.shared

theorem enqueue_refused {c : State π} {call : Call} (h : (c.enqueue call).ret ≠ endpointOk)
    (author : Option ℕ) :
    logged c call author .enqueue = [] ∧ (c.enqueue call).shared = c.shared := by
  refine ⟨if_neg h, ?_⟩
  rcases endpointEnqueue_cases c.endpoint c.shared call.priority call.type (some call.payload)
    (BitVec.ofNat 32 call.payload.length) SendResult.zero with hq | ⟨role, hp, hq⟩
  · exact hq.shared
  · exact absurd hq.ret h

/-- A whole send, as the handlers make it. -/
def State.send (c : State π) (call : Call) : Sent Doorbells × State π :=
  transmit c call.priority call.type call.payload

theorem send_refused {c : State π} {call : Call} (h : (c.enqueue call).ret ≠ endpointOk) :
    c.send call =
      (⟨(c.enqueue call).ret, (c.enqueue call).result, (c.enqueue call).endpoint,
          (c.enqueue call).shared, c.b2a⟩,
        (c.queued (c.enqueue call)).recordTxFull (c.enqueue call).result) := by
  unfold State.send transmit endpointSend
  dsimp only
  change (endpointEnqueue _ _ _ _ _ _ _).ret ≠ endpointOk at h
  rw [if_pos h]
  dsimp only
  rw [if_pos h]
  rfl

theorem send_accepted {c : State π} {call : Call} (h : (c.enqueue call).ret = endpointOk) :
    let q := c.enqueue call
    let n := cpu3Notify c.b2a call.priority
    let endpoint := q.endpoint.modifyStats call.priority fun s => s.countNotify n.1
    c.send call =
      (⟨endpointOk, { q.result with notifyAttempted := true, notifyResult := n.1 }, endpoint,
          q.shared, n.2⟩,
        { c.queued q with b2a := n.2, endpoint := endpoint }) := by
  have hp : Fin.ofNat 4 call.priority.val = call.priority := Fin.ofNat_val_eq_self call.priority
  unfold State.send transmit endpointSend
  dsimp only
  change (endpointEnqueue _ _ _ _ _ _ _).ret = endpointOk at h
  rw [if_neg (not_not.mpr h), hp]
  rfl

section Alone

variable {b : Build} {bk : Backend π} {s : Threads π}

theorem worker_runs_send {pending : U32} {refused stop : Bool} {call : Call}
    {next : Bool → Script} (hs : s.worker = .sending pending refused call stop next .entered) :
    ∃ acts t, Trace (ThreadStep b bk) s acts t ∧ t.cpu3 = (s.cpu3.send call).2 ∧
      ∃ refused, t.worker = .replying pending refused
        (next (delivered stop (s.cpu3.send call).1.ret (s.cpu3.send call).1.result)) := by
  let q := s.cpu3.enqueue call
  let n := cpu3Notify s.cpu3.b2a call.priority
  let author := some (s.received.length - 1)
  let s₁ (pc : Sending) : Threads π := { s with
    cpu3 := s.cpu3.queued q
    worker := .sending pending refused call stop next pc
    log := s.log ++ logged s.cpu3 call author .enqueue }
  have h₁ : ThreadStep b bk s (.worker (.send .enqueue)) (s₁ (.after q)) := by
    rw [ThreadStep, Threads.step, hs]
    rfl
  by_cases hret : (s.cpu3.enqueue call).ret = endpointOk
  · have hafter : Sending.after q = .queued q.result := if_neg (not_not.mpr hret)
    rw [hafter] at h₁
    let result := { q.result with notifyAttempted := true, notifyResult := n.1 }
    let s₂ : Threads π := { s₁ (.rung result) with
      cpu3 := { (s₁ (.rung result)).cpu3 with b2a := n.2 }
      log := (s₁ (.rung result)).log ++ [] }
    let s₃ : Threads π := { s₂ with
      cpu3 := { s₂.cpu3 with endpoint :=
        s₂.cpu3.endpoint.modifyStats call.priority fun s => s.countNotify n.1 }
      worker := .replying pending (refused || decide (endpointOk ≠ endpointOk))
        (next (delivered stop endpointOk result)) }
    have h₂ : ThreadStep b bk (s₁ (.queued q.result)) (.worker (.send (.notify n.1 n.2))) s₂ := rfl
    have h₃ : ThreadStep b bk s₂ (.worker .leave) s₃ := rfl
    refine ⟨_, s₃, .cons h₁ (.cons h₂ (.single h₃)), ?_⟩
    rw [send_accepted hret]
    exact ⟨rfl, _, rfl⟩
  · have hafter : Sending.after q = .refused q.ret q.result := if_pos hret
    rw [hafter] at h₁
    let s₂ : Threads π := { s₁ (.refused q.ret q.result) with
      cpu3 := (s.cpu3.queued q).recordTxFull q.result
      worker := .replying pending (refused || decide (q.ret ≠ endpointOk))
        (next (delivered stop q.ret q.result)) }
    have h₂ : ThreadStep b bk (s₁ (.refused q.ret q.result)) (.worker .leave) s₂ := rfl
    refine ⟨_, s₂, .cons h₁ (.single h₂), ?_⟩
    rw [send_refused hret]
    exact ⟨rfl, _, rfl⟩

def Script.run : Script → State π → Handled π
  | .done, c => .done c
  | .off, c => .cpuOff c
  | .send call stop next, c =>
    (next (delivered stop (c.send call).1.ret (c.send call).1.result)).run (c.send call).2

def Handled.at (pending : U32) : Handled π → State π × WorkerThread
  | .done c => (c, .serving pending)
  | .cpuOff c => (c, .off)

theorem worker_runs_script {pending : U32} {refused : Bool} {script : Script}
    (hs : s.worker = .replying pending refused script) :
    ∃ acts t, Trace (ThreadStep b bk) s acts t ∧
      (t.cpu3, t.worker) = (script.run s.cpu3).at pending := by
  induction script generalizing s refused with
  | done =>
    refine ⟨[.worker .finish], { s with worker := .serving pending }, .single ?_, rfl⟩
    rw [ThreadStep, Threads.step, hs]
    rfl
  | off =>
    refine ⟨[.worker .finish], { s with worker := .off }, .single ?_, rfl⟩
    rw [ThreadStep, Threads.step, hs]
    rfl
  | send call stop next ih =>
    let s₁ : Threads π := { s with worker := .sending pending refused call stop next .entered }
    have henter : ThreadStep b bk s (.worker .enter) s₁ := by
      rw [ThreadStep, Threads.step, hs]
      rfl
    have hsend : ∃ acts t, Trace (ThreadStep b bk) s₁ acts t ∧ _ := worker_runs_send rfl
    obtain ⟨acts, t, htrace, hcpu3, refused', hworker⟩ := hsend
    obtain ⟨acts', u, htrace', hu⟩ := ih _ hworker
    refine ⟨_, u, .cons henter (htrace.append htrace'), ?_⟩
    rw [hu, hcpu3]
    rfl

theorem transmit_rxErrorCount (c : State π) (p : Priority) (type : U32) (payload : List U8)
    (n : U32) :
    transmit { c with rxErrorCount := n } p type payload =
      ((transmit c p type payload).1, { (transmit c p type payload).2 with rxErrorCount := n }) := by
  unfold transmit State.recordTxFull
  dsimp only
  split_ifs <;> rfl

theorem nackScript_run (c : State π) (p : Priority) (sequence reason : U32) :
    (nackScript p sequence reason).run c = .done (nackIfReliable c p sequence reason) := by
  unfold nackScript nackIfReliable
  split_ifs <;> rfl

theorem run_send {call : Call} {stop sent : Bool} {next : Bool → Script} {c : State π}
    (h : delivered stop (c.send call).1.ret (c.send call).1.result = sent) :
    (Script.send call stop next).run c = (next sent).run (c.send call).2 := by
  subst h
  rfl

theorem delivered_feedback (c : State π) (p : Priority) (type sequence status : U32) :
    delivered false (c.send (feedbackCall p type sequence status)).1.ret
      (c.send (feedbackCall p type sequence status)).1.result =
        (sendFeedback c p type sequence status).1 := by
  simp [delivered, sendFeedback, feedback, State.send, feedbackCall]

theorem delivered_stopFeedback (c : State π) (type sequence status : U32) :
    delivered true (c.send (feedbackCall prioCritical type sequence status)).1.ret
      (c.send (feedbackCall prioCritical type sequence status)).1.result =
        (sendStopFeedback c type sequence status).1 := by
  simp [delivered, sendStopFeedback, feedback, State.send, feedbackCall]

theorem resultScript_run (c : State π) (p : Priority) (sequence : U32) (result : Call) :
    (resultScript p sequence result).run c =
      let ack := sendFeedback c p msgAck sequence 0
      .done (if !ack.1 then ack.2 else (ack.2.send result).2) := by
  rw [resultScript, run_send (delivered_feedback c p msgAck sequence 0)]
  dsimp only
  cases (sendFeedback c p msgAck sequence 0).1 with
  | true => rfl
  | false => rfl

theorem stopScript_run (c : State π) (request : Message) :
    (stopScript b request).run c = handleStopRequest b c request := by
  unfold stopScript handleStopRequest
  dsimp only
  by_cases hlength : request.length ≠ 0
  · rw [if_pos hlength, if_pos hlength]
    rfl
  · rw [if_neg hlength, if_neg hlength]
    cases b.stopControl with
    | false => rfl
    | true =>
      rw [if_pos rfl, if_pos rfl,
        run_send (delivered_stopFeedback c msgStopReady request.sequence 0)]
      cases (sendStopFeedback c msgStopReady request.sequence 0).1 with
      | true => rfl
      | false => rfl

theorem peripheralScript_run (c : State π) (p : Priority) (request : Message) :
    (peripheralScript bk c p request).2.run (peripheralScript bk c p request).1 =
      .done (handlePeripheralRequest bk c p request) := by
  unfold peripheralScript handlePeripheralRequest
  split_ifs
  · exact nackScript_run c p request.sequence nackInvalidFrame
  · dsimp only
    cases (bk.execute c.peripherals request).1 with
    | none => exact nackScript_run _ p request.sequence nackInvalidFrame
    | some result => exact resultScript_run _ p request.sequence _

theorem gpioReadScript_run (c : State π) (p : Priority) (request : Message) :
    (gpioReadScript bk c p request).2.run (gpioReadScript bk c p request).1 =
      .done (handleGpioReadRequest bk c p request) := by
  unfold gpioReadScript handleGpioReadRequest
  split_ifs
  · exact nackScript_run c p request.sequence nackInvalidFrame
  · dsimp only
    cases (bk.gpioGet c.peripherals (payloadU32 request.payload 0)).1 with
    | none => rfl
    | some value => exact resultScript_run _ p request.sequence _

theorem otherScript_run (c : State π) (p : Priority) (request : Message) :
    (otherScript p request).run c = .done (handleOther c p request) := by
  unfold otherScript handleOther
  cases priorityIsReliable p with
  | true => rfl
  | false => rfl

theorem requestScript_run (c : State π) (p : Priority) (request : Message) :
    (requestScript b bk c p request).2.run (requestScript b bk c p request).1 =
      handleRequest b bk c p request := by
  unfold requestScript handleRequest
  split_ifs
  · exact stopScript_run c request
  · rfl
  · exact peripheralScript_run c p request
  · exact gpioReadScript_run c p request
  · exact otherScript_run c p request

theorem badFrameScript_run (c : State π) (p : Priority) (ret : Int) (request : Message) :
    (nackScript p request.sequence (if ret = ringBadCrc then nackBadCrc else nackInvalidFrame)).run
        { c with rxErrorCount := c.rxErrorCount + 1 } =
      .done (handleBadFrame c p ret request) := by
  rw [nackScript_run]
  unfold handleBadFrame nackIfReliable sendFeedback
  dsimp only
  rw [transmit_rxErrorCount c p msgNack _ (c.rxErrorCount + 1)]
  have hcount : ∀ payload, (transmit c p msgNack payload).2.rxErrorCount = c.rxErrorCount := by
    intro payload
    unfold transmit State.recordTxFull
    dsimp only
    split_ifs <;> rfl
  split_ifs <;> simp [hcount]

def Turn.handled : Turn π → Handled π
  | .again c | .left c _ _ => .done c
  | .cpuOff c => .cpuOff c

theorem replyScript_run (c : State π) (p : Priority) (ret : Int) (request : Message) :
    (replyScript b bk p ret request c).2.run (replyScript b bk p ret request c).1 =
      (handleReceived b bk p ret request c).handled := by
  unfold replyScript handleReceived
  by_cases hok : ret = ringOk
  · rw [if_pos hok, if_pos hok, requestScript_run]
    cases handleRequest b bk c p request with
    | done c => rfl
    | cpuOff c => rfl
  · rw [if_neg hok, if_neg hok]
    by_cases hbad : ret = ringBadCrc ∨ ret = ringInvalid
    · rw [if_pos hbad, if_pos hbad]
      exact badFrameScript_run c p ret request
    · rw [if_neg hbad, if_neg hbad]
      rfl

/-- Left alone after a receive, the worker does one turn of the drain loop. -/
theorem worker_runs_turn {pending : U32} {p : Priority} (hs : s.worker = .serving pending)
    (hp : hasBit pending p = true ∧ p.val ≠ b.skipPriority) :
    ∃ acts t, Trace (ThreadStep b bk) s acts t ∧
      (t.cpu3, t.worker) = (drainTurn b bk p s.cpu3).handled.at pending := by
  have hreceive : ThreadStep b bk s (.worker (.receive p)) (s.receive b bk pending p) := by
    rw [ThreadStep, Threads.step, hs]
    exact if_pos hp
  have hscript : ∃ acts t, Trace (ThreadStep b bk) (s.receive b bk pending p) acts t ∧ _ :=
    worker_runs_script rfl
  obtain ⟨acts, t, htrace, ht⟩ := hscript
  refine ⟨_, t, .cons hreceive htrace, ?_⟩
  rw [ht, drainTurn_eq, ← replyScript_run]
  rfl

theorem main_lift {acts : List MainAct} {c : State π} {m : MainThread}
    (h : acts.foldlM (fun r a => Cpu3.mainStep b r.1 r.2 a) (s.cpu3, s.main) = some (c, m)) :
    ∃ t, Trace (ThreadStep b bk) s (acts.map .main) t ∧ t.cpu3 = c ∧ t.main = m := by
  induction acts generalizing s with
  | nil =>
    cases h
    exact ⟨s, .nil s, rfl, rfl⟩
  | cons a acts ih =>
    rw [List.foldlM_cons] at h
    obtain ⟨r, hr, hrest⟩ := Option.bind_eq_some_iff.mp h
    have hstep : ∃ t, ThreadStep b bk s (.main a) t ∧ t.cpu3 = r.1 ∧ t.main = r.2 :=
      ⟨_, Option.map_eq_some_iff.mpr ⟨r, hr, rfl⟩, rfl, rfl⟩
    obtain ⟨t, ht, hcpu3, hmain⟩ := hstep
    obtain ⟨u, hu, hc⟩ := ih (s := t) (by rw [hcpu3, hmain]; exact hrest)
    exact ⟨u, .cons ht hu, hc⟩

theorem publish_retry {c : State π} (h : c.sessionReadyPublished = false) (accepted : Bool) :
    (if accepted then { c with sessionReadyPublished := true } else c) =
      { c with sessionReadyPublished := accepted } := by
  cases accepted with
  | true => rfl
  | false =>
    rw [if_neg Bool.false_ne_true, ← h]

theorem mainSteps_serviceSessionReady (hskip : b.skipSessionReady = false) (c : State π) :
    ∃ acts : List MainAct,
      acts.foldlM (fun r a => Cpu3.mainStep b r.1 r.2 a) (c, .looping) =
        some (serviceSessionReady c, .looping) := by
  have hstep : ∀ {r r' : State π × MainThread} {a : MainAct} (acts : List MainAct),
      Cpu3.mainStep b r.1 r.2 a = some r' →
      (a :: acts).foldlM (fun r a => Cpu3.mainStep b r.1 r.2 a) r =
        acts.foldlM (fun r a => Cpu3.mainStep b r.1 r.2 a) r' := by
    intro r r' a acts h
    rw [List.foldlM_cons, h]
    rfl
  have hcall : Cpu3.mainStep b c .looping .call =
      if !c.endpointReady ∨ c.sessionReadyPublished then some (c, .looping)
      else if c.sessionReadyCommitted then some (c, .retrying)
      else some (c, .sending .entered) := by
    change (if b.skipSessionReady = true then none else _) = _
    rw [hskip, if_neg Bool.false_ne_true]
  let n := cpu3Notify c.b2a prioCritical
  unfold serviceSessionReady
  by_cases hidle : !c.endpointReady ∨ c.sessionReadyPublished
  · rw [if_pos hidle] at hcall ⊢
    exact ⟨[.call], hstep [] hcall⟩
  rw [if_neg hidle] at hcall ⊢
  -- the frame is out and only its doorbell is owed: the ring is left alone
  by_cases hcommitted : c.sessionReadyCommitted
  · rw [if_pos hcommitted] at hcall ⊢
    refine ⟨[.call, .notify n.1 n.2, .setPublished], (hstep _ hcall).trans ?_⟩
    have hunpublished : c.sessionReadyPublished = false := by simp_all
    exact congrArg (fun c => some (c, MainThread.looping))
      (publish_retry (c := { c with b2a := n.2 }) hunpublished (notifyAccepted n.1))
  rw [if_neg hcommitted] at hcall ⊢
  have henqueue : Cpu3.mainStep b c (.sending .entered) (.send .enqueue) =
      some (c.queued (c.enqueue (sessionReadyCall c)),
        .sending (.after (c.enqueue (sessionReadyCall c)))) := rfl
  change ∃ acts : List MainAct, _ = some (
    (if (c.send (sessionReadyCall c)).1.ret ≠ endpointOk then (c.send (sessionReadyCall c)).2
      else { (c.send (sessionReadyCall c)).2 with
        sessionReadyCommitted := true
        sessionReadyPublished :=
          notifyAccepted (c.send (sessionReadyCall c)).1.result.notifyResult }), _)
  -- the push decides the way out, for the call and for the thread alike
  by_cases hret : (c.enqueue (sessionReadyCall c)).ret = endpointOk
  · rw [Sending.after, if_neg (not_not.mpr hret)] at henqueue
    refine ⟨[.call, .send .enqueue, .send (.notify n.1 n.2), .leave, .setCommitted,
      .setPublished], (hstep _ hcall).trans ((hstep _ henqueue).trans ?_)⟩
    rw [send_accepted hret]
    rfl
  · rw [Sending.after, if_pos hret] at henqueue
    refine ⟨[.call, .send .enqueue, .leave], (hstep _ hcall).trans ((hstep _ henqueue).trans ?_)⟩
    rw [send_refused hret, if_pos hret]
    exact congrArg some (Prod.ext rfl (if_pos hret))

/-- Left alone, the main thread does `mailmsg_service_session_ready`. -/
theorem main_runs_serviceSessionReady (hskip : b.skipSessionReady = false)
    (hs : s.main = .looping) :
    ∃ acts t, Trace (ThreadStep b bk) s acts t ∧ t.cpu3 = serviceSessionReady s.cpu3 ∧
      t.main = .looping := by
  obtain ⟨acts, hacts⟩ := mainSteps_serviceSessionReady hskip s.cpu3
  rw [← hs] at hacts
  have hlift : ∃ t, Trace (ThreadStep b bk) s (acts.map .main) t ∧ _ := main_lift hacts
  obtain ⟨t, htrace, hcpu3, hmain⟩ := hlift
  exact ⟨_, t, htrace, hcpu3, hmain.trans hs⟩

end Alone

/-- CPU3 bound to the first session, nothing queued. -/
def bootedThreads : Threads Unit where
  cpu3 := boot (queuedOnControl []).shared ⟨0, fun _ => 0, fun _ => 0⟩ false ()
  pending := 0
  sem := false
  main := .looping
  worker := .waiting
  received := []
  log := []

theorem bootedThreads_booted : bootedThreads.Booted :=
  ⟨⟨_, _, _, _, rfl⟩, rfl, rfl, rfl, rfl⟩

def rungBells (ps : List Priority) : Doorbells :=
  ps.foldl (fun r p => r.ring p (protocolAck ||| channelWord p) (channelWord p))
    ⟨0, fun _ => 0, fun _ => 0⟩

def publishReady : List ThreadAct :=
  [.main .call, .main (.send .enqueue), .main (.send (.notify notifySent (rungBells [0]))),
    .main .leave, .main .setCommitted, .main .setPublished]

/-- Linux queues `frames` on `p`, and the worker wakes up and takes the first. -/
def serveFirst (p : Priority) (frames : List Message) : List ThreadAct :=
  [.requests (Function.update (fun _ => Ring.zero) p (ringOf 0 frames)), .isr p, .worker .take,
    .worker .swap, .worker .test, .worker (.receive p)]

def sendRoom (ps : List Priority) (ret : Int) : List ThreadAct :=
  [.worker .enter, .worker (.send .enqueue), .worker (.send (.notify ret (rungBells ps))),
    .worker .leave]

def sendFull : List ThreadAct := [.worker .enter, .worker (.send .enqueue), .worker .leave]

end Lzamp.Cpu3
