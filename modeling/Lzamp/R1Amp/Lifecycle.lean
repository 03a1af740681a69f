import Lzamp.Lib.Loop
import Lzamp.R1Amp.Driver

namespace Lzamp.R1Amp
open Mailmsg Lib

inductive Effect where
  /-- `image_write` copied into the carveout. -/
  | imageCopied
  /-- `start_store` zeroed the control page. -/
  | controlPageCleared
  /-- `psci_ops.cpu_on` was called and returned `ret`. -/
  | cpuOn (ret : Int)
  /-- `control_work` received a frame with result 0 and then read jiffies. -/
  | received (frame : Message) (now deadline : U64)
deriving DecidableEq

/-- What an entry point returns, what it does outside the driver structure, and the driver after it.
It runs under the driver lock. -/
structure Ran where
  ret : Int
  effects : List Effect
  driver : Driver

/-- `return ret ? ret : count` of a sysfs store. -/
def storeResult (ret : Int) (count : ℕ) : Int := if ret ≠ 0 then ret else count

def affinityWork (affinity : Int) (d : Driver) : Driver :=
  match d.life.mailmsgState with
  | .starting | .startTimeout | .active | .stopping | .stopTimeout =>
    let d := { d with life := { d.life with
      affinityMonitorCount := d.life.affinityMonitorCount + 1 } }
    let d := refreshAffinityLocked affinity d
    if affinity < 0 then { d with life := { d.life with
      affinityMonitorErrorCount := d.life.affinityMonitorErrorCount + 1 } }
    else d
  | .unarmed | .offline => d

/-- The frame the lifecycle plane waits for in STARTING. -/
def isSessionReady (generation : U32) (response : Message) : Bool :=
  response.type = msgSessionReady ∧ 8#32 ≤ response.length ∧
    payloadU32 response.payload 0 = generation ∧
    payloadU32 response.payload 4 = protocolVersion

/-- A stop reply that names the request. -/
def isStopReply (sequence : U32) (response : Message) : Bool :=
  (response.type = msgStopReady ∨ response.type = msgStopRefused) ∧
    8#32 ≤ response.length ∧ payloadU32 response.payload 0 = sequence

/-- How one round of the `for (;;)` in `control_work` ends. -/
inductive Round where
  | again (d : Driver) (effects : List Effect)
  | leave (d : Driver) (effects : List Effect)

def Round.driver : Round → Driver
  | .again d _ | .leave d _ => d

def Round.effects : Round → List Effect
  | .again _ effects | .leave _ effects => effects

def Driver.received (d : Driver) (r : Received) : Driver :=
  { d with endpoint := r.endpoint, shared := r.shared }

def controlError (d : Driver) (ret : Int) : Driver :=
  let errno := ringResultToErrno ret
  { d with life :=
    if d.life.mailmsgState = .starting then { d.life with sessionResult := errno }
    else { d.life with stopResult := errno } }

def sessionEstablished (d : Driver) : Driver :=
  { d with life := { d.life with
    peerGeneration := d.life.sessionGeneration, sessionResult := 0, affinitySeenOn := true,
    mailmsgState := .active } }

def stopReadyAccepted (cfg : Config) (rearm : U64) (d : Driver) : Driver :=
  { d with life := { d.life with
    stopReplyType := msgStopReady, stopResult := 0,
    lifecycleDeadline := rearm + cfg.lifecycleTimeout } }

def stopRefusedAccepted (d : Driver) : Driver :=
  { d with life := { d.life with
    stopReplyType := msgStopRefused, stopResult := -ecanceled, mailmsgState := .active } }

def controlFrame (cfg : Config) (rearm : U64) (response : Message) (d : Driver)
    (effects : List Effect) : Round :=
  if d.life.mailmsgState = .starting then
    if isSessionReady d.life.sessionGeneration response then .leave (sessionEstablished d) effects
    else .again d effects
  else if !isStopReply d.life.stopRequestSequence response then .again d effects
  else if response.type = msgStopReady then .leave (stopReadyAccepted cfg rearm d) effects
  else .leave (stopRefusedAccepted d) effects

/-- One round: `now` is read after a good receive, `rearm` when STOP_READY moves the deadline. -/
def controlRound (cfg : Config) (now rearm : U64) (d : Driver) : Round :=
  let r := endpointReceive d.endpoint d.shared prioCritical Message.zero
  let d := d.received r
  if r.ret = ringEmpty ∨ r.ret = ringIncomplete then .leave d []
  else if r.ret = endpointStaleFrame then .again d []
  else if r.ret ≠ ringOk then
    -- endpoint and session errors consume nothing, so going round again would spin
    if r.ret ≤ endpointInvalid then .leave (controlError d r.ret) []
    else .again (controlError d r.ret) []
  else
    let effects := [Effect.received r.message now d.life.lifecycleDeadline]
    if timeAfterEq now d.life.lifecycleDeadline then .leave (mailmsgSetTimeoutLocked d) effects
    else controlFrame cfg rearm r.message d effects

/-- The loop of `control_work`; `none` when it has not ended within `fuel` rounds.  Round `i` reads
jiffies as `clock (2 * i)` and `clock (2 * i + 1)`. -/
def controlLoop (cfg : Config) (clock : ℕ → U64) :
    ℕ → ℕ → Driver → List Effect → Option (Driver × List Effect)
  | 0, _, _, _ => none
  | fuel + 1, i, d, log =>
    match controlRound cfg (clock (2 * i)) (clock (2 * i + 1)) d with
    | .leave d effects => some (d, log ++ effects)
    | .again d effects => controlLoop cfg clock fuel (i + 1) d (log ++ effects)

def controlStep (cfg : Config) (clock : ℕ → U64) (i : ℕ) (s : Driver × List Effect) :
    (Driver × List Effect) ⊕ (Driver × List Effect) :=
  match controlRound cfg (clock (2 * i)) (clock (2 * i + 1)) s.1 with
  | .again d effects => .inl (d, s.2 ++ effects)
  | .leave d effects => .inr (d, s.2 ++ effects)

theorem controlLoop_eq (cfg : Config) (clock : ℕ → U64) (fuel i : ℕ) (d : Driver)
    (log : List Effect) :
    controlLoop cfg clock fuel i d log = cutLoop (controlStep cfg clock) fuel i (d, log) := by
  induction fuel generalizing i d log with
  | zero => rfl
  | succ fuel ih =>
    rw [controlLoop, cutLoop, controlStep]
    cases controlRound cfg (clock (2 * i)) (clock (2 * i + 1)) d with
    | again d effects => exact ih ..
    | leave d effects => rfl

/-- The rule of the loop: `P` relates the driver to the log after every round that goes on. -/
theorem controlLoop_rule {cfg : Config} {P Q : Driver → List Effect → Prop}
    (hagain : ∀ now rearm d log d' es, P d log → controlRound cfg now rearm d = .again d' es →
      P d' (log ++ es))
    (hleave : ∀ now rearm d log d' es, P d log → controlRound cfg now rearm d = .leave d' es →
      Q d' (log ++ es))
    {clock : ℕ → U64} {fuel i : ℕ} {d d' : Driver} {log es : List Effect} (h₀ : P d log)
    (h : controlLoop cfg clock fuel i d log = some (d', es)) : Q d' es := by
  rw [controlLoop_eq] at h
  refine cutLoop_rule (P := fun s => P s.1 s.2) (Q := fun s => Q s.1 s.2) ?_ ?_ h₀ h
  · intro k s s' hs hround
    unfold controlStep at hround
    cases hc : controlRound cfg (clock (2 * k)) (clock (2 * k + 1)) s.1 with
    | again d₁ es₁ =>
      rw [hc] at hround
      cases hround
      exact hagain _ _ _ _ _ _ hs hc
    | leave d₁ es₁ =>
      rw [hc] at hround
      cases hround
  · intro k s b hs hround
    unfold controlStep at hround
    cases hc : controlRound cfg (clock (2 * k)) (clock (2 * k + 1)) s.1 with
    | again d₁ es₁ =>
      rw [hc] at hround
      cases hround
    | leave d₁ es₁ =>
      rw [hc] at hround
      cases hround
      exact hleave _ _ _ _ _ _ hs hc

theorem controlLoop_keeps {cfg : Config} {P : Driver → List Effect → Prop}
    (hround : ∀ now rearm d log, P d log →
      P (controlRound cfg now rearm d).driver (log ++ (controlRound cfg now rearm d).effects))
    {clock : ℕ → U64} {fuel i : ℕ} {d d' : Driver} {log es : List Effect} (h₀ : P d log)
    (h : controlLoop cfg clock fuel i d log = some (d', es)) : P d' es := by
  refine controlLoop_rule (P := P) (Q := P) ?_ ?_ h₀ h
  · intro now rearm d₁ log₁ d₂ es₂ hbefore heq
    have hnext := hround now rearm d₁ log₁ hbefore
    rwa [heq] at hnext
  · intro now rearm d₁ log₁ d₂ es₂ hbefore heq
    have hlast := hround now rearm d₁ log₁ hbefore
    rwa [heq] at hlast

/-- `r1_amp_mailmsg_control_work`; jiffies is first read as `start`. -/
def mailmsgControlWork (cfg : Config) (start : U64) (clock : ℕ → U64) (fuel : ℕ) (d : Driver) :
    Option (Driver × List Effect) :=
  if d.life.mailmsgState ≠ .starting ∧ d.life.mailmsgState ≠ .stopping then some (d, [])
  else if timeAfterEq start d.life.lifecycleDeadline then some (mailmsgSetTimeoutLocked d, [])
  else controlLoop cfg clock fuel 0 d []

def mailmsgLifecycleTimeoutWork (now : U64) (affinity : Int) (d : Driver) : Driver :=
  if d.life.mailmsgState ≠ .starting ∧ d.life.mailmsgState ≠ .stopping then d
  else if timeBefore now d.life.lifecycleDeadline then d
  else if d.life.mailmsgState = .stopping ∧ d.life.stopReplyType = msgStopReady then
    -- CPU3 may have gone off since STOP_READY: one more sample before the timeout
    let d := refreshAffinityLocked affinity d
    if d.life.mailmsgState = .offline then d else mailmsgSetTimeoutLocked d
  else mailmsgSetTimeoutLocked d

/-- `affinity_state_show` without its text. -/
def affinityStateShow (cfg : Config) (affinity : Int) (d : Driver) : Ran :=
  if !cfg.hasAffinityInfo then ⟨-eopnotsupp, [], d⟩
  else ⟨0, [], refreshAffinityLocked affinity d⟩

def copyBytes (memory : ℕ → U8) (off : ℕ) (buf : List U8) : ℕ → U8 := fun i =>
  if off ≤ i ∧ i < off + buf.length then buf.getD (i - off) 0 else memory i

def imageWrite (cfg : Config) (off : U64) (buf : List U8) (d : Driver) : Ran :=
  let count := BitVec.ofNat 64 buf.length
  if d.life.cpuOnAttempted then ⟨-ebusy, [], d⟩
  else if off ≠ d.life.imageWritten then ⟨-espipe, [], d⟩
  else if cfg.imageSize.setWidth 64 - d.life.imageWritten < count then ⟨-efbig, [], d⟩
  else ⟨buf.length, [.imageCopied], { d with
    carveout := copyBytes d.carveout off.toNat buf
    life := { d.life with imageWritten := d.life.imageWritten + count } }⟩

/-- The next session generation, which is never zero. -/
def nextGeneration (generation : U32) : U32 :=
  if generation + 1 = 0 then generation + 1 + 1 else generation + 1

/-- A new generation in a cleared control page, and the endpoint bound to it. -/
def openSession (d : Driver) : Int × Driver :=
  let generation := nextGeneration d.life.sessionGeneration
  let bound := endpointBind d.endpoint (freshShared generation) .linux
  (bound.1, { d with
    life := { d.life with sessionGeneration := generation }
    shared := freshShared generation
    endpoint := bound.2 })

def launched (cfg : Config) (cpuOn : Int) (now : U64) (life : Lifecycle) : Lifecycle :=
  let life := { life with
    peerGeneration := 0
    sessionResult := -einprogress
    stopRequestSequence := 0
    stopReplyType := 0
    stopResult := -eagain
    stopNotifyResult := -eagain
    mailmsgState := .starting
    affinitySeenOn := false
    cpuOnAttempted := true
    cpuOnRet := cpuOn }
  -- refused by the firmware: no session, but the attempt stays on record until a rearm
  if cpuOn ≠ 0 then { life with mailmsgState := .unarmed, sessionResult := cpuOn }
  else { life with lifecycleDeadline := now + cfg.lifecycleTimeout }

/-- `start_store` from the affinity check on; `d` is already refreshed. -/
def startSession (cfg : Config) (cpuOn : Int) (now : U64) (d : Driver) : Ran :=
  let opened := openSession d
  if opened.1 ≠ endpointOk then ⟨-eproto, [.controlPageCleared], opened.2⟩
  else ⟨cpuOn, [.controlPageCleared, .cpuOn cpuOn], { opened.2 with
    life := launched cfg cpuOn now opened.2.life
    mbox := { d.mbox with lifecycleNotifyBypass := false } }⟩

/-- `start_store`; `isStart` is the outcome of comparing the text with "start". -/
def startStore (cfg : Config) (isStart : Bool) (count : ℕ) (affinity cpuOn : Int) (now : U64)
    (d : Driver) : Ran :=
  if !isStart then ⟨-einval, [], d⟩
  else if d.life.cpuOnAttempted then ⟨-ealready, [], d⟩
  else if d.life.imageWritten ≠ cfg.imageSize.setWidth 64 then ⟨-enodata, [], d⟩
  else if !cfg.hasAffinityInfo || !cfg.hasCpuOn then ⟨-eopnotsupp, [], d⟩
  else
    let d := refreshAffinityLocked affinity d
    if d.life.affinityState ≠ affinityOff then ⟨-ebusy, [], d⟩
    else
      let run := startSession cfg cpuOn now d
      { run with ret := storeResult run.ret count }

/-- What a successful rearm resets. -/
def rearmed (d : Driver) : Driver :=
  { d with
    endpoint := Endpoint.zero
    life := { d.life with
      imageWritten := 0
      cpuOnAttempted := false
      cpuOnRet := -eagain
      affinitySeenOn := false
      mailmsgState := .unarmed
      peerGeneration := 0
      sessionResult := -eagain
      nextSequence := 0
      stopRequestSequence := 0
      stopReplyType := 0
      stopResult := -eagain
      stopNotifyResult := -eagain }
    mbox := { d.mbox with
      mailmsgLastNotifyResult := -eagain
      notifyInjectRemaining := 0
      lifecycleNotifyBypass := false } }

def rearmStore (cfg : Config) (isRearm : Bool) (count : ℕ) (affinity : Int) (d : Driver) : Ran :=
  if !isRearm then ⟨-einval, [], d⟩
  else if !d.life.cpuOnAttempted then ⟨-einval, [], d⟩
  else if d.mailmsgUserOpenCount ≠ 0 then ⟨-ebusy, [], d⟩
  else if !cfg.hasAffinityInfo then ⟨-eopnotsupp, [], d⟩
  else
    let d := refreshAffinityLocked affinity d
    if d.life.affinityState ≠ affinityOff then ⟨-ebusy, [], d⟩
    else if d.mbox.a2b.status ≠ 0 then ⟨-ebusy, [], d⟩
    else ⟨storeResult 0 count, [], rearmed d⟩

/-- One ring's test in the preflight: `ret` follows the has-data convention, and is compared with
`MAILMSG_RING_EMPTY` as the source does.  `none` lets the walk go on. -/
def preflightRing (ret : Int) : Option Int :=
  if ret ≠ ringEmpty then some (if 0 < ret then -ebusy else ringResultToErrno ret) else none

/-- The walk over the priorities, as far as it gets. -/
def preflightRings (d : Driver) : List Priority → Option Int
  | [] => none
  | p :: ps =>
    (preflightRing (endpointHasReceived d.endpoint d.shared p)).orElse fun _ =>
      (preflightRing (ringHasData (d.shared.linuxToCpu3 p))).orElse fun _ => preflightRings d ps

def mailmsgStopPreflightLocked (d : Driver) : Int :=
  if d.mailmsgUserOpenCount ≠ 0 then -ebusy
  else if d.endpoint.role = none then -eproto
  else match preflightRings d [0, 1, 2, 3] with
    | some ret => ret
    | none => if d.mbox.a2b.status &&& 0xf ≠ 0 then -ebusy else 0

/-- The state in which STOP_REQUEST is sent: injected notification faults are bypassed. -/
def stopPending (d : Driver) : Driver :=
  { d with
    life := { d.life with
      mailmsgState := .stopping
      stopRequestSequence := 0
      stopReplyType := 0
      stopResult := -einprogress
      stopNotifyResult := -einprogress }
    mbox := { d.mbox with lifecycleNotifyBypass := true } }

def Driver.sentStop (d : Driver) (s : Sent Mbox) : Driver :=
  { d with
    endpoint := s.endpoint
    shared := s.shared
    mbox := { s.notifier with lifecycleNotifyBypass := false } }

def stopSendErrno (s : Sent Mbox) : Int :=
  if s.ret ≤ endpointInvalid then ringResultToErrno s.ret
  else ringResultToErrno s.result.queueResult

/-- No frame was committed: the session stays ACTIVE. -/
def stopNotQueued (s : Sent Mbox) (d : Driver) : Driver :=
  { d with life := { d.life with mailmsgState := .active, stopResult := stopSendErrno s } }

/-- The request is committed: STOPPING is kept whatever the doorbell did. -/
def stopQueued (cfg : Config) (now : U64) (s : Sent Mbox) (d : Driver) : Driver :=
  { d with life := { d.life with
    stopRequestSequence := s.result.sequence
    stopNotifyResult := s.result.notifyResult
    lifecycleDeadline := now + cfg.lifecycleTimeout } }

def sendStop (d : Driver) : Sent Mbox :=
  endpointSend mailmsgNotifyLocked d.mbox d.endpoint d.shared prioCritical msgStopRequest none 0
    SendResult.zero

/-- The send of STOP_REQUEST and what follows it. -/
def sendStopRequest (cfg : Config) (now : U64) (d : Driver) : Int × Driver :=
  let s := sendStop d
  if s.ret ≠ endpointOk then (stopSendErrno s, stopNotQueued s (d.sentStop s))
  else
    let ret := s.result.notifyResult
    (if !notifyAccepted ret ∧ ret < 0 then ret else 0, stopQueued cfg now s (d.sentStop s))

def mailmsgStopStore (cfg : Config) (isStop : Bool) (count : ℕ) (now : U64) (d : Driver) : Ran :=
  if !isStop then ⟨-einval, [], d⟩
  else if d.life.mailmsgState = .offline then ⟨-enolink, [], d⟩
  else if d.life.mailmsgState ≠ .active then ⟨-ebusy, [], d⟩
  else
    let ret := mailmsgStopPreflightLocked d
    if ret ≠ 0 then ⟨ret, [], d⟩
    else
      let sent := sendStopRequest cfg now (stopPending d)
      ⟨storeResult sent.1 count, [], sent.2⟩

end Lzamp.R1Amp
