import Lzamp.Cpu3.Drain
import Lzamp.R1Amp.Driver
import Lzamp.Lib.Trace

namespace Lzamp.System
open Mailmsg Lib Cpu3

/-- Where the Linux sender stands in `r1_amp_mbox_direct_send_locked`.  `notifies` tells the
notification of a frame from a raw doorbell. -/
inductive Sender where
  | idle
  | queued (p : Priority)
  | ringing (p : Priority) (command value : U32) (notifies : Bool)
  | commanded (p : Priority) (value : U32) (notifies : Bool)
deriving DecidableEq

/-- Where `mailmsg_mailbox_a2b_matrix_isr` stands for one channel. -/
inductive Isr where
  | idle
  | fired
  | read (command : U32)
  | cleared (command : U32)
  | marked
deriving DecidableEq

/-- Where `mailmsg_worker` stands.  From `disabling` on it is in `mailmsg_cpu_off_after_ready`. -/
inductive Worker where
  | waiting
  | taken
  | serving (pending : U32) (todo : List Priority) (reschedule : U32)
  | draining (pending : U32) (p : Priority) (remaining : ℕ) (todo : List Priority)
      (reschedule : U32)
  | checking (pending : U32) (p : Priority) (remaining : ℕ) (todo : List Priority)
      (reschedule : U32)
  | marking (reschedule : U32)
  | giving
  | disabling
  | quiescing
  | acknowledging (pending : U32)
  | parking
  | off
deriving DecidableEq

/-- Not yet in `mailmsg_cpu_off_after_ready`. -/
def Worker.running : Worker → Bool
  | .disabling | .quiescing | .acknowledging _ | .parking | .off => false
  | _ => true

def Worker.stage : Worker → ℕ
  | .disabling => 1
  | .quiescing => 2
  | .acknowledging _ => 3
  | .parking => 4
  | .off => 5
  | _ => 0

theorem Worker.running_iff (w : Worker) : w.running = true ↔ w.stage = 0 := by
  cases w <;> first
    | exact iff_of_true rfl rfl
    | exact iff_of_false Bool.false_ne_true (Nat.succ_ne_zero _)

/-- Both ends and what is between them.  The sender runs under the driver lock, so there is one.  On
the one CPU3 core an interrupt can only preempt the worker; here the two interleave freely.  The
shared page is the one in `cpu3`.  `tags` is a ghost: for each queued frame, whether its
notification has returned SENT or COALESCED. -/
structure Link (π : Type) where
  linux : Endpoint
  cpu3 : State π
  a2b : Doorbells
  pending : U32
  sem : Bool
  irqEnabled : Bool
  isr : Priority → Isr
  worker : Worker
  sender : Sender
  stopping : Bool
  tags : Priority → List Bool

variable {π : Type}

/-- What the sender does with sound frames.  The damaged frame of `mailmsg_crc_inject` is a step of
the bring-up, which does not take soundness for granted. -/
inductive SenderAct where
  /-- Commit a frame. -/
  | send (p : Priority) (type : U32) (payload : List U8) (length : U32)
  /-- Commit STOP_REQUEST and close the data plane. -/
  | stop
  /-- A refusal, which only a running CPU3 sends, reopens the data plane. -/
  | resume
  /-- The notification fails, or the test hook does not notify. -/
  | noBell
  /-- Read A2B_STATUS for the notification. -/
  | look
  /-- `doorbell_store` reads A2B_STATUS. -/
  | lookRaw (p : Priority) (value : U32)
  | writeCmd
  | writeDat

/-- The last frame of a queue is notified, if it is still there. -/
def notifyLast (tags : List Bool) : List Bool :=
  if tags = [] then [] else tags.dropLast ++ [true]

def Link.notified (s : Link π) (p : Priority) (notifies : Bool) : Link π :=
  if notifies then { s with tags := Function.update s.tags p (notifyLast (s.tags p)) } else s

/-- `mailmsg_endpoint_send` up to the commit. -/
def Link.commit (s : Link π) (p : Priority) (type : U32) (payload : Option (List U8))
    (length : U32) (stopping : Bool) : Link π :=
  let q := endpointEnqueue s.linux s.cpu3.shared p type payload length SendResult.zero
  let s := { s with linux := q.endpoint, cpu3 := { s.cpu3 with shared := q.shared } }
  if q.ret ≠ endpointOk then s
  else { s with
    sender := .queued p
    stopping := stopping
    tags := Function.update s.tags p (s.tags p ++ [false]) }

def Link.raise (s : Link π) (p : Priority) (value : U32) : Link π :=
  { s with
    sender := .idle
    a2b := { s.a2b with
      status := s.a2b.status ||| bit p
      dat := Function.update s.a2b.dat p value } }

def Link.senderStep (s : Link π) : SenderAct → Option (Link π)
  | .send p type payload length =>
    if s.sender = .idle ∧ s.stopping = false then some (s.commit p type (some payload) length false)
    else none
  | .stop =>
    if s.sender = .idle ∧ s.stopping = false then
      some (s.commit prioCritical msgStopRequest none 0 true)
    else none
  | .resume =>
    if s.sender = .idle ∧ s.stopping ∧ s.worker.running then some { s with stopping := false }
    else none
  | .noBell =>
    match s.sender with
    -- the lifecycle plane bypasses injected faults
    | .queued _ => if s.stopping then none else some { s with sender := .idle }
    | _ => none
  | .look =>
    match s.sender with
    | .queued p =>
      if hasBit s.a2b.status p then some ({ s with sender := .idle }.notified p true)
      else some { s with
        sender := .ringing p (R1Amp.mailmsgDoorbell ||| channelWord p) (channelWord p) true }
    | _ => none
  | .lookRaw p value =>
    if s.sender = .idle ∧ s.stopping = false then
      if hasBit s.a2b.status p then some s
      else some { s with sender := .ringing p (R1Amp.rawDoorbell ||| channelWord p) value false }
    else none
  | .writeCmd =>
    match s.sender with
    | .ringing p command value notifies => some { s with
        sender := .commanded p value notifies
        a2b := { s.a2b with cmd := Function.update s.a2b.cmd p command } }
    | _ => none
  | .writeDat =>
    match s.sender with
    | .commanded p value notifies => some ((s.raise p value).notified p notifies)
    | _ => none

inductive IsrAct where
  | fire
  | readCmd
  | clear
  | mark
  | give
deriving DecidableEq

def protocolCommand : U32 := 0xa2b10000
def rawTestCommand : U32 := 0xa2b00000

/-- The commands for which the handler wakes the worker. -/
def Accepted (p : Priority) (command : U32) : Prop :=
  command &&& 0xfffffff0 = protocolCommand ∨ command = rawTestCommand ||| channelWord p

instance (p : Priority) (command : U32) : Decidable (Accepted p command) :=
  inferInstanceAs (Decidable (_ ∨ _))

def Link.setIsr (s : Link π) (p : Priority) (isr : Isr) : Link π :=
  { s with isr := Function.update s.isr p isr }

def Link.isrStep (s : Link π) (p : Priority) : IsrAct → Option (Link π)
  | .fire =>
    if s.irqEnabled ∧ hasBit s.a2b.status p ∧ s.isr p = .idle then some (s.setIsr p .fired)
    else none
  | .readCmd => if s.isr p = .fired then some (s.setIsr p (.read (s.a2b.cmd p))) else none
  | .clear =>
    match s.isr p with
    | .read command => some ({ s with
        a2b := { s.a2b with status := s.a2b.status &&& ~~~ bit p } }.setIsr p (.cleared command))
    | _ => none
  | .mark =>
    match s.isr p with
    | .cleared command =>
      if Accepted p command then
        some ({ s with pending := s.pending ||| bit p }.setIsr p .marked)
      else some (s.setIsr p .idle)
    | _ => none
  | .give => if s.isr p = .marked then some ({ s with sem := true }.setIsr p .idle) else none

inductive WorkerAct where
  | take
  | swap
  | next
  | turn
  | check
  | mark
  | give
  | disable
  | readStatus
  | acknowledge
  | cpuOff
deriving DecidableEq

/-- The tags of the frames still queued after the worker has taken frames from the front. -/
def keepTags (tags : List Bool) (depth : ℕ) : List Bool := tags.drop (tags.length - depth)

def Link.served (s : Link π) (p : Priority) (c : State π) : Link π :=
  { s with
    cpu3 := c
    tags := Function.update s.tags p (keepTags (s.tags p) (c.shared.linuxToCpu3 p).depth) }

def Link.workerStep (b : Build) (bk : Backend π) (s : Link π) : WorkerAct → Option (Link π)
  | .take =>
    if s.worker = .waiting ∧ s.sem then some { s with sem := false, worker := .taken } else none
  | .swap =>
    if s.worker = .taken then
      some { s with
        pending := 0
        worker := if s.pending = 0 then .waiting else .serving s.pending [0, 1, 2, 3] 0 }
    else none
  | .next =>
    match s.worker with
    | .serving pending (p :: todo) reschedule => some { s with
        worker := if !hasBit pending p ∨ p.val = b.skipPriority then
            .serving pending todo reschedule
          else .draining pending p drainQuota todo reschedule }
    | .serving _ [] reschedule => some { s with
        worker := if reschedule ≠ 0 then .marking reschedule else .waiting }
    | _ => none
  | .turn =>
    match s.worker with
    | .draining pending p 0 todo reschedule => some { s with
        worker := .checking pending p 0 todo reschedule }
    | .draining pending p (n + 1) todo reschedule =>
      match drainTurn b bk p s.cpu3 with
      | .again c => some { s.served p c with worker := .draining pending p n todo reschedule }
      | .left c counted _ => some { s.served p c with
          worker := .checking pending p (if counted then n else n + 1) todo reschedule }
      | .cpuOff c => some { s.served p c with worker := .disabling }
    | _ => none
  | .check =>
    match s.worker with
    | .checking pending p remaining todo reschedule =>
      let more := endpointHasReceived s.cpu3.endpoint s.cpu3.shared p
      some { s with
        worker := .serving pending todo
          (if remaining = 0 ∧ more = 1 then reschedule ||| bit p else reschedule) }
    | _ => none
  | .mark =>
    match s.worker with
    | .marking reschedule => some { s with
        pending := s.pending ||| reschedule, worker := .giving }
    | _ => none
  | .give => if s.worker = .giving then some { s with sem := true, worker := .waiting } else none
  | .disable =>
    if s.worker = .disabling then some { s with irqEnabled := false, worker := .quiescing }
    else none
  | .readStatus =>
    if s.worker = .quiescing then
      some { s with worker := .acknowledging (s.a2b.status &&& 0xf) }
    else none
  | .acknowledge =>
    match s.worker with
    | .acknowledging pending => some { s with
        a2b := { s.a2b with status := s.a2b.status &&& ~~~ pending }
        worker := .parking }
    | _ => none
  | .cpuOff => if s.worker = .parking then some { s with worker := .off } else none

inductive Act where
  | sender (a : SenderAct)
  | isr (p : Priority) (a : IsrAct)
  | worker (a : WorkerAct)
  /-- Linux consumes answers and acknowledges B2A doorbells. -/
  | linuxReads (rings : Priority → Ring) (b2a : Doorbells)

def Link.step (b : Build) (bk : Backend π) (s : Link π) : Act → Option (Link π)
  | .sender a => s.senderStep a
  | .isr p a => s.isrStep p a
  | .worker a => s.workerStep b bk a
  | .linuxReads rings b2a => some { s with
      cpu3 := { s.cpu3 with shared := { s.cpu3.shared with cpu3ToLinux := rings }, b2a := b2a } }

def LinkStep (b : Build) (bk : Backend π) (s : Link π) (a : Act) (s' : Link π) : Prop :=
  s.step b bk a = some s'

/-- The sender leaves CPU3 alone but for the page they share. -/
structure SenderFrame (s s' : Link π) : Prop where
  worker : s'.worker = s.worker
  irqEnabled : s'.irqEnabled = s.irqEnabled
  cpu3 : ∃ sh, s'.cpu3 = { s.cpu3 with shared := sh }

theorem Link.senderStep_frame {s s' : Link π} {a : SenderAct} (h : s.senderStep a = some s') :
    SenderFrame s s' := by
  have hcommit : ∀ p type payload length stopping,
      SenderFrame s (s.commit p type payload length stopping) := by
    intro p type payload length stopping
    unfold Link.commit
    dsimp only
    split_ifs <;> exact ⟨rfl, rfl, _, rfl⟩
  have hnotified : ∀ (t : Link π) p notifies, SenderFrame s t →
      SenderFrame s (t.notified p notifies) := by
    intro t p notifies ht
    cases notifies <;> exact ⟨ht.worker, ht.irqEnabled, ht.cpu3⟩
  cases a with
  | send | stop =>
    rw [Link.senderStep] at h
    split_ifs at h
    cases h
    exact hcommit ..
  | resume =>
    rw [Link.senderStep] at h
    split_ifs at h
    cases h
    exact ⟨rfl, rfl, _, rfl⟩
  | lookRaw p value =>
    rw [Link.senderStep] at h
    split_ifs at h <;> cases h <;> exact ⟨rfl, rfl, _, rfl⟩
  | noBell =>
    rw [Link.senderStep] at h
    split at h
    · split_ifs at h
      cases h
      exact ⟨rfl, rfl, _, rfl⟩
    · cases h
  | look =>
    rw [Link.senderStep] at h
    split at h
    · split_ifs at h
      · cases h
        exact hnotified _ _ _ ⟨rfl, rfl, _, rfl⟩
      · cases h
        exact ⟨rfl, rfl, _, rfl⟩
    · cases h
  | writeCmd =>
    rw [Link.senderStep] at h
    split at h <;> cases h
    exact ⟨rfl, rfl, _, rfl⟩
  | writeDat =>
    rw [Link.senderStep] at h
    split at h <;> cases h
    exact hnotified _ _ _ ⟨rfl, rfl, _, rfl⟩

/-- The handler leaves the other actors alone and raises no bit. -/
structure IsrFrame (s s' : Link π) : Prop where
  worker : s'.worker = s.worker
  cpu3 : s'.cpu3 = s.cpu3
  tags : s'.tags = s.tags
  irqEnabled : s'.irqEnabled = s.irqEnabled
  sender : s'.sender = s.sender
  stopping : s'.stopping = s.stopping
  status : ∀ p, hasBit s'.a2b.status p = true → hasBit s.a2b.status p = true

theorem Link.isrStep_frame {s s' : Link π} {p : Priority} {a : IsrAct}
    (h : s.isrStep p a = some s') : IsrFrame s s' := by
  cases a with
  | fire | readCmd | give =>
    rw [Link.isrStep] at h
    split_ifs at h
    cases h
    exact ⟨rfl, rfl, rfl, rfl, rfl, rfl, fun _ hq => hq⟩
  | clear =>
    rw [Link.isrStep] at h
    split at h <;> cases h
    refine ⟨rfl, rfl, rfl, rfl, rfl, rfl, fun q hq => ?_⟩
    change hasBit (s.a2b.status &&& ~~~ bit p) q = true at hq
    rw [hasBit_and, Bool.and_eq_true] at hq
    exact hq.1
  | mark =>
    rw [Link.isrStep] at h
    split at h
    · split_ifs at h <;> cases h <;> exact ⟨rfl, rfl, rfl, rfl, rfl, rfl, fun _ hq => hq⟩
    · cases h

/-- The worker leaves the sender and the handler alone; it masks the interrupts and touches the
doorbells only on its way out. -/
structure WorkerFrame (s s' : Link π) : Prop where
  isr : s'.isr = s.isr
  sender : s'.sender = s.sender
  stopping : s'.stopping = s.stopping
  tags : ∀ p, true ∈ s'.tags p → true ∈ s.tags p
  irqEnabled : s.worker ≠ .disabling → s'.irqEnabled = s.irqEnabled
  a2b : (∀ pending, s.worker ≠ .acknowledging pending) → s'.a2b = s.a2b
  status : ∀ p, hasBit s'.a2b.status p = true → hasBit s.a2b.status p = true

theorem mem_tags_served {s : Link π} {p q : Priority} {c : State π}
    (h : true ∈ (s.served p c).tags q) : true ∈ s.tags q := by
  change true ∈ Function.update s.tags p _ q at h
  by_cases hqp : q = p
  · subst hqp
    rw [Function.update_self] at h
    exact List.mem_of_mem_drop h
  · rwa [Function.update_of_ne hqp] at h

theorem Link.workerStep_frame {b : Build} {bk : Backend π} {s s' : Link π} {a : WorkerAct}
    (h : s.workerStep b bk a = some s') : WorkerFrame s s' := by
  have hplain : ∀ w, WorkerFrame s { s with worker := w } :=
    fun _ => ⟨rfl, rfl, rfl, fun _ ht => ht, fun _ => rfl, fun _ => rfl, fun _ h => h⟩
  cases a with
  | turn =>
    rw [Link.workerStep] at h
    split at h
    · cases h
      exact hplain _
    · split at h <;> cases h <;>
        exact ⟨rfl, rfl, rfl, fun _ => mem_tags_served, fun _ => rfl, fun _ => rfl, fun _ h => h⟩
    · cases h
  | swap =>
    rw [Link.workerStep] at h
    by_cases hw : s.worker = .taken
    · rw [if_pos hw] at h
      cases h
      exact ⟨rfl, rfl, rfl, fun _ ht => ht, fun _ => rfl, fun _ => rfl, fun _ h => h⟩
    · rw [if_neg hw] at h
      cases h
  | next =>
    rw [Link.workerStep] at h
    split at h <;> cases h <;> exact hplain _
  | check =>
    rw [Link.workerStep] at h
    split at h <;> cases h
    exact hplain _
  | mark =>
    rw [Link.workerStep] at h
    split at h <;> cases h
    exact ⟨rfl, rfl, rfl, fun _ ht => ht, fun _ => rfl, fun _ => rfl, fun _ h => h⟩
  | acknowledge =>
    rw [Link.workerStep] at h
    split at h
    case h_1 pending hw =>
      cases h
      -- the acknowledge clears the bits it read, and is the one step that touches the register
      refine ⟨rfl, rfl, rfl, fun _ ht => ht, fun _ => rfl, fun hne => absurd hw (hne pending),
        fun p hp => ?_⟩
      rw [hasBit_and, Bool.and_eq_true] at hp
      exact hp.1
    case h_2 => cases h
  | disable =>
    rw [Link.workerStep] at h
    split_ifs at h with hw
    cases h
    exact ⟨rfl, rfl, rfl, fun _ ht => ht, fun hne => absurd hw hne, fun _ => rfl, fun _ h => h⟩
  | take | give | readStatus | cpuOff =>
    rw [Link.workerStep] at h
    split_ifs at h
    cases h
    exact ⟨rfl, rfl, rfl, fun _ ht => ht, fun _ => rfl, fun _ => rfl, fun _ h => h⟩

/-- From the service to CPU_OFF there is one way, and no way back. -/
theorem Link.workerStep_stage {b : Build} {bk : Backend π} {s s' : Link π} {a : WorkerAct}
    (h : s.workerStep b bk a = some s') :
    (s.worker.stage = 0 ∧ s'.worker.stage ≤ 1) ∨ s'.worker.stage = s.worker.stage + 1 := by
  cases a with
  | turn =>
    rw [Link.workerStep] at h
    split at h
    case h_1 hw =>
      cases h
      exact Or.inl ⟨by rw [hw]; rfl, Nat.zero_le _⟩
    case h_2 hw =>
      -- only a turn that served the stop request leaves the service
      split at h <;> cases h
      · exact Or.inl ⟨by rw [hw]; rfl, Nat.zero_le _⟩
      · exact Or.inl ⟨by rw [hw]; rfl, Nat.zero_le _⟩
      · exact Or.inl ⟨by rw [hw]; rfl, Nat.le_refl _⟩
    case h_3 => cases h
  | swap =>
    rw [Link.workerStep] at h
    by_cases hw : s.worker = .taken
    · rw [if_pos hw] at h
      cases h
      refine Or.inl ⟨by rw [hw]; rfl, ?_⟩
      dsimp only
      split_ifs <;> exact Nat.zero_le _
    · rw [if_neg hw] at h
      cases h
  | next =>
    rw [Link.workerStep] at h
    split at h
    case h_1 hw =>
      cases h
      refine Or.inl ⟨by rw [hw]; rfl, ?_⟩
      dsimp only
      split_ifs <;> exact Nat.zero_le _
    case h_2 hw =>
      cases h
      refine Or.inl ⟨by rw [hw]; rfl, ?_⟩
      dsimp only
      split_ifs <;> exact Nat.zero_le _
    case h_3 => cases h
  | check | mark =>
    rw [Link.workerStep] at h
    split at h
    case h_1 hw =>
      cases h
      exact Or.inl ⟨by rw [hw]; rfl, Nat.zero_le _⟩
    case h_2 => cases h
  | acknowledge =>
    rw [Link.workerStep] at h
    split at h
    case h_1 hw =>
      cases h
      exact Or.inr (by rw [hw]; rfl)
    case h_2 => cases h
  | take =>
    rw [Link.workerStep] at h
    split_ifs at h with hw
    cases h
    exact Or.inl ⟨by rw [hw.1]; rfl, Nat.zero_le _⟩
  | give =>
    rw [Link.workerStep] at h
    split_ifs at h with hw
    cases h
    exact Or.inl ⟨by rw [hw]; rfl, Nat.zero_le _⟩
  -- mask, read, acknowledge, CPU_OFF: each step of the stop path has one place to come from
  | disable | readStatus | cpuOff =>
    rw [Link.workerStep] at h
    split_ifs at h with hw
    cases h
    exact Or.inr (by rw [hw]; rfl)

/-- Nothing comes back from `mailmsg_cpu_off_after_ready`. -/
theorem running_before {b : Build} {bk : Backend π} {s s' : Link π} {a : Act}
    (h : LinkStep b bk s a s') (hrun : s'.worker.running = true) : s.worker.running = true := by
  cases a with
  | sender a => rwa [(Link.senderStep_frame h).worker] at hrun
  | isr p a => rwa [(Link.isrStep_frame h).worker] at hrun
  | linuxReads rings b2a =>
    cases h
    exact hrun
  | worker a =>
    rw [Worker.running_iff] at hrun ⊢
    rcases Link.workerStep_stage h with ⟨hstage, -⟩ | hstage
    · exact hstage
    · omega

/-- Left alone, the sender raises the doorbell as `mailmsg_notify_locked` does when no fault is
injected, and the frame counts as notified. -/
theorem sender_runs_notify (b : Build) (bk : Backend π) {s : Link π} {p : Priority}
    (hs : s.sender = .queued p) {m : R1Amp.Mbox} (hm : m.a2b = s.a2b)
    (hfault : m.lifecycleNotifyBypass = true ∨ m.notifyInjectRemaining = 0) :
    ∃ acts s', Trace (LinkStep b bk) s acts s' ∧ s'.sender = .idle ∧
      s'.a2b = (R1Amp.mailmsgNotifyLocked m p).2.a2b ∧
      s'.tags = Function.update s.tags p (notifyLast (s.tags p)) ∧
      (R1Amp.mailmsgNotifyLocked m p).1 =
        if hasBit s.a2b.status p then notifyCoalesced else notifySent := by
  have hnot : ¬ (!m.lifecycleNotifyBypass ∧ m.notifyInjectRemaining ≠ 0 ∧
      m.notifyInjectPriority = channelWord p) := by
    rcases hfault with h | h <;> simp [h]
  unfold R1Amp.mailmsgNotifyLocked R1Amp.mboxDirectSendLocked
  rw [if_neg hnot, hm]
  cases hbit : hasBit s.a2b.status p with
  | true =>
    have hlook : LinkStep b bk s (.sender .look) ({ s with sender := .idle }.notified p true) := by
      simp only [LinkStep, Link.step, Link.senderStep, hs, hbit, if_true]
    exact ⟨_, _, .single hlook, rfl, hm.symm, rfl, rfl⟩
  | false =>
    have hlook : LinkStep b bk s (.sender .look) { s with
        sender := .ringing p (R1Amp.mailmsgDoorbell ||| channelWord p) (channelWord p) true } := by
      simp only [LinkStep, Link.step, Link.senderStep, hs, hbit]
      rfl
    refine ⟨[.sender .look, .sender .writeCmd, .sender .writeDat], _,
      .cons hlook (.cons rfl (.single rfl)), rfl, ?_, rfl, rfl⟩
    change _ = m.a2b.ring p _ _
    rw [hm]
    rfl

def drainedAt (pending : U32) (p : Priority) (todo : List Priority) (reschedule : U32) :
    Drained π → State π × Worker
  | .left c remaining _ => (c, .checking pending p remaining todo reschedule)
  | .cpuOff c => (c, .disabling)

def servedAt (pending : U32) : Service π → State π × Worker
  | .returned pass => (pass.cpu3, .serving pending [] pass.reschedule)
  | .cpuOff c => (c, .disabling)

/-- Left alone, the worker gets to `goal`. -/
def WorkerRuns (b : Build) (bk : Backend π) (s : Link π) (goal : State π × Worker) : Prop :=
  ∃ (acts : List WorkerAct) (s' : Link π), Trace (LinkStep b bk) s (acts.map .worker) s' ∧
    (s'.cpu3, s'.worker) = goal

section Worker

variable {b : Build} {bk : Backend π} {s : Link π} {goal : State π × Worker}

theorem WorkerRuns.self (s : Link π) : WorkerRuns b bk s (s.cpu3, s.worker) :=
  ⟨[], s, Trace.nil s, rfl⟩

theorem WorkerRuns.trans {t : Link π} {acts : List WorkerAct}
    (h : Trace (LinkStep b bk) s (acts.map .worker) t) (ht : WorkerRuns b bk t goal) :
    WorkerRuns b bk s goal := by
  obtain ⟨acts', s', htrace, hgoal⟩ := ht
  refine ⟨acts ++ acts', s', ?_, hgoal⟩
  rw [List.map_append]
  exact h.append htrace

theorem WorkerRuns.step {t : Link π} (a : WorkerAct) (h : s.workerStep b bk a = some t)
    (ht : WorkerRuns b bk t goal) : WorkerRuns b bk s goal :=
  have hsingle : Trace (LinkStep b bk) s ([a].map .worker) t := Trace.single h
  .trans hsingle ht

theorem worker_runs_drainLoop {pending reschedule : U32} {p : Priority} {n : ℕ}
    {todo : List Priority} (hs : s.worker = .draining pending p n todo reschedule) :
    WorkerRuns b bk s (drainedAt pending p todo reschedule (drainLoop b bk p n s.cpu3)) := by
  induction n generalizing s with
  | zero =>
    have hturn : s.workerStep b bk .turn =
        some { s with worker := .checking pending p 0 todo reschedule } := by
      simp only [Link.workerStep, hs]
    exact .step .turn hturn (.self _)
  | succ n ih =>
    have hstep : s.workerStep b bk .turn = some (match drainTurn b bk p s.cpu3 with
        | .again c => { s.served p c with worker := .draining pending p n todo reschedule }
        | .left c counted _ => { s.served p c with
            worker := .checking pending p (if counted then n else n + 1) todo reschedule }
        | .cpuOff c => { s.served p c with worker := .disabling }) := by
      simp only [Link.workerStep, hs]
      cases drainTurn b bk p s.cpu3 <;> rfl
    refine .step .turn hstep ?_
    rw [drainLoop]
    cases drainTurn b bk p s.cpu3 with
    | again c =>
      exact ih (s := { s.served p c with worker := .draining pending p n todo reschedule }) rfl
    | left c counted sawEmpty => exact .self { s.served p c with
        worker := .checking pending p (if counted then n else n + 1) todo reschedule }
    | cpuOff c => exact .self { s.served p c with worker := .disabling }

/-- Left alone, the worker does the service's pass over the priorities. -/
theorem worker_runs_service {pending reschedule : U32} {todo : List Priority}
    (hs : s.worker = .serving pending todo reschedule) {pass : Pass π} (hc : pass.cpu3 = s.cpu3)
    (hr : pass.reschedule = reschedule) :
    WorkerRuns b bk s (servedAt pending (servicePriorities b bk pending todo pass)) := by
  induction todo generalizing s pass reschedule with
  | nil =>
    have hat : servedAt pending (.returned pass) = (s.cpu3, s.worker) := by
      rw [servedAt, hc, hr, hs]
    rw [servicePriorities, hat]
    exact .self s
  | cons p todo ih =>
    rw [servicePriorities]
    by_cases hskip : !hasBit pending p ∨ p.val = b.skipPriority
    · have hnext : s.workerStep b bk .next =
          some { s with worker := .serving pending todo reschedule } := by
        simp only [Link.workerStep, hs, if_pos hskip]
      rw [if_pos hskip]
      exact .step .next hnext
        (ih (s := { s with worker := .serving pending todo reschedule }) rfl hc hr)
    · have hnext : s.workerStep b bk .next =
          some { s with worker := .draining pending p drainQuota todo reschedule } := by
        simp only [Link.workerStep, hs, if_neg hskip]
      refine .step .next hnext ?_
      obtain ⟨acts, t, htrace, hat⟩ := worker_runs_drainLoop (b := b)
        (s := { s with worker := .draining pending p drainQuota todo reschedule }) rfl
      rw [if_neg hskip, hc]
      -- the loop is over; what follows it is one step of the worker
      cases hdrain : drainLoop b bk p drainQuota s.cpu3 with
      | cpuOff c => exact .trans htrace ⟨[], t, Trace.nil t, by rw [hat, hdrain]; rfl⟩
      | left c remaining sawEmpty =>
        dsimp only at hat
        rw [hdrain, drainedAt, Prod.mk.injEq] at hat
        have hcheck : t.workerStep b bk .check = some { t with
            worker := .serving pending todo (pass.settle p c remaining sawEmpty).reschedule } := by
          simp only [Link.workerStep, hat, Pass.settle, hr]
        exact .trans htrace (.step .check hcheck (ih (s := { t with
          worker := .serving pending todo (pass.settle p c remaining sawEmpty).reschedule })
          rfl hat.1.symm rfl))

end Worker

/-- Both ends bound to the first session, nothing queued and nothing raised. -/
def restingLink : Link Unit where
  linux := ⟨some .linux, 1, 1, fun _ => PriorityStats.zero⟩
  cpu3 := queuedOnControl []
  a2b := ⟨0, fun _ => 0, fun _ => 0⟩
  pending := 0
  sem := false
  irqEnabled := true
  isr := fun _ => .idle
  worker := .waiting
  sender := .idle
  stopping := false
  tags := fun _ => []

end Lzamp.System
