import Lzamp.System.Wakeup
import Lzamp.Cpu3.Threads
import Lzamp.R1Amp.DataPlane
import Lzamp.Mailmsg.Traffic

namespace Lzamp.System
open Mailmsg Lib Cpu3

variable {π : Type}

/-- The link, with the main thread and Linux on their way to an open session.  `untested` tells that
the worker has emptied the mask and is about to test the flags of the service. -/
structure BringUp (π : Type) where
  link : Link π
  main : MainThread
  untested : Bool
  active : Bool

inductive BringUpAct where
  | main (a : MainAct)
  /-- The service tests `mailmsg_endpoint_ready` and `mailmsg_session_ready_published`. -/
  | test
  /-- Linux receives on p0 in STARTING; the controller may have acknowledged doorbells. -/
  | control (b2a : Doorbells)
  /-- `mailmsg_crc_inject` commits a PING with a damaged payload. -/
  | inject (p : Priority) (value : U32)
  | link (a : Act)

/-- A frame is committed that CPU3 will refuse. -/
def BringUpAct.Damages : BringUpAct → Bool
  | .inject .. => true
  | _ => false

/-- What Linux does only in ACTIVE. -/
def Act.Gated : Act → Bool
  | .sender (.send ..) | .sender .stop | .sender (.lookRaw ..) | .linuxReads .. => true
  | _ => false

def Act.OfWorker : Act → Bool
  | .worker _ => true
  | _ => false

def serviceOpen (b : Build) (c : State π) : Bool :=
  c.endpointReady && (b.skipSessionReady || c.sessionReadyPublished)

def Link.parked (s : Link π) : Link π := { s with worker := .waiting }

/-- `mailmsg_test_enqueue_locked` with a corrupted payload; the notification follows as after a
commit. -/
def Link.inject (s : Link π) (p : Priority) (value : U32) : Link π :=
  let sh := s.cpu3.shared
  if sh.magic ≠ protocolMagic ∨ sh.version ≠ protocolVersion ∨
      sh.generation ≠ s.linux.generation then s
  else
    let (sequence, endpoint) := endpointNextSequence s.linux
    let request := composeFrame endpoint.generation msgPing sequence 4
      (some (storePayloadU32 value))
    let (ret, ring) := R1Amp.mailmsgLinuxRingPush (sh.linuxToCpu3 p) request true
    let s := { s with
      linux := endpoint, cpu3 := { s.cpu3 with shared := sh.setTx .linux p ring } }
    if ret ≠ 0 then s
    else { s with
      sender := .queued p
      tags := Function.update s.tags p (s.tags p ++ [false]) }

/-- The driver's function does the same to its endpoint and its page. -/
theorem Link.inject_eq {s : Link π} {d : R1Amp.Driver} (hendpoint : d.endpoint = s.linux)
    (hshared : d.shared = s.cpu3.shared) (p : Priority) (value : U32) :
    let r := R1Amp.mailmsgTestEnqueueLocked p value true d
    s.inject p value = { s with
      linux := r.2.endpoint
      cpu3 := { s.cpu3 with shared := r.2.shared }
      sender := if r.1 = 0 then .queued p else s.sender
      tags := if r.1 = 0 then Function.update s.tags p (s.tags p ++ [false]) else s.tags } := by
  unfold Link.inject R1Amp.mailmsgTestEnqueueLocked
  dsimp only
  rw [hendpoint, hshared]
  by_cases hheader : s.cpu3.shared.magic ≠ protocolMagic ∨
      s.cpu3.shared.version ≠ protocolVersion ∨ s.cpu3.shared.generation ≠ s.linux.generation
  · rw [if_pos hheader, if_pos hheader, hendpoint, hshared]
    rfl
  · rw [if_neg hheader, if_neg hheader]
    dsimp only
    split_ifs <;> first | rfl | contradiction

def BringUp.control (s : BringUp π) (b2a : Doorbells) : BringUp π :=
  let r := endpointReceive s.link.linux s.link.cpu3.shared prioCritical Message.zero
  { s with
    link := { s.link with
      linux := r.endpoint
      cpu3 := { s.link.cpu3 with shared := r.shared, b2a := b2a } }
    active := r.ret = ringOk ∧ R1Amp.isSessionReady s.link.linux.generation r.message }

def BringUp.step (b : Build) (bk : Backend π) (s : BringUp π) : BringUpAct → Option (BringUp π)
  | .main a =>
    -- the worker is cooperative and goes first
    if s.link.worker = .waiting ∧ s.link.sem = false then
      (mainStep b s.link.cpu3 s.main a).map fun r => { s with
        link := { s.link with cpu3 := r.1 }, main := r.2 }
    else none
  | .test =>
    if s.untested then some { s with
      link := if serviceOpen b s.link.cpu3 then s.link else s.link.parked, untested := false }
    else none
  | .control b2a => if s.active then none else some (s.control b2a)
  | .inject p value =>
    if s.active ∧ s.link.sender = .idle ∧ s.link.stopping = false then
      some { s with link := s.link.inject p value }
    else none
  | .link a =>
    if (a.Gated = true → s.active = true) ∧ (a.OfWorker = true → s.untested = false) then
      (s.link.step b bk a).map fun l => { s with
        link := l
        untested := match a with
          | .worker .swap => l.worker ≠ .waiting
          | _ => s.untested }
    else none

def BringUpStep (b : Build) (bk : Backend π) (s : BringUp π) (a : BringUpAct) (s' : BringUp π) :
    Prop :=
  s.step b bk a = some s'

/-- Nothing is pushed, and nobody has moved yet. -/
structure Booted (s : BringUp π) : Prop where
  link : Steady s.link
  main : s.main = .looping
  untested : s.untested = false
  active : s.active = false

/-- Once Linux is ACTIVE, the worker empties the mask only when the service is open. -/
def Timely (b : Build) (s : BringUp π) : BringUpAct → Prop
  | .link (.worker .swap) => s.active = true → serviceOpen b s.link.cpu3 = true
  | _ => True

instance (b : Build) (s : BringUp π) : (a : BringUpAct) → Decidable (Timely b s a)
  | .link (.worker .swap) => inferInstanceAs (Decidable (_ → _))
  | .link (.worker .take) | .link (.worker .next) | .link (.worker .turn)
  | .link (.worker .check) | .link (.worker .mark) | .link (.worker .give)
  | .link (.worker .disable) | .link (.worker .readStatus) | .link (.worker .acknowledge)
  | .link (.worker .cpuOff) | .link (.sender _) | .link (.isr ..) | .link (.linuxReads ..)
  | .main _ | .test | .control _ | .inject .. => isTrue trivial

/-- The swap is timely, and no damaged frame is committed. -/
def Orderly (b : Build) (s : BringUp π) (a : BringUpAct) : Prop :=
  Timely b s a ∧ a.Damages = false

instance (b : Build) (s : BringUp π) (a : BringUpAct) : Decidable (Orderly b s a) :=
  inferInstanceAs (Decidable (_ ∧ _))

/-- The test is the one at the head of the service. -/
theorem pingpongTestService_entry (b : Build) (bk : Backend π) (pending last : U32) (c : State π) :
    pingpongTestService b bk pending last c =
      if serviceOpen b c then
        servicePriorities b bk pending [0, 1, 2, 3] ⟨c, 0, last, 0, fun _ => false⟩
      else .returned ⟨c, 0, last, 0, fun _ => false⟩ := by
  unfold pingpongTestService serviceOpen
  cases c.endpointReady <;> cases b.skipSessionReady <;> cases c.sessionReadyPublished <;> rfl

theorem WakeInv.linux {s : Link π} (h : WakeInv s) {e : Endpoint}
    (he : e.identity = s.linux.identity) : WakeInv { s with linux := e } :=
  ⟨⟨h.page.role, h.page.session, he.trans h.page.linux, h.page.rings⟩,
    ⟨h.bell.raised, h.bell.sender, h.bell.isr⟩, ⟨h.cover.covered, h.cover.awake⟩⟩

theorem keeps_enqueue {c : State π} (hrole : c.endpoint.role = some .cpu3) (call : Cpu3.Call) :
    KeepsRequests c (c.queued (c.enqueue call)) := by
  rcases endpointEnqueue_cases c.endpoint c.shared call.priority call.type (some call.payload)
    (BitVec.ofNat 32 call.payload.length) SendResult.zero with hq | ⟨role, hp, hq⟩
  · exact ⟨congrArg Shared.linuxToCpu3 hq.shared, congrArg Shared.header hq.shared, hq.identity⟩
  · obtain rfl : EndpointRole.cpu3 = role := Option.some.inj (hrole.symm.trans hq.role_eq)
    exact ⟨(congrArg (fun sh : Shared => sh.rx .cpu3) hq.shared).trans (Shared.rx_setTx ..),
      (congrArg Shared.header hq.shared).trans (Shared.header_setTx ..), hq.identity⟩

theorem keeps_recordTxFull (c : State π) (result : SendResult) :
    KeepsRequests c (c.recordTxFull result) := by
  unfold State.recordTxFull
  split_ifs
  · exact .refl c
  · exact ⟨rfl, rfl, rfl⟩

theorem mainStep_keeps {b : Build} {c : State π} {m : MainThread} {a : MainAct}
    {r : State π × MainThread} (hrole : c.endpoint.role = some .cpu3)
    (h : mainStep b c m a = some r) : KeepsRequests c r.1 := by
  unfold mainStep at h
  split at h
  case h_1 =>
    split_ifs at h <;> cases h <;> exact .refl c
  case h_2 pc a =>
    obtain ⟨r', hr', rfl⟩ := Option.map_eq_some_iff.mp h
    unfold sendStep at hr'
    split at hr' <;> cases hr'
    · exact keeps_enqueue hrole _
    · exact ⟨rfl, rfl, rfl⟩
  case h_3 pc =>
    obtain ⟨r', hr', rfl⟩ := Option.map_eq_some_iff.mp h
    unfold leaveSend at hr'
    split at hr' <;> cases hr'
    · exact keeps_recordTxFull c _
    · exact ⟨rfl, rfl, rfl⟩
  case h_4 | h_5 | h_6 =>
    cases h
    exact ⟨rfl, rfl, rfl⟩
  case h_7 =>
    cases h
    dsimp only
    split_ifs
    · exact ⟨rfl, rfl, rfl⟩
    · exact .refl c
  case h_8 => cases h

theorem control_wakeInv {s : BringUp π} (h : WakeInv s.link) (b2a : Doorbells) :
    WakeInv (s.control b2a).link := by
  have hrole : s.link.linux.role = some .linux := congrArg Prod.fst h.page.linux
  have hk : KeepsRequests s.link.cpu3 { s.link.cpu3 with
      shared := (endpointReceive s.link.linux s.link.cpu3.shared prioCritical Message.zero).shared
      b2a := b2a } :=
    ⟨tx_endpointReceive (Or.inr hrole) _ _ _, endpointReceive_header _ _ _ _, rfl⟩
  exact (h.keeps hk).linux (endpointReceive_identity _ _ _ _)

theorem Link.commit_parked (s : Link π) (p : Priority) (type : U32) (payload : Option (List U8))
    (length : U32) (stopping : Bool) :
    s.parked.commit p type payload length stopping =
      (s.commit p type payload length stopping).parked := by
  unfold Link.commit Link.parked
  dsimp only
  split_ifs <;> rfl

theorem Link.notified_parked (s : Link π) (p : Priority) (notifies : Bool) :
    s.parked.notified p notifies = (s.notified p notifies).parked := by
  cases notifies <;> rfl

theorem Link.senderStep_parked {s s' : Link π} {a : SenderAct} (h : s.senderStep a = some s') :
    s.parked.senderStep a = some s'.parked := by
  cases a with
  | send p type payload length =>
    rw [Link.senderStep] at h ⊢
    split_ifs at h with hidle
    cases h
    exact (if_pos hidle).trans (congrArg some (s.commit_parked ..))
  | stop =>
    rw [Link.senderStep] at h ⊢
    split_ifs at h with hidle
    cases h
    exact (if_pos hidle).trans (congrArg some (s.commit_parked ..))
  -- `resume` asks for a service that runs, and a parked worker does
  | resume =>
    rw [Link.senderStep] at h ⊢
    split_ifs at h with hidle
    cases h
    exact if_pos ⟨hidle.1, hidle.2.1, rfl⟩
  | noBell =>
    rw [Link.senderStep] at h
    split at h
    case h_1 p hs =>
      split_ifs at h with hstop
      cases h
      have hs' : s.parked.sender = .queued p := hs
      rw [Link.senderStep, hs']
      exact if_neg hstop
    case h_2 => cases h
  | look =>
    rw [Link.senderStep] at h
    split at h
    case h_1 p hs =>
      have hs' : s.parked.sender = .queued p := hs
      rw [Link.senderStep, hs']
      split_ifs at h with hbit <;> cases h
      · exact (if_pos hbit).trans (congrArg some (Link.notified_parked { s with sender := .idle } ..))
      · exact if_neg hbit
    case h_2 => cases h
  | lookRaw p value =>
    rw [Link.senderStep] at h ⊢
    split_ifs at h with hidle hbit <;> cases h
    · exact (if_pos hidle).trans (if_pos hbit)
    · exact (if_pos hidle).trans (if_neg hbit)
  | writeCmd =>
    rw [Link.senderStep] at h
    split at h <;> cases h
    case h_1 p command value notifies hs =>
      have hs' : s.parked.sender = .ringing p command value notifies := hs
      rw [Link.senderStep, hs']
      rfl
  | writeDat =>
    rw [Link.senderStep] at h
    split at h <;> cases h
    case h_1 p value notifies hs =>
      have hs' : s.parked.sender = .commanded p value notifies := hs
      rw [Link.senderStep, hs']
      exact congrArg some ((s.raise p value).notified_parked ..)

theorem Link.isrStep_parked {s s' : Link π} {p : Priority} {a : IsrAct}
    (h : s.isrStep p a = some s') : s.parked.isrStep p a = some s'.parked := by
  cases a with
  | fire | readCmd | give =>
    rw [Link.isrStep] at h ⊢
    split_ifs at h with hisr
    cases h
    exact if_pos hisr
  | clear =>
    rw [Link.isrStep] at h
    split at h <;> cases h
    case h_1 command hs =>
      have hs' : s.parked.isr p = .read command := hs
      rw [Link.isrStep, hs']
      rfl
  | mark =>
    rw [Link.isrStep] at h
    split at h
    case h_1 command hs =>
      have hs' : s.parked.isr p = .cleared command := hs
      rw [Link.isrStep, hs']
      split_ifs at h with haccepted <;> cases h
      · exact if_pos haccepted
      · exact if_neg haccepted
    case h_2 => cases h

/-- Nothing is notified before ACTIVE; and as long as the service is closed, no notified frame
depends on what the worker has in hand. -/
structure BringUpInv (b : Build) (s : BringUp π) : Prop where
  wake : WakeInv s.link
  fresh : s.active = false → s.link.sender = .idle ∧ ∀ p, true ∉ s.link.tags p
  serving : s.untested = true → ∃ pending, s.link.worker = .serving pending [0, 1, 2, 3] 0
  kept : s.untested = true → serviceOpen b s.link.cpu3 = false → WakeInv s.link.parked

theorem Booted.bringUpInv {b : Build} {s : BringUp π} (h : Booted s) : BringUpInv b s where
  wake := h.link.wakeInv
  fresh _ := ⟨h.link.sender, h.link.fresh⟩
  serving hu := absurd (h.untested.symm.trans hu) Bool.false_ne_true
  kept hu := absurd (h.untested.symm.trans hu) Bool.false_ne_true

theorem BringUpInv.main {b : Build} {s : BringUp π} (h : BringUpInv b s)
    (hwait : s.link.worker = .waiting) {a : MainAct} {r : State π × MainThread}
    (hr : mainStep b s.link.cpu3 s.main a = some r) :
    BringUpInv b { s with link := { s.link with cpu3 := r.1 }, main := r.2 } := by
  have htested : s.untested ≠ true := fun hu => by
    obtain ⟨pending, hw⟩ := h.serving hu
    rw [hwait] at hw
    cases hw
  exact ⟨h.wake.keeps (mainStep_keeps h.wake.page.role hr), h.fresh,
    fun hu => absurd hu htested, fun hu => absurd hu htested⟩

theorem BringUpInv.test {b : Build} {s : BringUp π} (h : BringUpInv b s)
    (hu : s.untested = true) :
    BringUpInv b { s with
      link := if serviceOpen b s.link.cpu3 then s.link else s.link.parked, untested := false } := by
  cases hopen : serviceOpen b s.link.cpu3 with
  | true => exact ⟨h.wake, h.fresh, fun hu => absurd hu Bool.false_ne_true,
      fun hu => absurd hu Bool.false_ne_true⟩
  | false => exact ⟨h.kept hu hopen, h.fresh, fun hu => absurd hu Bool.false_ne_true,
      fun hu => absurd hu Bool.false_ne_true⟩

theorem BringUpInv.control {b : Build} {s : BringUp π} (h : BringUpInv b s)
    (hactive : s.active = false) (b2a : Doorbells) : BringUpInv b (s.control b2a) where
  wake := control_wakeInv h.wake b2a
  fresh _ := h.fresh hactive
  serving := h.serving
  kept hu hopen :=
    control_wakeInv (s := { s with link := s.link.parked }) (h.kept hu hopen) b2a

theorem Link.senderStep_idle {s s' : Link π} {a : SenderAct} (hidle : s.sender = .idle)
    (hgate : (Act.sender a).Gated = false) (h : s.senderStep a = some s') :
    s'.sender = .idle ∧ s'.tags = s.tags := by
  cases a with
  | send | stop | lookRaw => cases hgate
  | resume =>
    rw [Link.senderStep] at h
    split_ifs at h
    cases h
    exact ⟨hidle, rfl⟩
  | noBell | look | writeCmd | writeDat =>
    rw [Link.senderStep, hidle] at h
    cases h

theorem BringUpInv.link {b : Build} {bk : Backend π} {s : BringUp π} (h : BringUpInv b s) {a : Act}
    (hgate : a.Gated = true → s.active = true) (hworker : a.OfWorker = false) {l : Link π}
    (hl : s.link.step b bk a = some l) : BringUpInv b { s with link := l } := by
  cases a with
  | sender a =>
    have hframe := Link.senderStep_frame hl
    obtain ⟨sh, hcpu3⟩ := hframe.cpu3
    refine ⟨sender_wakeInv h.wake hl, fun hactive => ?_, fun hu => ?_, fun hu hopen => ?_⟩
    · obtain ⟨hidle, hfresh⟩ := h.fresh hactive
      have hungated : (Act.sender a).Gated = false := by
        by_contra hne
        exact absurd (hactive.symm.trans (hgate (Bool.eq_true_of_not_eq_false hne)))
          Bool.false_ne_true
      obtain ⟨hsender, htags⟩ := Link.senderStep_idle hidle hungated hl
      exact ⟨hsender, htags ▸ hfresh⟩
    · exact hframe.worker ▸ h.serving hu
    · have hopen' : serviceOpen b s.link.cpu3 = false := by
        dsimp only at hopen
        rw [hcpu3] at hopen
        exact hopen
      exact sender_wakeInv (h.kept hu hopen') (Link.senderStep_parked hl)
  | isr p a =>
    have hframe := Link.isrStep_frame hl
    refine ⟨isr_wakeInv h.wake hl, fun hactive => ?_, fun hu => ?_, fun hu hopen => ?_⟩
    · obtain ⟨hidle, hfresh⟩ := h.fresh hactive
      exact ⟨hframe.sender.trans hidle, hframe.tags ▸ hfresh⟩
    · exact hframe.worker ▸ h.serving hu
    · exact isr_wakeInv (h.kept hu (hframe.cpu3 ▸ hopen)) (Link.isrStep_parked hl)
  | linuxReads rings b2a =>
    cases hl
    exact ⟨linuxReads_wakeInv h.wake rings b2a, h.fresh, h.serving,
      fun hu hopen => linuxReads_wakeInv (h.kept hu hopen) rings b2a⟩
  | worker a => cases hworker

theorem BringUpInv.swap {b : Build} {bk : Backend π}
    (hskip : ∀ p : Priority, p.val ≠ b.skipPriority) {s : BringUp π} (h : BringUpInv b s)
    (htimely : s.active = true → serviceOpen b s.link.cpu3 = true) {l : Link π}
    (hl : s.link.workerStep b bk .swap = some l) (hrun : l.worker.running = true) :
    BringUpInv b { s with link := l, untested := l.worker ≠ .waiting } := by
  have hwake := worker_wakeInv hskip h.wake hl hrun
  have hframe := Link.workerStep_frame hl
  have hfresh : s.active = false → l.sender = .idle ∧ ∀ p, true ∉ l.tags p := by
    intro hactive
    obtain ⟨hidle, hold⟩ := h.fresh hactive
    exact ⟨hframe.sender.trans hidle, fun p hp => hold p (hframe.tags p hp)⟩
  rw [Link.workerStep] at hl
  split_ifs at hl with htaken
  · cases hl
    have htested : decide (Worker.waiting ≠ .waiting) ≠ true := by decide
    exact ⟨hwake, hfresh, fun hu => absurd hu htested, fun hu => absurd hu htested⟩
  · cases hl
    refine ⟨hwake, hfresh, fun _ => ⟨_, rfl⟩, fun _ hopen => ?_⟩
    -- the service is closed, so Linux is not ACTIVE and nothing has been notified
    have hactive : s.active = false := by
      by_contra hne
      have hopen' := htimely (Bool.eq_true_of_not_eq_false hne)
      exact absurd (hopen.symm.trans hopen') Bool.false_ne_true
    refine ⟨hwake.page.congr rfl rfl rfl,
      ⟨hwake.bell.raised, hwake.bell.sender, hwake.bell.isr⟩, ⟨fun p hp => ?_, fun p hp => ?_⟩⟩
    · exact absurd hp ((hfresh hactive).2 p)
    · change hasBit 0 p = true at hp
      rw [hasBit_zero] at hp
      cases hp

theorem BringUpInv.worker {b : Build} {bk : Backend π}
    (hskip : ∀ p : Priority, p.val ≠ b.skipPriority) {s : BringUp π} (h : BringUpInv b s)
    (htested : s.untested = false) {a : WorkerAct} {l : Link π}
    (hl : s.link.workerStep b bk a = some l) (hrun : l.worker.running = true) :
    BringUpInv b { s with link := l } := by
  have hframe := Link.workerStep_frame hl
  refine ⟨worker_wakeInv hskip h.wake hl hrun, fun hactive => ?_,
    fun hu => absurd (htested.symm.trans hu) Bool.false_ne_true,
    fun hu => absurd (htested.symm.trans hu) Bool.false_ne_true⟩
  obtain ⟨hidle, hold⟩ := h.fresh hactive
  exact ⟨hframe.sender.trans hidle, fun p hp => hold p (hframe.tags p hp)⟩

theorem Link.inject_worker (s : Link π) (p : Priority) (value : U32) :
    (s.inject p value).worker = s.worker := by
  unfold Link.inject
  dsimp only
  split_ifs <;> rfl

def TestsRunning (s : BringUp π) : Prop := s.untested = true → s.link.worker.running = true

theorem BringUp.running_before {b : Build} {bk : Backend π} {s s' : BringUp π} {a : BringUpAct}
    (htests : TestsRunning s) (h : BringUpStep b bk s a s')
    (hrun : s'.link.worker.running = true) : s.link.worker.running = true := by
  cases a with
  | main a =>
    rw [BringUpStep, BringUp.step] at h
    split_ifs at h with hwait
    rw [hwait.1]
    rfl
  | test =>
    by_cases hu : s.untested = true
    · exact htests hu
    · exact absurd h (by simp [BringUpStep, BringUp.step, hu])
  | control b2a =>
    rw [BringUpStep, BringUp.step] at h
    split_ifs at h
    cases h
    exact hrun
  | inject p value =>
    rw [BringUpStep, BringUp.step] at h
    split_ifs at h
    cases h
    rwa [← s.link.inject_worker p value]
  | link a =>
    rw [BringUpStep, BringUp.step] at h
    split_ifs at h
    obtain ⟨l, hl, rfl⟩ := Option.map_eq_some_iff.mp h
    exact System.running_before hl hrun

theorem link_step_cases {b : Build} {bk : Backend π} {s s' : BringUp π} {a : Act}
    (h : BringUpStep b bk s (.link a) s') :
    (a.Gated = true → s.active = true) ∧ ∃ l, s.link.step b bk a = some l ∧
      ((a.OfWorker = false ∧ s' = { s with link := l }) ∨
        (a = .worker .swap ∧ s.untested = false ∧
          s' = { s with link := l, untested := l.worker ≠ .waiting }) ∨
        ∃ act, a = .worker act ∧ act ≠ .swap ∧ s.untested = false ∧ s' = { s with link := l }) := by
  rw [BringUpStep, BringUp.step] at h
  split_ifs at h with hgate
  obtain ⟨l, hl, rfl⟩ := Option.map_eq_some_iff.mp h
  refine ⟨hgate.1, l, hl, ?_⟩
  cases a with
  | sender | isr | linuxReads => exact Or.inl ⟨rfl, rfl⟩
  | worker act =>
    have hu := hgate.2 rfl
    cases act with
    | swap => exact Or.inr (Or.inl ⟨rfl, hu, rfl⟩)
    | _ => exact Or.inr (Or.inr ⟨_, rfl, by decide, hu, rfl⟩)

theorem Link.step_worker {b : Build} {bk : Backend π} {s s' : Link π} {a : Act}
    (hworker : a.OfWorker = false) (h : s.step b bk a = some s') : s'.worker = s.worker := by
  cases a with
  | sender a => exact (Link.senderStep_frame h).worker
  | isr p a => exact (Link.isrStep_frame h).worker
  | linuxReads rings b2a =>
    cases h
    rfl
  | worker a => cases hworker

theorem TestsRunning.step {b : Build} {bk : Backend π} {s s' : BringUp π} {a : BringUpAct}
    (h : TestsRunning s) (hs : BringUpStep b bk s a s') : TestsRunning s' := by
  cases a with
  | main a =>
    rw [BringUpStep, BringUp.step] at hs
    split_ifs at hs
    obtain ⟨r, -, rfl⟩ := Option.map_eq_some_iff.mp hs
    exact h
  | test =>
    by_cases hu : s.untested = true
    · rw [BringUpStep, BringUp.step, if_pos hu] at hs
      cases hs
      exact fun hu => absurd hu Bool.false_ne_true
    · exact absurd hs (by simp [BringUpStep, BringUp.step, hu])
  | control b2a =>
    rw [BringUpStep, BringUp.step] at hs
    split_ifs at hs
    cases hs
    exact h
  | inject p value =>
    rw [BringUpStep, BringUp.step] at hs
    split_ifs at hs
    cases hs
    exact fun hu => (congrArg Worker.running (s.link.inject_worker p value)).trans (h hu)
  | link a =>
    obtain ⟨-, l, hl, ⟨hworker, rfl⟩ | ⟨rfl, -, rfl⟩ | ⟨act, rfl, -, hu, rfl⟩⟩ := link_step_cases hs
    · exact fun hu => (congrArg Worker.running (Link.step_worker hworker hl)).trans (h hu)
    · have hswap : s.link.workerStep b bk .swap = some l := hl
      rw [Link.workerStep] at hswap
      split_ifs at hswap <;> cases hswap <;> exact fun _ => rfl
    · exact fun hu' => absurd (hu.symm.trans hu') Bool.false_ne_true

theorem BringUpInv.step {b : Build} {bk : Backend π}
    (hskip : ∀ p : Priority, p.val ≠ b.skipPriority) {s s' : BringUp π} {a : BringUpAct}
    (h : BringUpInv b s) (horderly : Orderly b s a) (hs : BringUpStep b bk s a s')
    (hrun : s'.link.worker.running = true) : BringUpInv b s' := by
  cases a with
  | main a =>
    rw [BringUpStep, BringUp.step] at hs
    split_ifs at hs with hwait
    obtain ⟨r, hr, rfl⟩ := Option.map_eq_some_iff.mp hs
    exact h.main hwait.1 hr
  | test =>
    by_cases hu : s.untested = true
    · rw [BringUpStep, BringUp.step, if_pos hu] at hs
      cases hs
      exact h.test hu
    · exact absurd hs (by simp [BringUpStep, BringUp.step, hu])
  | control b2a =>
    rw [BringUpStep, BringUp.step] at hs
    split_ifs at hs with hactive
    cases hs
    exact h.control (Bool.eq_false_of_not_eq_true hactive) b2a
  | inject p value => cases horderly.2
  | link a =>
    obtain ⟨hgate, l, hl, ⟨hworker, rfl⟩ | ⟨rfl, -, rfl⟩ | ⟨act, rfl, -, hu, rfl⟩⟩ :=
      link_step_cases hs
    · exact h.link hgate hworker hl
    · have hswap : s.link.workerStep b bk .swap = some l := hl
      exact h.swap hskip horderly.1 hswap hrun
    · exact h.worker hskip hu hl hrun

theorem bringUpInv_of_trace {b : Build} {bk : Backend π}
    (hskip : ∀ p : Priority, p.val ≠ b.skipPriority) {s₀ s : BringUp π} {acts : List BringUpAct}
    (h₀ : Booted s₀)
    (h : Trace (fun s a s' => Orderly b s a ∧ BringUpStep b bk s a s') s₀ acts s)
    (hrun : s.link.worker.running = true) : BringUpInv b s := by
  refine (Trace.invariant (I := fun s => TestsRunning s ∧
    (s.link.worker.running = true → BringUpInv b s)) ?_ h ⟨fun hu => ?_, fun _ => h₀.bringUpInv⟩).2
    hrun
  · rintro s a s' ⟨htests, hinv⟩ ⟨horderly, hs⟩
    refine ⟨htests.step hs, fun hrun => ?_⟩
    exact (hinv (BringUp.running_before htests hs hrun)).step hskip horderly hs hrun
  · exact absurd (h₀.untested.symm.trans hu) Bool.false_ne_true

/-- The worker will read ring `p` in the pass it is in: the service is open, or it has been past the
test. -/
def BringUp.WillRead (b : Build) (s : BringUp π) (p : Priority) : Prop :=
  s.link.worker.WillServe p ∧ (s.untested = true → serviceOpen b s.link.cpu3 = true)

/-- No request is lost across bring-up, provided that the worker does not empty the mask between
Linux's turn to ACTIVE and the store that opens the service, and that no damaged frame is committed.
As long as CPU3 has not taken itself off, whatever the interleaving, a frame still queued whose
notification was sent or coalesced has its doorbell up, or its doorbell is in the hands of the
handler, or its ring is marked and the worker awake, or the worker will read the ring. -/
theorem bring_up_keeps_requests {b : Build} {bk : Backend π}
    (hskip : ∀ p : Priority, p.val ≠ b.skipPriority) {s₀ s : BringUp π} {acts : List BringUpAct}
    (h₀ : Booted s₀)
    (h : Trace (fun s a s' => Orderly b s a ∧ BringUpStep b bk s a s') s₀ acts s)
    (hrun : s.link.worker.running = true) (p : Priority) (hp : true ∈ s.link.tags p) :
    hasBit s.link.a2b.status p = true ∨ (∃ command, s.link.isr p = .cleared command) ∨
      (hasBit s.link.pending p = true ∧ WakeComing s.link) ∨ s.WillRead b p := by
  have hinv := bringUpInv_of_trace hskip h₀ h hrun
  by_cases hclosed : s.untested = true ∧ serviceOpen b s.link.cpu3 = false
  · -- the worker is about to drop what it has in hand, and the frame is covered without it
    have hkept := (hinv.kept hclosed.1 hclosed.2).cover
    rcases hkept.covered p hp with hc | hc | hc | hc
    · exact Or.inl hc
    · exact Or.inr (Or.inl hc)
    · exact Or.inr (Or.inr (Or.inl ⟨hc, hinv.wake.cover.awake p hc⟩))
    · exact absurd hc id
  · have hopen : s.untested = true → serviceOpen b s.link.cpu3 = true := by
      intro hu
      exact Bool.eq_true_of_not_eq_false fun hfalse => hclosed ⟨hu, hfalse⟩
    rcases hinv.wake.cover.covered p hp with hc | hc | hc | hc
    · exact Or.inl hc
    · exact Or.inr (Or.inl hc)
    · exact Or.inr (Or.inr (Or.inl ⟨hc, hinv.wake.cover.awake p hc⟩))
    · exact Or.inr (Or.inr (Or.inr ⟨hc, hopen⟩))

def booting : BringUp Unit where
  link := { restingLink with cpu3 := { queuedOnControl [] with
    sessionReadyCommitted := false, sessionReadyPublished := false } }
  main := .looping
  untested := false
  active := false

theorem booting_booted : Booted booting where
  link :=
    ⟨⟨rfl, restingLink_steady.page.session, rfl, restingLink_steady.page.rings⟩,
      restingLink_steady.raised, rfl, fun _ => rfl, rfl, rfl, fun _ => List.not_mem_nil⟩
  main := rfl
  untested := rfl
  active := rfl

def announced : List BringUpAct :=
  [.main .call, .main (.send .enqueue),
    .main (.send (.notify notifySent (cpu3Notify booting.link.cpu3.b2a 0).2))]

/-- Linux takes the frame, sends a PING on p1 and rings; the handler wakes the worker. -/
def firstPing : List BringUpAct :=
  [.control booting.link.cpu3.b2a, .link (.sender (.send 1 msgPing (storePayloadU32 7) 4)),
    .link (.sender .look), .link (.sender .writeCmd), .link (.sender .writeDat),
    .link (.isr 1 .fire), .link (.isr 1 .readCmd), .link (.isr 1 .clear), .link (.isr 1 .mark),
    .link (.isr 1 .give)]

def opened : List BringUpAct := [.main .leave, .main .setCommitted, .main .setPublished]

def orderlyRun : List BringUpAct :=
  announced ++ opened ++ firstPing ++ [.link (.worker .take), .link (.worker .swap)]

/-- The worker is woken, finds the flag down and goes back to sleep before the service is open. -/
def hastyRun : List BringUpAct :=
  announced ++ firstPing ++ [.link (.worker .take), .link (.worker .swap), .test] ++ opened

theorem bring_up_keeps_first_ping :
    ∃ s, Trace (fun s a s' => Orderly image s a ∧ BringUpStep image noPeripherals s a s')
        booting orderlyRun s ∧
      s.link.tags 1 = [true] ∧
      (hasBit s.link.a2b.status 1 = true ∨ (∃ command, s.link.isr 1 = .cleared command) ∨
        (hasBit s.link.pending 1 = true ∧ WakeComing s.link) ∨ s.WillRead image 1) := by
  obtain ⟨s, htrace, htest⟩ := Trace.exists_of_guarded (BringUp.step image noPeripherals)
    (Orderly image) booting orderlyRun
    (fun s : BringUp Unit => decide (s.link.worker.running = true ∧ s.link.tags 1 = [true]))
    (by decide +kernel)
  obtain ⟨hrun, htags⟩ := of_decide_eq_true htest
  exact ⟨s, htrace, htags, bring_up_keeps_requests (by decide) booting_booted htrace hrun 1
    (htags ▸ List.mem_cons_self)⟩

/-- The mask that the worker dropped was the only trace of the doorbell: the service is open, and a
notified PING is in a ring that nobody is going to read. -/
theorem bring_up_loses_first_ping :
    ∃ s, Trace (BringUpStep image noPeripherals) booting hastyRun s ∧
      s.link.tags 1 = [true] ∧ (s.link.cpu3.shared.linuxToCpu3 1).contents = [ping 2 7] ∧
      s.active = true ∧ serviceOpen image s.link.cpu3 = true ∧ s.main = .looping ∧
      s.link.a2b.status = 0 ∧ s.link.pending = 0 ∧ s.link.sem = false ∧
      (∀ p, s.link.isr p = .idle) ∧ s.link.worker = .waiting ∧ s.untested = false := by
  obtain ⟨s, htrace, htest⟩ := Trace.exists_of_foldlM (BringUp.step image noPeripherals) booting
    hastyRun
    (fun s : BringUp Unit => decide (s.link.tags 1 = [true] ∧
      (s.link.cpu3.shared.linuxToCpu3 1).contents = [ping 2 7] ∧
      s.active = true ∧ serviceOpen image s.link.cpu3 = true ∧ s.main = .looping ∧
      s.link.a2b.status = 0 ∧ s.link.pending = 0 ∧ s.link.sem = false ∧
      (∀ p, s.link.isr p = .idle) ∧ s.link.worker = .waiting ∧ s.untested = false))
    (by decide +kernel)
  exact ⟨s, htrace, of_decide_eq_true htest⟩

/-- The service is open; a damaged PING and then a good one on p1, the second coalesced, are served
in one pass. -/
def damagedRun : List BringUpAct :=
  announced ++ opened ++
    [.control booting.link.cpu3.b2a, .inject 1 7, .link (.sender .look), .link (.sender .writeCmd),
      .link (.sender .writeDat), .link (.sender (.send 1 msgPing (storePayloadU32 8) 4)),
      .link (.sender .look), .link (.isr 1 .fire), .link (.isr 1 .readCmd), .link (.isr 1 .clear),
      .link (.isr 1 .mark), .link (.isr 1 .give), .link (.worker .take), .link (.worker .swap),
      .test, .link (.worker .next), .link (.worker .next), .link (.worker .turn),
      .link (.worker .check), .link (.worker .next), .link (.worker .next), .link (.worker .next)]

/-- Every swap is timely, but the drain stops at the damaged frame, with quota left: the good one
behind it is in a ring that nobody is going to read. -/
theorem damaged_frame_strands_ping :
    ∃ s, Trace (fun s a s' => Timely image s a ∧ BringUpStep image noPeripherals s a s')
        booting damagedRun s ∧
      s.link.tags 1 = [true] ∧ (s.link.cpu3.shared.linuxToCpu3 1).contents = [ping 3 8] ∧
      s.active = true ∧ serviceOpen image s.link.cpu3 = true ∧
      s.link.a2b.status = 0 ∧ s.link.pending = 0 ∧ s.link.sem = false ∧
      (∀ p, s.link.isr p = .idle) ∧ s.link.worker = .waiting ∧ s.untested = false := by
  obtain ⟨s, htrace, htest⟩ := Trace.exists_of_guarded (BringUp.step image noPeripherals)
    (Timely image) booting damagedRun
    (fun s : BringUp Unit => decide (s.link.tags 1 = [true] ∧
      (s.link.cpu3.shared.linuxToCpu3 1).contents = [ping 3 8] ∧
      s.active = true ∧ serviceOpen image s.link.cpu3 = true ∧
      s.link.a2b.status = 0 ∧ s.link.pending = 0 ∧ s.link.sem = false ∧
      (∀ p, s.link.isr p = .idle) ∧ s.link.worker = .waiting ∧ s.untested = false))
    (by decide +kernel)
  exact ⟨s, htrace, of_decide_eq_true htest⟩

end Lzamp.System
