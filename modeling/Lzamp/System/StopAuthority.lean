import Lzamp.Cpu3.Replies
import Lzamp.R1Amp.StopOwner
import Lzamp.System.Power

namespace Lzamp.System
open Mailmsg Lib R1Amp

/-- Where the CPU3 worker stands: between two frames, with a receive it has not handled yet, or in
`mailmsg_cpu_off_after_ready` for a request. -/
inductive Phase where
  | idle
  | handling (p : Priority) (ret : Int) (request : Message)
  | leaving (request : Message)

def Phase.isIdle : Phase → Bool
  | .idle => true
  | _ => false

/-- Linux and CPU3 over one control page.  Linux runs one operation of the driver at a time, also
between a receive of the CPU3 worker and the handling of the frame.  `ordered` records the requests
that `mailmsg_stop_store` queued. -/
structure Site (π : Type) where
  world : World
  power : Power
  cpu3 : Cpu3.State π
  phase : Phase
  ordered : List Message

inductive SiteAct (π : Type) where
  | linux (op : Op)
  /-- The mailbox hardware and the interrupt handlers of both sides. -/
  | registers (a2bStatus : U32) (b2a : Doorbells)
  | shown
  | boot (peripheralsReady : Bool) (peripherals : π)
  | sessionReady
  | receive (p : Priority)
  | handle
  | off

variable {π : Type}

/-- What CPU3 sees: its own variables, and the control page as it is now. -/
def Site.core (s : Site π) : Cpu3.State π := { s.cpu3 with shared := s.world.driver.shared }

def Site.ran (s : Site π) (c : Cpu3.State π) (phase : Phase) : Site π :=
  { s with
    world := s.world.withDriver { s.world.driver with shared := c.shared }
    cpu3 := c
    phase := phase }

instance (p : Power) (a : Int) : Decidable (p.Reports a) :=
  match p with
  | .off | .lagging => inferInstanceAs (Decidable (a ≠ affinityOn ∧ a ≠ affinityOnPending))
  | .visible | .on => inferInstanceAs (Decidable (a ≠ affinityOff))

/-- The affinity an operation reads, if any, is one that may be reported. -/
def Power.admits (p : Power) (op : Op) : Bool :=
  match affinityOf op with
  | none => true
  | some a => p.Reports a

def Effect.launches : Effect → Bool
  | .cpuOn ret => ret = 0
  | _ => false

/-- A CPU_ON call succeeds only when CPU3 is off. -/
def Power.after (p : Power) (out : Output) : Option Power :=
  if out.effects.any Effect.launches then if p = .off then some .lagging else none
  else some p

def isPeer : Op → Bool
  | .peer .. => true
  | _ => false

def Site.linux (cfg : Config) (s : Site π) (op : Op) : Option (Site π) :=
  if isPeer op ∨ !s.power.admits op then none
  else match exec cfg s.world op with
    | none => none
    | some (out, w) => (s.power.after out).map fun power =>
      { s with world := w, power := power, ordered := s.ordered ++ op.orders s.world w }

/-- CPU3 drains once the endpoint is bound and SESSION_READY is out. -/
def Site.serves (b : Cpu3.Build) (s : Site π) (p : Priority) : Bool :=
  s.cpu3.endpointReady && (b.skipSessionReady || s.cpu3.sessionReadyPublished) &&
    p.val ≠ b.skipPriority

def Site.step (cfg : Config) (b : Cpu3.Build) (bk : Cpu3.Backend π) (s : Site π) :
    SiteAct π → Option (Site π)
  | .linux op => s.linux cfg op
  | .registers a2bStatus b2a =>
    let d := s.world.driver
    some { s with
      world := s.world.withDriver { d with mbox := { d.mbox with
        a2b := { d.mbox.a2b with status := a2bStatus } } }
      cpu3 := { s.cpu3 with b2a := b2a } }
  | .shown => if s.power = .lagging then some { s with power := .visible } else none
  | .boot peripheralsReady peripherals =>
    if s.power = .visible then some { s with
      power := .on
      cpu3 := Cpu3.boot s.world.driver.shared s.cpu3.b2a peripheralsReady peripherals
      phase := .idle }
    else none
  | .sessionReady =>
    if s.power = .on ∧ s.phase.isIdle ∧ !b.skipSessionReady then
      some (s.ran (Cpu3.serviceSessionReady s.core) .idle)
    else none
  | .receive p =>
    if s.power = .on ∧ s.phase.isIdle ∧ s.serves b p then
      let r := endpointReceive s.core.endpoint s.core.shared p Message.zero
      some (s.ran (s.core.received r) (.handling p r.ret r.message))
    else none
  | .handle =>
    match s.phase with
    | .handling p ret request =>
      if s.power = .on then
        match Cpu3.handleReceived b bk p ret request s.core with
        | .cpuOff c => some (s.ran c (.leaving request))
        | .again c | .left c _ _ => some (s.ran c .idle)
      else none
    | _ => none
  | .off =>
    match s.phase with
    | .leaving _ => if s.power = .on then some { s with power := .off, phase := .idle } else none
    | _ => none

def SiteStep (cfg : Config) (b : Cpu3.Build) (bk : Cpu3.Backend π) (s : Site π) (act : SiteAct π)
    (s' : Site π) : Prop :=
  s.step cfg b bk act = some s'

/-- A probed driver, with CPU3 off. -/
structure Site.Start (s : Site π) : Prop where
  probed : s.world.Probed
  power : s.power = .off
  phase : s.phase = .idle

section Steps

variable {cfg : Config} {b : Cpu3.Build} {bk : Cpu3.Backend π} {s s' : Site π} {op : Op}

theorem Site.linux_cases (h : s.linux cfg op = some s') :
    (∀ shared status, op ≠ .peer shared status) ∧
      (∀ a, affinityOf op = some a → s.power.Reports a) ∧
      ∃ out, exec cfg s.world op = some (out, s'.world) ∧ s.power.after out = some s'.power ∧
        s'.cpu3 = s.cpu3 ∧ s'.phase = s.phase ∧
        s'.ordered = s.ordered ++ op.orders s.world s'.world := by
  unfold Site.linux at h
  split_ifs at h with hguard
  simp only [not_or, Bool.not_eq_true, Bool.not_eq_false'] at hguard
  refine ⟨fun shared status heq => ?_, fun a ha => ?_, ?_⟩
  · rw [heq] at hguard
    cases hguard.1
  · have hadmits := hguard.2
    rw [Power.admits, ha] at hadmits
    exact of_decide_eq_true hadmits
  · split at h
    · cases h
    case h_2 out w hexec =>
      obtain ⟨power, hafter, rfl⟩ := Option.map_eq_some_iff.mp h
      exact ⟨out, hexec, hafter, rfl, rfl, rfl⟩

theorem Site.ran_step (cfg : Config) (s : Site π) (c : Cpu3.State π) (phase : Phase) :
    Step cfg s.world (.peer c.shared s.world.driver.mbox.a2b.status, .silent)
      (s.ran c phase).world := rfl

theorem SiteStep.world {act : SiteAct π} (h : SiteStep cfg b bk s act s') :
    ∃ labels, Trace (Step cfg) s.world labels s'.world := by
  have hpeer : ∀ c phase, ∃ labels, Trace (Step cfg) s.world labels (s.ran c phase).world :=
    fun c phase => ⟨_, .single (s.ran_step cfg c phase)⟩
  have hstay : ∃ labels, Trace (Step cfg) s.world labels s.world := ⟨[], .nil _⟩
  unfold SiteStep Site.step at h
  cases act with
  | linux op =>
    obtain ⟨-, -, out, hexec, -⟩ := Site.linux_cases h
    exact ⟨[(op, out)], .single hexec⟩
  | registers a2bStatus b2a =>
    cases h
    exact ⟨[(.peer s.world.driver.shared a2bStatus, .silent)], .single rfl⟩
  | shown | boot =>
    dsimp only at h
    split_ifs at h
    cases h
    exact hstay
  | sessionReady | receive =>
    dsimp only at h
    split_ifs at h
    cases h
    exact hpeer _ _
  | handle =>
    dsimp only at h
    split at h
    · split_ifs at h
      split at h <;> cases h <;> exact hpeer _ _
    · cases h
  | off =>
    dsimp only at h
    split at h
    · split_ifs at h
      cases h
      exact hstay
    · cases h

end Steps

/-- Every world a site reaches is one the driver reaches. -/
theorem Site.reachable {cfg : Config} {b : Cpu3.Build} {bk : Cpu3.Backend π} {s s' : Site π}
    {acts : List (SiteAct π)} (hs : s.Start) (h : Trace (SiteStep cfg b bk) s acts s') :
    Reachable cfg s'.world := by
  refine Trace.invariant (I := fun s : Site π => Reachable cfg s.world) ?_ h
    ⟨s.world, [], hs.probed, .nil _⟩
  rintro s₁ act s₂ ⟨w₀, labels, hprobed, htrace⟩ hstep
  obtain ⟨more, hmore⟩ := hstep.world
  exact ⟨w₀, labels ++ more, hprobed, htrace.append hmore⟩

abbrev Site.requests (s : Site π) : Ring := s.world.driver.shared.linuxToCpu3 prioCritical

abbrev Site.replies (s : Site π) : Ring := s.world.driver.shared.cpu3ToLinux prioCritical

/-- `m` was queued by `mailmsg_stop_store`, for the stop that is under way. -/
def Site.Backs (s : Site π) (m : Message) : Prop := s.world.driver.life.Owns m ∧ m ∈ s.ordered

/-- What the worker has in hand is backed if it is a stop request. -/
def Site.PhaseBacked (s : Site π) : Phase → Prop
  | .idle => True
  | .handling p ret m => ret = ringOk → p = prioCritical → m.type = msgStopRequest → s.Backs m
  | .leaving m => s.Backs m

/-- While CPU3 is not off, every stop request between the driver and the worker is backed, and no
stop was refused. -/
structure Backed (s : Site π) : Prop where
  requestsInRange : s.requests.InRange
  repliesInRange : s.replies.InRange
  requests : ∀ m ∈ s.requests.contents, m.type = msgStopRequest → s.Backs m
  replies : ∀ m ∈ s.replies.contents, m.type ≠ msgStopRefused
  phase : s.PhaseBacked s.phase
  plays : s.power = .on → s.cpu3.endpoint.Plays .cpu3
  early : s.power ≠ .on → s.replies.contents = [] ∧ ¬ s.world.driver.life.mailmsgState.Opened

structure SiteInv (s : Site π) : Prop where
  plays : s.world.driver.endpoint.Plays .linux
  phase : s.power ≠ .on → s.phase = .idle
  backed : s.power ≠ .off → Backed s

theorem Site.PhaseBacked.mono {s s' : Site π} (h : ∀ m, s.Backs m → s'.Backs m) {phase : Phase}
    (hphase : s.PhaseBacked phase) : s'.PhaseBacked phase := by
  cases phase with
  | idle => trivial
  | handling p ret m => exact fun hret hp htype => h m (hphase hret hp htype)
  | leaving m => exact h m hphase

theorem Backed.of_cleared {s : Site π} (hpage : PageCleared s.world.driver)
    (hstate : ¬ s.world.driver.life.mailmsgState.Opened) (hpower : s.power ≠ .on)
    (hphase : s.phase = .idle) : Backed s := by
  obtain ⟨generation, hshared⟩ := hpage.page
  have hrequests : s.requests = Ring.zero := by rw [Site.requests, hshared]; rfl
  have hreplies : s.replies = Ring.zero := by rw [Site.replies, hshared]; rfl
  have hrange : Ring.zero.InRange := by constructor <;> decide
  have hnil : Ring.zero.contents = [] := hrange.contents_eq_nil.mpr rfl
  refine ⟨hrequests ▸ hrange, hreplies ▸ hrange, ?_, ?_, hphase ▸ trivial,
    fun hon => absurd hon hpower, fun _ => ⟨hreplies ▸ hnil, hstate⟩⟩
  · rw [hrequests, hnil]
    intro m hm
    cases hm
  · rw [hreplies, hnil]
    intro m hm
    cases hm

theorem Site.Start.inv {s : Site π} (h : s.Start) : SiteInv s where
  plays := by
    rw [h.probed.endpoint]
    exact Or.inl rfl
  phase _ := h.phase
  backed hpower := absurd h.power hpower

theorem Backed.keeps {cfg : Config} {s : Site π} (hs : Backed s) (hpower : s.power ≠ .off)
    {w' : World} {op : Op} {out : Output} (hplays : s.world.driver.endpoint.Plays .linux)
    (hreads : ∀ a, affinityOf op = some a → s.power.Reports a)
    (h : exec cfg s.world op = some (out, w')) {m : Message} (hm : s.world.driver.life.Owns m) :
    w'.driver.life.Owns m := by
  rcases exec_owns hplays hs.repliesInRange hs.replies h with hkeep | ⟨hoff, -⟩
  · exact hkeep m hm
  · -- only a site that still lags reports OFF, and it has no session open
    rcases (hreads affinityOff hoff).off with hp | hp
    · exact absurd hp hpower
    · exact absurd hm.opened (hs.early (by rw [hp]; decide)).2

theorem Backed.linux {cfg : Config} {s s' : Site π} {op : Op} (hs : Backed s)
    (hpower : s.power ≠ .off) (hphase : s.power ≠ .on → s.phase = .idle)
    (hplays : s.world.driver.endpoint.Plays .linux) (hforge : ¬ op.Forges)
    (h : s.linux cfg op = some s') (hsame : s'.power = s.power) : Backed s' := by
  obtain ⟨hpeer, hreads, out, hexec, -, hcpu3, hphase', hordered⟩ := Site.linux_cases h
  have hbacks : ∀ m, s.Backs m → s'.Backs m := fun m hm =>
    ⟨hs.keeps hpower hplays hreads hexec hm.1, by
      rw [hordered]
      exact List.mem_append_left _ hm.2⟩
  have hearly : s'.power ≠ .on → ¬ s'.world.driver.life.mailmsgState.Opened := fun hne => by
    rw [hsame] at hne
    obtain ⟨hnil, hstate⟩ := hs.early hne
    exact exec_unopened hplays hs.repliesInRange hnil hstate hexec
  rcases exec_orders hpeer hforge hplays hs.requestsInRange hexec with htraffic | ⟨hoff, hpage⟩
  · refine
      { requestsInRange := (htraffic.requests prioCritical).inRange hs.requestsInRange
        repliesInRange := (htraffic.replies prioCritical).inRange hs.repliesInRange
        requests := ?_
        replies := (htraffic.replies prioCritical).forall_mem hs.repliesInRange hs.replies
          fun _ hf => hf.elim
        phase := ?_
        plays := fun hon => by
          rw [hcpu3]
          exact hs.plays (hsame.symm.trans hon)
        early := fun hne => ⟨(htraffic.replies prioCritical).nil hs.repliesInRange
          (hs.early (hsame ▸ hne)).1, hearly hne⟩ }
    · refine (htraffic.requests prioCritical).forall_mem hs.requestsInRange
        (fun m hm htype => hbacks m (hs.requests m hm htype)) fun m hm htype => ?_
      obtain ⟨howns, hmem⟩ := hm rfl htype
      exact ⟨howns, by
        rw [hordered]
        exact List.mem_append_right _ hmem⟩
    · rw [hphase']
      exact hs.phase.mono hbacks
  · -- the page is cleared only while CPU3 reads off
    have hlag : s.power = .lagging := (hreads affinityOff hoff).off.resolve_left hpower
    have hne : s.power ≠ .on := by
      rw [hlag]
      decide
    exact .of_cleared hpage (hearly (hsame ▸ hne)) (hsame ▸ hne) (hphase'.trans (hphase hne))

theorem SiteInv.linux {cfg : Config} {s s' : Site π} {op : Op} (hs : SiteInv s)
    (hforge : ¬ op.Forges) (h : s.linux cfg op = some s') : SiteInv s' := by
  obtain ⟨hpeer, hreads, out, hexec, hafter, -, hphase, -⟩ := Site.linux_cases h
  have hplays : s'.world.driver.endpoint.Plays .linux := by
    rcases exec_traffic hpeer hs.plays hexec with ht | ⟨-, hpage⟩
    · exact ht.plays
    · exact hpage.plays
  unfold Power.after at hafter
  split_ifs at hafter with hlaunch hoff
  · -- CPU_ON succeeded: a new session over a cleared page
    have hlag : s'.power = .lagging := (Option.some.inj hafter).symm
    have hidle : s'.phase = .idle := hphase.trans (hs.phase (by rw [hoff]; decide))
    obtain ⟨e, he, hl⟩ := List.any_eq_true.mp hlaunch
    have hon : ∃ ret, .cpuOn ret ∈ out.effects := by
      cases e with
      | cpuOn ret => exact ⟨ret, he⟩
      | _ => cases hl
    obtain ⟨ret, hret⟩ := hon
    obtain ⟨hpage, hstate⟩ := exec_launch hs.plays hexec hret
    have hne : s'.power ≠ .on := by
      rw [hlag]
      decide
    exact ⟨hplays, fun _ => hidle, fun _ => .of_cleared hpage hstate hne hidle⟩
  · have hsame : s'.power = s.power := (Option.some.inj hafter).symm
    refine ⟨hplays, fun hne => hphase.trans (hs.phase (hsame ▸ hne)), fun hne => ?_⟩
    rw [hsame] at hne
    exact (hs.backed hne).linux hne hs.phase hs.plays hforge h hsame

theorem SiteInv.ran {s : Site π} (hs : SiteInv s) (hon : s.power = .on) {c : Cpu3.State π}
    {phase : Phase} (hplays : c.endpoint.Plays .cpu3)
    (hrequests : Ring.Grows (fun _ => False) s.requests (c.shared.linuxToCpu3 prioCritical))
    (hreplies : Ring.Grows (fun m => m.type ≠ msgStopRefused) s.replies
      (c.shared.cpu3ToLinux prioCritical))
    (hphase : s.PhaseBacked phase) : SiteInv (s.ran c phase) := by
  have hb := hs.backed (by rw [hon]; decide)
  have hbacks : ∀ m, s.Backs m → (s.ran c phase).Backs m := fun _ hm => hm
  refine ⟨hs.plays, fun hne => absurd hon hne, fun _ => ?_⟩
  exact
    { requestsInRange := hrequests.inRange hb.requestsInRange
      repliesInRange := hreplies.inRange hb.repliesInRange
      requests := hrequests.forall_mem hb.requestsInRange hb.requests fun _ hf => hf.elim
      replies := hreplies.forall_mem hb.repliesInRange hb.replies fun _ hne => hne
      phase := hphase.mono hbacks
      plays := fun _ => hplays
      early := fun hne => absurd hon hne }

theorem SiteInv.emits {s : Site π} (hs : SiteInv s) (hon : s.power = .on) {c : Cpu3.State π}
    {phase : Phase} (h : Cpu3.Emits (fun _ type _ => type ≠ msgStopRefused) s.core c)
    (hphase : s.PhaseBacked phase) : SiteInv (s.ran c phase) := by
  have hplays : s.core.endpoint.Plays .cpu3 := (hs.backed (by rw [hon]; decide)).plays hon
  have hkeeps := Cpu3.Emits.keepsRequests h hplays
  exact hs.ran hon (hkeeps.plays hplays) (.of_eq _ (congrFun hkeeps.requests prioCritical))
    ((Cpu3.Emits.grows h hplays prioCritical).mono fun _ ⟨_, hne, _⟩ => hne) hphase

theorem SiteInv.receive {s : Site π} (hs : SiteInv s) (hon : s.power = .on) (p : Priority) :
    SiteInv (s.ran (s.core.received (endpointReceive s.core.endpoint s.core.shared p Message.zero))
      (.handling p (endpointReceive s.core.endpoint s.core.shared p Message.zero).ret
        (endpointReceive s.core.endpoint s.core.shared p Message.zero).message)) := by
  have hb := hs.backed (by rw [hon]; decide)
  have hplays : s.core.endpoint.Plays .cpu3 := hb.plays hon
  refine hs.ran hon (hplays.of_identity (endpointReceive_identity _ _ _ _)) ?_ ?_ ?_
  · exact rx_endpointReceive_grows hplays s.core.shared p Message.zero prioCritical
  · exact .of_eq _ (congrFun (tx_endpointReceive hplays s.core.shared p Message.zero) prioCritical)
  · rintro hret rfl htype
    exact hb.requests _ (endpointReceive_mem hplays s.core.shared prioCritical Message.zero
      hb.requestsInRange hret) htype

theorem handleReceived_plain {b : Cpu3.Build} (hstop : b.stopControl = true) (bk : Cpu3.Backend π)
    {p : Priority} {ret : Int} {request : Message} {c : Cpu3.State π}
    (hempty : ret = ringOk → p = prioCritical → request.type = msgStopRequest →
      request.length = 0) :
    Cpu3.Emits (fun _ type _ => type ≠ msgStopRefused) c
      (Cpu3.handleReceived b bk p ret request c).state := by
  refine Cpu3.Emits.mono (Cpu3.handleReceived_answers b bk p ret request c)
    fun _ type _ hok htype => ?_
  obtain ⟨hret, hp, hrequest, hwhy⟩ := hok htype
  rcases hwhy with hlength | hcontrol
  · exact hlength (hempty hret hp hrequest)
  · rw [hstop] at hcontrol
    cases hcontrol

theorem SiteInv.handle {b : Cpu3.Build} (hstop : b.stopControl = true)
    (hself : b.selfOffValue = none) (bk : Cpu3.Backend π) {s : Site π} (hs : SiteInv s)
    (hon : s.power = .on) {p : Priority} {ret : Int} {request : Message}
    (hphase : s.phase = .handling p ret request) :
    (∀ c, Cpu3.handleReceived b bk p ret request s.core = .cpuOff c →
      SiteInv (s.ran c (.leaving request))) ∧
    SiteInv (s.ran (Cpu3.handleReceived b bk p ret request s.core).state .idle) := by
  have hbacked : s.PhaseBacked (.handling p ret request) :=
    hphase ▸ (hs.backed (by rw [hon]; decide)).phase
  have hanswers : Cpu3.Emits (fun _ type _ => type ≠ msgStopRefused) s.core _ :=
    handleReceived_plain hstop bk fun hret hp htype => (hbacked hret hp htype).1.length
  refine ⟨fun c hc => ?_, hs.emits hon hanswers trivial⟩
  obtain ⟨hret, hp, htype, -⟩ := Cpu3.handleReceived_cpuOff hself hc
  rw [hc] at hanswers
  exact hs.emits hon hanswers (hbacked hret hp htype)

/-- User space writes a STOP_REQUEST to the p0 device. -/
def SiteAct.Forges : SiteAct π → Prop
  | .linux op => op.Forges
  | _ => False

instance (op : Op) : Decidable op.Forges :=
  match op with
  | .userWrite file _ (some frame) =>
    inferInstanceAs (Decidable (file.channel = prioCritical ∧ frame.type = msgStopRequest))
  | .userWrite _ _ none | .imageWrite .. | .startStore .. | .rearmStore .. | .stopStore ..
  | .controlWork .. | .lifecycleTimeoutWork .. | .affinityWork .. | .affinityStateShow ..
  | .userOpen .. | .userRelease .. | .userReadEnter .. | .userReadSample .. | .userReadTry ..
  | .userReadWake .. | .userPoll .. | .doorbell .. | .mailmsgPing .. | .mailmsgCrcInject ..
  | .mailmsgNotifyInject .. | .mailmsgQueuePush .. | .mailmsgResponse .. | .mboxRx ..
  | .peer .. => isFalse id

instance (act : SiteAct π) : Decidable act.Forges :=
  match act with
  | .linux op => inferInstanceAs (Decidable op.Forges)
  | .registers .. | .shown | .boot .. | .sessionReady | .receive .. | .handle | .off =>
    isFalse id

theorem SiteInv.step {cfg : Config} {b : Cpu3.Build} {bk : Cpu3.Backend π}
    (hstop : b.stopControl = true) (hself : b.selfOffValue = none) {s s' : Site π}
    {act : SiteAct π} (hs : SiteInv s) (hforge : ¬ act.Forges) (h : SiteStep cfg b bk s act s') :
    SiteInv s' := by
  unfold SiteStep Site.step at h
  cases act with
  -- forging is a write to the p0 device, so the hypothesis is spent here and nowhere else
  | linux op => exact hs.linux hforge h
  | registers a2bStatus b2a =>
    cases h
    exact ⟨hs.plays, hs.phase, fun hne =>
      have hb := hs.backed hne
      ⟨hb.requestsInRange, hb.repliesInRange, hb.requests, hb.replies,
        hb.phase.mono fun _ hm => hm, hb.plays, hb.early⟩⟩
  | shown =>
    dsimp only at h
    split_ifs at h with hlag
    cases h
    have hne : s.power ≠ .on := by rw [hlag]; decide
    have hb := hs.backed (by rw [hlag]; decide)
    exact ⟨hs.plays, fun _ => hs.phase hne, fun _ =>
      ⟨hb.requestsInRange, hb.repliesInRange, hb.requests, hb.replies,
        hb.phase.mono fun _ hm => hm, fun hon => (by cases hon), fun _ => hb.early hne⟩⟩
  | boot peripheralsReady peripherals =>
    dsimp only at h
    split_ifs at h with hvisible
    cases h
    have hb := hs.backed (by rw [hvisible]; decide)
    exact ⟨hs.plays, fun _ => rfl, fun _ =>
      ⟨hb.requestsInRange, hb.repliesInRange, hb.requests, hb.replies, trivial,
        fun _ => Cpu3.boot_plays _ _ _ _, fun hne => absurd rfl hne⟩⟩
  | sessionReady =>
    dsimp only at h
    split_ifs at h with hguard
    cases h
    -- SESSION_READY is no STOP_REFUSED, which is all the invariant forbids on the reply ring
    refine hs.emits hguard.1 (Cpu3.Emits.mono (Cpu3.serviceSessionReady_emits s.core) ?_) trivial
    rintro _ _ _ ⟨-, rfl⟩
    decide
  | receive p =>
    dsimp only at h
    split_ifs at h with hguard
    cases h
    exact hs.receive hguard.1 p
  | handle =>
    dsimp only at h
    split at h
    case h_1 p ret request hphase =>
      split_ifs at h with hon
      -- CPU_OFF leaves with the request in hand; another turn and the end of the loop are alike
      have hboth := hs.handle hstop hself bk hon hphase
      split at h
      case h_1 c hc =>
        cases h
        exact hboth.1 c hc
      case h_2 c hc | h_3 c _ _ hc =>
        cases h
        rw [hc] at hboth
        exact hboth.2
    case h_2 => cases h
  | off =>
    dsimp only at h
    split at h
    · split_ifs at h
      cases h
      -- the requests must be backed only while CPU3 is not off
      exact ⟨hs.plays, fun _ => rfl, fun hne => absurd rfl hne⟩
    · cases h

/-- An image with stop control, in a run in which nobody writes a STOP_REQUEST to the p0 device,
goes off only for the request that `mailmsg_stop_store` queued for the stop under way. -/
theorem stop_only_by_stop_store {cfg : Config} {b : Cpu3.Build} {bk : Cpu3.Backend π}
    (hstop : b.stopControl = true) (hself : b.selfOffValue = none) {s s' : Site π}
    {acts : List (SiteAct π)} (hs : s.Start)
    (h : Trace (fun s act s' => ¬ act.Forges ∧ SiteStep cfg b bk s act s') s acts s')
    {m : Message} (hm : s'.phase = .leaving m) :
    (s'.world.driver.life.mailmsgState = .stopping ∨
        s'.world.driver.life.mailmsgState = .stopTimeout) ∧
      m ∈ s'.ordered ∧ m.sequence = s'.world.driver.life.stopRequestSequence := by
  have hinv : SiteInv s' :=
    h.invariant (fun _ _ _ hs hstep => hs.step hstop hself hstep.1 hstep.2) hs.inv
  have hon : s'.power = .on := by
    by_contra hne
    have hidle := hinv.phase hne
    rw [hm] at hidle
    cases hidle
  have hbacked : s'.PhaseBacked (.leaving m) := hm ▸ (hinv.backed (by rw [hon]; decide)).phase
  exact ⟨hbacked.1.state, hbacked.2, hbacked.1.sequence⟩

def darkSite : Site Unit where
  world := probedWorld
  power := .off
  cpu3 := Cpu3.boot Shared.zero ⟨0, fun _ => 0, fun _ => 0⟩ false ()
  phase := .idle
  ordered := []

theorem darkSite_start : darkSite.Start := ⟨probedWorld_probed, rfl, rfl⟩

/-- Upload, start, SESSION_READY: both sides are up and the session is ACTIVE. -/
def siteUp : List (SiteAct Unit) :=
  [.linux (.imageWrite 0 [1, 2, 3, 4]), .linux (.startStore true 5 affinityOff 0 100), .shown,
    .boot false (), .sessionReady, .linux (.controlWork 200 (fun _ => 200) 1)]

def leavesIn (state : SessionState) (sequence : U32) (s : Site Unit) : Bool :=
  match s.phase with
  | .leaving m => m.sequence = sequence ∧ s.world.driver.life.mailmsgState = state
  | _ => false

theorem leaving_of_leavesIn {state : SessionState} {sequence : U32} {s : Site Unit}
    (h : leavesIn state sequence s = true) :
    ∃ m, s.phase = .leaving m ∧ s.world.driver.life.mailmsgState = state := by
  unfold leavesIn at h
  split at h
  case h_1 m hm => exact ⟨m, hm, (of_decide_eq_true h).2⟩
  case h_2 => cases h

/-- A stop ordered through sysfs. -/
theorem stop_only_by_stop_store_ordered :
    ∃ s m, Trace (fun s act s' => ¬ act.Forges ∧
        SiteStep board Cpu3.stopImage Cpu3.noPeripherals s act s')
      darkSite (siteUp ++ [.linux (.stopStore true 4 300), .receive 0, .handle]) s ∧
      s.phase = .leaving m ∧ m ∈ s.ordered := by
  obtain ⟨s, htrace, htest⟩ := Trace.exists_of_guarded
    (Site.step board Cpu3.stopImage Cpu3.noPeripherals) (fun _ act => ¬ act.Forges) darkSite
    (siteUp ++ [.linux (.stopStore true 4 300), .receive 0, .handle]) (leavesIn .stopping 1)
    (by decide +kernel)
  obtain ⟨m, hm, -⟩ := leaving_of_leavesIn htest
  exact ⟨s, m, htrace, hm,
    (stop_only_by_stop_store rfl rfl darkSite_start htrace hm).2.1⟩

def forgedStop : List (SiteAct Unit) :=
  [.linux (.userOpen 1 0 true),
    .linux (.userWrite ⟨1, 0, false, []⟩ userFrameBytes
      (some ⟨0, msgStopRequest, 0, 0, fun _ => 0⟩)),
    .receive 0, .handle]

/-- The forged request is obeyed: CPU3 goes off while Linux holds the session ACTIVE, and
`mailmsg_stop_store` ordered nothing. -/
theorem stop_forged_by_user_write :
    ∃ s m, Trace (SiteStep board Cpu3.stopImage Cpu3.noPeripherals) darkSite
      (siteUp ++ forgedStop) s ∧
      s.phase = .leaving m ∧ s.world.driver.life.mailmsgState = .active ∧ s.ordered = [] := by
  obtain ⟨s, htrace, htest⟩ := Trace.exists_of_foldlM
    (Site.step board Cpu3.stopImage Cpu3.noPeripherals) darkSite (siteUp ++ forgedStop)
    (fun s => leavesIn .active 1 s && s.ordered.isEmpty) (by decide +kernel)
  obtain ⟨hleaves, hordered⟩ := Bool.and_eq_true_iff.mp htest
  obtain ⟨m, hm, hstate⟩ := leaving_of_leavesIn hleaves
  exact ⟨s, m, htrace, hm, hstate, List.isEmpty_iff.mp hordered⟩

end Lzamp.System
