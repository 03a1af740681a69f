import Lzamp.R1Amp.SessionPage
import Lzamp.System.StopAuthority

namespace Lzamp.System
open Mailmsg Lib R1Amp

variable {π : Type} {damaged : Prop}

abbrev Site.generation (s : Site π) : U32 := s.world.driver.life.sessionGeneration

/-- What a receive of CPU3 may report. -/
def Received.Clean (damaged : Prop) (ret : Int) : Prop :=
  ret = ringOk ∨ ret = ringEmpty ∨ damaged ∧ ret = ringBadCrc

structure Agrees (damaged : Prop) (s : Site π) : Prop where
  linux : SessionPage damaged s.world.driver
  begun : s.power ≠ .off → s.generation ≠ 0
  bound : s.power = .on → s.cpu3.endpoint.identity = (some .cpu3, s.generation)
  phase : ∀ p ret m, s.phase = .handling p ret m → Received.Clean damaged ret

theorem Site.Start.agrees {s : Site π} (h : s.Start) (damaged : Prop) : Agrees damaged s where
  linux := h.probed.sessionPage damaged
  begun hne := absurd h.power hne
  bound hon := by
    rw [h.power] at hon
    cases hon
  phase p ret m hphase := by
    rw [h.phase] at hphase
    cases hphase

theorem exists_cpuOn {es : List Effect} (h : es.any Effect.launches = true) :
    ∃ ret, .cpuOn ret ∈ es := by
  obtain ⟨e, he, hl⟩ := List.any_eq_true.mp h
  cases e with
  | cpuOn ret => exact ⟨ret, he⟩
  | _ => cases hl

namespace Agrees

variable {cfg : Config} {b : Cpu3.Build} {bk : Cpu3.Backend π} {s s' : Site π}

theorem page (hs : Agrees damaged s) (hon : s.power ≠ .off) :
    s.world.driver.shared.OfSession damaged s.generation := hs.linux.page (hs.begun hon)

theorem role (hs : Agrees damaged s) (hon : s.power = .on) :
    s.core.endpoint.role = some .cpu3 := congrArg Prod.fst (hs.bound hon)

theorem cpu3_generation (hs : Agrees damaged s) (hon : s.power = .on) :
    s.core.endpoint.generation = s.generation := congrArg Prod.snd (hs.bound hon)

theorem executed {op : Op} {out : Output} {w : World} (hs : Agrees damaged s)
    (hpeer : ∀ shared status, op ≠ .peer shared status)
    (hinject : ∀ parsed count, op = .mailmsgCrcInject parsed count → damaged)
    (hexec : exec cfg s.world op = some (out, w))
    (hkept : s.power = .on → w.driver.life.sessionGeneration = s.generation) :
    Agrees damaged { s with world := w } := by
  refine ⟨hs.linux.exec hpeer hinject hexec, fun hne => ?_, fun hon => ?_, hs.phase⟩
  · rcases exec_generation hexec with hsame | ⟨-, hnew⟩
    · exact fun hzero => hs.begun hne (hsame.symm.trans hzero)
    · exact hnew
  · exact (hs.bound hon).trans (by rw [← hkept hon])

theorem launched (hs : Agrees damaged s) (hbegun : s.generation ≠ 0) :
    Agrees damaged { s with power := .lagging } :=
  ⟨hs.linux, fun _ => hbegun, fun hon => (by cases hon), hs.phase⟩

theorem called {out : Output} {power : Power} (hs : Agrees damaged s)
    (hbegun : ∀ ret, .cpuOn ret ∈ out.effects → s.generation ≠ 0)
    (hafter : s.power.after out = some power) : Agrees damaged { s with power := power } := by
  unfold Power.after at hafter
  split_ifs at hafter with hlaunch hoff
  · obtain rfl := Option.some.inj hafter
    obtain ⟨ret, hret⟩ := exists_cpuOn hlaunch
    exact hs.launched (hbegun ret hret)
  · obtain rfl := Option.some.inj hafter
    exact hs

theorem ordering (hs : Agrees damaged s) (ordered : List Message) :
    Agrees damaged { s with ordered := ordered } :=
  ⟨hs.linux, hs.begun, hs.bound, hs.phase⟩

theorem linux_step {op : Op} (hs : Agrees damaged s)
    (hinject : ∀ parsed count, op = .mailmsgCrcInject parsed count → damaged)
    (h : s.linux cfg op = some s') : Agrees damaged s' := by
  obtain ⟨hpeer, hreads, out, hexec, hafter, hcpu3, hphase, -⟩ := Site.linux_cases h
  have hexecuted := hs.executed hpeer hinject hexec fun hon => by
    rcases exec_generation hexec with hgeneration | ⟨hoff, -⟩
    · exact hgeneration
    · -- OFF is not reported while CPU3 runs
      rcases (hreads affinityOff hoff).off with hp | hp <;> rw [hon] at hp <;> cases hp
  have hchange : Change s.world.driver.session (op, out) s'.world.driver.session :=
    step_change hexec
  have hcalled := hexecuted.called (fun ret hret => hchange.generation_ne_zero hret) hafter
  have hsite : s' = { s with world := s'.world, power := s'.power, ordered := s'.ordered } := by
    rw [← hcpu3, ← hphase]
  rw [hsite]
  exact hcalled.ordering s'.ordered

theorem ran (hs : Agrees damaged s) (hon : s.power = .on) {c : Cpu3.State π} {phase : Phase}
    (hpage : c.shared.OfSession damaged s.generation)
    (hidentity : c.endpoint.identity = s.core.endpoint.identity)
    (hphase : ∀ p ret m, phase = .handling p ret m → Received.Clean damaged ret) :
    Agrees damaged (s.ran c phase) where
  linux := ⟨hs.linux.bound, fun _ => hpage⟩
  begun := hs.begun
  bound _ := hidentity.trans (hs.bound hon)
  phase := hphase

theorem emits {ok : Priority → U32 → List U8 → Prop} (hs : Agrees damaged s) (hon : s.power = .on)
    {c : Cpu3.State π} (h : Cpu3.Emits ok s.core c) :
    c.shared.OfSession damaged s.generation ∧
      c.endpoint.identity = s.core.endpoint.identity := by
  induction h with
  | refl => exact ⟨hs.page (by rw [hon]; decide), rfl⟩
  | @tail c₁ c₂ hca hab ih =>
    have hplays : c₁.endpoint.Plays .cpu3 :=
      Or.inr ((congrArg Prod.fst ih.2).trans (hs.role hon))
    have hkeeps := Cpu3.Emits.keepsRequests (.single hab) hplays
    refine ⟨?_, hkeeps.identity.trans ih.2⟩
    cases hab with
    | send hok =>
      rw [Cpu3.transmit_shared]
      refine ih.1.send _ _ _ _ _ _ _ hplays fun _ => ?_
      exact (congrArg Prod.snd ih.2).trans (hs.cpu3_generation hon)
    | work _ hshared =>
      rw [hshared]
      exact ih.1

/-- CPU3 finds a good frame, an empty ring, or a frame that Linux was told to damage. -/
theorem receive (hs : Agrees damaged s) (hon : s.power = .on) (p : Priority) :
    Agrees damaged (s.ran
      (s.core.received (endpointReceive s.core.endpoint s.core.shared p Message.zero))
      (.handling p (endpointReceive s.core.endpoint s.core.shared p Message.zero).ret
        (endpointReceive s.core.endpoint s.core.shared p Message.zero).message)) := by
  have hpage := hs.page (by rw [hon]; decide)
  have hvalid : endpointSessionValid s.core.endpoint s.core.shared = endpointOk :=
    hpage.valid (by rw [hs.role hon]; decide) (hs.cpu3_generation hon)
  refine hs.ran hon (hpage.receive (Or.inr (hs.role hon)) p Message.zero)
    (endpointReceive_identity _ _ _ _) ?_
  rintro p' ret' m' ⟨⟩
  refine endpointReceive_ofSession (hs.role hon) hvalid ?_ Message.zero
  rw [hs.cpu3_generation hon]
  exact hpage.rx .cpu3 p

theorem boot (hs : Agrees damaged s) (hon : s.power ≠ .off) (b2a : Doorbells)
    (peripheralsReady : Bool) (peripherals : π) :
    (Cpu3.boot s.world.driver.shared b2a peripheralsReady peripherals).endpoint.identity =
      (some .cpu3, s.generation) := by
  have hpage := hs.page hon
  have hheader := hpage.header
  simp only [Shared.header, Prod.mk.injEq] at hheader
  unfold Cpu3.boot endpointBind
  dsimp only
  rw [if_neg (by simp [hheader.1, hheader.2.1]), if_neg (by rw [hheader.2.2]; exact hpage.begun)]
  exact Prod.ext rfl hheader.2.2

theorem step {act : SiteAct π} (hs : Agrees damaged s)
    (hinject : ∀ parsed count, act = .linux (.mailmsgCrcInject parsed count) → damaged)
    (h : SiteStep cfg b bk s act s') : Agrees damaged s' := by
  unfold SiteStep Site.step at h
  cases act with
  -- the injected frame is the only one of the session that is let through damaged
  | linux op => exact hs.linux_step (fun parsed count hop => hinject parsed count (by rw [hop])) h
  | registers a2bStatus b2a =>
    cases h
    exact ⟨⟨hs.linux.bound, hs.linux.page⟩, hs.begun, hs.bound, hs.phase⟩
  | shown =>
    dsimp only at h
    split_ifs at h with hlag
    cases h
    refine ⟨hs.linux, fun _ => hs.begun (by rw [hlag]; decide), fun hon => ?_, hs.phase⟩
    cases hon
  | boot peripheralsReady peripherals =>
    dsimp only at h
    split_ifs at h with hvisible
    cases h
    -- CPU3 starts on a page Linux has begun, and binds to the generation it finds there
    have hon : s.power ≠ .off := by rw [hvisible]; decide
    refine ⟨hs.linux, fun _ => hs.begun hon, fun _ => hs.boot hon _ _ _, fun p ret m hp => ?_⟩
    cases hp
  | sessionReady =>
    dsimp only at h
    split_ifs at h with hguard
    cases h
    obtain ⟨hpage, hidentity⟩ := hs.emits hguard.1 (Cpu3.serviceSessionReady_emits s.core)
    exact hs.ran hguard.1 hpage hidentity fun p ret m hp => by cases hp
  | receive p =>
    dsimp only at h
    split_ifs at h with hguard
    cases h
    exact hs.receive hguard.1 p
  | handle =>
    dsimp only at h
    split at h
    case h_1 p ret request hphase =>
      split_ifs at h with hon
      obtain ⟨hpage, hidentity⟩ :=
        hs.emits hon (Cpu3.handleReceived_answers b bk p ret request s.core)
      have hran : ∀ phase, (∀ p ret m, phase ≠ .handling p ret m) → Agrees damaged
          (s.ran (Cpu3.handleReceived b bk p ret request s.core).state phase) :=
        fun phase hne => hs.ran hon hpage hidentity fun p ret m hp => absurd hp (hne p ret m)
      split at h
      case h_1 c hc | h_2 c hc | h_3 c _ _ hc =>
        cases h
        rw [hc] at hran
        exact hran _ fun p ret m hp => by cases hp
    case h_2 => cases h
  | off =>
    dsimp only at h
    split at h
    · split_ifs at h
      cases h
      -- off: the page may now be begun anew under the core that is gone
      refine ⟨hs.linux, fun hne => absurd rfl hne, fun hon => ?_, fun p ret m hp => ?_⟩
      · cases hon
      · cases hp
    · cases h

end Agrees

/-- `mailmsg_crc_inject` was used. -/
def Injects (acts : List (SiteAct π)) : Prop :=
  ∃ parsed count, .linux (.mailmsgCrcInject parsed count) ∈ acts

theorem Site.Start.agrees_run {cfg : Config} {b : Cpu3.Build} {bk : Cpu3.Backend π} {s s' : Site π}
    {acts : List (SiteAct π)} (hs : s.Start) (h : Trace (SiteStep cfg b bk) s acts s') :
    Agrees (Injects acts) s' := by
  refine Trace.invariant_mem (fun s₁ act s₂ hact hagrees hstep => ?_) h (hs.agrees _)
  refine hagrees.step (fun parsed count heq => ?_) hstep
  exact ⟨parsed, count, heq ▸ hact⟩

def SiteAct.OfLinux : SiteAct π → Bool
  | .linux _ => true
  | _ => false

/-- A step of a site, or a `start_store` that CPU3 and the hardware do not wait for: they act
`before` it writes the page, with the affinity already read, and `after` that, before it calls
CPU_ON. -/
inductive CutAct (π : Type) where
  | site (act : SiteAct π)
  | start (isStart : Bool) (count : ℕ) (affinity cpuOn : Int) (now : U64)
      (before after : List (SiteAct π))

def Site.cutStart (cfg : Config) (b : Cpu3.Build) (bk : Cpu3.Backend π) (s : Site π) (op : Op)
    (before after : List (SiteAct π)) : Option (Site π) :=
  if !s.power.admits op ∨ before.any SiteAct.OfLinux ∨ after.any SiteAct.OfLinux then none
  else do
    let t ← before.foldlM (Site.step cfg b bk) s
    let (out, w) ← exec cfg t.world op
    let u ← after.foldlM (Site.step cfg b bk) { t with world := w }
    let power ← u.power.after out
    return { u with power := power }

def Site.cutStep (cfg : Config) (b : Cpu3.Build) (bk : Cpu3.Backend π) (s : Site π) :
    CutAct π → Option (Site π)
  | .site act => s.step cfg b bk act
  | .start isStart count affinity cpuOn now before after =>
    s.cutStart cfg b bk (.startStore isStart count affinity cpuOn now) before after

def CutStep (cfg : Config) (b : Cpu3.Build) (bk : Cpu3.Backend π) (s : Site π) (act : CutAct π)
    (s' : Site π) : Prop :=
  s.cutStep cfg b bk act = some s'

def CutAct.isRearm : CutAct π → Bool
  | .site (.linux (.rearmStore isRearm _ _)) => isRearm
  | _ => false

/-- No rearm while CPU3 is starting and still reported OFF. -/
def Site.NoEarlyRearm (s : Site π) (act : CutAct π) : Prop :=
  act.isRearm = true → s.power ≠ .lagging

instance (s : Site π) (act : CutAct π) : Decidable (s.NoEarlyRearm act) :=
  inferInstanceAs (Decidable (_ → _))

section Cut

variable {cfg : Config} {b : Cpu3.Build} {bk : Cpu3.Backend π} {s s' : Site π}

abbrev Site.board (s : Site π) : Board := ⟨s.world, s.power⟩

theorem Power.after_launch {p p' : Power} {out : Output} (h : p.after out = some p') :
    (.cpuOn 0 ∈ out.effects → p = .off ∧ p' = .lagging) ∧ (.cpuOn 0 ∉ out.effects → p' = p) := by
  have hany : out.effects.any Effect.launches = true ↔ .cpuOn 0 ∈ out.effects := by
    rw [List.any_eq_true]
    constructor
    · rintro ⟨e, he, hlaunch⟩
      cases e with
      | cpuOn ret =>
        obtain rfl : ret = 0 := of_decide_eq_true hlaunch
        exact he
      | _ => cases hlaunch
    · exact fun he => ⟨_, he, rfl⟩
  unfold Power.after at h
  split_ifs at h with hlaunch hoff
  · exact ⟨fun _ => ⟨hoff, (Option.some.inj h).symm⟩, fun hnot => absurd (hany.mp hlaunch) hnot⟩
  · exact ⟨fun hcall => absurd (hany.mpr hcall) hlaunch, fun _ => (Option.some.inj h).symm⟩

theorem PowerInv.of_life {w w' : World} {p : Power} (hlife : w'.driver.life = w.driver.life)
    (h : PowerInv ⟨w, p⟩) : PowerInv ⟨w', p⟩ := by
  intro hatt
  dsimp only at hatt
  rw [hlife] at hatt
  exact h hatt

theorem PowerInv.progress {w : World} {p p' : Power} (h : PowerInv ⟨w, p⟩)
    (hprogress : Relation.ReflTransGen Progress p p') : PowerInv ⟨w, p'⟩ := by
  intro hatt
  have hoff : p = .off := h hatt
  rw [hoff] at hprogress
  exact Progress.of_off hprogress

theorem SiteStep.cpu3 {act : SiteAct π} (hact : act.OfLinux = false)
    (h : SiteStep cfg b bk s act s') :
    s'.world.driver.life = s.world.driver.life ∧
      Relation.ReflTransGen Progress s.power s'.power := by
  unfold SiteStep Site.step at h
  cases act with
  | linux op => cases hact
  | registers a2bStatus b2a =>
    cases h
    exact ⟨rfl, .refl⟩
  | shown =>
    dsimp only at h
    split_ifs at h with hlag
    cases h
    exact ⟨rfl, hlag ▸ .single .shown⟩
  | boot peripheralsReady peripherals =>
    dsimp only at h
    split_ifs at h with hvisible
    cases h
    exact ⟨rfl, hvisible ▸ .single .boots⟩
  | sessionReady | receive =>
    dsimp only at h
    split_ifs at h
    cases h
    exact ⟨rfl, .refl⟩
  | handle =>
    dsimp only at h
    split at h
    · split_ifs at h
      split at h <;> cases h <;> exact ⟨rfl, .refl⟩
    · cases h
  | off =>
    dsimp only at h
    split at h
    · split_ifs at h with hon
      cases h
      exact ⟨rfl, hon ▸ .single .cpuOff⟩
    · cases h

theorem Agrees.cpu3_run {acts : List (SiteAct π)} (hs : Agrees damaged s)
    (hacts : acts.any SiteAct.OfLinux = false) (h : Trace (SiteStep cfg b bk) s acts s') :
    Agrees damaged s' ∧ s'.world.driver.life = s.world.driver.life ∧
      Relation.ReflTransGen Progress s.power s'.power := by
  have hcpu3 : ∀ act ∈ acts, act.OfLinux = false := by simpa using hacts
  refine Trace.invariant_mem (I := fun t => Agrees damaged t ∧
    t.world.driver.life = s.world.driver.life ∧ Relation.ReflTransGen Progress s.power t.power)
    ?_ h ⟨hs, rfl, .refl⟩
  rintro t act t' hact ⟨hagrees, hlife, hprogress⟩ hstep
  obtain ⟨hlife', hprogress'⟩ := hstep.cpu3 (hcpu3 act hact)
  refine ⟨hagrees.step ?_ hstep, hlife'.trans hlife, hprogress.trans hprogress'⟩
  rintro parsed count rfl
  cases hcpu3 _ hact

/-- The sides agree, and CPU3 is off until a start is attempted. -/
structure InStep (damaged : Prop) (s : Site π) : Prop where
  agrees : Agrees damaged s
  power : PowerInv s.board

theorem cutStart_cases {op : Op} {before after : List (SiteAct π)}
    (h : s.cutStart cfg b bk op before after = some s') :
    s.power.admits op = true ∧ before.any SiteAct.OfLinux = false ∧
      after.any SiteAct.OfLinux = false ∧
      ∃ t out w u power, Trace (SiteStep cfg b bk) s before t ∧
        exec cfg t.world op = some (out, w) ∧
        Trace (SiteStep cfg b bk) { t with world := w } after u ∧
        u.power.after out = some power ∧ s' = { u with power := power } := by
  unfold Site.cutStart at h
  split_ifs at h with hguard
  simp only [not_or, Bool.not_eq_true, Bool.not_eq_false'] at hguard
  obtain ⟨t, hbefore, h⟩ := Option.bind_eq_some_iff.mp h
  obtain ⟨⟨out, w⟩, hexec, h⟩ := Option.bind_eq_some_iff.mp h
  obtain ⟨u, hafter, h⟩ := Option.bind_eq_some_iff.mp h
  obtain ⟨power, hpower, h⟩ := Option.bind_eq_some_iff.mp h
  exact ⟨hguard.1, hguard.2.1, hguard.2.2, t, out, w, u, power, .of_foldlM hbefore, hexec,
    .of_foldlM hafter, hpower, (Option.some.inj h).symm⟩

theorem exec_start_attempted {w w' : World} {isStart : Bool} {count : ℕ} {affinity cpuOn : Int}
    {now : U64} {out : Output} (hatt : w.driver.life.cpuOnAttempted = true)
    (h : exec cfg w (.startStore isStart count affinity cpuOn now) = some (out, w')) :
    w'.driver = w.driver := by
  cases h
  cases isStart <;> simp [startStore, hatt, World.withDriver]

theorem InStep.start {isStart : Bool} {count : ℕ} {affinity cpuOn : Int} {now : U64}
    {before after : List (SiteAct π)} (hs : InStep damaged s)
    (h : s.cutStart cfg b bk (.startStore isStart count affinity cpuOn now) before after =
      some s') : InStep damaged s' := by
  obtain ⟨hadmits, hb, ha, t, out, w, u, power, hrun, hexec, hrun', hcall, rfl⟩ :=
    cutStart_cases h
  have hchange : Change t.world.driver.session
      (.startStore isStart count affinity cpuOn now, out) w.driver.session := step_change hexec
  obtain ⟨hagrees, hlife, hprogress⟩ := hs.agrees.cpu3_run hb hrun
  have hbefore : PowerInv ⟨t.world, s.power⟩ := hs.power.of_life hlife
  -- CPU3 is off, or the start is refused
  have hkept : t.power = .on → w.driver.life.sessionGeneration = t.generation := by
    intro hon
    have hatt : t.world.driver.life.cpuOnAttempted = true := by
      by_contra hne
      have hoff : t.power = .off := (hbefore.progress hprogress) (Bool.eq_false_of_not_eq_true hne)
      rw [hon] at hoff
      cases hoff
    rw [exec_start_attempted hatt hexec]
  have hexecuted := hagrees.executed (fun _ _ heq => by cases heq) (fun _ _ heq => by cases heq)
    hexec hkept
  obtain ⟨hagrees', hlife', hprogress'⟩ := hexecuted.cpu3_run ha hrun'
  refine ⟨hagrees'.called (fun ret hret => ?_) hcall, ?_⟩
  · rw [Site.generation, hlife']
    exact hchange.generation_ne_zero hret
  · have hlaunch := Power.after_launch hcall
    have hreports : s.power.Reports affinity := of_decide_eq_true hadmits
    have hstep : PowerStep cfg ⟨t.world, s.power⟩
        (.driver (.startStore isStart count affinity cpuOn now) out t.power) ⟨w, power⟩ :=
      .driver hexec (fun a heq => Option.some.inj heq ▸ hreports) (fun _ _ heq => by cases heq)
        hprogress hprogress' hlaunch.1 hlaunch.2
    exact (hbefore.step (fun _ _ _ _ heq => by cases heq) hstep).of_life hlife'

theorem InStep.step {act : CutAct π} (hs : InStep damaged s) (hcond : s.NoEarlyRearm act)
    (hinject : ∀ parsed count, act = .site (.linux (.mailmsgCrcInject parsed count)) → damaged)
    (h : CutStep cfg b bk s act s') : InStep damaged s' := by
  cases act with
  | start isStart count affinity cpuOn now before after => exact hs.start h
  | site act =>
    have hagrees : Agrees damaged s' :=
      hs.agrees.step (fun parsed count heq => hinject parsed count (by rw [heq])) h
    refine ⟨hagrees, ?_⟩
    by_cases hact : act.OfLinux = true
    · cases act with
      | linux op =>
        obtain ⟨hpeer, hreads, out, hexec, hcall, -⟩ := Site.linux_cases h
        have hlaunch := Power.after_launch hcall
        have hstep : PowerStep cfg s.board (.driver op out s.power) s'.board :=
          .driver hexec hreads (fun shared status heq => absurd heq (hpeer shared status)) .refl
            .refl hlaunch.1 hlaunch.2
        refine hs.power.step (fun count affinity out mid heq => hcond ?_) hstep
        cases heq
        rfl
      | _ => cases hact
    · obtain ⟨hlife, hprogress⟩ := SiteStep.cpu3 (Bool.eq_false_of_not_eq_true hact) h
      exact (hs.power.of_life hlife).progress hprogress

def CutInjects (acts : List (CutAct π)) : Prop :=
  ∃ parsed count, .site (.linux (.mailmsgCrcInject parsed count)) ∈ acts

theorem Site.Start.agrees_cut {acts : List (CutAct π)} (hs : s.Start)
    (h : Trace (fun s act s' => s.NoEarlyRearm act ∧ CutStep cfg b bk s act s') s acts s') :
    Agrees (CutInjects acts) s' := by
  refine (Trace.invariant_mem (fun s₁ act s₂ hact hinv hstep => ?_) h
    ⟨hs.agrees _, fun _ => hs.power⟩ : InStep (CutInjects acts) s').agrees
  exact hinv.step hstep.1 (fun parsed count heq => ⟨parsed, count, heq ▸ hact⟩) hstep.2

end Cut

/-- Without an early rearm, while CPU3 runs both sides are bound in the session of the page.  CPU3
never receives a frame that is incomplete, malformed or of another session, and a damaged one only
if Linux was told to damage one; Linux never receives anything but good frames. -/
theorem both_sides_in_one_session {cfg : Config} {b : Cpu3.Build} {bk : Cpu3.Backend π}
    {s s' : Site π} {acts : List (CutAct π)} (hs : s.Start)
    (h : Trace (fun s act s' => s.NoEarlyRearm act ∧ CutStep cfg b bk s act s') s acts s') :
    (s'.power = .on → s'.cpu3.endpoint.identity = (some .cpu3, s'.generation) ∧
      s'.world.driver.shared.header = (protocolMagic, protocolVersion, s'.generation)) ∧
    (s'.world.driver.endpoint.role ≠ none →
      s'.world.driver.endpoint.identity = (some .linux, s'.generation) ∧
      s'.world.driver.shared.header = (protocolMagic, protocolVersion, s'.generation)) ∧
    (∀ p ret m, s'.phase = .handling p ret m →
      ret = ringOk ∨ ret = ringEmpty ∨ CutInjects acts ∧ ret = ringBadCrc) ∧
    (s'.world.driver.endpoint.role ≠ none → ∀ (p : Priority) message,
      (endpointReceive s'.world.driver.endpoint s'.world.driver.shared p message).ret = ringOk ∨
      (endpointReceive s'.world.driver.endpoint s'.world.driver.shared p message).ret =
        ringEmpty) := by
  have hagrees := hs.agrees_cut h
  refine ⟨fun hon => ⟨hagrees.bound hon, ?_⟩, fun hne => ⟨?_, ?_⟩, hagrees.phase,
    fun hne p message => hagrees.linux.receive_ret hne p message⟩
  · exact (hagrees.page (by rw [hon]; decide)).header
  · exact Prod.ext (hagrees.linux.plays.resolve_left hne) (hagrees.linux.generation hne)
  · exact (hagrees.linux.of_role hne).header

def quietBells : Doorbells := ⟨0, fun _ => 0, fun _ => 0⟩

/-- The board is brought up, stopped and rearmed, and has its next image. -/
def rearmedSite : List (SiteAct Unit) :=
  siteUp ++ [.linux (.stopStore true 4 300), .receive 0, .handle, .off, .registers 0 quietBells,
    .linux (.affinityWork affinityOff), .linux (.rearmStore true 5 affinityOff),
    .linux (.imageWrite 0 [1, 2, 3, 4])]

def comesUp : List (SiteAct Unit) :=
  [.shown, .boot false (), .sessionReady, .linux (.controlWork 500 (fun _ => 500) 1)]

/-- The board is started again, with the mailbox busy during the start. -/
def secondSession : List (CutAct Unit) :=
  rearmedSite.map .site ++
    .start true 5 affinityOff 0 400 [.registers 0 quietBells] [.registers 0 quietBells] ::
    comesUp.map .site

theorem both_sides_in_second_session :
    ∃ s, Trace (fun s act s' => s.NoEarlyRearm act ∧
        CutStep board Cpu3.stopImage Cpu3.noPeripherals s act s') darkSite secondSession s ∧
      s.generation = 2 ∧ s.cpu3.endpoint.identity = (some .cpu3, 2) ∧
      s.world.driver.endpoint.identity = (some .linux, 2) := by
  obtain ⟨s, htrace, htest⟩ := Trace.exists_of_guarded
    (Site.cutStep board Cpu3.stopImage Cpu3.noPeripherals) Site.NoEarlyRearm darkSite
    secondSession
    (fun s => s.power = .on && s.generation = 2 && s.world.driver.endpoint.role.isSome)
    (by decide +kernel)
  simp only [Bool.and_eq_true, decide_eq_true_eq] at htest
  obtain ⟨⟨hon, hgeneration⟩, hrole⟩ := htest
  obtain ⟨hcpu3, hlinux, -, -⟩ := both_sides_in_one_session darkSite_start htrace
  have hne : s.world.driver.endpoint.role ≠ none := Option.isSome_iff_ne_none.mp hrole
  exact ⟨s, htrace, hgeneration, hgeneration ▸ (hcpu3 hon).1, hgeneration ▸ (hlinux hne).1⟩

/-- A rearm in the lag, and a CPU3 that boots while the second start is about to write the page. -/
def earlyRearm : List (CutAct Unit) :=
  [.site (.linux (.imageWrite 0 [1, 2, 3, 4])), .site (.linux (.startStore true 5 affinityOff 0 100)),
    .site (.linux (.rearmStore true 5 affinityOff)), .site (.linux (.imageWrite 0 [1, 2, 3, 4])),
    .start true 5 affinityOff (-4) 200 [.shown, .boot false ()] []]

/-- CPU3 is bound to the first session, and the page is that of the second. -/
theorem early_rearm_splits_sessions :
    ∃ s, Trace (CutStep board Cpu3.stopImage Cpu3.noPeripherals) darkSite earlyRearm s ∧
      s.power = .on ∧ s.cpu3.endpoint.identity = (some .cpu3, 1) ∧
      s.world.driver.shared.header = (protocolMagic, protocolVersion, 2) := by
  obtain ⟨s, htrace, htest⟩ := Trace.exists_of_foldlM
    (Site.cutStep board Cpu3.stopImage Cpu3.noPeripherals) darkSite earlyRearm
    (fun s => decide (s.power = .on ∧ s.cpu3.endpoint.identity = (some .cpu3, 1) ∧
      s.world.driver.shared.header = (protocolMagic, protocolVersion, 2)))
    (by decide +kernel)
  exact ⟨s, htrace, of_decide_eq_true htest⟩

/-- A file is open in an ACTIVE session that Linux is bound in, or the session is OFFLINE. -/
theorem Site.Start.open_file {cfg : Config} {b : Cpu3.Build} {bk : Cpu3.Backend π} {s s' : Site π}
    {acts : List (SiteAct π)} (hs : s.Start) (h : Trace (SiteStep cfg b bk) s acts s')
    {file : UserFile} (hfile : file ∈ s'.world.files) :
    s'.world.driver.life.mailmsgState = .offline ∨
      (s'.world.driver.life.mailmsgState = .active ∧
        s'.world.driver.endpoint.role = some .linux) := by
  have hreach := Site.reachable hs h
  rcases hreach.filesInv.state (List.ne_nil_of_mem hfile) with hactive | hoffline
  · have hlive : s'.world.driver.session.state.Live := by
      show SessionState.Live s'.world.driver.life.mailmsgState
      rw [hactive]
      exact ⟨by decide, by decide⟩
    exact Or.inr ⟨hactive, congrArg Prod.fst (hreach.inv.live hlive).2.2⟩
  · exact Or.inl hoffline

/-- A read finds an OFFLINE session, an empty ring or a good frame of the session, and never reports
a damaged page.  `poll` announces exactly what a read would find. -/
theorem read_and_poll_on_open_file {cfg : Config} {b : Cpu3.Build} {bk : Cpu3.Backend π}
    {s s' : Site π} {acts : List (SiteAct π)} (hs : s.Start)
    (h : Trace (SiteStep cfg b bk) s acts s') {file : UserFile} (hfile : file ∈ s'.world.files)
    (nonblock copyFault : Bool) {d : Driver} (hd : s'.world.driver = d)
    (hclaim : (mailmsgUserClaimReader file d).1 = 0) :
    (d.life.mailmsgState = .offline ∧
      mailmsgUserReadTry nonblock copyFault file d = (.error (-enolink), d) ∧
      (mailmsgUserPoll file d).1 = epollHup + epollErr) ∨
    (d.life.mailmsgState = .active ∧ (d.shared.cpu3ToLinux file.channel).contents = [] ∧
      mailmsgUserReadTry nonblock copyFault file d =
        (if nonblock then .error (-eagain) else .block, d) ∧
      (mailmsgUserPoll file d).1 = 0) ∨
    (d.life.mailmsgState = .active ∧
      ∃ m q, (d.shared.cpu3ToLinux file.channel).contents = m :: q ∧
        m.OfSession False d.life.sessionGeneration ∧
        (mailmsgUserReadTry nonblock copyFault file d).1 =
          (if copyFault then .error (-efault) else .frame (userFrame file.channel m)) ∧
        ((mailmsgUserReadTry nonblock copyFault file d).2.shared.cpu3ToLinux
          file.channel).contents = q ∧
        (mailmsgUserPoll file d).1 = epollIn + epollRdNorm) := by
  subst hd
  have hpage := (hs.agrees_run h).linux
  rcases hs.open_file h hfile with hoffline | ⟨hactive, hrole⟩
  · refine Or.inl ⟨hoffline, ?_, userPoll_offline hoffline hclaim⟩
    simp only [mailmsgUserReadTry, mailmsgDataGateLocked, hoffline]
    rfl
  · have hpoll := userPoll_mask hpage hactive hrole hclaim
    cases hq : (s'.world.driver.shared.cpu3ToLinux file.channel).contents with
    | nil =>
      rw [if_pos hq] at hpoll
      exact Or.inr (Or.inl ⟨hactive, rfl, userReadTry_nil hpage hactive hrole _ _ hq, hpoll⟩)
    | cons m q =>
      rw [if_neg (by rw [hq]; exact List.cons_ne_nil m q)] at hpoll
      obtain ⟨hm, hread, hrest⟩ := userReadTry_cons hpage hactive hrole nonblock copyFault hq
      exact Or.inr (Or.inr ⟨hactive, m, q, rfl, hm, hread, hrest, hpoll⟩)

def controlFile : UserFile := ⟨1, 1, false, []⟩

def pingRecord : UserFrame := ⟨1, msgPing, 0, 4, fun _ => 0⟩

def pingWritten : List (SiteAct Unit) :=
  siteUp ++ [.linux (.userOpen 1 1 true),
    .linux (.userWrite controlFile userFrameBytes (some pingRecord))]

/-- CPU3 answered the PING: a read finds the ACK. -/
theorem read_and_poll_after_ping :
    ∃ s m q, Trace (SiteStep board Cpu3.stopImage Cpu3.noPeripherals) darkSite
        (pingWritten ++ [.receive 1, .handle]) s ∧
      (s.world.driver.shared.cpu3ToLinux 1).contents = m :: q ∧ m.OfSession False s.generation ∧
      (mailmsgUserReadTry true false controlFile s.world.driver).1 = .frame (userFrame 1 m) ∧
      (mailmsgUserPoll controlFile s.world.driver).1 = epollIn + epollRdNorm := by
  obtain ⟨s, htrace, htest⟩ := Trace.exists_of_foldlM
    (Site.step board Cpu3.stopImage Cpu3.noPeripherals) darkSite
    (pingWritten ++ [.receive 1, .handle])
    (fun s => controlFile ∈ s.world.files &&
      (mailmsgUserClaimReader controlFile s.world.driver).1 = 0 &&
      s.world.driver.life.mailmsgState = .active &&
      (s.world.driver.shared.cpu3ToLinux 1).contents.length = 2) (by decide +kernel)
  simp only [Bool.and_eq_true, decide_eq_true_eq] at htest
  obtain ⟨⟨⟨hfile, hclaim⟩, hactive⟩, hlength⟩ := htest
  rcases read_and_poll_on_open_file darkSite_start htrace hfile true false rfl hclaim with
    ⟨hoffline, -⟩ | ⟨-, hnil, -⟩ | ⟨-, m, q, hq, hm, hread, -, hpoll⟩
  · rw [hactive] at hoffline
    cases hoffline
  · rw [show (s.world.driver.shared.cpu3ToLinux 1).contents = [] from hnil] at hlength
    cases hlength
  · exact ⟨s, m, q, htrace, hq, hm, hread, hpoll⟩

/-- A write is refused for its arguments, finds an OFFLINE session or a full ring, or queues one
frame of the session.  Nothing else is ever reported. -/
theorem write_on_open_file {cfg : Config} {b : Cpu3.Build} {bk : Cpu3.Backend π}
    {s s' : Site π} {acts : List (SiteAct π)} (hs : s.Start)
    (h : Trace (SiteStep cfg b bk) s acts s') {file : UserFile} (hfile : file ∈ s'.world.files)
    (count : ℕ) (frame : Option UserFrame) {d : Driver} (hd : s'.world.driver = d) :
    (mailmsgUserWrite count frame file d = (-einval, d) ∧ (count ≠ userFrameBytes ∨
      ∃ f, frame = some f ∧ (f.priority ≠ channelWord file.channel ∨ 28#32 < f.length))) ∨
    (mailmsgUserWrite count frame file d = (-efault, d) ∧ frame = none) ∨
    (mailmsgUserWrite count frame file d = (-enolink, d) ∧ d.life.mailmsgState = .offline) ∨
    ((mailmsgUserWrite count frame file d).1 = -enospc ∧
      (d.shared.linuxToCpu3 file.channel).contents.length = 7 ∧
      (mailmsgUserWrite count frame file d).2.shared = d.shared) ∨
    ((mailmsgUserWrite count frame file d).1 = userFrameBytes ∧
      ∃ f m, frame = some f ∧ m.OfSession False d.life.sessionGeneration ∧
        m.type = f.type ∧ m.length = f.length ∧
        m.payload = copyPayload (some (List.ofFn f.payload)) f.length ∧
        ((mailmsgUserWrite count frame file d).2.shared.linuxToCpu3 file.channel).contents =
          (d.shared.linuxToCpu3 file.channel).contents ++ [m]) := by
  subst hd
  have hpage := (hs.agrees_run h).linux
  -- the cases are the checks of `mailmsg_user_write`, in its order
  by_cases hcount : count = userFrameBytes
  swap
  · exact Or.inl ⟨if_pos hcount, Or.inl hcount⟩
  subst hcount
  cases frame with
  | none => exact Or.inr (Or.inl ⟨rfl, rfl⟩)
  | some f =>
    by_cases hargs : f.priority ≠ channelWord file.channel ∨ 28#32 < f.length
    · refine Or.inl ⟨?_, Or.inr ⟨f, rfl, hargs⟩⟩
      simp only [mailmsgUserWrite, ne_eq, not_true_eq_false, if_false]
      exact if_pos hargs
    · refine Or.inr (Or.inr ?_)
      rcases hs.open_file h hfile with hoffline | ⟨hactive, hrole⟩
      · refine Or.inl ⟨?_, hoffline⟩
        simp only [mailmsgUserWrite, ne_eq, not_true_eq_false, if_false, mailmsgDataGateLocked,
          hoffline]
        rw [if_neg hargs]
        rfl
      · rw [not_or, not_not] at hargs
        have hlen : f.length ≤ 28#32 := by simpa using hargs.2
        have hne : s'.world.driver.endpoint.role ≠ none := by rw [hrole]; decide
        have hform := composeFrame_wellFormed (endpointSessionValid_ok.mp (hpage.valid hne)).2.1
          f.type hlen (some (List.ofFn f.payload))
        rw [hpage.generation hne] at hform
        rcases userWrite_active hpage hactive hrole hargs.1 hlen with
          ⟨hret, -, hcontents⟩ | ⟨hret, hfull, hshared⟩
        · exact Or.inr (Or.inr ⟨hret, f, _, rfl, Message.ofSession_seal hform, rfl, rfl, rfl,
            hcontents⟩)
        · exact Or.inr (Or.inl ⟨hret, hfull, hshared⟩)

theorem write_after_ping :
    ∃ s m, Trace (SiteStep board Cpu3.stopImage Cpu3.noPeripherals) darkSite pingWritten s ∧
      m.OfSession False s.generation ∧ m.type = msgPing ∧
      ((mailmsgUserWrite userFrameBytes (some pingRecord) controlFile
        s.world.driver).2.shared.linuxToCpu3 1).contents =
        (s.world.driver.shared.linuxToCpu3 1).contents ++ [m] := by
  obtain ⟨s, htrace, htest⟩ := Trace.exists_of_foldlM
    (Site.step board Cpu3.stopImage Cpu3.noPeripherals) darkSite pingWritten
    (fun s => controlFile ∈ s.world.files && s.world.driver.life.mailmsgState = .active &&
      (s.world.driver.shared.linuxToCpu3 1).contents.length = 1) (by decide +kernel)
  simp only [Bool.and_eq_true, decide_eq_true_eq] at htest
  obtain ⟨⟨hfile, hactive⟩, hlength⟩ := htest
  rcases write_on_open_file darkSite_start htrace hfile userFrameBytes (some pingRecord) rfl with
    ⟨-, hcount | ⟨f, hf, hargs⟩⟩ | ⟨-, hnone⟩ | ⟨-, hoffline⟩ | ⟨-, hfull, -⟩ |
    ⟨-, f, m, hf, hm, htype, -, -, hcontents⟩
  · exact absurd rfl hcount
  · obtain rfl := Option.some.inj hf
    exact absurd hargs (by decide)
  · cases hnone
  · rw [hactive] at hoffline
    cases hoffline
  · rw [show (s.world.driver.shared.linuxToCpu3 1).contents.length = 7 from hfull] at hlength
    cases hlength
  · obtain rfl := Option.some.inj hf
    exact ⟨s, m, htrace, hm, htype, hcontents⟩

end Lzamp.System
