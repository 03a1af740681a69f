import Lzamp.R1Amp.SessionRefinement

namespace Lzamp.R1Amp
open Mailmsg Lib

structure Session.Inv (s : Session) : Prop where
  unarmed : s.attempted = false → s.state = .unarmed
  live : s.state.Live → s.cpuOnRet = 0 ∧ s.generation ≠ 0 ∧ s.bound = (some .linux, s.generation)
  opened : s.state = .active ∨ s.state = .stopping ∨ s.state = .stopTimeout →
    s.seenOn = true ∧ s.peer = s.generation

theorem Session.Inv.expire {s : Session} (h : s.Inv) {seenOn : Bool}
    (hseen : s.seenOn = true → seenOn = true)
    (hstate : s.state = .starting ∨ s.state = .stopping) :
    Session.Inv { s with state := s.state.expired, seenOn := seenOn } := by
  have hlive : s.state.Live := by
    rcases hstate with hs | hs <;> rw [hs] <;> exact ⟨by decide, by decide⟩
  refine ⟨?_, fun _ => h.live hlive, ?_⟩
  · intro hatt
    exact absurd (h.unarmed hatt) hlive.1
  · intro hopen
    rcases hstate with hs | hs
    · simp [hs, SessionState.expired] at hopen
    · obtain ⟨hon, hpeer⟩ := h.opened (Or.inr (Or.inl hs))
      exact ⟨hseen hon, hpeer⟩

theorem Change.inv {s s' : Session} {label : Op × Output} (h : Change s label s') (hs : s.Inv) :
    s'.Inv := by
  cases h with
  | quiet _ => exact hs
  | seen _ => exact ⟨hs.unarmed, hs.live, fun ho => ⟨rfl, (hs.opened ho).2⟩⟩
  | offline _ hret hseen hlive =>
    refine ⟨fun hatt => absurd (hs.unarmed hatt) hlive.1, fun hl => absurd rfl hl.2, ?_⟩
    simp
  | timeout _ seenOn hseen hstate => exact hs.expire hseen hstate
  | ready _ hstate _ _ =>
    have hl : s.state.Live := by rw [hstate]; exact ⟨by decide, by decide⟩
    exact ⟨fun hatt => absurd (hs.unarmed hatt) hl.1, fun _ => hs.live hl, fun _ => ⟨rfl, rfl⟩⟩
  | refused _ hstate =>
    have hl : s.state.Live := by rw [hstate]; exact ⟨by decide, by decide⟩
    exact ⟨fun hatt => absurd (hs.unarmed hatt) hl.1, fun _ => hs.live hl,
      fun _ => hs.opened (Or.inr (Or.inl hstate))⟩
  | stop _ hstate =>
    have hl : s.state.Live := by rw [hstate]; exact ⟨by decide, by decide⟩
    exact ⟨fun hatt => absurd (hs.unarmed hatt) hl.1, fun _ => hs.live hl,
      fun _ => hs.opened (Or.inl hstate)⟩
  | rearm _ => exact ⟨fun _ => rfl, fun hl => absurd rfl hl.1, by simp [Session.rearmed]⟩
  | @start _ _ ret _ _ =>
    by_cases hret : ret = 0
    · subst hret
      exact ⟨fun h => by simp [Session.started] at h,
        fun _ => ⟨rfl, nextGeneration_ne_zero _, rfl⟩, by simp [Session.started]⟩
    · refine ⟨fun h => by simp [Session.started] at h, ?_, by simp [Session.started, hret]⟩
      intro hl
      exact absurd (by simp [Session.started, hret]) hl.1

theorem World.Probed.inv {w : World} (h : w.Probed) : w.driver.session.Inv := by
  have hs : w.driver.session = ⟨.unarmed, false, -eagain, false, 0, 0, (none, 0)⟩ := by
    simp only [Driver.session, h.life, h.endpoint, Lifecycle.probed, Endpoint.identity,
      Endpoint.zero]
  rw [hs]
  exact ⟨fun _ => rfl, fun hl => absurd rfl hl.1, by simp⟩

theorem session_inv {cfg : Config} {w₀ w : World} {labels : List (Op × Output)}
    (h₀ : w₀.Probed) (h : Trace (Step cfg) w₀ labels w) : w.driver.session.Inv :=
  Trace.invariant (I := fun w => w.driver.session.Inv)
    (fun _ _ _ hi hstep => (step_change hstep).inv hi) h h₀.inv

theorem Reachable.inv {cfg : Config} {w : World} (h : Reachable cfg w) : w.driver.session.Inv := by
  obtain ⟨w₀, labels, h₀, htrace⟩ := h
  exact session_inv h₀ htrace

def effectsOf (labels : List (Op × Output)) : List Effect := labels.flatMap fun l => l.2.effects

@[simp] theorem effectsOf_snoc (labels : List (Op × Output)) (l : Op × Output) :
    effectsOf (labels ++ [l]) = effectsOf labels ++ l.2.effects := by
  simp [effectsOf]

/-- The last CPU_ON call returned 0. -/
def Launched (es : List Effect) : Prop := ∃ pre post, es = pre ++ .cpuOn 0 :: post ∧ NoCpuOn post

/-- SESSION_READY for `generation`, received before the deadline. -/
structure ReadyReceipt (generation : U32) (frame : Message) (now deadline : U64) : Prop where
  type : frame.type = msgSessionReady
  length : 8#32 ≤ frame.length
  generation : payloadU32 frame.payload 0 = generation
  version : payloadU32 frame.payload 4 = protocolVersion
  in_time : timeBefore now deadline = true
  /-- Read as absolute times less than half the jiffies range apart. -/
  in_real_time : ∀ a b : ℕ, now = BitVec.ofNat 64 a → deadline = BitVec.ofNat 64 b →
    a < b + 2 ^ 63 → b ≤ a + 2 ^ 63 → a < b

/-- Since the last CPU_ON call, which returned 0, the session was confirmed in time. -/
def Established (generation : U32) (es : List Effect) : Prop :=
  ∃ pre mid post frame now deadline,
    es = pre ++ .cpuOn 0 :: mid ++ .received frame now deadline :: post ∧
    NoCpuOn mid ∧ NoCpuOn post ∧ ReadyReceipt generation frame now deadline

theorem Launched.append {es es' : List Effect} (h : Launched es) (h' : NoCpuOn es') :
    Launched (es ++ es') := by
  obtain ⟨pre, post, rfl, hpost⟩ := h
  exact ⟨pre, post ++ es', by simp, noCpuOn_append hpost h'⟩

theorem Established.append {generation : U32} {es es' : List Effect}
    (h : Established generation es) (h' : NoCpuOn es') : Established generation (es ++ es') := by
  obtain ⟨pre, mid, post, frame, now, deadline, rfl, hmid, hpost, hr⟩ := h
  exact ⟨pre, mid, post ++ es', frame, now, deadline, by simp, hmid, noCpuOn_append hpost h', hr⟩

theorem Launched.establish {es es' : List Effect} {generation : U32} {frame : Message}
    {now deadline : U64} (h : Launched es) (h' : NoCpuOn es')
    (hr : ReadyReceipt generation frame now deadline) :
    Established generation (es ++ (es' ++ [.received frame now deadline])) := by
  obtain ⟨pre, post, rfl, hpost⟩ := h
  exact ⟨pre, post ++ es', [], frame, now, deadline, by simp, noCpuOn_append hpost h',
    noCpuOn_nil, hr⟩

theorem readyReceipt_of {generation : U32} {frame : Message} {now deadline : U64}
    (hframe : isSessionReady generation frame = true) (htime : timeBefore now deadline = true) :
    ReadyReceipt generation frame now deadline := by
  simp only [isSessionReady, Bool.decide_and, Bool.and_eq_true, decide_eq_true_eq] at hframe
  refine ⟨hframe.1, hframe.2.1, hframe.2.2.1, hframe.2.2.2, htime, ?_⟩
  rintro a b rfl rfl hab hba
  rw [timeBefore_ofNat hab hba] at htime
  simpa using htime

/-- What the history holds in the states from which ACTIVE can be reached. -/
structure HistoryInv (es : List Effect) (s : Session) : Prop where
  starting : s.state = .starting → Launched es
  confirmed : s.state = .active ∨ s.state = .stopping → Established s.generation es

theorem Change.history {s s' : Session} {op : Op} {out : Output} {es : List Effect}
    (h : Change s (op, out) s') (hs : HistoryInv es s) : HistoryInv (es ++ out.effects) s' := by
  cases h with
  | quiet h => exact ⟨fun h' => (hs.starting h').append h, fun h' => (hs.confirmed h').append h⟩
  | seen h => exact ⟨fun h' => (hs.starting h').append h, fun h' => (hs.confirmed h').append h⟩
  | offline h _ _ _ => exact ⟨by simp, by simp⟩
  | timeout h seenOn _ hstate =>
    rcases hstate with hst | hst <;>
      exact ⟨by simp [hst, SessionState.expired], by simp [hst, SessionState.expired]⟩
  | ready h hstate hframe htime =>
    refine ⟨by simp [Session.ready], fun _ => ?_⟩
    exact (hs.starting hstate).establish h (readyReceipt_of hframe htime)
  | refused h hstate => exact ⟨by simp, fun _ => (hs.confirmed (Or.inr hstate)).append h⟩
  | stop h hstate => exact ⟨by simp, fun _ => (hs.confirmed (Or.inl hstate)).append h⟩
  | rearm _ => exact ⟨by simp [Session.rearmed], by simp [Session.rearmed]⟩
  | @start _ _ ret _ _ =>
    by_cases hret : ret = 0
    · subst hret
      refine ⟨fun _ => ⟨es ++ [.controlPageCleared], [], by simp, noCpuOn_nil⟩, ?_⟩
      simp [Session.started]
    · exact ⟨by simp [Session.started, hret], by simp [Session.started, hret]⟩

theorem history_inv {cfg : Config} {w₀ w : World} {labels : List (Op × Output)}
    (h₀ : w₀.Probed) (h : Trace (Step cfg) w₀ labels w) :
    HistoryInv (effectsOf labels) w.driver.session := by
  refine Trace.history_invariant
    (I := fun labels w => HistoryInv (effectsOf labels) w.driver.session) ?_ ?_ h
  · have hs : w₀.driver.session.state = .unarmed := by
      simp only [Driver.session, h₀.life, Lifecycle.probed]
    exact ⟨by simp [hs], by simp [hs]⟩
  · intro labels w label w' _ hi hstep
    rw [effectsOf_snoc]
    exact (step_change hstep).history hi

/-- The states a session ends in. -/
def SessionState.Terminal (s : SessionState) : Prop :=
  s = .startTimeout ∨ s = .stopTimeout ∨ s = .offline

def SuccessfulRearm (label : Op × Output) : Prop :=
  ∃ count affinity, label.1 = .rearmStore true count affinity ∧ label.2.ret = some (count : Int)

def SuccessfulStart (label : Op × Output) : Prop :=
  ∃ count affinity now, label.1 = .startStore true count affinity 0 now ∧
    label.2.ret = some (count : Int)

theorem Change.leave_terminal {s s' : Session} {label : Op × Output} (h : Change s label s')
    (hs : s.Inv) (hterm : s.state.Terminal) (hleft : ¬ s'.state.Terminal) :
    SuccessfulRearm label ∧ s'.state = .unarmed := by
  cases h with
  | quiet _ => exact absurd hterm hleft
  | seen _ => exact absurd hterm hleft
  | offline _ _ _ _ => exact absurd (Or.inr (Or.inr rfl)) hleft
  | timeout _ _ _ hstate =>
    rcases hstate with hst | hst <;> rw [hst] at hterm <;> simp [SessionState.Terminal] at hterm
  | ready _ hst _ _ => rw [hst] at hterm; simp [SessionState.Terminal] at hterm
  | refused _ hst => rw [hst] at hterm; simp [SessionState.Terminal] at hterm
  | stop _ hst => rw [hst] at hterm; simp [SessionState.Terminal] at hterm
  | rearm _ => exact ⟨⟨_, _, rfl, rfl⟩, rfl⟩
  | start hatt =>
    rw [hs.unarmed hatt] at hterm
    simp [SessionState.Terminal] at hterm

theorem Change.leave_unarmed {s s' : Session} {label : Op × Output} (h : Change s label s')
    (hunarmed : s.state = .unarmed) (hleft : s'.state ≠ .unarmed) :
    SuccessfulStart label ∧ s'.generation ≠ s.generation := by
  cases h with
  | quiet _ => exact absurd hunarmed hleft
  | seen _ => exact absurd hunarmed hleft
  | offline _ _ _ hlive => exact absurd hunarmed hlive.1
  | timeout _ _ _ hstate => rcases hstate with hst | hst <;> rw [hst] at hunarmed <;> cases hunarmed
  | ready _ hst _ _ => rw [hst] at hunarmed; cases hunarmed
  | refused _ hst => rw [hst] at hunarmed; cases hunarmed
  | stop _ hst => rw [hst] at hunarmed; cases hunarmed
  | rearm _ => exact absurd rfl hleft
  | @start _ _ ret _ _ =>
    by_cases hret : ret = 0
    · subst hret
      exact ⟨⟨_, _, _, rfl, rfl⟩, nextGeneration_ne _⟩
    · exact absurd (by simp [Session.started, hret]) hleft

/-- From a terminal state ACTIVE is reached only through a rearm and then a new session. -/
theorem reopened {cfg : Config} {w w₁ : World} {labels : List (Op × Output)}
    (hinv : w.driver.session.Inv) (hterm : w.driver.life.mailmsgState.Terminal)
    (h : Trace (Step cfg) w labels w₁) (hactive : w₁.driver.life.mailmsgState = .active) :
    ∃ pre rearm mid start post, ∃ v v' : World,
      labels = pre ++ rearm :: mid ++ start :: post ∧ SuccessfulRearm rearm ∧
      SuccessfulStart start ∧ Step cfg v start v' ∧ Trace (Step cfg) v' post w₁ ∧
      v'.driver.life.sessionGeneration ≠ v.driver.life.sessionGeneration := by
  have hnot : ¬ w₁.driver.life.mailmsgState.Terminal := by
    rw [hactive]
    simp [SessionState.Terminal]
  obtain ⟨pre, rearm, rest, u, u', rfl, hpre, hu, hrearm, hu', hrest⟩ :=
    h.exists_exit (P := fun w => w.driver.life.mailmsgState.Terminal) hterm hnot
  have hinv_u : u.driver.session.Inv :=
    hpre.invariant (I := fun w => w.driver.session.Inv)
      (fun _ _ _ hi hstep => (step_change hstep).inv hi) hinv
  obtain ⟨hok, hunarmed⟩ := (step_change hrearm).leave_terminal hinv_u hu hu'
  obtain ⟨mid, start, post, v, v', rfl, -, hv, hstart, hv', hpost⟩ :=
    hrest.exists_exit (P := fun w => w.driver.life.mailmsgState = .unarmed) hunarmed
      (by rw [hactive]; decide)
  obtain ⟨hlaunch, hgen⟩ := (step_change hstart).leave_unarmed hv hv'
  exact ⟨pre, rearm, mid, start, post, v, v', by simp, hok, hlaunch, hstart, hpost, hgen⟩

theorem lifecycle_safety {cfg : Config} {w₀ w : World} {labels : List (Op × Output)}
    (h₀ : w₀.Probed) (h : Trace (Step cfg) w₀ labels w) :
    (w.driver.life.mailmsgState = .active →
      w.driver.life.cpuOnRet = 0 ∧ w.driver.life.affinitySeenOn = true ∧
      w.driver.life.peerGeneration = w.driver.life.sessionGeneration ∧
      w.driver.life.sessionGeneration = w.driver.endpoint.generation ∧
      w.driver.endpoint.generation ≠ 0 ∧
      Established w.driver.endpoint.generation (effectsOf labels)) ∧
    (w.driver.life.mailmsgState.Terminal → ∀ later w₁, Trace (Step cfg) w later w₁ →
      w₁.driver.life.mailmsgState = .active →
      ∃ pre rearm mid start post, ∃ v v' : World,
        later = pre ++ rearm :: mid ++ start :: post ∧ SuccessfulRearm rearm ∧
        SuccessfulStart start ∧ Step cfg v start v' ∧ Trace (Step cfg) v' post w₁ ∧
        v'.driver.life.sessionGeneration ≠ v.driver.life.sessionGeneration) := by
  have hinv := session_inv h₀ h
  refine ⟨fun hactive => ?_, fun hterm later w₁ hlater => reopened hinv hterm hlater⟩
  have hlive : w.driver.session.state.Live := by
    change w.driver.life.mailmsgState.Live
    rw [hactive]
    exact ⟨by decide, by decide⟩
  obtain ⟨hret, hgen, hbound⟩ := hinv.live hlive
  obtain ⟨hseen, hpeer⟩ := hinv.opened (Or.inl hactive)
  have hsame : w.driver.endpoint.generation = w.driver.life.sessionGeneration :=
    congrArg Prod.snd hbound
  rw [hsame]
  exact ⟨hret, hseen, hpeer, rfl, hgen, (history_inv h₀ h).confirmed (Or.inl hactive)⟩

/-- The first session of the board: its run reaches ACTIVE, and the theorem applies to it. -/
theorem lifecycle_safety_first_session :
    ∃ labels w, Trace (Step board) probedWorld labels w ∧
      w.driver.life.mailmsgState = .active ∧ w.driver.life.cpuOnRet = 0 ∧
      Established w.driver.endpoint.generation (effectsOf labels) := by
  obtain ⟨labels, w, hrun, htest⟩ := exists_run board probedWorld bringUp
    (fun r => decide (r.2.driver.life.mailmsgState = .active)) (by decide +kernel)
  have hactive : w.driver.life.mailmsgState = .active := of_decide_eq_true htest
  obtain ⟨hret, -, -, -, -, hest⟩ := (lifecycle_safety probedWorld_probed hrun).1 hactive
  exact ⟨labels, w, hrun, hactive, hret, hest⟩

end Lzamp.R1Amp
