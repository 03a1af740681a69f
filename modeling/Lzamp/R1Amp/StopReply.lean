import Lzamp.R1Amp.LifecycleSafety

namespace Lzamp.R1Amp
open Mailmsg Lib

/-- The stop that `life₀` is in goes on with its reply, result and deadline unchanged. -/
structure ReplyPhase (life₀ life : Lifecycle) : Prop where
  state : life.mailmsgState = .stopping
  replyType : life.stopReplyType = life₀.stopReplyType
  result : life.stopResult = life₀.stopResult
  deadline : life.lifecycleDeadline = life₀.lifecycleDeadline
  request : life.stopRequestSequence = life₀.stopRequestSequence

/-- A queued frame that the reply phase can ignore: not yet committed, of another generation, or
sound and no reply to this stop. -/
def Ignorable (generation sequence : U32) (m : Message) : Prop :=
  m.commit ≠ m.sequence ∨
    (frameCheck m = ringOk ∧ (m.generation ≠ generation ∨ isStopReply sequence m = false))

/-- What `control_work` must find for the settled stop to stay settled. -/
structure NoFurtherReply (d : Driver) : Prop where
  session : endpointSessionValid d.endpoint d.shared = endpointOk
  inRange : (d.shared.cpu3ToLinux prioCritical).InRange
  frames : ∀ m ∈ (d.shared.cpu3ToLinux prioCritical).contents,
    Ignorable d.endpoint.generation d.life.stopRequestSequence m

/-- The condition on one step: it restricts `control_work` after STOP_READY only. -/
def RepliesSettled (w : World) (label : Op × Output) : Prop :=
  w.driver.life.mailmsgState = .stopping → w.driver.life.stopReplyType = msgStopReady →
    ∀ start clock fuel, label.1 = .controlWork start clock fuel → NoFurtherReply w.driver

/-- The phase ends in OFFLINE or STOP_TIMEOUT; a rearm passes through OFFLINE in one lock
section. -/
def LeavesStop (u : World) (label : Op × Output) (v : World) : Prop :=
  v.driver.life.mailmsgState = .offline ∨ v.driver.life.mailmsgState = .stopTimeout ∨
    ∃ count affinity, label.1 = .rearmStore true count affinity ∧
      (refreshAffinityLocked affinity u.driver).life.mailmsgState = .offline ∧
      v.driver = rearmed (refreshAffinityLocked affinity u.driver)

theorem ReplyPhase.of_life_eq {life₀ life life' : Lifecycle} (h : ReplyPhase life₀ life)
    (heq : life' = life) : ReplyPhase life₀ life' := heq ▸ h

section Loop

variable (cfg : Config) {life₀ : Lifecycle}

theorem receive_ignorable {d : Driver} (hrole : d.endpoint.role = some .linux)
    (h : NoFurtherReply d) :
    let r := endpointReceive d.endpoint d.shared prioCritical Message.zero
    r.ret = ringEmpty ∨ r.ret = ringIncomplete ∨
      (NoFurtherReply (d.received r) ∧ (r.ret = endpointStaleFrame ∨
        (r.ret = ringOk ∧ isStopReply d.life.stopRequestSequence r.message = false))) := by
  intro r
  cases hc : (d.shared.cpu3ToLinux prioCritical).contents with
  | nil =>
    left
    exact congrArg Received.ret (endpointReceive_nil hrole h.session h.inRange hc Message.zero)
  | cons m q =>
    by_cases hcommit : m.commit = m.sequence
    · obtain ⟨hret, hmsg, hshared, htail, hrange⟩ :=
        endpointReceive_cons hrole h.session h.inRange hc hcommit Message.zero
      obtain ⟨hcheck, hmatch⟩ := (h.frames m (by rw [hc]; simp)).resolve_left (not_not.mpr hcommit)
      have hid : (d.received r).endpoint.identity = d.endpoint.identity :=
        endpointReceive_identity _ _ _ _
      have hring : (d.received r).shared.cpu3ToLinux prioCritical =
          (d.shared.cpu3ToLinux prioCritical).released := by
        change r.shared.cpu3ToLinux prioCritical = _
        rw [hshared]
        simp [Shared.setRx, Shared.rx]
      refine Or.inr (Or.inr ⟨⟨?_, ?_, ?_⟩, ?_⟩)
      · exact (endpointSessionValid_congr hid (endpointReceive_header _ _ _ _)).trans h.session
      · rw [hring]
        exact hrange
      · rw [hring, show (d.received r).endpoint.generation = _ from congrArg Prod.snd hid]
        intro m' hm'
        rw [show (d.shared.cpu3ToLinux prioCritical).released.contents = q from htail] at hm'
        exact h.frames m' (by rw [hc]; exact List.mem_cons_of_mem _ hm')
      · rw [hret, hmsg, hcheck]
        by_cases hg : m.generation = d.endpoint.generation
        · refine Or.inr ⟨?_, hmatch.resolve_left (not_not.mpr hg)⟩
          rw [receiveResult, if_neg (fun hn => hn.2 hg)]
        · left
          rw [receiveResult, if_pos ⟨rfl, hg⟩]
    · right
      left
      exact (endpointReceive_uncommitted hrole h.session h.inRange hc hcommit Message.zero).1

theorem controlRound_settled {now rearm : U64} {d : Driver} (hrole : d.endpoint.role = some .linux)
    (hphase : ReplyPhase life₀ d.life) (h : NoFurtherReply d) :
    (∃ d' es, controlRound cfg now rearm d = .again d' es ∧ d'.endpoint.role = some .linux ∧
      ReplyPhase life₀ d'.life ∧ NoFurtherReply d') ∨
    (∃ d' es, controlRound cfg now rearm d = .leave d' es ∧
      (ReplyPhase life₀ d'.life ∨ d'.life.mailmsgState = .stopTimeout)) := by
  have hid : (d.received (endpointReceive d.endpoint d.shared prioCritical
      Message.zero)).endpoint.role = some .linux :=
    (congrArg Prod.fst (endpointReceive_identity _ _ _ _)).trans hrole
  unfold controlRound
  dsimp only
  rcases receive_ignorable hrole h with hret | hret | ⟨hnext, hret | ⟨hret, hreply⟩⟩
  · rw [if_pos (Or.inl hret)]
    exact Or.inr ⟨_, _, rfl, Or.inl hphase⟩
  · rw [if_pos (Or.inr hret)]
    exact Or.inr ⟨_, _, rfl, Or.inl hphase⟩
  · rw [if_neg (by rw [hret]; decide), if_pos hret]
    exact Or.inl ⟨_, _, rfl, hid, hphase, hnext⟩
  · rw [if_neg (by rw [hret]; decide), if_neg (by rw [hret]; decide),
      if_neg (not_not.mpr hret)]
    split_ifs with htime
    · refine Or.inr ⟨_, _, rfl, Or.inr ?_⟩
      simp only [mailmsgSetTimeoutLocked, Driver.received, hphase.state]
    · have hstate : (d.received (endpointReceive d.endpoint d.shared prioCritical
          Message.zero)).life.mailmsgState ≠ .starting := by
        change d.life.mailmsgState ≠ _
        rw [hphase.state]
        decide
      rw [controlFrame, if_neg hstate, if_pos (by
        change (!isStopReply d.life.stopRequestSequence _) = true
        rw [hreply]
        rfl)]
      exact Or.inl ⟨_, _, rfl, hid, hphase, hnext⟩

theorem controlLoop_settled {clock : ℕ → U64} {fuel i : ℕ} {d d' : Driver} {log es : List Effect}
    (hrole : d.endpoint.role = some .linux) (hphase : ReplyPhase life₀ d.life)
    (h : NoFurtherReply d) (hrun : controlLoop cfg clock fuel i d log = some (d', es)) :
    ReplyPhase life₀ d'.life ∨ d'.life.mailmsgState = .stopTimeout := by
  refine controlLoop_rule
    (P := fun d _ => d.endpoint.role = some .linux ∧ ReplyPhase life₀ d.life ∧ NoFurtherReply d)
    (Q := fun d' _ => ReplyPhase life₀ d'.life ∨ d'.life.mailmsgState = .stopTimeout) ?_ ?_
    ⟨hrole, hphase, h⟩ hrun
  · rintro now rearm d₁ - d₂ es₂ ⟨hrole₁, hphase₁, h₁⟩ hround
    rcases controlRound_settled cfg hrole₁ hphase₁ h₁ with
      ⟨d₃, es₃, hround₃, hnext⟩ | ⟨d₃, es₃, hround₃, -⟩
    · cases hround₃.symm.trans hround
      exact hnext
    · cases hround₃.symm.trans hround
  · rintro now rearm d₁ - d₂ es₂ ⟨hrole₁, hphase₁, h₁⟩ hround
    rcases controlRound_settled cfg hrole₁ hphase₁ h₁ with
      ⟨d₃, es₃, hround₃, -⟩ | ⟨d₃, es₃, hround₃, hend⟩
    · cases hround₃.symm.trans hround
    · cases hround₃.symm.trans hround
      exact hend

end Loop

theorem setTimeout_stopping {d : Driver} (h : d.life.mailmsgState = .stopping) :
    (mailmsgSetTimeoutLocked d).life.mailmsgState = .stopTimeout := by
  simp only [mailmsgSetTimeoutLocked, h]

theorem refreshAffinity_settled {life₀ : Lifecycle} (a : Int) {d : Driver}
    (h : ReplyPhase life₀ d.life) :
    ReplyPhase life₀ (refreshAffinityLocked a d).life ∨
      (refreshAffinityLocked a d).life.mailmsgState = .offline := by
  rcases refreshAffinity_cases a d with heq | ⟨-, -, -, -, heq⟩
  · rw [heq]
    exact Or.inl ⟨h.state, h.replyType, h.result, h.deadline, h.request⟩
  · rw [heq]
    exact Or.inr rfl

theorem affinityWork_settled {life₀ : Lifecycle} (a : Int) {d : Driver}
    (h : ReplyPhase life₀ d.life) :
    ReplyPhase life₀ (affinityWork a d).life ∨
      (affinityWork a d).life.mailmsgState = .offline := by
  -- the sample is taken of the driver with the monitor's counter stepped
  have hsample := refreshAffinity_settled a (d := { d with life := { d.life with
    affinityMonitorCount := d.life.affinityMonitorCount + 1 } })
    ⟨h.state, h.replyType, h.result, h.deadline, h.request⟩
  unfold affinityWork
  split
  case h_4 =>
    dsimp only
    split_ifs
    · exact hsample.imp (fun h => ⟨h.state, h.replyType, h.result, h.deadline, h.request⟩) id
    · exact hsample
  all_goals simp_all [h.state]

theorem refreshAffinity_off {d : Driver} (hret : d.life.cpuOnRet = 0)
    (hseen : d.life.affinitySeenOn = true) (hlive : d.life.mailmsgState.Live) :
    (refreshAffinityLocked affinityOff d).life.mailmsgState = .offline := by
  have hcond : (sampleAffinity affinityOff d).life.cpuOnRet = 0 ∧
      (sampleAffinity affinityOff d).life.affinitySeenOn = true ∧ affinityOff = affinityOff :=
    ⟨hret, by simp [sampleAffinity, hseen], rfl⟩
  have hlive' : (sampleAffinity affinityOff d).life.mailmsgState.Live := hlive
  rw [refreshAffinityLocked, if_pos hcond, markOffline_of_live hlive']
  rfl

theorem rearmStore_settled {cfg : Config} {life₀ : Lifecycle} {w : World}
    (hinv : w.driver.session.Inv) (h : ReplyPhase life₀ w.driver.life) (isRearm : Bool)
    (count : ℕ) (affinity : Int) (out : Output) :
    ReplyPhase life₀ (rearmStore cfg isRearm count affinity w.driver).driver.life ∨
      LeavesStop w (.rearmStore isRearm count affinity, out)
        (w.withDriver (rearmStore cfg isRearm count affinity w.driver).driver) := by
  have hlive : w.driver.session.state.Live := by
    change w.driver.life.mailmsgState.Live
    rw [h.state]
    exact ⟨by decide, by decide⟩
  have hseen := (hinv.opened (Or.inr (Or.inl h.state))).1
  have hret := (hinv.live hlive).1
  unfold rearmStore
  dsimp only
  split_ifs with htext hatt hopen hops hoff hbell
  · exact Or.inl h
  · exact Or.inl h
  · exact Or.inl h
  · exact Or.inl h
  · exact (refreshAffinity_settled affinity h).imp id Or.inl
  all_goals
    have haff : affinity = affinityOff := (affinityState_refresh affinity w.driver).symm.trans
      (not_not.mp hoff)
    have hoffline := refreshAffinity_off hret hseen hlive
    rw [← haff] at hoffline
  · exact Or.inr (Or.inl hoffline)
  · have hrearm : isRearm = true := by simpa using htext
    subst hrearm
    exact Or.inr (Or.inr (Or.inr ⟨count, affinity, rfl, hoffline, rfl⟩))

theorem step_settled {cfg : Config} {life₀ : Lifecycle} {u v : World} {label : Op × Output}
    (hinv : u.driver.session.Inv) (hphase : ReplyPhase life₀ u.driver.life)
    (hready : life₀.stopReplyType = msgStopReady)
    (hsettled : RepliesSettled u label) (h : Step cfg u label v) :
    ReplyPhase life₀ v.driver.life ∨ LeavesStop u label v := by
  obtain ⟨op, out⟩ := label
  have hlive : u.driver.session.state.Live := by
    change u.driver.life.mailmsgState.Live
    rw [hphase.state]
    exact ⟨by decide, by decide⟩
  have hatt : u.driver.life.cpuOnAttempted = true := by
    by_contra hne
    exact hlive.1 (hinv.unarmed (Bool.eq_false_iff.mpr hne))
  have hrole : u.driver.endpoint.role = some .linux := congrArg Prod.fst (hinv.live hlive).2.2
  -- the data plane never writes the lifecycle fields, so only the lifecycle operations are left
  cases hop : op.isLifecycle with
  | false => exact Or.inl (hphase.of_life_eq (exec_dataPlane hop h).keeps.life)
  | true =>
    cases op with
    | imageWrite off buf =>
      cases h
      -- CPU_ON was attempted in this session, so the image and the start are refused
      simp only [imageWrite, hatt, if_true]
      exact Or.inl hphase
    | startStore isStart count affinity cpuOn now =>
      cases h
      simp only [startStore, hatt, if_true]
      split_ifs <;> exact Or.inl hphase
    | rearmStore isRearm count affinity =>
      cases h
      exact rearmStore_settled hinv hphase isRearm count affinity _
    | stopStore isStop count now =>
      cases h
      simp only [mailmsgStopStore, hphase.state]
      split_ifs <;> first | exact Or.inl hphase | contradiction
    | controlWork start clock fuel =>
      -- the worker is the one operation that reads replies: this is where the hypothesis is used
      have hcond := hsettled hphase.state (hphase.replyType.trans hready) start clock fuel rfl
      simp only [Step, exec, Option.map_eq_some_iff] at h
      obtain ⟨r, hr, heq⟩ := h
      cases heq
      unfold mailmsgControlWork at hr
      split_ifs at hr with hstate htime
      · cases hr
        exact Or.inl hphase
      · cases hr
        exact Or.inr (Or.inr (Or.inl (setTimeout_stopping hphase.state)))
      · exact (controlLoop_settled cfg hrole hphase hcond hr).imp id fun h => Or.inr (Or.inl h)
    | lifecycleTimeoutWork now affinity =>
      cases h
      change ReplyPhase life₀ (mailmsgLifecycleTimeoutWork now affinity u.driver).life ∨
        LeavesStop u _ (u.withDriver (mailmsgLifecycleTimeoutWork now affinity u.driver))
      unfold mailmsgLifecycleTimeoutWork
      dsimp only
      -- after STOP_READY the deadline samples the affinity once more before it gives up
      split_ifs with h1 h2 h3 h4
      · exact Or.inl hphase
      · exact Or.inl hphase
      · exact Or.inr (Or.inl h4)
      · rcases refreshAffinity_settled affinity hphase with hkeep | hoff
        · exact Or.inr (Or.inr (Or.inl (setTimeout_stopping hkeep.state)))
        · exact absurd hoff h4
      · exact absurd ⟨hphase.state, hphase.replyType.trans hready⟩ h3
    | affinityWork affinity =>
      cases h
      change ReplyPhase life₀ (affinityWork affinity u.driver).life ∨
        LeavesStop u _ (u.withDriver (affinityWork affinity u.driver))
      exact (affinityWork_settled affinity hphase).imp id Or.inl
    | affinityStateShow affinity =>
      cases h
      change ReplyPhase life₀ (affinityStateShow cfg affinity u.driver).driver.life ∨
        LeavesStop u _ (u.withDriver (affinityStateShow cfg affinity u.driver).driver)
      unfold affinityStateShow
      split_ifs
      · exact Or.inl hphase
      · exact (refreshAffinity_settled affinity hphase).imp id Or.inl
    | _ => simp [Op.isLifecycle] at hop

/-- The states between the end of a stop and the next session. -/
def SessionState.Closed (s : SessionState) : Prop := s = .offline ∨ s = .stopTimeout ∨ s = .unarmed

theorem Change.closed {s s' : Session} {label : Op × Output} (h : Change s label s')
    (hs : s.state.Closed) (hno : ¬ SuccessfulStart label) : s'.state.Closed := by
  have hne : s.state ≠ .starting ∧ s.state ≠ .stopping ∧ s.state ≠ .active := by
    rcases hs with h | h | h <;> rw [h] <;> decide
  cases h with
  | quiet _ => exact hs
  | seen _ => exact hs
  | offline _ _ _ _ => exact Or.inl rfl
  | timeout _ _ _ hstate => exact absurd hstate (by tauto)
  | ready _ hstate _ _ => exact absurd hstate hne.1
  | refused _ hstate => exact absurd hstate hne.2.1
  | stop _ hstate => exact absurd hstate hne.2.2
  | rearm _ => exact Or.inr (Or.inr rfl)
  | @start _ _ ret _ _ =>
    by_cases hret : ret = 0
    · subst hret
      exact absurd ⟨_, _, _, rfl, rfl⟩ hno
    · exact Or.inr (Or.inr (by simp [Session.started, hret]))

theorem LeavesStop.closed {u v : World} {label : Op × Output} (h : LeavesStop u label v) :
    v.driver.life.mailmsgState.Closed := by
  rcases h with h | h | ⟨_, _, -, -, h⟩
  · exact Or.inl h
  · exact Or.inr (Or.inl h)
  · rw [h]
    exact Or.inr (Or.inr rfl)

theorem closed_run {cfg : Config} {v w : World} {labels : List (Op × Output)}
    (h : Trace (Step cfg) v labels w) (hv : v.driver.life.mailmsgState.Closed)
    (hno : ∀ l ∈ labels, ¬ SuccessfulStart l) : w.driver.life.mailmsgState.Closed := by
  induction h with
  | nil => exact hv
  | cons head _ ih =>
    refine ih ((step_change head).closed hv (hno _ (by simp))) ?_
    intro l hl
    exact hno l (List.mem_cons_of_mem _ hl)

theorem controlWork_of_closed {cfg : Config} {d : Driver} (h : d.life.mailmsgState.Closed)
    (start : U64) (clock : ℕ → U64) (fuel : ℕ) :
    mailmsgControlWork cfg start clock fuel d = some (d, []) := by
  rw [mailmsgControlWork, if_pos]
  rcases h with h | h | h <;> rw [h] <;> decide

/-- Once STOP_READY is accepted and while `control_work` finds no further reply, the reply, result
and deadline of the stop stand, and STOPPING is left only to OFFLINE or STOP_TIMEOUT.  From there
`control_work` touches nothing until a new session is started. -/
theorem stop_ready_settles {cfg : Config} {w₀ w : World} {labels : List (Op × Output)}
    (h₀ : Reachable cfg w₀) (hstop : w₀.driver.life.mailmsgState = .stopping)
    (hready : w₀.driver.life.stopReplyType = msgStopReady)
    (h : Trace (fun u label v => RepliesSettled u label ∧ Step cfg u label v) w₀ labels w) :
    ReplyPhase w₀.driver.life w.driver.life ∨
      ∃ pre label post u v, labels = pre ++ label :: post ∧ Trace (Step cfg) w₀ pre u ∧
        ReplyPhase w₀.driver.life u.driver.life ∧ Step cfg u label v ∧ LeavesStop u label v ∧
        Trace (Step cfg) v post w ∧
        ((∀ l ∈ post, ¬ SuccessfulStart l) → w.driver.life.mailmsgState.Closed ∧
          ∀ start clock fuel,
            mailmsgControlWork cfg start clock fuel w.driver = some (w.driver, [])) := by
  by_cases hw : ReplyPhase w₀.driver.life w.driver.life
  · exact Or.inl hw
  right
  have hphase₀ : ReplyPhase w₀.driver.life w₀.driver.life := ⟨hstop, rfl, rfl, rfl, rfl⟩
  obtain ⟨pre, label, post, u, v, hlabels, hpre, hu, ⟨hsettled, hstep⟩, hv, hpost⟩ :=
    h.exists_exit (P := fun w => ReplyPhase w₀.driver.life w.driver.life) hphase₀ hw
  have hinv : u.driver.session.Inv :=
    hpre.of_restricted.invariant (I := fun w => w.driver.session.Inv)
      (fun _ _ _ hi hs => (step_change hs).inv hi) h₀.inv
  have hleaves := (step_settled hinv hu hready hsettled hstep).resolve_left hv
  refine ⟨pre, label, post, u, v, hlabels, hpre.of_restricted, hu, hstep, hleaves,
    hpost.of_restricted, fun hno => ?_⟩
  have hclosed := closed_run hpost.of_restricted hleaves.closed hno
  exact ⟨hclosed, controlWork_of_closed hclosed⟩

def stopAcknowledged : World :=
  runWorld board probedWorld (bringUp ++ [.stopStore true 4 300,
    .peer (replyPage 1 1 [replyFrame msgStopReady 2 1 0]) 0, .controlWork 400 (fun _ => 400) 1])

/-- The same session with a PONG queued behind the accepted STOP_READY. -/
def pongQueued : World :=
  runWorld board probedWorld (bringUp ++ [.stopStore true 4 300,
    .peer (replyPage 1 1 [replyFrame msgStopReady 2 1 0]) 0, .controlWork 400 (fun _ => 400) 1,
    .peer (replyPage 1 2 [replyFrame msgPong 3 0 0]) 0])

theorem pongQueued_noFurtherReply : NoFurtherReply pongQueued.driver where
  session := by decide +kernel
  inRange := by decide +kernel
  frames := by
    have hall : (pongQueued.driver.shared.cpu3ToLinux prioCritical).contents.all (fun m =>
        frameCheck m = ringOk && !isStopReply pongQueued.driver.life.stopRequestSequence m) =
          true := by
      decide +kernel
    intro m hm
    have hm' := List.all_eq_true.mp hall m hm
    rw [Bool.and_eq_true, decide_eq_true_iff, Bool.not_eq_true'] at hm'
    exact .inr ⟨hm'.1, .inr hm'.2⟩

/-- `control_work` takes the PONG, CPU3 goes off and the monitor sees it: the stop ends in OFFLINE
with result 0. -/
theorem stop_ready_settles_offline :
    ∃ labels w, labels.map Prod.fst =
        [Op.controlWork 450 (fun _ => 450) 2, .affinityWork affinityOff] ∧
      Trace (fun u label v => RepliesSettled u label ∧ Step board u label v) pongQueued labels w ∧
      (w.driver.shared.cpu3ToLinux prioCritical).contents = [] ∧
      w.driver.life.mailmsgState = .offline ∧ w.driver.life.stopResult = 0 ∧
      (ReplyPhase pongQueued.driver.life w.driver.life ∨
        ∃ pre label post u v, labels = pre ++ label :: post ∧
          Trace (Step board) pongQueued pre u ∧
          ReplyPhase pongQueued.driver.life u.driver.life ∧ Step board u label v ∧
          LeavesStop u label v ∧ Trace (Step board) v post w ∧
          ((∀ l ∈ post, ¬ SuccessfulStart l) → w.driver.life.mailmsgState.Closed ∧
            ∀ start clock fuel,
              mailmsgControlWork board start clock fuel w.driver = some (w.driver, []))) := by
  have hoff : (exec board pongQueued (.controlWork 450 (fun _ => 450) 2)).any (fun r =>
      let d := affinityWork affinityOff r.2.driver
      (d.shared.cpu3ToLinux prioCritical).contents = [] && d.life.mailmsgState = .offline &&
        d.life.stopResult = 0) = true := by
    decide +kernel
  obtain ⟨⟨out, u⟩, hwork, htest⟩ := (Option.any_eq_true _ _).mp hoff
  simp only [Bool.and_eq_true, decide_eq_true_iff] at htest
  refine ⟨[(.controlWork 450 (fun _ => 450) 2, out), (.affinityWork affinityOff, .silent)],
    u.withDriver (affinityWork affinityOff u.driver), rfl, ?_⟩
  have htrace : Trace (fun u label v => RepliesSettled u label ∧ Step board u label v) pongQueued
      [(.controlWork 450 (fun _ => 450) 2, out), (.affinityWork affinityOff, .silent)]
      (u.withDriver (affinityWork affinityOff u.driver)) := by
    refine .cons ⟨fun _ _ _ _ _ _ => pongQueued_noFurtherReply, hwork⟩ (.single ⟨?_, rfl⟩)
    rintro - - start clock fuel hop
    cases hop
  exact ⟨htrace, htest.1.1, htest.1.2, htest.2, stop_ready_settles
    (reachable_runWorld probedWorld_probed board _) (by decide +kernel) (by decide +kernel) htrace⟩

/-- A STOP_REFUSED for the same request, after the accepted STOP_READY. -/
def stopContradicted : World :=
  runWorld board stopAcknowledged
    [.peer (replyPage 1 2 [replyFrame msgStopRefused 3 1 1]) 0, .controlWork 450 (fun _ => 450) 1]

/-- The second reply replaces the first and reopens the session. -/
theorem stop_refused_after_ready :
    Reachable board stopAcknowledged ∧
      stopAcknowledged.driver.life.mailmsgState = .stopping ∧
      stopAcknowledged.driver.life.stopReplyType = msgStopReady ∧
      stopAcknowledged.driver.life.stopResult = 0 ∧
      (∃ labels, Trace (Step board) stopAcknowledged labels stopContradicted) ∧
      stopContradicted.driver.life.mailmsgState = .active ∧
      stopContradicted.driver.life.stopReplyType = msgStopRefused ∧
      stopContradicted.driver.life.stopResult = -ecanceled := by
  refine ⟨reachable_runWorld probedWorld_probed board _, ?_, ?_, ?_,
    trace_runWorld board stopAcknowledged _, ?_⟩
  all_goals decide +kernel

end Lzamp.R1Amp
