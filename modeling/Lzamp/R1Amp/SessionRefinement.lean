import Lzamp.R1Amp.Session

namespace Lzamp.R1Amp
open Mailmsg Lib

theorem noCpuOn_nil : NoCpuOn [] := fun _ h => by cases h

theorem noCpuOn_append {es es' : List Effect} (h : NoCpuOn es) (h' : NoCpuOn es') :
    NoCpuOn (es ++ es') := by
  intro ret hmem
  rcases List.mem_append.mp hmem with hmem | hmem
  · exact h ret hmem
  · exact h' ret hmem

theorem noCpuOn_received (frame : Message) (now deadline : U64) :
    NoCpuOn [.received frame now deadline] := by
  intro ret h
  simp at h

def Driver.offline (d : Driver) : Driver :=
  { d with life := { d.life with mailmsgState := .offline }, user := wakeAll d.user }

theorem markOffline_of_live {d : Driver} (h : d.life.mailmsgState.Live) :
    mailmsgMarkOfflineLocked d = d.offline := by
  unfold mailmsgMarkOfflineLocked
  cases hs : d.life.mailmsgState with
  | unarmed => exact absurd hs h.1
  | offline => exact absurd hs h.2
  | _ => rfl

theorem markOffline_of_not_live {d : Driver} (h : ¬ d.life.mailmsgState.Live) :
    mailmsgMarkOfflineLocked d = d := by
  unfold mailmsgMarkOfflineLocked
  cases hs : d.life.mailmsgState with
  | unarmed => rfl
  | offline => rfl
  | _ => simp [SessionState.Live, hs] at h

/-- What sampling the affinity can do to a session. -/
def Sampled (s s' : Session) : Prop :=
  s' = s ∨ s' = { s with seenOn := true } ∨
    (s.cpuOnRet = 0 ∧ s.seenOn = true ∧ s.state.Live ∧ s' = { s with state := .offline })

theorem Sampled.change {s s' : Session} (h : Sampled s s') {op : Op} {out : Output}
    (hout : NoCpuOn out.effects) : Change s (op, out) s' := by
  rcases h with rfl | rfl | ⟨hret, hseen, hlive, rfl⟩
  · exact .quiet hout
  · exact .seen hout
  · exact .offline hout hret hseen hlive

theorem refreshAffinity_cases (a : Int) (d : Driver) :
    refreshAffinityLocked a d = sampleAffinity a d ∨
    (a = affinityOff ∧ d.life.cpuOnRet = 0 ∧ d.life.affinitySeenOn = true ∧
      d.life.mailmsgState.Live ∧ refreshAffinityLocked a d = (sampleAffinity a d).offline) := by
  unfold refreshAffinityLocked
  dsimp only
  split_ifs with h
  · obtain ⟨hret, hseen, rfl⟩ := h
    have hseen' : d.life.affinitySeenOn = true := by
      simpa [sampleAffinity] using hseen
    by_cases hlive : d.life.mailmsgState.Live
    · exact Or.inr ⟨rfl, hret, hseen', hlive, markOffline_of_live hlive⟩
    · exact Or.inl (markOffline_of_not_live hlive)
  · exact Or.inl rfl

theorem affinityState_refresh (a : Int) (d : Driver) :
    (refreshAffinityLocked a d).life.affinityState = a := by
  rcases refreshAffinity_cases a d with heq | ⟨-, -, -, -, heq⟩ <;> rw [heq] <;> rfl

theorem refreshAffinity_sampled (a : Int) (d : Driver) :
    Sampled d.session (refreshAffinityLocked a d).session := by
  rcases refreshAffinity_cases a d with h | ⟨rfl, hret, hseen, hlive, h⟩
  · rw [h]
    cases hon : (d.life.affinitySeenOn || a == affinityOn || a == affinityOnPending) with
    | true => exact Or.inr (Or.inl (by simp only [Driver.session, sampleAffinity, hon]))
    | false =>
      have hoff : d.life.affinitySeenOn = false := by
        simp only [Bool.or_eq_false_iff] at hon
        exact hon.1.1
      rw [hoff] at hon
      exact Or.inl (by simp only [Driver.session, sampleAffinity, hoff, hon])
  · refine Or.inr (Or.inr ⟨hret, hseen, hlive, ?_⟩)
    rw [h]
    simp [Driver.session, Driver.offline, sampleAffinity, hseen]

theorem affinityWork_sampled (a : Int) (d : Driver) :
    Sampled d.session (affinityWork a d).session := by
  have h := refreshAffinity_sampled a { d with life := { d.life with
    affinityMonitorCount := d.life.affinityMonitorCount + 1 } }
  unfold affinityWork
  split
  all_goals first
    | exact Or.inl rfl
    | split_ifs <;> exact h

theorem setTimeout_session {d : Driver}
    (h : d.life.mailmsgState = .starting ∨ d.life.mailmsgState = .stopping) :
    (mailmsgSetTimeoutLocked d).session =
      { d.session with state := d.life.mailmsgState.expired } := by
  unfold mailmsgSetTimeoutLocked
  rcases h with h | h <;> simp [Driver.session, h, SessionState.expired]

theorem controlError_session (d : Driver) (ret : Int) :
    (controlError d ret).session = d.session := by
  unfold controlError
  dsimp only [Driver.session]
  split_ifs <;> rfl

theorem controlRound_again {cfg : Config} {now rearm : U64} {d d' : Driver} {es : List Effect}
    (h : controlRound cfg now rearm d = .again d' es) :
    d'.session = d.session ∧ NoCpuOn es := by
  have hkeep := (keeps_received d prioCritical).session
  unfold controlRound at h
  dsimp only at h
  split_ifs at h
  · cases h
    exact ⟨hkeep, noCpuOn_nil⟩
  · cases h
    exact ⟨(controlError_session _ _).trans hkeep, noCpuOn_nil⟩
  · unfold controlFrame at h
    split_ifs at h <;> cases h <;> exact ⟨hkeep, noCpuOn_received _ _ _⟩

/-- How a round that ends the loop leaves the session. -/
inductive Decision (s : Session) (now : U64) (es : List Effect) : Session → Prop
  | none (h : NoCpuOn es) : Decision s now es s
  | timeout (h : NoCpuOn es) : Decision s now es { s with state := s.state.expired }
  | ready {frame : Message} {deadline : U64} (hes : es = [.received frame now deadline])
      (state : s.state = .starting) (frame_ok : isSessionReady s.generation frame = true)
      (in_time : timeBefore now deadline = true) : Decision s now es s.ready
  | refused (h : NoCpuOn es) (state : s.state = .stopping) :
      Decision s now es { s with state := .active }

theorem controlFrame_leave {cfg : Config} {now rearm : U64} {m : Message} {d d' : Driver}
    {es : List Effect}
    (hstate : d.life.mailmsgState = .starting ∨ d.life.mailmsgState = .stopping)
    (htime : timeAfterEq now d.life.lifecycleDeadline = false)
    (h : controlFrame cfg rearm m d [.received m now d.life.lifecycleDeadline] = .leave d' es) :
    Decision d.session now es d'.session := by
  unfold controlFrame at h
  split_ifs at h with hstarting hready hreply htype
  · cases h
    exact Decision.ready (s := d.session) rfl hstarting hready (by rw [timeBefore_eq_not, htime]; rfl)
  · cases h
    exact Decision.none (s := d.session) (noCpuOn_received _ _ _)
  · cases h
    exact Decision.refused (s := d.session) (noCpuOn_received _ _ _)
      (hstate.resolve_left hstarting)

theorem controlRound_leave {cfg : Config} {now rearm : U64} {d d' : Driver} {es : List Effect}
    (hstate : d.life.mailmsgState = .starting ∨ d.life.mailmsgState = .stopping)
    (h : controlRound cfg now rearm d = .leave d' es) : Decision d.session now es d'.session := by
  rw [← (keeps_received d prioCritical).session]
  have hstate₁ : (d.received (endpointReceive d.endpoint d.shared prioCritical
      Message.zero)).life.mailmsgState = .starting ∨ _ := hstate
  unfold controlRound at h
  dsimp only at h
  split_ifs at h with hempty hstale hret hend htime
  · cases h
    exact .none noCpuOn_nil
  · cases h
    rw [controlError_session]
    exact .none noCpuOn_nil
  · cases h
    rw [setTimeout_session hstate₁]
    exact .timeout (noCpuOn_received _ _ _)
  · exact controlFrame_leave hstate₁ (Bool.eq_false_iff.mpr htime) h

theorem controlLoop_change {cfg : Config} {clock : ℕ → U64} {start : U64} {fuel₀ fuel i : ℕ}
    {d d' : Driver} {log es : List Effect}
    (hstate : d.life.mailmsgState = .starting ∨ d.life.mailmsgState = .stopping)
    (hlog : NoCpuOn log) (h : controlLoop cfg clock fuel i d log = some (d', es)) :
    Change d.session (.controlWork start clock fuel₀, ⟨none, [], es⟩) d'.session := by
  refine controlLoop_rule (P := fun d₁ log => d₁.session = d.session ∧ NoCpuOn log)
    (Q := fun d' es => Change d.session (.controlWork start clock fuel₀, ⟨none, [], es⟩) d'.session)
    ?_ ?_ ⟨rfl, hlog⟩ h
  · rintro now rearm d₁ log₁ d₂ es₂ ⟨hsame, hlog₁⟩ hround
    obtain ⟨hsame₂, hes₂⟩ := controlRound_again hround
    exact ⟨hsame₂.trans hsame, noCpuOn_append hlog₁ hes₂⟩
  · rintro now rearm d₁ log₁ d₂ es₂ ⟨hsame, hlog₁⟩ hround
    have hst : d₁.life.mailmsgState = d.life.mailmsgState := congrArg Session.state hsame
    have hdecided := controlRound_leave (hst.symm ▸ hstate) hround
    rw [hsame] at hdecided
    generalize d₂.session = s' at hdecided ⊢
    cases hdecided with
    | none hes => exact .quiet (noCpuOn_append hlog₁ hes)
    | timeout hes => exact .timeout (noCpuOn_append hlog₁ hes) _ id hstate
    | ready hes hs hframe htime =>
      subst hes
      exact .ready hlog₁ hs hframe htime
    | refused hes hs => exact .refused (noCpuOn_append hlog₁ hes) hs

theorem controlWork_change {cfg : Config} {start : U64} {clock : ℕ → U64} {fuel : ℕ}
    {d d' : Driver} {es : List Effect}
    (h : mailmsgControlWork cfg start clock fuel d = some (d', es)) :
    Change d.session (.controlWork start clock fuel, ⟨none, [], es⟩) d'.session := by
  unfold mailmsgControlWork at h
  split_ifs at h with hstate htime
  · cases h
    exact .quiet noCpuOn_nil
  · cases h
    have hstate' : d.life.mailmsgState = .starting ∨ d.life.mailmsgState = .stopping := by tauto
    rw [setTimeout_session hstate']
    exact .timeout noCpuOn_nil _ id hstate'
  · exact controlLoop_change (by tauto) noCpuOn_nil h

theorem lifecycleTimeoutWork_change (now : U64) (affinity : Int) (d : Driver) (op : Op) :
    Change d.session (op, .silent) (mailmsgLifecycleTimeoutWork now affinity d).session := by
  unfold mailmsgLifecycleTimeoutWork
  dsimp only
  split_ifs with hstate htime hstop hoff
  · exact .quiet noCpuOn_nil
  · exact .quiet noCpuOn_nil
  · exact (refreshAffinity_sampled affinity d).change noCpuOn_nil
  · rcases refreshAffinity_cases affinity d with h | ⟨-, -, -, -, h⟩
    · have hst : (sampleAffinity affinity d).life.mailmsgState = .stopping := hstop.1
      rw [h, setTimeout_session (Or.inr hst)]
      refine .timeout (s := d.session) noCpuOn_nil _ ?_ (Or.inr hstop.1)
      intro hseen
      change (d.life.affinitySeenOn || _ || _) = true
      rw [show d.life.affinitySeenOn = true from hseen]
      rfl
    · rw [h] at hoff
      exact absurd rfl hoff
  · have hstate' : d.life.mailmsgState = .starting ∨ d.life.mailmsgState = .stopping := by tauto
    rw [setTimeout_session hstate']
    exact .timeout noCpuOn_nil _ id hstate'

theorem imageWrite_change (cfg : Config) (off : U64) (buf : List U8) (d : Driver) (op : Op) :
    Change d.session
      (op, ⟨some (imageWrite cfg off buf d).ret, [], (imageWrite cfg off buf d).effects⟩)
      (imageWrite cfg off buf d).driver.session := by
  unfold imageWrite
  dsimp only
  split_ifs
  · exact .quiet noCpuOn_nil
  · exact .quiet noCpuOn_nil
  · exact .quiet noCpuOn_nil
  · refine Change.quiet (s := d.session) ?_
    intro ret h
    simp at h

theorem nextGeneration_ne_zero (generation : U32) : nextGeneration generation ≠ 0 := by
  unfold nextGeneration
  split_ifs with h
  · rw [h]
    decide
  · exact h

theorem nextGeneration_ne (generation : U32) : nextGeneration generation ≠ generation := by
  unfold nextGeneration
  split_ifs with h
  · bv_omega
  · bv_omega

/-- The bind in `start_store` cannot fail: the header was just written. -/
theorem endpointBind_fresh (e : Endpoint) {generation : U32} (h : generation ≠ 0) :
    endpointBind e (freshShared generation) .linux =
      (endpointOk, ⟨some .linux, 0, generation, fun _ => PriorityStats.zero⟩) := by
  have hhead : ¬ ((freshShared generation).magic ≠ protocolMagic ∨
      (freshShared generation).version ≠ protocolVersion) := by simp [freshShared]
  have hgen : (freshShared generation).generation ≠ 0 := h
  rw [endpointBind, if_neg hhead, if_neg hgen]
  rfl

/-- The driver `start_store` leaves once CPU_ON has been called. -/
theorem startSession_eq (cfg : Config) (cpuOn : Int) (now : U64) (d : Driver) :
    startSession cfg cpuOn now d =
      ⟨cpuOn, [.controlPageCleared, .cpuOn cpuOn], { d with
        life := launched cfg cpuOn now { d.life with
          sessionGeneration := nextGeneration d.life.sessionGeneration }
        shared := freshShared (nextGeneration d.life.sessionGeneration)
        endpoint := ⟨some .linux, 0, nextGeneration d.life.sessionGeneration,
          fun _ => PriorityStats.zero⟩
        mbox := { d.mbox with lifecycleNotifyBypass := false } }⟩ := by
  unfold startSession openSession
  simp only [endpointBind_fresh d.endpoint (nextGeneration_ne_zero d.life.sessionGeneration),
    ne_eq, not_true_eq_false, if_false]

theorem startSession_session (cfg : Config) (cpuOn : Int) (now : U64) (d : Driver) :
    (startSession cfg cpuOn now d).driver.session = d.session.started cpuOn := by
  rw [startSession_eq]
  by_cases hret : cpuOn = 0
  · simp [launched, hret, Driver.session, Session.started, Endpoint.identity]
  · simp [launched, hret, Driver.session, Session.started, Endpoint.identity]

theorem startStore_change (cfg : Config) (isStart : Bool) (count : ℕ) (affinity cpuOn : Int)
    (now : U64) (d : Driver) :
    Change d.session (.startStore isStart count affinity cpuOn now,
        ⟨some (startStore cfg isStart count affinity cpuOn now d).ret, [],
          (startStore cfg isStart count affinity cpuOn now d).effects⟩)
      (startStore cfg isStart count affinity cpuOn now d).driver.session := by
  unfold startStore
  dsimp only
  split_ifs with htext hatt himage hops hoff
  · exact .quiet noCpuOn_nil
  · exact .quiet noCpuOn_nil
  · exact .quiet noCpuOn_nil
  · exact .quiet noCpuOn_nil
  · exact (refreshAffinity_sampled affinity d).change noCpuOn_nil
  · have hsession := startSession_session cfg cpuOn now (refreshAffinityLocked affinity d)
    have heq := startSession_eq cfg cpuOn now (refreshAffinityLocked affinity d)
    have hstart : isStart = true := by simpa using htext
    have hatt' : d.session.attempted = false := by simpa [Driver.session] using hatt
    have hgen : (refreshAffinityLocked affinity d).session.started cpuOn =
        d.session.started cpuOn := by
      rcases refreshAffinity_sampled affinity d with h | h | ⟨-, -, -, h⟩ <;>
        simp only [h, Session.started]
    subst hstart
    rw [hsession, hgen, heq]
    exact .start hatt'

theorem rearmed_session (d : Driver) : (rearmed d).session = d.session.rearmed := rfl

theorem rearmStore_change (cfg : Config) (isRearm : Bool) (count : ℕ) (affinity : Int)
    (d : Driver) :
    Change d.session (.rearmStore isRearm count affinity,
        ⟨some (rearmStore cfg isRearm count affinity d).ret, [],
          (rearmStore cfg isRearm count affinity d).effects⟩)
      (rearmStore cfg isRearm count affinity d).driver.session := by
  unfold rearmStore
  dsimp only
  split_ifs with htext hatt hopen hops hoff hbell
  · exact .quiet noCpuOn_nil
  · exact .quiet noCpuOn_nil
  · exact .quiet noCpuOn_nil
  · exact .quiet noCpuOn_nil
  · exact (refreshAffinity_sampled affinity d).change noCpuOn_nil
  · exact (refreshAffinity_sampled affinity d).change noCpuOn_nil
  · have hrearm : isRearm = true := by simpa using htext
    have hatt' : d.session.attempted = true := by simpa [Driver.session] using hatt
    have hsame : (refreshAffinityLocked affinity d).session.rearmed = d.session.rearmed := by
      rcases refreshAffinity_sampled affinity d with h | h | ⟨-, -, -, h⟩ <;>
        simp only [h, Session.rearmed]
    subst hrearm
    rw [rearmed_session, hsame]
    exact .rearm hatt'

theorem sentStop_session (d : Driver) : (d.sentStop (sendStop d)).session = d.session := by
  simp only [Driver.session, Driver.sentStop, sendStop, identity_endpointSend]

theorem sendStopRequest_session (cfg : Config) (now : U64) (d : Driver) :
    (sendStopRequest cfg now d).2.session = d.session ∨
      (sendStopRequest cfg now d).2.session = { d.session with state := .active } := by
  have hsame := sentStop_session d
  unfold sendStopRequest
  dsimp only
  by_cases hret : (sendStop d).ret = endpointOk
  · rw [if_neg (not_not.mpr hret)]
    exact Or.inl hsame
  · rw [if_pos hret]
    exact Or.inr (congrArg (fun s : Session => { s with state := .active }) hsame)

theorem stopStore_change (cfg : Config) (isStop : Bool) (count : ℕ) (now : U64) (d : Driver)
    (op : Op) :
    Change d.session (op, ⟨some (mailmsgStopStore cfg isStop count now d).ret, [],
        (mailmsgStopStore cfg isStop count now d).effects⟩)
      (mailmsgStopStore cfg isStop count now d).driver.session := by
  unfold mailmsgStopStore
  dsimp only
  split_ifs with htext hoffline hactive hpreflight
  · exact .quiet noCpuOn_nil
  · exact .quiet noCpuOn_nil
  · exact .quiet noCpuOn_nil
  · exact .quiet noCpuOn_nil
  · have hact : d.session.state = .active := not_not.mp hactive
    rcases sendStopRequest_session cfg now (stopPending d) with h | h
    · rw [h]
      exact .stop (s := d.session) noCpuOn_nil hact
    · have hsame : ({ (stopPending d).session with state := .active } : Session) = d.session := by
        rw [← hact]
        rfl
      rw [h, hsame]
      exact .quiet noCpuOn_nil

/-- Every operation moves the session as the abstract machine allows. -/
theorem step_change {cfg : Config} {w w' : World} {label : Op × Output}
    (h : Step cfg w label w') : Change w.driver.session label w'.driver.session := by
  obtain ⟨op, out⟩ := label
  cases hop : op.isLifecycle with
  | false =>
    obtain ⟨hkeep, heffects, -⟩ := exec_dataPlane hop h
    rw [hkeep.session]
    exact .quiet (by rw [heffects]; exact noCpuOn_nil)
  | true =>
    cases op with
    | imageWrite off buf =>
      cases h
      exact imageWrite_change cfg off buf w.driver _
    | startStore isStart count affinity cpuOn now =>
      cases h
      exact startStore_change cfg isStart count affinity cpuOn now w.driver
    | rearmStore isRearm count affinity =>
      cases h
      exact rearmStore_change cfg isRearm count affinity w.driver
    | stopStore isStop count now =>
      cases h
      exact stopStore_change cfg isStop count now w.driver _
    | controlWork start clock fuel =>
      simp only [Step, exec, Option.map_eq_some_iff] at h
      obtain ⟨r, hr, heq⟩ := h
      cases heq
      exact controlWork_change hr
    | lifecycleTimeoutWork now affinity =>
      cases h
      exact lifecycleTimeoutWork_change now affinity w.driver _
    | affinityWork affinity =>
      cases h
      exact (affinityWork_sampled affinity w.driver).change noCpuOn_nil
    | affinityStateShow affinity =>
      cases h
      unfold affinityStateShow
      split_ifs
      · exact .quiet noCpuOn_nil
      · exact (refreshAffinity_sampled affinity w.driver).change noCpuOn_nil
    | _ => simp [Op.isLifecycle] at hop

end Lzamp.R1Amp
