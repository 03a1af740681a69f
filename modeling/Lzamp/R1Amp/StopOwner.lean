import Lzamp.R1Amp.Requests

namespace Lzamp.R1Amp
open Mailmsg Lib

/-- A controlled stop is under way. -/
def SessionState.Stops (s : SessionState) : Prop := s = .stopping ∨ s = .stopTimeout

/-- SESSION_READY was accepted and CPU3 has not read off since. -/
def SessionState.Opened (s : SessionState) : Prop := s = .active ∨ s.Stops

theorem SessionState.Stops.expired {s : SessionState} (h : s.Stops) : s.expired.Stops := by
  rcases h with rfl | rfl <;> exact Or.inr rfl

theorem SessionState.Opened.of_expired {s : SessionState} (h : s.expired.Opened) : s.Opened := by
  cases s with
  | stopping => exact Or.inr (Or.inl rfl)
  | starting => simp [expired, Opened, Stops] at h
  | _ => exact h

/-- The request of the stop that is under way. -/
structure Lifecycle.Owns (life : Lifecycle) (m : Message) : Prop where
  state : life.mailmsgState.Stops
  length : m.length = 0
  sequence : m.sequence = life.stopRequestSequence

theorem Lifecycle.Owns.opened {life : Lifecycle} {m : Message} (h : life.Owns m) :
    life.mailmsgState.Opened := Or.inr h.state

/-- Nothing but a deadline moved the session. -/
structure KeepsStop (d d' : Driver) : Prop where
  state : d'.life.mailmsgState = d.life.mailmsgState ∨
    d'.life.mailmsgState = d.life.mailmsgState.expired
  sequence : d'.life.stopRequestSequence = d.life.stopRequestSequence

theorem KeepsStop.of_life {d d' : Driver} (h : d'.life = d.life) : KeepsStop d d' :=
  ⟨Or.inl (by rw [h]), by rw [h]⟩

theorem KeepsStop.owns {d d' : Driver} (h : KeepsStop d d') {m : Message} (hm : d.life.Owns m) :
    d'.life.Owns m where
  state := by
    rcases h.state with hs | hs <;> rw [hs]
    · exact hm.state
    · exact hm.state.expired
  length := hm.length
  sequence := hm.sequence.trans h.sequence.symm

theorem refreshAffinity_stop (a : Int) (d : Driver) :
    KeepsStop d (refreshAffinityLocked a d) ∨
      (a = affinityOff ∧ ¬ (refreshAffinityLocked a d).life.mailmsgState.Opened) := by
  rcases refreshAffinity_cases a d with h | ⟨ha, -, -, -, h⟩ <;> rw [h]
  · exact Or.inl ⟨Or.inl rfl, rfl⟩
  · exact Or.inr ⟨ha, by simp [Driver.offline, SessionState.Opened, SessionState.Stops]⟩

theorem startStore_stop (cfg : Config) (isStart : Bool) (count : ℕ) (affinity cpuOn : Int)
    (now : U64) (d : Driver) :
    KeepsStop d (startStore cfg isStart count affinity cpuOn now d).driver ∨
      (affinity = affinityOff ∧
        ¬ (startStore cfg isStart count affinity cpuOn now d).driver.life.mailmsgState.Opened) := by
  have hkept : KeepsStop d d := .of_life rfl
  have hrefresh := refreshAffinity_stop affinity d
  unfold startStore startSession
  dsimp only
  split_ifs with htext hatt himage hops haff hbound
  · exact Or.inl hkept
  · exact Or.inl hkept
  · exact Or.inl hkept
  · exact Or.inl hkept
  · exact hrefresh
  · exact hrefresh.imp (fun h => ⟨h.state, h.sequence⟩) id
  · refine Or.inr ⟨(affinityState_refresh affinity d).symm.trans (not_not.mp haff), ?_⟩
    unfold launched
    dsimp only
    split_ifs <;> simp [SessionState.Opened, SessionState.Stops]

theorem rearmStore_stop (cfg : Config) (isRearm : Bool) (count : ℕ) (affinity : Int)
    (d : Driver) :
    KeepsStop d (rearmStore cfg isRearm count affinity d).driver ∨
      (affinity = affinityOff ∧
        ¬ (rearmStore cfg isRearm count affinity d).driver.life.mailmsgState.Opened) := by
  have hkept : KeepsStop d d := .of_life rfl
  have hrefresh := refreshAffinity_stop affinity d
  unfold rearmStore
  dsimp only
  split_ifs with htext hatt hopen hops haff hbell
  · exact Or.inl hkept
  · exact Or.inl hkept
  · exact Or.inl hkept
  · exact Or.inl hkept
  · exact hrefresh
  · exact hrefresh
  · refine Or.inr ⟨(affinityState_refresh affinity d).symm.trans (not_not.mp haff), ?_⟩
    simp [rearmed, SessionState.Opened, SessionState.Stops]

theorem lifecycleTimeoutWork_stop (now : U64) (affinity : Int) (d : Driver) :
    KeepsStop d (mailmsgLifecycleTimeoutWork now affinity d) ∨
      (affinity = affinityOff ∧
        ¬ (mailmsgLifecycleTimeoutWork now affinity d).life.mailmsgState.Opened) := by
  have hkept : KeepsStop d d := .of_life rfl
  have hexpire : ∀ d, KeepsStop d (mailmsgSetTimeoutLocked d) := fun d =>
    ⟨Or.inr (setTimeout_state d).1, (setTimeout_state d).2⟩
  unfold mailmsgLifecycleTimeoutWork
  dsimp only
  split_ifs with hidle hearly hreply hoffline
  · exact Or.inl hkept
  · exact Or.inl hkept
  · exact refreshAffinity_stop affinity d
  · rcases refreshAffinity_cases affinity d with h | ⟨-, -, -, -, h⟩
    · rw [h]
      have hlate := hexpire (sampleAffinity affinity d)
      exact Or.inl ⟨hlate.state, hlate.sequence⟩
    · rw [h] at hoffline
      exact absurd rfl hoffline
  · exact Or.inl (hexpire d)

theorem affinityWork_stop (affinity : Int) (d : Driver) :
    KeepsStop d (affinityWork affinity d) ∨
      (affinity = affinityOff ∧ ¬ (affinityWork affinity d).life.mailmsgState.Opened) := by
  have hrefresh := refreshAffinity_stop affinity { d with life := { d.life with
    affinityMonitorCount := d.life.affinityMonitorCount + 1 } }
  unfold affinityWork
  split
  all_goals first
    | exact Or.inl (.of_life rfl)
    | split_ifs <;> exact hrefresh.imp (fun h => ⟨h.state, h.sequence⟩) id

theorem stopStore_owns (cfg : Config) (isStop : Bool) (count : ℕ) (now : U64) {d : Driver}
    (hplays : d.endpoint.Plays .linux) {m : Message} (hm : d.life.Owns m) :
    (mailmsgStopStore cfg isStop count now d).driver.life.Owns m := by
  have hactive : d.life.mailmsgState ≠ .active := fun h => by
    have hstops := hm.state
    simp [h, SessionState.Stops] at hstops
  rcases stopStore_traffic cfg isStop count now hplays with hstop | ⟨x, hstop⟩
  · exact KeepsStop.owns ⟨Or.inl hstop.state, hstop.sequence hactive⟩ hm
  · exact absurd hstop.before hactive

theorem controlWork_owns {cfg : Config} {start : U64} {clock : ℕ → U64} {fuel : ℕ}
    {d d' : Driver} {es : List Effect} (hplays : d.endpoint.Plays .linux)
    (hr : (d.shared.cpu3ToLinux prioCritical).InRange)
    (hrefused : ∀ m ∈ (d.shared.cpu3ToLinux prioCritical).contents, m.type ≠ msgStopRefused)
    (h : mailmsgControlWork cfg start clock fuel d = some (d', es)) {m : Message}
    (hm : d.life.Owns m) : d'.life.Owns m := by
  have hcontrol := controlWork_traffic hplays h
  rcases hcontrol.state with hs | hs | hframe
  · exact KeepsStop.owns ⟨Or.inl hs, hcontrol.sequence⟩ hm
  · exact KeepsStop.owns ⟨Or.inr hs, hcontrol.sequence⟩ hm
  · obtain ⟨reply, hmem, hwhy⟩ := hframe hr
    rcases hwhy with hstarting | htype
    · have hstops := hm.state
      simp [hstarting, SessionState.Stops] at hstops
    · exact absurd htype (hrefused reply hmem)

/-- Without a STOP_REFUSED to accept, only a reading of OFF ends a stop that is under way. -/
theorem exec_owns {cfg : Config} {w w' : World} {op : Op} {out : Output}
    (hplays : w.driver.endpoint.Plays .linux)
    (hr : (w.driver.shared.cpu3ToLinux prioCritical).InRange)
    (hrefused : ∀ m ∈ (w.driver.shared.cpu3ToLinux prioCritical).contents,
      m.type ≠ msgStopRefused)
    (h : exec cfg w op = some (out, w')) :
    (∀ m, w.driver.life.Owns m → w'.driver.life.Owns m) ∨
      (affinityOf op = some affinityOff ∧ ¬ w'.driver.life.mailmsgState.Opened) := by
  have hkeep : ∀ {d d' : Driver} {a : Int},
      KeepsStop d d' ∨ (a = affinityOff ∧ ¬ d'.life.mailmsgState.Opened) →
      (∀ m, d.life.Owns m → d'.life.Owns m) ∨
        (some a = some affinityOff ∧ ¬ d'.life.mailmsgState.Opened) :=
    fun h => h.imp (fun hk _ => hk.owns) (And.imp (congrArg some) id)
  -- only an operation that samples the affinity can end the stop
  cases hop : op.isLifecycle with
  | false =>
    exact Or.inl fun m => (KeepsStop.of_life (exec_dataPlane hop h).keeps.life).owns
  | true =>
    cases op with
    | imageWrite off buf =>
      cases h
      simp only [World.withDriver, imageWrite]
      split_ifs <;> exact Or.inl fun m hm => ⟨hm.state, hm.length, hm.sequence⟩
    | startStore isStart count affinity cpuOn now =>
      cases h
      exact hkeep (startStore_stop cfg isStart count affinity cpuOn now w.driver)
    | rearmStore isRearm count affinity =>
      cases h
      exact hkeep (rearmStore_stop cfg isRearm count affinity w.driver)
    | stopStore isStop count now =>
      cases h
      exact Or.inl fun m => stopStore_owns cfg isStop count now hplays
    | controlWork start clock fuel =>
      simp only [exec, Option.map_eq_some_iff] at h
      obtain ⟨r, hcontrol, heq⟩ := h
      cases heq
      exact Or.inl fun m => controlWork_owns hplays hr hrefused hcontrol
    | lifecycleTimeoutWork now affinity =>
      cases h
      exact hkeep (lifecycleTimeoutWork_stop now affinity w.driver)
    | affinityWork affinity =>
      cases h
      exact hkeep (affinityWork_stop affinity w.driver)
    | affinityStateShow affinity =>
      cases h
      simp only [World.withDriver, affinityStateShow]
      split_ifs
      · exact Or.inl fun m => id
      · exact hkeep (refreshAffinity_stop affinity w.driver)
    | _ => simp [Op.isLifecycle] at hop

/-- A write to the p0 device whose record says STOP_REQUEST. -/
def Op.Forges : Op → Prop
  | .userWrite file _ (some frame) => file.channel = prioCritical ∧ frame.type = msgStopRequest
  | _ => False

/-- What `mailmsg_stop_store` put at the end of the p0 request ring. -/
def Op.orders (op : Op) (w w' : World) : List Message :=
  match op with
  | .stopStore .. => (w'.driver.shared.linuxToCpu3 prioCritical).contents.drop
      (w.driver.shared.linuxToCpu3 prioCritical).contents.length
  | _ => []

theorem exec_orders {cfg : Config} {w w' : World} {op : Op} {out : Output}
    (hpeer : ∀ shared status, op ≠ .peer shared status) (hforge : ¬ op.Forges)
    (hplays : w.driver.endpoint.Plays .linux)
    (hr : (w.driver.shared.linuxToCpu3 prioCritical).InRange)
    (h : exec cfg w op = some (out, w')) :
    Traffic (fun q m => q = prioCritical → m.type = msgStopRequest →
        w'.driver.life.Owns m ∧ m ∈ op.orders w w') w.driver w'.driver ∨
      (affinityOf op = some affinityOff ∧ PageCleared w'.driver) := by
  have htraffic := exec_traffic hpeer hplays h
  cases op with
  | stopStore isStop count now =>
    cases h
    left
    rcases stopStore_traffic cfg isStop count now hplays with hstop | ⟨m, hstop⟩
    · exact hstop.traffic.mono fun _ _ hf => hf.elim
    · refine hstop.traffic.mono fun q x hx _ _ => ?_
      rw [hx.2]
      refine ⟨⟨Or.inl hstop.state, hstop.length, hstop.sequence⟩, ?_⟩
      have hqueued := hstop.queued hr
      simp only [Op.orders, World.withDriver]
      rw [hqueued, List.drop_left]
      exact List.mem_singleton_self m
  | userWrite file count frame =>
    refine htraffic.imp (fun ht => ht.mono fun q m hm hq htype => ?_) id
    obtain ⟨f, rfl, hchannel, hf⟩ := hm
    exact absurd ⟨hchannel.symm.trans hq, hf.symm.trans htype⟩ hforge
  | mailmsgPing | mailmsgCrcInject | mailmsgQueuePush =>
    refine htraffic.imp (fun ht => ht.mono fun q m hm _ htype => ?_) id
    exact absurd ((show m.type = msgPing from hm).symm.trans htype) (by decide)
  | _ => exact htraffic.imp (fun ht => ht.mono fun q m hm => False.elim hm) id

theorem Change.unopened {s s' : Session} {op : Op} {out : Output} (h : Change s (op, out) s')
    (hop : ∀ start clock fuel, op ≠ .controlWork start clock fuel) (hs : ¬ s.state.Opened) :
    ¬ s'.state.Opened := by
  cases h with
  | quiet => exact hs
  | seen => exact hs
  | offline => simp [SessionState.Opened, SessionState.Stops]
  | timeout => exact fun h => hs h.of_expired
  | ready => exact absurd rfl (hop _ _ _)
  | refused _ hstopping => exact absurd (Or.inr (Or.inl hstopping)) hs
  | stop _ hactive => exact absurd (Or.inl hactive) hs
  | rearm => simp [Session.rearmed, SessionState.Opened, SessionState.Stops]
  | start =>
    unfold Session.started
    dsimp only
    split_ifs <;> simp [SessionState.Opened, SessionState.Stops]

/-- With no reply queued on p0 no operation opens the session. -/
theorem exec_unopened {cfg : Config} {w w' : World} {op : Op} {out : Output}
    (hplays : w.driver.endpoint.Plays .linux)
    (hr : (w.driver.shared.cpu3ToLinux prioCritical).InRange)
    (hnil : (w.driver.shared.cpu3ToLinux prioCritical).contents = [])
    (hs : ¬ w.driver.life.mailmsgState.Opened) (h : exec cfg w op = some (out, w')) :
    ¬ w'.driver.life.mailmsgState.Opened := by
  have hchange : Change w.driver.session (op, out) w'.driver.session := step_change h
  by_cases hop : ∃ start clock fuel, op = .controlWork start clock fuel
  · obtain ⟨start, clock, fuel, rfl⟩ := hop
    simp only [exec, Option.map_eq_some_iff] at h
    obtain ⟨r, hcontrol, heq⟩ := h
    cases heq
    rcases (controlWork_traffic hplays hcontrol).state with hstate | hstate | hframe
    · exact fun ho => hs (hstate ▸ ho)
    · exact fun ho => hs (SessionState.Opened.of_expired (hstate ▸ ho))
    · obtain ⟨m, hm, -⟩ := hframe hr
      rw [hnil] at hm
      cases hm
  · exact hchange.unopened (fun start clock fuel heq => hop ⟨start, clock, fuel, heq⟩) hs

theorem startStore_launch {cfg : Config} {isStart : Bool} {count : ℕ} {affinity cpuOn ret : Int}
    {now : U64} {d : Driver} (hplays : d.endpoint.Plays .linux)
    (h : .cpuOn ret ∈ (startStore cfg isStart count affinity cpuOn now d).effects) :
    PageCleared (startStore cfg isStart count affinity cpuOn now d).driver := by
  have hplays' : (refreshAffinityLocked affinity d).endpoint.Plays .linux :=
    (keepsPlane_refreshAffinity affinity d).endpoint ▸ hplays
  unfold startStore startSession at h ⊢
  dsimp only at h ⊢
  split_ifs at h ⊢
  · cases h
  · cases h
  · cases h
  · cases h
  · cases h
  · simp at h
  · exact ⟨endpointBind_plays hplays' _, _, rfl⟩

theorem Change.launch {s s' : Session} {op : Op} {out : Output} {ret : Int}
    (h : Change s (op, out) s') (hon : .cpuOn ret ∈ out.effects) :
    ∃ count affinity cpuOn now, op = .startStore true count affinity cpuOn now ∧
      s' = s.started cpuOn := by
  cases h with
  | quiet hno => exact absurd hon (hno ret)
  | seen hno => exact absurd hon (hno ret)
  | offline hno => exact absurd hon (hno ret)
  | timeout hno => exact absurd hon (hno ret)
  | ready hno => exact absurd hon (noCpuOn_append hno (noCpuOn_received _ _ _) ret)
  | refused hno => exact absurd hon (hno ret)
  | stop hno => exact absurd hon (hno ret)
  | rearm => cases hon
  | start => exact ⟨_, _, _, _, rfl, rfl⟩

/-- CPU_ON is called over a cleared page, and no session is open after it. -/
theorem exec_launch {cfg : Config} {w w' : World} {op : Op} {out : Output} {ret : Int}
    (hplays : w.driver.endpoint.Plays .linux) (h : exec cfg w op = some (out, w'))
    (hon : .cpuOn ret ∈ out.effects) :
    PageCleared w'.driver ∧ ¬ w'.driver.life.mailmsgState.Opened := by
  have hchange : Change w.driver.session (op, out) w'.driver.session := step_change h
  obtain ⟨count, affinity, cpuOn, now, rfl, hs⟩ := hchange.launch hon
  have hstate : w'.driver.life.mailmsgState = (w.driver.session.started cpuOn).state :=
    congrArg Session.state hs
  cases h
  refine ⟨startStore_launch hplays hon, ?_⟩
  rw [hstate, Session.started]
  dsimp only
  split_ifs <;> simp [SessionState.Opened, SessionState.Stops]

end Lzamp.R1Amp
