import Lzamp.R1Amp.LifecycleSafety

namespace Lzamp.R1Amp
open Mailmsg Lib

/-- No traffic in either direction: no open file, eight empty rings, no pending doorbell. -/
structure StopQuiet (d : Driver) : Prop where
  files : d.mailmsgUserOpenCount = 0
  replies : ∀ p, (d.shared.cpu3ToLinux p).Empty
  requests : ∀ p, (d.shared.linuxToCpu3 p).Empty
  doorbells : ∀ p, hasBit d.mbox.a2b.status p = false

/-- What the preflight and the send really test. -/
structure StopAdmitted (d : Driver) : Prop where
  files : d.mailmsgUserOpenCount = 0
  session : endpointSessionValid d.endpoint d.shared = endpointOk
  reply : (d.shared.cpu3ToLinux prioCritical).Empty
  room : next (d.shared.linuxToCpu3 prioCritical).producer ≠
    (d.shared.linuxToCpu3 prioCritical).consumer

/-- STOPPING, with STOP_REQUEST behind the frames of the p0 ring. -/
structure StopStarted (d : Driver) (r : Ran) : Prop where
  state : r.driver.life.mailmsgState = .stopping
  request : r.driver.shared = d.shared.setTx .linux prioCritical
    ((d.shared.linuxToCpu3 prioCritical).published
      (composeFrame d.endpoint.generation msgStopRequest (endpointNextSequence d.endpoint).1 0 none))

/-- Still ACTIVE, with an error and the shared page untouched. -/
structure StopRefused (d : Driver) (r : Ran) : Prop where
  ret : r.ret < 0
  state : r.driver.life.mailmsgState = .active
  shared : r.driver.shared = d.shared

/-- A stop begins over quiet rings, or it is refused and changes nothing. -/
def StopSafe (d : Driver) (r : Ran) : Prop := (StopStarted d r ∧ StopQuiet d) ∨ StopRefused d r

theorem ringResultToErrno_neg {result : Int} (h : result ≠ ringOk) :
    ringResultToErrno result < 0 := by
  unfold ringResultToErrno
  rw [if_neg h]
  split_ifs <;> decide

theorem preflightRing_zero : preflightRing 0 = some 0 := by decide

theorem preflight_empty {d : Driver} (hfiles : d.mailmsgUserOpenCount = 0)
    (hrole : d.endpoint.role = some .linux)
    (hsession : endpointSessionValid d.endpoint d.shared = endpointOk)
    (hreply : (d.shared.cpu3ToLinux prioCritical).Empty) :
    mailmsgStopPreflightLocked d = 0 := by
  have hzero : endpointHasReceived d.endpoint d.shared (prioCritical : Priority) = 0 := by
    rw [endpointHasReceived_of_valid hrole hsession, ringHasData_eq]
    exact if_pos hreply
  -- the first test of the walk already ends it
  have hwalk : preflightRings d [0, 1, 2, 3] = some 0 := by
    rw [preflightRings, hzero, preflightRing_zero]
    rfl
  rw [mailmsgStopPreflightLocked, if_neg (not_not.mpr hfiles), if_neg (by rw [hrole]; simp), hwalk]

theorem preflight_refuses {d : Driver} (hrole : d.endpoint.role = some .linux)
    (h : d.mailmsgUserOpenCount ≠ 0 ∨ endpointSessionValid d.endpoint d.shared ≠ endpointOk ∨
      ¬ (d.shared.cpu3ToLinux prioCritical).Empty) :
    mailmsgStopPreflightLocked d < 0 := by
  unfold mailmsgStopPreflightLocked
  by_cases hfiles : d.mailmsgUserOpenCount = 0
  · rw [if_neg (not_not.mpr hfiles), if_neg (by rw [hrole]; simp)]
    by_cases hsession : endpointSessionValid d.endpoint d.shared = endpointOk
    · have hreply : ¬ (d.shared.cpu3ToLinux prioCritical).Empty := by tauto
      have hone : endpointHasReceived d.endpoint d.shared (prioCritical : Priority) = 1 := by
        rw [endpointHasReceived_of_valid hrole hsession, ringHasData_eq]
        exact if_neg hreply
      have hwalk : preflightRings d [0, 1, 2, 3] = some (-ebusy) := by
        rw [preflightRings, hone]
        rfl
      rw [hwalk]
      exact (by decide : -ebusy < 0)
    · have hbad : endpointHasReceived d.endpoint d.shared (prioCritical : Priority) = ringInvalid :=
        endpointHasReceived_of_invalid hsession prioCritical
      have hwalk : preflightRings d [0, 1, 2, 3] = some (-eproto) := by
        rw [preflightRings, hbad]
        rfl
      rw [hwalk]
      exact (by decide : -eproto < 0)
  · rw [if_pos hfiles]
    decide

theorem sendStop_ret {d : Driver} (hrole : d.endpoint.role = some .linux)
    (hsession : endpointSessionValid d.endpoint d.shared = endpointOk) :
    (sendStop d).ret = endpointOk ↔
      next (d.shared.linuxToCpu3 prioCritical).producer ≠
        (d.shared.linuxToCpu3 prioCritical).consumer := by
  have hiff := endpointEnqueue_ok_iff hrole hsession prioCritical msgStopRequest none 0
    (by decide) (Or.inl rfl) SendResult.zero
  rw [← Shared.tx, ← hiff]
  unfold sendStop endpointSend
  dsimp only
  split_ifs with h
  · exact iff_of_false h h
  · exact iff_of_true rfl (not_not.mp h)

theorem sendStopRequest_cases (cfg : Config) (now : U64) {d : Driver}
    (hrole : d.endpoint.role = some .linux)
    (hsession : endpointSessionValid d.endpoint d.shared = endpointOk) :
    (next (d.shared.linuxToCpu3 prioCritical).producer ≠
        (d.shared.linuxToCpu3 prioCritical).consumer ∧
      (sendStopRequest cfg now d).2.life.mailmsgState = d.life.mailmsgState ∧
      (sendStopRequest cfg now d).2.shared = d.shared.setTx .linux prioCritical
        ((d.shared.linuxToCpu3 prioCritical).published (composeFrame d.endpoint.generation
          msgStopRequest (endpointNextSequence d.endpoint).1 0 none))) ∨
    (next (d.shared.linuxToCpu3 prioCritical).producer =
        (d.shared.linuxToCpu3 prioCritical).consumer ∧
      (sendStopRequest cfg now d).1 < 0 ∧
      (sendStopRequest cfg now d).2.life.mailmsgState = .active ∧
      (sendStopRequest cfg now d).2.shared = d.shared) := by
  have hret := sendStop_ret hrole hsession
  have hcases := endpointSend_cases mailmsgNotifyLocked d.mbox d.endpoint d.shared prioCritical
    msgStopRequest none 0 SendResult.zero
  -- the send was refused somewhere, or came as far as the ring and pushed
  change (∃ q, _ ∧ sendStop d = _) ∨ (∃ role q, ∃ h : (prioCritical : Priority).val < 4,
    _ ∧ sendStop d = _) at hcases
  unfold sendStopRequest
  dsimp only
  rcases hcases with ⟨q, hq, heq⟩ | ⟨role, q, hp, hq, heq⟩
  · have hne : (sendStop d).ret ≠ endpointOk := by
      rw [heq]
      exact hq.ret
    rw [if_pos hne]
    refine Or.inr ⟨not_not.mp (mt hret.mpr hne), ?_, rfl, ?_⟩
    · change stopSendErrno (sendStop d) < 0
      unfold stopSendErrno
      -- the errno is of the endpoint's code or, past the endpoint's own, of the ring's
      split_ifs with hle
      · exact ringResultToErrno_neg hne
      · have hsame : (sendStop d).result.queueResult = (sendStop d).ret := by
          rw [heq] at hle ⊢
          exact hq.queue.resolve_left hle
        rw [hsame]
        exact ringResultToErrno_neg hne
    · change (sendStop d).shared = d.shared
      rw [heq]
      exact hq.shared
  · have hok : (sendStop d).ret = endpointOk := by rw [heq]
    have hlinux : role = .linux := by
      have := hq.role_eq
      rw [hrole] at this
      exact (Option.some.inj this).symm
    subst hlinux
    rw [if_neg (not_not.mpr hok)]
    refine Or.inl ⟨hret.mp hok, rfl, ?_⟩
    change (sendStop d).shared = _
    rw [heq]
    exact hq.shared

/-- In an ACTIVE session bound by `start_store` the store starts a stop exactly when it is admitted,
and refuses it otherwise. -/
theorem stopStore_cases (cfg : Config) (isStop : Bool) (count : ℕ) (now : U64) {d : Driver}
    (hactive : d.life.mailmsgState = .active) (hrole : d.endpoint.role = some .linux) :
    (isStop = true ∧ StopAdmitted d ∧ StopStarted d (mailmsgStopStore cfg isStop count now d)) ∨
    (¬ (isStop = true ∧ StopAdmitted d) ∧
      StopRefused d (mailmsgStopStore cfg isStop count now d)) := by
  cases isStop with
  | false => exact Or.inr ⟨by simp, (by decide : -einval < 0), hactive, rfl⟩
  | true =>
    have hstore : mailmsgStopStore cfg true count now d =
        if mailmsgStopPreflightLocked d ≠ 0 then ⟨mailmsgStopPreflightLocked d, [], d⟩
        else ⟨storeResult (sendStopRequest cfg now (stopPending d)).1 count, [],
          (sendStopRequest cfg now (stopPending d)).2⟩ := by
      simp [mailmsgStopStore, hactive]
    rw [hstore]
    by_cases hpre : d.mailmsgUserOpenCount ≠ 0 ∨
        endpointSessionValid d.endpoint d.shared ≠ endpointOk ∨
        ¬ (d.shared.cpu3ToLinux prioCritical).Empty
    · have hneg := preflight_refuses hrole hpre
      rw [if_pos (by omega)]
      refine Or.inr ⟨?_, hneg, hactive, rfl⟩
      rintro ⟨-, hadm⟩
      rcases hpre with h | h | h
      · exact h hadm.files
      · exact h hadm.session
      · exact h hadm.reply
    · simp only [not_or, not_not] at hpre
      obtain ⟨hfiles, hsession, hreply⟩ := hpre
      rw [if_neg (not_not.mpr (preflight_empty hfiles hrole hsession hreply))]
      rcases sendStopRequest_cases cfg now (d := stopPending d) hrole hsession with
        ⟨hroom, hstate, hshared⟩ | ⟨hfull, hret, hstate, hshared⟩
      · exact Or.inl ⟨rfl, ⟨hfiles, hsession, hreply, hroom⟩, hstate, hshared⟩
      · refine Or.inr ⟨fun h => h.2.room hfull, ?_, hstate, hshared⟩
        change storeResult _ _ < 0
        rw [storeResult, if_pos (by omega)]
        exact hret

/-- When a stop is safe: unless some other test refuses it, everything must really be quiet. -/
theorem stop_safe_iff {cfg : Config} {w : World} (h : Reachable cfg w)
    (hactive : w.driver.life.mailmsgState = .active) (isStop : Bool) (count : ℕ) (now : U64) :
    StopSafe w.driver (mailmsgStopStore cfg isStop count now w.driver) ↔
      isStop = false ∨ w.driver.mailmsgUserOpenCount ≠ 0 ∨
      endpointSessionValid w.driver.endpoint w.driver.shared ≠ endpointOk ∨
      ¬ (w.driver.shared.cpu3ToLinux prioCritical).Empty ∨
      next (w.driver.shared.linuxToCpu3 prioCritical).producer =
        (w.driver.shared.linuxToCpu3 prioCritical).consumer ∨
      StopQuiet w.driver := by
  have hlive : w.driver.session.state.Live := by
    change w.driver.life.mailmsgState.Live
    rw [hactive]
    exact ⟨by decide, by decide⟩
  have hrole : w.driver.endpoint.role = some .linux := congrArg Prod.fst (h.inv.live hlive).2.2
  rcases stopStore_cases cfg isStop count now hactive hrole with
    ⟨hstop, hadm, hstarted⟩ | ⟨hnot, hrefused⟩
  · constructor
    · rintro (⟨-, hquiet⟩ | hrefused)
      · tauto
      · have := hstarted.state.symm.trans hrefused.state
        cases this
    · rintro (h' | h' | h' | h' | h' | hquiet)
      · rw [hstop] at h'
        cases h'
      · exact absurd hadm.files h'
      · exact absurd hadm.session h'
      · exact absurd hadm.reply h'
      · exact absurd h' hadm.room
      · exact Or.inl ⟨hstarted, hquiet⟩
  · refine iff_of_true (Or.inr hrefused) ?_
    by_contra hall
    simp only [not_or, not_not] at hall
    obtain ⟨h1, h2, h3, h4, h5, -⟩ := hall
    exact hnot ⟨by simpa using h1, h2, h3, h4, h5⟩

theorem stop_safe_idle :
    StopSafe (runWorld board probedWorld bringUp).driver
      (mailmsgStopStore board true 4 300 (runWorld board probedWorld bringUp).driver) := by
  refine (stop_safe_iff (reachable_runWorld probedWorld_probed board bringUp)
    (by decide +kernel) true 4 300).mpr ?_
  refine Or.inr (Or.inr (Or.inr (Or.inr (Or.inr ⟨?_, ?_, ?_, ?_⟩))))
  all_goals decide +kernel

/-- An ACTIVE session in which one `mailmsg_ping` on p1 has not been consumed. -/
def pingPending : World :=
  runWorld board probedWorld (bringUp ++ [.mailmsgPing (some (1, 7)) 4])

/-- The frame is queued and its doorbell pending, and the stop goes ahead. -/
theorem stop_over_pending_ping :
    Reachable board pingPending ∧ pingPending.driver.life.mailmsgState = .active ∧
      ¬ (pingPending.driver.shared.linuxToCpu3 1).Empty ∧
      hasBit pingPending.driver.mbox.a2b.status 1 = true ∧
      (mailmsgStopStore board true 4 300 pingPending.driver).ret = 4 ∧
      (mailmsgStopStore board true 4 300 pingPending.driver).driver.life.mailmsgState = .stopping ∧
      ¬ StopSafe pingPending.driver (mailmsgStopStore board true 4 300 pingPending.driver) := by
  have hqueued : ¬ (pingPending.driver.shared.linuxToCpu3 1).Empty := by decide +kernel
  have hstate : (mailmsgStopStore board true 4 300 pingPending.driver).driver.life.mailmsgState =
      .stopping := by decide +kernel
  refine ⟨reachable_runWorld probedWorld_probed board _, by decide +kernel, hqueued,
    by decide +kernel, by decide +kernel, hstate, ?_⟩
  rintro (⟨-, hquiet⟩ | hrefused)
  · exact hqueued (hquiet.requests 1)
  · exact absurd (hstate.symm.trans hrefused.state) (by decide)

end Lzamp.R1Amp
