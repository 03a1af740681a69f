import Lzamp.R1Amp.Ownership
import Lzamp.Mailmsg.Traffic

namespace Lzamp.R1Amp
open Mailmsg Lib

/-- `d'` holds no request that `d` did not hold or `ok` allows, and no new reply. -/
structure Traffic (ok : Priority → Message → Prop) (d d' : Driver) : Prop where
  plays : d'.endpoint.Plays .linux
  requests : ∀ q, Ring.Grows (ok q) (d.shared.linuxToCpu3 q) (d'.shared.linuxToCpu3 q)
  replies : ∀ q, Ring.Grows (fun _ => False) (d.shared.cpu3ToLinux q) (d'.shared.cpu3ToLinux q)

namespace Traffic

variable {ok ok' : Priority → Message → Prop} {d d' d'' : Driver}

theorem of_shared (hplays : d'.endpoint.Plays .linux) (h : d'.shared = d.shared) :
    Traffic ok d d' :=
  ⟨hplays, fun _ => .of_eq _ (by rw [h]), fun _ => .of_eq _ (by rw [h])⟩

theorem of_plane (hplays : d.endpoint.Plays .linux) (h : KeepsPlane d d') : Traffic ok d d' :=
  of_shared (h.endpoint ▸ hplays) h.shared

theorem trans (h : Traffic ok d d') (h' : Traffic ok d' d'') : Traffic ok d d'' :=
  ⟨h'.plays, fun q => (h.requests q).trans (h'.requests q),
    fun q => (h.replies q).trans (h'.replies q)⟩

theorem mono (h : Traffic ok d d') (hok : ∀ q m, ok q m → ok' q m) : Traffic ok' d d' :=
  ⟨h.plays, fun q => (h.requests q).mono (hok q), h.replies⟩

end Traffic

section

variable {d : Driver} (hplays : d.endpoint.Plays .linux)
include hplays

theorem traffic_received (ok : Priority → Message → Prop) (p : Priority) :
    Traffic ok d (d.received (endpointReceive d.endpoint d.shared p Message.zero)) := by
  refine ⟨hplays.of_identity (endpointReceive_identity _ _ _ _), fun q => ?_, fun q => ?_⟩
  · exact .of_eq _ (congrFun (tx_endpointReceive hplays d.shared p Message.zero) q)
  · exact rx_endpointReceive_grows hplays d.shared p Message.zero q

theorem traffic_send {d' : Driver} (p : Priority) (type : U32) (payload : Option (List U8))
    (length : U32)
    (hendpoint : d'.endpoint = (endpointSend mailmsgNotifyLocked d.mbox d.endpoint d.shared p type
      payload length SendResult.zero).endpoint)
    (hshared : d'.shared = (endpointSend mailmsgNotifyLocked d.mbox d.endpoint d.shared p type
      payload length SendResult.zero).shared) :
    Traffic (fun q m => q = p ∧ m.type = type ∧ m.length = length ∧
      m.sequence = (endpointNextSequence d.endpoint).1) d d' := by
  refine ⟨?_, fun q => ?_, fun q => ?_⟩
  · rw [hendpoint]
    exact hplays.of_identity (identity_endpointSend _ _ _ _ _ _ _ _ _)
  · rw [hshared]
    refine (tx_endpointSend_grows mailmsgNotifyLocked d.mbox d.endpoint d.shared p type payload
      length SendResult.zero hplays q).mono fun m hm => ⟨hm.1, ?_, ?_, ?_⟩ <;> rw [hm.2] <;> rfl
  · rw [hshared]
    exact .of_eq _ (congrFun (rx_endpointSend _ _ _ _ _ _ _ _ _ hplays) q)

omit hplays in
theorem linuxRingPush_grows (r : Ring) (m : Message) (corrupt : Bool) :
    Ring.Grows (fun x => x.type = m.type) r (mailmsgLinuxRingPush r m corrupt).2 := by
  unfold mailmsgLinuxRingPush
  dsimp only
  split_ifs with hform hfull
  · exact .refl _ r
  · exact .refl _ r
  · exact (Ring.Grows.publish hfull _).mono fun x hx => by rw [hx]
  · exact (Ring.Grows.publish hfull _).mono fun x hx => by rw [hx]

theorem traffic_testEnqueue (p : Priority) (value : U32) (corrupt : Bool) :
    Traffic (fun _ m => m.type = msgPing) d (mailmsgTestEnqueueLocked p value corrupt d).2 := by
  unfold mailmsgTestEnqueueLocked
  dsimp only
  split_ifs
  · exact .of_shared hplays rfl
  · refine ⟨hplays, fun q => ?_, fun q => .refl _ _⟩
    change Ring.Grows _ _ (Function.update d.shared.linuxToCpu3 p _ q)
    by_cases hqp : q = p
    · subst hqp
      rw [Function.update_self]
      exact (linuxRingPush_grows _ _ corrupt).mono fun _ hm => hm
    · rw [Function.update_of_ne hqp]
      exact .refl _ _

theorem traffic_sendPing (parsed : Option (U32 × U32)) (count : ℕ) (corrupt : Bool) :
    Traffic (fun _ m => m.type = msgPing) d (mailmsgSendPing parsed count corrupt d).2 := by
  unfold mailmsgSendPing
  cases priorityArgument parsed with
  | none => exact .of_shared hplays rfl
  | some a =>
    dsimp only
    split_ifs
    · exact .of_shared hplays rfl
    · have h := traffic_testEnqueue hplays a.1 a.2 true
      unfold sendCorruptPing
      dsimp only
      split_ifs
      · exact h
      · exact ⟨h.plays, h.requests, h.replies⟩
    · unfold sendPing
      dsimp only
      split_ifs <;> exact (traffic_send hplays a.1 msgPing _ _ rfl rfl).mono fun _ _ hm => hm.2.1

theorem traffic_queuePush (parsed : Option (U32 × U32)) (count : ℕ) :
    Traffic (fun _ m => m.type = msgPing) d (mailmsgQueuePushStore parsed count d).2 := by
  unfold mailmsgQueuePushStore
  cases priorityArgument parsed with
  | none => exact .of_shared hplays rfl
  | some a =>
    dsimp only
    split_ifs
    · exact .of_shared hplays rfl
    · exact traffic_testEnqueue hplays a.1 a.2 false

theorem traffic_userReadTry (ok : Priority → Message → Prop) (nonblock copyFault : Bool)
    (file : UserFile) : Traffic ok d (mailmsgUserReadTry nonblock copyFault file d).2 := by
  unfold mailmsgUserReadTry
  dsimp only
  split_ifs
  · exact .of_shared hplays rfl
  · exact traffic_received hplays ok file.channel

theorem traffic_userWrite (count : ℕ) (frame : Option UserFrame) (file : UserFile) :
    Traffic (fun q m => (∃ f, frame = some f ∧ q = file.channel ∧ m.type = f.type) ∧
        m.sequence = (endpointNextSequence d.endpoint).1) d
      (mailmsgUserWrite count frame file d).2 := by
  unfold mailmsgUserWrite
  split_ifs
  · exact .of_shared hplays rfl
  · cases frame with
    | none => exact .of_shared hplays rfl
    | some frame =>
      dsimp only
      split_ifs
      · exact .of_shared hplays rfl
      · exact .of_shared hplays rfl
      · exact (traffic_send hplays file.channel frame.type _ _ rfl rfl).mono
          fun q m hm => ⟨⟨frame, rfl, hm.1, hm.2.1⟩, hm.2.2.2⟩

end

theorem traffic_responseShow (ok : Priority → Message → Prop) {fuel : ℕ} {d d' : Driver}
    {lines : List ResponseLine} (hplays : d.endpoint.Plays .linux)
    (h : mailmsgResponseShow fuel d = some (d', lines)) : Traffic ok d d' := by
  refine responseShow_rule (P := Traffic ok d) (fun p d₁ hd => ?_) (.of_shared hplays rfl) h
  exact hd.trans (traffic_received hd.plays ok p)

/-- What `control_work` does: it takes replies, keeps the number of the request, and moves the state
only on a deadline or on a frame it found in the reverse ring of p0. -/
structure ControlTraffic (d d' : Driver) : Prop where
  traffic : Traffic (fun _ _ => False) d d'
  sequence : d'.life.stopRequestSequence = d.life.stopRequestSequence
  state : d'.life.mailmsgState = d.life.mailmsgState ∨
    d'.life.mailmsgState = d.life.mailmsgState.expired ∨
    ((d.shared.cpu3ToLinux prioCritical).InRange →
      ∃ m ∈ (d.shared.cpu3ToLinux prioCritical).contents,
        d.life.mailmsgState = .starting ∨ m.type = msgStopRefused)

/-- A round that goes on keeps the state. -/
def RoundTraffic (d : Driver) : Round → Prop
  | .again d' _ => ControlTraffic d d' ∧ d'.life.mailmsgState = d.life.mailmsgState
  | .leave d' _ => ControlTraffic d d'

theorem setTimeout_state (d : Driver) :
    (mailmsgSetTimeoutLocked d).life.mailmsgState = d.life.mailmsgState.expired ∧
      (mailmsgSetTimeoutLocked d).life.stopRequestSequence = d.life.stopRequestSequence := by
  unfold mailmsgSetTimeoutLocked
  cases hs : d.life.mailmsgState <;> exact ⟨by simp [hs, SessionState.expired], rfl⟩

theorem controlError_life (d : Driver) (ret : Int) :
    (controlError d ret).life.mailmsgState = d.life.mailmsgState ∧
      (controlError d ret).life.stopRequestSequence = d.life.stopRequestSequence := by
  unfold controlError
  dsimp only
  split_ifs <;> exact ⟨rfl, rfl⟩

theorem controlRound_traffic (cfg : Config) (now rearm : U64) {d : Driver}
    (hplays : d.endpoint.Plays .linux) : RoundTraffic d (controlRound cfg now rearm d) := by
  have htraffic := traffic_received hplays (fun _ _ => False) prioCritical
  have hkeep : ∀ life user, Traffic (fun _ _ => False) d
      { d.received (endpointReceive d.endpoint d.shared prioCritical Message.zero) with
        life := life, user := user } :=
    fun _ _ => ⟨htraffic.plays, htraffic.requests, htraffic.replies⟩
  have hquiet : ControlTraffic d (d.received (endpointReceive d.endpoint d.shared prioCritical
      Message.zero)) := ⟨htraffic, rfl, Or.inl rfl⟩
  have herror := controlError_life (d.received (endpointReceive d.endpoint d.shared prioCritical
    Message.zero)) (endpointReceive d.endpoint d.shared prioCritical Message.zero).ret
  unfold controlRound controlFrame
  dsimp only
  split_ifs with hempty hstale hret hlow hlate hstart hready hreply hstopReady
  · exact hquiet
  · exact ⟨hquiet, rfl⟩
  · exact ⟨hkeep _ _, herror.2, Or.inl herror.1⟩
  · exact ⟨⟨hkeep _ _, herror.2, Or.inl herror.1⟩, herror.1⟩
  · have htimeout := setTimeout_state (d.received (endpointReceive d.endpoint d.shared
      prioCritical Message.zero))
    exact ⟨hkeep _ _, htimeout.2, Or.inr (Or.inl htimeout.1)⟩
  · refine ⟨hkeep _ _, rfl, Or.inr (Or.inr fun hr => ?_)⟩
    exact ⟨_, endpointReceive_mem hplays d.shared prioCritical Message.zero hr (not_not.mp hret),
      Or.inl hstart⟩
  · exact ⟨hquiet, rfl⟩
  · exact ⟨hquiet, rfl⟩
  · exact ⟨hkeep _ _, rfl, Or.inl rfl⟩
  · refine ⟨hkeep _ _, rfl, Or.inr (Or.inr fun hr => ?_)⟩
    refine ⟨_, endpointReceive_mem hplays d.shared prioCritical Message.zero hr (not_not.mp hret),
      Or.inr ?_⟩
    -- a reply that is not STOP_READY
    simp only [isStopReply, Bool.not_eq_true', decide_eq_false_iff_not, not_not] at hreply
    exact hreply.1.resolve_left hstopReady

theorem ControlTraffic.trans {d d' d'' : Driver} (h : ControlTraffic d d')
    (hstate : d'.life.mailmsgState = d.life.mailmsgState) (h' : ControlTraffic d' d'') :
    ControlTraffic d d'' := by
  refine ⟨h.traffic.trans h'.traffic, h'.sequence.trans h.sequence, ?_⟩
  have hreplies := h.traffic.replies prioCritical
  rw [← hstate]
  refine h'.state.imp id (Or.imp id fun hframe hr => ?_)
  obtain ⟨m, hm, hwhy⟩ := hframe (hreplies.inRange hr)
  exact ⟨m, (hreplies.contents hr m hm).resolve_right id, hwhy⟩

theorem controlLoop_traffic {cfg : Config} {clock : ℕ → U64} {fuel i : ℕ} {d d' : Driver}
    {log es : List Effect} (hplays : d.endpoint.Plays .linux)
    (h : controlLoop cfg clock fuel i d log = some (d', es)) : ControlTraffic d d' := by
  refine controlLoop_rule (Q := fun d' _ => ControlTraffic d d')
    (P := fun d₁ _ => ControlTraffic d d₁ ∧ d₁.life.mailmsgState = d.life.mailmsgState) ?_ ?_
    ⟨⟨.of_shared hplays rfl, rfl, Or.inl rfl⟩, rfl⟩ h
  · rintro now rearm d₁ - d₂ es₂ ⟨hbefore, hstate⟩ hround
    have hnext := controlRound_traffic cfg now rearm hbefore.traffic.plays
    rw [hround] at hnext
    exact ⟨hbefore.trans hstate hnext.1, hnext.2.trans hstate⟩
  · rintro now rearm d₁ - d₂ es₂ ⟨hbefore, hstate⟩ hround
    have hlast := controlRound_traffic cfg now rearm hbefore.traffic.plays
    rw [hround] at hlast
    exact hbefore.trans hstate hlast

theorem controlWork_traffic {cfg : Config} {start : U64} {clock : ℕ → U64} {fuel : ℕ}
    {d d' : Driver} {es : List Effect} (hplays : d.endpoint.Plays .linux)
    (h : mailmsgControlWork cfg start clock fuel d = some (d', es)) : ControlTraffic d d' := by
  unfold mailmsgControlWork at h
  split_ifs at h
  · cases h
    exact ⟨.of_shared hplays rfl, rfl, Or.inl rfl⟩
  · cases h
    exact ⟨.of_shared hplays rfl, (setTimeout_state d).2, Or.inr (Or.inl (setTimeout_state d).1)⟩
  · exact controlLoop_traffic hplays h

theorem sendStop_sequence {d : Driver} (h : (sendStop d).ret = endpointOk) :
    (sendStop d).result.sequence = (endpointNextSequence d.endpoint).1 := by
  have hcases := endpointSend_cases mailmsgNotifyLocked d.mbox d.endpoint d.shared prioCritical
    msgStopRequest none 0 SendResult.zero
  rcases hcases with ⟨q, hq, heq⟩ | ⟨role, q, hp, hq, heq⟩
  · rw [sendStop, heq] at h
    exact absurd h hq.ret
  · rw [sendStop, heq]
    dsimp only
    rw [hq.result]

/-- Nothing was sent, and the number of a request under way is kept. -/
structure StopUnsent (d d' : Driver) : Prop where
  traffic : Traffic (fun _ _ => False) d d'
  state : d'.life.mailmsgState = d.life.mailmsgState
  sequence : d.life.mailmsgState ≠ .active →
    d'.life.stopRequestSequence = d.life.stopRequestSequence

/-- The session leaves ACTIVE with the empty STOP_REQUEST `m`, whose number is noted, behind the
frames of the p0 ring. -/
structure StopSent (d d' : Driver) (m : Message) : Prop where
  before : d.life.mailmsgState = .active
  state : d'.life.mailmsgState = .stopping
  length : m.length = 0
  sequence : m.sequence = d'.life.stopRequestSequence
  traffic : Traffic (fun q x => q = prioCritical ∧ x = m) d d'
  queued : (d.shared.linuxToCpu3 prioCritical).InRange →
    (d'.shared.linuxToCpu3 prioCritical).contents =
      (d.shared.linuxToCpu3 prioCritical).contents ++ [m]

theorem sendStopRequest_traffic (cfg : Config) (now : U64) {d : Driver}
    (hplays : d.endpoint.Plays .linux) (hactive : d.life.mailmsgState = .active) :
    StopUnsent d (sendStopRequest cfg now (stopPending d)).2 ∨
      ∃ m, StopSent d (sendStopRequest cfg now (stopPending d)).2 m := by
  unfold sendStopRequest
  dsimp only
  by_cases hret : (sendStop (stopPending d)).ret = endpointOk
  · rw [if_neg (not_not.mpr hret)]
    have hsent : Traffic _ (stopPending d) (stopQueued cfg now (sendStop (stopPending d))
        ((stopPending d).sentStop (sendStop (stopPending d)))) :=
      traffic_send (d := stopPending d) hplays prioCritical msgStopRequest none 0 rfl rfl
    refine Or.inr ⟨(composeFrame d.endpoint.generation msgStopRequest
      (endpointNextSequence d.endpoint).1 0 none).seal, hactive, rfl, rfl, ?_, ?_, fun hr => ?_⟩
    · exact (sendStop_sequence hret).symm
    · exact ⟨hsent.plays, fun q => tx_endpointSend_grows _ _ _ _ _ _ _ _ _ hplays q, hsent.replies⟩
    · exact contents_endpointSend _ _ _ _ _ _ _ _ _ hplays hr hret
  · rw [if_pos hret]
    have hshared : (sendStop (stopPending d)).shared = d.shared := by
      rcases endpointSend_cases mailmsgNotifyLocked (stopPending d).mbox d.endpoint d.shared
        prioCritical msgStopRequest none 0 SendResult.zero with ⟨q, hq, heq⟩ | ⟨_, _, _, _, heq⟩
      · exact (congrArg Sent.shared heq).trans hq.shared
      · exact absurd (congrArg Sent.ret heq) hret
    refine Or.inl ⟨.of_shared ?_ hshared, hactive.symm, fun hne => absurd hactive hne⟩
    exact hplays.of_identity (identity_endpointSend _ _ _ _ _ _ _ _ _)

theorem stopStore_traffic (cfg : Config) (isStop : Bool) (count : ℕ) (now : U64) {d : Driver}
    (hplays : d.endpoint.Plays .linux) :
    StopUnsent d (mailmsgStopStore cfg isStop count now d).driver ∨
      ∃ m, StopSent d (mailmsgStopStore cfg isStop count now d).driver m := by
  have hkept : StopUnsent d d := ⟨.of_shared hplays rfl, rfl, fun _ => rfl⟩
  unfold mailmsgStopStore
  dsimp only
  split_ifs with htext hoffline hactive hpreflight
  · exact Or.inl hkept
  · exact Or.inl hkept
  · exact Or.inl hkept
  · exact Or.inl hkept
  · exact sendStopRequest_traffic cfg now hplays (not_not.mp hactive)

/-- The frames an operation may add to the request rings. -/
def Op.Sends : Op → Priority → Message → Prop
  | .userWrite file _ frame, q, m => ∃ f, frame = some f ∧ q = file.channel ∧ m.type = f.type
  | .stopStore .., q, _ => q = prioCritical
  | .mailmsgPing .., _, m | .mailmsgCrcInject .., _, m | .mailmsgQueuePush .., _, m =>
    m.type = msgPing
  | _, _, _ => False

/-- The control page was cleared for a new session. -/
structure PageCleared (d : Driver) : Prop where
  plays : d.endpoint.Plays .linux
  page : ∃ generation, d.shared = freshShared generation

theorem execFile_traffic {w w' : World} {op : Op} {out : Output}
    (hplays : w.driver.endpoint.Plays .linux) (h : execFile w op = some (out, w')) :
    Traffic op.Sends w.driver w'.driver := by
  cases op with
  | userRelease file =>
    simp only [execFile] at h
    split_ifs at h
    cases h
    unfold mailmsgUserRelease
    dsimp only
    split_ifs <;> exact .of_shared hplays rfl
  | userReadEnter file count =>
    have hkeep : Traffic (Op.Sends (.userReadEnter file count)) w.driver _ :=
      .of_plane hplays (keepsPlane_claimReader file w.driver)
    simp only [execFile] at h
    split_ifs at h <;> cases h
    · exact .of_shared hplays rfl
    · exact .of_shared hplays rfl
    · exact hkeep
  | userReadSample file i =>
    simp only [execFile] at h
    split_ifs at h
    cases h
    exact .of_shared hplays rfl
  | userReadTry file i nonblock copyFault =>
    simp only [execFile] at h
    split_ifs at h
    split at h
    · split at h <;> cases h <;> exact traffic_userReadTry hplays _ nonblock copyFault file
    · cases h
  | userReadWake file i signalled =>
    simp only [execFile] at h
    split_ifs at h
    · split at h <;> cases h
      exact .of_shared hplays rfl
    · split at h
      · split_ifs at h
        cases h
        exact .of_shared hplays rfl
      · cases h
  | userWrite file count frame =>
    simp only [execFile] at h
    split_ifs at h
    cases h
    -- the one operation on a file that sends: the frame it was given, on the file's own ring
    exact (traffic_userWrite hplays count frame file).mono fun _ _ hm => hm.1
  | userPoll file =>
    simp only [execFile] at h
    split_ifs at h
    cases h
    have hkeep := keepsPlane_claimReader file w.driver
    unfold mailmsgUserPoll
    dsimp only
    split_ifs <;> exact .of_plane hplays hkeep
  | _ => simp [execFile] at h

theorem dataPlane_traffic {cfg : Config} {w w' : World} {op : Op} {out : Output}
    (hop : op.isLifecycle = false) (hpeer : ∀ shared status, op ≠ .peer shared status)
    (hplays : w.driver.endpoint.Plays .linux) (h : exec cfg w op = some (out, w')) :
    Traffic op.Sends w.driver w'.driver := by
  cases op with
  | userOpen id p allocated =>
    simp only [exec, mailmsgUserOpen] at h
    split_ifs at h <;> cases h <;> exact .of_shared hplays rfl
  | doorbell parsed count =>
    cases h
    -- a raw doorbell writes the mailbox only
    obtain ⟨mbox, heq⟩ := doorbellStore_bells parsed count w.driver
    change Traffic _ w.driver (doorbellStore parsed count w.driver).2
    rw [heq]
    exact .of_shared hplays rfl
  | mailmsgPing parsed count =>
    cases h
    exact traffic_sendPing hplays parsed count false
  | mailmsgCrcInject parsed count =>
    cases h
    exact traffic_sendPing hplays parsed count true
  | mailmsgNotifyInject text count =>
    cases h
    obtain ⟨mbox, heq⟩ := notifyInjectStore_bells text count w.driver
    change Traffic _ w.driver (mailmsgNotifyInjectStore text count w.driver).2
    rw [heq]
    exact .of_shared hplays rfl
  | mailmsgQueuePush parsed count =>
    cases h
    exact traffic_queuePush hplays parsed count
  | mailmsgResponse fuel =>
    simp only [exec, Option.map_eq_some_iff] at h
    obtain ⟨r, hr, heq⟩ := h
    cases heq
    exact traffic_responseShow _ hplays hr
  | mboxRx p message =>
    cases h
    exact .of_shared hplays rfl
  | peer shared status => exact absurd rfl (hpeer shared status)
  | userRelease | userReadEnter | userReadSample | userReadTry | userReadWake | userWrite
  | userPoll =>
    simp only [exec] at h
    exact execFile_traffic hplays h
  | _ => simp [Op.isLifecycle] at hop

theorem startStore_traffic (cfg : Config) (isStart : Bool) (count : ℕ) (affinity cpuOn : Int)
    (now : U64) {d : Driver} (hplays : d.endpoint.Plays .linux) (ok : Priority → Message → Prop) :
    Traffic ok d (startStore cfg isStart count affinity cpuOn now d).driver ∨
      (affinity = affinityOff ∧
        PageCleared (startStore cfg isStart count affinity cpuOn now d).driver) := by
  have hrefresh := keepsPlane_refreshAffinity affinity d
  have hplays' : (refreshAffinityLocked affinity d).endpoint.Plays .linux :=
    hrefresh.endpoint ▸ hplays
  have hcleared : PageCleared (openSession (refreshAffinityLocked affinity d)).2 :=
    ⟨endpointBind_plays hplays' _, _, rfl⟩
  unfold startStore startSession
  dsimp only
  split_ifs with htext hatt himage hops haff hbound
  · exact Or.inl (.of_shared hplays rfl)
  · exact Or.inl (.of_shared hplays rfl)
  · exact Or.inl (.of_shared hplays rfl)
  · exact Or.inl (.of_shared hplays rfl)
  · exact Or.inl (.of_plane hplays hrefresh)
  · exact Or.inr ⟨(affinityState_refresh affinity d).symm.trans (not_not.mp haff), hcleared⟩
  · exact Or.inr ⟨(affinityState_refresh affinity d).symm.trans (not_not.mp haff),
      hcleared.plays, hcleared.page⟩

theorem rearmStore_traffic (cfg : Config) (isRearm : Bool) (count : ℕ) (affinity : Int)
    {d : Driver} (hplays : d.endpoint.Plays .linux) (ok : Priority → Message → Prop) :
    Traffic ok d (rearmStore cfg isRearm count affinity d).driver := by
  have hrefresh := keepsPlane_refreshAffinity affinity d
  unfold rearmStore
  dsimp only
  split_ifs
  · exact .of_shared hplays rfl
  · exact .of_shared hplays rfl
  · exact .of_shared hplays rfl
  · exact .of_shared hplays rfl
  · exact .of_plane hplays hrefresh
  · exact .of_plane hplays hrefresh
  · exact .of_shared (Or.inl rfl) hrefresh.shared

/-- Every operation of the driver adds to the request rings what it sends, or clears them all; it
does that only when CPU3 reads off. -/
theorem exec_traffic {cfg : Config} {w w' : World} {op : Op} {out : Output}
    (hpeer : ∀ shared status, op ≠ .peer shared status)
    (hplays : w.driver.endpoint.Plays .linux) (h : exec cfg w op = some (out, w')) :
    Traffic op.Sends w.driver w'.driver ∨
      (affinityOf op = some affinityOff ∧ PageCleared w'.driver) := by
  cases hop : op.isLifecycle with
  | false => exact Or.inl (dataPlane_traffic hop hpeer hplays h)
  | true =>
    cases op with
    | imageWrite off buf =>
      cases h
      simp only [World.withDriver, imageWrite]
      split_ifs <;> exact Or.inl (.of_shared hplays rfl)
    | startStore isStart count affinity cpuOn now =>
      cases h
      refine (startStore_traffic cfg isStart count affinity cpuOn now hplays _).imp id ?_
      exact And.imp (congrArg some) id
    | rearmStore isRearm count affinity =>
      cases h
      exact Or.inl (rearmStore_traffic cfg isRearm count affinity hplays _)
    | stopStore isStop count now =>
      cases h
      rcases stopStore_traffic cfg isStop count now hplays with hstop | ⟨m, hstop⟩
      · exact Or.inl (hstop.traffic.mono fun _ _ hf => hf.elim)
      · exact Or.inl (hstop.traffic.mono fun _ _ hm => hm.1)
    | controlWork start clock fuel =>
      simp only [exec, Option.map_eq_some_iff] at h
      obtain ⟨r, hr, heq⟩ := h
      cases heq
      exact Or.inl ((controlWork_traffic hplays hr).traffic.mono fun _ _ hf => hf.elim)
    | lifecycleTimeoutWork now affinity =>
      cases h
      exact Or.inl (.of_plane hplays (keepsPlane_lifecycleTimeoutWork now affinity w.driver))
    | affinityWork affinity =>
      cases h
      exact Or.inl (.of_plane hplays (keepsPlane_affinityWork affinity w.driver))
    | affinityStateShow affinity =>
      cases h
      exact Or.inl (.of_plane hplays (keepsPlane_affinityStateShow cfg affinity w.driver))
    | _ => simp [Op.isLifecycle] at hop

end Lzamp.R1Amp
