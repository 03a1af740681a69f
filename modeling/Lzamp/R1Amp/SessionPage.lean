import Lzamp.Mailmsg.SessionFrames
import Lzamp.R1Amp.FaultInjection
import Lzamp.R1Amp.StopOwner

namespace Lzamp.R1Amp
open Mailmsg Lib

/-- The endpoint is not bound, or bound in the newest session. -/
structure Session.Bound (s : Session) : Prop where
  role : s.bound.1 = none ∨ s.bound.1 = some .linux
  generation : s.bound.1 ≠ none → s.bound.2 = s.generation ∧ s.generation ≠ 0

theorem Change.bound {s s' : Session} {label : Op × Output} (h : Change s label s')
    (hs : s.Bound) : s'.Bound := by
  cases h with
  | rearm => exact ⟨Or.inl rfl, fun hne => absurd rfl hne⟩
  | start => exact ⟨Or.inr rfl, fun _ => ⟨rfl, nextGeneration_ne_zero _⟩⟩
  | _ => exact ⟨hs.role, hs.generation⟩

/-- The driver and its page, in a run where frames may be `damaged`. -/
structure SessionPage (damaged : Prop) (d : Driver) : Prop where
  bound : d.session.Bound
  page : d.life.sessionGeneration ≠ 0 → d.shared.OfSession damaged d.life.sessionGeneration

theorem World.Probed.sessionPage {w : World} (h : w.Probed) (damaged : Prop) :
    SessionPage damaged w.driver := by
  have hendpoint : w.driver.session.bound = (none, 0) := by
    change w.driver.endpoint.identity = _
    rw [h.endpoint]
    rfl
  have hgeneration : w.driver.life.sessionGeneration = 0 := by
    rw [h.life]
    rfl
  refine ⟨⟨Or.inl (by rw [hendpoint]), fun hne => absurd (by rw [hendpoint]) hne⟩, ?_⟩
  exact fun hne => absurd hgeneration hne

section

variable {damaged : Prop} {d : Driver}

theorem SessionPage.plays (h : SessionPage damaged d) : d.endpoint.Plays .linux := h.bound.role

theorem SessionPage.generation (h : SessionPage damaged d) (hne : d.endpoint.role ≠ none) :
    d.endpoint.generation = d.life.sessionGeneration := (h.bound.generation hne).1

theorem SessionPage.of_role (h : SessionPage damaged d) (hne : d.endpoint.role ≠ none) :
    d.shared.OfSession damaged d.life.sessionGeneration := h.page (h.bound.generation hne).2

theorem SessionPage.valid (h : SessionPage damaged d) (hne : d.endpoint.role ≠ none) :
    endpointSessionValid d.endpoint d.shared = endpointOk :=
  (h.of_role hne).valid hne (h.generation hne)

theorem SessionPage.receive_ret (h : SessionPage damaged d) (hne : d.endpoint.role ≠ none)
    (p : Priority) (message : Message) :
    (endpointReceive d.endpoint d.shared p message).ret = ringOk ∨
      (endpointReceive d.endpoint d.shared p message).ret = ringEmpty := by
  have hrole : d.endpoint.role = some .linux := h.plays.resolve_left hne
  have hreplies := (h.of_role hne).replies p
  rw [← h.generation hne] at hreplies
  rcases endpointReceive_ofSession hrole (h.valid hne) hreplies message with hok | hempty | hbad
  · exact Or.inl hok
  · exact Or.inr hempty
  · exact hbad.1.elim

/-- A page of the session stays one. -/
def KeepsPage (damaged : Prop) (d d' : Driver) : Prop :=
  d.session.Bound → d.shared.OfSession damaged d.life.sessionGeneration →
    d'.shared.OfSession damaged d.life.sessionGeneration

theorem KeepsPage.of_shared {d' : Driver} (h : d'.shared = d.shared) : KeepsPage damaged d d' := by
  intro _ hpage
  rw [h]
  exact hpage

theorem keepsPage_received (d : Driver) (p : Priority) :
    KeepsPage damaged d (d.received (endpointReceive d.endpoint d.shared p Message.zero)) := by
  intro hbound hpage
  exact hpage.receive hbound.role p Message.zero

theorem keepsPage_send {d' : Driver} (mbox : Mbox) (p : Priority) (type : U32)
    (payload : Option (List U8)) (length : U32)
    (h : d'.shared = (endpointSend mailmsgNotifyLocked mbox d.endpoint d.shared p type
      payload length SendResult.zero).shared) : KeepsPage damaged d d' := by
  intro hbound hpage
  rw [h]
  exact hpage.send _ _ _ _ _ _ _ hbound.role fun hne => (hbound.generation hne).1

theorem linuxRingPush_ofSession (r : Ring) (m : Message) {corrupt : Bool}
    (hcorrupt : corrupt = true → damaged) :
    Ring.Grows (Message.OfSession damaged m.generation) r
      (mailmsgLinuxRingPush r m corrupt).2 := by
  rw [mailmsgLinuxRingPush_eq]
  split_ifs with hform hfull hc
  · exact .refl _ r
  · exact .refl _ r
  · refine (Ring.Grows.publish hfull _).mono fun x hx => ?_
    rw [hx]
    refine ⟨?_, ?_, Or.inr ⟨hcorrupt hc, frameCheck_payloadFault hform⟩⟩ <;>
      rw [corrupt_payloadFault] <;> rfl
  · refine (Ring.Grows.publish hfull _).mono fun x hx => ?_
    rw [hx]
    exact (Message.ofSession_seal hform).mono False.elim

theorem keepsPage_testEnqueue (d : Driver) (p : Priority) (value : U32) {corrupt : Bool}
    (hcorrupt : corrupt = true → damaged) :
    KeepsPage damaged d (mailmsgTestEnqueueLocked p value corrupt d).2 := by
  unfold mailmsgTestEnqueueLocked
  dsimp only
  split_ifs with hheader
  · exact .of_shared rfl
  · intro _ h
    simp only [not_or, not_not] at hheader
    have hgeneration : d.endpoint.generation = d.life.sessionGeneration :=
      hheader.2.2.symm.trans (congrArg (fun t => t.2.2) h.header)
    refine ⟨h.header, h.begun, fun q => ?_, h.replies⟩
    change (Function.update d.shared.linuxToCpu3 p _ q).Holds _
    by_cases hqp : q = p
    · subst hqp
      rw [Function.update_self]
      refine (linuxRingPush_ofSession _ _ hcorrupt).holds (h.requests q) fun m hm => ?_
      rw [← hgeneration]
      exact hm
    · rw [Function.update_of_ne hqp]
      exact h.requests q

theorem keepsPage_sendPing (d : Driver) (parsed : Option (U32 × U32)) (count : ℕ) {corrupt : Bool}
    (hcorrupt : corrupt = true → damaged) :
    KeepsPage damaged d (mailmsgSendPing parsed count corrupt d).2 := by
  unfold mailmsgSendPing
  cases priorityArgument parsed with
  | none => exact .of_shared rfl
  | some a =>
    dsimp only
    split_ifs with hgate hc
    · exact .of_shared rfl
    · have h : KeepsPage damaged d (mailmsgTestEnqueueLocked a.1 a.2 true d).2 :=
        keepsPage_testEnqueue d a.1 a.2 fun _ => hcorrupt hc
      unfold sendCorruptPing
      dsimp only
      split_ifs <;> exact h
    · unfold sendPing
      dsimp only
      split_ifs <;> exact keepsPage_send d.mbox a.1 msgPing _ 4 rfl

theorem keepsPage_queuePush (d : Driver) (parsed : Option (U32 × U32)) (count : ℕ) :
    KeepsPage damaged d (mailmsgQueuePushStore parsed count d).2 := by
  unfold mailmsgQueuePushStore
  cases priorityArgument parsed with
  | none => exact .of_shared rfl
  | some a =>
    dsimp only
    split_ifs
    · exact .of_shared rfl
    · exact keepsPage_testEnqueue d a.1 a.2 fun h => absurd h (by decide)

theorem keepsPage_userWrite (d : Driver) (count : ℕ) (frame : Option UserFrame) (file : UserFile) :
    KeepsPage damaged d (mailmsgUserWrite count frame file d).2 := by
  unfold mailmsgUserWrite
  split_ifs
  · exact .of_shared rfl
  · cases frame with
    | none => exact .of_shared rfl
    | some frame =>
      dsimp only
      split_ifs
      · exact .of_shared rfl
      · exact .of_shared rfl
      · exact keepsPage_send d.mbox file.channel frame.type _ frame.length rfl

theorem keepsPage_userReadTry (d : Driver) (nonblock copyFault : Bool) (file : UserFile) :
    KeepsPage damaged d (mailmsgUserReadTry nonblock copyFault file d).2 := by
  unfold mailmsgUserReadTry
  dsimp only
  split_ifs
  · exact .of_shared rfl
  · exact keepsPage_received d file.channel

/-- What a loop over receives keeps: the page, and the binding that the next receive needs. -/
def DrainsPage (damaged : Prop) (d d' : Driver) : Prop :=
  KeepsPage damaged d d' ∧ d'.session.bound = d.session.bound

theorem DrainsPage.refl (d : Driver) : DrainsPage damaged d d := ⟨.of_shared rfl, rfl⟩

theorem DrainsPage.received {d' d'' : Driver} {p : Priority} (h : DrainsPage damaged d d')
    (hendpoint : d''.endpoint.identity = d'.endpoint.identity)
    (hshared : d''.shared = (endpointReceive d'.endpoint d'.shared p Message.zero).shared) :
    DrainsPage damaged d d'' := by
  refine ⟨fun hbound hpage => ?_, hendpoint.trans h.2⟩
  have hplays : d'.endpoint.Plays .linux := by
    change d'.session.bound.1 = none ∨ d'.session.bound.1 = some .linux
    rw [h.2]
    exact hbound.role
  rw [hshared]
  exact (h.1 hbound hpage).receive hplays p Message.zero

theorem drainsPage_responseShow {fuel : ℕ} {d' : Driver} {lines : List ResponseLine}
    (h : mailmsgResponseShow fuel d = some (d', lines)) : DrainsPage damaged d d' :=
  responseShow_rule (P := DrainsPage damaged d)
    (fun _ _ hd => hd.received (endpointReceive_identity _ _ _ _) rfl) (.refl d) h

theorem DrainsPage.round (cfg : Config) (now rearm : U64) {d' : Driver} (h : DrainsPage damaged d d') :
    DrainsPage damaged d (controlRound cfg now rearm d').driver := by
  unfold controlRound controlFrame controlError mailmsgSetTimeoutLocked
  dsimp only
  split_ifs <;> exact h.received (p := prioCritical) (endpointReceive_identity _ _ _ _) rfl

theorem keepsPage_controlWork {cfg : Config} {start : U64} {clock : ℕ → U64} {fuel : ℕ}
    {d' : Driver} {es : List Effect}
    (h : mailmsgControlWork cfg start clock fuel d = some (d', es)) : KeepsPage damaged d d' := by
  unfold mailmsgControlWork at h
  split_ifs at h
  · cases h
    exact .of_shared rfl
  · cases h
    exact .of_shared (keepsPlane_setTimeout d).shared
  · exact (controlLoop_keeps (P := fun d₁ _ => DrainsPage damaged d d₁)
      (fun now rearm d₁ _ hd => hd.round cfg now rearm) (.refl d) h).1

theorem keepsPage_stopStore (cfg : Config) (isStop : Bool) (count : ℕ) (now : U64) (d : Driver) :
    KeepsPage damaged d (mailmsgStopStore cfg isStop count now d).driver := by
  unfold mailmsgStopStore sendStopRequest
  dsimp only
  split_ifs
  · exact .of_shared rfl
  · exact .of_shared rfl
  · exact .of_shared rfl
  · exact .of_shared rfl
  · exact keepsPage_send _ prioCritical msgStopRequest none 0 rfl
  · exact keepsPage_send _ prioCritical msgStopRequest none 0 rfl
  · exact keepsPage_send _ prioCritical msgStopRequest none 0 rfl

theorem keepsPage_rearmStore (cfg : Config) (isRearm : Bool) (count : ℕ) (affinity : Int)
    (d : Driver) : KeepsPage damaged d (rearmStore cfg isRearm count affinity d).driver := by
  have hrefresh := (keepsPlane_refreshAffinity affinity d).shared
  unfold rearmStore
  dsimp only
  split_ifs
  · exact .of_shared rfl
  · exact .of_shared rfl
  · exact .of_shared rfl
  · exact .of_shared rfl
  · exact .of_shared hrefresh
  · exact .of_shared hrefresh
  · exact .of_shared hrefresh

theorem freshShared_ofSession {g : U32} (h : g ≠ 0) : (freshShared g).OfSession damaged g :=
  ⟨rfl, h, fun _ => Ring.holds_zero _, fun _ => Ring.holds_zero _⟩

theorem sessionGeneration_refreshAffinity (a : Int) (d : Driver) :
    (refreshAffinityLocked a d).life.sessionGeneration = d.life.sessionGeneration := by
  rcases refreshAffinity_cases a d with h | ⟨-, -, -, -, h⟩ <;> rw [h] <;> rfl

/-- `start_store` opens a new session over a cleared page, and only if CPU3 reads off. -/
theorem startStore_page (cfg : Config) (isStart : Bool) (count : ℕ) (affinity cpuOn : Int)
    (now : U64) (d : Driver) {d' : Driver}
    (hd : (startStore cfg isStart count affinity cpuOn now d).driver = d') :
    (d'.shared = d.shared ∧ d'.life.sessionGeneration = d.life.sessionGeneration) ∨
      (affinity = affinityOff ∧ d'.life.sessionGeneration ≠ 0 ∧
        d'.shared = freshShared d'.life.sessionGeneration) := by
  have hrefresh := (keepsPlane_refreshAffinity affinity d).shared
  have hgeneration := sessionGeneration_refreshAffinity affinity d
  subst hd
  unfold startStore
  dsimp only
  split_ifs with htext hatt himage hops haff
  · exact Or.inl ⟨rfl, rfl⟩
  · exact Or.inl ⟨rfl, rfl⟩
  · exact Or.inl ⟨rfl, rfl⟩
  · exact Or.inl ⟨rfl, rfl⟩
  · exact Or.inl ⟨hrefresh, hgeneration⟩
  · refine Or.inr ⟨(affinityState_refresh affinity d).symm.trans (not_not.mp haff), ?_⟩
    rw [startSession_eq]
    have hlaunched : ∀ l : Lifecycle,
        (launched cfg cpuOn now l).sessionGeneration = l.sessionGeneration := by
      intro l
      unfold launched
      split_ifs <;> rfl
    dsimp only
    rw [hlaunched]
    exact ⟨nextGeneration_ne_zero _, rfl⟩

theorem Change.generation_eq {s s' : Session} {op : Op} {out : Output} (h : Change s (op, out) s')
    (hop : ∀ isStart count affinity cpuOn now, op ≠ .startStore isStart count affinity cpuOn now) :
    s'.generation = s.generation := by
  cases h with
  | start => exact absurd rfl (hop _ _ _ _ _)
  | _ => rfl

theorem Change.generation_ne_zero {s s' : Session} {op : Op} {out : Output} {ret : Int}
    (h : Change s (op, out) s') (hret : .cpuOn ret ∈ out.effects) : s'.generation ≠ 0 := by
  obtain ⟨_, _, _, _, -, hs⟩ := h.launch hret
  rw [hs]
  exact nextGeneration_ne_zero _

end

variable {cfg : Config} {w w' : World} {op : Op} {out : Output}

theorem shared_userOpen (allocated : Bool) (d : Driver) :
    (mailmsgUserOpen allocated d).2.shared = d.shared := by
  unfold mailmsgUserOpen
  dsimp only
  split_ifs <;> rfl

theorem execFile_keepsPage {damaged : Prop} (h : execFile w op = some (out, w')) :
    KeepsPage damaged w.driver w'.driver := by
  cases op with
  | userRelease file =>
    simp only [execFile] at h
    split_ifs at h
    cases h
    refine .of_shared ?_
    dsimp only
    unfold mailmsgUserRelease
    split_ifs <;> rfl
  | userReadEnter file count =>
    simp only [execFile] at h
    split_ifs at h <;> cases h
    · exact .of_shared rfl
    · exact .of_shared rfl
    · exact .of_shared (keepsPlane_claimReader file w.driver).shared
  | userReadSample file i =>
    simp only [execFile] at h
    split_ifs at h
    cases h
    exact .of_shared rfl
  | userReadTry file i nonblock copyFault =>
    have htry : KeepsPage damaged w.driver (mailmsgUserReadTry nonblock copyFault file w.driver).2 :=
      keepsPage_userReadTry w.driver nonblock copyFault file
    simp only [execFile] at h
    split_ifs at h
    split at h
    · split at h <;> cases h <;> exact htry
    · cases h
  | userReadWake file i signalled =>
    simp only [execFile] at h
    split at h
    · split at h
      · split_ifs at h <;> cases h <;> exact .of_shared rfl
      · cases h
    · cases h
  | userWrite file count frame =>
    simp only [execFile] at h
    split_ifs at h
    cases h
    exact keepsPage_userWrite w.driver count frame file
  | userPoll file =>
    simp only [execFile] at h
    split_ifs at h
    cases h
    refine .of_shared ?_
    have hclaim := (keepsPlane_claimReader file w.driver).shared
    dsimp only [World.withDriver]
    unfold mailmsgUserPoll
    dsimp only
    split_ifs <;> exact hclaim
  | _ => simp [execFile] at h

/-- No operation puts anything but frames of the session on its page. -/
theorem exec_keepsPage {damaged : Prop} (hpeer : ∀ shared status, op ≠ .peer shared status)
    (hstart : ∀ isStart count affinity cpuOn now, op ≠ .startStore isStart count affinity cpuOn now)
    (hinject : ∀ parsed count, op = .mailmsgCrcInject parsed count → damaged)
    (h : exec cfg w op = some (out, w')) : KeepsPage damaged w.driver w'.driver := by
  cases op with
  | imageWrite off buf =>
    cases h
    refine .of_shared ?_
    dsimp only [World.withDriver]
    unfold imageWrite
    dsimp only
    split_ifs <;> rfl
  | startStore isStart count affinity cpuOn now => exact absurd rfl (hstart _ _ _ _ _)
  | rearmStore isRearm count affinity =>
    cases h
    exact keepsPage_rearmStore cfg isRearm count affinity w.driver
  | stopStore isStop count now =>
    cases h
    exact keepsPage_stopStore cfg isStop count now w.driver
  | controlWork start clock fuel =>
    simp only [exec, Option.map_eq_some_iff] at h
    obtain ⟨r, hr, heq⟩ := h
    cases heq
    exact keepsPage_controlWork hr
  | lifecycleTimeoutWork now affinity =>
    cases h
    exact .of_shared (keepsPlane_lifecycleTimeoutWork now affinity w.driver).shared
  | affinityWork affinity =>
    cases h
    exact .of_shared (keepsPlane_affinityWork affinity w.driver).shared
  | affinityStateShow affinity =>
    cases h
    exact .of_shared (keepsPlane_affinityStateShow cfg affinity w.driver).shared
  | userOpen id p allocated =>
    simp only [exec] at h
    split_ifs at h <;> cases h <;> exact .of_shared (shared_userOpen allocated w.driver)
  | doorbell parsed count =>
    cases h
    obtain ⟨mbox, hmbox⟩ := doorbellStore_bells parsed count w.driver
    refine .of_shared ?_
    dsimp only [World.withDriver]
    rw [hmbox]
  | mailmsgPing parsed count =>
    cases h
    -- ping and CRC injection are one sender; the injection alone flips a bit of its frame
    exact keepsPage_sendPing w.driver parsed count fun hf => absurd hf (by decide)
  | mailmsgCrcInject parsed count =>
    cases h
    exact keepsPage_sendPing w.driver parsed count fun _ => hinject parsed count rfl
  | mailmsgNotifyInject text count =>
    cases h
    obtain ⟨mbox, hmbox⟩ := notifyInjectStore_bells text count w.driver
    refine .of_shared ?_
    dsimp only [World.withDriver]
    rw [hmbox]
  | mailmsgQueuePush parsed count =>
    cases h
    exact keepsPage_queuePush w.driver parsed count
  | mailmsgResponse fuel =>
    simp only [exec, Option.map_eq_some_iff] at h
    obtain ⟨r, hr, heq⟩ := h
    cases heq
    exact (drainsPage_responseShow hr).1
  | mboxRx p message =>
    cases h
    -- the mailbox interrupt counts and wakes, and reads nothing of the page
    exact .of_shared rfl
  | peer shared status => exact absurd rfl (hpeer shared status)
  | userRelease | userReadEnter | userReadSample | userReadTry | userReadWake | userWrite
  | userPoll =>
    simp only [exec] at h
    exact execFile_keepsPage h

/-- The session is a new one only after an operation that read CPU3 off. -/
theorem exec_generation (h : exec cfg w op = some (out, w')) :
    w'.driver.life.sessionGeneration = w.driver.life.sessionGeneration ∨
      (affinityOf op = some affinityOff ∧ w'.driver.life.sessionGeneration ≠ 0) := by
  by_cases hop : ∃ isStart count affinity cpuOn now,
      op = .startStore isStart count affinity cpuOn now
  · obtain ⟨isStart, count, affinity, cpuOn, now, rfl⟩ := hop
    cases h
    rcases startStore_page cfg isStart count affinity cpuOn now w.driver rfl with hsame | hnew
    · exact Or.inl hsame.2
    · exact Or.inr ⟨congrArg some hnew.1, hnew.2.1⟩
  · have hchange : Change w.driver.session (op, out) w'.driver.session := step_change h
    refine Or.inl (hchange.generation_eq fun isStart count affinity cpuOn now heq => hop ?_)
    exact ⟨isStart, count, affinity, cpuOn, now, heq⟩

theorem SessionPage.exec {damaged : Prop} (hpage : SessionPage damaged w.driver)
    (hpeer : ∀ shared status, op ≠ .peer shared status)
    (hinject : ∀ parsed count, op = .mailmsgCrcInject parsed count → damaged)
    (h : exec cfg w op = some (out, w')) : SessionPage damaged w'.driver := by
  have hchange : Change w.driver.session (op, out) w'.driver.session := step_change h
  refine ⟨hchange.bound hpage.bound, fun hne => ?_⟩
  by_cases hop : ∃ isStart count affinity cpuOn now,
      op = .startStore isStart count affinity cpuOn now
  · obtain ⟨isStart, count, affinity, cpuOn, now, rfl⟩ := hop
    cases h
    rcases startStore_page cfg isStart count affinity cpuOn now w.driver rfl with hsame | hnew
    · dsimp only [World.withDriver] at hne ⊢
      rw [hsame.2] at hne ⊢
      rw [hsame.1]
      exact hpage.page hne
    · dsimp only [World.withDriver]
      rw [hnew.2.2]
      exact freshShared_ofSession hnew.2.1
  · have hstart : ∀ isStart count affinity cpuOn now,
        op ≠ .startStore isStart count affinity cpuOn now :=
      fun isStart count affinity cpuOn now heq => hop ⟨isStart, count, affinity, cpuOn, now, heq⟩
    have hsame : w'.driver.life.sessionGeneration = w.driver.life.sessionGeneration :=
      hchange.generation_eq hstart
    rw [hsame] at hne ⊢
    exact exec_keepsPage hpeer hstart hinject h hpage.bound (hpage.page hne)

theorem userPoll_offline {d : Driver} {file : UserFile} (hoffline : d.life.mailmsgState = .offline)
    (hclaim : (mailmsgUserClaimReader file d).1 = 0) :
    (mailmsgUserPoll file d).1 = epollHup + epollErr := by
  unfold mailmsgUserPoll
  simp only [hclaim, ne_eq, not_true_eq_false, if_false, (keeps_claimReader file d).life, hoffline]

section Calls

variable {damaged : Prop} {d : Driver} (h : SessionPage damaged d)
  (hactive : d.life.mailmsgState = .active) (hrole : d.endpoint.role = some .linux)
include h hactive hrole

/-- An empty reverse ring: the read leaves everything as it is and waits, or says so. -/
theorem userReadTry_nil (nonblock copyFault : Bool) {file : UserFile}
    (hq : (d.shared.cpu3ToLinux file.channel).contents = []) :
    mailmsgUserReadTry nonblock copyFault file d =
      (if nonblock then .error (-eagain) else .block, d) := by
  have hne : d.endpoint.role ≠ none := by rw [hrole]; decide
  have hr := ((h.of_role hne).replies file.channel).inRange
  have hreceive := endpointReceive_nil hrole (h.valid hne) hr hq Message.zero
  simp only [mailmsgUserReadTry, mailmsgDataGateLocked, hactive, ne_eq, not_true_eq_false,
    if_false, hreceive]
  cases nonblock <;> rfl

/-- Otherwise the read takes the oldest frame off, and it is a good one. -/
theorem userReadTry_cons (nonblock copyFault : Bool) {file : UserFile} {m : Message}
    {q : List Message} (hq : (d.shared.cpu3ToLinux file.channel).contents = m :: q) :
    m.OfSession False d.life.sessionGeneration ∧
      (mailmsgUserReadTry nonblock copyFault file d).1 =
        (if copyFault then .error (-efault) else .frame (userFrame file.channel m)) ∧
      ((mailmsgUserReadTry nonblock copyFault file d).2.shared.cpu3ToLinux
        file.channel).contents = q := by
  have hne : d.endpoint.role ≠ none := by rw [hrole]; decide
  have hreplies := (h.of_role hne).replies file.channel
  have hm : m.OfSession False d.life.sessionGeneration :=
    hreplies.contents m (by rw [hq]; exact List.mem_cons_self)
  obtain ⟨hret, hmessage, hshared, htail, -⟩ :=
    endpointReceive_cons hrole (h.valid hne) hreplies.inRange hq hm.commit Message.zero
  have hok : receiveResult d.endpoint.generation (frameCheck m) m = 0 := by
    rw [receiveResult, if_neg fun hstale => hstale.2 (hm.generation.trans (h.generation hne).symm)]
    exact hm.check.resolve_right fun hf => hf.1
  refine ⟨hm, ?_, ?_⟩
  · simp only [mailmsgUserReadTry, mailmsgDataGateLocked, hactive, ne_eq, not_true_eq_false,
      if_false, hret, hok, hmessage, userReadDispatch, if_true]
  · simp only [mailmsgUserReadTry, mailmsgDataGateLocked, hactive, ne_eq, not_true_eq_false,
      if_false, Driver.received, hshared]
    rw [show (d.shared.setRx .linux file.channel _).cpu3ToLinux file.channel = _ from
      Function.update_self ..]
    exact htail

/-- `poll` tells whether a read would find a frame. -/
theorem userPoll_mask {file : UserFile} (hclaim : (mailmsgUserClaimReader file d).1 = 0) :
    (mailmsgUserPoll file d).1 =
      if (d.shared.cpu3ToLinux file.channel).contents = [] then 0 else epollIn + epollRdNorm := by
  have hne : d.endpoint.role ≠ none := by rw [hrole]; decide
  have hr := ((h.of_role hne).replies file.channel).inRange
  have hplane := keepsPlane_claimReader file d
  have hlife := (keeps_claimReader file d).life
  have hchannel : (mailmsgUserClaimReader file d).2.1.channel = file.channel := by
    unfold mailmsgUserClaimReader
    split_ifs <;> rfl
  have hdata : endpointHasReceived d.endpoint d.shared file.channel = if
      (d.shared.cpu3ToLinux file.channel).consumer = (d.shared.cpu3ToLinux file.channel).producer
      then 0 else 1 :=
    (endpointHasReceived_of_valid hrole (h.valid hne) file.channel).trans (ringHasData_eq _)
  unfold mailmsgUserPoll
  simp only [hclaim, ne_eq, not_true_eq_false, if_false, hlife, hactive, hplane.shared,
    hplane.endpoint, hchannel, hdata]
  by_cases hq : (d.shared.cpu3ToLinux file.channel).contents = []
  · rw [if_pos hq, if_pos (hr.contents_eq_nil.mp hq), if_neg (by decide)]
  · rw [if_neg hq, if_neg fun heq => hq (hr.contents_eq_nil.mpr heq), if_pos (by decide)]

/-- A record that is in order is queued as one frame of the session, unless seven are waiting. -/
theorem userWrite_active {file : UserFile} {frame : UserFrame}
    (hchannel : frame.priority = channelWord file.channel) (hlen : frame.length ≤ 28#32) :
    ((mailmsgUserWrite userFrameBytes (some frame) file d).1 = userFrameBytes ∧
      (d.shared.linuxToCpu3 file.channel).contents.length < 7 ∧
      ((mailmsgUserWrite userFrameBytes (some frame) file d).2.shared.linuxToCpu3
          file.channel).contents =
        (d.shared.linuxToCpu3 file.channel).contents ++
          [(composeFrame d.life.sessionGeneration frame.type (endpointNextSequence d.endpoint).1
            frame.length (some (List.ofFn frame.payload))).seal]) ∨
    ((mailmsgUserWrite userFrameBytes (some frame) file d).1 = -enospc ∧
      (d.shared.linuxToCpu3 file.channel).contents.length = 7 ∧
      (mailmsgUserWrite userFrameBytes (some frame) file d).2.shared = d.shared) := by
  have hne : d.endpoint.role ≠ none := by rw [hrole]; decide
  have hr : (d.shared.tx .linux file.channel).InRange :=
    ((h.of_role hne).requests file.channel).inRange
  have hargs : ¬ (frame.priority ≠ channelWord file.channel ∨ 28#32 < frame.length) := by
    rintro (hp | hl)
    · exact hp hchannel
    · exact absurd hlen (by simpa using hl)
  -- past its checks the write is one send, and the send has two outcomes in a session
  have heq : mailmsgUserWrite userFrameBytes (some frame) file d =
      let s := endpointSend mailmsgNotifyLocked d.mbox d.endpoint d.shared file.channel
        frame.type (some (List.ofFn frame.payload)) frame.length SendResult.zero
      (userWriteErrno s.ret s.result.queueResult,
        { d with endpoint := s.endpoint, shared := s.shared, mbox := s.notifier }) := by
    simp only [mailmsgUserWrite, ne_eq, not_true_eq_false, if_false, hargs, mailmsgDataGateLocked,
      hactive]
  rw [heq]
  dsimp only
  rcases endpointSend_ofSession mailmsgNotifyLocked d.mbox file.channel frame.type frame.length
    SendResult.zero hrole (h.valid hne) hlen with ⟨hok, hroom⟩ | ⟨hfull, hqueue, hshared, hring⟩
  · refine Or.inl ⟨?_, ?_, ?_⟩
    · rw [hok]
      rfl
    · rw [Ring.length_contents]
      exact hr.depth_lt_seven hroom
    · have hcontents := contents_endpointSend mailmsgNotifyLocked d.mbox d.endpoint d.shared
        file.channel frame.type _ frame.length SendResult.zero (Or.inr hrole) hr hok
      rw [h.generation hne] at hcontents
      exact hcontents
  · refine Or.inr ⟨?_, ?_, hshared⟩
    · rw [hfull, hqueue]
      decide
    · rw [Ring.length_contents]
      exact hr.depth_eq_seven.mpr hring

end Calls

end Lzamp.R1Amp
