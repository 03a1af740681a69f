import Lzamp.R1Amp.ReaderClaim

namespace Lzamp.R1Amp
open Mailmsg Lib

def World.replies (w : World) (p : Priority) : List Message :=
  (w.driver.shared.cpu3ToLinux p).contents

/-- The frame that one pass of `r1_amp_mailmsg_user_read` takes out of its ring, whatever it then
returns. -/
def readFrames (file : UserFile) (d : Driver) : List Message :=
  if mailmsgDataGateLocked d ≠ 0 then []
  else
    let r := endpointReceive d.endpoint d.shared file.channel Message.zero
    if (r.shared.cpu3ToLinux file.channel).consumer =
        (d.shared.cpu3ToLinux file.channel).consumer then []
    else [r.message]

/-- The world, the frames that CPU3 queued for each priority and those read through each file. -/
structure Observed where
  world : World
  arrived : Priority → List Message
  read : ℕ → List Message

inductive Act where
  | linux (op : Op)
  | push (p : Priority) (m : Message)
  /-- CPU3 takes requests and clears doorbells. -/
  | serve (requests : Priority → Ring) (a2bStatus : U32)

def Observed.record (s : Observed) : Op → ℕ → List Message
  | .userReadTry file _ _ _ =>
    Function.update s.read file.id (s.read file.id ++ readFrames file s.world.driver)
  | _ => s.read

/-- What CPU3 leaves in the shared page and in A2B_STATUS. -/
def World.peered (w : World) (shared : Shared) (a2bStatus : U32) : World :=
  w.withDriver { w.driver with
    shared := shared
    mbox := { w.driver.mbox with a2b := { w.driver.mbox.a2b with status := a2bStatus } } }

def Op.isPeer : Op → Bool
  | .peer _ _ => true
  | _ => false

def Observed.step (cfg : Config) (s : Observed) : Act → Option Observed
  | .linux op =>
    if op.isPeer then none
    else (exec cfg s.world op).map fun r => { s with world := r.2, read := s.record op }
  | .push p m =>
    let d := s.world.driver
    let r := ringPush (d.shared.cpu3ToLinux p) m
    some { s with
      world := s.world.peered (d.shared.setTx .cpu3 p r.2) d.mbox.a2b.status
      arrived := if r.1 = ringOk then
          Function.update s.arrived p (s.arrived p ++ [m.seal])
        else s.arrived }
  | .serve requests a2bStatus =>
    some { s with
      world := s.world.peered { s.world.driver.shared with linuxToCpu3 := requests } a2bStatus }

def Observed.Step (cfg : Config) (s : Observed) (a : Act) (t : Observed) : Prop :=
  s.step cfg a = some t

/-- The file named `id` holds the reader role of `p` in an ACTIVE session. -/
def Holds (id : ℕ) (p : Priority) (w : World) : Prop :=
  w.driver.life.mailmsgState = .active ∧
    ∃ f ∈ w.files, f.id = id ∧ f.channel = p ∧ f.readerClaimed = true

/-- `mailmsg_response` is not read in ACTIVE while a claimed channel has a frame waiting. -/
def Undisturbed (w : World) : Act → Prop
  | .linux (.mailmsgResponse _) =>
    w.driver.life.mailmsgState = .active → ∀ f ∈ w.files, f.readerClaimed = true →
      w.replies f.channel = []
  | _ => True

theorem Observed.Step.world {cfg : Config} {s t : Observed} {a : Act} (h : Observed.Step cfg s a t) :
    ∃ label, R1Amp.Step cfg s.world label t.world := by
  cases a with
  | linux op =>
    simp only [Observed.Step, Observed.step] at h
    split_ifs at h
    obtain ⟨r, hr, rfl⟩ := Option.map_eq_some_iff.mp h
    exact ⟨(op, r.1), hr⟩
  | push p m =>
    obtain rfl := Option.some.inj h
    exact ⟨(.peer _ _, .silent), rfl⟩
  | serve requests status =>
    obtain rfl := Option.some.inj h
    exact ⟨(.peer _ _, .silent), rfl⟩

theorem Observed.Step.linux {cfg : Config} {s t : Observed} {op : Op}
    (h : Observed.Step cfg s (.linux op) t) :
    (∀ shared status, op ≠ .peer shared status) ∧ ∃ out, exec cfg s.world op = some (out, t.world) ∧
      t.arrived = s.arrived ∧ t.read = s.record op := by
  simp only [Observed.Step, Observed.step] at h
  split_ifs at h with hpeer
  obtain ⟨r, hr, rfl⟩ := Option.map_eq_some_iff.mp h
  refine ⟨fun shared status he => hpeer (by rw [he]; rfl), r.1, hr, rfl, rfl⟩

/-- The reverse rings are in range from the first start on. -/
structure RingsInv (w : World) : Prop where
  plays : w.driver.endpoint.Plays .linux
  inRange : w.driver.life.cpuOnAttempted = true → ∀ p, (w.driver.shared.cpu3ToLinux p).InRange

theorem PageCleared.inRange {d : Driver} (h : PageCleared d) (p : Priority) :
    (d.shared.cpu3ToLinux p).InRange := by
  obtain ⟨generation, hpage⟩ := h.page
  rw [hpage]
  exact Ring.zero_inRange

theorem Change.attempted {s s' : Session} {op : Op} {out : Output} (h : Change s (op, out) s')
    (hop : ∀ isStart count affinity cpuOn now, op ≠ .startStore isStart count affinity cpuOn now)
    (hs : s'.attempted = true) : s.attempted = true := by
  cases h with
  | rearm => cases hs
  | start => exact absurd rfl (hop _ _ _ _ _)
  | _ => exact hs

theorem startStore_attempted (cfg : Config) (isStart : Bool) (count : ℕ) (affinity cpuOn : Int)
    (now : U64) {d : Driver} (hplays : d.endpoint.Plays .linux)
    (h : (startStore cfg isStart count affinity cpuOn now d).driver.life.cpuOnAttempted = true) :
    d.life.cpuOnAttempted = true ∨
      PageCleared (startStore cfg isStart count affinity cpuOn now d).driver := by
  have hrefresh := keepsPlane_refreshAffinity affinity d
  have hplays' : (refreshAffinityLocked affinity d).endpoint.Plays .linux :=
    hrefresh.endpoint ▸ hplays
  have hcleared : PageCleared (openSession (refreshAffinityLocked affinity d)).2 :=
    ⟨endpointBind_plays hplays' _, _, rfl⟩
  have hsample : (refreshAffinityLocked affinity d).life.cpuOnAttempted = d.life.cpuOnAttempted := by
    rcases refreshAffinity_cases affinity d with he | ⟨-, -, -, -, he⟩ <;> rw [he] <;> rfl
  unfold startStore startSession at h ⊢
  dsimp only at h ⊢
  split_ifs at h ⊢
  · exact .inl h
  · exact .inl h
  · exact .inl h
  · exact .inl h
  · exact .inl (hsample ▸ h)
  · exact .inr hcleared
  · exact .inr ⟨hcleared.plays, hcleared.page⟩

theorem RingsInv.exec {cfg : Config} {w w' : World} {op : Op} {out : Output} (hw : RingsInv w)
    (hpeer : ∀ shared status, op ≠ .peer shared status) (h : exec cfg w op = some (out, w')) :
    RingsInv w' := by
  rcases exec_traffic hpeer hw.plays h with htraffic | ⟨-, hcleared⟩
  · refine ⟨htraffic.plays, fun hatt p => ?_⟩
    by_cases hstart : ∃ isStart count affinity cpuOn now,
        op = .startStore isStart count affinity cpuOn now
    · obtain ⟨isStart, count, affinity, cpuOn, now, rfl⟩ := hstart
      cases h
      rcases startStore_attempted cfg isStart count affinity cpuOn now hw.plays hatt with hold | hc
      · exact (htraffic.replies p).inRange (hw.inRange hold p)
      · exact hc.inRange p
    · have hchange : Change w.driver.session (op, out) w'.driver.session := step_change h
      have hold := hchange.attempted (fun a b c d e he => hstart ⟨a, b, c, d, e, he⟩) hatt
      exact (htraffic.replies p).inRange (hw.inRange hold p)
  · exact ⟨hcleared.plays, fun _ => hcleared.inRange⟩

theorem RingsInv.pushed {w : World} (hw : RingsInv w) (p : Priority) (m : Message) :
    RingsInv (w.peered (w.driver.shared.setTx .cpu3 p
      (ringPush (w.driver.shared.cpu3ToLinux p) m).2) w.driver.mbox.a2b.status) := by
  refine ⟨hw.plays, fun hatt q => ?_⟩
  have hr := hw.inRange hatt
  change (Function.update w.driver.shared.cpu3ToLinux p _ q).InRange
  by_cases hq : q = p
  · subst hq
    rw [Function.update_self, ringPush_eq]
    split_ifs
    · exact hr q
    · exact hr q
    · exact (hr q).publish _
  · rw [Function.update_of_ne hq]
    exact hr q

theorem RingsInv.step {cfg : Config} {s t : Observed} {a : Act} (hs : RingsInv s.world)
    (h : Observed.Step cfg s a t) : RingsInv t.world := by
  cases a with
  | linux op =>
    obtain ⟨hpeer, out, hexec, -, -⟩ := h.linux
    exact hs.exec hpeer hexec
  | push p m =>
    obtain rfl := Option.some.inj h
    exact hs.pushed p m
  | serve requests status =>
    obtain rfl := Option.some.inj h
    exact ⟨hs.plays, hs.inRange⟩

/-- What a run from a probed driver keeps. -/
structure ObservedInv (cfg : Config) (s : Observed) : Prop where
  reachable : Reachable cfg s.world
  rings : RingsInv s.world

theorem ObservedInv.step {cfg : Config} {s t : Observed} {a : Act} (hs : ObservedInv cfg s)
    (h : Observed.Step cfg s a t) : ObservedInv cfg t := by
  obtain ⟨label, hlabel⟩ := h.world
  obtain ⟨w₀, labels, h₀, htrace⟩ := hs.reachable
  exact ⟨⟨w₀, labels ++ [label], h₀, htrace.snoc hlabel⟩, hs.rings.step h⟩

theorem observedInv_of_trace {cfg : Config} {s₀ s : Observed} {acts : List Act}
    (h₀ : s₀.world.Probed) (h : Trace (Observed.Step cfg) s₀ acts s) : ObservedInv cfg s := by
  refine h.invariant (fun _ _ _ hu hstep => ObservedInv.step hu hstep) ⟨⟨_, [], h₀, .nil _⟩, ?_⟩
  refine ⟨by rw [h₀.endpoint]; exact .inl rfl, fun hatt => ?_⟩
  rw [h₀.life] at hatt
  cases hatt

/-- A session with an open file, seen from the lifecycle plane. -/
structure Busy (w : World) : Prop where
  inv : w.driver.session.Inv
  active : w.driver.life.mailmsgState = .active
  openCount : w.driver.mailmsgUserOpenCount ≠ 0
  plays : w.driver.endpoint.Plays .linux

theorem Busy.attempted {w : World} (h : Busy w) : w.driver.life.cpuOnAttempted = true :=
  h.inv.attempted_of (by rw [h.active]; decide)

theorem ObservedInv.busy {cfg : Config} {s : Observed} (h : ObservedInv cfg s) {id : ℕ}
    {p : Priority} (hholds : Holds id p s.world) : Busy s.world := by
  obtain ⟨hactive, f, hf, -⟩ := hholds
  exact ⟨h.reachable.inv, hactive,
    h.reachable.filesInv.openCount_ne_zero (List.ne_nil_of_mem hf), h.rings.plays⟩

/-- The operations that can pop a reverse ring in ACTIVE. -/
def Op.pops : Op → Bool
  | .userReadTry .. | .mailmsgResponse .. | .peer .. => true
  | _ => false

theorem shared_readStage {w w' : World} {op : Op} {out : Output}
    (hop : (∃ file count, op = .userReadEnter file count) ∨
      (∃ file i, op = .userReadSample file i) ∨
      ∃ file i signalled, op = .userReadWake file i signalled)
    (h : execFile w op = some (out, w')) : w'.driver.shared = w.driver.shared := by
  rcases hop with ⟨file, count, rfl⟩ | ⟨file, i, rfl⟩ | ⟨file, i, signalled, rfl⟩
  · have hkeep := (keepsPlane_claimReader file w.driver).shared
    simp only [execFile] at h
    split_ifs at h <;> cases h
    · rfl
    · rfl
    · exact hkeep
  · simp only [execFile] at h
    split_ifs at h
    cases h
    rfl
  · simp only [execFile] at h
    split_ifs at h
    · split at h <;> cases h
      rfl
    · split at h
      · split_ifs at h
        cases h
        rfl
      · cases h

/-- While a file is open in ACTIVE, only `read` and `mailmsg_response` take frames. -/
theorem reverse_kept {cfg : Config} {w w' : World} {op : Op} {out : Output} (hw : Busy w)
    (hop : op.pops = false) (h : exec cfg w op = some (out, w')) :
    w'.driver.shared.cpu3ToLinux = w.driver.shared.cpu3ToLinux := by
  cases hlife : op.isLifecycle with
  | true => rw [(lifecycle_with_files hw.inv hw.openCount (.inl hw.active) hlife h).1.shared]
  | false =>
    cases op with
    | userOpen id p allocated =>
      simp only [exec, mailmsgUserOpen] at h
      split_ifs at h <;> cases h <;> rfl
    | userRelease file =>
      simp only [exec, execFile, mailmsgUserRelease] at h
      split_ifs at h <;> cases h <;> rfl
    | userReadEnter file count => rw [shared_readStage (.inl ⟨file, count, rfl⟩) h]
    | userReadSample file i => rw [shared_readStage (.inr (.inl ⟨file, i, rfl⟩)) h]
    | userReadWake file i signalled =>
      rw [shared_readStage (.inr (.inr ⟨file, i, signalled, rfl⟩)) h]
    | userWrite file count frame =>
      simp only [exec, execFile] at h
      split_ifs at h
      cases h
      exact (submits_userWrite count frame file w.driver).reverse hw.plays
    | userPoll file =>
      have hkeep := (keepsPlane_claimReader file w.driver).shared
      simp only [exec, execFile, userPoll_snd] at h
      split_ifs at h
      cases h
      exact congrArg Shared.cpu3ToLinux hkeep
    | doorbell | mailmsgPing | mailmsgCrcInject | mailmsgNotifyInject | mailmsgQueuePush =>
      exact (exec_hook rfl h).1.reverse hw.plays
    | mboxRx p message =>
      cases h
      rfl
    | userReadTry | mailmsgResponse | peer => cases hop
    | _ => simp [Op.isLifecycle] at hlife

theorem released_consumer_ne (r : Ring) : r.released.consumer ≠ r.consumer := by
  intro heq
  have hnat := congrArg BitVec.toNat heq
  rw [Ring.released, toNat_next] at hnat
  omega

theorem ringPop_contents {r : Ring} (h : r.InRange) (message : Message) :
    r.contents = (if (ringPop r message).2.1.consumer = r.consumer then []
      else [(ringPop r message).2.2]) ++ (ringPop r message).2.1.contents := by
  cases hq : r.contents with
  | nil =>
    rw [ringPop_nil h hq, if_pos rfl]
    exact hq.symm
  | cons m q =>
    by_cases hcommit : m.commit = m.sequence
    · obtain ⟨hpop, hrest, -⟩ := ringPop_cons h hq hcommit message
      rw [hpop, if_neg (released_consumer_ne r), hrest]
      rfl
    · rw [ringPop_uncommitted h hq hcommit, if_pos rfl]
      exact hq.symm

theorem readFrames_append (nonblock copyFault : Bool) (file : UserFile) {d : Driver}
    (hplays : d.endpoint.Plays .linux) (hr : (d.shared.cpu3ToLinux file.channel).InRange) :
    (d.shared.cpu3ToLinux file.channel).contents = readFrames file d ++
      ((mailmsgUserReadTry nonblock copyFault file d).2.shared.cpu3ToLinux
        file.channel).contents := by
  unfold readFrames mailmsgUserReadTry
  dsimp only
  by_cases hgate : mailmsgDataGateLocked d = 0
  · rw [if_neg (not_not.mpr hgate), if_neg (not_not.mpr hgate)]
    change _ = _ ++ ((endpointReceive d.endpoint d.shared file.channel
      Message.zero).shared.cpu3ToLinux file.channel).contents
    rcases endpointReceive_cases hplays d.shared file.channel Message.zero with
      ⟨-, hsame⟩ | ⟨hshared, hmessage, -⟩
    · rw [hsame, if_pos rfl]
      rfl
    · have hring : (endpointReceive d.endpoint d.shared file.channel
          Message.zero).shared.cpu3ToLinux file.channel =
          (ringPop (d.shared.cpu3ToLinux file.channel) Message.zero).2.1 := by
        rw [hshared]
        exact Function.update_self ..
      have hmessage' : (endpointReceive d.endpoint d.shared file.channel Message.zero).message =
          (ringPop (d.shared.cpu3ToLinux file.channel) Message.zero).2.2 := hmessage
      rw [hring, hmessage']
      exact ringPop_contents hr Message.zero
  · rw [if_pos hgate, if_pos hgate]
    rfl

theorem readTry_other (nonblock copyFault : Bool) (file : UserFile) {d : Driver} {p : Priority}
    (hplays : d.endpoint.Plays .linux) (hp : p ≠ file.channel) :
    (mailmsgUserReadTry nonblock copyFault file d).2.shared.cpu3ToLinux p =
      d.shared.cpu3ToLinux p := by
  unfold mailmsgUserReadTry
  dsimp only
  split_ifs
  · rfl
  · change (endpointReceive d.endpoint d.shared file.channel Message.zero).shared.cpu3ToLinux p = _
    rcases endpointReceive_cases hplays d.shared file.channel Message.zero with
      ⟨-, hsame⟩ | ⟨hshared, -, -⟩
    · rw [hsame]
    · rw [hshared]
      exact Function.update_of_ne hp ..

theorem exec_readTry {cfg : Config} {w w' : World} {file : UserFile} {i : ℕ}
    {nonblock copyFault : Bool} {out : Output}
    (h : exec cfg w (.userReadTry file i nonblock copyFault) = some (out, w')) :
    file ∈ w.files ∧ file.reads ≠ [] ∧
      w'.driver = (mailmsgUserReadTry nonblock copyFault file w.driver).2 := by
  simp only [exec, execFile] at h
  split_ifs at h with hfile
  split at h
  case h_1 generation hread =>
    have hreads : file.reads ≠ [] := by
      intro hnil
      rw [hnil] at hread
      cases hread
    split at h <;> cases h <;> exact ⟨hfile, hreads, rfl⟩
  · cases h

/-- What a step does to a claimed ring: Linux takes `taken` from its front by a read on the file
that holds the role, and CPU3 adds `arrived` at its end. -/
structure Passes (id : ℕ) (p : Priority) (s t : Observed) (a : Act) (taken arrived : List Message) :
    Prop where
  reads : t.read id = s.read id ++ taken
  arrivals : t.arrived p = s.arrived p ++ arrived
  order : taken ++ t.world.replies p = s.world.replies p ++ arrived
  taker : taken ≠ [] → ∃ file i nonblock copyFault,
    a = .linux (.userReadTry file i nonblock copyFault) ∧ file.id = id ∧ file.channel = p

theorem Passes.still {id : ℕ} {p : Priority} {s t : Observed} {a : Act} (hread : t.read id = s.read id)
    (harrived : t.arrived p = s.arrived p) (hreplies : t.world.replies p = s.world.replies p) :
    Passes id p s t a [] [] :=
  ⟨by simp [hread], by simp [harrived], by simp [hreplies], fun hne => absurd rfl hne⟩

section Passing

variable {cfg : Config} {s t : Observed} {id : ℕ} {p : Priority}

theorem ObservedInv.push (hs : ObservedInv cfg s) (hholds : Holds id p s.world) {q : Priority}
    {m : Message} (h : Observed.Step cfg s (.push q m) t) :
    ∃ arrived, Passes id p s t (.push q m) [] arrived := by
  have hr := hs.rings.inRange (hs.busy hholds).attempted p
  obtain rfl := Option.some.inj h
  by_cases hq : p = q
  · subst hq
    have hring : (s.world.driver.shared.setTx .cpu3 p
        (ringPush (s.world.driver.shared.cpu3ToLinux p) m).2).cpu3ToLinux p =
        (ringPush (s.world.driver.shared.cpu3ToLinux p) m).2 := Function.update_self ..
    by_cases hok : (ringPush (s.world.driver.shared.cpu3ToLinux p) m).1 = ringOk
    · obtain ⟨hform, hroom⟩ := (ringPush_ok_iff _ _).mp hok
      have hpush : (ringPush (s.world.driver.shared.cpu3ToLinux p) m).2 =
          (s.world.driver.shared.cpu3ToLinux p).published m := by
        rw [ringPush_eq, if_neg hform, if_neg hroom]
      refine ⟨[m.seal], (List.append_nil _).symm, ?_, ?_, fun hne => absurd rfl hne⟩
      · change (if _ then _ else s.arrived) p = _
        rw [if_pos hok]
        exact Function.update_self ..
      · change ((s.world.driver.shared.setTx .cpu3 p _).cpu3ToLinux p).contents = _
        rw [hring, hpush]
        exact hr.contents_publish (hr.depth_lt_seven hroom) m.seal
    · refine ⟨[], .still rfl ?_ ?_⟩
      · change (if _ then _ else s.arrived) p = _
        rw [if_neg hok]
      · change ((s.world.driver.shared.setTx .cpu3 p _).cpu3ToLinux p).contents = _
        rw [hring, ringPush_refused hok]
        rfl
  · refine ⟨[], .still rfl ?_ ?_⟩
    · change (if _ then _ else s.arrived) p = _
      split_ifs
      · rw [Function.update_of_ne hq]
      · rfl
    · change (Function.update s.world.driver.shared.cpu3ToLinux q _ p).contents = _
      rw [Function.update_of_ne hq]
      rfl

theorem ObservedInv.readTry (hs : ObservedInv cfg s) (hholds : Holds id p s.world)
    {file : UserFile} {i : ℕ} {nonblock copyFault : Bool}
    (h : Observed.Step cfg s (.linux (.userReadTry file i nonblock copyFault)) t) :
    ∃ taken, Passes id p s t (.linux (.userReadTry file i nonblock copyFault)) taken [] := by
  obtain ⟨-, out, hexec, harrived, hrecord⟩ := h.linux
  obtain ⟨hfile, hreads, hdriver⟩ := exec_readTry hexec
  have hreaders := hs.reachable.readersInv
  have hclaimed := hreaders.claimed file hfile hreads
  have hr := hs.rings.inRange (hs.busy hholds).attempted
  obtain ⟨-, f, hf, rfl, rfl, hfc⟩ := hholds
  by_cases hch : file.channel = f.channel
  · -- the only file with the role of this channel
    obtain rfl := hreaders.eq_of_claimed hfile hf hclaimed hfc hch
    have hfront := readFrames_append nonblock copyFault file hs.rings.plays (hr file.channel)
    refine ⟨readFrames file s.world.driver, ?_, ?_, ?_, fun _ => ⟨_, _, _, _, rfl, rfl, rfl⟩⟩
    · rw [hrecord]
      exact Function.update_self ..
    · rw [harrived, List.append_nil]
    · rw [World.replies, hdriver, List.append_nil]
      exact hfront.symm
  · have hid : file.id ≠ f.id := by
      intro he
      exact hch (congrArg _ (List.inj_on_of_nodup_map hreaders.ids hfile hf he))
    refine ⟨[], .still ?_ (by rw [harrived]) ?_⟩
    · rw [hrecord]
      exact Function.update_of_ne hid.symm ..
    · rw [World.replies, hdriver, readTry_other nonblock copyFault file hs.rings.plays (Ne.symm hch)]
      rfl

/-- Whatever an undisturbed step takes from a claimed ring is taken by a read on the file that holds
the role. -/
theorem ObservedInv.passes (hs : ObservedInv cfg s) (hholds : Holds id p s.world) {a : Act}
    (hok : Undisturbed s.world a) (h : Observed.Step cfg s a t) :
    ∃ taken arrived, Passes id p s t a taken arrived := by
  cases a with
  | push q m => exact ⟨[], hs.push hholds h⟩
  | serve requests status =>
    obtain rfl := Option.some.inj h
    exact ⟨[], [], .still rfl rfl rfl⟩
  | linux op =>
    obtain ⟨hpeer, out, hexec, harrived, hrecord⟩ := h.linux
    cases hpops : op.pops with
    | false =>
      have hkept := reverse_kept (hs.busy hholds) hpops hexec
      refine ⟨[], [], .still ?_ (by rw [harrived]) (by rw [World.replies, hkept]; rfl)⟩
      rw [hrecord]
      cases op with
      | userReadTry => cases hpops
      | _ => rfl
    | true =>
      cases op with
      | userReadTry file i nonblock copyFault =>
        obtain ⟨taken, htaken⟩ := hs.readTry hholds h
        exact ⟨taken, [], htaken⟩
      | mailmsgResponse fuel =>
        have hr := hs.rings.inRange (hs.busy hholds).attempted p
        obtain ⟨hactive, f, hf, -, rfl, hfc⟩ := hholds
        have hnil := hok hactive f hf hfc
        have htraffic := dataPlane_traffic rfl hpeer hs.rings.plays hexec
        have hnil' : t.world.replies f.channel = [] := (htraffic.replies f.channel).nil hr hnil
        exact ⟨[], [], .still (by rw [hrecord]; rfl) (by rw [harrived]) (by rw [hnil, hnil'])⟩
      | peer shared status => exact absurd rfl (hpeer shared status)
      | _ => cases hpops

/-- What the reads on the holder's file took and what still waits is, in order, what was waiting and
what CPU3 added. -/
theorem ObservedInv.run (hs : ObservedInv cfg s) {acts : List Act}
    (h : Trace (fun u a v => (Holds id p u.world ∧ Undisturbed u.world a) ∧
      Observed.Step cfg u a v) s acts t) :
    ∃ taken arrived, t.read id = s.read id ++ taken ∧ t.arrived p = s.arrived p ++ arrived ∧
      taken ++ t.world.replies p = s.world.replies p ++ arrived := by
  induction h with
  | nil s => exact ⟨[], [], by simp, by simp, by simp⟩
  | cons head _ ih =>
    obtain ⟨⟨hholds, hok⟩, hstep⟩ := head
    obtain ⟨taken, arrived, hpass⟩ := hs.passes hholds hok hstep
    obtain ⟨taken', arrived', hreads, harrivals, horder⟩ := ih (hs.step hstep)
    refine ⟨taken ++ taken', arrived ++ arrived', ?_, ?_, ?_⟩
    · rw [hreads, hpass.reads, List.append_assoc]
    · rw [harrivals, hpass.arrivals, List.append_assoc]
    · rw [List.append_assoc, horder, ← List.append_assoc, hpass.order, List.append_assoc]

end Passing

/-- An ACTIVE session in which file 7 was opened on p1 and polled, and CPU3 queued a PONG. -/
def polledRun : List Act :=
  [.linux (.imageWrite 0 [1, 2, 3, 4]), .linux (.startStore true 5 affinityOff 0 100),
    .push 0 (replyFrame msgSessionReady 1 1 protocolVersion),
    .linux (.controlWork 200 (fun _ => 200) 1), .linux (.userOpen 7 1 true),
    .linux (.userPoll ⟨7, 1, false, []⟩), .push 1 (replyFrame msgPong 2 8 0)]

def unobserved : Observed := ⟨probedWorld, fun _ => [], fun _ => []⟩

instance (id : ℕ) (p : Priority) (w : World) : Decidable (Holds id p w) :=
  inferInstanceAs (Decidable (_ ∧ _))

instance (w : World) (a : Act) : Decidable (Undisturbed w a) :=
  match a with
  | .push .. | .serve .. => isTrue trivial
  | .linux op => by
    cases op
    case mailmsgResponse => exact inferInstanceAs (Decidable (_ → _))
    all_goals exact isTrue trivial

def readRun : List Act :=
  [.linux (.userReadEnter ⟨7, 1, true, []⟩ 48), .linux (.userReadSample ⟨7, 1, true, [.entered]⟩ 0),
    .linux (.userReadTry ⟨7, 1, true, [.sampled 0]⟩ 0 false false)]

/-- In every run the counter of a channel is the number of its open files with the role, at most
one.  While a file has the role in ACTIVE and `mailmsg_response` is not read with a frame waiting,
Linux takes frames from the ring only by reads on that file, and these take them in ring order; a
read whose copy faults has taken its frame too. -/
theorem claimed_reader_alone {cfg : Config} {s₀ s : Observed} {acts : List Act}
    (h₀ : s₀.world.Probed) (h : Trace (Observed.Step cfg) s₀ acts s) :
    (∀ p, (s.world.driver.user p).readerOpenCount = s.world.claims p ∧ s.world.claims p ≤ 1) ∧
    (∀ id p op t, Holds id p s.world → Undisturbed s.world (.linux op) →
      Observed.Step cfg s (.linux op) t → t.world.replies p ≠ s.world.replies p →
      ∃ file i nonblock copyFault, op = .userReadTry file i nonblock copyFault ∧
        file.id = id ∧ file.channel = p) ∧
    ∀ id p acts' t, Trace (fun u a v => (Holds id p u.world ∧ Undisturbed u.world a) ∧
        Observed.Step cfg u a v) s acts' t →
      ∃ taken arrived, t.read id = s.read id ++ taken ∧ t.arrived p = s.arrived p ++ arrived ∧
        taken ++ t.world.replies p = s.world.replies p ++ arrived := by
  have hs := observedInv_of_trace h₀ h
  have hreaders := hs.reachable.readersInv
  refine ⟨fun p => ⟨hreaders.count p, hreaders.single p⟩, ?_, fun id p acts' t hrun => hs.run hrun⟩
  intro id p op t hholds hok hstep hne
  obtain ⟨taken, arrived, hpass⟩ := hs.passes hholds hok hstep
  have harrived : arrived = [] := by
    obtain ⟨-, out, -, hsame, -⟩ := hstep.linux
    have harrivals := hpass.arrivals
    rw [hsame] at harrivals
    exact List.append_right_eq_self.mp harrivals.symm
  have htaken : taken ≠ [] := by
    intro hnil
    have horder := hpass.order
    rw [hnil, harrived, List.append_nil] at horder
    exact hne horder
  obtain ⟨file, i, nonblock, copyFault, hact, hid, hch⟩ := hpass.taker htaken
  cases hact
  exact ⟨file, i, nonblock, copyFault, rfl, hid, hch⟩

theorem claimed_reader_alone_polled :
    ∃ s t, Trace (Observed.Step board) unobserved polledRun s ∧ s.world.claims 1 ≤ 1 ∧
      Trace (fun u a v => (Holds 7 1 u.world ∧ Undisturbed u.world a) ∧
        Observed.Step board u a v) s readRun t ∧
      t.read 7 = [replyFrame msgPong 2 8 0] ∧
      ∃ taken arrived, t.read 7 = s.read 7 ++ taken ∧
        taken ++ t.world.replies 1 = s.world.replies 1 ++ arrived := by
  obtain ⟨s, hrun, hs⟩ := Trace.exists_of_foldlM (Observed.step board) unobserved polledRun
    (fun s : Observed => (readRun.foldlM (fun u a =>
      if Holds 7 1 u.world ∧ Undisturbed u.world a then u.step board a else none) s).any
        fun t : Observed => decide (t.read 7 = [replyFrame msgPong 2 8 0])) (by decide +kernel)
  obtain ⟨t, hread, ht⟩ := Trace.exists_of_guarded (Observed.step board)
    (fun u a => Holds 7 1 u.world ∧ Undisturbed u.world a) s readRun _ hs
  obtain ⟨hcount, -, horder⟩ := claimed_reader_alone probedWorld_probed hrun
  obtain ⟨taken, arrived, hreads, -, hreplies⟩ := horder 7 1 readRun t hread
  exact ⟨s, t, hrun, (hcount 1).2, hread, of_decide_eq_true ht, taken, arrived, hreads, hreplies⟩

/-- `mailmsg_response` takes the frame that the reader of the channel is waiting for. -/
theorem response_takes_claimed_frame :
    ∃ s t, Trace (Observed.Step board) unobserved polledRun s ∧ Holds 7 1 s.world ∧
      Observed.Step board s (.linux (.mailmsgResponse 2)) t ∧
      s.world.replies 1 = [replyFrame msgPong 2 8 0] ∧ t.world.replies 1 = [] ∧ t.read 7 = [] := by
  obtain ⟨s, hrun, hs⟩ := Trace.exists_of_foldlM (Observed.step board) unobserved polledRun
    (fun s : Observed => decide (Holds 7 1 s.world) &&
      decide (s.world.replies 1 = [replyFrame msgPong 2 8 0]) &&
      (s.step board (.linux (.mailmsgResponse 2))).any fun t : Observed =>
        decide (t.world.replies 1 = []) && decide (t.read 7 = [])) (by decide +kernel)
  simp only [Bool.and_eq_true, decide_eq_true_eq, Option.any_eq_true] at hs
  obtain ⟨⟨hholds, hwaiting⟩, t, hstep, hempty, hread⟩ := hs
  exact ⟨s, t, hrun, hholds, hstep, hwaiting, hempty, hread⟩

end Lzamp.R1Amp
