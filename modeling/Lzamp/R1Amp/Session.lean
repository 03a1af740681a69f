import Lzamp.R1Amp.World

namespace Lzamp.R1Amp
open Mailmsg Lib

/-- What a session is, apart from rings, counters and memory. -/
@[ext] structure Session where
  state : SessionState
  attempted : Bool
  cpuOnRet : Int
  seenOn : Bool
  generation : U32
  peer : U32
  bound : Option EndpointRole × U32

def SessionState.Live (s : SessionState) : Prop := s ≠ .unarmed ∧ s ≠ .offline

def SessionState.expired : SessionState → SessionState
  | .starting => .startTimeout
  | .stopping => .stopTimeout
  | s => s

def Session.started (s : Session) (ret : Int) : Session where
  state := if ret = 0 then .starting else .unarmed
  attempted := true
  cpuOnRet := ret
  seenOn := false
  generation := nextGeneration s.generation
  peer := 0
  bound := (some .linux, nextGeneration s.generation)

def Session.rearmed (s : Session) : Session :=
  { s with state := .unarmed, attempted := false, cpuOnRet := -eagain, seenOn := false, peer := 0,
           bound := (none, 0) }

def Session.ready (s : Session) : Session :=
  { s with state := .active, seenOn := true, peer := s.generation }

/-- No CPU_ON call among the effects. -/
def NoCpuOn (es : List Effect) : Prop := ∀ ret, Effect.cpuOn ret ∉ es

/-- The moves of a session, with the operation that makes them. -/
inductive Change : Session → Op × Output → Session → Prop
  | quiet {s : Session} {op : Op} {out : Output} (h : NoCpuOn out.effects) : Change s (op, out) s
  | seen {s : Session} {op : Op} {out : Output} (h : NoCpuOn out.effects) :
      Change s (op, out) { s with seenOn := true }
  | offline {s : Session} {op : Op} {out : Output} (h : NoCpuOn out.effects)
      (ret : s.cpuOnRet = 0) (seen : s.seenOn = true) (live : s.state.Live) :
      Change s (op, out) { s with state := .offline }
  | timeout {s : Session} {op : Op} {out : Output} (h : NoCpuOn out.effects) (seenOn : Bool)
      (seen : s.seenOn = true → seenOn = true)
      (state : s.state = .starting ∨ s.state = .stopping) :
      Change s (op, out) { s with state := s.state.expired, seenOn := seenOn }
  | ready {s : Session} {start : U64} {clock : ℕ → U64} {fuel : ℕ} {es : List Effect}
      {frame : Message} {now deadline : U64} (h : NoCpuOn es) (state : s.state = .starting)
      (frame_ok : isSessionReady s.generation frame = true)
      (in_time : timeBefore now deadline = true) :
      Change s (.controlWork start clock fuel, ⟨none, [], es ++ [.received frame now deadline]⟩)
        s.ready
  | refused {s : Session} {op : Op} {out : Output} (h : NoCpuOn out.effects)
      (state : s.state = .stopping) : Change s (op, out) { s with state := .active }
  | stop {s : Session} {op : Op} {out : Output} (h : NoCpuOn out.effects)
      (state : s.state = .active) : Change s (op, out) { s with state := .stopping }
  | rearm {s : Session} {count : ℕ} {affinity : Int} (attempted : s.attempted = true) :
      Change s (.rearmStore true count affinity, ⟨some count, [], []⟩) s.rearmed
  | start {s : Session} {count : ℕ} {affinity ret : Int} {now : U64}
      (attempted : s.attempted = false) :
      Change s (.startStore true count affinity ret now,
        ⟨some (storeResult ret count), [], [.controlPageCleared, .cpuOn ret]⟩) (s.started ret)

def Driver.session (d : Driver) : Session where
  state := d.life.mailmsgState
  attempted := d.life.cpuOnAttempted
  cpuOnRet := d.life.cpuOnRet
  seenOn := d.life.affinitySeenOn
  generation := d.life.sessionGeneration
  peer := d.life.peerGeneration
  bound := d.endpoint.identity

structure KeepsSession (d d' : Driver) : Prop where
  life : d'.life = d.life
  identity : d'.endpoint.identity = d.endpoint.identity
  carveout : d'.carveout = d.carveout

theorem KeepsSession.refl (d : Driver) : KeepsSession d d := ⟨rfl, rfl, rfl⟩

theorem KeepsSession.trans {a b c : Driver} (h : KeepsSession a b) (h' : KeepsSession b c) :
    KeepsSession a c :=
  ⟨h'.life.trans h.life, h'.identity.trans h.identity, h'.carveout.trans h.carveout⟩

theorem KeepsSession.session {d d' : Driver} (h : KeepsSession d d') : d'.session = d.session := by
  simp only [Driver.session, h.life, h.identity]

/-- The session is kept and no file is opened or released. -/
structure KeepsFiles (d d' : Driver) : Prop extends KeepsSession d d' where
  openCount : d'.mailmsgUserOpenCount = d.mailmsgUserOpenCount

theorem KeepsFiles.refl (d : Driver) : KeepsFiles d d := ⟨.refl d, rfl⟩

theorem KeepsFiles.trans {a b c : Driver} (h : KeepsFiles a b) (h' : KeepsFiles b c) :
    KeepsFiles a c :=
  ⟨h.toKeepsSession.trans h'.toKeepsSession, h'.openCount.trans h.openCount⟩

theorem keeps_received (d : Driver) (p : Priority) :
    KeepsFiles d (d.received (endpointReceive d.endpoint d.shared p Message.zero)) :=
  ⟨⟨rfl, endpointReceive_identity _ _ _ _, rfl⟩, rfl⟩

theorem keeps_userOpen (allocated : Bool) (d : Driver) :
    KeepsSession d (mailmsgUserOpen allocated d).2 := by
  unfold mailmsgUserOpen
  dsimp only
  split_ifs <;> exact ⟨rfl, rfl, rfl⟩

theorem keeps_userRelease (file : UserFile) (d : Driver) :
    KeepsSession d (mailmsgUserRelease file d) := by
  unfold mailmsgUserRelease
  dsimp only
  split_ifs <;> exact ⟨rfl, rfl, rfl⟩

theorem keeps_claimReader (file : UserFile) (d : Driver) :
    KeepsFiles d (mailmsgUserClaimReader file d).2.2 := by
  unfold mailmsgUserClaimReader
  split_ifs <;> exact ⟨⟨rfl, rfl, rfl⟩, rfl⟩

theorem keeps_userReadTry (nonblock copyFault : Bool) (file : UserFile) (d : Driver) :
    KeepsFiles d (mailmsgUserReadTry nonblock copyFault file d).2 := by
  unfold mailmsgUserReadTry
  dsimp only
  split_ifs
  · exact .refl d
  · exact keeps_received d file.channel

theorem keeps_userPoll (file : UserFile) (d : Driver) :
    KeepsFiles d (mailmsgUserPoll file d).2.2 := by
  have h := keeps_claimReader file d
  unfold mailmsgUserPoll
  dsimp only
  split_ifs <;> exact h

/-- What a sender on Linux can do to the driver: change the doorbells, send a frame through the
endpoint, or put a test frame on the ring by hand. -/
inductive Submits (d : Driver) : Driver → Prop
  | bells (mbox : Mbox) : Submits d { d with mbox := mbox }
  | send (p : Priority) (type : U32) (payload : Option (List U8)) (length : U32) {s : Sent Mbox}
      (hs : s = endpointSend mailmsgNotifyLocked d.mbox d.endpoint d.shared p type payload length
        SendResult.zero) :
      Submits d { d with endpoint := s.endpoint, shared := s.shared, mbox := s.notifier }
  | enqueue (p : Priority) (value : U32) (corrupt : Bool) (mbox : Mbox) :
      Submits d { (mailmsgTestEnqueueLocked p value corrupt d).2 with mbox := mbox }

theorem Submits.refl (d : Driver) : Submits d d := .bells d.mbox

theorem submits_userWrite (count : ℕ) (frame : Option UserFrame) (file : UserFile) (d : Driver) :
    Submits d (mailmsgUserWrite count frame file d).2 := by
  unfold mailmsgUserWrite
  split_ifs
  · exact .refl d
  · cases frame with
    | none => exact .refl d
    | some frame =>
      dsimp only
      split_ifs
      · exact .refl d
      · exact .refl d
      · exact .send file.channel frame.type _ frame.length rfl

theorem doorbellStore_bells (parsed : Option (U32 × U32)) (count : ℕ) (d : Driver) :
    ∃ mbox, (doorbellStore parsed count d).2 = { d with mbox := mbox } := by
  unfold doorbellStore
  cases priorityArgument parsed with
  | none => exact ⟨d.mbox, rfl⟩
  | some a =>
    dsimp only
    split_ifs
    · exact ⟨d.mbox, rfl⟩
    · exact ⟨_, rfl⟩
    · exact ⟨_, rfl⟩

theorem notifyInjectStore_bells (text : InjectText) (count : ℕ) (d : Driver) :
    ∃ mbox, (mailmsgNotifyInjectStore text count d).2 = { d with mbox := mbox } := by
  unfold mailmsgNotifyInjectStore
  cases text with
  | clear => exact ⟨_, rfl⟩
  | other => exact ⟨d.mbox, rfl⟩
  | numbers priority errno remaining =>
    dsimp only
    split_ifs
    · exact ⟨d.mbox, rfl⟩
    · exact ⟨d.mbox, rfl⟩
    · exact ⟨_, rfl⟩

theorem submits_sendPing (parsed : Option (U32 × U32)) (count : ℕ) (corrupt : Bool) (d : Driver) :
    Submits d (mailmsgSendPing parsed count corrupt d).2 := by
  unfold mailmsgSendPing
  cases priorityArgument parsed with
  | none => exact .refl d
  | some a =>
    dsimp only
    split_ifs
    · exact .refl d
    · unfold sendCorruptPing
      dsimp only
      split_ifs
      · exact .enqueue a.1 a.2 true _
      · exact .enqueue a.1 a.2 true _
    · unfold sendPing
      dsimp only
      split_ifs
      all_goals exact .send a.1 msgPing _ 4 rfl

theorem submits_queuePush (parsed : Option (U32 × U32)) (count : ℕ) (d : Driver) :
    Submits d (mailmsgQueuePushStore parsed count d).2 := by
  unfold mailmsgQueuePushStore
  cases priorityArgument parsed with
  | none => exact .refl d
  | some a =>
    dsimp only
    split_ifs
    · exact .refl d
    · exact .enqueue a.1 a.2 false _

/-- The data-plane hooks of sysfs. -/
def Op.isHook : Op → Bool
  | .doorbell .. | .mailmsgPing .. | .mailmsgCrcInject .. | .mailmsgNotifyInject ..
  | .mailmsgQueuePush .. => true
  | _ => false

theorem exec_hook {cfg : Config} {w w' : World} {op : Op} {out : Output}
    (hop : op.isHook = true) (h : exec cfg w op = some (out, w')) :
    Submits w.driver w'.driver ∧ w'.files = w.files ∧ out.effects = [] := by
  cases op with
  | doorbell parsed count =>
    cases h
    obtain ⟨mbox, heq⟩ := doorbellStore_bells parsed count w.driver
    exact ⟨heq ▸ .bells mbox, rfl, rfl⟩
  | mailmsgPing parsed count =>
    cases h
    exact ⟨submits_sendPing parsed count false w.driver, rfl, rfl⟩
  | mailmsgCrcInject parsed count =>
    cases h
    exact ⟨submits_sendPing parsed count true w.driver, rfl, rfl⟩
  | mailmsgNotifyInject text count =>
    cases h
    obtain ⟨mbox, heq⟩ := notifyInjectStore_bells text count w.driver
    exact ⟨heq ▸ .bells mbox, rfl, rfl⟩
  | mailmsgQueuePush parsed count =>
    cases h
    exact ⟨submits_queuePush parsed count w.driver, rfl, rfl⟩
  | _ => cases hop

theorem Submits.keeps {d d' : Driver} (h : Submits d d') : KeepsFiles d d' := by
  cases h with
  | bells mbox => exact ⟨⟨rfl, rfl, rfl⟩, rfl⟩
  | send p type payload length hs =>
    subst hs
    exact ⟨⟨rfl, identity_endpointSend _ _ _ _ _ _ _ _ _, rfl⟩, rfl⟩
  | enqueue p value corrupt mbox =>
    unfold mailmsgTestEnqueueLocked
    dsimp only
    split_ifs <;> exact ⟨⟨rfl, rfl, rfl⟩, rfl⟩

theorem Submits.user {d d' : Driver} (h : Submits d d') : d'.user = d.user := by
  cases h with
  | bells mbox => rfl
  | send p type payload length hs => rfl
  | enqueue p value corrupt mbox =>
    unfold mailmsgTestEnqueueLocked
    dsimp only
    split_ifs <;> rfl

theorem Submits.reverse {d d' : Driver} (h : Submits d d') (hplays : d.endpoint.Plays .linux) :
    d'.shared.cpu3ToLinux = d.shared.cpu3ToLinux := by
  cases h with
  | bells mbox => rfl
  | send p type payload length hs =>
    subst hs
    exact rx_endpointSend _ _ _ _ _ _ _ _ _ hplays
  | enqueue p value corrupt mbox =>
    unfold mailmsgTestEnqueueLocked
    dsimp only
    split_ifs <;> rfl

theorem keeps_responseShow {fuel : ℕ} {d d' : Driver} {lines : List ResponseLine}
    (h : mailmsgResponseShow fuel d = some (d', lines)) : KeepsFiles d d' :=
  responseShow_rule (P := KeepsFiles d) (fun p d₁ hd => hd.trans (keeps_received d₁ p)) (.refl d) h

/-- The operations of the lifecycle plane. -/
def Op.isLifecycle : Op → Bool
  | .imageWrite .. | .startStore .. | .rearmStore .. | .stopStore .. | .controlWork ..
  | .lifecycleTimeoutWork .. | .affinityWork .. | .affinityStateShow .. => true
  | _ => false

/-- What an operation outside the lifecycle plane does: the session is kept, and the open count
follows the files. -/
structure DataPlaneStep (w : World) (out : Output) (w' : World) : Prop where
  keeps : KeepsSession w.driver w'.driver
  effects : out.effects = []
  files : w'.driver.mailmsgUserOpenCount - w'.files.length =
    w.driver.mailmsgUserOpenCount - w.files.length

theorem KeepsFiles.step {w w' : World} {out : Output} (h : KeepsFiles w.driver w'.driver)
    (hout : out.effects = []) (hfiles : w'.files.length = w.files.length) :
    DataPlaneStep w out w' :=
  ⟨h.toKeepsSession, hout, by rw [h.openCount, hfiles]⟩

@[simp] theorem length_setFile (w : World) (file file' : UserFile) :
    (w.setFile file file').files.length = w.files.length := by
  simp [World.setFile]

theorem setFile_step (w : World) (file file' : UserFile) {out : Output} (hout : out.effects = []) :
    DataPlaneStep w out (w.setFile file file') :=
  ⟨⟨rfl, rfl, rfl⟩, hout, by rw [length_setFile]; rfl⟩

theorem userRelease_step {w : World} {file : UserFile} (h : file ∈ w.files) :
    DataPlaneStep w (.returned 0) ⟨mailmsgUserRelease file w.driver, w.files.erase file⟩ := by
  refine ⟨keeps_userRelease file w.driver, rfl, ?_⟩
  have hcount : (mailmsgUserRelease file w.driver).mailmsgUserOpenCount =
      w.driver.mailmsgUserOpenCount - 1 := by
    unfold mailmsgUserRelease
    dsimp only
    split_ifs <;> rfl
  have hlen := List.length_erase_of_mem h
  have hpos := List.length_pos_of_mem h
  change (mailmsgUserRelease file w.driver).mailmsgUserOpenCount - ((w.files.erase file).length : Int)
    = _
  rw [hcount, hlen]
  omega

theorem userOpen_step (w : World) (id : ℕ) (p : Priority) (allocated : Bool) :
    DataPlaneStep w (.returned (mailmsgUserOpen allocated w.driver).1)
      ⟨(mailmsgUserOpen allocated w.driver).2,
        if (mailmsgUserOpen allocated w.driver).1 ≠ 0 then w.files
        else ⟨id, p, false, []⟩ :: w.files⟩ := by
  refine ⟨keeps_userOpen allocated w.driver, rfl, ?_⟩
  unfold mailmsgUserOpen
  dsimp only
  by_cases hmem : (!allocated) = true
  · simp [hmem]
  · rw [if_neg hmem]
    by_cases hgate : mailmsgDataGateLocked w.driver ≠ 0
    · simp [hgate]
    · rw [if_neg hgate, if_neg (by simp)]
      push_cast [List.length_cons]
      omega

theorem execFile_step {w w' : World} {op : Op} {out : Output}
    (h : execFile w op = some (out, w')) : DataPlaneStep w out w' := by
  cases op with
  | userRelease file =>
    simp only [execFile] at h
    split_ifs at h with hmem
    cases h
    exact userRelease_step hmem.1
  -- a read that is refused at the door takes no claim and leaves no phase behind
  | userReadEnter file count =>
    simp only [execFile] at h
    split_ifs at h <;> cases h
    · exact (KeepsFiles.refl _).step rfl rfl
    · exact (KeepsFiles.refl _).step rfl rfl
    · exact (keeps_claimReader file w.driver).step rfl (length_setFile w _ _)
  | userReadSample file i =>
    simp only [execFile] at h
    split_ifs at h
    cases h
    exact setFile_step w _ _ rfl
  | userReadTry file i nonblock copyFault =>
    have hkeep := keeps_userReadTry nonblock copyFault file w.driver
    simp only [execFile] at h
    split_ifs at h
    split at h
    · split at h <;> cases h <;> exact hkeep.step rfl (length_setFile w _ _)
    · cases h
  | userReadWake file i signalled =>
    simp only [execFile] at h
    split_ifs at h
    · split at h <;> cases h
      exact setFile_step w _ _ rfl
    · split at h
      · split_ifs at h
        cases h
        exact setFile_step w _ _ rfl
      · cases h
  | userWrite file count frame =>
    simp only [execFile] at h
    split_ifs at h
    cases h
    exact (submits_userWrite count frame file w.driver).keeps.step rfl rfl
  | userPoll file =>
    simp only [execFile] at h
    split_ifs at h
    cases h
    exact (keeps_userPoll file w.driver).step rfl (length_setFile w _ _)
  | _ => simp [execFile] at h

theorem exec_dataPlane {cfg : Config} {w w' : World} {op : Op} {out : Output}
    (hop : op.isLifecycle = false) (h : exec cfg w op = some (out, w')) :
    DataPlaneStep w out w' := by
  cases op with
  | userOpen id p allocated =>
    simp only [exec] at h
    split_ifs at h with hid hret
    · cases h
      have hstep := userOpen_step w id p allocated
      rwa [if_pos hret] at hstep
    · cases h
      have hstep := userOpen_step w id p allocated
      rwa [if_neg hret] at hstep
  | doorbell | mailmsgPing | mailmsgCrcInject | mailmsgNotifyInject | mailmsgQueuePush =>
    obtain ⟨hsubmits, hfiles, heffects⟩ := exec_hook rfl h
    exact hsubmits.keeps.step heffects (congrArg List.length hfiles)
  | mailmsgResponse fuel =>
    simp only [exec, Option.map_eq_some_iff] at h
    obtain ⟨r, hr, heq⟩ := h
    cases heq
    exact (keeps_responseShow hr).step rfl rfl
  | mboxRx p message =>
    cases h
    exact ⟨⟨rfl, rfl, rfl⟩, rfl, rfl⟩
  | peer shared a2bStatus =>
    cases h
    exact ⟨⟨rfl, rfl, rfl⟩, rfl, rfl⟩
  | userRelease | userReadEnter | userReadSample | userReadTry | userReadWake | userWrite
  | userPoll =>
    simp only [exec] at h
    exact execFile_step h
  | _ => simp [Op.isLifecycle] at hop

end Lzamp.R1Amp
