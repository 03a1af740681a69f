import Lzamp.R1Amp.DataPlane

namespace Lzamp.R1Amp
open Mailmsg Lib

/-- The driver, and the files that user space holds open on its devices. -/
structure World where
  driver : Driver
  files : List UserFile

def Lifecycle.probed : Lifecycle where
  imageWritten := 0
  affinityState := 0
  cpuOnRet := -eagain
  affinityQueried := false
  affinitySeenOn := false
  cpuOnAttempted := false
  mailmsgState := .unarmed
  affinityMonitorCount := 0
  affinityMonitorErrorCount := 0
  sessionGeneration := 0
  peerGeneration := 0
  sessionResult := -eagain
  stopRequestSequence := 0
  stopReplyType := 0
  stopResult := -eagain
  stopNotifyResult := -eagain
  lifecycleDeadline := 0
  nextSequence := 0

/-- The state `r1_amp_cpu_on_probe` leaves, over whatever the memory and the registers held. -/
structure World.Probed (w : World) : Prop where
  files : w.files = []
  openCount : w.driver.mailmsgUserOpenCount = 0
  endpoint : w.driver.endpoint = Endpoint.zero
  life : w.driver.life = .probed
  readers : ∀ p, w.driver.user p = ⟨0, 0⟩
  bypass : w.driver.mbox.lifecycleNotifyBypass = false
  inject : w.driver.mbox.notifyInjectRemaining = 0

/-- An entry point with its inputs: the text that was written, what PSCI answered, what jiffies
read.  `peer` stands for everything CPU3 may do between two lock sections: it may leave any contents
in the shared page and in A2B_STATUS. -/
inductive Op where
  | imageWrite (off : U64) (buf : List U8)
  | startStore (isStart : Bool) (count : ℕ) (affinity cpuOn : Int) (now : U64)
  | rearmStore (isRearm : Bool) (count : ℕ) (affinity : Int)
  | stopStore (isStop : Bool) (count : ℕ) (now : U64)
  | controlWork (start : U64) (clock : ℕ → U64) (fuel : ℕ)
  | lifecycleTimeoutWork (now : U64) (affinity : Int)
  | affinityWork (affinity : Int)
  | affinityStateShow (affinity : Int)
  | userOpen (id : ℕ) (p : Priority) (allocated : Bool)
  | userRelease (file : UserFile)
  | userReadEnter (file : UserFile) (count : ℕ)
  | userReadSample (file : UserFile) (i : ℕ)
  | userReadTry (file : UserFile) (i : ℕ) (nonblock copyFault : Bool)
  | userReadWake (file : UserFile) (i : ℕ) (signalled : Bool)
  | userWrite (file : UserFile) (count : ℕ) (frame : Option UserFrame)
  | userPoll (file : UserFile)
  | doorbell (parsed : Option (U32 × U32)) (count : ℕ)
  | mailmsgPing (parsed : Option (U32 × U32)) (count : ℕ)
  | mailmsgCrcInject (parsed : Option (U32 × U32)) (count : ℕ)
  | mailmsgNotifyInject (text : InjectText) (count : ℕ)
  | mailmsgQueuePush (parsed : Option (U32 × U32)) (count : ℕ)
  | mailmsgResponse (fuel : ℕ)
  | mboxRx (p : Priority) (message : Option (U32 × U32))
  | peer (shared : Shared) (a2bStatus : U32)

/-- The affinity an operation reads, if it gets as far as reading it. -/
def affinityOf : Op → Option Int
  | .startStore _ _ affinity _ _ | .rearmStore _ _ affinity | .lifecycleTimeoutWork _ affinity
  | .affinityWork affinity | .affinityStateShow affinity => some affinity
  | _ => none

/-- What an operation shows: the value returned to its caller, if it returned one, the lines of
`mailmsg_response`, and its effects. -/
structure Output where
  ret : Option Int
  lines : List ResponseLine
  effects : List Effect

def Output.silent : Output := ⟨none, [], []⟩

def Output.returned (ret : Int) : Output := ⟨some ret, [], []⟩

def World.withDriver (w : World) (d : Driver) : World := { w with driver := d }

def World.setFile (w : World) (file file' : UserFile) : World :=
  { w with files := w.files.map fun f => if f = file then file' else f }

def World.ran (w : World) (r : Ran) : Output × World :=
  (⟨some r.ret, [], r.effects⟩, w.withDriver r.driver)

def World.stored (w : World) (r : Int × Driver) : Output × World :=
  (.returned r.1, w.withDriver r.2)

def UserFile.setRead (file : UserFile) (i : ℕ) (phase : ReadPhase) : UserFile :=
  { file with reads := file.reads.set i phase }

def UserFile.endRead (file : UserFile) (i : ℕ) : UserFile :=
  { file with reads := file.reads.eraseIdx i }

/-- The step of an operation on an open file; `none` when there is no such file. -/
def execFile (w : World) : Op → Option (Output × World)
  | .userRelease file =>
    -- the last reference to a file is dropped only when no call on it is in progress
    if file ∈ w.files ∧ file.reads = [] then
      some (.returned 0, { driver := mailmsgUserRelease file w.driver, files := w.files.erase file })
    else none
  | .userReadEnter file count =>
    if file ∈ w.files then
      if count ≠ userFrameBytes then some (.returned (-einval), w)
      else
        let (ret, file', d) := mailmsgUserClaimReader file w.driver
        if ret ≠ 0 then some (.returned ret, w)
        else some (.silent,
          (w.setFile file { file' with reads := file'.reads ++ [.entered] }).withDriver d)
    else none
  | .userReadSample file i =>
    if file ∈ w.files ∧ file.reads[i]? = some .entered then
      some (.silent, w.setFile file
        (file.setRead i (.sampled (w.driver.user file.channel).rxGeneration)))
    else none
  | .userReadTry file i nonblock copyFault =>
    if file ∈ w.files then
      match file.reads[i]? with
      | some (.sampled generation) =>
        let (result, d) := mailmsgUserReadTry nonblock copyFault file w.driver
        match result with
        | .frame _ => some (.returned userFrameBytes, (w.setFile file (file.endRead i)).withDriver d)
        | .error errno => some (.returned errno, (w.setFile file (file.endRead i)).withDriver d)
        | .block =>
          some (.silent, (w.setFile file (file.setRead i (.waiting generation))).withDriver d)
      | _ => none
    else none
  | .userReadWake file i signalled =>
    if file ∈ w.files then
      match file.reads[i]? with
      | some (.waiting generation) =>
        if signalled then some (.returned (-erestartsys), w.setFile file (file.endRead i))
        else if (w.driver.user file.channel).rxGeneration ≠ generation then
          some (.silent, w.setFile file (file.setRead i .entered))
        else none
      | _ => none
    else none
  | .userWrite file count frame =>
    if file ∈ w.files then some (w.stored (mailmsgUserWrite count frame file w.driver)) else none
  | .userPoll file =>
    if file ∈ w.files then
      let (mask, file', d) := mailmsgUserPoll file w.driver
      some (.returned mask, (w.setFile file file').withDriver d)
    else none
  | _ => none

/-- One operation; `none` when it is not possible in `w`. -/
def exec (cfg : Config) (w : World) : Op → Option (Output × World)
  | .imageWrite off buf => some (w.ran (imageWrite cfg off buf w.driver))
  | .startStore isStart count affinity cpuOn now =>
    some (w.ran (startStore cfg isStart count affinity cpuOn now w.driver))
  | .rearmStore isRearm count affinity =>
    some (w.ran (rearmStore cfg isRearm count affinity w.driver))
  | .stopStore isStop count now => some (w.ran (mailmsgStopStore cfg isStop count now w.driver))
  | .controlWork start clock fuel =>
    (mailmsgControlWork cfg start clock fuel w.driver).map fun r =>
      (⟨none, [], r.2⟩, w.withDriver r.1)
  | .lifecycleTimeoutWork now affinity =>
    some (.silent, w.withDriver (mailmsgLifecycleTimeoutWork now affinity w.driver))
  | .affinityWork affinity => some (.silent, w.withDriver (affinityWork affinity w.driver))
  | .affinityStateShow affinity => some (w.ran (affinityStateShow cfg affinity w.driver))
  | .userOpen id p allocated =>
    if ∀ f ∈ w.files, f.id ≠ id then
      let (ret, d) := mailmsgUserOpen allocated w.driver
      some (.returned ret,
        { driver := d
          files := if ret ≠ 0 then w.files else ⟨id, p, false, []⟩ :: w.files })
    else none
  | .doorbell parsed count => some (w.stored (doorbellStore parsed count w.driver))
  | .mailmsgPing parsed count => some (w.stored (mailmsgPingStore parsed count w.driver))
  | .mailmsgCrcInject parsed count => some (w.stored (mailmsgCrcInjectStore parsed count w.driver))
  | .mailmsgNotifyInject text count =>
    some (w.stored (mailmsgNotifyInjectStore text count w.driver))
  | .mailmsgQueuePush parsed count => some (w.stored (mailmsgQueuePushStore parsed count w.driver))
  | .mailmsgResponse fuel =>
    (mailmsgResponseShow fuel w.driver).map fun r => (⟨none, r.2, []⟩, w.withDriver r.1)
  | .mboxRx p message => some (.silent, w.withDriver (mboxRxCallback p message w.driver))
  | .peer shared a2bStatus =>
    some (.silent, w.withDriver { w.driver with
      shared := shared
      mbox := { w.driver.mbox with a2b := { w.driver.mbox.a2b with status := a2bStatus } } })
  | op => execFile w op

/-- A step is labelled with the operation and what it shows. -/
def Step (cfg : Config) (w : World) (label : Op × Output) (w' : World) : Prop :=
  exec cfg w label.1 = some (label.2, w')

/-- A world some run from a probed driver leads to. -/
def Reachable (cfg : Config) (w : World) : Prop :=
  ∃ w₀ labels, w₀.Probed ∧ Trace (Step cfg) w₀ labels w

def execAll (cfg : Config) : World → List Op → Option (List (Op × Output) × World)
  | w, [] => some ([], w)
  | w, op :: ops =>
    match exec cfg w op with
    | none => none
    | some (out, w) => (execAll cfg w ops).map fun r => ((op, out) :: r.1, r.2)

theorem trace_of_execAll {cfg : Config} {w w' : World} {ops : List Op}
    {labels : List (Op × Output)} (h : execAll cfg w ops = some (labels, w')) :
    Trace (Step cfg) w labels w' := by
  induction ops generalizing w labels with
  | nil =>
    cases h
    exact .nil _
  | cons op ops ih =>
    simp only [execAll] at h
    split at h
    · cases h
    case h_2 out w₁ hstep =>
      obtain ⟨r, hr, heq⟩ := Option.map_eq_some_iff.mp h
      cases heq
      exact .cons hstep (ih hr)

theorem exists_run (cfg : Config) (w : World) (ops : List Op)
    (test : List (Op × Output) × World → Bool) (h : (execAll cfg w ops).any test = true) :
    ∃ labels w', Trace (Step cfg) w labels w' ∧ test (labels, w') = true := by
  cases hr : execAll cfg w ops with
  | none => simp [hr] at h
  | some r =>
    rw [hr] at h
    exact ⟨r.1, r.2, trace_of_execAll hr, h⟩

/-- The world a list of operations leads to, or the first one if they are not possible. -/
def runWorld (cfg : Config) (w : World) (ops : List Op) : World :=
  match execAll cfg w ops with
  | some r => r.2
  | none => w

theorem trace_runWorld (cfg : Config) (w : World) (ops : List Op) :
    ∃ labels, Trace (Step cfg) w labels (runWorld cfg w ops) := by
  unfold runWorld
  split
  case h_1 r hr => exact ⟨r.1, trace_of_execAll hr⟩
  case h_2 => exact ⟨[], .nil w⟩

theorem reachable_runWorld {w : World} (h : w.Probed) (cfg : Config) (ops : List Op) :
    Reachable cfg (runWorld cfg w ops) := by
  obtain ⟨labels, htrace⟩ := trace_runWorld cfg w ops
  exact ⟨w, labels, h, htrace⟩

def board : Config := ⟨4, 1250, true, true⟩

def Mbox.zero : Mbox where
  a2b := ⟨0, fun _ => 0, fun _ => 0⟩
  channel := fun _ => ⟨0, 0, 0, 0, 0, -eagain, 0, -eagain, 0, 0, 0⟩
  notifyInjectPriority := 0
  notifyInjectErrno := -eio
  notifyInjectRemaining := 0
  lifecycleNotifyBypass := false
  mailmsgLastNotifyResult := -eagain

def probedWorld : World where
  driver :=
    { life := .probed, mbox := Mbox.zero, shared := Shared.zero, endpoint := Endpoint.zero,
      user := fun _ => ⟨0, 0⟩, mailmsgUserOpenCount := 0, carveout := fun _ => 0 }
  files := []

theorem probedWorld_probed : probedWorld.Probed :=
  ⟨rfl, rfl, rfl, rfl, fun _ => rfl, rfl, rfl⟩

/-- A CPU3-to-Linux frame of the first session with two payload words, as push commits it. -/
def replyFrame (type sequence word₀ word₁ : U32) : Message :=
  (composeFrame 1 type sequence 8 (some (storePayloadU32 word₀ ++ storePayloadU32 word₁))).seal

/-- The shared page of the first session with `requests` frames of p0 consumed by CPU3 and `replies`
queued on the reverse ring of p0. -/
def replyPage (requests consumer : U32) (replies : List Message) : Shared :=
  { freshShared 1 with
    linuxToCpu3 := Function.update (fun _ => Ring.zero) 0 (ringOf requests [])
    cpu3ToLinux := Function.update (fun _ => Ring.zero) 0 (ringOf consumer replies) }

/-- Upload, start, SESSION_READY: the first session reaches ACTIVE. -/
def bringUp : List Op :=
  [.imageWrite 0 [1, 2, 3, 4], .startStore true 5 affinityOff 0 100,
    .peer (replyPage 0 0 [replyFrame msgSessionReady 1 1 protocolVersion]) 0,
    .controlWork 200 (fun _ => 200) 1]

end Lzamp.R1Amp
