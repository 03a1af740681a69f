import Lzamp.R1Amp.StopPreflight

namespace Lzamp.R1Amp
open Mailmsg Lib

/-- Everything the two planes contend for is untouched: the shared page with its eight rings, the
endpoint with its sequence and statistics, the mailbox with its registers, and the open count. -/
structure KeepsPlane (d d' : Driver) : Prop where
  shared : d'.shared = d.shared
  endpoint : d'.endpoint = d.endpoint
  mbox : d'.mbox = d.mbox
  openCount : d'.mailmsgUserOpenCount = d.mailmsgUserOpenCount

theorem KeepsPlane.refl (d : Driver) : KeepsPlane d d := ⟨rfl, rfl, rfl, rfl⟩

theorem keepsPlane_refreshAffinity (a : Int) (d : Driver) :
    KeepsPlane d (refreshAffinityLocked a d) := by
  rcases refreshAffinity_cases a d with h | ⟨-, -, -, -, h⟩ <;> rw [h] <;>
    exact ⟨rfl, rfl, rfl, rfl⟩

theorem keepsPlane_setTimeout (d : Driver) : KeepsPlane d (mailmsgSetTimeoutLocked d) :=
  ⟨rfl, rfl, rfl, rfl⟩

theorem keepsPlane_affinityWork (a : Int) (d : Driver) : KeepsPlane d (affinityWork a d) := by
  have h := keepsPlane_refreshAffinity a { d with life := { d.life with
    affinityMonitorCount := d.life.affinityMonitorCount + 1 } }
  unfold affinityWork
  split
  all_goals first
    | exact .refl d
    | split_ifs <;> exact ⟨h.shared, h.endpoint, h.mbox, h.openCount⟩

theorem keepsPlane_lifecycleTimeoutWork (now : U64) (a : Int) (d : Driver) :
    KeepsPlane d (mailmsgLifecycleTimeoutWork now a d) := by
  have h := keepsPlane_refreshAffinity a d
  unfold mailmsgLifecycleTimeoutWork
  dsimp only
  split_ifs
  · exact .refl d
  · exact .refl d
  · exact h
  · exact ⟨h.shared, h.endpoint, h.mbox, h.openCount⟩
  · exact keepsPlane_setTimeout d

theorem keepsPlane_affinityStateShow (cfg : Config) (a : Int) (d : Driver) :
    KeepsPlane d (affinityStateShow cfg a d).driver := by
  unfold affinityStateShow
  split_ifs
  · exact .refl d
  · exact keepsPlane_refreshAffinity a d

theorem openCount_controlRound (cfg : Config) (now rearm : U64) (d : Driver) :
    (controlRound cfg now rearm d).driver.mailmsgUserOpenCount = d.mailmsgUserOpenCount := by
  unfold controlRound controlFrame
  dsimp only
  split_ifs <;> rfl

theorem openCount_controlLoop {cfg : Config} {clock : ℕ → U64} {fuel i : ℕ} {d d' : Driver}
    {log es : List Effect} (h : controlLoop cfg clock fuel i d log = some (d', es)) :
    d'.mailmsgUserOpenCount = d.mailmsgUserOpenCount :=
  controlLoop_keeps (P := fun d₁ _ => d₁.mailmsgUserOpenCount = d.mailmsgUserOpenCount)
    (fun now rearm d₁ _ hd => (openCount_controlRound cfg now rearm d₁).trans hd) rfl h

theorem openCount_startStore (cfg : Config) (isStart : Bool) (count : ℕ) (affinity cpuOn : Int)
    (now : U64) (d : Driver) :
    (startStore cfg isStart count affinity cpuOn now d).driver.mailmsgUserOpenCount =
      d.mailmsgUserOpenCount := by
  have h := (keepsPlane_refreshAffinity affinity d).openCount
  unfold startStore startSession
  dsimp only
  split_ifs <;> first | rfl | exact h

theorem openCount_stopStore (cfg : Config) (isStop : Bool) (count : ℕ) (now : U64) (d : Driver) :
    (mailmsgStopStore cfg isStop count now d).driver.mailmsgUserOpenCount =
      d.mailmsgUserOpenCount := by
  unfold mailmsgStopStore sendStopRequest
  dsimp only
  split_ifs <;> rfl

theorem openCount_rearmStore (cfg : Config) (isRearm : Bool) (count : ℕ) (affinity : Int)
    (d : Driver) :
    (rearmStore cfg isRearm count affinity d).driver.mailmsgUserOpenCount =
      d.mailmsgUserOpenCount := by
  have h := (keepsPlane_refreshAffinity affinity d).openCount
  unfold rearmStore
  dsimp only
  split_ifs <;> first | rfl | exact h

theorem lifecycle_files {cfg : Config} {w w' : World} {op : Op} {out : Output}
    (hop : op.isLifecycle = true) (h : exec cfg w op = some (out, w')) :
    w'.files = w.files ∧
      w'.driver.mailmsgUserOpenCount = w.driver.mailmsgUserOpenCount := by
  cases op with
  | imageWrite off buf =>
    cases h
    refine ⟨rfl, ?_⟩
    change (imageWrite cfg off buf w.driver).driver.mailmsgUserOpenCount = _
    unfold imageWrite
    dsimp only
    split_ifs <;> rfl
  | startStore isStart count affinity cpuOn now =>
    cases h
    exact ⟨rfl, openCount_startStore cfg isStart count affinity cpuOn now w.driver⟩
  | rearmStore isRearm count affinity =>
    cases h
    exact ⟨rfl, openCount_rearmStore cfg isRearm count affinity w.driver⟩
  | stopStore isStop count now =>
    cases h
    exact ⟨rfl, openCount_stopStore cfg isStop count now w.driver⟩
  | controlWork start clock fuel =>
    simp only [exec, Option.map_eq_some_iff] at h
    obtain ⟨r, hr, heq⟩ := h
    cases heq
    refine ⟨rfl, ?_⟩
    unfold mailmsgControlWork at hr
    split_ifs at hr
    · cases hr
      rfl
    · cases hr
      rfl
    · exact openCount_controlLoop hr
  | lifecycleTimeoutWork now affinity =>
    cases h
    exact ⟨rfl, (keepsPlane_lifecycleTimeoutWork now affinity w.driver).openCount⟩
  | affinityWork affinity =>
    cases h
    exact ⟨rfl, (keepsPlane_affinityWork affinity w.driver).openCount⟩
  | affinityStateShow affinity =>
    cases h
    exact ⟨rfl, (keepsPlane_affinityStateShow cfg affinity w.driver).openCount⟩
  | _ => simp [Op.isLifecycle] at hop

theorem Session.Inv.attempted_of {d : Driver} (h : d.session.Inv)
    (hstate : d.life.mailmsgState ≠ .unarmed) : d.life.cpuOnAttempted = true := by
  by_contra hne
  exact hstate (h.unarmed (Bool.eq_false_iff.mpr hne))

theorem Sampled.state {s s' : Session} (h : Sampled s s') :
    s'.state = s.state ∨ s'.state = .offline := by
  rcases h with rfl | rfl | ⟨-, -, -, rfl⟩
  · exact Or.inl rfl
  · exact Or.inl rfl
  · exact Or.inr rfl

/-- With a file open, no lifecycle operation touches the rings or moves the session except to
OFFLINE: stop and rearm refuse because of the file, start because a session was started. -/
theorem lifecycle_with_files {cfg : Config} {w w' : World} {op : Op} {out : Output}
    (hinv : w.driver.session.Inv) (hopen : w.driver.mailmsgUserOpenCount ≠ 0)
    (hstate : w.driver.life.mailmsgState = .active ∨ w.driver.life.mailmsgState = .offline)
    (hop : op.isLifecycle = true) (h : exec cfg w op = some (out, w')) :
    KeepsPlane w.driver w'.driver ∧
      (w'.driver.life.mailmsgState = w.driver.life.mailmsgState ∨
        w'.driver.life.mailmsgState = .offline) := by
  have hidle : w.driver.life.mailmsgState ≠ .starting ∧
      w.driver.life.mailmsgState ≠ .stopping := by
    rcases hstate with hs | hs <;> rw [hs] <;> decide
  have hatt := hinv.attempted_of (by rcases hstate with hs | hs <;> rw [hs] <;> decide)
  cases op with
  | imageWrite off buf =>
    cases h
    simp only [imageWrite, hatt, if_true]
    exact ⟨.refl _, Or.inl rfl⟩
  | startStore isStart count affinity cpuOn now =>
    cases h
    simp only [startStore, hatt, if_true]
    split_ifs <;> exact ⟨.refl _, Or.inl rfl⟩
  | rearmStore isRearm count affinity =>
    cases h
    simp only [rearmStore, hatt, hopen, ne_eq, not_false_eq_true, if_true]
    split_ifs <;> exact ⟨.refl _, Or.inl rfl⟩
  | stopStore isStop count now =>
    cases h
    have hpre : mailmsgStopPreflightLocked w.driver ≠ 0 := by
      rw [mailmsgStopPreflightLocked, if_pos hopen]
      decide
    simp only [mailmsgStopStore, hpre, ne_eq, not_false_eq_true, if_true]
    split_ifs <;> exact ⟨.refl _, Or.inl rfl⟩
  -- neither STARTING nor STOPPING: the two workers return at once
  | controlWork start clock fuel =>
    simp only [exec, Option.map_eq_some_iff, mailmsgControlWork] at h
    rw [if_pos hidle] at h
    obtain ⟨r, hr, heq⟩ := h
    cases hr
    cases heq
    exact ⟨.refl _, Or.inl rfl⟩
  | lifecycleTimeoutWork now affinity =>
    cases h
    simp only [mailmsgLifecycleTimeoutWork]
    rw [if_pos hidle]
    exact ⟨.refl _, Or.inl rfl⟩
  | affinityWork affinity =>
    cases h
    exact ⟨keepsPlane_affinityWork affinity w.driver, (affinityWork_sampled affinity w.driver).state⟩
  | affinityStateShow affinity =>
    cases h
    refine ⟨keepsPlane_affinityStateShow cfg affinity w.driver, ?_⟩
    change (affinityStateShow cfg affinity w.driver).driver.life.mailmsgState = _ ∨
      (affinityStateShow cfg affinity w.driver).driver.life.mailmsgState = _
    unfold affinityStateShow
    split_ifs
    · exact Or.inl rfl
    · exact (refreshAffinity_sampled affinity w.driver).state
  | _ => simp [Op.isLifecycle] at hop

/-- The open count is the number of open files, and open files exclude the lifecycle states. -/
structure FilesInv (w : World) : Prop where
  count : w.driver.mailmsgUserOpenCount = w.files.length
  state : w.files ≠ [] →
    w.driver.life.mailmsgState = .active ∨ w.driver.life.mailmsgState = .offline

theorem FilesInv.openCount_ne_zero {w : World} (h : FilesInv w) (hne : w.files ≠ []) :
    w.driver.mailmsgUserOpenCount ≠ 0 := by
  have hpos := List.length_pos_iff.mpr hne
  rw [h.count]
  omega

theorem exec_opened {cfg : Config} {w w' : World} {op : Op} {out : Output}
    (hop : op.isLifecycle = false) (h : exec cfg w op = some (out, w')) (hnil : w.files = [])
    (hne : w'.files ≠ []) : w.driver.life.mailmsgState = .active := by
  cases op with
  | userOpen id p allocated =>
    simp only [exec] at h
    split_ifs at h with hid hret
    · cases h
      exact absurd hnil hne
    · by_contra hclosed
      apply hret
      unfold mailmsgUserOpen
      dsimp only
      split_ifs with hmem hgate
      · exact (by decide : -enomem ≠ 0)
      · exact hgate
      · unfold mailmsgDataGateLocked at hgate
        cases hs : w.driver.life.mailmsgState <;> simp [hs] at hgate hclosed
  | userRelease | userReadEnter | userReadSample | userReadTry | userReadWake | userWrite
  | userPoll => simp [exec, execFile, hnil] at h
  | mailmsgResponse fuel =>
    simp only [exec, Option.map_eq_some_iff] at h
    obtain ⟨r, -, heq⟩ := h
    cases heq
    exact absurd hnil hne
  | doorbell | mailmsgPing | mailmsgCrcInject | mailmsgNotifyInject | mailmsgQueuePush | mboxRx
  | peer =>
    cases h
    exact absurd hnil hne
  | _ => simp [Op.isLifecycle] at hop

theorem FilesInv.step {cfg : Config} {w w' : World} {label : Op × Output}
    (hinv : w.driver.session.Inv) (hw : FilesInv w) (h : Step cfg w label w') : FilesInv w' := by
  obtain ⟨op, out⟩ := label
  cases hop : op.isLifecycle with
  | false =>
    have hstep := exec_dataPlane hop h
    constructor
    · have hfiles := hstep.files
      have hcount := hw.count
      omega
    · intro hne
      rw [hstep.keeps.life]
      by_cases hnil : w.files = []
      · exact Or.inl (exec_opened hop h hnil hne)
      · exact hw.state hnil
  | true =>
    obtain ⟨hfiles, hcount⟩ := lifecycle_files hop h
    constructor
    · rw [hcount, hfiles]
      exact hw.count
    · rw [hfiles]
      intro hne
      have hstate := hw.state hne
      rcases (lifecycle_with_files hinv (hw.openCount_ne_zero hne) hstate hop h).2 with hs | hs
      · rwa [hs]
      · exact Or.inr hs

theorem Reachable.filesInv {cfg : Config} {w : World} (h : Reachable cfg w) : FilesInv w := by
  obtain ⟨w₀, labels, h₀, htrace⟩ := h
  have hall := htrace.invariant (I := fun w => w.driver.session.Inv ∧ FilesInv w)
    (fun _ _ _ hi hs => ⟨(step_change hs).inv hi.1, hi.2.step hi.1 hs⟩)
    ⟨h₀.inv, by simp [h₀.openCount, h₀.files], by simp [h₀.files]⟩
  exact hall.2

section Gate

variable {d : Driver}

theorem gate_closed (h : d.life.mailmsgState ≠ .active) :
    mailmsgDataGateLocked d = -eagain ∨ mailmsgDataGateLocked d = -etimedout ∨
      mailmsgDataGateLocked d = -eshutdown ∨ mailmsgDataGateLocked d = -enolink := by
  unfold mailmsgDataGateLocked
  cases hs : d.life.mailmsgState <;> simp [hs] at h ⊢

theorem gate_neg (h : d.life.mailmsgState ≠ .active) : mailmsgDataGateLocked d < 0 := by
  rcases gate_closed h with hg | hg | hg | hg <;> rw [hg] <;> decide

theorem userOpen_closed (h : d.life.mailmsgState ≠ .active) (allocated : Bool) :
    ∃ ret < 0, mailmsgUserOpen allocated d = (ret, d) := by
  unfold mailmsgUserOpen
  dsimp only
  split_ifs with hmem hgate
  · exact ⟨_, by decide, rfl⟩
  · exact ⟨_, gate_neg h, rfl⟩
  · exact absurd (gate_neg h) (by omega)

theorem userReadTry_closed (h : d.life.mailmsgState ≠ .active) (nonblock copyFault : Bool)
    (file : UserFile) :
    ∃ errno < 0, mailmsgUserReadTry nonblock copyFault file d = (.error errno, d) := by
  unfold mailmsgUserReadTry
  dsimp only
  rw [if_pos (gate_neg h).ne]
  -- no value of the gate is taken for an empty ring, so the reader does not block
  rcases gate_closed h with hg | hg | hg | hg <;> rw [hg]
  · exact ⟨-eagain, by decide, rfl⟩
  · exact ⟨-eio, by decide, rfl⟩
  · exact ⟨-eshutdown, by decide, rfl⟩
  · exact ⟨-enolink, by decide, rfl⟩

theorem userWrite_closed (h : d.life.mailmsgState ≠ .active) (count : ℕ)
    (frame : Option UserFrame) (file : UserFile) :
    ∃ ret < 0, mailmsgUserWrite count frame file d = (ret, d) := by
  unfold mailmsgUserWrite
  split_ifs
  · exact ⟨_, by decide, rfl⟩
  · cases frame with
    | none => exact ⟨_, by decide, rfl⟩
    | some frame =>
      dsimp only
      split_ifs with hbad hgate
      · exact ⟨_, by decide, rfl⟩
      · refine ⟨_, ?_, rfl⟩
        rcases gate_closed h with hg | hg | hg | hg <;> rw [hg] <;> decide
      · exact absurd (gate_neg h) (by omega)

theorem doorbell_closed (h : d.life.mailmsgState ≠ .active) (parsed : Option (U32 × U32))
    (count : ℕ) : ∃ ret < 0, doorbellStore parsed count d = (ret, d) := by
  unfold doorbellStore
  cases priorityArgument parsed with
  | none => exact ⟨-einval, by decide, rfl⟩
  | some a => exact ⟨_, gate_neg h, if_pos (gate_neg h).ne⟩

theorem sendPing_closed (h : d.life.mailmsgState ≠ .active) (parsed : Option (U32 × U32))
    (count : ℕ) (corrupt : Bool) : ∃ ret < 0, mailmsgSendPing parsed count corrupt d = (ret, d) := by
  unfold mailmsgSendPing
  cases priorityArgument parsed with
  | none => exact ⟨-einval, by decide, rfl⟩
  | some a => exact ⟨_, gate_neg h, if_pos (gate_neg h).ne⟩

theorem queuePush_closed (h : d.life.mailmsgState ≠ .active) (parsed : Option (U32 × U32))
    (count : ℕ) : ∃ ret < 0, mailmsgQueuePushStore parsed count d = (ret, d) := by
  unfold mailmsgQueuePushStore
  cases priorityArgument parsed with
  | none => exact ⟨-einval, by decide, rfl⟩
  | some a => exact ⟨_, gate_neg h, if_pos (gate_neg h).ne⟩

theorem responseShow_closed (h : d.life.mailmsgState ≠ .active) (fuel : ℕ) :
    ∃ reason, mailmsgResponseShow fuel d = some (d, [.noData reason]) := by
  unfold mailmsgResponseShow
  split_ifs with hrole hgate
  · exact ⟨_, rfl⟩
  · exact ⟨_, rfl⟩
  · exact absurd (gate_neg h) (by omega)

theorem keepsPlane_claimReader (file : UserFile) (d : Driver) :
    KeepsPlane d (mailmsgUserClaimReader file d).2.2 := by
  unfold mailmsgUserClaimReader
  split_ifs <;> exact ⟨rfl, rfl, rfl, rfl⟩

theorem claimReader_ret (file : UserFile) (d : Driver) :
    (mailmsgUserClaimReader file d).1 = 0 ∨ (mailmsgUserClaimReader file d).1 = -ebusy := by
  unfold mailmsgUserClaimReader
  split_ifs
  · exact Or.inl rfl
  · exact Or.inr rfl
  · exact Or.inl rfl

end Gate

/-- Open, read, write, and the sysfs hooks that touch rings or doorbells. -/
def Op.isDataPlane : Op → Bool
  | .userOpen .. | .userReadEnter .. | .userReadSample .. | .userReadTry .. | .userReadWake ..
  | .userWrite .. | .doorbell .. | .mailmsgPing .. | .mailmsgCrcInject .. | .mailmsgQueuePush ..
  | .mailmsgResponse .. => true
  | _ => false

/-- A data-plane call ends in an error, `mailmsg_response` in a valid=0 line.  A read call is cut
into sections, of which those around its lock section may also just go on to the next. -/
def Refused : Op → Output → Prop
  | .mailmsgResponse _, out => ∃ reason, out = ⟨none, [.noData reason], []⟩
  | .userReadEnter .., out | .userReadSample .., out | .userReadWake .., out =>
    out = .silent ∨ ∃ ret < 0, out = .returned ret
  | _, out => ∃ ret < 0, out = .returned ret

theorem read_closed {w w' : World} {op : Op} {out : Output}
    (hclosed : w.driver.life.mailmsgState ≠ .active) (hop : op.isDataPlane = true)
    (h : execFile w op = some (out, w')) : Refused op out ∧ KeepsPlane w.driver w'.driver := by
  cases op with
  | userReadEnter file count =>
    simp only [execFile] at h
    split_ifs at h with hfile hcount hclaim <;> cases h
    · exact ⟨Or.inr ⟨_, by decide, rfl⟩, .refl _⟩
    · refine ⟨Or.inr ⟨_, ?_, rfl⟩, .refl _⟩
      rw [(claimReader_ret file w.driver).resolve_left hclaim]
      decide
    · exact ⟨Or.inl rfl, keepsPlane_claimReader file w.driver⟩
  | userReadSample file i =>
    simp only [execFile] at h
    split_ifs at h
    cases h
    exact ⟨Or.inl rfl, .refl _⟩
  | userReadTry file i nonblock copyFault =>
    obtain ⟨errno, hneg, htry⟩ := userReadTry_closed hclosed nonblock copyFault file
    simp only [execFile, htry] at h
    split_ifs at h
    split at h <;> cases h
    exact ⟨⟨errno, hneg, rfl⟩, .refl _⟩
  | userReadWake file i signalled =>
    simp only [execFile] at h
    split_ifs at h
    · split at h <;> cases h
      exact ⟨Or.inr ⟨_, by decide, rfl⟩, .refl _⟩
    · split at h
      · split_ifs at h
        cases h
        exact ⟨Or.inl rfl, .refl _⟩
      · cases h
  | userWrite file count frame =>
    obtain ⟨ret, hneg, hwrite⟩ := userWrite_closed hclosed count frame file
    simp only [execFile, hwrite] at h
    split_ifs at h
    cases h
    exact ⟨⟨ret, hneg, rfl⟩, .refl _⟩
  | userRelease | userPoll => simp [Op.isDataPlane] at hop
  | _ => simp [execFile] at h

theorem dataPlane_closed {cfg : Config} {w w' : World} {op : Op} {out : Output}
    (hclosed : w.driver.life.mailmsgState ≠ .active) (hop : op.isDataPlane = true)
    (h : exec cfg w op = some (out, w')) : Refused op out ∧ KeepsPlane w.driver w'.driver := by
  cases op with
  | userOpen id p allocated =>
    obtain ⟨ret, hneg, hopen⟩ := userOpen_closed hclosed allocated
    simp only [exec, hopen] at h
    split_ifs at h <;> cases h <;> exact ⟨⟨ret, hneg, rfl⟩, .refl _⟩
  | doorbell parsed count =>
    obtain ⟨ret, hneg, heq⟩ := doorbell_closed hclosed parsed count
    simp only [exec, heq] at h
    cases h
    exact ⟨⟨ret, hneg, rfl⟩, .refl _⟩
  | mailmsgPing parsed count =>
    obtain ⟨ret, hneg, heq⟩ := sendPing_closed hclosed parsed count false
    simp only [exec, mailmsgPingStore, heq] at h
    cases h
    exact ⟨⟨ret, hneg, rfl⟩, .refl _⟩
  | mailmsgCrcInject parsed count =>
    obtain ⟨ret, hneg, heq⟩ := sendPing_closed hclosed parsed count true
    simp only [exec, mailmsgCrcInjectStore, heq] at h
    cases h
    exact ⟨⟨ret, hneg, rfl⟩, .refl _⟩
  | mailmsgQueuePush parsed count =>
    obtain ⟨ret, hneg, heq⟩ := queuePush_closed hclosed parsed count
    simp only [exec, heq] at h
    cases h
    exact ⟨⟨ret, hneg, rfl⟩, .refl _⟩
  | mailmsgResponse fuel =>
    obtain ⟨reason, hshow⟩ := responseShow_closed hclosed fuel
    simp only [exec, hshow] at h
    cases h
    exact ⟨⟨reason, rfl⟩, .refl _⟩
  | userReadEnter | userReadSample | userReadTry | userReadWake | userWrite =>
    exact read_closed hclosed hop h
  | _ => simp [Op.isDataPlane] at hop

/-- Between two lifecycle frames nothing but `control_work` and CPU3 itself touches the page. -/
theorem shared_of_pending {cfg : Config} {w w' : World} {op : Op} {out : Output}
    (hinv : w.driver.session.Inv) (hfiles : w.files = [])
    (hstate : w.driver.life.mailmsgState = .starting ∨ w.driver.life.mailmsgState = .stopping)
    (hctl : ∀ start clock fuel, op ≠ .controlWork start clock fuel)
    (hpeer : ∀ shared status, op ≠ .peer shared status)
    (h : exec cfg w op = some (out, w')) : w'.driver.shared = w.driver.shared := by
  have hclosed : w.driver.life.mailmsgState ≠ .active := by
    rcases hstate with hs | hs <;> rw [hs] <;> decide
  have hatt := hinv.attempted_of (by rcases hstate with hs | hs <;> rw [hs] <;> decide)
  cases hop : op.isDataPlane with
  | true => exact (dataPlane_closed hclosed hop h).2.shared
  | false =>
    cases op with
    | imageWrite off buf =>
      cases h
      simp only [imageWrite, hatt, if_true]
      rfl
    | startStore isStart count affinity cpuOn now =>
      cases h
      simp only [startStore, hatt, if_true]
      split_ifs <;> rfl
    | rearmStore isRearm count affinity =>
      cases h
      have hsample := (keepsPlane_refreshAffinity affinity w.driver).shared
      simp only [rearmStore]
      split_ifs <;> first | rfl | exact hsample
    | stopStore isStop count now =>
      cases h
      simp only [mailmsgStopStore, hclosed, ne_eq, not_false_eq_true, if_true]
      split_ifs <;> rfl
    | controlWork start clock fuel => exact absurd rfl (hctl start clock fuel)
    | lifecycleTimeoutWork now affinity =>
      cases h
      exact (keepsPlane_lifecycleTimeoutWork now affinity w.driver).shared
    | affinityWork affinity =>
      cases h
      exact (keepsPlane_affinityWork affinity w.driver).shared
    | affinityStateShow affinity =>
      cases h
      exact (keepsPlane_affinityStateShow cfg affinity w.driver).shared
    -- there is no file for these to be about
    | userRelease | userPoll => simp [exec, execFile, hfiles] at h
    | mailmsgNotifyInject text count =>
      cases h
      obtain ⟨mbox, heq⟩ := notifyInjectStore_bells text count w.driver
      change (mailmsgNotifyInjectStore text count w.driver).2.shared = _
      rw [heq]
    | mboxRx p message =>
      cases h
      rfl
    | peer shared status => exact absurd rfl (hpeer shared status)
    | _ => simp [Op.isDataPlane] at hop

/-- The two planes never own the rings at the same time. -/
theorem planes_exclusive {cfg : Config} {w : World} (h : Reachable cfg w) :
    (w.driver.mailmsgUserOpenCount = w.files.length ∧
      (w.driver.mailmsgUserOpenCount ≠ 0 →
        w.driver.life.mailmsgState = .active ∨ w.driver.life.mailmsgState = .offline)) ∧
    (w.driver.life.mailmsgState ≠ .active →
      (∀ op out w', op.isDataPlane = true → Step cfg w (op, out) w' →
        Refused op out ∧ KeepsPlane w.driver w'.driver) ∧
      (∀ fuel, ∃ out, Step cfg w (.mailmsgResponse fuel, out) w) ∧
      (w.files ≠ [] → ∀ label w', Step cfg w label w' →
        w'.driver.life.mailmsgState = .offline)) ∧
    (w.driver.life.mailmsgState = .starting ∨ w.driver.life.mailmsgState = .stopping →
      w.files = [] ∧ ∀ op out w', Step cfg w (op, out) w' →
        w'.driver.shared ≠ w.driver.shared →
        (∃ start clock fuel, op = .controlWork start clock fuel) ∨
        (∃ shared status, op = .peer shared status)) := by
  have hfiles := h.filesInv
  refine ⟨⟨hfiles.count, fun hne => hfiles.state ?_⟩, fun hclosed => ⟨?_, ?_, ?_⟩, fun hstate => ?_⟩
  · intro hnil
    rw [hfiles.count, hnil] at hne
    exact hne rfl
  · intro op out w' hop hstep
    exact dataPlane_closed hclosed hop hstep
  · intro fuel
    obtain ⟨reason, hshow⟩ := responseShow_closed hclosed fuel
    exact ⟨⟨none, [.noData reason], []⟩, by simp only [Step, exec, hshow]; rfl⟩
  · intro hne label w' hstep
    -- with a file open the state is OFFLINE, which only a rearm leaves
    have hoff := (hfiles.state hne).resolve_left hclosed
    obtain ⟨op, out⟩ := label
    cases hop : op.isLifecycle with
    | false => rw [(exec_dataPlane hop hstep).keeps.life, hoff]
    | true =>
      have hkeep := lifecycle_with_files h.inv (hfiles.openCount_ne_zero hne) (Or.inr hoff) hop hstep
      rcases hkeep.2 with hs | hs
      · rw [hs, hoff]
      · exact hs
  · have hnil : w.files = [] := by
      by_contra hne
      rcases hfiles.state hne with hs | hs <;> rw [hs] at hstate <;> simp at hstate
    refine ⟨hnil, fun op out w' hstep hchanged => ?_⟩
    by_contra hnot
    simp only [not_or, not_exists] at hnot
    exact hchanged (shared_of_pending h.inv hnil hstate hnot.1 hnot.2 hstep)

/-- The first session after `mailmsg_stop`: the data plane is shut and CPU3's reply is left to
`control_work`. -/
theorem planes_exclusive_stopping :
    ∃ w, Reachable board w ∧ w.driver.life.mailmsgState = .stopping ∧ w.files = [] ∧
      ∀ op out w', op.isDataPlane = true → Step board w (op, out) w' →
        Refused op out ∧ KeepsPlane w.driver w'.driver := by
  have hreach := reachable_runWorld probedWorld_probed board (bringUp ++ [.stopStore true 4 300])
  have hstate : (runWorld board probedWorld (bringUp ++ [.stopStore true 4 300])).driver.life.mailmsgState
      = .stopping := by decide +kernel
  obtain ⟨-, hclosed, hpending⟩ := planes_exclusive hreach
  exact ⟨_, hreach, hstate, (hpending (Or.inr hstate)).1, (hclosed (by rw [hstate]; decide)).1⟩

end Lzamp.R1Amp
