import Lzamp.R1Amp.Wakeups
import Lzamp.System.Doorbell
import Lzamp.Lib.SideBySide

namespace Lzamp.System
open Mailmsg Lib Cpu3 R1Amp

/-- Linux, the B2A doorbells and CPU3's sends, of which there is one at a time.  `due` counts the
callbacks whose doorbell the controller has taken down and that are still to run.  `raised` and
`samples` are ghosts: how often the `rx_generation` of each channel has been moved, and, for each
read in progress on a file, how often it had been when the read last sampled it. -/
structure Inbox where
  world : World
  b2a : Doorbells
  sender : Sender
  due : Priority → ℕ
  raised : Priority → ℕ
  samples : ℕ → List ℕ

inductive InboxAct where
  | linux (op : Op)
  /-- CPU3 commits a frame. -/
  | push (p : Priority) (m : Message)
  /-- `mailmsg_cpu3_notify` reads B2A_STATUS. -/
  | look
  | writeCmd
  | writeDat
  /-- CPU3 takes requests and clears their doorbells. -/
  | serve (requests : Priority → Ring) (a2bStatus : U32)
  /-- The mailbox controller takes a doorbell down. -/
  | acknowledge (p : Priority)
  /-- `r1_amp_mbox_rx_callback`. -/
  | callback (p : Priority) (message : Option (U32 × U32))

/-- What is not Linux's own doing. -/
def isOutside : Op → Bool
  | .peer .. | .mboxRx .. => true
  | _ => false

def Inbox.resample (s : Inbox) (out : Output) : Op → ℕ → List ℕ
  | .userOpen id _ _ => Function.update s.samples id []
  | .userReadEnter file _ =>
    if out.ret = none then Function.update s.samples file.id (s.samples file.id ++ [0])
    else s.samples
  | .userReadSample file i =>
    Function.update s.samples file.id ((s.samples file.id).set i (s.raised file.channel))
  | .userReadTry file i _ _ | .userReadWake file i _ =>
    if out.ret = none then s.samples
    else Function.update s.samples file.id ((s.samples file.id).eraseIdx i)
  | _ => s.samples

def Inbox.ran (s : Inbox) (op : Op) (r : Output × World) : Inbox :=
  { s with
    world := r.2
    raised := fun p =>
      s.raised p + if r.2.rxGeneration p = s.world.rxGeneration p then 0 else 1
    samples := s.resample r.1 op }

def Inbox.pushed (s : Inbox) (p : Priority) (m : Message) : Inbox :=
  let d := s.world.driver
  let r := ringPush (d.shared.cpu3ToLinux p) m
  { s with
    world := s.world.peered (d.shared.setTx .cpu3 p r.2) d.mbox.a2b.status
    sender := if r.1 = ringOk then .queued p else .idle }

def Inbox.step (cfg : Config) (s : Inbox) : InboxAct → Option Inbox
  | .linux op => if isOutside op then none else (exec cfg s.world op).map (s.ran op)
  | .push p m => if s.sender = .idle then some (s.pushed p m) else none
  | .look =>
    match s.sender with
    | .queued p => some { s with
        sender := if hasBit s.b2a.status p then .idle
          else .ringing p (protocolAck ||| channelWord p) (channelWord p) true }
    | _ => none
  | .writeCmd =>
    match s.sender with
    | .ringing p command value notifies => some { s with
        sender := .commanded p value notifies
        b2a := { s.b2a with cmd := Function.update s.b2a.cmd p command } }
    | _ => none
  | .writeDat =>
    match s.sender with
    | .commanded p value _ => some { s with
        sender := .idle
        b2a := { s.b2a with
          status := s.b2a.status ||| bit p
          dat := Function.update s.b2a.dat p value } }
    | _ => none
  | .serve requests a2bStatus => some { s with
      world := s.world.peered { s.world.driver.shared with linuxToCpu3 := requests } a2bStatus }
  | .acknowledge p =>
    if hasBit s.b2a.status p then some { s with
      b2a := { s.b2a with status := s.b2a.status &&& ~~~ bit p }
      due := Function.update s.due p (s.due p + 1) }
    else none
  | .callback p message =>
    if s.due p = 0 then none
    else some { s with
      world := s.world.withDriver (mboxRxCallback p message s.world.driver)
      due := Function.update s.due p (s.due p - 1)
      raised := Function.update s.raised p (s.raised p + 1) }

def InboxStep (cfg : Config) (s : Inbox) (a : InboxAct) (t : Inbox) : Prop := s.step cfg a = some t

/-- A frame of ring `p` has been committed and its notification is under way. -/
def Sender.Announces (p : Priority) : Sender → Prop
  | .idle => False
  | .queued q | .ringing q _ _ _ | .commanded q _ _ => q = p

instance (p : Priority) : (sender : Sender) → Decidable (sender.Announces p)
  | .idle => isFalse id
  | .queued q | .ringing q _ _ _ | .commanded q _ _ => inferInstanceAs (Decidable (q = p))

/-- The frames of a reverse ring whose notification has returned SENT or COALESCED: all but the last
one if that is being notified. -/
def Inbox.notified (s : Inbox) (p : Priority) : List Message :=
  if s.sender.Announces p then (s.world.replies p).dropLast else s.world.replies p

/-- The session is ACTIVE, and a notified frame has its doorbell up or a callback coming. -/
def Inbox.Awaited (s : Inbox) (p : Priority) : Prop :=
  s.world.driver.life.mailmsgState = .active ∧
    (s.notified p ≠ [] → hasBit s.b2a.status p = true ∨ 0 < s.due p)

/-- Left alone, CPU3's notification does what `cpu3Notify` does. -/
theorem inbox_runs_notify (cfg : Config) {s : Inbox} {p : Priority} (hs : s.sender = .queued p) :
    ∃ acts t, Trace (InboxStep cfg) s acts t ∧ t.sender = .idle ∧ t.world = s.world ∧
      t.b2a = (cpu3Notify s.b2a p).2 := by
  unfold cpu3Notify
  cases hbit : hasBit s.b2a.status p with
  | true =>
    have hlook : InboxStep cfg s .look { s with sender := .idle } := by
      simp only [InboxStep, Inbox.step, hs, hbit, if_true]
    exact ⟨_, _, .single hlook, rfl, rfl, rfl⟩
  | false =>
    have hlook : InboxStep cfg s .look { s with
        sender := .ringing p (protocolAck ||| channelWord p) (channelWord p) true } := by
      simp only [InboxStep, Inbox.step, hs, hbit]
      rfl
    exact ⟨[.look, .writeCmd, .writeDat], _, .cons hlook (.cons rfl (.single rfl)), rfl, rfl, rfl⟩

/-- What a read in progress on channel `p` relies on, with `k` its sample. -/
def Inbox.ReadOk (s : Inbox) (p : Priority) : ReadPhase → ℕ → Prop
  | .entered, _ => True
  | .sampled generation, k => generation = BitVec.ofNat 32 k ∧ k ≤ s.raised p
  | .waiting generation, k =>
    generation = BitVec.ofNat 32 k ∧ k ≤ s.raised p ∧ (s.raised p = k → s.Awaited p)

structure InboxInv (cfg : Config) (s : Inbox) : Prop where
  reachable : Reachable cfg s.world
  rings : RingsInv s.world
  counts : ∀ p, s.world.rxGeneration p = BitVec.ofNat 32 (s.raised p)
  reads : ∀ f ∈ s.world.files, List.Forall₂ (s.ReadOk f.channel) f.reads (s.samples f.id)

theorem Inbox.ReadOk.mono {s t : Inbox} {p : Priority} (hle : s.raised p ≤ t.raised p)
    (hkeep : t.raised p = s.raised p → s.Awaited p → t.Awaited p) {phase : ReadPhase} {k : ℕ}
    (h : s.ReadOk p phase k) : t.ReadOk p phase k := by
  cases phase with
  | entered => trivial
  | sampled generation => exact ⟨h.1, h.2.trans hle⟩
  | waiting generation =>
    obtain ⟨hsample, hk, hawaited⟩ := h
    refine ⟨hsample, hk.trans hle, fun hsame => ?_⟩
    have heq : t.raised p = s.raised p := by omega
    exact hkeep heq (hawaited (heq.symm.trans hsame))

theorem InboxInv.attempted {cfg : Config} {s : Inbox} (h : InboxInv cfg s)
    (hstate : s.world.driver.life.mailmsgState = .active) :
    s.world.driver.life.cpuOnAttempted = true :=
  h.reachable.inv.attempted_of (by rw [hstate]; decide)

theorem InboxInv.outside {cfg : Config} {s t : Inbox} (h : InboxInv cfg s) {label : Op × Output}
    (hstep : R1Amp.Step cfg s.world label t.world) (hrings : RingsInv t.world)
    (hfiles : t.world.files = s.world.files) (hsamples : t.samples = s.samples)
    (hcounts : ∀ p, t.world.rxGeneration p = BitVec.ofNat 32 (t.raised p))
    (hle : ∀ p, s.raised p ≤ t.raised p)
    (hkeep : ∀ p, t.raised p = s.raised p → s.Awaited p → t.Awaited p) : InboxInv cfg t := by
  obtain ⟨w₀, labels, h₀, htrace⟩ := h.reachable
  refine ⟨⟨w₀, labels ++ [label], h₀, htrace.snoc hstep⟩, hrings, hcounts, fun f hf => ?_⟩
  rw [hsamples]
  exact (h.reads f (hfiles ▸ hf)).imp fun _ _ hok => hok.mono (hle _) (hkeep _)

theorem notified_pushed_other {s : Inbox} (hidle : s.sender = .idle) {p q : Priority} (hq : q ≠ p)
    (m : Message) : (s.pushed p m).notified q = s.notified q := by
  have hreplies : (s.pushed p m).world.replies q = s.world.replies q := by
    change (Function.update s.world.driver.shared.cpu3ToLinux p _ q).contents = _
    rw [Function.update_of_ne hq]
    rfl
  have hsender : ¬ (s.pushed p m).sender.Announces q := by
    dsimp only [Inbox.pushed]
    split_ifs
    · exact Ne.symm hq
    · exact id
  have hsender' : ¬ s.sender.Announces q := by
    rw [hidle]
    exact id
  rw [Inbox.notified, Inbox.notified, if_neg hsender, if_neg hsender', hreplies]

theorem notified_pushed_self {s : Inbox} (hidle : s.sender = .idle) {p : Priority}
    (hr : (s.world.driver.shared.cpu3ToLinux p).InRange) (m : Message) :
    (s.pushed p m).notified p = s.notified p := by
  have hsender' : ¬ s.sender.Announces p := by
    rw [hidle]
    exact id
  have hring : (s.pushed p m).world.replies p =
      (ringPush (s.world.driver.shared.cpu3ToLinux p) m).2.contents := by
    change (Function.update s.world.driver.shared.cpu3ToLinux p _ p).contents = _
    rw [Function.update_self]
  by_cases hok : (ringPush (s.world.driver.shared.cpu3ToLinux p) m).1 = ringOk
  · have hsender : (s.pushed p m).sender.Announces p := by
      change (if _ then Sender.queued p else .idle).Announces p
      rw [if_pos hok]
      rfl
    obtain ⟨hform, hroom⟩ := (ringPush_ok_iff _ m).mp hok
    have hpush : (ringPush (s.world.driver.shared.cpu3ToLinux p) m).2.contents =
        s.world.replies p ++ [m.seal] := by
      rw [ringPush_eq, if_neg hform, if_neg hroom]
      exact hr.contents_publish (hr.depth_lt_seven hroom) m.seal
    rw [Inbox.notified, Inbox.notified, if_pos hsender, if_neg hsender', hring, hpush,
      List.dropLast_concat]
  · have hsender : ¬ (s.pushed p m).sender.Announces p := by
      change ¬ (if _ then Sender.queued p else .idle).Announces p
      rw [if_neg hok]
      exact id
    have hpush : (ringPush (s.world.driver.shared.cpu3ToLinux p) m).2 =
        s.world.driver.shared.cpu3ToLinux p := by
      rw [ringPush_eq] at hok ⊢
      split_ifs at hok ⊢
      · rfl
      · rfl
      · exact absurd rfl hok
    rw [Inbox.notified, Inbox.notified, if_neg hsender, if_neg hsender', hring, hpush]
    rfl

theorem InboxInv.push {cfg : Config} {s : Inbox} (h : InboxInv cfg s) (hidle : s.sender = .idle)
    (p : Priority) (m : Message) : InboxInv cfg (s.pushed p m) := by
  have hstep : R1Amp.Step cfg s.world (.peer _ _, .silent) (s.pushed p m).world := rfl
  refine h.outside hstep (h.rings.pushed p m) rfl rfl h.counts (fun _ => le_rfl) fun q _ hq => ?_
  refine ⟨hq.1, fun hne => hq.2 ?_⟩
  by_cases hqp : q = p
  · subst hqp
    rwa [notified_pushed_self hidle (h.rings.inRange (h.attempted hq.1) q)] at hne
  · rwa [notified_pushed_other hidle hqp] at hne

theorem InboxInv.doorbells {cfg : Config} {s : Inbox} (h : InboxInv cfg s) {sender : Sender}
    {b2a : Doorbells} {due : Priority → ℕ}
    (hkeep : ∀ p, s.Awaited p → { s with sender := sender, b2a := b2a, due := due }.Awaited p) :
    InboxInv cfg { s with sender := sender, b2a := b2a, due := due } := by
  refine ⟨h.reachable, h.rings, h.counts, fun f hf => (h.reads f hf).imp fun phase k hok => ?_⟩
  have hle : s.raised f.channel ≤
      { s with sender := sender, b2a := b2a, due := due }.raised f.channel := le_rfl
  exact hok.mono hle fun _ => hkeep f.channel

theorem InboxInv.notify {cfg : Config} {s : Inbox} (h : InboxInv cfg s) {sender : Sender}
    {b2a : Doorbells} (hstatus : ∀ p, hasBit s.b2a.status p = true → hasBit b2a.status p = true)
    (hsender : ∀ p, s.sender.Announces p → sender.Announces p ∨ hasBit b2a.status p = true) :
    InboxInv cfg { s with sender := sender, b2a := b2a } := by
  refine h.doorbells fun p hold => ⟨hold.1, fun hne => ?_⟩
  by_cases hbit : hasBit b2a.status p = true
  · exact Or.inl hbit
  · have hne' : s.notified p ≠ [] := by
      intro hnil
      apply hne
      unfold Inbox.notified at hnil ⊢
      by_cases hann : s.sender.Announces p
      · have hann' : sender.Announces p := (hsender p hann).resolve_right hbit
        rw [if_pos hann] at hnil
        rw [if_pos hann']
        exact hnil
      · rw [if_neg hann] at hnil
        dsimp only
        rw [hnil]
        split_ifs <;> rfl
    exact (hold.2 hne').imp (hstatus p) id

theorem InboxInv.acknowledge {cfg : Config} {s : Inbox} (h : InboxInv cfg s) (p : Priority) :
    InboxInv cfg { s with
      b2a := { s.b2a with status := s.b2a.status &&& ~~~ bit p }
      due := Function.update s.due p (s.due p + 1) } := by
  refine h.doorbells fun q hold => ⟨hold.1, fun hne => ?_⟩
  dsimp only
  by_cases hq : q = p
  · subst hq
    rw [Function.update_self]
    exact Or.inr (Nat.succ_pos _)
  · rw [Function.update_of_ne hq, hasBit_and, hasBit_not, hasBit_bit,
      decide_eq_false (Ne.symm hq), Bool.not_false, Bool.and_true]
    exact hold.2 hne

theorem InboxInv.callback {cfg : Config} {s : Inbox} (h : InboxInv cfg s) (p : Priority)
    (message : Option (U32 × U32)) :
    InboxInv cfg { s with
      world := s.world.withDriver (mboxRxCallback p message s.world.driver)
      due := Function.update s.due p (s.due p - 1)
      raised := Function.update s.raised p (s.raised p + 1) } := by
  have hstep : R1Amp.Step cfg s.world (.mboxRx p message, .silent)
    (s.world.withDriver (mboxRxCallback p message s.world.driver)) := rfl
  refine h.outside hstep ⟨h.rings.plays, h.rings.inRange⟩ rfl rfl (fun q => ?_) (fun q => ?_)
    fun q hsame hq => ?_
  · have hcount := h.counts q
    change (Function.update s.world.driver.user p _ q).rxGeneration =
      BitVec.ofNat 32 (Function.update s.raised p (s.raised p + 1) q)
    by_cases hq : q = p
    · subst hq
      rw [Function.update_self, Function.update_self, BitVec.ofNat_add, ← hcount]
      rfl
    · rw [Function.update_of_ne hq, Function.update_of_ne hq]
      exact hcount
  · by_cases hq : q = p
    · subst hq
      simp
    · simp [hq]
  · have hqp : q ≠ p := by
      rintro rfl
      simp at hsame
    refine ⟨hq.1, fun hne => (hq.2 hne).imp id fun hdue => ?_⟩
    dsimp only
    rwa [Function.update_of_ne hqp]

theorem isOutside_peer {op : Op} (h : isOutside op = false) (shared : Shared) (status : U32) :
    op ≠ .peer shared status := by
  rintro rfl
  cases h

theorem isOutside_mboxRx {op : Op} (h : isOutside op = false) (p : Priority)
    (message : Option (U32 × U32)) : op ≠ .mboxRx p message := by
  rintro rfl
  cases h

theorem rxGeneration_succ_ne (generation : U32) : generation + 1 ≠ generation :=
  fun heq => absurd (add_eq_left.mp heq) (by decide)

theorem Inbox.notified_ne_nil (s : Inbox) (p : Priority) :
    s.notified p ≠ [] ↔
      (if s.sender.Announces p then 1 else 0) < (s.world.replies p).length := by
  unfold Inbox.notified
  split_ifs
  · rw [← List.length_pos_iff, List.length_dropLast]
    omega
  · exact List.length_pos_iff.symm

section Linux

variable {cfg : Config} {s : Inbox} {op : Op} {out : Output} {w : World}

theorem InboxInv.counts_ran (h : InboxInv cfg s) (hop : isOutside op = false)
    (hexec : exec cfg s.world op = some (out, w)) (p : Priority) :
    w.rxGeneration p = BitVec.ofNat 32 ((s.ran op (out, w)).raised p) := by
  have hcount := h.counts p
  dsimp only [Inbox.ran]
  rcases exec_wakes (isOutside_mboxRx hop) hexec with hall | ⟨hnone, -⟩
  · have hne : w.rxGeneration p ≠ s.world.rxGeneration p := by
      rw [hall p]
      exact rxGeneration_succ_ne _
    rw [if_neg hne, hall p, BitVec.ofNat_add, ← hcount]
    rfl
  · rw [if_pos (hnone p), hnone p]
    exact hcount

/-- With a file open, an operation that does not move `rx_generation` leaves the session ACTIVE and
adds no frame. -/
theorem InboxInv.awaited_ran (h : InboxInv cfg s) (hop : isOutside op = false)
    (hexec : exec cfg s.world op = some (out, w)) (hfiles : s.world.files ≠ []) {p : Priority}
    (hsame : (s.ran op (out, w)).raised p = s.raised p) (hold : s.Awaited p) :
    (s.ran op (out, w)).Awaited p := by
  have hopen := h.reachable.filesInv.openCount_ne_zero hfiles
  have hbusy : Busy s.world := ⟨h.reachable.inv, hold.1, hopen, h.rings.plays⟩
  have hoffline : w.driver.life.mailmsgState ≠ .offline := by
    rcases exec_wakes (isOutside_mboxRx hop) hexec with hall | ⟨-, hquiet⟩
    · have hne : w.rxGeneration p ≠ s.world.rxGeneration p := by
        rw [hall p]
        exact rxGeneration_succ_ne _
      simp [Inbox.ran, hne] at hsame
    · intro ho
      rw [hold.1] at hquiet
      cases hquiet ho
  have hstate : w.driver.life.mailmsgState = .active := by
    cases hlife : op.isLifecycle with
    | true =>
      have hcases := (lifecycle_with_files h.reachable.inv hopen (Or.inl hold.1) hlife hexec).2
      rw [hold.1] at hcases
      exact hcases.resolve_right hoffline
    | false =>
      rw [(exec_dataPlane hlife hexec).keeps.life]
      exact hold.1
  refine ⟨hstate, fun hne => hold.2 ?_⟩
  have hlength := replies_length_le hbusy (isOutside_peer hop) hexec
    (h.rings.inRange (h.attempted hold.1) p)
  rw [Inbox.notified_ne_nil] at hne ⊢
  exact lt_of_lt_of_le hne hlength

theorem reads_setFile (h : InboxInv cfg s) {t : Inbox} {file : UserFile}
    (hreads : ∀ f ∈ s.world.files, List.Forall₂ (t.ReadOk f.channel) f.reads (s.samples f.id))
    (hfile : file ∈ s.world.files) (file' : UserFile) (hid : file'.id = file.id)
    (hchannel : file'.channel = file.channel) {samples : List ℕ}
    (hnew : List.Forall₂ (t.ReadOk file.channel) file'.reads samples) :
    ∀ f ∈ (s.world.setFile file file').files, List.Forall₂ (t.ReadOk f.channel) f.reads
      (Function.update s.samples file.id samples f.id) := by
  intro f hf
  obtain ⟨g, hg, rfl⟩ := List.mem_map.mp hf
  by_cases hgf : g = file
  · rw [if_pos hgf, hid, hchannel, Function.update_self]
    exact hnew
  · have hne : g.id ≠ file.id := fun heq =>
      hgf (List.inj_on_of_nodup_map h.reachable.readersInv.ids hg hfile heq)
    rw [if_neg hgf, Function.update_of_ne hne]
    exact hreads g hg

theorem reads_setFile_same (h : InboxInv cfg s) {t : Inbox} {file : UserFile}
    (hreads : ∀ f ∈ s.world.files, List.Forall₂ (t.ReadOk f.channel) f.reads (s.samples f.id))
    (hfile : file ∈ s.world.files) (file' : UserFile) (hid : file'.id = file.id)
    (hchannel : file'.channel = file.channel)
    (hnew : List.Forall₂ (t.ReadOk file.channel) file'.reads (s.samples file.id)) :
    ∀ f ∈ (s.world.setFile file file').files,
      List.Forall₂ (t.ReadOk f.channel) f.reads (s.samples f.id) := by
  have hall := reads_setFile h hreads hfile file' hid hchannel hnew
  rwa [Function.update_eq_self] at hall

theorem claimReader_file (file : UserFile) (d : Driver) :
    (mailmsgUserClaimReader file d).2.1.id = file.id ∧
      (mailmsgUserClaimReader file d).2.1.channel = file.channel ∧
      (mailmsgUserClaimReader file d).2.1.reads = file.reads := by
  unfold mailmsgUserClaimReader
  split_ifs <;> exact ⟨rfl, rfl, rfl⟩

theorem InboxInv.reads_execFile (h : InboxInv cfg s)
    (hreads : ∀ f ∈ s.world.files,
      List.Forall₂ ((s.ran op (out, w)).ReadOk f.channel) f.reads (s.samples f.id))
    (hexec : execFile s.world op = some (out, w)) :
    ∀ f ∈ w.files,
      List.Forall₂ ((s.ran op (out, w)).ReadOk f.channel) f.reads (s.resample out op f.id) := by
  cases op with
  | userRelease file =>
    simp only [execFile] at hexec
    split_ifs at hexec
    cases hexec
    exact fun f hf => hreads f (List.mem_of_mem_erase hf)
  | userReadEnter file count =>
    obtain ⟨hid, hchannel, hsame⟩ := claimReader_file file s.world.driver
    simp only [execFile] at hexec
    split_ifs at hexec with hfile hcount hret <;> cases hexec
    · exact hreads
    · exact hreads
    · -- the new read has sampled nothing yet
      refine reads_setFile h hreads hfile { (mailmsgUserClaimReader file s.world.driver).2.1 with
        reads := (mailmsgUserClaimReader file s.world.driver).2.1.reads ++ [.entered] } hid hchannel ?_
      dsimp only
      rw [hsame]
      exact forall₂_concat (hreads file hfile) trivial
  | userReadSample file i =>
    simp only [execFile] at hexec
    split_ifs at hexec with hfile
    cases hexec
    refine reads_setFile h hreads hfile.1 (file.setRead i _) rfl rfl ?_
    -- the counter is read before the ring is looked at: every notification up to here is in it
    exact forall₂_set (hreads file hfile.1) i ⟨h.counts file.channel, Nat.le_add_right _ _⟩
  | userReadTry file i nonblock copyFault =>
    simp only [execFile] at hexec
    split_ifs at hexec with hfile
    split at hexec
    case h_1 generation hread =>
      split at hexec <;> cases hexec
      case h_1 | h_2 =>
        exact reads_setFile h hreads hfile (file.endRead i) rfl rfl
          (forall₂_eraseIdx (hreads file hfile) i)
      case h_3 hblock =>
        -- nothing was in the ring when the read went to wait
        have hne := List.ne_nil_of_mem hfile
        have hatt : s.world.driver.life.cpuOnAttempted = true := by
          refine h.reachable.inv.attempted_of ?_
          rcases h.reachable.filesInv.state hne with hs | hs <;> rw [hs] <;> decide
        obtain ⟨hactive, hnil⟩ := userReadTry_block h.rings.plays (h.rings.inRange hatt _) hblock
        refine reads_setFile_same h hreads hfile (file.setRead i (.waiting generation)) rfl rfl
          (forall₂_set_left (hreads file hfile) fun k hk => ?_)
        obtain ⟨hsample, hle⟩ := forall₂_getElem? (hreads file hfile) hread hk
        refine ⟨hsample, hle, fun _ => ⟨?_, fun hnotified => ?_⟩⟩
        · exact (keeps_userReadTry nonblock copyFault file s.world.driver).life.symm ▸ hactive
        · rw [Inbox.notified_ne_nil] at hnotified
          exact absurd (hnotified.trans_eq (congrArg List.length hnil)) (Nat.not_lt_zero _)
    · cases hexec
  | userReadWake file i signalled =>
    simp only [execFile] at hexec
    split_ifs at hexec with hfile hsignal
    · split at hexec
      case h_1 generation hread =>
        cases hexec
        exact reads_setFile h hreads hfile (file.endRead i) rfl rfl
          (forall₂_eraseIdx (hreads file hfile) i)
      · cases hexec
    · split at hexec
      case h_1 generation hread =>
        split_ifs at hexec
        cases hexec
        -- a woken read goes round the loop again and samples anew, so nothing is kept for it
        exact reads_setFile_same h hreads hfile (file.setRead i .entered) rfl rfl
          (forall₂_set_left (hreads file hfile) fun _ _ => trivial)
      · cases hexec
  | userWrite file count frame =>
    simp only [execFile] at hexec
    split_ifs at hexec
    cases hexec
    exact hreads
  | userPoll file =>
    obtain ⟨hid, hchannel, hsame⟩ := claimReader_file file s.world.driver
    simp only [execFile, userPoll_snd] at hexec
    split_ifs at hexec with hfile
    cases hexec
    refine reads_setFile_same h hreads hfile _ hid hchannel ?_
    rw [hsame]
    exact hreads file hfile
  | _ => simp [execFile] at hexec

theorem InboxInv.reads_ran (h : InboxInv cfg s) (hop : isOutside op = false)
    (hexec : exec cfg s.world op = some (out, w)) :
    ∀ f ∈ w.files,
      List.Forall₂ ((s.ran op (out, w)).ReadOk f.channel) f.reads (s.resample out op f.id) := by
  have hreads : ∀ f ∈ s.world.files,
      List.Forall₂ ((s.ran op (out, w)).ReadOk f.channel) f.reads (s.samples f.id) := by
    intro f hf
    refine (h.reads f hf).imp fun phase k hok => hok.mono (Nat.le_add_right _ _) ?_
    exact h.awaited_ran hop hexec (List.ne_nil_of_mem hf)
  -- only the operations on a file move a read; a lifecycle operation keeps the files as they are
  cases hlife : op.isLifecycle with
  | true =>
    have hsamples : s.resample out op = s.samples := by
      cases op <;> first | rfl | cases hlife
    rw [(lifecycle_files hlife hexec).1, hsamples]
    exact hreads
  | false =>
    cases op with
    | userOpen id p allocated =>
      simp only [exec] at hexec
      split_ifs at hexec with hid hret
      · cases hexec
        intro f hf
        change List.Forall₂ _ _ (Function.update s.samples id [] f.id)
        rw [Function.update_of_ne (hid f hf)]
        exact hreads f hf
      · cases hexec
        intro f hf
        change List.Forall₂ _ _ (Function.update s.samples id [] f.id)
        rcases List.mem_cons.mp hf with rfl | hf
        · rw [Function.update_self]
          exact .nil
        · rw [Function.update_of_ne (hid f hf)]
          exact hreads f hf
    | doorbell | mailmsgPing | mailmsgCrcInject | mailmsgNotifyInject | mailmsgQueuePush =>
      cases hexec
      exact hreads
    | mailmsgResponse fuel =>
      simp only [exec, Option.map_eq_some_iff] at hexec
      obtain ⟨r, -, heq⟩ := hexec
      cases heq
      exact hreads
    | userRelease | userReadEnter | userReadSample | userReadTry | userReadWake | userWrite
    | userPoll =>
      simp only [exec] at hexec
      exact h.reads_execFile hreads hexec
    | mboxRx | peer => cases hop
    | _ => cases hlife

theorem InboxInv.linux (h : InboxInv cfg s) (hop : isOutside op = false)
    (hexec : exec cfg s.world op = some (out, w)) : InboxInv cfg (s.ran op (out, w)) := by
  have hstep : R1Amp.Step cfg s.world (op, out) w := hexec
  obtain ⟨w₀, labels, h₀, htrace⟩ := h.reachable
  exact ⟨⟨w₀, labels ++ [(op, out)], h₀, htrace.snoc hstep⟩,
    h.rings.exec (isOutside_peer hop) hexec, h.counts_ran hop hexec, h.reads_ran hop hexec⟩

end Linux

theorem InboxInv.step {cfg : Config} {s t : Inbox} {a : InboxAct} (h : InboxInv cfg s)
    (hs : InboxStep cfg s a t) : InboxInv cfg t := by
  cases a with
  | linux op =>
    rw [InboxStep, Inbox.step] at hs
    split_ifs at hs with hop
    obtain ⟨⟨out, w⟩, hexec, rfl⟩ := Option.map_eq_some_iff.mp hs
    exact h.linux (Bool.eq_false_of_not_eq_true hop) hexec
  | push p m =>
    rw [InboxStep, Inbox.step] at hs
    split_ifs at hs with hidle
    cases hs
    exact h.push hidle p m
  | look =>
    rw [InboxStep, Inbox.step] at hs
    split at hs <;> cases hs
    case h_1 p hsender =>
      refine h.notify (fun _ hbit => hbit) fun q hq => ?_
      rw [hsender] at hq
      obtain rfl : p = q := hq
      -- coalesced with a bit that is up, or on its way to the registers: either way a bell is due
      split_ifs with hbit
      · exact Or.inr hbit
      · exact Or.inl rfl
  | writeCmd =>
    rw [InboxStep, Inbox.step] at hs
    split at hs <;> cases hs
    case h_1 p command value notifies hsender =>
      refine h.notify (fun _ hbit => hbit) fun q hq => ?_
      rw [hsender] at hq
      exact Or.inl hq
  | writeDat =>
    rw [InboxStep, Inbox.step] at hs
    split at hs <;> cases hs
    case h_1 p value notifies hsender =>
      refine h.notify (fun q hbit => ?_) fun q hq => ?_
      · dsimp only
        rw [hasBit_or, hbit, Bool.true_or]
      · rw [hsender] at hq
        obtain rfl : p = q := hq
        refine Or.inr ?_
        dsimp only
        rw [hasBit_or, hasBit_bit, decide_eq_true rfl, Bool.or_true]
  | serve requests status =>
    cases hs
    -- CPU3 takes requests and rewrites its status: neither is the ring the readers wait on
    have hstep : R1Amp.Step cfg s.world (.peer _ _, .silent)
      (s.world.peered { s.world.driver.shared with linuxToCpu3 := requests } status) := rfl
    exact h.outside hstep ⟨h.rings.plays, h.rings.inRange⟩ rfl rfl h.counts (fun _ => le_rfl)
      fun _ _ hq => hq
  | acknowledge p =>
    rw [InboxStep, Inbox.step] at hs
    split_ifs at hs
    cases hs
    exact h.acknowledge p
  | callback p message =>
    rw [InboxStep, Inbox.step] at hs
    split_ifs at hs
    cases hs
    exact h.callback p message

/-- A probed driver; what CPU3 and the mailbox are doing does not matter. -/
structure Inbox.Probed (s : Inbox) : Prop where
  world : s.world.Probed
  raised : ∀ p, s.raised p = 0

theorem Inbox.Probed.inboxInv {cfg : Config} {s : Inbox} (h : s.Probed) : InboxInv cfg s := by
  refine ⟨⟨_, [], h.world, .nil _⟩, ⟨?_, fun hatt => ?_⟩, fun p => ?_, fun f hf => ?_⟩
  · rw [h.world.endpoint]
    exact Or.inl rfl
  · rw [h.world.life] at hatt
    cases hatt
  · rw [World.rxGeneration, h.world.readers, h.raised]
    rfl
  · rw [h.world.files] at hf
    cases hf

/-- In every run, a read that waits while fewer than `2 ^ 32` moves of `rx_generation` have followed
its sample, and whose sample still equals `rx_generation`, waits in ACTIVE, and every frame still
queued on its channel whose notification was sent or coalesced has its doorbell up or a callback
still to run. -/
theorem blocked_reader_awaited {cfg : Config} {s₀ s : Inbox} {acts : List InboxAct}
    (h₀ : s₀.Probed) (h : Trace (InboxStep cfg) s₀ acts s) {f : UserFile}
    (hf : f ∈ s.world.files) {i : ℕ} {generation : U32}
    (hread : f.reads[i]? = some (.waiting generation)) :
    ∃ k, (s.samples f.id)[i]? = some k ∧ k ≤ s.raised f.channel ∧
      (s.raised f.channel < k + 2 ^ 32 → s.world.rxGeneration f.channel = generation →
        s.world.driver.life.mailmsgState = .active ∧
          ∀ m ∈ s.notified f.channel,
            hasBit s.b2a.status f.channel = true ∨ 0 < s.due f.channel) := by
  have hinv : InboxInv cfg s := h.invariant (fun _ _ _ hs hstep => InboxInv.step hs hstep)
    h₀.inboxInv
  have hlt : i < (s.samples f.id).length := by
    rw [← (hinv.reads f hf).length_eq]
    exact (List.getElem?_eq_some_iff.mp hread).1
  have hk := List.getElem?_eq_getElem hlt
  obtain ⟨hsample, hle, hawaited⟩ := forall₂_getElem? (hinv.reads f hf) hread hk
  refine ⟨_, hk, hle, fun hfew hsame => ?_⟩
  -- the two words agree, so no move has followed the sample
  have hwords := (hinv.counts f.channel).symm.trans (hsame.trans hsample)
  have hnat := congrArg BitVec.toNat hwords
  rw [BitVec.toNat_ofNat, BitVec.toNat_ofNat] at hnat
  obtain ⟨hactive, hcovered⟩ := hawaited (by omega)
  exact ⟨hactive, fun m hm => hcovered (List.ne_nil_of_mem hm)⟩

def pongRun : List InboxAct :=
  [.linux (.imageWrite 0 [1, 2, 3, 4]), .linux (.startStore true 5 affinityOff 0 100),
    .push 0 (replyFrame msgSessionReady 1 1 protocolVersion), .look, .writeCmd, .writeDat,
    .acknowledge 0, .callback 0 none, .linux (.controlWork 200 (fun _ => 200) 1),
    .linux (.userOpen 7 1 true), .linux (.userReadEnter ⟨7, 1, false, []⟩ 48),
    .linux (.userReadSample ⟨7, 1, true, [.entered]⟩ 0),
    .linux (.userReadTry ⟨7, 1, true, [.sampled 0]⟩ 0 false false),
    .push 1 (replyFrame msgPong 2 8 0), .look, .writeCmd, .writeDat]

def quietInbox : Inbox :=
  ⟨probedWorld, ⟨0, fun _ => 0, fun _ => 0⟩, .idle, fun _ => 0, fun _ => 0, fun _ => []⟩

theorem blocked_reader_awaited_pong :
    ∃ s, Trace (InboxStep board) quietInbox pongRun s ∧
      s.notified 1 = [replyFrame msgPong 2 8 0] ∧ s.world.rxGeneration 1 = 0 ∧
      ⟨7, 1, true, [.waiting 0]⟩ ∈ s.world.files ∧
      ∃ k, (s.samples 7)[0]? = some k ∧ k ≤ s.raised 1 ∧ s.raised 1 < k + 2 ^ 32 ∧
        s.world.driver.life.mailmsgState = .active ∧
        ∀ m ∈ s.notified 1, hasBit s.b2a.status 1 = true ∨ 0 < s.due 1 := by
  obtain ⟨s, htrace, htest⟩ := Trace.exists_of_foldlM (Inbox.step board) quietInbox pongRun
    (fun s : Inbox => decide (s.notified 1 = [replyFrame msgPong 2 8 0] ∧
      s.world.rxGeneration 1 = 0 ∧ ⟨7, 1, true, [.waiting 0]⟩ ∈ s.world.files ∧
      s.raised 1 < 2 ^ 32))
    (by decide +kernel)
  obtain ⟨hpong, hgeneration, hfile, hraised⟩ := of_decide_eq_true htest
  have hread : (⟨7, 1, true, [.waiting 0]⟩ : UserFile).reads[0]? = some (.waiting 0) := rfl
  obtain ⟨k, hk, hle, hawaited⟩ :=
    blocked_reader_awaited ⟨probedWorld_probed, fun _ => rfl⟩ htrace hfile hread
  have hfew : s.raised 1 < k + 2 ^ 32 := Nat.lt_add_left k hraised
  exact ⟨s, htrace, hpong, hgeneration, hfile, k, hk, hle, hfew, hawaited hfew hgeneration⟩

end Lzamp.System
