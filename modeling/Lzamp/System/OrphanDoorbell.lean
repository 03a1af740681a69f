import Lzamp.System.Doorbell
import Lzamp.R1Amp.SessionRefinement

namespace Lzamp.System
open Mailmsg Lib Cpu3

variable {π : Type} {b : Build} {bk : Backend π}

/-- What the final acknowledgement still has to take down, or has taken down. -/
def Worker.Quiets (status : U32) : Worker → Prop
  | .acknowledging pending => ∀ p, hasBit status p = true → hasBit pending p = true
  | .parking | .off => ∀ p, hasBit status p = false
  | _ => False

theorem Worker.Quiets.anti {status status' : U32} {w : Worker} (h : w.Quiets status)
    (hle : ∀ p, hasBit status' p = true → hasBit status p = true) : w.Quiets status' := by
  have hfalse : (∀ p, hasBit status p = false) → ∀ p, hasBit status' p = false := by
    intro hz p
    have := hle p
    rw [hz p] at this
    simpa using this
  cases w with
  | acknowledging pending => exact fun p hp => h p (hle p hp)
  | parking | off => exact hfalse h
  | _ => exact absurd h id

/-- The stop has returned, and the acknowledgement takes care of every doorbell. -/
structure Settled (s : Link π) : Prop where
  stopping : s.stopping = true
  sender : s.sender = .idle
  quiets : s.worker.Quiets s.a2b.status

theorem senderStep_eq_none {s : Link π} (hstop : s.stopping = true) (hidle : s.sender = .idle)
    (hrun : s.worker.running = false) (a : SenderAct) : s.senderStep a = none := by
  cases a <;> simp [Link.senderStep, hstop, hidle, hrun]

theorem Settled.running {s : Link π} (h : Settled s) : s.worker.running = false := by
  have hq := h.quiets
  cases hw : s.worker with
  | acknowledging | parking | off => rfl
  | _ =>
    rw [hw] at hq
    exact absurd hq id

theorem early_workerStep {s s' : Link π} {a : WorkerAct} (h : s.worker.stage ≤ 2)
    (hs : s.workerStep b bk a = some s') :
    s'.worker.stage ≤ 2 ∨ a = .readStatus ∧
      s' = { s with worker := .acknowledging (s.a2b.status &&& 0xf) } := by
  by_cases hw : s.worker = .quiescing
  · cases a <;> simp only [Link.workerStep, hw, reduceCtorEq, false_and, if_false, if_true] at hs
    cases hs
    exact Or.inr ⟨rfl, rfl⟩
  · have hstage : s.worker.stage ≠ 2 := fun h2 => by
      cases hk : s.worker <;> rw [hk] at h2 <;> first | exact hw hk | cases h2
    have := Link.workerStep_stage hs
    exact Or.inl (by omega)

theorem settled_of_readStatus {s : Link π} (hstop : s.stopping = true) (hidle : s.sender = .idle) :
    Settled { s with worker := .acknowledging (s.a2b.status &&& 0xf) } := by
  refine ⟨hstop, hidle, fun p hp => ?_⟩
  have hmask : ∀ p : Priority, hasBit 0xf p = true := by decide
  rw [hasBit_and, hmask, Bool.and_true]
  exact hp

theorem settled_workerStep {s s' : Link π} {a : WorkerAct} (h : Settled s)
    (hs : s.workerStep b bk a = some s') : Settled s' := by
  have hquiets := h.quiets
  cases hw : s.worker with
  | acknowledging pending =>
    rw [hw] at hquiets
    cases a <;> simp only [Link.workerStep, hw, reduceCtorEq, false_and, if_false] at hs
    cases hs
    refine ⟨h.stopping, h.sender, fun p => ?_⟩
    have hp := hquiets p
    rw [hasBit_and, hasBit_not]
    cases hbit : hasBit s.a2b.status p with
    | false => rfl
    | true =>
      rw [hp hbit]
      rfl
  | parking =>
    rw [hw] at hquiets
    cases a <;> simp only [Link.workerStep, hw, reduceCtorEq, false_and, if_false, if_true] at hs
    cases hs
    exact ⟨h.stopping, h.sender, hquiets⟩
  | off => cases a <;> simp [Link.workerStep, hw] at hs
  | _ =>
    rw [hw] at hquiets
    exact absurd hquiets id

theorem settled_step {s s' : Link π} {a : Act} (h : Settled s) (hs : LinkStep b bk s a s') :
    Settled s' := by
  cases a with
  | sender a =>
    have hnone := senderStep_eq_none h.stopping h.sender h.running a
    exact absurd (hnone.symm.trans hs) (by simp)
  | isr p a =>
    have hframe := Link.isrStep_frame hs
    refine ⟨hframe.stopping.trans h.stopping, hframe.sender.trans h.sender, ?_⟩
    rw [hframe.worker]
    exact h.quiets.anti hframe.status
  | worker a => exact settled_workerStep h hs
  | linuxReads rings b2a =>
    cases hs
    exact ⟨h.stopping, h.sender, h.quiets⟩

/-- CPU3 makes its final reading of A2B_STATUS only when `mailmsg_stop_store` is done ringing. -/
def ReadsAfterStop (s : Link π) (a : Act) : Prop :=
  a = .worker .readStatus → s.stopping = true ∧ s.sender = .idle

/-- If CPU3 makes its final reading of A2B_STATUS after `mailmsg_stop_store` has finished, then no
doorbell is up once it is off, whatever else was sent or rung before. -/
theorem stop_leaves_no_doorbell {s₀ s : Link π} {acts : List Act} (h₀ : s₀.worker.stage ≤ 2)
    (h : Trace (fun s a s' => ReadsAfterStop s a ∧ LinkStep b bk s a s') s₀ acts s)
    (hoff : s.worker = .off) (p : Priority) : hasBit s.a2b.status p = false := by
  have hinv : s.worker.stage ≤ 2 ∨ Settled s := by
    refine Trace.invariant (I := fun s => s.worker.stage ≤ 2 ∨ Settled s) ?_ h (Or.inl h₀)
    rintro s a s' (hearly | hsettled) ⟨hcond, hs⟩
    · cases a with
      | sender a => exact Or.inl (by rw [(Link.senderStep_frame hs).worker]; exact hearly)
      | isr q a => exact Or.inl (by rw [(Link.isrStep_frame hs).worker]; exact hearly)
      | linuxReads rings b2a =>
        cases hs
        exact Or.inl hearly
      | worker a =>
        refine (early_workerStep hearly hs).imp id ?_
        rintro ⟨rfl, rfl⟩
        obtain ⟨hstop, hidle⟩ := hcond rfl
        exact settled_of_readStatus hstop hidle
    · exact Or.inr (settled_step hsettled hs)
  rcases hinv with hearly | hsettled
  · rw [hoff] at hearly
    exact absurd hearly (by decide)
  · have hquiets := hsettled.quiets
    rw [hoff] at hquiets
    exact hquiets p

section Runs

def stopStore : List Act :=
  [.sender .stop, .sender .look, .sender .writeCmd, .sender .writeDat]

def awakeOnCritical : List Act :=
  [.isr 0 .fire, .isr 0 .readCmd, .isr 0 .clear, .isr 0 .mark, .isr 0 .give, .worker .take,
    .worker .swap, .worker .next]

def leave : List Act :=
  [.worker .turn, .worker .disable, .worker .readStatus, .worker .acknowledge, .worker .cpuOff]

instance (s : Link π) : (a : Act) → Decidable (ReadsAfterStop s a)
  | .worker a => decidable_of_iff (a = .readStatus → s.stopping = true ∧ s.sender = .idle)
      (by simp [ReadsAfterStop])
  | .sender _ => isTrue fun h => by cases h
  | .isr _ _ => isTrue fun h => by cases h
  | .linuxReads _ _ => isTrue fun h => by cases h

/-- A worker woken by the doorbell of STOP_REQUEST itself. -/
theorem stop_leaves_no_doorbell_in_order :
    ∃ s : Link Unit, Trace (fun s a s' => ReadsAfterStop s a ∧
        LinkStep stopImage noPeripherals s a s') restingLink
        (stopStore ++ awakeOnCritical ++ leave) s ∧
      s.worker = .off ∧ s.stopping = true ∧ s.sender = .idle ∧
      ∀ p, hasBit s.a2b.status p = false := by
  obtain ⟨s, htrace, htest⟩ := Trace.exists_of_guarded (Link.step stopImage noPeripherals)
    ReadsAfterStop restingLink (stopStore ++ awakeOnCritical ++ leave)
    (fun s => decide (s.worker = .off ∧ s.stopping = true ∧ s.sender = .idle)) (by decide +kernel)
  obtain ⟨hoff, hstop, hidle⟩ := of_decide_eq_true htest
  exact ⟨s, htrace, hoff, hstop, hidle, stop_leaves_no_doorbell (by decide) htrace hoff⟩

def rawDoorbellOnCritical : List Act :=
  [.sender (.lookRaw 0 0), .sender .writeCmd, .sender .writeDat]

/-- A doorbell that is up keeps `rearm_store` from going on, however often it is asked. -/
theorem rearm_refused {d : R1Amp.Driver} {p : Priority} (hbit : hasBit d.mbox.a2b.status p = true)
    (cfg : R1Amp.Config) (hattempted : d.life.cpuOnAttempted = true)
    (hclosed : d.mailmsgUserOpenCount = 0) (hinfo : cfg.hasAffinityInfo = true) (count : ℕ) :
    (R1Amp.rearmStore cfg true count R1Amp.affinityOff d).ret = -R1Amp.ebusy := by
  have hmbox : (R1Amp.refreshAffinityLocked R1Amp.affinityOff d).mbox = d.mbox := by
    rcases R1Amp.refreshAffinity_cases R1Amp.affinityOff d with heq | ⟨-, -, -, -, heq⟩ <;>
      rw [heq] <;> rfl
  have hstatus : (R1Amp.refreshAffinityLocked R1Amp.affinityOff d).mbox.a2b.status ≠ 0 :=
    hmbox ▸ ne_zero_of_hasBit hbit
  unfold R1Amp.rearmStore
  simp only [hattempted, hclosed, hinfo, R1Amp.affinityState_refresh, if_pos hstatus, Bool.not_true,
    Bool.false_eq_true, ne_eq, not_true_eq_false, if_false]

/-- The doorbell that nobody takes down: a worker awake for an earlier doorbell takes STOP_REQUEST
right after the commit, answers, finds A2B_STATUS zero and is off before `mailmsg_stop_store` rings
for the frame.  Every later rearm is refused. -/
theorem stop_leaves_orphan_doorbell :
    ∃ s₁ s : Link Unit,
      Trace (LinkStep stopImage noPeripherals) restingLink
        (rawDoorbellOnCritical ++ awakeOnCritical) s₁ ∧
      (∀ p, (s₁.cpu3.shared.linuxToCpu3 p).contents = [] ∧
        (s₁.cpu3.shared.cpu3ToLinux p).contents = []) ∧
      s₁.a2b.status = 0 ∧ s₁.stopping = false ∧ s₁.sender = .idle ∧
      Trace (LinkStep stopImage noPeripherals) s₁ (stopStore.take 1 ++ leave ++ stopStore.drop 1) s ∧
      s.worker = .off ∧ s.stopping = true ∧ s.sender = .idle ∧
      hasBit s.a2b.status 0 = true ∧
      ∀ (cfg : R1Amp.Config) (count : ℕ) (d : R1Amp.Driver), d.life.cpuOnAttempted = true →
        d.mailmsgUserOpenCount = 0 → cfg.hasAffinityInfo = true → d.mbox.a2b = s.a2b →
        (R1Amp.rearmStore cfg true count R1Amp.affinityOff d).ret = -R1Amp.ebusy := by
  obtain ⟨s₁, htrace₁, htest₁⟩ := Trace.exists_of_foldlM (Link.step stopImage noPeripherals)
    restingLink (rawDoorbellOnCritical ++ awakeOnCritical)
    (fun s₁ => decide ((∀ p, (s₁.cpu3.shared.linuxToCpu3 p).contents = [] ∧
          (s₁.cpu3.shared.cpu3ToLinux p).contents = []) ∧
        s₁.a2b.status = 0 ∧ s₁.stopping = false ∧ s₁.sender = .idle) &&
      ((stopStore.take 1 ++ leave ++ stopStore.drop 1).foldlM
        (Link.step stopImage noPeripherals) s₁).any
        fun s : Link Unit => decide (s.worker = .off ∧ s.stopping = true ∧ s.sender = .idle ∧
          hasBit s.a2b.status 0 = true)) (by decide +kernel)
  obtain ⟨hstart, hrest⟩ := Bool.and_eq_true_iff.mp htest₁
  obtain ⟨hrings, hstatus, hactive, hidle₁⟩ := of_decide_eq_true hstart
  obtain ⟨s, htrace, htest⟩ := Trace.exists_of_foldlM _ s₁ _ _ hrest
  obtain ⟨hoff, hstop, hidle, hbit⟩ := of_decide_eq_true htest
  refine ⟨s₁, s, htrace₁, hrings, hstatus, hactive, hidle₁, htrace, hoff, hstop, hidle, hbit, ?_⟩
  intro cfg count d hattempted hclosed hinfo ha2b
  exact rearm_refused (ha2b ▸ hbit) cfg hattempted hclosed hinfo count

end Runs

/-- Linux does nothing but `mailmsg_stop_store`. -/
def Act.ofStop : Act → Bool
  | .sender .stop | .sender .look | .sender .writeCmd | .sender .writeDat => true
  | .sender _ => false
  | _ => true

def StopStep (b : Build) (bk : Backend π) (s : Link π) (a : Act) (s' : Link π) : Prop :=
  a.ofStop = true ∧ LinkStep b bk s a s'

/-- The handler is about to take its doorbell down. -/
def Isr.Holds : Isr → Prop
  | .fired | .read _ => True
  | _ => False

/-- `mailmsg_stop_store` has not rung yet, and nothing else has. -/
structure Unrung (s : Link π) : Prop where
  unfinished : ¬ (s.stopping = true ∧ s.sender = .idle)
  closed : s.stopping = false → s.sender = .idle
  status : ∀ p, hasBit s.a2b.status p = false
  isr : ∀ p, ¬ (s.isr p).Holds

/-- It has rung, and no handler is there to answer. -/
structure Rung (s : Link π) : Prop where
  finished : s.stopping = true ∧ s.sender = .idle
  status : ∃ p, hasBit s.a2b.status p = true
  isr : ∀ p, ¬ (s.isr p).Holds

theorem Unrung.under_way {s : Link π} (hstop : s.stopping = true) (hsender : s.sender ≠ .idle)
    (hstatus : ∀ p, hasBit s.a2b.status p = false) (hisr : ∀ p, ¬ (s.isr p).Holds) : Unrung s := by
  refine ⟨fun hf => hsender hf.2, fun hf => ?_, hstatus, hisr⟩
  rw [hstop] at hf
  cases hf

theorem Link.commit_sender (s : Link π) (p : Priority) (type : U32) (payload : Option (List U8))
    (length : U32) (stopping : Bool) :
    (s.commit p type payload length stopping).a2b = s.a2b ∧
      (s.commit p type payload length stopping).isr = s.isr ∧
      ((s.commit p type payload length stopping).sender = s.sender ∧
          (s.commit p type payload length stopping).stopping = s.stopping ∨
        (s.commit p type payload length stopping).sender = .queued p ∧
          (s.commit p type payload length stopping).stopping = stopping) := by
  unfold Link.commit
  dsimp only
  split_ifs
  · exact ⟨rfl, rfl, Or.inl ⟨rfl, rfl⟩⟩
  · exact ⟨rfl, rfl, Or.inr ⟨rfl, rfl⟩⟩

theorem unrung_senderStep {s s' : Link π} {a : SenderAct} (h : Unrung s)
    (ha : (Act.sender a).ofStop = true) (hs : s.senderStep a = some s') : Unrung s' ∨ Rung s' := by
  -- under way means not returned
  have hbusy : s.sender ≠ .idle → s.stopping = true := fun hne => by
    cases hstop : s.stopping with
    | true => rfl
    | false => exact absurd (h.closed hstop) hne
  cases a with
  | stop =>
    rw [Link.senderStep] at hs
    split_ifs at hs with hidle
    cases hs
    obtain ⟨ha2b, hisr, hsame | hqueued⟩ := s.commit_sender prioCritical msgStopRequest none 0 true
    · refine Or.inl ⟨?_, ?_, ha2b ▸ h.status, hisr ▸ h.isr⟩
      · rw [hsame.1, hsame.2]
        exact h.unfinished
      · rw [hsame.1, hsame.2]
        exact h.closed
    · exact Or.inl (.under_way hqueued.2 (by rw [hqueued.1]; simp) (ha2b ▸ h.status) (hisr ▸ h.isr))
  | look =>
    rw [Link.senderStep] at hs
    split at hs
    case h_1 p hqueued =>
      -- nothing to coalesce with
      rw [if_neg (by simp [h.status p])] at hs
      cases hs
      exact Or.inl (.under_way (hbusy (by simp [hqueued])) (by simp) h.status h.isr)
    case h_2 => cases hs
  | writeCmd =>
    rw [Link.senderStep] at hs
    split at hs
    case h_1 p command value notifies hringing =>
      cases hs
      exact Or.inl (.under_way (hbusy (by simp [hringing])) (by simp) h.status h.isr)
    case h_2 => cases hs
  | writeDat =>
    rw [Link.senderStep] at hs
    split at hs
    case h_1 p value notifies hcommanded =>
      cases hs
      have hstop := hbusy (by simp [hcommanded])
      have hbit : hasBit (s.a2b.status ||| bit p) p = true := by simp
      cases notifies with
      | false => exact Or.inr ⟨⟨hstop, rfl⟩, ⟨p, hbit⟩, h.isr⟩
      | true => exact Or.inr ⟨⟨hstop, rfl⟩, ⟨p, hbit⟩, h.isr⟩
    case h_2 => cases hs
  | _ => cases ha

theorem isrStep_unheld {s s' : Link π} {p : Priority} {a : IsrAct} (hisr : ∀ p, ¬ (s.isr p).Holds)
    (hfire : s.irqEnabled = false ∨ ∀ p, hasBit s.a2b.status p = false)
    (hs : s.isrStep p a = some s') : s'.a2b = s.a2b ∧ ∀ p, ¬ (s'.isr p).Holds := by
  have hmoved : ∀ isr : Isr, ¬ isr.Holds → ∀ q, ¬ (Function.update s.isr p isr q).Holds := by
    intro isr hnot q
    by_cases hq : q = p
    · subst hq
      rwa [Function.update_self]
    · rw [Function.update_of_ne hq]
      exact hisr q
  have hheld := hisr p
  cases a with
  -- no handler starts: the line is masked, or no bit is up
  | fire =>
    rw [Link.isrStep] at hs
    split_ifs at hs with hcond
    rcases hfire with hoff | hzero
    · rw [hoff] at hcond
      cases hcond.1
    · rw [hzero p] at hcond
      cases hcond.2.1
  | readCmd =>
    rw [Link.isrStep] at hs
    split_ifs at hs with hcond
    rw [hcond] at hheld
    exact absurd trivial hheld
  | clear =>
    rw [Link.isrStep] at hs
    split at hs
    case h_1 hcond =>
      rw [hcond] at hheld
      exact absurd trivial hheld
    case h_2 => cases hs
  | mark =>
    rw [Link.isrStep] at hs
    split at hs
    · split_ifs at hs
      · cases hs
        exact ⟨rfl, hmoved .marked id⟩
      · cases hs
        exact ⟨rfl, hmoved .idle id⟩
    · cases hs
  | give =>
    rw [Link.isrStep] at hs
    split_ifs at hs
    cases hs
    exact ⟨rfl, hmoved .idle id⟩

theorem stopSender_done {s : Link π} (h : s.stopping = true ∧ s.sender = .idle) {a : SenderAct}
    (ha : (Act.sender a).ofStop = true) : s.senderStep a = none := by
  cases a with
  | stop | look | writeCmd | writeDat => simp [Link.senderStep, h.1, h.2]
  | _ => cases ha

theorem unrung_step {s s' : Link π} {a : Act}
    (h : (s.stopping = true ∧ s.sender = .idle) ∨ Unrung s) (hs : StopStep b bk s a s') :
    (s'.stopping = true ∧ s'.sender = .idle) ∨ Unrung s' := by
  obtain ⟨ha, hs⟩ := hs
  cases a with
  | sender a =>
    rcases h with hdone | hun
    · have hnone := stopSender_done hdone ha
      exact absurd (hnone.symm.trans hs) (by simp)
    · exact (unrung_senderStep hun ha hs).symm.imp Rung.finished id
  | isr p a =>
    have hframe := Link.isrStep_frame hs
    rw [hframe.stopping, hframe.sender]
    refine h.imp id fun hun => ?_
    obtain ⟨ha2b, hisr⟩ := isrStep_unheld hun.isr (Or.inr hun.status) hs
    refine ⟨?_, ?_, ha2b ▸ hun.status, hisr⟩
    · rw [hframe.stopping, hframe.sender]
      exact hun.unfinished
    · rw [hframe.stopping, hframe.sender]
      exact hun.closed
  | worker a =>
    have hframe := Link.workerStep_frame hs
    rw [hframe.stopping, hframe.sender]
    refine h.imp id fun hun => ?_
    refine ⟨?_, ?_, fun p => ?_, hframe.isr ▸ hun.isr⟩
    · rw [hframe.stopping, hframe.sender]
      exact hun.unfinished
    · rw [hframe.stopping, hframe.sender]
      exact hun.closed
    · rw [Bool.eq_false_iff]
      intro hbit
      have hold := hframe.status p hbit
      rw [hun.status p] at hold
      cases hold
  | linuxReads rings b2a =>
    cases hs
    exact h.imp id fun hun => ⟨hun.unfinished, hun.closed, hun.status, hun.isr⟩

theorem irq_masked_step {s s' : Link π} {a : Act} (hs : LinkStep b bk s a s')
    (h : 2 ≤ s.worker.stage → s.irqEnabled = false) :
    2 ≤ s'.worker.stage → s'.irqEnabled = false := by
  cases a with
  | sender a =>
    obtain ⟨hw, hirq, -⟩ := Link.senderStep_frame hs
    rw [hw, hirq]
    exact h
  | isr p a =>
    have hframe := Link.isrStep_frame hs
    rw [hframe.worker, hframe.irqEnabled]
    exact h
  | linuxReads rings b2a =>
    cases hs
    exact h
  | worker a =>
    intro hmasked
    by_cases hdis : s.worker = .disabling
    · cases a <;> simp only [LinkStep, Link.step, Link.workerStep, hdis, reduceCtorEq, false_and,
        if_false, if_true] at hs
      cases hs
      rfl
    · rw [(Link.workerStep_frame hs).irqEnabled hdis]
      apply h
      have hstage : s.worker.stage ≠ 1 := fun h1 => by
        cases hk : s.worker <;> rw [hk] at h1 <;> first | exact hdis hk | cases h1
      have := Link.workerStep_stage hs
      omega

/-- After a final reading that found nothing: the worker leaves every doorbell as it is. -/
structure Orphaning (s : Link π) : Prop where
  irqEnabled : s.irqEnabled = false
  leaving : 3 ≤ s.worker.stage
  nothing : ∀ pending, s.worker = .acknowledging pending → ∀ p, hasBit pending p = false
  bell : Unrung s ∨ Rung s

theorem orphaning_step {s s' : Link π} {a : Act} (h : Orphaning s) (hs : StopStep b bk s a s') :
    Orphaning s' := by
  obtain ⟨ha, hs⟩ := hs
  cases a with
  | sender a =>
    obtain ⟨hw, hirq, -⟩ := Link.senderStep_frame hs
    refine ⟨hirq.trans h.irqEnabled, hw ▸ h.leaving, hw ▸ h.nothing, ?_⟩
    rcases h.bell with hun | hrung
    · exact unrung_senderStep hun ha hs
    · have hnone := stopSender_done hrung.finished ha
      exact absurd (hnone.symm.trans hs) (by simp)
  | isr p a =>
    have hframe := Link.isrStep_frame hs
    refine ⟨hframe.irqEnabled.trans h.irqEnabled, hframe.worker ▸ h.leaving,
      hframe.worker ▸ h.nothing, ?_⟩
    rcases h.bell with hun | hrung
    · obtain ⟨ha2b, hisr⟩ := isrStep_unheld hun.isr (Or.inl h.irqEnabled) hs
      exact Or.inl ⟨by rw [hframe.stopping, hframe.sender]; exact hun.unfinished,
        by rw [hframe.stopping, hframe.sender]; exact hun.closed, ha2b ▸ hun.status, hisr⟩
    · obtain ⟨ha2b, hisr⟩ := isrStep_unheld hrung.isr (Or.inl h.irqEnabled) hs
      exact Or.inr ⟨by rw [hframe.stopping, hframe.sender]; exact hrung.finished,
        ha2b ▸ hrung.status, hisr⟩
  | linuxReads rings b2a =>
    cases hs
    exact ⟨h.irqEnabled, h.leaving, h.nothing, h.bell.imp
      (fun hun => ⟨hun.unfinished, hun.closed, hun.status, hun.isr⟩)
      (fun hrung => ⟨hrung.finished, hrung.status, hrung.isr⟩)⟩
  | worker a =>
    have hframe := Link.workerStep_frame hs
    have hleaving := h.leaving
    -- past the mask, so the interrupt stays disabled from here on
    have hdis : s.worker ≠ .disabling := fun hw => by
      rw [hw] at hleaving
      exact absurd hleaving (by decide)
    have hstage : 4 ≤ s'.worker.stage := by
      have := Link.workerStep_stage hs
      omega
    -- the acknowledgement writes back what was read: nothing
    have hstatus : ∀ p, hasBit s'.a2b.status p = hasBit s.a2b.status p := by
      intro p
      by_cases hack : ∃ pending, s.worker = .acknowledging pending
      · obtain ⟨pending, hw⟩ := hack
        have hnothing := h.nothing pending hw p
        cases a <;> simp only [LinkStep, Link.step, Link.workerStep, hw, reduceCtorEq, false_and,
          if_false] at hs
        cases hs
        simp [hnothing]
      · rw [hframe.a2b fun pending hw => hack ⟨pending, hw⟩]
    refine ⟨(hframe.irqEnabled hdis).trans h.irqEnabled, by omega, fun pending hw => ?_, ?_⟩
    · rw [hw] at hstage
      exact absurd (show 4 ≤ 3 from hstage) (by decide)
    · refine h.bell.imp (fun hun => ⟨?_, ?_, fun p => (hstatus p).trans (hun.status p),
        hframe.isr ▸ hun.isr⟩) (fun hrung => ⟨?_, ?_, hframe.isr ▸ hrung.isr⟩)
      · rw [hframe.stopping, hframe.sender]
        exact hun.unfinished
      · rw [hframe.stopping, hframe.sender]
        exact hun.closed
      · rw [hframe.stopping, hframe.sender]
        exact hrung.finished
      · obtain ⟨p, hp⟩ := hrung.status
        exact ⟨p, (hstatus p).trans hp⟩

/-- An active session with no doorbell up or being answered, before any stop. -/
structure AboutToStop (s : Link π) : Prop where
  active : s.stopping = false
  sender : s.sender = .idle
  status : ∀ p, hasBit s.a2b.status p = false
  isr : ∀ p, ¬ (s.isr p).Holds
  worker : s.worker.running = true

/-- If CPU3 makes its final reading before `mailmsg_stop_store` is done ringing, the doorbell is up
when both are done. -/
theorem late_doorbell_stays {s₀ u v s : Link π} {pre post : List Act} (h₀ : AboutToStop s₀)
    (hpre : Trace (StopStep b bk) s₀ pre u) (hread : LinkStep b bk u (.worker .readStatus) v)
    (hlate : ¬ (u.stopping = true ∧ u.sender = .idle)) (hpost : Trace (StopStep b bk) v post s)
    (hdone : s.stopping = true ∧ s.sender = .idle) : ∃ p, hasBit s.a2b.status p = true := by
  have hstart : (s₀.stopping = true ∧ s₀.sender = .idle) ∨ Unrung s₀ := by
    refine Or.inr ⟨fun hf => ?_, fun _ => h₀.sender, h₀.status, h₀.isr⟩
    exact absurd (h₀.active.symm.trans hf.1) Bool.false_ne_true
  have hun : Unrung u :=
    (hpre.invariant (I := fun s => (s.stopping = true ∧ s.sender = .idle) ∨ Unrung s)
      (fun _ _ _ h hs => unrung_step h hs) hstart).resolve_left hlate
  have hirq : 2 ≤ u.worker.stage → u.irqEnabled = false := by
    refine hpre.invariant (I := fun s => 2 ≤ s.worker.stage → s.irqEnabled = false)
      (fun _ _ _ h hs => irq_masked_step hs.2 h) fun hle => ?_
    rw [(Worker.running_iff _).mp h₀.worker] at hle
    exact absurd hle (by decide)
  have hv : Orphaning v := by
    rw [LinkStep, Link.step, Link.workerStep] at hread
    split_ifs at hread with hw
    cases hread
    refine ⟨hirq (by rw [hw]; decide), Nat.le_refl 3, fun pending hp p => ?_,
      Or.inl ⟨hun.unfinished, hun.closed, hun.status, hun.isr⟩⟩
    cases hp
    rw [hasBit_and, hun.status p, Bool.false_and]
  have hs := hpost.invariant (I := Orphaning) (fun _ _ _ h hs => orphaning_step h hs) hv
  rcases hs.bell with hun | hrung
  · exact absurd hdone hun.unfinished
  · exact hrung.status

end Lzamp.System
