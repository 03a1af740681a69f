import Lzamp.Cpu3.Threads

namespace Lzamp.Cpu3
open Mailmsg Lib

variable {π : Type}

/-- Between entry and exit of `mailmsg_endpoint_send`. -/
def MainThread.InSend : MainThread → Prop
  | .sending _ => True
  | _ => False

def WorkerThread.InSend : WorkerThread → Prop
  | .sending .. => True
  | _ => False

/-- Past the test of `mailmsg_session_ready_published`. -/
def WorkerThread.InService : WorkerThread → Prop
  | .serving _ | .replying .. | .sending .. | .off => True
  | _ => False

theorem WorkerThread.InSend.inService {w : WorkerThread} (h : w.InSend) : w.InService := by
  cases w with
  | sending => trivial
  | _ => exact h.elim

def Script.All (P : Call → Prop) : Script → Prop
  | .done | .off => True
  | .send call _ next => P call ∧ ∀ sent, (next sent).All P

/-- Every call the worker may still make for the frame in hand satisfies `P`. -/
def WorkerThread.All (P : Call → Prop) : WorkerThread → Prop
  | .replying _ _ script => script.All P
  | .sending _ _ call _ next _ => P call ∧ ∀ sent, (next sent).All P
  | _ => True

section Scripts

variable {P : Call → Prop} {p : Priority}

theorem nackScript_all {sequence reason : U32} (h : P (feedbackCall p msgNack sequence reason)) :
    (nackScript p sequence reason).All P := by
  unfold nackScript
  split_ifs
  · exact ⟨h, fun _ => trivial⟩
  · trivial

theorem resultScript_all {sequence : U32} {result : Call}
    (hack : P (feedbackCall p msgAck sequence 0)) (hresult : P result) :
    (resultScript p sequence result).All P := by
  refine ⟨hack, fun sent => ?_⟩
  cases sent with
  | false => trivial
  | true => exact ⟨hresult, fun _ => trivial⟩

end Scripts

theorem replyScript_all (b : Build) (bk : Backend π) (p : Priority) (ret : Int) (request : Message)
    (c : State π) :
    (replyScript b bk p ret request c).2.All fun call => call.type ≠ msgSessionReady := by
  have hfeedback : ∀ {type : U32} (p : Priority) (sequence status : U32), type ≠ msgSessionReady →
      (feedbackCall p type sequence status).type ≠ msgSessionReady := fun _ _ _ h => h
  have hnack : ∀ reason, (nackScript p request.sequence reason).All
      fun call => call.type ≠ msgSessionReady :=
    fun reason => nackScript_all (hfeedback _ _ _ (by decide))
  have hack : (feedbackCall p msgAck request.sequence 0).type ≠ msgSessionReady :=
    hfeedback _ _ _ (by decide)
  have hpong : (pongCall p request).type ≠ msgSessionReady := by
    unfold pongCall
    dsimp only
    split_ifs
    · decide
    · decide
  unfold replyScript requestScript peripheralScript gpioReadScript stopScript otherScript
  dsimp only
  split_ifs with hok hstop hlength hcontrol hself hperipheral hp hgpio hg hreliable hbad
  · exact ⟨hfeedback _ _ _ (by decide), fun _ => trivial⟩
  · refine ⟨hfeedback _ _ _ (by decide), fun sent => ?_⟩
    cases sent with
    | false => trivial
    | true => trivial
  · exact ⟨hfeedback _ _ _ (by decide), fun _ => trivial⟩
  · trivial
  · exact hnack _
  · dsimp only
    split
    · exact hnack _
    · exact resultScript_all hack (by decide : msgPeripheralResult ≠ msgSessionReady)
  · exact hnack _
  · dsimp only
    split
    · exact ⟨hfeedback _ _ _ (by decide), fun _ => trivial⟩
    · exact resultScript_all hack (by decide : msgGpioReadResult ≠ msgSessionReady)
  · exact ⟨hack, fun _ => ⟨hpong, fun _ => trivial⟩⟩
  · exact ⟨hpong, fun _ => trivial⟩
  · exact hnack _
  · exact hnack _
  · trivial

/-- The main thread acts while the flag is false, the worker serves once it is true.  An image that
skips SESSION_READY leaves the main thread idle. -/
structure Exclusive (b : Build) (s : Threads π) : Prop where
  main : s.main ≠ .looping → b.skipSessionReady = false ∧ s.cpu3.sessionReadyPublished = false
  worker : s.worker.InService → b.skipSessionReady = true ∨ s.cpu3.sessionReadyPublished = true

theorem Exclusive.main_looping {b : Build} {s : Threads π} (h : Exclusive b s)
    (hw : s.worker.InService) : s.main = .looping := by
  by_contra hm
  obtain ⟨hskip, hpublished⟩ := h.main hm
  rcases h.worker hw with hs | hp
  · rw [hskip] at hs
    cases hs
  · rw [hpublished] at hp
    cases hp

theorem replyScript_flags (b : Build) (bk : Backend π) (p : Priority) (ret : Int)
    (request : Message) (c : State π) :
    (replyScript b bk p ret request c).1.sessionReadyPublished = c.sessionReadyPublished ∧
      (replyScript b bk p ret request c).1.sessionReadyCommitted = c.sessionReadyCommitted := by
  unfold replyScript requestScript peripheralScript gpioReadScript
  dsimp only
  split_ifs <;> exact ⟨rfl, rfl⟩

theorem recordTxFull_flags (c : State π) (result : SendResult) :
    (c.recordTxFull result).sessionReadyPublished = c.sessionReadyPublished ∧
      (c.recordTxFull result).sessionReadyCommitted = c.sessionReadyCommitted := by
  unfold State.recordTxFull
  split_ifs <;> exact ⟨rfl, rfl⟩

theorem WorkerMove.flags {b : Build} {bk : Backend π} {s s' : Threads π} (h : WorkerMove b bk s s') :
    s'.main = s.main ∧ s'.cpu3.sessionReadyPublished = s.cpu3.sessionReadyPublished ∧
      s'.cpu3.sessionReadyCommitted = s.cpu3.sessionReadyCommitted := by
  cases h with
  | receive p => exact ⟨rfl, replyScript_flags b bk p _ _ _⟩
  | refused => exact ⟨rfl, recordTxFull_flags _ _⟩
  | _ => exact ⟨rfl, rfl, rfl⟩

theorem WorkerMove.inService {b : Build} {bk : Backend π} {s s' : Threads π}
    (h : WorkerMove b bk s s') (hs : s'.worker.InService) :
    s.worker.InService ∨ b.skipSessionReady = true ∨ s.cpu3.sessionReadyPublished = true := by
  cases h with
  | take | giveUp | endPass => exact hs.elim
  | swap =>
    dsimp only at hs
    split_ifs at hs <;> exact hs.elim
  | serve _ hpublished => exact .inr hpublished
  | receive _ hw | enter hw | finish hw | off hw | enqueue hw | ring _ _ hw | refused hw | sent hw =>
    rw [hw]
    exact .inl trivial

theorem Exclusive.main_step {b : Build} {s s' : Threads π} (hs : Exclusive b s)
    (h : MainMove b s s') : Exclusive b s' := by
  cases h with
  | idle => exact hs
  | retry _ hskip hpublished | enter _ hskip hpublished =>
    exact ⟨fun _ => ⟨hskip, hpublished⟩, hs.worker⟩
  | enqueue hm | ring _ _ hm | sent hm | setCommitted hm | retryRing _ _ hm =>
    exact ⟨fun _ => hs.main (by rw [hm]; nofun), hs.worker⟩
  | @refused ret result hm =>
    refine ⟨fun _ => ?_, fun hw => ?_⟩
    · exact (recordTxFull_flags s.cpu3 result).1 ▸ hs.main (by rw [hm]; nofun)
    · exact (recordTxFull_flags s.cpu3 result).1 ▸ hs.worker hw
  | setPublished hm | retryPublish hm =>
    -- the flag rises only while the worker is outside the service
    refine ⟨fun h => absurd rfl h, fun hw => ?_⟩
    have hlooping := hs.main_looping hw
    rw [hm] at hlooping
    cases hlooping

theorem Exclusive.step {b : Build} {bk : Backend π} {s s' : Threads π} {a : ThreadAct}
    (hs : Exclusive b s) (h : ThreadStep b bk s a s') : Exclusive b s' := by
  cases a with
  | main a => exact hs.main_step (mainStep_move h)
  | worker a =>
    have hmove := workerStep_move h
    obtain ⟨hmain, hpublished, -⟩ := hmove.flags
    refine ⟨fun hm => ?_, fun hw => ?_⟩
    · rw [hpublished]
      exact hs.main (hmain ▸ hm)
    · rw [hpublished]
      exact (hmove.inService hw).elim hs.worker id
  | isr p | popped p | requests rings =>
    cases h
    exact ⟨hs.main, hs.worker⟩

theorem Threads.Booted.exclusive {b : Build} {s : Threads π} (h : s.Booted) : Exclusive b s := by
  refine ⟨fun hm => absurd h.main hm, fun hw => ?_⟩
  rw [h.worker] at hw
  exact hw.elim

/-- The main thread has committed SESSION_READY and is not done with it. -/
def MainThread.Queued : MainThread → Prop
  | .sending (.queued _) | .sending (.rung _) | .returned _ | .marked _ => True
  | _ => False

def Threads.Ready (s : Threads π) : Prop :=
  s.cpu3.sessionReadyCommitted = true ∨ s.main.Queued

/-- Nothing was committed yet, or SESSION_READY was, and after it only answers of the worker. -/
structure ReadyFirst (s : Threads π) : Prop where
  before : ¬ s.Ready → s.log = []
  after : s.Ready → ∃ call rest, s.log = ⟨call, none⟩ :: rest ∧ call.type = msgSessionReady ∧
    ∀ e ∈ rest, e.author ≠ none ∧ e.call.type ≠ msgSessionReady

/-- How far the main thread is agrees with what it has written. -/
structure MainSound (s : Threads π) : Prop where
  sending : s.main.InSend → s.cpu3.sessionReadyCommitted = false
  refused : ∀ ret result, s.main = .sending (.refused ret result) → ret ≠ endpointOk
  marked : ∀ n, s.main = .marked n ∨ s.main = .retrying ∨ s.main = .retried n →
    s.cpu3.sessionReadyCommitted = true
  published : s.cpu3.sessionReadyPublished = true → s.cpu3.sessionReadyCommitted = true

structure ProducerInv (b : Build) (s : Threads π) : Prop where
  exclusive : Exclusive b s
  main : MainSound s
  calls : s.worker.All fun call => call.type ≠ msgSessionReady
  log : ReadyFirst s

theorem after_ne_entered (q : Enqueued) :
    (q.ret ≠ endpointOk ∧ Sending.after q = .refused q.ret q.result) ∨
      (q.ret = endpointOk ∧ Sending.after q = .queued q.result) := by
  unfold Sending.after
  split_ifs with h
  · exact .inl ⟨h, rfl⟩
  · exact .inr ⟨not_not.mp h, rfl⟩

theorem MainSound.main_step {b : Build} {s s' : Threads π} (hs : MainSound s) (h : MainMove b s s') :
    MainSound s' := by
  cases h with
  | idle => exact hs
  | retry _ _ _ hcommitted => exact ⟨nofun, nofun, fun _ _ => hcommitted, hs.published⟩
  | enter _ _ _ hcommitted => exact ⟨fun _ => hcommitted, nofun, nofun, hs.published⟩
  | enqueue hm =>
    refine ⟨fun _ => hs.sending (by rw [hm]; trivial), fun ret result hret => ?_, nofun,
      hs.published⟩
    rcases after_ne_entered (s.cpu3.enqueue (sessionReadyCall s.cpu3)) with ⟨hne, ha⟩ | ⟨-, ha⟩
    · dsimp only at hret
      rw [ha] at hret
      cases hret
      exact hne
    · dsimp only at hret
      rw [ha] at hret
      cases hret
  | ring _ _ hm => exact ⟨fun _ => hs.sending (by rw [hm]; trivial), nofun, nofun, hs.published⟩
  | @refused ret result hm =>
    have hne := hs.refused _ _ hm
    obtain ⟨hp, hc⟩ := recordTxFull_flags s.cpu3 result
    rw [if_pos hne]
    exact ⟨nofun, nofun, nofun, fun h => hc.trans (hs.published (hp.symm.trans h))⟩
  | sent hm => exact ⟨nofun, nofun, nofun, hs.published⟩
  | setCommitted hm => exact ⟨nofun, nofun, fun _ _ => rfl, fun _ => rfl⟩
  | @setPublished n hm => exact ⟨nofun, nofun, nofun, fun _ => hs.marked n (.inl hm)⟩
  | retryRing _ _ hm =>
    exact ⟨nofun, nofun, fun _ _ => hs.marked 0 (.inr (.inl hm)), hs.published⟩
  | @retryPublish n hm =>
    have hcommitted := hs.marked n (.inr (.inr hm))
    refine ⟨nofun, nofun, nofun, fun _ => ?_⟩
    dsimp only
    split_ifs
    · exact hcommitted
    · exact hcommitted

theorem ReadyFirst.congr {s s' : Threads π} (hs : ReadyFirst s) (hlog : s'.log = s.log)
    (hready : s'.Ready ↔ s.Ready) : ReadyFirst s' := by
  refine ⟨fun h => ?_, fun h => ?_⟩
  · rw [hlog]
    exact hs.before fun hr => h (hready.mpr hr)
  · rw [hlog]
    exact hs.after (hready.mp h)

theorem ReadyFirst.main_step {b : Build} {s s' : Threads π} (hs : ReadyFirst s) (hm : MainSound s)
    (h : MainMove b s s') : ReadyFirst s' := by
  cases h with
  | idle => exact hs
  | retry _ _ _ hcommitted =>
    exact hs.congr rfl (iff_of_true (.inl hcommitted) (.inl hcommitted))
  | enter hmain =>
    refine hs.congr rfl (or_congr Iff.rfl (iff_of_false nofun ?_))
    rw [hmain]
    nofun
  | enqueue hmain =>
    have hcommitted : s.cpu3.sessionReadyCommitted = false := hm.sending (by rw [hmain]; trivial)
    -- while the main thread sends, SESSION_READY is not out and so nothing else is
    have hlog : s.log = [] :=
      hs.before (by simp [Threads.Ready, hcommitted, hmain, MainThread.Queued])
    rcases after_ne_entered (s.cpu3.enqueue (sessionReadyCall s.cpu3)) with ⟨hret, ha⟩ | ⟨hret, ha⟩
    · refine ⟨fun _ => ?_, fun h => ?_⟩
      · simp [hlog, logged, hret]
      · simp [Threads.Ready, State.queued, hcommitted, ha, MainThread.Queued] at h
    · refine ⟨fun h => ?_, fun _ => ⟨sessionReadyCall s.cpu3, [], ?_, rfl, nofun⟩⟩
      · exact absurd (.inr (by rw [ha]; trivial)) h
      · simp [hlog, logged, hret]
  | ring _ _ hmain =>
    refine hs.congr (List.append_nil _) (iff_of_true (.inr trivial) (.inr ?_))
    rw [hmain]
    trivial
  | @refused ret result hmain =>
    -- refused: the flag stays down and the next pass tries again
    have hne := hm.refused _ _ hmain
    rw [if_pos hne]
    refine hs.congr rfl (or_congr ?_ (iff_of_false nofun ?_))
    · rw [(recordTxFull_flags s.cpu3 result).2]
    · rw [hmain]
      nofun
  | sent hmain =>
    refine hs.congr rfl (iff_of_true (.inr trivial) (.inr ?_))
    rw [hmain]
    trivial
  | setCommitted hmain =>
    refine hs.congr rfl (iff_of_true (.inl rfl) (.inr ?_))
    rw [hmain]
    trivial
  | @setPublished n hmain =>
    have hcommitted := hm.marked n (.inl hmain)
    exact hs.congr rfl (iff_of_true (.inl hcommitted) (.inl hcommitted))
  | retryRing _ _ hmain =>
    have hcommitted := hm.marked 0 (.inr (.inl hmain))
    exact hs.congr rfl (iff_of_true (.inl hcommitted) (.inl hcommitted))
  | @retryPublish n hmain =>
    have hcommitted := hm.marked n (.inr (.inr hmain))
    refine hs.congr rfl (iff_of_true (.inl ?_) (.inl hcommitted))
    dsimp only
    split_ifs
    · exact hcommitted
    · exact hcommitted

theorem WorkerMove.log {b : Build} {bk : Backend π} {s s' : Threads π} (h : WorkerMove b bk s s')
    {P : Call → Prop} (hcalls : s.worker.All P) :
    s'.log = s.log ∨ ∃ call n, s'.log = s.log ++ [⟨call, some n⟩] ∧ P call ∧ s.worker.InService := by
  cases h with
  | @enqueue pending refused stop call next hw =>
    rw [hw] at hcalls
    dsimp only [logged]
    split_ifs with hret
    · refine .inr ⟨call, _, rfl, hcalls.1, ?_⟩
      rw [hw]
      trivial
    · exact .inl (List.append_nil _)
  | ring => exact .inl (List.append_nil _)
  | _ => exact .inl rfl

theorem WorkerMove.calls {b : Build} {bk : Backend π} {s s' : Threads π} (h : WorkerMove b bk s s')
    {P : Call → Prop} (hreply : ∀ p ret request c, (replyScript b bk p ret request c).2.All P)
    (hs : s.worker.All P) : s'.worker.All P := by
  cases h with
  | receive p => exact hreply p _ _ _
  | swap =>
    dsimp only
    split_ifs <;> trivial
  | enter hw | enqueue hw | ring _ _ hw =>
    rw [hw] at hs
    exact hs
  | refused hw | sent hw =>
    rw [hw] at hs
    exact hs.2 _
  | _ => trivial

theorem ProducerInv.worker_step {b : Build} {bk : Backend π} {s s' : Threads π}
    (hskip : b.skipSessionReady = false) (hs : ProducerInv b s) (hexclusive : Exclusive b s')
    (h : WorkerMove b bk s s') : ProducerInv b s' := by
  obtain ⟨hmain, hpublished, hcommitted⟩ := h.flags
  refine ⟨hexclusive, ?_, h.calls (replyScript_all b bk) hs.calls, ?_⟩
  · refine ⟨?_, ?_, ?_, ?_⟩
    · rw [hmain, hcommitted]
      exact hs.main.sending
    · rw [hmain]
      exact hs.main.refused
    · rw [hmain, hcommitted]
      exact hs.main.marked
    · rw [hpublished, hcommitted]
      exact hs.main.published
  · have hready : s'.Ready ↔ s.Ready := by rw [Threads.Ready, Threads.Ready, hmain, hcommitted]
    rcases h.log hs.calls with hlog | ⟨call, n, hlog, hcall, hservice⟩
    · exact hs.log.congr hlog hready
    · -- the worker sends only behind SESSION_READY
      have hflag : s.cpu3.sessionReadyPublished = true :=
        (hs.exclusive.worker hservice).resolve_left (by rw [hskip]; nofun)
      have hcommit := hs.main.published hflag
      obtain ⟨ready, rest, hfirst, htype, hrest⟩ := hs.log.after (.inl hcommit)
      refine ⟨fun hno => absurd (hready.mpr (.inl hcommit)) hno,
        fun _ => ⟨ready, rest ++ [⟨call, some n⟩], ?_, htype, fun e he => ?_⟩⟩
      · rw [hlog, hfirst]
        rfl
      · rcases List.mem_append.mp he with he | he
        · exact hrest e he
        · rw [List.mem_singleton.mp he]
          exact ⟨nofun, hcall⟩

theorem ProducerInv.step {b : Build} {bk : Backend π} {s s' : Threads π} {a : ThreadAct}
    (hskip : b.skipSessionReady = false) (hs : ProducerInv b s) (h : ThreadStep b bk s a s') :
    ProducerInv b s' := by
  have hexclusive := hs.exclusive.step h
  cases a with
  | main a =>
    have hmove := mainStep_move h
    refine ⟨hexclusive, hs.main.main_step hmove, ?_, hs.log.main_step hs.main hmove⟩
    cases hmove <;> exact hs.calls
  | worker a => exact hs.worker_step hskip hexclusive (workerStep_move h)
  | isr p | popped p | requests rings =>
    cases h
    exact ⟨hexclusive, ⟨hs.main.sending, hs.main.refused, hs.main.marked, hs.main.published⟩,
      hs.calls, hs.log.congr rfl Iff.rfl⟩

theorem Threads.Booted.producerInv {b : Build} {s : Threads π} (h : s.Booted) :
    ProducerInv b s := by
  obtain ⟨shared, b2a, ready, peripherals, hcpu3⟩ := h.cpu3
  have hpublished : s.cpu3.sessionReadyPublished = false := by rw [hcpu3]; rfl
  have hcommitted : s.cpu3.sessionReadyCommitted = false := by rw [hcpu3]; rfl
  have hready : ¬ s.Ready := by simp [Threads.Ready, hcommitted, h.main, MainThread.Queued]
  refine ⟨h.exclusive, ⟨?_, ?_, ?_, ?_⟩, ?_, ⟨fun _ => h.log, fun hr => absurd hr hready⟩⟩
  · exact fun _ => hcommitted
  · rw [h.main]
    nofun
  · rw [h.main]
    nofun
  · rw [hpublished]
    nofun
  · rw [h.worker]
    trivial

theorem looping_of_published {b : Build} {bk : Backend π} {s t : Threads π} {acts : List ThreadAct}
    (hs : Exclusive b s) (hpublished : s.cpu3.sessionReadyPublished = true)
    (h : Trace (ThreadStep b bk) s acts t) : t.main = .looping := by
  have hlooping : ∀ s : Threads π, Exclusive b s ∧ s.cpu3.sessionReadyPublished = true →
      s.main = .looping := by
    rintro s ⟨hs, hp⟩
    by_contra hm
    rw [(hs.main hm).2] at hp
    cases hp
  refine hlooping t (h.invariant (I := fun s => Exclusive b s ∧
    s.cpu3.sessionReadyPublished = true) ?_ ⟨hs, hpublished⟩)
  rintro s a s' ⟨hs, hp⟩ hstep
  refine ⟨hs.step hstep, ?_⟩
  cases a with
  | worker a => exact (workerStep_move hstep).flags.2.1.trans hp
  | isr p | popped p | requests rings =>
    cases hstep
    exact hp
  | main a =>
    have hmain := hlooping s ⟨hs, hp⟩
    cases mainStep_move hstep with
    | idle => exact hp
    | retry _ _ hfalse | enter _ _ hfalse =>
      rw [hfalse] at hp
      cases hp
    | enqueue hm | ring _ _ hm | refused hm | sent hm | setCommitted hm | setPublished hm
    | retryRing _ _ hm | retryPublish hm =>
      rw [hm] at hmain
      cases hmain

theorem ReadyFirst.filter_length {s : Threads π} (h : ReadyFirst s) :
    (s.log.filter fun e => e.call.type = msgSessionReady).length ≤ 1 := by
  by_cases hready : s.Ready
  · obtain ⟨call, rest, hlog, htype, hrest⟩ := h.after hready
    have hnone : (rest.filter fun e => e.call.type = msgSessionReady) = [] := by
      refine List.filter_eq_nil_iff.mpr fun e he => ?_
      simpa using (hrest e he).2
    rw [hlog, List.filter_cons, hnone]
    split_ifs <;> simp
  · rw [h.before hready]
    exact Nat.zero_le 1

theorem ReadyFirst.head {s : Threads π} (h : ReadyFirst s) :
    ∀ e ∈ s.log.head?, e.author = none ∧ e.call.type = msgSessionReady := by
  intro e he
  by_cases hready : s.Ready
  · obtain ⟨call, rest, hlog, htype, -⟩ := h.after hready
    rw [hlog] at he
    cases he
    exact ⟨rfl, htype⟩
  · rw [h.before hready] at he
    cases he

/-- The two threads are never both in `mailmsg_endpoint_send`, SESSION_READY is committed at most
once and before anything else, and once it is published the main thread does not send. -/
theorem cpu3_single_producer {b : Build} {bk : Backend π} (hskip : b.skipSessionReady = false)
    {s₀ s : Threads π} {acts : List ThreadAct} (h₀ : s₀.Booted)
    (h : Trace (ThreadStep b bk) s₀ acts s) :
    ¬ (s.main.InSend ∧ s.worker.InSend) ∧
      (s.log.filter fun e => e.call.type = msgSessionReady).length ≤ 1 ∧
      (∀ e ∈ s.log.head?, e.author = none ∧ e.call.type = msgSessionReady) ∧
      (s.cpu3.sessionReadyPublished = true →
        ∀ acts' t, Trace (ThreadStep b bk) s acts' t → ¬ t.main.InSend) := by
  have hinv : ProducerInv b s :=
    h.invariant (fun _ _ _ hs hstep => hs.step hskip hstep) h₀.producerInv
  refine ⟨?_, hinv.log.filter_length, hinv.log.head, ?_⟩
  · rintro ⟨hmain, hworker⟩
    rw [hinv.exclusive.main_looping hworker.inService] at hmain
    exact hmain
  · intro hpublished acts' t htrace hmain
    rw [looping_of_published hinv.exclusive hpublished htrace] at hmain
    exact hmain

/-- SESSION_READY, then the ACK and the PONG of a PING on p1. -/
theorem cpu3_single_producer_first_ping :
    ∃ s, Trace (ThreadStep image noPeripherals) bootedThreads
      (publishReady ++ serveFirst 1 [ping 1 7] ++ sendRoom [0, 1] notifySent ++
        sendRoom [0, 1] notifyCoalesced) s ∧
      s.log.map (·.call.type) = [msgSessionReady, msgAck, msgPong] ∧ ¬ s.main.InSend := by
  obtain ⟨s, htrace, htest⟩ := Trace.exists_of_foldlM (Threads.step image noPeripherals)
    bootedThreads (publishReady ++ serveFirst 1 [ping 1 7] ++ sendRoom [0, 1] notifySent ++
      sendRoom [0, 1] notifyCoalesced)
    (fun s => decide (s.log.map (·.call.type) = [msgSessionReady, msgAck, msgPong] ∧
      s.cpu3.sessionReadyPublished = true)) (by decide +kernel)
  obtain ⟨hlog, hpublished⟩ := of_decide_eq_true htest
  exact ⟨s, htrace, hlog, (cpu3_single_producer rfl bootedThreads_booted htrace).2.2.2 hpublished
    [] s (.nil s)⟩

end Lzamp.Cpu3
