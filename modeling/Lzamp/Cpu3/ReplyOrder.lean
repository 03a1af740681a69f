import Lzamp.Cpu3.SingleProducer

namespace Lzamp.Cpu3
open Mailmsg Lib

variable {π : Type}

/-- ACK, NACK, STOP_READY and STOP_REFUSED. -/
def IsFeedback (type : U32) : Prop :=
  type = msgAck ∨ type = msgNack ∨ type = msgStopReady ∨ type = msgStopRefused

/-- PONG, NOP, GPIO_READ_RESULT and PERIPHERAL_RESULT. -/
def IsAnswer (type : U32) : Prop :=
  type = msgPong ∨ type = msgNop ∨ type = msgGpioReadResult ∨ type = msgPeripheralResult

instance (type : U32) : Decidable (IsFeedback type) := inferInstanceAs (Decidable (_ ∨ _))

instance (type : U32) : Decidable (IsAnswer type) := inferInstanceAs (Decidable (_ ∨ _))

theorem IsAnswer.not_feedback {type : U32} (h : IsAnswer type) : ¬ IsFeedback type := by
  rcases h with rfl | rfl | rfl | rfl <;> decide

/-- The frames committed for the `n`th receipt. -/
def repliesTo (log : List Pushed) (n : ℕ) : List Pushed := log.filter fun e => e.author = some n

def ringLog (log : List Pushed) (p : Priority) : List Pushed :=
  log.filter fun e => e.call.priority = p

/-- A feedback call for a receipt; ACK and NACK only where they are promised. -/
structure FeedbackFor (r : Receipt) (call : Call) : Prop where
  priority : call.priority = r.priority
  type : IsFeedback call.type
  payload : ∃ status, call.payload = feedback r.message.sequence status
  reliable : call.type = msgAck ∨ call.type = msgNack → priorityIsReliable r.priority = true

structure AnswerFor (r : Receipt) (call : Call) : Prop where
  priority : call.priority = r.priority
  type : IsAnswer call.type

/-- Nothing more is sent. -/
def Script.Over : Script → Prop
  | .done | .off => True
  | .send .. => False

/-- At most the answer is still to come. -/
def Script.Last (r : Receipt) : Script → Prop
  | .done | .off => True
  | .send call _ next => AnswerFor r call ∧ ∀ sent, (next sent).Over

/-- Nothing has been sent for `r`. -/
def Script.Fresh (r : Receipt) : Script → Prop
  | .done | .off => True
  | .send call _ next =>
    (AnswerFor r call ∧ priorityIsReliable r.priority = false ∧ ∀ sent, (next sent).Over) ∨
    (FeedbackFor r call ∧ call.type ≠ msgAck ∧ ∀ sent, (next sent).Over) ∨
    (FeedbackFor r call ∧ call.type = msgAck ∧ ∀ sent, (next sent).Last r)

section Fresh

variable {r : Receipt}

theorem feedbackFor {type : U32} (htype : IsFeedback type) (status : U32)
    (hreliable : type = msgAck ∨ type = msgNack → priorityIsReliable r.priority = true) :
    FeedbackFor r (feedbackCall r.priority type r.message.sequence status) :=
  ⟨rfl, htype, ⟨status, rfl⟩, hreliable⟩

theorem nackScript_fresh (reason : U32) :
    (nackScript r.priority r.message.sequence reason).Fresh r := by
  unfold nackScript
  split_ifs with hreliable
  · exact .inr (.inl ⟨feedbackFor (by decide) reason fun _ => hreliable,
      (by decide : msgNack ≠ msgAck), fun _ => trivial⟩)
  · trivial

theorem resultScript_fresh (hreliable : priorityIsReliable r.priority = true) {result : Call}
    (h : AnswerFor r result) :
    (resultScript r.priority r.message.sequence result).Fresh r := by
  refine .inr (.inr ⟨feedbackFor (by decide) 0 fun _ => hreliable, rfl, fun sent => ?_⟩)
  cases sent with
  | false => trivial
  | true => exact ⟨h, fun _ => trivial⟩

theorem otherScript_fresh : (otherScript r.priority r.message).Fresh r := by
  have hpong : AnswerFor r (pongCall r.priority r.message) := by
    refine ⟨rfl, ?_⟩
    unfold pongCall
    dsimp only
    split_ifs
    · decide
    · decide
  unfold otherScript
  dsimp only
  split_ifs with hreliable
  · exact .inr (.inr ⟨feedbackFor (by decide) 0 fun _ => hreliable, rfl,
      fun _ => ⟨hpong, fun _ => trivial⟩⟩)
  · exact .inl ⟨hpong, Bool.eq_false_iff.mpr hreliable, fun _ => trivial⟩

theorem stopScript_fresh (b : Build) (hp : r.priority = prioCritical) :
    (stopScript b r.message).Fresh r := by
  have hstop : ∀ {type : U32} (status : U32) {next : Bool → Script}, IsFeedback type →
      type ≠ msgAck → type ≠ msgNack → (∀ sent, (next sent).Over) →
      (Script.send (feedbackCall prioCritical type r.message.sequence status) true next).Fresh r := by
    intro type status next htype hack hnack hover
    rw [← hp]
    refine .inr (.inl ⟨feedbackFor htype status ?_, hack, hover⟩)
    exact fun h => h.elim (absurd · hack) (absurd · hnack)
  unfold stopScript
  split_ifs
  · exact hstop _ (by decide) (by decide) (by decide) fun _ => trivial
  · refine hstop _ (by decide) (by decide) (by decide) fun sent => ?_
    cases sent with
    | false => trivial
    | true => trivial
  · exact hstop _ (by decide) (by decide) (by decide) fun _ => trivial

end Fresh

theorem replyScript_fresh (b : Build) (bk : Backend π) (p : Priority) (ret : Int)
    (request : Message) (c : State π) :
    (replyScript b bk p ret request c).2.Fresh ⟨p, ret, request⟩ := by
  have hnack : ∀ reason, (nackScript p request.sequence reason).Fresh ⟨p, ret, request⟩ :=
    fun reason => nackScript_fresh (r := ⟨p, ret, request⟩) reason
  have hresult : ∀ result : Call, p = prioControl → AnswerFor ⟨p, ret, request⟩ result →
      (resultScript p request.sequence result).Fresh ⟨p, ret, request⟩ := by
    rintro result rfl h
    exact resultScript_fresh (r := ⟨prioControl, ret, request⟩)
      (by decide : priorityIsReliable prioControl = true) h
  unfold replyScript
  split_ifs with hok hbad hbad'
  · unfold requestScript peripheralScript gpioReadScript
    dsimp only
    split_ifs with hstop hself hperipheral hp hgpio hg
    · exact stopScript_fresh b hstop.1
    · trivial
    · exact hnack _
    · rw [not_or, not_not] at hp
      dsimp only
      split
      · exact hnack _
      · exact hresult _ hp.1 ⟨rfl, (by decide : IsAnswer msgPeripheralResult)⟩
    · exact hnack _
    · rw [not_or, not_not] at hg
      dsimp only
      split
      · have hreliable : priorityIsReliable p = true := by
          rw [hg.1]
          decide
        exact .inr (.inl ⟨feedbackFor (r := ⟨p, ret, request⟩) (by decide) _ fun _ => hreliable,
          (by decide : msgNack ≠ msgAck), fun _ => trivial⟩)
      · exact hresult _ hg.1 ⟨rfl, (by decide : IsAnswer msgGpioReadResult)⟩
    · exact otherScript_fresh (r := ⟨p, ret, request⟩)
  · exact hnack _
  · exact hnack _
  · trivial

/-- A frame sent on `p` would be queued. -/
def State.Room (c : State π) (p : Priority) : Prop :=
  endpointSessionValid c.endpoint c.shared = endpointOk ∧
    next (c.shared.cpu3ToLinux p).producer ≠ (c.shared.cpu3ToLinux p).consumer

theorem room_of_enqueue {c : State π} {call : Call} (hplays : c.endpoint.Plays .cpu3)
    (h : (c.enqueue call).ret = endpointOk) : c.Room call.priority := by
  rcases endpointEnqueue_cases c.endpoint c.shared call.priority call.type (some call.payload)
    (BitVec.ofNat 32 call.payload.length) SendResult.zero with hq | ⟨role, hp, hq⟩
  · exact absurd h hq.ret
  · obtain rfl := hplays.eq_of_some hq.role_eq
    exact ⟨hq.session, hq.room⟩

theorem enqueue_of_room {c : State π} {call : Call} (hplays : c.endpoint.Plays .cpu3)
    (hlength : call.payload.length ≤ 28) (h : c.Room call.priority) :
    (c.enqueue call).ret = endpointOk := by
  have hrole : c.endpoint.role = some .cpu3 :=
    hplays.resolve_left (endpointSessionValid_ok.mp h.1).1
  have hle : BitVec.ofNat 32 call.payload.length ≤ 28#32 := by
    rw [BitVec.le_def, BitVec.toNat_ofNat, BitVec.toNat_ofNat]
    omega
  exact (endpointEnqueue_ok_iff hrole h.1 call.priority call.type (some call.payload) _ hle
    (.inr nofun) SendResult.zero).mpr h.2

theorem room_congr {c c' : State π} {p : Priority}
    (hidentity : c'.endpoint.identity = c.endpoint.identity)
    (hheader : c'.shared.header = c.shared.header)
    (hring : c'.shared.cpu3ToLinux p = c.shared.cpu3ToLinux p) : c'.Room p ↔ c.Room p := by
  rw [State.Room, State.Room, endpointSessionValid_congr hidentity hheader, hring]

/-- Nothing was committed for the last receipt. -/
def Threads.Fresh (s : Threads π) (script : Script) : Prop :=
  ∃ r, s.received.getLast? = some r ∧ repliesTo s.log (s.received.length - 1) = [] ∧ script.Fresh r

/-- Its ACK is the last frame committed to its ring. -/
def Threads.Acked (s : Threads π) (script : Script) : Prop :=
  ∃ r a, s.received.getLast? = some r ∧ script.Last r ∧
    repliesTo s.log (s.received.length - 1) = [a] ∧ a.call.type = msgAck ∧
    (ringLog s.log r.priority).getLast? = some a

/-- Its ACK was refused, and in a patient run there is still no room. -/
def Threads.Unacked (patient : Prop) (s : Threads π) (script : Script) : Prop :=
  ∃ r, s.received.getLast? = some r ∧ script.Last r ∧
    repliesTo s.log (s.received.length - 1) = [] ∧ (patient → ¬ s.cpu3.Room r.priority)

def Threads.Progress (patient : Prop) (s : Threads π) : Bool → Script → Prop
  | false, script => script.Over ∨ s.Fresh script ∨ s.Acked script
  | true, script => script.Over ∨ s.Unacked patient script

def Threads.Standing (patient : Prop) (s : Threads π) : WorkerThread → Prop
  | .replying _ refused script => s.Progress patient refused script
  | .sending _ refused call stop next .entered => s.Progress patient refused (.send call stop next)
  | .sending _ _ _ _ next (.refused ret _) =>
    ret ≠ endpointOk ∧ s.Progress patient true (next false)
  | .sending _ refused _ _ next (.queued _) | .sending _ refused _ _ next (.rung _) =>
    ∀ sent, (next sent).Over ∨ (refused = false ∧ s.Acked (next sent))
  | _ => True

/-- The answers of a ring each stand right behind the ACK of the same receipt. -/
def Ordered (es : List Pushed) : Prop :=
  ∀ pre e post, es = pre ++ e :: post → IsAnswer e.call.type →
    ∃ pre' a, pre = pre' ++ [a] ∧ a.author = e.author ∧ a.call.type = msgAck

/-- Nothing, one frame, or an ACK and an answer. -/
def WellAnswered (es : List Pushed) : Prop :=
  es = [] ∨ (∃ e, es = [e]) ∨ ∃ a e, es = [a, e] ∧ a.call.type = msgAck ∧ IsAnswer e.call.type

structure LogInv (patient : Prop) (s : Threads π) : Prop where
  main : ∀ e ∈ s.log, e.author = none →
    e.call.priority = prioCritical ∧ e.call.type = msgSessionReady
  worker : ∀ e ∈ s.log, ∀ n, e.author = some n →
    ∃ r, s.received[n]? = some r ∧ (FeedbackFor r e.call ∨ AnswerFor r e.call)
  shape : ∀ n, WellAnswered (repliesTo s.log n)
  ordered : patient → ∀ p, priorityIsReliable p = true → Ordered (ringLog s.log p)

/-- The invariant of the worker's replies.  What it says about their order is for the runs in which
Linux is `patient`, and the rest for every run. -/
structure OrderInv (patient : Prop) (b : Build) (s : Threads π) : Prop where
  exclusive : Exclusive b s
  plays : s.cpu3.endpoint.Plays .cpu3
  log : LogInv patient s
  standing : s.Standing patient s.worker

variable {patient : Prop}

theorem repliesTo_append_self (log : List Pushed) (call : Call) (n : ℕ) :
    repliesTo (log ++ [⟨call, some n⟩]) n = repliesTo log n ++ [⟨call, some n⟩] := by
  simp [repliesTo, List.filter_append]

theorem repliesTo_append_of_ne (log : List Pushed) {e : Pushed} {n : ℕ} (h : e.author ≠ some n) :
    repliesTo (log ++ [e]) n = repliesTo log n := by
  simp [repliesTo, List.filter_append, h]

theorem ringLog_append_self (log : List Pushed) (e : Pushed) :
    ringLog (log ++ [e]) e.call.priority = ringLog log e.call.priority ++ [e] := by
  simp [ringLog, List.filter_append]

theorem ringLog_append_of_ne (log : List Pushed) {e : Pushed} {p : Priority}
    (h : e.call.priority ≠ p) : ringLog (log ++ [e]) p = ringLog log p := by
  simp [ringLog, List.filter_append, h]

theorem Ordered.append {es : List Pushed} (h : Ordered es) {e : Pushed}
    (he : IsAnswer e.call.type →
      ∃ a, es.getLast? = some a ∧ a.author = e.author ∧ a.call.type = msgAck) :
    Ordered (es ++ [e]) := by
  intro pre x post heq hx
  rcases List.eq_nil_or_concat' post with rfl | ⟨post', y, rfl⟩
  · -- the new frame itself
    obtain ⟨rfl, hxe⟩ := List.append_inj' heq rfl
    cases hxe
    obtain ⟨a, hlast, hauthor, hack⟩ := he hx
    obtain ⟨pre', rfl⟩ := List.getLast?_eq_some_iff.mp hlast
    exact ⟨pre', a, rfl, hauthor, hack⟩
  · rw [← List.cons_append, ← List.append_assoc] at heq
    exact h pre x post' (List.append_inj' heq rfl).1 hx

theorem LogInv.received_append {s s' : Threads π} (h : LogInv patient s) (hlog : s'.log = s.log)
    {rs : List Receipt} (hreceived : s'.received = s.received ++ rs) : LogInv patient s' := by
  refine ⟨?_, ?_, ?_, ?_⟩
  · rw [hlog]
    exact h.main
  · rw [hlog, hreceived]
    intro e he n hn
    obtain ⟨r, hr, hcall⟩ := h.worker e he n hn
    exact ⟨r, List.getElem?_append_left (List.getElem?_eq_some_iff.mp hr).1 ▸ hr, hcall⟩
  · rw [hlog]
    exact h.shape
  · rw [hlog]
    exact h.ordered

theorem LogInv.congr {s s' : Threads π} (h : LogInv patient s) (hlog : s'.log = s.log)
    (hreceived : s'.received = s.received) : LogInv patient s' :=
  h.received_append hlog (hreceived.trans (List.append_nil _).symm)

theorem LogInv.push {s s' : Threads π} (h : LogInv patient s) {r : Receipt} {call : Call}
    (hr : s.received.getLast? = some r) (hcall : FeedbackFor r call ∨ AnswerFor r call)
    (hlog : s'.log = s.log ++ [⟨call, some (s.received.length - 1)⟩])
    (hreceived : s'.received = s.received)
    (hshape : WellAnswered (repliesTo s.log (s.received.length - 1) ++
      [⟨call, some (s.received.length - 1)⟩]))
    (hordered : patient → IsAnswer call.type → priorityIsReliable r.priority = true →
      ∃ a, (ringLog s.log r.priority).getLast? = some a ∧
        a.author = some (s.received.length - 1) ∧ a.call.type = msgAck) : LogInv patient s' := by
  have hpriority : call.priority = r.priority := hcall.elim (·.priority) (·.priority)
  refine ⟨?_, ?_, ?_, ?_⟩
  · rw [hlog]
    intro e he hauthor
    rcases List.mem_append.mp he with he | he
    · exact h.main e he hauthor
    · rw [List.mem_singleton.mp he] at hauthor
      cases hauthor
  · rw [hlog, hreceived]
    intro e he n hn
    rcases List.mem_append.mp he with he | he
    · exact h.worker e he n hn
    · rw [List.mem_singleton.mp he] at hn ⊢
      cases hn
      exact ⟨r, List.getLast?_eq_getElem? ▸ hr, hcall⟩
  · rw [hlog]
    intro n
    by_cases hn : s.received.length - 1 = n
    · rw [← hn, repliesTo_append_self]
      exact hshape
    · rw [repliesTo_append_of_ne _ fun he => hn (Option.some.inj he)]
      exact h.shape n
  · rw [hlog]
    intro hpatient p hp
    by_cases hpp : call.priority = p
    · subst hpp
      rw [ringLog_append_self s.log ⟨call, some (s.received.length - 1)⟩]
      refine (h.ordered hpatient _ hp).append fun hanswer => ?_
      dsimp only at hanswer ⊢
      rw [hpriority] at hp ⊢
      exact hordered hpatient hanswer hp
    · rw [ringLog_append_of_ne _ hpp]
      exact h.ordered hpatient p hp

theorem enqueue_identity (c : State π) (call : Call) :
    (c.enqueue call).endpoint.identity = c.endpoint.identity := by
  rcases endpointEnqueue_cases c.endpoint c.shared call.priority call.type (some call.payload)
    (BitVec.ofNat 32 call.payload.length) SendResult.zero with hq | ⟨role, hp, hq⟩
  · exact hq.identity
  · exact hq.identity

theorem length_feedback (sequence status : U32) : (feedback sequence status).length = 8 := rfl

theorem Threads.Progress.congr {s s' : Threads π} {refused : Bool} {script : Script}
    (h : s.Progress patient refused script) (hreceived : s'.received = s.received)
    (hlog : s'.log = s.log)
    (hroom : refused = true → ∀ r, script.Last r → (patient → ¬ s.cpu3.Room r.priority) →
      script.Over ∨ (patient → ¬ s'.cpu3.Room r.priority)) : s'.Progress patient refused script := by
  cases refused with
  | false =>
    rcases h with h | ⟨r, hr, hnone, hfresh⟩ | ⟨r, a, hr, hlast, hreplies, hack, hring⟩
    · exact .inl h
    · exact .inr (.inl ⟨r, by rw [hreceived, hr], by rw [hreceived, hlog, hnone], hfresh⟩)
    · exact .inr (.inr ⟨r, a, by rw [hreceived, hr], hlast, by rw [hreceived, hlog, hreplies], hack,
        by rw [hlog, hring]⟩)
  | true =>
    rcases h with h | ⟨r, hr, hlast, hnone, hno⟩
    · exact .inl h
    · exact (hroom rfl r hlast hno).imp id fun hno' =>
        ⟨r, by rw [hreceived, hr], hlast, by rw [hreceived, hlog, hnone], hno'⟩

theorem Threads.Acked.congr {s s' : Threads π} {script : Script} (h : s.Acked script)
    (hreceived : s'.received = s.received) (hlog : s'.log = s.log) : s'.Acked script := by
  obtain ⟨r, a, hr, hlast, hreplies, hack, hring⟩ := h
  exact ⟨r, a, by rw [hreceived, hr], hlast, by rw [hreceived, hlog, hreplies], hack,
    by rw [hlog, hring]⟩

theorem Threads.Standing.congr {s s' : Threads π} {w : WorkerThread} (h : s.Standing patient w)
    (hreceived : s'.received = s.received) (hlog : s'.log = s.log)
    (hroom : ∀ p, s'.cpu3.Room p ↔ s.cpu3.Room p) : s'.Standing patient w := by
  have hmoved : ∀ {refused : Bool} {script : Script}, s.Progress patient refused script →
      s'.Progress patient refused script :=
    fun hp => hp.congr hreceived hlog fun _ r _ hno =>
      .inr fun hpatient => mt (hroom r.priority).mp (hno hpatient)
  cases w with
  | waiting | taken | testing | serving | off => trivial
  | replying => exact hmoved h
  | sending pending refused call stop next pc =>
    cases pc with
    | entered => exact hmoved h
    | refused ret result => exact ⟨h.1, hmoved h.2⟩
    | queued result | rung result =>
      exact fun sent => (h sent).imp id fun h => ⟨h.1, h.2.congr hreceived hlog⟩

theorem OrderInv.accepted {b : Build} {s s' : Threads π} (hs : OrderInv patient b s) {pending : U32}
    {refused stop : Bool} {call : Call} {next : Bool → Script}
    (hw : s.worker = .sending pending refused call stop next .entered)
    (hret : (s.cpu3.enqueue call).ret = endpointOk)
    (hlog : s'.log = s.log ++ [⟨call, some (s.received.length - 1)⟩])
    (hreceived : s'.received = s.received) :
    LogInv patient s' ∧ ∀ sent, (next sent).Over ∨ (refused = false ∧ s'.Acked (next sent)) := by
  have hstanding : s.Progress patient refused (.send call stop next) := by
    have h := hs.standing
    rwa [hw] at h
  -- whether the ACK of this request has been refused for want of room
  cases refused with
  | false =>
    rcases hstanding with h | ⟨r, hr, hnone, hfresh⟩ | ⟨r, a, hr, hlast, hreplies, hack, hring⟩
    · exact h.elim
    · -- the first reply to this request: an unreliable answer, a feedback that is no ACK, an ACK
      have hone : WellAnswered (repliesTo s.log (s.received.length - 1) ++
          [⟨call, some (s.received.length - 1)⟩]) := by
        rw [hnone]
        exact .inr (.inl ⟨_, rfl⟩)
      rcases hfresh with ⟨hanswer, hunreliable, hover⟩ | ⟨hfeedback, -, hover⟩ |
        ⟨hfeedback, hack, hlast⟩
      · refine ⟨hs.log.push hr (.inr hanswer) hlog hreceived hone fun _ _ hp => ?_,
          fun sent => .inl (hover sent)⟩
        rw [hunreliable] at hp
        cases hp
      · exact ⟨hs.log.push hr (.inl hfeedback) hlog hreceived hone
          fun _ hanswer => absurd hfeedback.type hanswer.not_feedback, fun sent => .inl (hover sent)⟩
      · refine ⟨hs.log.push hr (.inl hfeedback) hlog hreceived hone
          fun _ hanswer => absurd hfeedback.type hanswer.not_feedback, fun sent => .inr ⟨rfl, ?_⟩⟩
        refine ⟨r, ⟨call, some (s.received.length - 1)⟩, by rw [hreceived, hr], hlast sent, ?_, hack,
          ?_⟩
        · rw [hreceived, hlog, repliesTo_append_self, hnone]
          rfl
        · rw [hlog, ← hfeedback.priority,
            ringLog_append_self s.log ⟨call, some (s.received.length - 1)⟩]
          exact List.getLast?_concat
    · -- the answer after its ACK, which is still the last entry of the ring's log
      obtain ⟨hanswer, hover⟩ := hlast
      have hauthor : a.author = some (s.received.length - 1) := by
        have hmem : a ∈ repliesTo s.log (s.received.length - 1) := by
          rw [hreplies]
          exact List.mem_singleton_self a
        simpa using (List.mem_filter.mp hmem).2
      refine ⟨hs.log.push hr (.inr hanswer) hlog hreceived ?_ fun _ _ _ => ⟨a, hring, hauthor, hack⟩,
        fun sent => .inl (hover sent)⟩
      rw [hreplies]
      exact .inr (.inr ⟨a, _, rfl, hack, hanswer.type⟩)
  | true =>
    rcases hstanding with h | ⟨r, hr, ⟨hanswer, hover⟩, hnone, hno⟩
    · exact h.elim
    · refine ⟨hs.log.push hr (.inr hanswer) hlog hreceived ?_ fun hpatient => ?_,
        fun sent => .inl (hover sent)⟩
      · rw [hnone]
        exact .inr (.inl ⟨_, rfl⟩)
      · -- the ACK was refused and nobody has made room since
        refine absurd ?_ (hno hpatient)
        rw [← hanswer.priority]
        exact room_of_enqueue hs.plays hret

theorem OrderInv.refused {b : Build} {s s' : Threads π} (hs : OrderInv patient b s) {pending : U32}
    {refused stop : Bool} {call : Call} {next : Bool → Script}
    (hw : s.worker = .sending pending refused call stop next .entered)
    (hret : (s.cpu3.enqueue call).ret ≠ endpointOk) (hlog : s'.log = s.log)
    (hreceived : s'.received = s.received)
    (hroom : ∀ p, s'.cpu3.Room p ↔ s.cpu3.Room p) : s'.Progress patient true (next false) := by
  have hstanding : s.Progress patient refused (.send call stop next) := by
    have h := hs.standing
    rwa [hw] at h
  cases refused with
  | false =>
    rcases hstanding with h | ⟨r, hr, hnone, hfresh⟩ | ⟨r, a, hr, hlast, -⟩
    · exact h.elim
    · rcases hfresh with ⟨-, -, hover⟩ | ⟨-, -, hover⟩ | ⟨hfeedback, hack, hlast⟩
      · exact .inl (hover false)
      · exact .inl (hover false)
      · refine .inr ⟨r, by rw [hreceived, hr], hlast false, by rw [hreceived, hlog, hnone], ?_⟩
        rw [hroom, ← hfeedback.priority]
        intro _ h
        obtain ⟨status, hpayload⟩ := hfeedback.payload
        refine hret (enqueue_of_room hs.plays ?_ h)
        rw [hpayload, length_feedback]
        decide
    · exact .inl (hlast.2 false)
  | true =>
    rcases hstanding with h | ⟨r, hr, hlast, -⟩
    · exact h.elim
    · exact .inl (hlast.2 false)

theorem replyScript_endpoint (b : Build) (bk : Backend π) (p : Priority) (ret : Int)
    (request : Message) (c : State π) :
    (replyScript b bk p ret request c).1.endpoint = c.endpoint := by
  unfold replyScript requestScript peripheralScript gpioReadScript
  dsimp only
  split_ifs <;> rfl

theorem recordTxFull_plane (c : State π) (result : SendResult) :
    (c.recordTxFull result).endpoint = c.endpoint ∧ (c.recordTxFull result).shared = c.shared := by
  unfold State.recordTxFull
  split_ifs <;> exact ⟨rfl, rfl⟩

theorem OrderInv.receive {b : Build} (bk : Backend π) {s : Threads π} (hs : OrderInv patient b s)
    (pending : U32) (p : Priority) (hexclusive : Exclusive b (s.receive b bk pending p)) :
    OrderInv patient b (s.receive b bk pending p) := by
  have hreceived : (s.receive b bk pending p).received = s.received ++
      [⟨p, (endpointReceive s.cpu3.endpoint s.cpu3.shared p Message.zero).ret,
        (endpointReceive s.cpu3.endpoint s.cpu3.shared p Message.zero).message⟩] := rfl
  refine ⟨hexclusive, ?_, hs.log.received_append rfl hreceived, .inr (.inl ⟨_, ?_, ?_,
    replyScript_fresh b bk p _ _ _⟩)⟩
  · refine hs.plays.of_identity ?_
    have hendpoint := replyScript_endpoint b bk p
      (endpointReceive s.cpu3.endpoint s.cpu3.shared p Message.zero).ret
      (endpointReceive s.cpu3.endpoint s.cpu3.shared p Message.zero).message
      (s.cpu3.received (endpointReceive s.cpu3.endpoint s.cpu3.shared p Message.zero))
    exact (congrArg Endpoint.identity hendpoint).trans (endpointReceive_identity _ _ _ _)
  · rw [hreceived]
    exact List.getLast?_concat
  · -- no frame was committed for a receipt that did not exist
    refine List.filter_eq_nil_iff.mpr fun e he hauthor => ?_
    obtain ⟨r, hr, -⟩ := hs.log.worker e he _ (of_decide_eq_true hauthor)
    have hlt := (List.getElem?_eq_some_iff.mp hr).1
    rw [hreceived, List.length_append, List.length_singleton] at hlt
    omega

theorem OrderInv.worker_step {b : Build} {bk : Backend π} {s s' : Threads π}
    (hs : OrderInv patient b s) (hexclusive : Exclusive b s') (h : WorkerMove b bk s s') :
    OrderInv patient b s' := by
  have hstanding := hs.standing
  cases h with
  | take | giveUp | serve | endPass | finish | off =>
    exact ⟨hexclusive, hs.plays, hs.log.congr rfl rfl, trivial⟩
  | swap =>
    refine ⟨hexclusive, hs.plays, hs.log.congr rfl rfl, ?_⟩
    dsimp only
    split_ifs <;> trivial
  | receive p => exact hs.receive bk _ p hexclusive
  | enter hw =>
    rw [hw] at hstanding
    exact ⟨hexclusive, hs.plays, hs.log.congr rfl rfl,
      Threads.Progress.congr hstanding rfl rfl fun _ _ _ hno => .inr hno⟩
  | @enqueue pending refused stop call next hw =>
    have hplays : (s.cpu3.enqueue call).endpoint.Plays .cpu3 :=
      hs.plays.of_identity (enqueue_identity s.cpu3 call)
    -- the push is where the log grows; everything later in the send only follows from its code
    rcases after_ne_entered (s.cpu3.enqueue call) with ⟨hret, hafter⟩ | ⟨hret, hafter⟩
    · obtain ⟨hlogged, hshared⟩ := enqueue_refused hret (some (s.received.length - 1))
      rw [hlogged, hafter, List.append_nil]
      refine ⟨by simpa only [hlogged, hafter, List.append_nil] using hexclusive, hplays,
        hs.log.congr rfl rfl, hret, hs.refused hw hret rfl rfl fun p => ?_⟩
      refine room_congr (enqueue_identity s.cpu3 call) ?_ ?_
      · exact congrArg Shared.header hshared
      · exact congrArg (fun sh => sh.cpu3ToLinux p) hshared
    · obtain ⟨hlogged, -⟩ := enqueue_accepted hs.plays hret (some (s.received.length - 1))
      rw [hlogged, hafter]
      let t : Threads π := { s with
        cpu3 := s.cpu3.queued (s.cpu3.enqueue call)
        worker := .sending pending refused call stop next (.queued (s.cpu3.enqueue call).result)
        log := s.log ++ [⟨call, some (s.received.length - 1)⟩] }
      have hqueued : LogInv patient t ∧ _ := hs.accepted hw hret rfl rfl
      obtain ⟨hlog, hnext⟩ := hqueued
      exact ⟨by simpa only [hlogged, hafter] using hexclusive, hplays, hlog, hnext⟩
  | ring _ _ hw =>
    rw [hw] at hstanding
    refine ⟨hexclusive, hs.plays, hs.log.congr (List.append_nil _) rfl, fun sent => ?_⟩
    exact (hstanding sent).imp id fun h => ⟨h.1, h.2.congr rfl (List.append_nil _)⟩
  | @refused pending refused stop call next ret result hw =>
    rw [hw] at hstanding
    obtain ⟨hret, hprogress⟩ := hstanding
    obtain ⟨hendpoint, hshared⟩ := recordTxFull_plane s.cpu3 result
    refine ⟨hexclusive, ?_, hs.log.congr rfl rfl, ?_⟩
    · exact hs.plays.of_identity (congrArg Endpoint.identity hendpoint)
    · -- a refused send is remembered, and counting it leaves the rings as they are
      have hfalse : delivered stop ret result = false := by simp [delivered, hret]
      have htrue : (refused || decide (ret ≠ endpointOk)) = true := by simp [hret]
      rw [hfalse, htrue]
      refine hprogress.congr rfl rfl fun _ r _ hno => .inr fun hpatient => ?_
      rw [room_congr (congrArg Endpoint.identity hendpoint) (congrArg Shared.header hshared)
        (congrArg (fun sh => sh.cpu3ToLinux r.priority) hshared)]
      exact hno hpatient
  | @sent pending refused stop call next result hw =>
    rw [hw] at hstanding
    refine ⟨hexclusive, hs.plays.of_identity rfl, hs.log.congr rfl rfl, ?_⟩
    have hsame : (refused || decide (endpointOk ≠ endpointOk)) = refused := by simp
    rw [hsame]
    rcases hstanding (delivered stop endpointOk result) with hover | ⟨rfl, hacked⟩
    · cases refused with
      | false => exact .inl hover
      | true => exact .inl hover
    · exact .inr (.inr (hacked.congr rfl rfl))

theorem MainMove.frame {b : Build} {s s' : Threads π} (h : MainMove b s s') :
    s'.received = s.received ∧ s'.worker = s.worker ∧
      s'.cpu3.endpoint.identity = s.cpu3.endpoint.identity := by
  cases h with
  | enqueue => exact ⟨rfl, rfl, enqueue_identity _ _⟩
  | @refused _ result =>
    exact ⟨rfl, rfl, congrArg Endpoint.identity (recordTxFull_plane s.cpu3 result).1⟩
  | retryPublish =>
    refine ⟨rfl, rfl, ?_⟩
    dsimp only
    split_ifs <;> rfl
  | _ => exact ⟨rfl, rfl, rfl⟩

theorem MainMove.log {b : Build} {s s' : Threads π} (h : MainMove b s s') :
    s'.log = s.log ∨ ∃ call, s'.log = s.log ++ [⟨call, none⟩] ∧ call.priority = prioCritical ∧
      call.type = msgSessionReady := by
  cases h with
  | enqueue =>
    dsimp only [logged]
    split_ifs
    · exact .inr ⟨_, rfl, rfl, rfl⟩
    · exact .inl (List.append_nil _)
  | ring => exact .inl (List.append_nil _)
  | _ => exact .inl rfl

theorem LogInv.push_main {s s' : Threads π} (h : LogInv patient s) {call : Call}
    (hpriority : call.priority = prioCritical) (htype : call.type = msgSessionReady)
    (hlog : s'.log = s.log ++ [⟨call, none⟩]) (hreceived : s'.received = s.received) :
    LogInv patient s' := by
  refine ⟨?_, ?_, ?_, ?_⟩
  · rw [hlog]
    intro e he hauthor
    rcases List.mem_append.mp he with he | he
    · exact h.main e he hauthor
    · rw [List.mem_singleton.mp he]
      exact ⟨hpriority, htype⟩
  · rw [hlog, hreceived]
    intro e he n hn
    rcases List.mem_append.mp he with he | he
    · exact h.worker e he n hn
    · rw [List.mem_singleton.mp he] at hn
      cases hn
  · rw [hlog]
    intro n
    rw [repliesTo_append_of_ne s.log (e := ⟨call, none⟩) nofun]
    exact h.shape n
  · rw [hlog]
    intro hpatient p hp
    by_cases hpp : call.priority = p
    · subst hpp
      rw [ringLog_append_self s.log ⟨call, none⟩]
      refine (h.ordered hpatient _ hp).append fun hanswer => ?_
      dsimp only at hanswer
      rw [htype] at hanswer
      exact absurd hanswer (by decide)
    · rw [ringLog_append_of_ne _ hpp]
      exact h.ordered hpatient p hp

theorem standing_of_not_inService (s : Threads π) {w : WorkerThread} (h : ¬ w.InService) :
    s.Standing patient w := by
  cases w with
  | waiting | taken | testing => trivial
  | _ => exact absurd trivial h

theorem OrderInv.main_step {b : Build} {s s' : Threads π} (hs : OrderInv patient b s)
    (hexclusive : Exclusive b s') (h : MainMove b s s') : OrderInv patient b s' := by
  by_cases hservice : s.worker.InService
  · -- while the worker serves, the main thread only looks at the flag
    have hlooping := hs.exclusive.main_looping hservice
    cases h with
    | idle => exact hs
    | retry _ hskip hpublished | enter _ hskip hpublished =>
      rcases hs.exclusive.worker hservice with ht | ht
      · rw [hskip] at ht
        cases ht
      · rw [hpublished] at ht
        cases ht
    | enqueue hm | ring _ _ hm | refused hm | sent hm | setCommitted hm | setPublished hm
    | retryRing _ _ hm | retryPublish hm =>
      rw [hm] at hlooping
      cases hlooping
  · obtain ⟨hreceived, hworker, hidentity⟩ := h.frame
    refine ⟨hexclusive, hs.plays.of_identity hidentity, ?_, ?_⟩
    · rcases h.log with hlog | ⟨call, hlog, hpriority, htype⟩
      · exact hs.log.congr hlog hreceived
      · exact hs.log.push_main hpriority htype hlog hreceived
    · rw [hworker]
      exact standing_of_not_inService s' hservice

/-- The next thing the script does is a send on `p`. -/
def Script.sendsOn (p : Priority) : Script → Bool
  | .send call _ _ => call.priority = p
  | _ => false

/-- A send for the frame in hand was refused, and the push of another one on `p` is to come. -/
def WorkerThread.unacknowledged (p : Priority) : WorkerThread → Bool
  | .replying _ true script => script.sendsOn p
  | .sending _ true call _ _ .entered => call.priority = p
  | .sending _ _ _ _ next (.refused _ _) => (next false).sendsOn p
  | _ => false

/-- Linux takes nothing from the ring of `p` between a refused ACK and the answer. -/
def Patient (s : Threads π) : ThreadAct → Prop
  | .popped p => s.worker.unacknowledged p = false
  | _ => True

instance (s : Threads π) (a : ThreadAct) : Decidable (Patient s a) :=
  match a with
  | .popped p => inferInstanceAs (Decidable (s.worker.unacknowledged p = false))
  | .main _ | .worker _ | .isr _ | .requests _ => isTrue trivial

theorem popped_room {c : State π} {p q : Priority} (h : q ≠ p) :
    (c.popped p).Room q ↔ c.Room q :=
  room_congr rfl (Shared.header_setTx _ _ _ _) (Function.update_of_ne h _ _)

theorem Script.Last.over_or_ne {r : Receipt} {script : Script} (h : script.Last r) {p : Priority}
    (hp : script.sendsOn p = false) : script.Over ∨ r.priority ≠ p := by
  cases script with
  | done | off => exact .inl trivial
  | send call stop next =>
    refine .inr fun he => ?_
    have hne := of_decide_eq_false hp
    exact hne (h.1.priority.trans he)

theorem OrderInv.popped {b : Build} {s : Threads π} (hs : OrderInv patient b s) {p : Priority}
    (hp : patient → s.worker.unacknowledged p = false) :
    OrderInv patient b { s with cpu3 := s.cpu3.popped p } := by
  refine ⟨⟨hs.exclusive.main, hs.exclusive.worker⟩, hs.plays, hs.log.congr rfl rfl, ?_⟩
  have hstanding := hs.standing
  have hmoved : ∀ {refused : Bool} {script : Script}, s.Progress patient refused script →
      (refused = true → patient → script.sendsOn p = false) →
      Threads.Progress patient { s with cpu3 := s.cpu3.popped p } refused script := by
    intro refused script hprogress hsends
    refine hprogress.congr rfl rfl fun hrefused r hlast hno => ?_
    by_cases hpatient : patient
    · refine (hlast.over_or_ne (hsends hrefused hpatient)).imp id fun hne _ => ?_
      rw [popped_room hne]
      exact hno hpatient
    · exact .inr fun h => absurd h hpatient
  cases hw : s.worker with
  | waiting | taken | testing | serving | off => trivial
  | replying pending refused script =>
    rw [hw] at hstanding hp
    refine hmoved hstanding fun hrefused => ?_
    subst hrefused
    exact hp
  | sending pending refused call stop next pc =>
    rw [hw] at hstanding hp
    cases pc with
    | entered =>
      refine hmoved hstanding fun hrefused => ?_
      subst hrefused
      exact hp
    | refused ret result =>
      refine ⟨hstanding.1, hmoved hstanding.2 fun _ => ?_⟩
      cases refused with
      | false => exact hp
      | true => exact hp
    | queued result | rung result =>
      exact fun sent => (hstanding sent).imp id fun h => ⟨h.1, h.2.congr rfl rfl⟩

theorem OrderInv.step {b : Build} {bk : Backend π} {s s' : Threads π} {a : ThreadAct}
    (hs : OrderInv patient b s) (ha : patient → Patient s a) (h : ThreadStep b bk s a s') :
    OrderInv patient b s' := by
  have hexclusive := hs.exclusive.step h
  cases a with
  | main a => exact hs.main_step hexclusive (mainStep_move h)
  | worker a => exact hs.worker_step hexclusive (workerStep_move h)
  | isr p =>
    cases h
    exact ⟨hexclusive, hs.plays, hs.log.congr rfl rfl, hs.standing.congr rfl rfl fun _ => Iff.rfl⟩
  | popped p =>
    cases h
    exact hs.popped ha
  | requests rings =>
    cases h
    exact ⟨hexclusive, hs.plays, hs.log.congr rfl rfl,
      hs.standing.congr rfl rfl fun _ => room_congr rfl rfl rfl⟩

theorem Threads.Booted.orderInv {b : Build} {s : Threads π} (h : s.Booted) :
    OrderInv patient b s := by
  obtain ⟨shared, b2a, ready, peripherals, hcpu3⟩ := h.cpu3
  refine ⟨h.exclusive, ?_, ⟨?_, ?_, ?_, ?_⟩, ?_⟩
  · rw [hcpu3]
    exact boot_plays shared b2a ready peripherals
  · rw [h.log]
    nofun
  · rw [h.log]
    nofun
  · rw [h.log]
    exact fun _ => .inl rfl
  · rw [h.log]
    rintro - p - pre e post heq
    cases pre <;> cases heq
  · rw [h.worker]
    trivial

/-- A PING on p1 with room for both replies, and the next one; the first doorbell returns `ret`. -/
def answerPing (ret : Int) : List ThreadAct :=
  sendRoom [0, 1] ret ++ sendRoom [0, 1] notifyCoalesced ++
    [.worker .finish, .worker (.receive 1)]

/-- Five PINGs that nobody reads the replies of: the fourth ACK fills the ring. -/
def fillReplies : List ThreadAct :=
  publishReady ++ serveFirst 1 [ping 1 1, ping 2 2, ping 3 3, ping 4 4, ping 5 5] ++
    answerPing notifySent ++ answerPing notifyCoalesced ++ answerPing notifyCoalesced ++
    sendRoom [0, 1] notifyCoalesced ++ sendFull ++ [.worker .finish, .worker (.receive 1)]

def controlLog (s : Threads π) : List (U32 × Option ℕ) :=
  (ringLog s.log prioControl).map fun e => (e.call.type, e.author)

theorem WellAnswered.filter_length {es : List Pushed} (h : WellAnswered es) :
    (es.filter fun e => IsFeedback e.call.type).length ≤ 1 ∧
      (es.filter fun e => IsAnswer e.call.type).length ≤ 1 := by
  rcases h with rfl | ⟨e, rfl⟩ | ⟨a, e, rfl, hack, hanswer⟩
  · exact ⟨Nat.zero_le 1, Nat.zero_le 1⟩
  · exact ⟨List.length_filter_le _ _, List.length_filter_le _ _⟩
  · have hfeedback : IsFeedback a.call.type := by
      rw [hack]
      decide
    have hnot : ¬ IsAnswer a.call.type := fun h => h.not_feedback hfeedback
    simp [hfeedback, hnot, hanswer, hanswer.not_feedback]

theorem WellAnswered.not_both {es : List Pushed} (h : WellAnswered es) :
    ¬ ((∃ e ∈ es, e.call.type = msgAck) ∧ ∃ e ∈ es, e.call.type = msgNack) := by
  rintro ⟨⟨e, he, hack⟩, e', he', hnack⟩
  rcases h with rfl | ⟨x, rfl⟩ | ⟨a, x, rfl, ha, hx⟩
  · cases he
  · rw [List.mem_singleton.mp he] at hack
    rw [List.mem_singleton.mp he', hack] at hnack
    exact absurd hnack (by decide)
  · rcases List.mem_pair.mp he' with rfl | rfl
    · rw [ha] at hnack
      exact absurd hnack (by decide)
    · rw [hnack] at hx
      exact absurd hx (by decide)

/-- In every run, every frame gets at most one feedback, with its sequence number, and at most one
answer, and never both an ACK and a NACK; and p2 and p3 carry neither. -/
theorem replies_in_every_run {b : Build} {bk : Backend π} {s₀ s : Threads π} {acts : List ThreadAct}
    (h₀ : s₀.Booted) (h : Trace (ThreadStep b bk) s₀ acts s) :
    (∀ n, ((repliesTo s.log n).filter fun e => IsFeedback e.call.type).length ≤ 1 ∧
      ((repliesTo s.log n).filter fun e => IsAnswer e.call.type).length ≤ 1) ∧
    (∀ e ∈ s.log, ∀ n, e.author = some n → ∃ r, s.received[n]? = some r ∧
      e.call.priority = r.priority ∧ (IsAnswer e.call.type ∨ IsFeedback e.call.type ∧
        ∃ status, e.call.payload = feedback r.message.sequence status)) ∧
    (∀ e ∈ s.log, e.call.priority = 2 ∨ e.call.priority = 3 →
      e.call.type ≠ msgAck ∧ e.call.type ≠ msgNack) ∧
    ∀ n, ¬ ((∃ e ∈ repliesTo s.log n, e.call.type = msgAck) ∧
      ∃ e ∈ repliesTo s.log n, e.call.type = msgNack) := by
  have hinv : OrderInv False b s :=
    h.invariant (fun _ _ _ hs hstep => hs.step False.elim hstep) h₀.orderInv
  refine ⟨fun n => (hinv.log.shape n).filter_length, ?_, ?_,
    fun n => (hinv.log.shape n).not_both⟩
  · intro e he n hn
    obtain ⟨r, hr, hcall⟩ := hinv.log.worker e he n hn
    refine ⟨r, hr, hcall.elim (·.priority) (·.priority), ?_⟩
    exact hcall.elim (fun h => .inr ⟨h.type, h.payload⟩) fun h => .inl h.type
  · intro e he hp
    have hunreliable : priorityIsReliable e.call.priority = false := by
      rcases hp with hp | hp <;> rw [hp] <;> decide
    cases hauthor : e.author with
    | none =>
      rw [(hinv.log.main e he hauthor).2]
      decide
    | some n =>
      obtain ⟨r, -, hcall⟩ := hinv.log.worker e he n hauthor
      have hne : ¬ (e.call.type = msgAck ∨ e.call.type = msgNack) := by
        intro htype
        rcases hcall with h | h
        · rw [h.priority, h.reliable htype] at hunreliable
          cases hunreliable
        · refine h.type.not_feedback ?_
          exact htype.elim .inl fun hn => .inr (.inl hn)
      exact not_or.mp hne

/-- As long as Linux takes nothing between a refused ACK and the answer, every answer of p0 and p1
moreover stands right behind the ACK of the same frame. -/
theorem replies_in_order {b : Build} {bk : Backend π} {s₀ s : Threads π} {acts : List ThreadAct}
    (h₀ : s₀.Booted)
    (h : Trace (fun s a t => Patient s a ∧ ThreadStep b bk s a t) s₀ acts s) :
    (∀ n, ((repliesTo s.log n).filter fun e => IsFeedback e.call.type).length ≤ 1 ∧
      ((repliesTo s.log n).filter fun e => IsAnswer e.call.type).length ≤ 1) ∧
    (∀ e ∈ s.log, ∀ n, e.author = some n → ∃ r, s.received[n]? = some r ∧
      e.call.priority = r.priority ∧ (IsAnswer e.call.type ∨ IsFeedback e.call.type ∧
        ∃ status, e.call.payload = feedback r.message.sequence status)) ∧
    (∀ e ∈ s.log, e.call.priority = 2 ∨ e.call.priority = 3 →
      e.call.type ≠ msgAck ∧ e.call.type ≠ msgNack) ∧
    (∀ p, p = prioCritical ∨ p = prioControl → Ordered (ringLog s.log p)) ∧
    ∀ n, ¬ ((∃ e ∈ repliesTo s.log n, e.call.type = msgAck) ∧
      ∃ e ∈ repliesTo s.log n, e.call.type = msgNack) := by
  have hinv : OrderInv True b s :=
    h.invariant (fun _ _ _ hs hstep => hs.step (fun _ => hstep.1) hstep.2) h₀.orderInv
  obtain ⟨honce, hsource, hunreliable, hboth⟩ := replies_in_every_run h₀ h.of_restricted
  refine ⟨honce, hsource, hunreliable, fun p hp => hinv.log.ordered trivial p ?_, hboth⟩
  rcases hp with rfl | rfl <;> decide

/-- Without a read in between, the fifth PONG is refused like its ACK. -/
theorem replies_in_order_full_ring :
    ∃ s, Trace (fun s a t => Patient s a ∧ ThreadStep image noPeripherals s a t) bootedThreads
      (fillReplies ++ sendFull ++ sendFull) s ∧
      (controlLog s).getLast? = some (msgAck, some 3) ∧ Ordered (ringLog s.log prioControl) := by
  obtain ⟨s, htrace, htest⟩ := Trace.exists_of_guarded (Threads.step image noPeripherals) Patient
    bootedThreads (fillReplies ++ sendFull ++ sendFull)
    (fun s => decide ((controlLog s).getLast? = some (msgAck, some 3))) (by decide +kernel)
  exact ⟨s, htrace, of_decide_eq_true htest,
    (replies_in_order bootedThreads_booted htrace).2.2.2.1 prioControl (.inr rfl)⟩

/-- The fifth ACK is refused, Linux takes one frame, and the PONG is queued behind the ACK of the
fourth PING. -/
theorem pong_without_its_ack :
    ∃ s, Trace (ThreadStep image noPeripherals) bootedThreads
      (fillReplies ++ sendFull ++ [.popped 1] ++ sendRoom [0, 1] notifyCoalesced) s ∧
      controlLog s = [(msgAck, some 0), (msgPong, some 0), (msgAck, some 1), (msgPong, some 1),
        (msgAck, some 2), (msgPong, some 2), (msgAck, some 3), (msgPong, some 4)] := by
  obtain ⟨s, htrace, htest⟩ := Trace.exists_of_foldlM (Threads.step image noPeripherals)
    bootedThreads (fillReplies ++ sendFull ++ [.popped 1] ++ sendRoom [0, 1] notifyCoalesced)
    (fun s => decide (controlLog s = [(msgAck, some 0), (msgPong, some 0), (msgAck, some 1),
      (msgPong, some 1), (msgAck, some 2), (msgPong, some 2), (msgAck, some 3),
      (msgPong, some 4)])) (by decide +kernel)
  exact ⟨s, htrace, of_decide_eq_true htest⟩

end Lzamp.Cpu3
