import Lzamp.Cpu3.Replies
import Lzamp.Mailmsg.SessionFrames

namespace Lzamp.Cpu3
open Mailmsg

/-- What a frame says, without its number, its session and its CRC. -/
@[ext] structure Reply where
  type : U32
  payload : List U8
deriving DecidableEq

def Reply.of (m : Message) : Reply := ⟨m.type, (List.ofFn m.payload).take m.length.toNat⟩

/-- The requests that wait, the replies that wait, and the peripherals. -/
@[ext] structure Desk (π : Type) where
  requests : Priority → List Message
  replies : Priority → List Reply
  peripherals : π

variable {π : Type}

def State.desk (c : State π) : Desk π where
  requests p := (c.shared.linuxToCpu3 p).contents
  replies p := (c.shared.cpu3ToLinux p).contents.map Reply.of
  peripherals := c.peripherals

def nackReply (p : Priority) (m : Message) (reason : U32) : List Reply :=
  if priorityIsReliable p then [⟨msgNack, feedback m.sequence reason⟩] else []

def ackReply (p : Priority) (m : Message) : List Reply :=
  if priorityIsReliable p then [⟨msgAck, feedback m.sequence 0⟩] else []

/-- The answer to a STOP_REQUEST on p0. -/
def stopReply (b : Build) (m : Message) : Reply :=
  if m.length ≠ 0 then ⟨msgStopRefused, feedback m.sequence stopRefusedInvalidRequest⟩
  else if b.stopControl then ⟨msgStopReady, feedback m.sequence 0⟩
  else ⟨msgStopRefused, feedback m.sequence stopRefusedBusy⟩

def pongReply (m : Message) : Reply :=
  ⟨if m.type = msgPing then msgPong else msgNop, storePayloadU32 (payloadU32 m.payload 0 + 1)⟩

/-- The result of a peripheral call, or a NACK if there is none. -/
def resultReply (p : Priority) (m : Message) : Option Reply → List Reply
  | none => nackReply p m nackInvalidFrame
  | some result => ackReply p m ++ [result]

def peripheralAnswer (bk : Backend π) (ready : Bool) (p : Priority) (m : Message) (x : π) :
    List Reply × π :=
  if p ≠ prioControl ∨ !ready then (nackReply p m nackInvalidFrame, x)
  else
    let r := bk.execute x m
    (resultReply p m (r.1.map (⟨msgPeripheralResult, ·⟩)), r.2)

def gpioReadAnswer (bk : Backend π) (ready : Bool) (p : Priority) (m : Message) (x : π) :
    List Reply × π :=
  if p ≠ prioControl ∨ !ready ∨ bk.spiProfile x ∨ m.length ≠ 4 then
    (nackReply p m nackInvalidFrame, x)
  else
    let line := payloadU32 m.payload 0
    let r := bk.gpioGet x line
    (resultReply p m (r.1.map fun value => ⟨msgGpioReadResult,
      storePayloadU32 m.sequence ++ storePayloadU32 line ++ storePayloadU32 value⟩), r.2)

/-- The answer to a good frame, and the peripherals after it. -/
def answer (b : Build) (bk : Backend π) (ready : Bool) (p : Priority) (m : Message) (x : π) :
    List Reply × π :=
  if p = prioCritical ∧ m.type = msgStopRequest then ([stopReply b m], x)
  else if isSelfOff b p m then ([], x)
  else if m.type = msgPeripheralRequest then peripheralAnswer bk ready p m x
  else if m.type = msgGpioReadRequest then gpioReadAnswer bk ready p m x
  else (ackReply p m ++ [pongReply m], x)

/-- CPU3 goes off for a frame.  STOP_READY has to be out first. -/
def leaves (b : Build) (p : Priority) (room : ℕ) (m : Message) : Bool :=
  if p = prioCritical ∧ m.type = msgStopRequest then m.length = 0 ∧ b.stopControl ∧ 0 < room
  else isSelfOff b p m

/-- What became of a queue: the answers, the requests left, the peripherals, and whether CPU3 went
off. -/
structure Served (π : Type) where
  replies : List Reply
  left : List Message
  peripherals : π
  off : Bool

/-- `quota` requests of a queue, with `room` for answers.  A damaged frame ends it. -/
def serve (b : Build) (bk : Backend π) (ready : Bool) (p : Priority) :
    (room quota : ℕ) → List Message → π → Served π
  | _, 0, q, x => ⟨[], q, x, false⟩
  | _, _ + 1, [], x => ⟨[], [], x, false⟩
  | room, quota + 1, m :: q, x =>
    if frameCheck m = ringOk then
      let a := answer b bk ready p m x
      if leaves b p room m then ⟨a.1, q, a.2, true⟩
      else
        let rest := serve b bk ready p (room - a.1.length) quota q a.2
        { rest with replies := a.1 ++ rest.replies }
    else ⟨nackReply p m nackBadCrc, q, x, false⟩

/-- Appends to a list that keeps seven entries. -/
def putAll (replies more : List Reply) : List Reply := (replies ++ more).take 7

def Desk.serveRing (b : Build) (bk : Backend π) (ready : Bool) (p : Priority) (d : Desk π) :
    Desk π × Bool :=
  let s := serve b bk ready p (7 - (d.replies p).length) drainQuota (d.requests p) d.peripherals
  ({ requests := Function.update d.requests p s.left
     replies := Function.update d.replies p (putAll (d.replies p) s.replies)
     peripherals := s.peripherals }, s.off)

/-- The rings of `pending`, one after the other. -/
def Desk.pass (b : Build) (bk : Backend π) (ready : Bool) (pending : U32) :
    List Priority → Desk π → Desk π × Bool
  | [], d => (d, false)
  | p :: ps, d =>
    if !hasBit pending p ∨ p.val = b.skipPriority then d.pass b bk ready pending ps
    else
      let r := d.serveRing b bk ready p
      if r.2 then r else r.1.pass b bk ready pending ps

theorem putAll_putAll (replies more rest : List Reply) :
    putAll (putAll replies more) rest = putAll replies (more ++ rest) := by
  have hroom : 7 - (List.take 7 (replies ++ more)).length = 7 - (replies ++ more).length := by
    rw [List.length_take]
    omega
  unfold putAll
  rw [← List.append_assoc, List.take_append, List.take_take, Nat.min_self, hroom, ← List.take_append]

theorem putAll_nil {replies : List Reply} (h : replies.length ≤ 7) : putAll replies [] = replies := by
  rw [putAll, List.append_nil, List.take_of_length_le h]

theorem putAll_of_full {replies : List Reply} (h : replies.length = 7) (more : List Reply) :
    putAll replies more = replies := by
  rw [putAll, List.take_append_of_le_length h.ge, List.take_of_length_le h.le]

theorem length_putAll (replies more : List Reply) :
    (putAll replies more).length = min 7 (replies.length + more.length) := by
  rw [putAll, List.length_take, List.length_append]

/-- CPU3 is bound in session `g`, on a page of that session. -/
structure InSession (damaged : Prop) (g : U32) (c : State π) : Prop where
  page : c.shared.OfSession damaged g
  identity : c.endpoint.identity = (some .cpu3, g)

section

variable {damaged : Prop} {g : U32} {c c' c'' : State π} {p : Priority}

namespace InSession

theorem role (h : InSession damaged g c) : c.endpoint.role = some .cpu3 :=
  congrArg Prod.fst h.identity

theorem generation (h : InSession damaged g c) : c.endpoint.generation = g :=
  congrArg Prod.snd h.identity

theorem valid (h : InSession damaged g c) : endpointSessionValid c.endpoint c.shared = endpointOk :=
  h.page.valid (by rw [h.role]; decide) h.generation

end InSession

theorem length_replies (c : State π) (p : Priority) : (c.desk.replies p).length ≤ 7 := by
  have hdepth := (c.shared.cpu3ToLinux p).depth_lt
  simp only [State.desk, List.length_map, Ring.length_contents]
  omega

/-- `c'` is `c` with `rs` said on ring `p`, as far as there was room. -/
structure Posts (damaged : Prop) (g : U32) (p : Priority) (rs : List Reply) (c c' : State π) :
    Prop where
  session : InSession damaged g c'
  requests : c'.desk.requests = c.desk.requests
  replies : c'.desk.replies = Function.update c.desk.replies p (putAll (c.desk.replies p) rs)
  peripherals : c'.peripherals = c.peripherals
  ready : c'.peripheralsReady = c.peripheralsReady

theorem Posts.refl (h : InSession damaged g c) (p : Priority) : Posts damaged g p [] c c where
  session := h
  requests := rfl
  replies := by
    rw [putAll_nil (length_replies c p), Function.update_eq_self]
  peripherals := rfl
  ready := rfl

theorem Posts.of_full (h : InSession damaged g c) (hfull : (c.desk.replies p).length = 7)
    (rs : List Reply) : Posts damaged g p rs c c where
  session := h
  requests := rfl
  replies := by
    rw [putAll_of_full hfull, Function.update_eq_self]
  peripherals := rfl
  ready := rfl

theorem Posts.trans {rs rs' : List Reply} (h : Posts damaged g p rs c c')
    (h' : Posts damaged g p rs' c' c'') : Posts damaged g p (rs ++ rs') c c'' where
  session := h'.session
  requests := h'.requests.trans h.requests
  replies := by
    rw [h'.replies, h.replies, Function.update_self, Function.update_idem, putAll_putAll]
  peripherals := h'.peripherals.trans h.peripherals
  ready := h'.ready.trans h.ready

theorem Reply.of_composeFrame (g type sequence : U32) {payload : List U8}
    (h : payload.length ≤ 28) :
    Reply.of (composeFrame g type sequence (BitVec.ofNat 32 payload.length) (some payload)).seal =
      ⟨type, payload⟩ := by
  have hlength : (BitVec.ofNat 32 payload.length).toNat = payload.length := by
    rw [BitVec.toNat_ofNat]
    omega
  refine Reply.ext rfl ?_
  show List.take (BitVec.ofNat 32 payload.length).toNat
    (List.ofFn (copyPayload (some payload) (BitVec.ofNat 32 payload.length))) = payload
  rw [hlength]
  refine List.ext_getElem ?_ fun i hi hi' => ?_
  · rw [List.length_take, List.length_ofFn]
    omega
  · rw [List.getElem_take, List.getElem_ofFn, copyPayload, if_pos (by rw [hlength]; exact hi')]
    rw [Option.getD_some, List.getD_eq_getElem?_getD, List.getElem?_eq_getElem hi', Option.getD_some]

theorem transmit_posts (h : InSession damaged g c) (p : Priority) (type : U32) {payload : List U8}
    (hfit : payload.length ≤ 28) :
    Posts damaged g p [⟨type, payload⟩] c (transmit c p type payload).2 ∧
      ((transmit c p type payload).1.ret = endpointOk ↔ (c.desk.replies p).length < 7) := by
  have hlen : BitVec.ofNat 32 payload.length ≤ 28#32 := by
    rw [BitVec.le_def, BitVec.toNat_ofNat]
    exact (Nat.mod_le _ _).trans hfit
  have hplays : c.endpoint.Plays .cpu3 := Or.inr h.role
  have hr : (c.shared.tx .cpu3 p).InRange := (h.page.replies p).inRange
  have hkeeps := keeps_transmit hplays p type payload
  have hshared := transmit_shared c p type payload
  have hpage : (transmit c p type payload).2.shared.OfSession damaged g := by
    rw [hshared]
    exact h.page.send _ _ _ _ _ _ _ hplays fun _ => h.generation
  have hothers : ∀ q ≠ p, (transmit c p type payload).2.shared.cpu3ToLinux q =
      c.shared.cpu3ToLinux q := by
    intro q hq
    rw [hshared]
    exact tx_endpointSend_of_ne cpu3Notify c.b2a p type (some payload) _ SendResult.zero hplays hq
  have hfields : (transmit c p type payload).2.peripherals = c.peripherals ∧
      (transmit c p type payload).2.peripheralsReady = c.peripheralsReady := by
    unfold transmit State.recordTxFull
    dsimp only
    split_ifs <;> exact ⟨rfl, rfl⟩
  -- the desk's queue is the ring read as a list, so its length is the ring's depth
  have hlength : (c.desk.replies p).length = (c.shared.tx .cpu3 p).depth := by
    simp only [State.desk, List.length_map, Ring.length_contents]
    rfl
  -- the ring either takes the frame or is full
  have hring : (transmit c p type payload).2.desk.replies p =
        putAll (c.desk.replies p) [⟨type, payload⟩] ∧
      ((transmit c p type payload).1.ret = endpointOk ↔ (c.desk.replies p).length < 7) := by
    rcases endpointSend_ofSession cpu3Notify c.b2a p type (BitVec.ofNat 32 payload.length)
      SendResult.zero h.role h.valid hlen with ⟨hok, hroom⟩ | ⟨hfull, -, hsame, hring⟩
    · have hdepth := hr.depth_lt_seven hroom
      rw [← hlength] at hdepth
      refine ⟨?_, fun _ => hdepth, fun _ => hok⟩
      have hcontents := contents_endpointSend cpu3Notify c.b2a c.endpoint c.shared p type
        (some payload) (BitVec.ofNat 32 payload.length) SendResult.zero hplays hr hok
      rw [putAll, List.take_of_length_le (by rw [List.length_append]; exact hdepth)]
      show List.map Reply.of ((transmit c p type payload).2.shared.tx .cpu3 p).contents = _
      rw [hshared, hcontents, List.map_append, List.map_singleton, Reply.of_composeFrame _ _ _ hfit]
      rfl
    · have hdepth := hr.depth_eq_seven.mpr hring
      rw [← hlength] at hdepth
      refine ⟨?_, fun hok => ?_, fun hlt => ?_⟩
      · rw [putAll_of_full hdepth]
        show List.map Reply.of ((transmit c p type payload).2.shared.tx .cpu3 p).contents = _
        rw [hshared, hsame]
        rfl
      · exact absurd (hfull.symm.trans hok) (by decide)
      · omega
  refine ⟨⟨⟨hpage, hkeeps.identity.trans h.identity⟩, ?_, ?_, hfields.1, hfields.2⟩, hring.2⟩
  · funext q
    simp only [State.desk]
    rw [hkeeps.requests]
  · funext q
    by_cases hq : q = p
    · rw [hq, Function.update_self]
      exact hring.1
    · rw [Function.update_of_ne hq]
      simp only [State.desk]
      rw [hothers q hq]

theorem sendFeedback_posts (h : InSession damaged g c) (p : Priority) (type sequence status : U32) :
    Posts damaged g p [⟨type, feedback sequence status⟩] c
        (sendFeedback c p type sequence status).2 ∧
      ((sendFeedback c p type sequence status).1 = true ↔ (c.desk.replies p).length < 7) := by
  have hfit : (feedback sequence status).length ≤ 28 := by
    show 8 ≤ 28
    decide
  have hposts := transmit_posts h p type hfit
  exact ⟨hposts.1, decide_eq_true_iff.trans hposts.2⟩

theorem nackIfReliable_posts (h : InSession damaged g c) (p : Priority) (m : Message)
    (reason : U32) : Posts damaged g p (nackReply p m reason) c
      (nackIfReliable c p m.sequence reason) := by
  unfold nackReply nackIfReliable
  split_ifs
  · exact (sendFeedback_posts h p msgNack m.sequence reason).1
  · exact .refl h p

theorem result_posts (h : InSession damaged g c) (p : Priority) (sequence type : U32)
    {payload : List U8} (hfit : payload.length ≤ 28) :
    Posts damaged g p ([⟨msgAck, feedback sequence 0⟩] ++ [⟨type, payload⟩]) c
      (if !(sendFeedback c p msgAck sequence 0).1 then (sendFeedback c p msgAck sequence 0).2
       else (transmit (sendFeedback c p msgAck sequence 0).2 p type payload).2) := by
  obtain ⟨hack, hroom⟩ := sendFeedback_posts h p msgAck sequence 0
  refine hack.trans ?_
  split_ifs with hsent
  · refine .of_full hack.session ?_ _
    have hfull : ¬ (c.desk.replies p).length < 7 := by
      rw [← hroom]
      simpa using hsent
    have hmax := length_replies c p
    rw [hack.replies, Function.update_self, putAll_of_full (by omega)]
    omega
  · exact (transmit_posts hack.session p type hfit).1

/-- The results of the peripheral service fit into a frame. -/
def Backend.Fits (bk : Backend π) : Prop :=
  ∀ x m payload, (bk.execute x m).1 = some payload → payload.length ≤ 28

theorem InSession.withPeripherals (h : InSession damaged g c) (x : π) :
    InSession damaged g { c with peripherals := x } := ⟨h.page, h.identity⟩

theorem handlePeripheralRequest_posts {bk : Backend π} (hfits : bk.Fits) (h : InSession damaged g c)
    (p : Priority) (m : Message) :
    Posts damaged g p (peripheralAnswer bk c.peripheralsReady p m c.peripherals).1
      { c with peripherals := (peripheralAnswer bk c.peripheralsReady p m c.peripherals).2 }
      (handlePeripheralRequest bk c p m) := by
  unfold handlePeripheralRequest peripheralAnswer
  split_ifs with hguard
  · exact nackIfReliable_posts h p m nackInvalidFrame
  · have hreliable : priorityIsReliable p = true := by
      rw [not_or, not_not] at hguard
      rw [hguard.1]
      decide
    cases hresult : (bk.execute c.peripherals m).1 with
    | none =>
      simp only [hresult, Option.map_none, resultReply]
      exact nackIfReliable_posts (h.withPeripherals _) p m nackInvalidFrame
    | some payload =>
      simp only [hresult, Option.map_some, resultReply, ackReply, hreliable, if_true]
      exact result_posts (h.withPeripherals _) p m.sequence msgPeripheralResult
        (hfits _ _ _ hresult)

theorem handleGpioReadRequest_posts (bk : Backend π) (h : InSession damaged g c)
    (p : Priority) (m : Message) :
    Posts damaged g p (gpioReadAnswer bk c.peripheralsReady p m c.peripherals).1
      { c with peripherals := (gpioReadAnswer bk c.peripheralsReady p m c.peripherals).2 }
      (handleGpioReadRequest bk c p m) := by
  unfold handleGpioReadRequest gpioReadAnswer
  split_ifs with hguard
  · exact nackIfReliable_posts h p m nackInvalidFrame
  · have hreliable : priorityIsReliable p = true := by
      rw [not_or, not_not] at hguard
      rw [hguard.1]
      decide
    dsimp only
    cases hvalue : (bk.gpioGet c.peripherals (payloadU32 m.payload 0)).1 with
    | none =>
      simp only [Option.map_none, resultReply, nackReply, hreliable, if_true]
      exact (sendFeedback_posts (h.withPeripherals _) p msgNack m.sequence nackInvalidFrame).1
    | some value =>
      simp only [Option.map_some, resultReply, ackReply, hreliable, if_true]
      have hfit : (storePayloadU32 m.sequence ++ storePayloadU32 (payloadU32 m.payload 0) ++
          storePayloadU32 value).length ≤ 28 := by
        show 12 ≤ 28
        decide
      exact result_posts (h.withPeripherals _) p m.sequence msgGpioReadResult hfit

theorem handleOther_posts (h : InSession damaged g c) (p : Priority) (m : Message) :
    Posts damaged g p (ackReply p m ++ [pongReply m]) c (handleOther c p m) := by
  have hfit : (storePayloadU32 (payloadU32 m.payload 0 + 1)).length ≤ 28 := by
    show 4 ≤ 28
    decide
  have hack : Posts damaged g p (ackReply p m) c
      (if priorityIsReliable p then (sendFeedback c p msgAck m.sequence 0).2 else c) := by
    unfold ackReply
    split_ifs
    · exact (sendFeedback_posts h p msgAck m.sequence 0).1
    · exact .refl h p
  exact hack.trans (transmit_posts hack.session p _ hfit).1

theorem handleBadFrame_posts (h : InSession damaged g c) (p : Priority) (m : Message)
    (hbad : frameCheck m = ringBadCrc) :
    Posts damaged g p (nackReply p m nackBadCrc) c (handleBadFrame c p (frameCheck m) m) := by
  have hposts := nackIfReliable_posts h p m nackBadCrc
  unfold handleBadFrame
  rw [if_pos hbad]
  exact ⟨⟨hposts.session.page, hposts.session.identity⟩, hposts.requests, hposts.replies,
    hposts.peripherals, hposts.ready⟩

def Handled.state : Handled π → State π
  | .done c | .cpuOff c => c

def Handled.isOff : Handled π → Bool
  | .done _ => false
  | .cpuOff _ => true

/-- CPU3's doorbell never fails, so a stop reply is out as soon as it is queued. -/
theorem sendStopFeedback_sent (c : State π) (type sequence status : U32) :
    (sendStopFeedback c type sequence status).1 =
      (sendFeedback c prioCritical type sequence status).1 := by
  have hbell : ∀ (b2a : Doorbells) (p : Priority), notifyAccepted (cpu3Notify b2a p).1 = true := by
    intro b2a p
    unfold cpu3Notify
    split_ifs <;> rfl
  show decide (_ ∧ _) = decide _
  refine decide_eq_decide.mpr ⟨And.left, fun hok => ⟨hok, ?_⟩⟩
  rcases endpointSend_cases cpu3Notify c.b2a c.endpoint c.shared prioCritical type
    (some (feedback sequence status)) (BitVec.ofNat 32 (feedback sequence status).length)
    SendResult.zero with ⟨q, hq, heq⟩ | ⟨role, q, hp, hq, heq⟩
  · have hret : (transmit c prioCritical type (feedback sequence status)).1.ret = q.ret :=
      congrArg Sent.ret heq
    exact absurd (hret.symm.trans hok) hq.ret
  · have hresult : (transmit c prioCritical type (feedback sequence status)).1.result.notifyResult =
        (cpu3Notify c.b2a ⟨prioCritical, hp⟩).1 := congrArg (fun s => s.result.notifyResult) heq
    exact (congrArg notifyAccepted hresult).trans (hbell _ _)

theorem handleStopRequest_posts (b : Build) (h : InSession damaged g c) (m : Message) :
    Posts damaged g prioCritical [stopReply b m] c (handleStopRequest b c m).state ∧
      (handleStopRequest b c m).isOff = decide (m.length = 0 ∧ b.stopControl ∧
        0 < 7 - (c.desk.replies prioCritical).length) := by
  have hsend : ∀ type status,
      Posts damaged g prioCritical [⟨type, feedback m.sequence status⟩] c
        (sendStopFeedback c type m.sequence status).2 :=
    fun type status => (sendFeedback_posts h prioCritical type m.sequence status).1
  unfold handleStopRequest stopReply
  by_cases hlength : m.length = 0
  · by_cases hcontrol : b.stopControl = true
    · have hroom := (sendFeedback_posts h prioCritical msgStopReady m.sequence 0).2
      rw [← sendStopFeedback_sent] at hroom
      simp only [hlength, hcontrol, ne_eq, not_true_eq_false, if_false, if_true, true_and]
      split_ifs with hsent
      · refine ⟨hsend _ _, (decide_eq_true ?_).symm⟩
        have hlt := hroom.mp hsent
        omega
      · refine ⟨hsend _ _, (decide_eq_false ?_).symm⟩
        have hge : ¬ (c.desk.replies prioCritical).length < 7 := fun hlt => hsent (hroom.mpr hlt)
        omega
    · simp only [hlength, hcontrol, ne_eq, not_true_eq_false, if_false]
      exact ⟨hsend _ _, rfl⟩
  · simp only [hlength, ne_eq, not_false_eq_true, if_true, false_and, decide_false]
    exact ⟨hsend _ _, rfl⟩

theorem handleRequest_posts (b : Build) {bk : Backend π} (hfits : bk.Fits)
    (h : InSession damaged g c) (p : Priority) (m : Message) :
    Posts damaged g p (answer b bk c.peripheralsReady p m c.peripherals).1
        { c with peripherals := (answer b bk c.peripheralsReady p m c.peripherals).2 }
        (handleRequest b bk c p m).state ∧
      (handleRequest b bk c p m).isOff = leaves b p (7 - (c.desk.replies p).length) m := by
  unfold answer handleRequest leaves
  split_ifs with hstop hself hperipheral hgpio
  · obtain ⟨rfl, -⟩ := hstop
    exact handleStopRequest_posts b h m
  · exact ⟨.refl h p, hself.symm⟩
  · exact ⟨handlePeripheralRequest_posts hfits h p m, (Bool.eq_false_iff.mpr hself).symm⟩
  · exact ⟨handleGpioReadRequest_posts bk h p m, (Bool.eq_false_iff.mpr hself).symm⟩
  · exact ⟨handleOther_posts h p m, (Bool.eq_false_iff.mpr hself).symm⟩

theorem InSession.draining (h : InSession damaged g c) (p : Priority) :
    Draining c p (c.desk.requests p) where
  role := h.role
  session := h.valid
  inRange := (h.page.requests p).inRange
  contents := rfl
  committed m hm := ((h.page.requests p).contents m hm).commit

theorem InSession.receive_cons (h : InSession damaged g c) {m : Message} {q : List Message}
    (hq : c.desk.requests p = m :: q) :
    (endpointReceive c.endpoint c.shared p Message.zero).ret = frameCheck m ∧
      (endpointReceive c.endpoint c.shared p Message.zero).message = m ∧
      InSession damaged g (c.received (endpointReceive c.endpoint c.shared p Message.zero)) ∧
      (c.received (endpointReceive c.endpoint c.shared p Message.zero)).desk =
        ⟨Function.update c.desk.requests p q, c.desk.replies, c.peripherals⟩ := by
  have hdraining := h.draining p
  rw [hq] at hdraining
  obtain ⟨hret, hmessage, hdrain, honly⟩ := hdraining.receive_cons
  have hm : m.OfSession damaged g :=
    (h.page.requests p).contents m (hq.symm ▸ List.mem_cons_self : m ∈ c.desk.requests p)
  have hreplies : (c.received (endpointReceive c.endpoint c.shared p
      Message.zero)).shared.cpu3ToLinux = c.shared.cpu3ToLinux :=
    tx_endpointReceive (Or.inr h.role) c.shared p Message.zero
  refine ⟨?_, hmessage, ⟨?_, honly.identity.trans h.identity⟩, ?_⟩
  · rw [hret, receiveResult, if_neg]
    exact fun hstale => hstale.2 (hm.generation.trans h.generation.symm)
  · exact h.page.receive (Or.inr h.role) p Message.zero
  · refine Desk.ext ?_ ?_ rfl
    · funext p'
      dsimp only
      by_cases hp : p' = p
      · rw [hp, Function.update_self]
        exact hdrain.contents
      · rw [Function.update_of_ne hp]
        exact congrArg Ring.contents (honly.others p' hp)
    · funext p'
      simp only [State.desk]
      rw [hreplies]

def Drained.state : Drained π → State π
  | .left c _ _ | .cpuOff c => c

def Drained.isOff : Drained π → Bool
  | .left _ _ _ => false
  | .cpuOff _ => true

structure ServesTo (damaged : Prop) (g : U32) (p : Priority) (s : Served π) (c c' : State π) :
    Prop where
  session : InSession damaged g c'
  ready : c'.peripheralsReady = c.peripheralsReady
  desk : c'.desk =
    { requests := Function.update c.desk.requests p s.left
      replies := Function.update c.desk.replies p (putAll (c.desk.replies p) s.replies)
      peripherals := s.peripherals }

theorem ServesTo.refl (h : InSession damaged g c) (p : Priority) {off : Bool} :
    ServesTo damaged g p ⟨[], c.desk.requests p, c.peripherals, off⟩ c c := by
  refine ⟨h, rfl, ?_⟩
  rw [putAll_nil (length_replies c p), Function.update_eq_self, Function.update_eq_self]
  rfl

theorem Posts.servesTo {rs : List Reply} {q : List Message} {x : π} {c₁ : State π}
    (hdesk : c₁.desk = ⟨Function.update c.desk.requests p q, c.desk.replies, c.peripherals⟩)
    (hready : c₁.peripheralsReady = c.peripheralsReady)
    (h : Posts damaged g p rs { c₁ with peripherals := x } c')
    {off : Bool} : ServesTo damaged g p ⟨rs, q, x, off⟩ c c' := by
  have hrequests : c₁.desk.requests = Function.update c.desk.requests p q := by rw [hdesk]
  have hreplies : c₁.desk.replies = c.desk.replies := by rw [hdesk]
  refine ⟨h.session, h.ready.trans hready, Desk.ext ?_ ?_ h.peripherals⟩
  · exact h.requests.trans hrequests
  · rw [h.replies]
    show Function.update c₁.desk.replies p (putAll (c₁.desk.replies p) rs) = _
    rw [hreplies]

theorem ServesTo.cons {s : Served π} {rs : List Reply} {q : List Message} {x : π} {off : Bool}
    (h : ServesTo damaged g p ⟨rs, q, x, off⟩ c c') (h' : ServesTo damaged g p s c' c'') :
    ServesTo damaged g p { s with replies := rs ++ s.replies } c c'' := by
  refine ⟨h'.session, h'.ready.trans h.ready, ?_⟩
  rw [h'.desk, h.desk]
  simp only [Function.update_self, Function.update_idem, putAll_putAll]

section Served

variable {rs : List Reply} {q : List Message} {x : π} {off : Bool}
  (h : ServesTo damaged g p ⟨rs, q, x, off⟩ c c')
include h

theorem ServesTo.requests : c'.desk.requests p = q := by
  rw [h.desk]
  exact Function.update_self ..

theorem ServesTo.peripherals : c'.peripherals = x := congrArg Desk.peripherals h.desk

theorem ServesTo.room :
    7 - (c'.desk.replies p).length = 7 - (c.desk.replies p).length - rs.length := by
  have hreplies : c'.desk.replies p = putAll (c.desk.replies p) rs := by
    rw [h.desk]
    exact Function.update_self ..
  rw [hreplies, length_putAll]
  omega

end Served

theorem drainLoop_serves (b : Build) {bk : Backend π} (hfits : bk.Fits) (p : Priority) (n : ℕ)
    (h : InSession damaged g c) :
    ServesTo damaged g p (serve b bk c.peripheralsReady p (7 - (c.desk.replies p).length) n
        (c.desk.requests p) c.peripherals) c (drainLoop b bk p n c).state ∧
      (drainLoop b bk p n c).isOff = (serve b bk c.peripheralsReady p
        (7 - (c.desk.replies p).length) n (c.desk.requests p) c.peripherals).off := by
  -- on the quota; what is left of the ring and of the room is read off the state after one turn
  induction n generalizing c with
  | zero => exact ⟨.refl h p, rfl⟩
  | succ n ih =>
    cases hq : c.desk.requests p with
    | nil =>
      have hturn : drainTurn b bk p c = .left c false true := drainTurn_nil (hq ▸ h.draining p)
      rw [drainLoop, hturn, serve]
      refine ⟨?_, rfl⟩
      rw [← hq]
      exact .refl h p
    | cons m q =>
      obtain ⟨hret, hmessage, hsession, hdesk⟩ := h.receive_cons hq
      rw [drainLoop, drainTurn_eq, hret, hmessage, serve]
      unfold handleReceived
      by_cases hcheck : frameCheck m = ringOk
      · obtain ⟨hposts, hoff⟩ := handleRequest_posts b hfits hsession p m
        have hreplies : (c.received (endpointReceive c.endpoint c.shared p
            Message.zero)).desk.replies = c.desk.replies := by rw [hdesk]
        rw [hreplies] at hoff
        rw [if_pos hcheck, if_pos hcheck]
        dsimp only
        cases hreq : handleRequest b bk (c.received (endpointReceive c.endpoint c.shared p
            Message.zero)) p m with
        | cpuOff c' =>
          rw [hreq] at hposts hoff
          have hleaves : leaves b p (7 - (c.desk.replies p).length) m = true := hoff.symm
          rw [if_pos hleaves]
          exact ⟨Posts.servesTo hdesk rfl hposts, rfl⟩
        | done c' =>
          rw [hreq] at hposts hoff
          have hstays : ¬ leaves b p (7 - (c.desk.replies p).length) m = true :=
            Bool.eq_false_iff.mp hoff.symm
          rw [if_neg hstays]
          have hone : ServesTo damaged g p ⟨(answer b bk c.peripheralsReady p m c.peripherals).1, q,
              (answer b bk c.peripheralsReady p m c.peripherals).2, false⟩ c c' :=
            Posts.servesTo hdesk rfl hposts
          obtain ⟨hrest, hends⟩ := ih hone.session
          rw [hone.ready, hone.requests, hone.peripherals, hone.room] at hrest hends
          exact ⟨hone.cons hrest, hends⟩
      · -- on a session's own page a frame fails its check only by its CRC
        have hm := (h.page.requests p).contents m
          (hq.symm ▸ List.mem_cons_self : m ∈ c.desk.requests p)
        have hbad : frameCheck m = ringBadCrc := (hm.check.resolve_left hcheck).2
        rw [if_neg hcheck, if_pos (Or.inl hbad), if_neg hcheck]
        exact ⟨Posts.servesTo hdesk rfl (handleBadFrame_posts hsession p m hbad), rfl⟩

def Service.desk : Service π → Desk π × Bool
  | .returned pass => (pass.cpu3.desk, false)
  | .cpuOff c => (c.desk, true)

theorem servicePriorities_desk (b : Build) {bk : Backend π} (hfits : bk.Fits) (pending : U32)
    (ps : List Priority) {pass : Pass π} (h : InSession damaged g pass.cpu3) :
    (servicePriorities b bk pending ps pass).desk =
      pass.cpu3.desk.pass b bk pass.cpu3.peripheralsReady pending ps := by
  induction ps generalizing pass with
  | nil => rfl
  | cons p ps ih =>
    obtain ⟨hserves, hoff⟩ := drainLoop_serves b hfits p drainQuota h
    have hring : pass.cpu3.desk.serveRing b bk pass.cpu3.peripheralsReady p =
        ((drainLoop b bk p drainQuota pass.cpu3).state.desk,
          (drainLoop b bk p drainQuota pass.cpu3).isOff) := by
      rw [hserves.desk, hoff]
      rfl
    rw [servicePriorities, Desk.pass]
    split_ifs with hskip
    · exact ih h
    · rw [hring]
      cases hloop : drainLoop b bk p drainQuota pass.cpu3 with
      | cpuOff c' => rfl
      | left c' remaining sawEmpty =>
        rw [hloop] at hserves
        have hnext : InSession damaged g (pass.settle p c' remaining sawEmpty).cpu3 := hserves.session
        have hready : c'.peripheralsReady = pass.cpu3.peripheralsReady := hserves.ready
        show (servicePriorities b bk pending ps (pass.settle p c' remaining sawEmpty)).desk = _
        rw [ih hnext, ← hready]
        rfl

end

/-- A pass over the rings of a session is the pass on lists. -/
theorem pingpongTestService_eq_pass {damaged : Prop} {g : U32} {c : State π} (b : Build)
    {bk : Backend π} (hfits : bk.Fits) (h : InSession damaged g c) (hready : c.endpointReady = true)
    (hpublished : b.skipSessionReady = true ∨ c.sessionReadyPublished = true)
    (pending lastPriority : U32) :
    (pingpongTestService b bk pending lastPriority c).desk =
      c.desk.pass b bk c.peripheralsReady pending [0, 1, 2, 3] := by
  have hgate : ¬ (!b.skipSessionReady ∧ !c.sessionReadyPublished) := by
    rintro ⟨hskip, hnot⟩
    rcases hpublished with hp | hp
    · rw [hp] at hskip
      cases hskip
    · rw [hp] at hnot
      cases hnot
  unfold pingpongTestService
  dsimp only
  rw [if_neg (by rw [hready]; decide), if_neg hgate]
  exact servicePriorities_desk b hfits pending [0, 1, 2, 3] h

/-- The room for answers decides only whether CPU3 goes off. -/
theorem serve_room {b : Build} (bk : Backend π) (ready : Bool) {p : Priority} {room room' n : ℕ}
    {q : List Message} {x : π} (h : (serve b bk ready p room n q x).off = false)
    (h' : (serve b bk ready p room' n q x).off = false) :
    (serve b bk ready p room n q x).left = (serve b bk ready p room' n q x).left ∧
      (serve b bk ready p room n q x).peripherals =
        (serve b bk ready p room' n q x).peripherals := by
  induction n generalizing q room room' x with
  | zero =>
    rw [serve, serve]
    exact ⟨rfl, rfl⟩
  | succ n ih =>
    cases q with
    | nil =>
      rw [serve, serve]
      exact ⟨rfl, rfl⟩
    | cons m q =>
      rw [serve] at h h' ⊢
      rw [serve]
      by_cases hcheck : frameCheck m = ringOk
      · rw [if_pos hcheck] at h h' ⊢
        rw [if_pos hcheck]
        dsimp only at h h' ⊢
        split_ifs at h h' ⊢ with hleaves hleaves'
        exact ih h h'
      · rw [if_neg hcheck, if_neg hcheck]
        exact ⟨rfl, rfl⟩

theorem Desk.pass_replies {b : Build} (bk : Backend π) (ready : Bool) (pending : U32)
    (ps : List Priority) {d d' : Desk π} (hrequests : d'.requests = d.requests)
    (hwork : d'.peripherals = d.peripherals) (h : (d.pass b bk ready pending ps).2 = false)
    (h' : (d'.pass b bk ready pending ps).2 = false) :
    (d'.pass b bk ready pending ps).1.requests = (d.pass b bk ready pending ps).1.requests ∧
      (d'.pass b bk ready pending ps).1.peripherals =
        (d.pass b bk ready pending ps).1.peripherals := by
  induction ps generalizing d d' with
  | nil => exact ⟨hrequests, hwork⟩
  | cons p ps ih =>
    rw [Desk.pass] at h h' ⊢
    rw [Desk.pass]
    by_cases hskip : !hasBit pending p ∨ p.val = b.skipPriority
    · rw [if_pos hskip] at h h' ⊢
      rw [if_pos hskip]
      exact ih hrequests hwork h h'
    · rw [if_neg hskip] at h h' ⊢
      rw [if_neg hskip]
      dsimp only at h h' ⊢
      -- a ring that takes CPU3 off ends the pass
      have hring : (d.serveRing b bk ready p).2 = false := by
        by_contra hoff
        rw [if_pos (Bool.eq_true_of_not_eq_false hoff)] at h
        exact hoff h
      have hring' : (d'.serveRing b bk ready p).2 = false := by
        by_contra hoff
        rw [if_pos (Bool.eq_true_of_not_eq_false hoff)] at h'
        exact hoff h'
      rw [hring] at h ⊢
      rw [hring'] at h' ⊢
      have hstays : (serve b bk ready p (7 - (d'.replies p).length) drainQuota (d.requests p)
          d.peripherals).off = false := by
        rw [Desk.serveRing, hrequests, hwork] at hring'
        exact hring'
      obtain ⟨hleft, hperipherals⟩ := serve_room bk ready hring hstays
      refine ih ?_ ?_ h h'
      · rw [Desk.serveRing, Desk.serveRing, hrequests, hwork]
        dsimp only
        rw [hleft]
      · rw [Desk.serveRing, Desk.serveRing, hrequests, hwork]
        exact hperipherals.symm

end Lzamp.Cpu3
