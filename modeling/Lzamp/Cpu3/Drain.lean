import Lzamp.Cpu3.Service

namespace Lzamp.Cpu3
open Mailmsg

variable {π : Type}

structure KeepsRequests (c c' : State π) : Prop where
  requests : c'.shared.linuxToCpu3 = c.shared.linuxToCpu3
  header : c'.shared.header = c.shared.header
  identity : c'.endpoint.identity = c.endpoint.identity

theorem KeepsRequests.refl (c : State π) : KeepsRequests c c := ⟨rfl, rfl, rfl⟩

theorem KeepsRequests.trans {a b c : State π} (h : KeepsRequests a b) (h' : KeepsRequests b c) :
    KeepsRequests a c :=
  ⟨h'.requests.trans h.requests, h'.header.trans h.header, h'.identity.trans h.identity⟩

theorem KeepsRequests.role {c c' : State π} (h : KeepsRequests c c')
    (hrole : c.endpoint.role = some .cpu3) : c'.endpoint.role = some .cpu3 :=
  (congrArg Prod.fst h.identity).trans hrole

theorem KeepsRequests.plays {c c' : State π} (h : KeepsRequests c c')
    (hrole : c.endpoint.Plays .cpu3) : c'.endpoint.Plays .cpu3 := hrole.of_identity h.identity

theorem keeps_transmit {c : State π} (hrole : c.endpoint.Plays .cpu3) (p : Priority)
    (type : U32) (payload : List U8) : KeepsRequests c (transmit c p type payload).2 := by
  unfold transmit
  dsimp only
  have hkeep : KeepsRequests c { c with
      endpoint := (endpointSend cpu3Notify c.b2a c.endpoint c.shared p type (some payload)
        (BitVec.ofNat 32 payload.length) SendResult.zero).endpoint
      shared := (endpointSend cpu3Notify c.b2a c.endpoint c.shared p type (some payload)
        (BitVec.ofNat 32 payload.length) SendResult.zero).shared
      b2a := (endpointSend cpu3Notify c.b2a c.endpoint c.shared p type (some payload)
        (BitVec.ofNat 32 payload.length) SendResult.zero).notifier } :=
    ⟨rx_endpointSend _ _ _ _ _ _ _ _ _ hrole, header_endpointSend _ _ _ _ _ _ _ _ _,
      identity_endpointSend _ _ _ _ _ _ _ _ _⟩
  split_ifs
  · unfold State.recordTxFull
    split_ifs
    · exact hkeep
    · exact ⟨hkeep.requests, hkeep.header, hkeep.identity⟩
  · exact hkeep

/-- One thing a handler does: send a frame that `ok` allows, or work on its own variables. -/
inductive Emit (ok : Priority → U32 → List U8 → Prop) (c : State π) : State π → Prop
  | send {p : Priority} {type : U32} {payload : List U8} (h : ok p type payload) :
      Emit ok c (transmit c p type payload).2
  | work {c' : State π} (endpoint : c'.endpoint = c.endpoint) (shared : c'.shared = c.shared) :
      Emit ok c c'

abbrev Emits (ok : Priority → U32 → List U8 → Prop) : State π → State π → Prop :=
  Relation.ReflTransGen (Emit ok)

theorem Emits.mono {ok ok' : Priority → U32 → List U8 → Prop} {c c' : State π} (h : Emits ok c c')
    (hok : ∀ p type payload, ok p type payload → ok' p type payload) : Emits ok' c c' := by
  refine Relation.ReflTransGen.mono (fun a b hab => ?_) _ _ h
  cases hab with
  | send h => exact .send (hok _ _ _ h)
  | work he hs => exact .work he hs

theorem Emits.keepsRequests {ok : Priority → U32 → List U8 → Prop} {c c' : State π}
    (h : Emits ok c c') (hrole : c.endpoint.Plays .cpu3) : KeepsRequests c c' := by
  induction h with
  | refl => exact .refl c
  | tail _ hab ih =>
    refine ih.trans ?_
    cases hab with
    | send _ => exact keeps_transmit (ih.plays hrole) _ _ _
    | work he hs => exact ⟨by rw [hs], by rw [hs], by rw [he]⟩

/-- The payload of ACK, NACK and the stop replies. -/
def feedback (peerSequence status : U32) : List U8 :=
  storePayloadU32 peerSequence ++ storePayloadU32 status

section Emits

variable {ok : Priority → U32 → List U8 → Prop} {c : State π} {p : Priority}

theorem emits_nackIfReliable {sequence reason : U32} (h : ok p msgNack (feedback sequence reason)) :
    Emits ok c (nackIfReliable c p sequence reason) := by
  unfold nackIfReliable
  split_ifs
  · exact .single (.send h)
  · exact .refl

theorem emits_handleBadFrame {ret : Int} {request : Message}
    (h : ∀ reason, ok p msgNack (feedback request.sequence reason)) :
    Emits ok c (handleBadFrame c p ret request) :=
  (emits_nackIfReliable (h _)).tail (.work rfl rfl)

theorem emits_handlePeripheralRequest (bk : Backend π) {request : Message}
    (hnack : ∀ reason, ok p msgNack (feedback request.sequence reason))
    (hack : ok p msgAck (feedback request.sequence 0))
    (hresult : ∀ result, (bk.execute c.peripherals request).1 = some result →
      ok p msgPeripheralResult result) :
    Emits ok c (handlePeripheralRequest bk c p request) := by
  unfold handlePeripheralRequest
  split_ifs
  · exact emits_nackIfReliable (hnack _)
  · have hexec : Emit ok c { c with peripherals := (bk.execute c.peripherals request).2 } :=
      .work rfl rfl
    dsimp only
    cases hr : (bk.execute c.peripherals request).1 with
    | none => exact .head hexec (emits_nackIfReliable (hnack _))
    | some result =>
      dsimp only
      split_ifs
      · exact .head hexec (.single (.send hack))
      · exact .head hexec (.head (.send hack) (.single (.send (hresult result hr))))

theorem emits_handleGpioReadRequest (bk : Backend π) {request : Message}
    (hnack : ∀ reason, ok p msgNack (feedback request.sequence reason))
    (hack : ok p msgAck (feedback request.sequence 0))
    (hresult : ∀ line value, ok p msgGpioReadResult
      (storePayloadU32 request.sequence ++ storePayloadU32 line ++ storePayloadU32 value)) :
    Emits ok c (handleGpioReadRequest bk c p request) := by
  unfold handleGpioReadRequest
  split_ifs
  · exact emits_nackIfReliable (hnack _)
  · have hget : Emit ok c { c with
        peripherals := (bk.gpioGet c.peripherals (payloadU32 request.payload 0)).2 } :=
      .work rfl rfl
    dsimp only
    cases (bk.gpioGet c.peripherals (payloadU32 request.payload 0)).1 with
    | none => exact .head hget (.single (.send (hnack _)))
    | some value =>
      dsimp only
      split_ifs
      · exact .head hget (.single (.send hack))
      · exact .head hget (.head (.send hack) (.single (.send (hresult _ _))))

theorem emits_handleOther {request : Message} (hack : ok p msgAck (feedback request.sequence 0))
    (hpong : ∀ payload, ok p msgPong payload) (hnop : ∀ payload, ok p msgNop payload) :
    Emits ok c (handleOther c p request) := by
  have htype : ∀ payload, ok p (if request.type = msgPing then msgPong else msgNop) payload := by
    intro payload
    split_ifs
    · exact hpong payload
    · exact hnop payload
  unfold handleOther
  dsimp only
  split_ifs
  · exact .head (.send hack) (.single (.send (htype _)))
  · exact .single (.send (htype _))

end Emits

theorem keeps_handleBadFrame {c : State π} (hrole : c.endpoint.Plays .cpu3) (p : Priority)
    (ret : Int) (request : Message) : KeepsRequests c (handleBadFrame c p ret request) := by
  have h : Emits (fun _ _ _ => True) c (handleBadFrame c p ret request) :=
    emits_handleBadFrame fun _ => trivial
  exact Emits.keepsRequests h hrole

/-- STOP_REFUSED answers only a STOP_REQUEST of p0 that has a payload or that the image does not
support. -/
def AnswerTo (b : Build) (p : Priority) (request : Message) (type : U32) : Prop :=
  type = msgStopRefused → p = prioCritical ∧ request.type = msgStopRequest ∧
    (request.length ≠ 0 ∨ b.stopControl = false)

theorem answerTo_of_ne {b : Build} {p : Priority} {request : Message} {type : U32}
    (h : type ≠ msgStopRefused) : AnswerTo b p request type := fun heq => absurd heq h

theorem handleRequest_done {b : Build} {bk : Backend π} {c c' : State π} {p : Priority}
    {request : Message} (h : handleRequest b bk c p request = .done c') :
    Emits (fun _ type _ => AnswerTo b p request type) c c' := by
  have hne : ∀ {type : U32}, type ≠ msgStopRefused → AnswerTo b p request type := answerTo_of_ne
  unfold handleRequest handleStopRequest at h
  dsimp only at h
  split_ifs at h with hstop hlength hcontrol hsent hself hperipheral hgpio <;> cases h
  · exact .single (.send fun _ => ⟨hstop.1, hstop.2, Or.inl hlength⟩)
  · exact .single (.send (hne (by decide)))
  · exact .single (.send fun _ =>
      ⟨hstop.1, hstop.2, Or.inr (Bool.eq_false_iff.mpr hcontrol)⟩)
  · exact emits_handlePeripheralRequest bk (fun _ => hne (by decide)) (hne (by decide))
      fun _ _ => hne (by decide)
  · exact emits_handleGpioReadRequest bk (fun _ => hne (by decide)) (hne (by decide))
      fun _ _ => hne (by decide)
  · exact emits_handleOther (hne (by decide)) (fun _ => hne (by decide))
      fun _ => hne (by decide)

/-- CPU3 is taken off by an empty STOP_REQUEST on p0, or by the test image's PING. -/
theorem handleRequest_cpuOff {b : Build} {bk : Backend π} {c c' : State π} {p : Priority}
    {request : Message} (h : handleRequest b bk c p request = .cpuOff c') :
    Emits (fun _ type _ => AnswerTo b p request type) c c' ∧
      (isSelfOff b p request = true ∨
        p = prioCritical ∧ request.type = msgStopRequest ∧ request.length = 0) := by
  unfold handleRequest handleStopRequest at h
  dsimp only at h
  split_ifs at h with hstop hlength hcontrol hsent hself <;> cases h
  · exact ⟨.single (.send (answerTo_of_ne (by decide))),
      Or.inr ⟨hstop.1, hstop.2, not_not.mp hlength⟩⟩
  · exact ⟨.refl, Or.inl hself⟩

/-- A frame the service handles before it goes on to the next. -/
def Sound (generation : U32) (m : Message) : Prop :=
  frameCheck m = ringOk ∧ m.generation = generation

/-- Where the loop stops on a queue: what is left of the quota, whether it reached the end of the
queue, and the frames left there.  It stops behind a damaged frame, which it counts, and behind a
frame of another session, which it does not. -/
def drainWalk (generation : U32) : ℕ → List Message → ℕ × Bool × List Message
  | 0, q => (0, false, q)
  | n + 1, [] => (n + 1, true, [])
  | n + 1, m :: q =>
    if frameCheck m = ringOk then
      if m.generation = generation then drainWalk generation n q else (n + 1, false, q)
    else (n, false, q)

/-- Ring `p` holds the committed frames `q`, and the service can receive them. -/
structure Draining (c : State π) (p : Priority) (q : List Message) : Prop where
  role : c.endpoint.role = some .cpu3
  session : endpointSessionValid c.endpoint c.shared = endpointOk
  inRange : (c.shared.linuxToCpu3 p).InRange
  contents : (c.shared.linuxToCpu3 p).contents = q
  committed : ∀ m ∈ q, m.commit = m.sequence

/-- At most ring `p` of the requests has changed. -/
structure OnlyRing (p : Priority) (c c' : State π) : Prop where
  others : ∀ p' ≠ p, c'.shared.linuxToCpu3 p' = c.shared.linuxToCpu3 p'
  header : c'.shared.header = c.shared.header
  identity : c'.endpoint.identity = c.endpoint.identity

theorem OnlyRing.trans {p : Priority} {a b c : State π} (h : OnlyRing p a b)
    (h' : OnlyRing p b c) : OnlyRing p a c :=
  ⟨fun p' hp => (h'.others p' hp).trans (h.others p' hp), h'.header.trans h.header,
    h'.identity.trans h.identity⟩

theorem KeepsRequests.onlyRing {c c' : State π} (h : KeepsRequests c c') (p : Priority) :
    OnlyRing p c c' := ⟨fun p' _ => congrFun h.requests p', h.header, h.identity⟩

theorem Draining.keeps {c c' : State π} {p : Priority} {q : List Message} (h : Draining c p q)
    (hk : KeepsRequests c c') : Draining c' p q where
  role := hk.role h.role
  session := (endpointSessionValid_congr hk.identity hk.header).trans h.session
  inRange := hk.requests ▸ h.inRange
  contents := hk.requests ▸ h.contents
  committed := h.committed

theorem Draining.receive_nil {c : State π} {p : Priority} (h : Draining c p []) :
    endpointReceive c.endpoint c.shared p Message.zero =
      ⟨ringEmpty, c.endpoint, c.shared, Message.zero⟩ :=
  endpointReceive_nil h.role h.session h.inRange h.contents Message.zero

theorem Draining.receive_cons {c : State π} {p : Priority} {m : Message} {q : List Message}
    (h : Draining c p (m :: q)) :
    (endpointReceive c.endpoint c.shared p Message.zero).ret =
        receiveResult c.endpoint.generation (frameCheck m) m ∧
      (endpointReceive c.endpoint c.shared p Message.zero).message = m ∧
      Draining (c.received (endpointReceive c.endpoint c.shared p Message.zero)) p q ∧
      OnlyRing p c (c.received (endpointReceive c.endpoint c.shared p Message.zero)) := by
  have hcommit := h.committed m List.mem_cons_self
  obtain ⟨hret, hmsg, hshared, htail, hrange⟩ :=
    endpointReceive_cons h.role h.session h.inRange h.contents hcommit Message.zero
  have hid := endpointReceive_identity c.endpoint c.shared p Message.zero
  have hheader := endpointReceive_header c.endpoint c.shared p Message.zero
  have hrings : (c.received (endpointReceive c.endpoint c.shared p
      Message.zero)).shared.linuxToCpu3 =
      Function.update c.shared.linuxToCpu3 p (c.shared.linuxToCpu3 p).released := by
    change (endpointReceive c.endpoint c.shared p Message.zero).shared.linuxToCpu3 = _
    rw [hshared]
    rfl
  refine ⟨hret, hmsg, ⟨?_, ?_, ?_, ?_, ?_⟩, ⟨?_, hheader, hid⟩⟩
  · exact (congrArg Prod.fst hid).trans h.role
  · exact (endpointSessionValid_congr hid hheader).trans h.session
  · rw [hrings, Function.update_self]
    exact hrange
  · rw [hrings, Function.update_self]
    exact htail
  · intro m' hm'
    exact h.committed m' (List.mem_cons_of_mem _ hm')
  · intro p' hp
    rw [hrings, Function.update_of_ne hp]

section Turns

variable {b : Build} {bk : Backend π} {p : Priority} {c : State π} {m : Message} {q : List Message}

theorem drainTurn_nil (h : Draining c p []) : drainTurn b bk p c = .left c false true := by
  rw [drainTurn, h.receive_nil]
  rfl

theorem drainTurn_sound (h : Draining c p (m :: q)) (hm : Sound c.endpoint.generation m) :
    (∃ c', drainTurn b bk p c = .again c' ∧ Draining c' p q ∧ OnlyRing p c c') ∨
      ∃ c', drainTurn b bk p c = .cpuOff c' := by
  obtain ⟨hret, hmsg, hdrain, honly⟩ := h.receive_cons
  have hok : (endpointReceive c.endpoint c.shared p Message.zero).ret = ringOk := by
    rw [hret, receiveResult, if_neg (fun hn => hn.2 hm.2), hm.1]
  rw [drainTurn]
  rw [if_pos hok, hmsg]
  cases hreq : handleRequest b bk (c.received (endpointReceive c.endpoint c.shared p
      Message.zero)) p m with
  | cpuOff c' => exact Or.inr ⟨c', rfl⟩
  | done c' =>
    have hkeeps := Emits.keepsRequests (handleRequest_done hreq) (.inr hdrain.role)
    exact Or.inl ⟨c', rfl, hdrain.keeps hkeeps, honly.trans (hkeeps.onlyRing p)⟩

theorem drainTurn_stale (h : Draining c p (m :: q)) (hcheck : frameCheck m = ringOk)
    (hgen : m.generation ≠ c.endpoint.generation) :
    ∃ c', drainTurn b bk p c = .left c' false false ∧ Draining c' p q ∧ OnlyRing p c c' := by
  obtain ⟨hret, hmsg, hdrain, honly⟩ := h.receive_cons
  have hstale : (endpointReceive c.endpoint c.shared p Message.zero).ret = endpointStaleFrame := by
    rw [hret, receiveResult, if_pos ⟨hcheck, hgen⟩]
  rw [drainTurn]
  rw [hstale]
  exact ⟨_, rfl, hdrain, honly⟩

theorem drainTurn_damaged (h : Draining c p (m :: q)) (hcheck : frameCheck m ≠ ringOk) :
    ∃ c', drainTurn b bk p c = .left c' true false ∧ Draining c' p q ∧ OnlyRing p c c' := by
  obtain ⟨hret, hmsg, hdrain, honly⟩ := h.receive_cons
  have hres : (endpointReceive c.endpoint c.shared p Message.zero).ret = frameCheck m := by
    rw [hret, receiveResult, if_neg (fun hn => hcheck hn.1)]
  rw [drainTurn]
  rw [hres, if_neg hcheck, if_pos ((frameCheck_range m).resolve_left hcheck)]
  have hkeeps := keeps_handleBadFrame (.inr hdrain.role) p (frameCheck m)
    (endpointReceive c.endpoint c.shared p Message.zero).message
  exact ⟨_, rfl, hdrain.keeps hkeeps, honly.trans (hkeeps.onlyRing p)⟩

end Turns

theorem drainLoop_walk {b : Build} {bk : Backend π} {p : Priority} {n : ℕ} {c c' : State π}
    {q : List Message} {remaining : ℕ} {sawEmpty : Bool} (h : Draining c p q)
    (hrun : drainLoop b bk p n c = .left c' remaining sawEmpty) :
    (drainWalk c.endpoint.generation n q).1 = remaining ∧
      (drainWalk c.endpoint.generation n q).2.1 = sawEmpty ∧
      Draining c' p (drainWalk c.endpoint.generation n q).2.2 ∧ OnlyRing p c c' := by
  have hself : ∀ c : State π, OnlyRing p c c := fun c => ⟨fun _ _ => rfl, rfl, rfl⟩
  induction n generalizing c q with
  | zero =>
    cases hrun
    exact ⟨rfl, rfl, h, hself _⟩
  | succ n ih =>
    simp only [drainLoop] at hrun
    cases q with
    | nil =>
      rw [drainTurn_nil h] at hrun
      cases hrun
      exact ⟨rfl, rfl, h, hself _⟩
    | cons m q =>
      by_cases hcheck : frameCheck m = ringOk
      · by_cases hgen : m.generation = c.endpoint.generation
        · rw [drainWalk, if_pos hcheck, if_pos hgen]
          rcases drainTurn_sound (b := b) h ⟨hcheck, hgen⟩ with
            ⟨c₁, hturn, hdrain, honly⟩ | ⟨c₁, hturn⟩
          · rw [hturn] at hrun
            have hsame : c₁.endpoint.generation = c.endpoint.generation :=
              congrArg Prod.snd honly.identity
            obtain ⟨hrem, hsaw, hleft, honly₁⟩ := ih hdrain hrun
            rw [hsame] at hrem hsaw hleft
            exact ⟨hrem, hsaw, hleft, honly.trans honly₁⟩
          · rw [hturn] at hrun
            cases hrun
        · rw [drainWalk, if_pos hcheck, if_neg hgen]
          obtain ⟨c₁, hturn, hdrain, honly⟩ := drainTurn_stale (b := b) h hcheck hgen
          rw [hturn] at hrun
          cases hrun
          exact ⟨rfl, rfl, hdrain, honly⟩
      · rw [drainWalk, if_neg hcheck]
        obtain ⟨c₁, hturn, hdrain, honly⟩ := drainTurn_damaged (b := b) h hcheck
        rw [hturn] at hrun
        cases hrun
        exact ⟨rfl, rfl, hdrain, honly⟩

/-- On a queue within the quota, the loop reaches the end or uses the quota up exactly when every
frame is sound, or when the only bad frame is damaged, is the last and uses the quota up. -/
theorem drainWalk_settled_iff (generation : U32) {n : ℕ} {q : List Message} (h : q.length ≤ n) :
    ((drainWalk generation n q).2.1 = true ∨ (drainWalk generation n q).1 = 0) ↔
      (∀ m ∈ q, Sound generation m) ∨
      ∃ pre m, q = pre ++ [m] ∧ pre.length + 1 = n ∧ (∀ m ∈ pre, Sound generation m) ∧
        frameCheck m ≠ ringOk := by
  induction q generalizing n with
  | nil => cases n <;> simp [drainWalk]
  | cons m q ih =>
    obtain ⟨n, rfl⟩ : ∃ k, n = k + 1 := ⟨n - 1, by simp at h; omega⟩
    have hlen : q.length ≤ n := by simpa using h
    -- a frame that is not sound can only be the last one of the second alternative
    have hhead : ¬ Sound generation m → ∀ pre m', m :: q = pre ++ [m'] →
        (∀ x ∈ pre, Sound generation x) → pre = [] ∧ q = [] ∧ m' = m := by
      intro hm pre m' heq hpre
      cases pre with
      | nil =>
        simp only [List.nil_append, List.cons.injEq] at heq
        exact ⟨rfl, heq.2, heq.1.symm⟩
      | cons x pre =>
        simp only [List.cons_append, List.cons.injEq] at heq
        exact absurd (heq.1 ▸ hpre x List.mem_cons_self) hm
    by_cases hcheck : frameCheck m = ringOk
    · by_cases hgen : m.generation = generation
      · rw [drainWalk, if_pos hcheck, if_pos hgen, ih hlen]
        have hm : Sound generation m := ⟨hcheck, hgen⟩
        constructor
        · rintro (hall | ⟨pre, m', rfl, hpre, hsound, hbad⟩)
          · exact Or.inl (by simpa [hm] using hall)
          · exact Or.inr ⟨m :: pre, m', rfl, by simpa using hpre, by simpa [hm] using hsound, hbad⟩
        · rintro (hall | ⟨pre, m', heq, hpre, hsound, hbad⟩)
          · exact Or.inl fun x hx => hall x (List.mem_cons_of_mem _ hx)
          · cases pre with
            | nil =>
              simp only [List.nil_append, List.cons.injEq] at heq
              exact absurd (heq.1 ▸ hcheck) hbad
            | cons x pre =>
              simp only [List.cons_append, List.cons.injEq] at heq
              refine Or.inr ⟨pre, m', heq.2, by simpa using hpre, ?_, hbad⟩
              exact fun y hy => hsound y (List.mem_cons_of_mem _ hy)
      · -- a stale frame ends the loop with the quota not used up, and is no damaged one
        rw [drainWalk, if_pos hcheck, if_neg hgen]
        have hm : ¬ Sound generation m := fun h => hgen h.2
        refine iff_of_false (by simp) ?_
        rintro (hall | ⟨pre, m', heq, -, hsound, hbad⟩)
        · exact hm (hall m List.mem_cons_self)
        · obtain ⟨-, -, rfl⟩ := hhead hm pre m' heq hsound
          exact hbad hcheck
    · rw [drainWalk, if_neg hcheck]
      -- a damaged frame ends the loop too, but its turn is counted against the quota
      have hm : ¬ Sound generation m := fun h => hcheck h.1
      constructor
      · rintro (hfalse | hzero)
        · cases hfalse
        · have hq : q = [] := List.length_eq_zero_iff.mp (by dsimp only at hzero; omega)
          subst hq
          exact Or.inr ⟨[], m, rfl, by simpa using hzero, by simp, hcheck⟩
      · rintro (hall | ⟨pre, m', heq, hlast, hsound, -⟩)
        · exact absurd (hall m List.mem_cons_self) hm
        · obtain ⟨rfl, -, -⟩ := hhead hm pre m' heq hsound
          exact Or.inr (by simpa using hlast.symm)

/-- When the pass over the priorities does its duty for `p`: the priority is served, the session is
valid, and no frame stops the loop early, except that a damaged seventh frame does no harm. -/
def Settles (b : Build) (c : State π) (p : Priority) : Prop :=
  p.val ≠ b.skipPriority ∧ endpointSessionValid c.endpoint c.shared = endpointOk ∧
    ((∀ m ∈ (c.shared.linuxToCpu3 p).contents, Sound c.endpoint.generation m) ∨
      ∃ pre m, (c.shared.linuxToCpu3 p).contents = pre ++ [m] ∧ pre.length + 1 = drainQuota ∧
        (∀ m ∈ pre, Sound c.endpoint.generation m) ∧ frameCheck m ≠ ringOk)

/-- The rings the service reads are in order and every queued slot is committed. -/
structure Serviceable (c : State π) : Prop where
  role : c.endpoint.role = some .cpu3
  inRange : ∀ p, (c.shared.linuxToCpu3 p).InRange
  committed : ∀ p, ∀ m ∈ (c.shared.linuxToCpu3 p).contents, m.commit = m.sequence

theorem Serviceable.draining {c : State π} (h : Serviceable c)
    (hsession : endpointSessionValid c.endpoint c.shared = endpointOk) (p : Priority) :
    Draining c p (c.shared.linuxToCpu3 p).contents :=
  ⟨h.role, hsession, h.inRange p, rfl, h.committed p⟩

theorem drainTurn_of_invalid {b : Build} {bk : Backend π} {p : Priority} {c : State π}
    (h : endpointSessionValid c.endpoint c.shared ≠ endpointOk) :
    drainTurn b bk p c = .left c false false := by
  have hlow := endpointSessionValid_le h
  rw [drainTurn, endpointReceive_of_invalid h]
  dsimp only
  rw [if_neg (lt_of_le_of_lt hlow (by decide)).ne, if_neg, decide_eq_false]
  · rfl
  · exact (lt_of_le_of_lt hlow (by decide)).ne
  · rintro (heq | heq) <;> rw [heq] at hlow <;> exact absurd hlow (by decide)

theorem settle_other (pass : Pass π) {p p' : Priority} (hp : p' ≠ p) (c : State π)
    (remaining : ℕ) (sawEmpty : Bool) :
    (pass.settle p c remaining sawEmpty).sawEmpty p' = pass.sawEmpty p' ∧
      hasBit (pass.settle p c remaining sawEmpty).reschedule p' = hasBit pass.reschedule p' := by
  constructor
  · exact Function.update_of_ne hp _ _
  · unfold Pass.settle
    dsimp only
    split_ifs
    · rw [hasBit_or, hasBit_bit, decide_eq_false (Ne.symm hp), Bool.or_false]
    · rfl

/-- A used-up quota is always followed up: the ring is found empty or asked for again. -/
theorem settle_self (pass : Pass π) {p : Priority} {c : State π} {remaining : ℕ} {sawEmpty : Bool}
    (hmore : remaining = 0 → endpointHasReceived c.endpoint c.shared p = 0 ∨
      endpointHasReceived c.endpoint c.shared p = 1)
    (hres : hasBit pass.reschedule p = false) :
    ((pass.settle p c remaining sawEmpty).sawEmpty p = true ∨
      hasBit (pass.settle p c remaining sawEmpty).reschedule p = true) ↔
      sawEmpty = true ∨ remaining = 0 := by
  have hsaw : (pass.settle p c remaining sawEmpty).sawEmpty p =
      (sawEmpty || decide (remaining = 0 ∧ endpointHasReceived c.endpoint c.shared p = 0)) :=
    Function.update_self _ _ _
  have hbit : hasBit (pass.settle p c remaining sawEmpty).reschedule p =
      decide (remaining = 0 ∧ endpointHasReceived c.endpoint c.shared p = 1) := by
    unfold Pass.settle
    dsimp only
    split_ifs with h <;> simp [hres, h]
  rw [hsaw, hbit, Bool.or_eq_true, decide_eq_true_eq, decide_eq_true_eq]
  constructor
  · rintro ((h | ⟨h, -⟩) | ⟨h, -⟩)
    · exact Or.inl h
    · exact Or.inr h
    · exact Or.inr h
  · rintro (h | h)
    · exact Or.inl (Or.inl h)
    · rcases hmore h with h' | h'
      · exact Or.inl (Or.inr ⟨h, h'⟩)
      · exact Or.inr ⟨h, h'⟩

theorem turn_settled {b : Build} {bk : Backend π} {p : Priority} {pass : Pass π} {c' : State π}
    {remaining : ℕ} {sawEmpty : Bool} (hc : Serviceable pass.cpu3) (hskip : p.val ≠ b.skipPriority)
    (hrun : drainLoop b bk p drainQuota pass.cpu3 = .left c' remaining sawEmpty) :
    OnlyRing p pass.cpu3 c' ∧ Serviceable c' ∧
      (hasBit pass.reschedule p = false →
        (((pass.settle p c' remaining sawEmpty).sawEmpty p = true ∨
          hasBit (pass.settle p c' remaining sawEmpty).reschedule p = true) ↔
          Settles b pass.cpu3 p)) := by
  by_cases hsession : endpointSessionValid pass.cpu3.endpoint pass.cpu3.shared = endpointOk
  · obtain ⟨hrem, hsaw, hleft, honly⟩ := drainLoop_walk (hc.draining hsession p) hrun
    refine ⟨honly, ⟨hleft.role, fun p' => ?_, fun p' => ?_⟩, fun hres => ?_⟩
    · by_cases hp : p' = p
      · rw [hp]
        exact hleft.inRange
      · rw [honly.others p' hp]
        exact hc.inRange p'
    · by_cases hp : p' = p
      · rw [hp, hleft.contents]
        exact hleft.committed
      · rw [honly.others p' hp]
        exact hc.committed p'
    · have hmore : endpointHasReceived c'.endpoint c'.shared p = 0 ∨
          endpointHasReceived c'.endpoint c'.shared p = 1 := by
        rw [endpointHasReceived_of_valid hleft.role hleft.session, ringHasData_eq]
        split_ifs
        · exact Or.inl rfl
        · exact Or.inr rfl
      have hlen : (pass.cpu3.shared.linuxToCpu3 p).contents.length ≤ drainQuota := by
        rw [Ring.length_contents]
        exact Nat.le_of_lt_succ (Ring.depth_lt _)
      rw [settle_self pass (fun _ => hmore) hres, ← hrem, ← hsaw, drainWalk_settled_iff _ hlen]
      exact ⟨fun h => ⟨hskip, hsession, h⟩, fun h => h.2.2⟩
  · rw [drainLoop, drainTurn_of_invalid hsession] at hrun
    cases hrun
    refine ⟨⟨fun _ _ => rfl, rfl, rfl⟩, hc, fun hres => ?_⟩
    rw [settle_self pass (fun h => absurd h (by decide)) hres]
    exact iff_of_false (by simp) fun h => hsession h.2.1

theorem servicePriorities_settled {b : Build} {bk : Backend π} {pending : U32}
    {ps : List Priority} {pass pass' : Pass π} (hps : ps.Nodup) (hc : Serviceable pass.cpu3)
    (hrun : servicePriorities b bk pending ps pass = .returned pass') :
    (∀ p ∉ ps, pass'.sawEmpty p = pass.sawEmpty p ∧
      hasBit pass'.reschedule p = hasBit pass.reschedule p) ∧
    (∀ p ∈ ps, hasBit pending p = true → pass.sawEmpty p = false →
      hasBit pass.reschedule p = false →
      ((pass'.sawEmpty p = true ∨ hasBit pass'.reschedule p = true) ↔ Settles b pass.cpu3 p)) := by
  -- no priority comes twice, so what its turn leaves is what the pass leaves
  induction ps generalizing pass with
  | nil =>
    cases hrun
    exact ⟨fun _ _ => ⟨rfl, rfl⟩, by simp⟩
  | cons p ps ih =>
    obtain ⟨hp, hps⟩ := List.nodup_cons.mp hps
    simp only [servicePriorities] at hrun
    split_ifs at hrun with hturn
    · obtain ⟨hout, hin⟩ := ih hps hc hrun
      refine ⟨fun p' hp' => hout p' fun h => hp' (List.mem_cons_of_mem _ h), ?_⟩
      intro p' hp' hpend hsaw hres
      rcases List.mem_cons.mp hp' with rfl | hmem
      · -- skipped although pending: only the test switch does that
        have hskip : p'.val = b.skipPriority := hturn.resolve_left (by simp [hpend])
        obtain ⟨hsaw', hres'⟩ := hout p' hp
        rw [hsaw', hres', hsaw, hres]
        exact iff_of_false (by simp) fun h => h.1 hskip
      · exact hin p' hmem hpend hsaw hres
    · have hskip : p.val ≠ b.skipPriority := fun h => hturn (Or.inr h)
      cases hdrain : drainLoop b bk p drainQuota pass.cpu3 with
      | cpuOff c' => simp [hdrain] at hrun
      | left c' remaining sawEmpty =>
        rw [hdrain] at hrun
        obtain ⟨honly, hc', hsettle⟩ := turn_settled hc hskip hdrain
        obtain ⟨hout, hin⟩ := ih hps hc' hrun
        have hother : ∀ p' ≠ p, _ := fun p' hne => settle_other pass hne c' remaining sawEmpty
        refine ⟨fun p' hp' => ?_, fun p' hp' hpend hsaw hres => ?_⟩
        · obtain ⟨hne, hnot⟩ := not_or.mp (mt List.mem_cons.mpr hp')
          rw [(hout p' hnot).1, (hout p' hnot).2]
          exact hother p' hne
        · by_cases hne : p' = p
          · subst hne
            rw [(hout p' hp).1, (hout p' hp).2]
            exact hsettle hres
          · have hmem := (List.mem_cons.mp hp').resolve_left hne
            rw [hin p' hmem hpend ((hother p' hne).1.trans hsaw) ((hother p' hne).2.trans hres)]
            -- the turn of `p` has not changed what `p'` has queued
            have hsession : endpointSessionValid c'.endpoint c'.shared =
                endpointSessionValid pass.cpu3.endpoint pass.cpu3.shared :=
              endpointSessionValid_congr honly.identity honly.header
            have hgen : c'.endpoint.generation = pass.cpu3.endpoint.generation :=
              congrArg Prod.snd honly.identity
            unfold Settles
            simp only [Pass.settle, hsession, hgen, honly.others p' hne]

/-- Whether a pass leaves a pending priority found empty or scheduled again. -/
theorem drain_pass_settles_iff {b : Build} {bk : Backend π} {pending lastPriority : U32}
    {c : State π} {pass : Pass π} (hready : c.endpointReady = true)
    (hpublished : c.sessionReadyPublished = true) (hc : Serviceable c)
    (hrun : pingpongTestService b bk pending lastPriority c = .returned pass) (p : Priority)
    (hp : hasBit pending p = true) :
    (pass.sawEmpty p = true ∨ hasBit pass.reschedule p = true) ↔ Settles b c p := by
  have hloop : pingpongTestService b bk pending lastPriority c =
      servicePriorities b bk pending [0, 1, 2, 3] ⟨c, 0, lastPriority, 0, fun _ => false⟩ := by
    simp [pingpongTestService, hready, hpublished]
  rw [hloop] at hrun
  have hall : ∀ p : Priority, p ∈ ([0, 1, 2, 3] : List Priority) := by decide
  exact (servicePriorities_settled (by decide) hc hrun).2 p (hall p) hp rfl (hasBit_zero p)

section Runs

/-- The production image without stop control, and no peripherals behind it. -/
def image : Build := ⟨false, none, 4, false⟩

def stopImage : Build := ⟨true, none, 4, false⟩

def noPeripherals : Backend Unit := ⟨fun u _ => (none, u), fun u _ => (none, u), fun _ => false⟩

def ping (sequence value : U32) : Message :=
  (composeFrame 1 msgPing sequence 4 (some (storePayloadU32 value))).seal

/-- The same with a payload byte flipped after the checksum was taken. -/
def damagedPing (sequence value : U32) : Message :=
  { ping sequence value with
    payload := Function.update (ping sequence value).payload 0
      ((ping sequence value).payload 0 ^^^ 0xff#8) }

def queuedOnControl (frames : List Message) : State Unit :=
  { endpoint := ⟨some .cpu3, 1, 1, fun _ => PriorityStats.zero⟩
    shared :=
      { Shared.zero with
        magic := protocolMagic
        version := protocolVersion
        generation := 1
        linuxToCpu3 := Function.update (fun _ => Ring.zero) 1 (ringOf 0 frames) }
    b2a := ⟨0, fun _ => 0, fun _ => 0⟩
    endpointReady := true
    sessionReadyCommitted := true
    sessionReadyPublished := true
    peripheralsReady := false
    peripherals := ()
    rxErrorCount := 0
    txFullCount := 0 }

theorem exists_pass {s : Service π} (test : Pass π → Bool)
    (h : (match s with | .returned pass => test pass | .cpuOff _ => false) = true) :
    ∃ pass, s = .returned pass ∧ test pass = true := by
  cases s with
  | returned pass => exact ⟨pass, rfl, h⟩
  | cpuOff c => cases h

/-- Two sound frames: the pass finds the ring empty behind them. -/
theorem drain_pass_settles_two_pings :
    ∃ pass, pingpongTestService image noPeripherals (bit 1) 4
        (queuedOnControl [ping 1 7, ping 2 8]) = .returned pass ∧
      (pass.sawEmpty 1 = true ∨ hasBit pass.reschedule 1 = true) := by
  obtain ⟨pass, hrun, -⟩ := exists_pass (s := pingpongTestService image noPeripherals (bit 1) 4
    (queuedOnControl [ping 1 7, ping 2 8])) (fun _ => true) (by decide +kernel)
  refine ⟨pass, hrun, (drain_pass_settles_iff rfl rfl ⟨rfl, ?_, ?_⟩ hrun 1 (by decide)).mpr
    ⟨by decide, by decide +kernel, Or.inl ?_⟩⟩
  · decide +kernel
  · decide +kernel
  · unfold Sound
    decide +kernel

/-- A damaged frame in front of a sound one: the pass stops behind the first, does not look again
and does not reschedule, and the second stays queued. -/
theorem pass_strands_frame_behind_damaged :
    Serviceable (queuedOnControl [damagedPing 1 7, ping 2 8]) ∧
      ∃ pass, pingpongTestService image noPeripherals (bit 1) 4
          (queuedOnControl [damagedPing 1 7, ping 2 8]) = .returned pass ∧
        pass.sawEmpty 1 = false ∧ hasBit pass.reschedule 1 = false ∧
        (pass.cpu3.shared.linuxToCpu3 1).contents = [ping 2 8] := by
  refine ⟨⟨rfl, by decide +kernel, by decide +kernel⟩, ?_⟩
  obtain ⟨pass, hrun, htest⟩ := exists_pass (s := pingpongTestService image noPeripherals (bit 1) 4
    (queuedOnControl [damagedPing 1 7, ping 2 8]))
    (fun pass => decide (pass.sawEmpty 1 = false ∧ hasBit pass.reschedule 1 = false ∧
      (pass.cpu3.shared.linuxToCpu3 1).contents = [ping 2 8])) (by decide +kernel)
  exact ⟨pass, hrun, of_decide_eq_true htest⟩

end Runs

end Lzamp.Cpu3
