import Lzamp.Mailmsg.Traffic

namespace Lzamp.Mailmsg

/-- A frame committed in session `g`.  Its CRC is right unless frames may be `damaged`. -/
structure Message.OfSession (damaged : Prop) (g : U32) (m : Message) : Prop where
  commit : m.commit = m.sequence
  generation : m.generation = g
  check : frameCheck m = ringOk ∨ damaged ∧ frameCheck m = ringBadCrc

theorem Message.OfSession.mono {damaged damaged' : Prop} {g : U32} {m : Message}
    (h : m.OfSession damaged g) (hd : damaged → damaged') : m.OfSession damaged' g :=
  ⟨h.commit, h.generation, h.check.imp id (And.imp hd id)⟩

theorem Message.ofSession_seal {m : Message} (h : ¬ m.Malformed) :
    m.seal.OfSession False m.generation :=
  ⟨rfl, rfl, Or.inl (frameCheck_seal h)⟩

/-- The indices are in range, and every queued frame meets `P`. -/
structure Ring.Holds (P : Message → Prop) (r : Ring) : Prop where
  inRange : r.InRange
  contents : ∀ m ∈ r.contents, P m

theorem Ring.holds_zero (P : Message → Prop) : Ring.zero.Holds P := by
  refine ⟨Ring.zero_inRange, ?_⟩
  intro m hm
  rw [Ring.contents_zero] at hm
  cases hm

theorem Ring.Grows.holds {ok P : Message → Prop} {r r' : Ring} (h : Ring.Grows ok r r')
    (hr : r.Holds P) (hok : ∀ m, ok m → P m) : r'.Holds P :=
  ⟨h.inRange hr.inRange, h.forall_mem hr.inRange hr.contents hok⟩

/-- The page of session `g`.  Only Linux can be told to damage a frame. -/
structure Shared.OfSession (damaged : Prop) (g : U32) (sh : Shared) : Prop where
  header : sh.header = (protocolMagic, protocolVersion, g)
  begun : g ≠ 0
  requests : ∀ p, (sh.linuxToCpu3 p).Holds (Message.OfSession damaged g)
  replies : ∀ p, (sh.cpu3ToLinux p).Holds (Message.OfSession False g)

namespace Shared.OfSession

variable {damaged : Prop} {g : U32} {sh : Shared} {e : Endpoint} {role : EndpointRole}

theorem valid (h : sh.OfSession damaged g) (hrole : e.role ≠ none) (hgen : e.generation = g) :
    endpointSessionValid e sh = endpointOk := by
  have hheader := h.header
  simp only [Shared.header, Prod.mk.injEq] at hheader
  obtain ⟨hmagic, hversion, hsession⟩ := hheader
  refine endpointSessionValid_ok.mpr ⟨hrole, ?_, hmagic, hversion, hsession.trans hgen.symm⟩
  rw [hgen]
  exact h.begun

theorem rx (h : sh.OfSession damaged g) (role : EndpointRole) (p : Priority) :
    (sh.rx role p).Holds (Message.OfSession damaged g) := by
  cases role with
  | linux => exact ⟨(h.replies p).inRange, fun m hm => ((h.replies p).contents m hm).mono False.elim⟩
  | cpu3 => exact h.requests p

theorem receive (h : sh.OfSession damaged g) (hplays : e.Plays role) (p : Priority)
    (message : Message) : (endpointReceive e sh p message).shared.OfSession damaged g := by
  have hheader := endpointReceive_header e sh p message
  have htx := tx_endpointReceive hplays sh p message
  have hrx := rx_endpointReceive_grows hplays sh p message
  cases role with
  | linux =>
    refine ⟨hheader.trans h.header, h.begun, fun q => ?_, fun q => ?_⟩
    · have hsame : (endpointReceive e sh p message).shared.linuxToCpu3 = sh.linuxToCpu3 := htx
      rw [hsame]
      exact h.requests q
    · exact (hrx q).holds (h.replies q) fun m hm => hm.elim
  | cpu3 =>
    refine ⟨hheader.trans h.header, h.begun, fun q => ?_, fun q => ?_⟩
    · exact (hrx q).holds (h.requests q) fun m hm => hm.elim
    · have hsame : (endpointReceive e sh p message).shared.cpu3ToLinux = sh.cpu3ToLinux := htx
      rw [hsame]
      exact h.replies q

end Shared.OfSession

/-- What a receive reports about a ring of the session. -/
theorem endpointReceive_ofSession {damaged : Prop} {e : Endpoint} {sh : Shared}
    {role : EndpointRole} {p : Priority} (hrole : e.role = some role)
    (hvalid : endpointSessionValid e sh = endpointOk)
    (hr : (sh.rx role p).Holds (Message.OfSession damaged e.generation)) (message : Message) :
    (endpointReceive e sh p message).ret = ringOk ∨
      (endpointReceive e sh p message).ret = ringEmpty ∨
      damaged ∧ (endpointReceive e sh p message).ret = ringBadCrc := by
  cases hq : (sh.rx role p).contents with
  | nil =>
    rw [endpointReceive_nil hrole hvalid hr.inRange hq]
    exact Or.inr (Or.inl rfl)
  | cons m q =>
    have hm := hr.contents m (by rw [hq]; exact List.mem_cons_self)
    have hret := (endpointReceive_cons hrole hvalid hr.inRange hq hm.commit message).1
    have hsame : receiveResult e.generation (frameCheck m) m = frameCheck m := by
      rw [receiveResult, if_neg]
      exact fun hstale => hstale.2 hm.generation
    rw [hret, hsame]
    rcases hm.check with hok | ⟨hd, hbad⟩
    · exact Or.inl hok
    · exact Or.inr (Or.inr ⟨hd, hbad⟩)

section Send

variable {ν : Type} (notify : ν → Priority → Int × ν) (n : ν) {e : Endpoint} {sh : Shared}
  {role : EndpointRole} (p : Priority) (type : U32) (payload : Option (List U8)) (length : U32)
  (result : SendResult)

theorem tx_endpointSend_ofSession (hplays : e.Plays role) (q : Priority) :
    Ring.Grows (Message.OfSession False e.generation) (sh.tx role q)
      ((endpointSend notify n e sh p type payload length result).shared.tx role q) := by
  rcases endpointSend_cases notify n e sh p type payload length result with
    ⟨q', hq, heq⟩ | ⟨role', q', hp, hq, heq⟩
  · rw [heq]
    exact .of_eq _ (by rw [hq.shared])
  · obtain rfl := hplays.eq_of_some hq.role_eq
    refine (tx_endpointSend_grows notify n e sh p type payload length result hplays q).mono ?_
    intro m hm
    rw [hm.2]
    exact Message.ofSession_seal hq.wellFormed

theorem Shared.OfSession.send {damaged : Prop} {g : U32} (h : sh.OfSession damaged g)
    (hplays : e.Plays role) (hgen : e.role ≠ none → e.generation = g) :
    (endpointSend notify n e sh p type payload length result).shared.OfSession damaged g := by
  by_cases hnone : e.role = none
  · -- an endpoint that is not bound sends nothing
    have hsame : (endpointSend notify n e sh p type payload length result).shared = sh := by
      rcases endpointSend_cases notify n e sh p type payload length result with
        ⟨q', hq, heq⟩ | ⟨role', q', hp, hq, -⟩
      · rw [heq]
        exact hq.shared
      · exact absurd hq.role_eq (by simp [hnone])
    rw [hsame]
    exact h
  · have hheader := header_endpointSend notify n e sh p type payload length result
    have hrx := rx_endpointSend notify n e sh p type payload length result hplays
    have htx : ∀ q, Ring.Grows (Message.OfSession False e.generation) (sh.tx role q)
        ((endpointSend notify n e sh p type payload length result).shared.tx role q) := fun q =>
      tx_endpointSend_ofSession notify n p type payload length result hplays q
    rw [hgen hnone] at htx
    cases role with
    | linux =>
      refine ⟨hheader.trans h.header, h.begun, fun q => ?_, fun q => ?_⟩
      · exact (htx q).holds (h.requests q) fun m hm => hm.mono False.elim
      · have hsame := congrFun hrx q
        simp only [Shared.rx] at hsame
        rw [hsame]
        exact h.replies q
    | cpu3 =>
      refine ⟨hheader.trans h.header, h.begun, fun q => ?_, fun q => ?_⟩
      · have hsame := congrFun hrx q
        simp only [Shared.rx] at hsame
        rw [hsame]
        exact h.requests q
      · exact (htx q).holds (h.replies q) fun m hm => hm

theorem tx_endpointSend_of_ne (hplays : e.Plays role) {q : Priority} (hq : q ≠ p) :
    (endpointSend notify n e sh p type payload length result).shared.tx role q = sh.tx role q := by
  rcases endpointSend_cases notify n e sh p type payload length result with
    ⟨q', hrefused, heq⟩ | ⟨role', q', hp, haccepted, heq⟩
  · rw [heq]
    dsimp only
    rw [hrefused.shared]
  · obtain rfl := hplays.eq_of_some haccepted.role_eq
    rw [heq]
    dsimp only
    rw [haccepted.shared, Shared.tx_setTx, Fin.eta, Function.update_of_ne hq]

/-- In a valid session a record that fits is queued, or the ring is full. -/
theorem endpointSend_ofSession (hrole : e.role = some role)
    (hvalid : endpointSessionValid e sh = endpointOk) {bytes : List U8} (hlen : length ≤ 28#32) :
    ((endpointSend notify n e sh p type (some bytes) length result).ret = endpointOk ∧
        next (sh.tx role p).producer ≠ (sh.tx role p).consumer) ∨
      ((endpointSend notify n e sh p type (some bytes) length result).ret = ringFull ∧
        (endpointSend notify n e sh p type (some bytes) length result).result.queueResult =
          ringFull ∧
        (endpointSend notify n e sh p type (some bytes) length result).shared = sh ∧
        next (sh.tx role p).producer = (sh.tx role p).consumer) := by
  by_cases hroom : next (sh.tx role p).producer = (sh.tx role p).consumer
  · have hform := composeFrame_wellFormed (endpointSessionValid_ok.mp hvalid).2.1 type hlen
      (some bytes)
    have hq : endpointEnqueue e sh p type (some bytes) length result =
        settlePush (endpointNextSequence e).2 sh role p (endpointNextSequence e).1
          (ringFull, sh.tx role p) := by
      rw [endpointEnqueue_of_valid hrole hvalid p type (some bytes) length hlen
        (Or.inr (by simp)), enqueueFrame, ringPush_eq, if_neg hform, if_pos hroom]
    have hret : (endpointEnqueue e sh p type (some bytes) length result).ret ≠ endpointOk := by
      rw [hq]
      exact (by decide : ringFull ≠ endpointOk)
    refine Or.inr ⟨?_, ?_, ?_, hroom⟩ <;> rw [endpointSend, if_pos hret, hq]
    · rfl
    · rfl
    · exact sh.setTx_self role p
  · exact Or.inl ⟨endpointSend_ok notify n hrole hvalid hroom type bytes hlen result, hroom⟩

end Send

end Lzamp.Mailmsg
