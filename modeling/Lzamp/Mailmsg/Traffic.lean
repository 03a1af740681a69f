import Lzamp.Mailmsg.Endpoint

namespace Lzamp.Mailmsg

/-- Every frame queued in `r'` was queued in `r` or is one of `ok`. -/
structure Ring.Grows (ok : Message → Prop) (r r' : Ring) : Prop where
  inRange : r.InRange → r'.InRange
  contents : r.InRange → ∀ m ∈ r'.contents, m ∈ r.contents ∨ ok m

namespace Ring.Grows

variable {ok ok' : Message → Prop} {r r' r'' : Ring}

theorem refl (ok : Message → Prop) (r : Ring) : Ring.Grows ok r r := ⟨id, fun _ _ hm => Or.inl hm⟩

theorem of_eq (ok : Message → Prop) (h : r' = r) : Ring.Grows ok r r' := h ▸ refl ok r

theorem zero (ok : Message → Prop) (r : Ring) : Ring.Grows ok r Ring.zero :=
  ⟨fun _ => Ring.zero_inRange, fun _ m hm => by
    rw [Ring.contents_zero] at hm
    cases hm⟩

theorem trans (h : Ring.Grows ok r r') (h' : Ring.Grows ok r' r'') : Ring.Grows ok r r'' where
  inRange hr := h'.inRange (h.inRange hr)
  contents hr m hm := (h'.contents (h.inRange hr) m hm).elim (h.contents hr m) Or.inr

theorem mono (h : Ring.Grows ok r r') (hok : ∀ m, ok m → ok' m) : Ring.Grows ok' r r' where
  inRange := h.inRange
  contents hr m hm := (h.contents hr m hm).imp id (hok m)

/-- What holds of every queued frame and of every added one still holds of every queued frame. -/
theorem forall_mem {P : Message → Prop} (h : Ring.Grows ok r r') (hr : r.InRange)
    (hold : ∀ m ∈ r.contents, P m) (hnew : ∀ m, ok m → P m) : ∀ m ∈ r'.contents, P m :=
  fun m hm => (h.contents hr m hm).elim (hold m) (hnew m)

theorem nil (h : Ring.Grows (fun _ => False) r r') (hr : r.InRange) (hnil : r.contents = []) :
    r'.contents = [] := by
  refine List.eq_nil_iff_forall_not_mem.mpr fun m hm => ?_
  rcases h.contents hr m hm with hold | hf
  · rw [hnil] at hold
    cases hold
  · exact hf

theorem publish (hroom : next r.producer ≠ r.consumer) (m : Message) :
    Ring.Grows (fun x => x = m) r { r with
      slot := Function.update r.slot (slotIndex r.producer) m, producer := next r.producer } where
  inRange hr := hr.publish _
  contents hr x hx := by
    rw [hr.contents_publish (hr.depth_lt_seven hroom) m] at hx
    exact (List.mem_append.mp hx).imp id List.mem_singleton.mp

end Ring.Grows

theorem ringPop_grows (r : Ring) (message : Message) :
    Ring.Grows (fun _ => False) r (ringPop r message).2.1 := by
  by_cases hne : r.consumer = r.producer
  · rw [ringPop_empty hne]
    exact .refl _ r
  · rw [ringPop, if_neg hne]
    dsimp only
    split_ifs
    · exact .refl _ r
    · refine ⟨fun hr => hr.release, fun hr m hm => Or.inl ?_⟩
      rw [hr.contents_release hne]
      exact List.mem_cons_of_mem _ hm

/-- A frame reported good was queued. -/
theorem ringPop_mem {r : Ring} (hr : r.InRange) {message : Message}
    (hok : (ringPop r message).1 = ringOk) : (ringPop r message).2.2 ∈ r.contents := by
  by_cases hne : r.consumer = r.producer
  · rw [ringPop_empty hne] at hok
    cases hok
  · rw [ringPop, if_neg hne] at hok ⊢
    dsimp only at hok ⊢
    split_ifs at hok ⊢ with hcommit
    · cases hok
    · rw [hr.contents_release hne]
      exact List.mem_cons_self

section Send

variable {ν : Type} (notify : ν → Priority → Int × ν) (n : ν) (e : Endpoint) (sh : Shared)
  (p : Priority) (type : U32) (payload : Option (List U8)) (length : U32) (result : SendResult)

/-- A send adds at most its own frame, and only to its own ring. -/
theorem tx_endpointSend_grows {role : EndpointRole} (hrole : e.Plays role) (q : Priority) :
    Ring.Grows (fun m => q = p ∧
        m = (composeFrame e.generation type (endpointNextSequence e).1 length payload).seal)
      (sh.tx role q) ((endpointSend notify n e sh p type payload length result).shared.tx role q) := by
  rcases endpointSend_cases notify n e sh p type payload length result with
    ⟨q', hq, heq⟩ | ⟨role', q', hp, hq, heq⟩
  · rw [heq]
    exact .of_eq _ (by rw [hq.shared])
  · obtain rfl := hrole.eq_of_some hq.role_eq
    rw [heq]
    dsimp only
    rw [hq.shared, Shared.tx_setTx]
    by_cases hqp : q = p
    · subst hqp
      rw [Function.update_self]
      exact (Ring.Grows.publish hq.room _).mono fun m hm => ⟨rfl, hm⟩
    · rw [Function.update_of_ne hqp]
      exact .refl _ _

/-- A send that succeeds queues its frame behind the others. -/
theorem contents_endpointSend {role : EndpointRole} (hrole : e.Plays role)
    (hr : (sh.tx role p).InRange)
    (hok : (endpointSend notify n e sh p type payload length result).ret = endpointOk) :
    ((endpointSend notify n e sh p type payload length result).shared.tx role p).contents =
      (sh.tx role p).contents ++
        [(composeFrame e.generation type (endpointNextSequence e).1 length payload).seal] := by
  rcases endpointSend_cases notify n e sh p type payload length result with
    ⟨q', hq, heq⟩ | ⟨role', q', hp, hq, heq⟩
  · rw [heq] at hok
    exact absurd hok hq.ret
  · obtain rfl := hrole.eq_of_some hq.role_eq
    rw [heq]
    dsimp only
    rw [hq.shared, Shared.tx_setTx, Fin.eta, Function.update_self]
    exact hr.contents_publish (hr.depth_lt_seven hq.room) _

theorem endpointSend_ok {e : Endpoint} {sh : Shared} {p : Priority} {role : EndpointRole}
    (hrole : e.role = some role) (hvalid : endpointSessionValid e sh = endpointOk)
    (hroom : next (sh.tx role p).producer ≠ (sh.tx role p).consumer) (type : U32)
    (bytes : List U8) {length : U32} (hlen : length ≤ 28#32) (result : SendResult) :
    (endpointSend notify n e sh p type (some bytes) length result).ret = endpointOk := by
  have hok := (endpointEnqueue_ok_iff hrole hvalid p type (some bytes) length hlen
    (Or.inr (by simp)) result).mpr hroom
  unfold endpointSend
  dsimp only
  rw [if_neg (not_not.mpr hok)]

end Send

section Receive

variable {e : Endpoint} {role : EndpointRole} (hrole : e.Plays role) (sh : Shared) (p : Priority)
  (message : Message)
include hrole

/-- A receive fails and changes nothing, or pops. -/
theorem endpointReceive_cases :
    ((endpointReceive e sh p message).ret ≠ ringOk ∧
      (endpointReceive e sh p message).shared = sh) ∨
    (endpointReceive e sh p message).shared =
        sh.setRx role p (ringPop (sh.rx role p) message).2.1 ∧
      (endpointReceive e sh p message).message = (ringPop (sh.rx role p) message).2.2 ∧
      ((endpointReceive e sh p message).ret = ringOk →
        (ringPop (sh.rx role p) message).1 = ringOk) := by
  by_cases hvalid : endpointSessionValid e sh = endpointOk
  · have hsome : e.role = some role :=
      hrole.resolve_left (endpointSessionValid_ok.mp hvalid).1
    rw [endpointReceive_of_valid hsome hvalid]
    refine Or.inr ⟨rfl, rfl, fun hok => ?_⟩
    dsimp only [receiveResult] at hok
    split_ifs at hok
    · exact absurd hok (by decide)
    · exact hok
  · rw [endpointReceive_of_invalid hvalid]
    exact Or.inl ⟨hvalid, rfl⟩

theorem rx_endpointReceive_grows (q : Priority) :
    Ring.Grows (fun _ => False) (sh.rx role q)
      ((endpointReceive e sh p message).shared.rx role q) := by
  rcases endpointReceive_cases hrole sh p message with ⟨-, hsame⟩ | ⟨hshared, -, -⟩
  · rw [hsame]
    exact .refl _ _
  · rw [hshared, Shared.rx_setRx]
    by_cases hqp : q = p
    · subst hqp
      rw [Function.update_self]
      exact ringPop_grows _ _
    · rw [Function.update_of_ne hqp]
      exact .refl _ _

theorem endpointReceive_empty (h : (endpointReceive e sh p message).ret = ringEmpty) :
    (sh.rx role p).consumer = (sh.rx role p).producer := by
  have hvalid : endpointSessionValid e sh = endpointOk := by
    by_contra hne
    rw [endpointReceive_of_invalid hne] at h
    have hrange := endpointSessionValid_le hne
    dsimp only at h
    rw [h] at hrange
    exact absurd hrange (by decide)
  have hsome : e.role = some role := hrole.resolve_left (endpointSessionValid_ok.mp hvalid).1
  rw [endpointReceive_of_valid hsome hvalid] at h
  dsimp only [receiveResult] at h
  split_ifs at h
  · exact absurd h (by decide)
  · by_contra hne
    rw [ringPop, if_neg hne] at h
    dsimp only at h
    split_ifs at h
    · exact absurd h (by decide : ringIncomplete ≠ ringEmpty)
    · rcases frameCheck_range _ with hcheck | hcheck | hcheck <;>
        exact absurd (hcheck.symm.trans h) (by decide)

/-- Receiving does not touch the rings it sends to. -/
theorem tx_endpointReceive : (endpointReceive e sh p message).shared.tx role = sh.tx role := by
  rcases endpointReceive_cases hrole sh p message with ⟨-, hsame⟩ | ⟨hshared, -, -⟩
  · rw [hsame]
  · rw [hshared, Shared.tx_setRx]

theorem endpointReceive_mem (hr : (sh.rx role p).InRange)
    (hok : (endpointReceive e sh p message).ret = ringOk) :
    (endpointReceive e sh p message).message ∈ (sh.rx role p).contents := by
  rcases endpointReceive_cases hrole sh p message with ⟨hbad, -⟩ | ⟨-, hmsg, hpop⟩
  · exact absurd hok hbad
  · rw [hmsg]
    exact ringPop_mem hr (hpop hok)

end Receive

/-- What a peer of the same session sent is received as it was sent. -/
theorem endpointReceive_sent {e sender : Endpoint} {sh : Shared} {role : EndpointRole}
    {p : Priority} (hrole : e.role = some role) (hvalid : endpointSessionValid e sh = endpointOk)
    (hgen : sender.generation = e.generation) (hr : (sh.rx role p).InRange) {type length : U32}
    (hlen : length ≤ 28#32) {payload : Option (List U8)} {q : List Message}
    (hq : (sh.rx role p).contents = (composeFrame sender.generation type
      (endpointNextSequence sender).1 length payload).seal :: q) (message : Message) :
    (endpointReceive e sh p message).ret = ringOk ∧
      (endpointReceive e sh p message).message = (composeFrame sender.generation type
        (endpointNextSequence sender).1 length payload).seal := by
  have hne : sender.generation ≠ 0 := by
    rw [hgen]
    exact (endpointSessionValid_ok.mp hvalid).2.1
  obtain ⟨hret, hmessage, -⟩ := endpointReceive_cons hrole hvalid hr hq rfl message
  rw [frameCheck_seal (composeFrame_wellFormed hne type hlen payload)] at hret
  refine ⟨?_, hmessage⟩
  rw [hret, receiveResult, if_neg]
  rintro ⟨-, hstale⟩
  exact hstale hgen

end Lzamp.Mailmsg
