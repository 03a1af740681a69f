import Lzamp.Mailmsg.Statistics
import Lzamp.R1Amp.World

namespace Lzamp.Mailmsg

def Ring.advanced (r : Ring) (k : ℕ) : Ring :=
  { r with consumer := indexOf (r.consumer.toNat + k) }

/-- The `k`-th slot from the consumer index on. -/
def Ring.ahead (r : Ring) (k : ℕ) : Message := r.slot (Fin.ofNat 8 (r.consumer.toNat + k))

/-- After `k` slots a pop consumes nothing. -/
def Ring.Rests (r : Ring) (k : ℕ) : Prop :=
  indexOf (r.consumer.toNat + k) = r.producer ∨ (r.ahead k).commit ≠ (r.ahead k).sequence

theorem Ring.advanced_zero {r : Ring} (h : r.consumer.toNat < 8) : r.advanced 0 = r := by
  have hindex : indexOf (r.consumer.toNat + 0) = r.consumer := by
    apply BitVec.eq_of_toNat_eq
    rw [toNat_indexOf]
    omega
  rw [Ring.advanced, hindex]

theorem Ring.slot_advanced (r : Ring) (k : ℕ) :
    (r.advanced k).slot (slotIndex (r.advanced k).consumer) = r.ahead k := by
  change r.slot (slotIndex (indexOf _)) = _
  rw [slotIndex_indexOf]
  rfl

theorem ringPop_rests {r : Ring} {k : ℕ} (h : r.Rests k) (message : Message) :
    ∃ ret, (ret = ringEmpty ∨ ret = ringIncomplete) ∧
      ringPop (r.advanced k) message = (ret, r.advanced k, message) := by
  by_cases hempty : (r.advanced k).consumer = (r.advanced k).producer
  · exact ⟨ringEmpty, .inl rfl, ringPop_empty hempty message⟩
  · have hcommit := h.resolve_left hempty
    refine ⟨ringIncomplete, .inr rfl, ?_⟩
    rw [ringPop, if_neg hempty, if_pos (by rw [Ring.slot_advanced]; exact hcommit)]

theorem ringPop_advanced {r : Ring} {k : ℕ} (h : ¬ r.Rests k) (message : Message) :
    ringPop (r.advanced k) message = (frameCheck (r.ahead k), r.advanced (k + 1), r.ahead k) := by
  obtain ⟨hne, hcommit⟩ := not_or.mp h
  have hne : (r.advanced k).consumer ≠ (r.advanced k).producer := hne
  have hnext : (r.advanced k).released = r.advanced (k + 1) :=
    Mailmsg.Ring.ext rfl (next_indexOf _) rfl
  rw [ringPop_committed hne (by rw [Ring.slot_advanced]; exact not_not.mp hcommit),
    Ring.slot_advanced, hnext]

/-- With the consumer index in range, a pop rests within eight slots if the producer index is in
range too or one of the slots is not committed. -/
theorem Ring.exists_rests_iff {r : Ring} (h : r.consumer.toNat < 8) :
    (∃ k ≤ 7, r.Rests k) ↔ r.producer.toNat < 8 ∨
      ∃ k ≤ 7, (r.ahead k).commit ≠ (r.ahead k).sequence := by
  constructor
  · rintro ⟨k, hk, hindex | hcommit⟩
    · left
      rw [← hindex]
      exact indexOf_lt _
    · exact .inr ⟨k, hk, hcommit⟩
  · rintro (hproducer | ⟨k, hk, hcommit⟩)
    · refine ⟨(r.producer.toNat + 8 - r.consumer.toNat) % 8, by omega, .inl ?_⟩
      apply BitVec.eq_of_toNat_eq
      rw [toNat_indexOf]
      omega
    · exact ⟨k, hk, .inr hcommit⟩

theorem taken_countReceive_rests {ret : Int} (h : ret = ringEmpty ∨ ret = ringIncomplete)
    (s : PriorityStats) : (s.countReceive ret).taken = s.taken := by
  rcases h with rfl | rfl <;> rfl

end Lzamp.Mailmsg

namespace Lzamp.R1Amp
open Mailmsg Lib

/-- `d` is `d₀` after `k` frames were taken from the reverse ring of `p`. -/
structure Took (p : Priority) (d₀ : Driver) (k : ℕ) (d : Driver) : Prop where
  identity : d.endpoint.identity = d₀.endpoint.identity
  shared : d.shared = d₀.shared.setRx .linux p ((d₀.shared.rx .linux p).advanced k)
  taken : (d.endpoint.stats p).taken = (d₀.endpoint.stats p).taken + BitVec.ofNat 32 k
  others : ∀ q, q ≠ p → d.endpoint.stats q = d₀.endpoint.stats q

section Took

variable {p : Priority} {d₀ d : Driver} {k : ℕ}

theorem Took.refl (h : (d₀.shared.rx .linux p).consumer.toNat < 8) : Took p d₀ 0 d₀ where
  identity := rfl
  shared := by rw [Ring.advanced_zero h, Shared.setRx_self]
  taken := by simp
  others _ _ := rfl

theorem Took.congr {d' : Driver} (h : Took p d₀ k d) (hendpoint : d'.endpoint = d.endpoint)
    (hshared : d'.shared = d.shared) : Took p d₀ k d' where
  identity := by rw [hendpoint, h.identity]
  shared := by rw [hshared, h.shared]
  taken := by rw [hendpoint, h.taken]
  others q hq := by rw [hendpoint, h.others q hq]

theorem Took.header (h : Took p d₀ k d) : d.shared.header = d₀.shared.header := by
  rw [h.shared, Shared.header_setRx]

theorem Took.session (h : Took p d₀ k d) :
    endpointSessionValid d.endpoint d.shared = endpointSessionValid d₀.endpoint d₀.shared :=
  endpointSessionValid_congr h.identity h.header

theorem Took.ring (h : Took p d₀ k d) :
    d.shared.rx .linux p = (d₀.shared.rx .linux p).advanced k := by
  rw [h.shared, Shared.rx_setRx, Function.update_self]

theorem role_of_session {d : Driver} (hplays : d.endpoint.Plays .linux)
    (hsession : endpointSessionValid d.endpoint d.shared = endpointOk) :
    d.endpoint.role = some .linux :=
  hplays.resolve_left (endpointSessionValid_ok.mp hsession).1

theorem receive_invalid (h : Took p d₀ k d)
    (hsession : endpointSessionValid d₀.endpoint d₀.shared ≠ endpointOk) :
    (endpointReceive d.endpoint d.shared p Message.zero).ret =
        endpointSessionValid d₀.endpoint d₀.shared ∧
      Took p d₀ k (d.received (endpointReceive d.endpoint d.shared p Message.zero)) := by
  rw [endpointReceive_of_invalid (by rw [h.session]; exact hsession), h.session]
  exact ⟨rfl, h.congr rfl rfl⟩

theorem Shared.setRx_setRx (sh : Shared) (role : EndpointRole) (p : Priority) (r r' : Ring) :
    (sh.setRx role p r).setRx role p r' = sh.setRx role p r' := by
  cases role <;> simp [Shared.setRx]

theorem Took.received (h : Took p d₀ k d) {k' : ℕ} {f : PriorityStats → PriorityStats}
    (hf : (f (d.endpoint.stats p)).taken = (d₀.endpoint.stats p).taken + BitVec.ofNat 32 k')
    (ret : Int) (m : Message) :
    Took p d₀ k' (d.received ⟨ret, d.endpoint.modifyStats p f,
      d.shared.setRx .linux p ((d₀.shared.rx .linux p).advanced k'), m⟩) where
  identity := h.identity
  shared := by
    change d.shared.setRx .linux p _ = _
    rw [h.shared, Shared.setRx_setRx]
  taken := by
    change ((Function.update d.endpoint.stats p _) p).taken = _
    rw [Function.update_self, hf]
  others q hq := by
    change (Function.update d.endpoint.stats p _) q = _
    rw [Function.update_of_ne hq, h.others q hq]

theorem receive_eq (h : Took p d₀ k d) (hplays : d₀.endpoint.Plays .linux)
    (hsession : endpointSessionValid d₀.endpoint d₀.shared = endpointOk) {pop : Int × Ring × Message}
    (hpop : ringPop ((d₀.shared.rx .linux p).advanced k) Message.zero = pop) :
    endpointReceive d.endpoint d.shared p Message.zero =
      ⟨receiveResult d₀.endpoint.generation pop.1 pop.2.2,
        d.endpoint.modifyStats p fun s =>
          s.countReceive (receiveResult d₀.endpoint.generation pop.1 pop.2.2),
        d.shared.setRx .linux p pop.2.1, pop.2.2⟩ := by
  obtain ⟨hrole, hgeneration⟩ := Prod.mk.inj h.identity
  rw [endpointReceive_of_valid (hrole.trans (role_of_session hplays hsession))
    (h.session.trans hsession), h.ring, hpop, hgeneration]

theorem receive_rests (h : Took p d₀ k d) (hplays : d₀.endpoint.Plays .linux)
    (hsession : endpointSessionValid d₀.endpoint d₀.shared = endpointOk)
    (hrests : (d₀.shared.rx .linux p).Rests k) :
    ((endpointReceive d.endpoint d.shared p Message.zero).ret = ringEmpty ∨
        (endpointReceive d.endpoint d.shared p Message.zero).ret = ringIncomplete) ∧
      Took p d₀ k (d.received (endpointReceive d.endpoint d.shared p Message.zero)) := by
  obtain ⟨ret, hret, hpop⟩ := ringPop_rests hrests Message.zero
  have hresult (generation : U32) : receiveResult generation ret Message.zero = ret := by
    rcases hret with rfl | rfl <;> rfl
  rw [receive_eq h hplays hsession hpop, hresult]
  refine ⟨hret, h.received ?_ _ _⟩
  rw [taken_countReceive_rests hret, h.taken]

theorem session_ne_staleFrame (e : Endpoint) (sh : Shared) :
    endpointSessionValid e sh ≠ endpointStaleFrame := by
  rcases endpointSessionValid_range e sh with h | h | h | h <;> rw [h] <;> decide

theorem receive_idle (h : Took p d₀ k d) (hplays : d₀.endpoint.Plays .linux)
    (hidle : endpointSessionValid d₀.endpoint d₀.shared ≠ endpointOk ∨
      (d₀.shared.rx .linux p).Rests k) :
    (((endpointReceive d.endpoint d.shared p Message.zero).ret = ringEmpty ∨
        (endpointReceive d.endpoint d.shared p Message.zero).ret = ringIncomplete) ∨
      (endpointReceive d.endpoint d.shared p Message.zero).ret ≤ endpointInvalid ∧
        (endpointReceive d.endpoint d.shared p Message.zero).ret ≠ endpointStaleFrame) ∧
    Took p d₀ k (d.received (endpointReceive d.endpoint d.shared p Message.zero)) := by
  by_cases hsession : endpointSessionValid d₀.endpoint d₀.shared = endpointOk
  · obtain ⟨hret, htook⟩ := receive_rests h hplays hsession
      (hidle.resolve_left (not_not.mpr hsession))
    exact ⟨.inl hret, htook⟩
  · obtain ⟨hret, htook⟩ := receive_invalid h hsession
    refine ⟨.inr ?_, htook⟩
    rw [hret]
    exact ⟨endpointSessionValid_le hsession, session_ne_staleFrame _ _⟩

theorem receive_takes (h : Took p d₀ k d) (hplays : d₀.endpoint.Plays .linux)
    (hsession : endpointSessionValid d₀.endpoint d₀.shared = endpointOk)
    (hrests : ¬ (d₀.shared.rx .linux p).Rests k) :
    (endpointReceive d.endpoint d.shared p Message.zero).ret =
        receiveResult d₀.endpoint.generation (frameCheck ((d₀.shared.rx .linux p).ahead k))
          ((d₀.shared.rx .linux p).ahead k) ∧
      (endpointReceive d.endpoint d.shared p Message.zero).message =
        (d₀.shared.rx .linux p).ahead k ∧
      Took p d₀ (k + 1) (d.received (endpointReceive d.endpoint d.shared p Message.zero)) := by
  rw [receive_eq h hplays hsession (ringPop_advanced hrests Message.zero)]
  refine ⟨rfl, rfl, h.received ?_ _ _⟩
  rw [(PriorityStats.countReceive_taken _ _ _).1, h.taken]
  bv_omega

end Took

/-- The reply that `control_work` waits for. -/
def Awaited (d : Driver) (m : Message) : Prop :=
  if d.life.mailmsgState = .starting then isSessionReady d.life.sessionGeneration m = true
  else isStopReply d.life.stopRequestSequence m = true

/-- The frame that makes `control_work` leave in round `k`. -/
def ControlEnds (clock : ℕ → U64) (d : Driver) (k : ℕ) (m : Message) : Prop :=
  frameCheck m = ringOk ∧ m.generation = d.endpoint.generation ∧
    (timeAfterEq (clock (2 * k)) d.life.lifecycleDeadline = true ∨ Awaited d m)

/-- What the loop waits for stays the same until it is left. -/
structure SameWait (d₀ d : Driver) : Prop where
  state : d.life.mailmsgState = d₀.life.mailmsgState
  generation : d.life.sessionGeneration = d₀.life.sessionGeneration
  request : d.life.stopRequestSequence = d₀.life.stopRequestSequence
  deadline : d.life.lifecycleDeadline = d₀.life.lifecycleDeadline

theorem SameWait.controlError {d₀ d : Driver} (h : SameWait d₀ d) (ret : Int) :
    SameWait d₀ (controlError d ret) := by
  unfold R1Amp.controlError
  dsimp only
  split
  · exact ⟨h.state, h.generation, h.request, h.deadline⟩
  · exact ⟨h.state, h.generation, h.request, h.deadline⟩

theorem controlRound_leaves (cfg : Config) (now rearm : U64) {d : Driver} {r : Received}
    (hr : endpointReceive d.endpoint d.shared prioCritical Message.zero = r)
    (h : (r.ret = ringEmpty ∨ r.ret = ringIncomplete) ∨
      r.ret ≤ endpointInvalid ∧ r.ret ≠ endpointStaleFrame) :
    ∃ d' effects, controlRound cfg now rearm d = .leave d' effects ∧
      d'.endpoint = r.endpoint ∧ d'.shared = r.shared := by
  unfold controlRound
  rw [hr]
  dsimp only
  by_cases hrest : r.ret = ringEmpty ∨ r.ret = ringIncomplete
  · exact ⟨_, _, if_pos hrest, rfl, rfl⟩
  · obtain ⟨hle, hstale⟩ := h.resolve_left hrest
    have hne : r.ret ≠ ringOk := (lt_of_le_of_lt hle (by decide)).ne
    rw [if_neg hrest, if_neg hstale, if_pos hne, if_pos hle]
    exact ⟨_, _, rfl, rfl, rfl⟩

theorem controlFrame_cases (cfg : Config) (rearm : U64) (m : Message) {d₀ d : Driver}
    (hwait : SameWait d₀ d) (effects : List Effect) :
    ∃ d', d'.endpoint = d.endpoint ∧ d'.shared = d.shared ∧
      (Awaited d₀ m ∧ controlFrame cfg rearm m d effects = .leave d' effects ∨
        ¬ Awaited d₀ m ∧ SameWait d₀ d' ∧ controlFrame cfg rearm m d effects = .again d' effects) := by
  unfold controlFrame Awaited
  rw [hwait.state, hwait.generation, hwait.request]
  by_cases hstarting : d₀.life.mailmsgState = .starting
  · rw [if_pos hstarting, if_pos hstarting]
    by_cases hready : isSessionReady d₀.life.sessionGeneration m = true
    · exact ⟨sessionEstablished d, rfl, rfl, .inl ⟨hready, if_pos hready⟩⟩
    · exact ⟨d, rfl, rfl, .inr ⟨hready, hwait, if_neg hready⟩⟩
  · rw [if_neg hstarting, if_neg hstarting]
    by_cases hreply : isStopReply d₀.life.stopRequestSequence m = true
    · rw [hreply]
      by_cases htype : m.type = msgStopReady
      · exact ⟨stopReadyAccepted cfg rearm d, rfl, rfl, .inl ⟨rfl, if_pos htype⟩⟩
      · exact ⟨stopRefusedAccepted d, rfl, rfl, .inl ⟨rfl, if_neg htype⟩⟩
    · refine ⟨d, rfl, rfl, .inr ⟨hreply, hwait, ?_⟩⟩
      rw [Bool.eq_false_of_not_eq_true hreply]
      rfl

theorem controlRound_takes (cfg : Config) (clock : ℕ → U64) {d₀ d : Driver} {k : ℕ} {m : Message}
    {r : Received} (hr : endpointReceive d.endpoint d.shared prioCritical Message.zero = r)
    (hwait : SameWait d₀ d)
    (hret : r.ret = receiveResult d₀.endpoint.generation (frameCheck m) m) (hm : r.message = m) :
    ∃ d' effects, d'.endpoint = r.endpoint ∧ d'.shared = r.shared ∧
      (ControlEnds clock d₀ k m ∧
          controlRound cfg (clock (2 * k)) (clock (2 * k + 1)) d = .leave d' effects ∨
        ¬ ControlEnds clock d₀ k m ∧ SameWait d₀ d' ∧
          controlRound cfg (clock (2 * k)) (clock (2 * k + 1)) d = .again d' effects) := by
  have hwait' : SameWait d₀ (d.received r) := ⟨hwait.1, hwait.2, hwait.3, hwait.4⟩
  unfold controlRound
  rw [hr]
  dsimp only
  by_cases hcheck : frameCheck m = ringOk
  · by_cases hgen : m.generation = d₀.endpoint.generation
    · have hok : r.ret = ringOk := by
        rw [hret, receiveResult, if_neg fun h => h.2 hgen, hcheck]
      rw [if_neg (by rw [hok]; decide), if_neg (by rw [hok]; decide), if_neg (not_not.mpr hok)]
      -- the deadline is looked at before the frame: a late reply ends the wait as well
      by_cases hlate : timeAfterEq (clock (2 * k)) d₀.life.lifecycleDeadline = true
      · rw [hwait'.deadline, if_pos hlate]
        exact ⟨mailmsgSetTimeoutLocked (d.received r), _, rfl, rfl,
          .inl ⟨⟨hcheck, hgen, .inl hlate⟩, rfl⟩⟩
      · rw [hwait'.deadline, if_neg hlate, hm]
        obtain ⟨d', hendpoint, hshared, hframe⟩ := controlFrame_cases cfg (clock (2 * k + 1)) m
          hwait' [Effect.received m (clock (2 * k)) d₀.life.lifecycleDeadline]
        refine ⟨d', [Effect.received m (clock (2 * k)) d₀.life.lifecycleDeadline], hendpoint,
          hshared, hframe.imp ?_ ?_⟩
        · exact fun h => ⟨⟨hcheck, hgen, .inr h.1⟩, h.2⟩
        · exact fun h => ⟨fun hends => hends.2.2.elim hlate h.1, h.2⟩
    · have hstale : r.ret = endpointStaleFrame := by
        rw [hret, receiveResult, if_pos ⟨hcheck, hgen⟩]
      rw [if_neg (by rw [hstale]; decide), if_pos hstale]
      exact ⟨d.received r, _, rfl, rfl, .inr ⟨fun hends => hgen hends.2.1, hwait', rfl⟩⟩
  · -- a damaged frame is counted and the loop goes on, whatever it would have said
    have hbad : r.ret = frameCheck m := by
      rw [hret, receiveResult, if_neg fun h => hcheck h.1]
    have hrange := (frameCheck_range m).resolve_left hcheck
    rw [← hbad] at hrange
    have hne : ¬ (r.ret = ringEmpty ∨ r.ret = ringIncomplete) ∧ r.ret ≠ endpointStaleFrame ∧
        r.ret ≠ ringOk ∧ ¬ r.ret ≤ endpointInvalid := by
      rcases hrange with h | h <;> rw [h] <;> decide
    rw [if_neg hne.1, if_neg hne.2.1, if_pos hne.2.2.1, if_neg hne.2.2.2]
    exact ⟨controlError (d.received r) r.ret, _, rfl, rfl,
      .inr ⟨fun hends => hcheck hends.1, hwait'.controlError _, rfl⟩⟩

theorem control_consumes (cfg : Config) (clock : ℕ → U64) {d₀ : Driver}
    (hplays : d₀.endpoint.Plays .linux) :
    Consumes (controlStep cfg clock) (fun k s => Took 0 d₀ k s.1 ∧ SameWait d₀ s.1)
      (fun k => endpointSessionValid d₀.endpoint d₀.shared ≠ endpointOk ∨
        (d₀.shared.rx .linux 0).Rests k)
      (fun k => ControlEnds clock d₀ k ((d₀.shared.rx .linux 0).ahead k))
      (fun j b => Took 0 d₀ j b.1) where
  rests := by
    rintro k s ⟨htook, -⟩ hidle
    obtain ⟨hret, htook'⟩ := receive_idle htook hplays hidle
    obtain ⟨d', effects, hround, hendpoint, hshared⟩ := controlRound_leaves cfg (clock (2 * k))
      (clock (2 * k + 1)) rfl hret
    refine ⟨(d', s.2 ++ effects), ?_, htook'.congr hendpoint hshared⟩
    rw [controlStep, hround]
  leaves := by
    rintro k s ⟨htook, hwait⟩ hidle hends
    obtain ⟨hsession, hrests⟩ := not_or.mp hidle
    obtain ⟨hret, hm, htook'⟩ := receive_takes htook hplays (not_not.mp hsession) hrests
    obtain ⟨d', effects, hendpoint, hshared, hround⟩ :=
      controlRound_takes cfg clock rfl hwait hret hm
    rcases hround with ⟨-, hround⟩ | ⟨hnot, -⟩
    · refine ⟨(d', s.2 ++ effects), ?_, htook'.congr hendpoint hshared⟩
      rw [controlStep, hround]
    · exact absurd hends hnot
  again := by
    rintro k s ⟨htook, hwait⟩ hidle hends
    obtain ⟨hsession, hrests⟩ := not_or.mp hidle
    obtain ⟨hret, hm, htook'⟩ := receive_takes htook hplays (not_not.mp hsession) hrests
    obtain ⟨d', effects, hendpoint, hshared, hround⟩ :=
      controlRound_takes cfg clock rfl hwait hret hm
    rcases hround with ⟨hyes, -⟩ | ⟨-, hwait', hround⟩
    · exact absurd hyes hends
    · refine ⟨(d', s.2 ++ effects), ?_, htook'.congr hendpoint hshared, hwait'⟩
      rw [controlStep, hround]

/-- The frame that makes `mailmsg_response_show` leave a ring: a good one of another session. -/
def ResponseEnds (d : Driver) (m : Message) : Prop :=
  frameCheck m = ringOk ∧ m.generation ≠ d.endpoint.generation

theorem drainStep_leaves {p : Priority} {s : Driver × List ResponseLine} {r : Received}
    (hr : endpointReceive s.1.endpoint s.1.shared p Message.zero = r)
    (h : (r.ret = ringEmpty ∨ r.ret = ringIncomplete) ∨ r.ret ≤ endpointInvalid) :
    ∃ lines, drainStep p s = .inr (s.1.received r, lines) := by
  unfold drainStep
  rw [hr]
  dsimp only
  by_cases hempty : r.ret = ringEmpty
  · exact ⟨_, if_pos hempty⟩
  · have hstop : r.ret = ringIncomplete ∨ r.ret ≤ endpointInvalid :=
      h.imp (fun h => h.resolve_left hempty) id
    have hne : r.ret ≠ 0 := by
      rcases hstop with h | h
      · rw [h]
        decide
      · exact (lt_of_le_of_lt h (by decide)).ne
    rw [if_neg hempty, if_pos hne, if_pos hstop]
    exact ⟨_, rfl⟩

theorem drainStep_takes {p : Priority} {d₀ : Driver} {s : Driver × List ResponseLine}
    {r : Received} {m : Message}
    (hr : endpointReceive s.1.endpoint s.1.shared p Message.zero = r)
    (hret : r.ret = receiveResult d₀.endpoint.generation (frameCheck m) m) :
    ∃ lines, ResponseEnds d₀ m ∧ drainStep p s = .inr (s.1.received r, lines) ∨
      ¬ ResponseEnds d₀ m ∧ drainStep p s = .inl (s.1.received r, lines) := by
  by_cases hends : ResponseEnds d₀ m
  · have hstale : r.ret = endpointStaleFrame := by
      rw [hret]
      exact if_pos hends
    obtain ⟨lines, hstep⟩ := drainStep_leaves hr (.inr (by rw [hstale]; decide))
    exact ⟨lines, .inl ⟨hends, hstep⟩⟩
  · have hcheck : r.ret = frameCheck m := by
      rw [hret]
      exact if_neg hends
    have hgoes : ∃ lines, drainStep p s = .inl (s.1.received r, lines) := by
      have hrange := frameCheck_range m
      rw [← hcheck] at hrange
      have hstop : r.ret ≠ ringEmpty ∧ ¬ (r.ret = ringIncomplete ∨ r.ret ≤ endpointInvalid) := by
        rcases hrange with h | h | h <;> rw [h] <;> decide
      unfold drainStep
      rw [hr]
      dsimp only
      rw [if_neg hstop.1]
      split
      · rw [if_neg hstop.2]
        exact ⟨_, rfl⟩
      · exact ⟨_, rfl⟩
    obtain ⟨lines, hstep⟩ := hgoes
    exact ⟨lines, .inr ⟨hends, hstep⟩⟩

theorem drain_consumes (p : Priority) {d₀ : Driver} (hplays : d₀.endpoint.Plays .linux) :
    Consumes (fun _ => drainStep p) (fun k s => Took p d₀ k s.1)
      (fun k => endpointSessionValid d₀.endpoint d₀.shared ≠ endpointOk ∨
        (d₀.shared.rx .linux p).Rests k)
      (fun k => ResponseEnds d₀ ((d₀.shared.rx .linux p).ahead k))
      (fun j b => Took p d₀ j b.1) where
  rests := by
    intro k s htook hidle
    obtain ⟨hret, htook'⟩ := receive_idle htook hplays hidle
    obtain ⟨lines, hstep⟩ := drainStep_leaves rfl (hret.imp id And.left)
    exact ⟨_, hstep, htook'⟩
  leaves := by
    intro k s htook hidle hends
    obtain ⟨hsession, hrests⟩ := not_or.mp hidle
    obtain ⟨hret, hm, htook'⟩ := receive_takes htook hplays (not_not.mp hsession) hrests
    obtain ⟨lines, ⟨-, hstep⟩ | ⟨hnot, -⟩⟩ := drainStep_takes rfl hret
    · exact ⟨_, hstep, htook'⟩
    · exact absurd hends hnot
  again := by
    intro k s htook hidle hends
    obtain ⟨hsession, hrests⟩ := not_or.mp hidle
    obtain ⟨hret, hm, htook'⟩ := receive_takes htook hplays (not_not.mp hsession) hrests
    obtain ⟨lines, ⟨hyes, -⟩ | ⟨-, hstep⟩⟩ := drainStep_takes rfl hret
    · exact absurd hyes hends
    · exact ⟨_, hstep, htook'⟩

/-- The frames popped from the reverse ring of `p`, as the receive statistics count them. -/
def popped (p : Priority) (d d' : Driver) : ℕ :=
  ((d'.endpoint.stats p).taken - (d.endpoint.stats p).taken).toNat

theorem Took.popped {p : Priority} {d d' : Driver} {k : ℕ} (h : Took p d k d') (hk : k ≤ 8) :
    popped p d d' = k := by
  rw [R1Amp.popped, h.taken, add_sub_cancel_left, BitVec.toNat_ofNat]
  omega

/-- Seven pops and a round that pops nothing end the loop over the reverse ring of `p`: the session
is gone, the producer index is in range, a slot is not committed, or one of the first seven slots
holds a frame that ends the loop. -/
def Halts (d : Driver) (p : Priority) (ends : ℕ → Message → Prop) : Prop :=
  endpointSessionValid d.endpoint d.shared ≠ endpointOk ∨
    (d.shared.rx .linux p).producer.toNat < 8 ∨
    (∃ k ≤ 7, ((d.shared.rx .linux p).ahead k).commit ≠ ((d.shared.rx .linux p).ahead k).sequence) ∨
    ∃ k < 7, ends k ((d.shared.rx .linux p).ahead k)

theorem halts_iff {d : Driver} {p : Priority} (h : (d.shared.rx .linux p).consumer.toNat < 8)
    (ends : ℕ → Message → Prop) :
    ((∃ k ≤ 7, endpointSessionValid d.endpoint d.shared ≠ endpointOk ∨
        (d.shared.rx .linux p).Rests k) ∨
      ∃ k < 7, ends k ((d.shared.rx .linux p).ahead k)) ↔ Halts d p ends := by
  constructor
  · rintro (⟨k, hk, hsession | hrests⟩ | hends)
    · exact .inl hsession
    · exact .inr (((Ring.exists_rests_iff h).mp ⟨k, hk, hrests⟩).imp id .inl)
    · exact .inr (.inr (.inr hends))
  · have hrests : (_ ∨ _) → _ := (Ring.exists_rests_iff h).mpr
    rintro (hsession | hproducer | hcommit | hends)
    · exact .inl ⟨0, by omega, .inl hsession⟩
    · obtain ⟨k, hk, hrest⟩ := hrests (.inl hproducer)
      exact .inl ⟨k, hk, .inr hrest⟩
    · obtain ⟨k, hk, hrest⟩ := hrests (.inr hcommit)
      exact .inl ⟨k, hk, .inr hrest⟩
    · exact .inr hends

theorem Took.not_eight {p : Priority} {d d' : Driver} {j : ℕ} (hj : j ≤ 7) (h : Took p d j d') :
    ¬ Took p d (7 + 1) d' := by
  intro h'
  have hpopped := h.popped (by omega)
  rw [h'.popped (by omega)] at hpopped
  omega

theorem popped_le_iff {p : Priority} {d d' : Driver} (h : ∃ j ≤ 8, Took p d j d') :
    popped p d d' ≤ 7 ↔ ∃ j ≤ 7, Took p d j d' := by
  constructor
  · intro hle
    obtain ⟨j, hj, htook⟩ := h
    rw [htook.popped hj] at hle
    exact ⟨j, hle, htook⟩
  · rintro ⟨j, hj, htook⟩
    rw [htook.popped (by omega)]
    exact hj

section Loops

variable {d : Driver} (hplays : d.endpoint.Plays .linux)
include hplays

theorem controlLoop_iff (cfg : Config) (clock : ℕ → U64)
    (hconsumer : (d.shared.rx .linux 0).consumer.toNat < 8) :
    (∃ d' log, controlLoop cfg clock 8 0 d [] = some (d', log) ∧ popped 0 d d' ≤ 7) ↔
      Halts d 0 (ControlEnds clock d) := by
  have hconsumes := control_consumes cfg clock hplays
  have hstart : Took 0 d 0 d ∧ SameWait d d := ⟨.refl hconsumer, rfl, rfl, rfl, rfl⟩
  rw [← halts_iff hconsumer, ← hconsumes.within_iff (s := (d, [])) hstart
    fun j b hj hdone => hdone.not_eight hj, controlLoop_eq, Prod.exists]
  refine exists_congr fun d' => exists_congr fun log => and_congr_right fun hloop => ?_
  exact popped_le_iff (hconsumes.done_of_eq_some hstart hloop)

theorem drainResponses_iff {p : Priority} (hconsumer : (d.shared.rx .linux p).consumer.toNat < 8)
    (lines : List ResponseLine) :
    (∃ d' lines', drainResponses p 8 d lines = some (d', lines') ∧ popped p d d' ≤ 7) ↔
      Halts d p fun _ => ResponseEnds d := by
  have hconsumes := drain_consumes p hplays
  have hstart : Took p d 0 d := .refl hconsumer
  rw [← halts_iff hconsumer, ← hconsumes.within_iff (s := (d, lines)) hstart
    fun j b hj hdone => hdone.not_eight hj, drainResponses_eq p 8 0, Prod.exists]
  refine exists_congr fun d' => exists_congr fun log => and_congr_right fun hloop => ?_
  exact popped_le_iff (hconsumes.done_of_eq_some hstart hloop)

theorem drainResponses_took {p : Priority} (hconsumer : (d.shared.rx .linux p).consumer.toNat < 8)
    {lines lines' : List ResponseLine} {d' : Driver}
    (h : drainResponses p 8 d lines = some (d', lines')) : ∃ j ≤ 8, Took p d j d' := by
  rw [drainResponses_eq p 8 0] at h
  exact (drain_consumes p hplays).done_of_eq_some (.refl hconsumer) h

end Loops

section Independent

variable {p q : Priority} {d d' : Driver} {j : ℕ}

theorem Took.plays (h : Took p d j d') (hplays : d.endpoint.Plays .linux) :
    d'.endpoint.Plays .linux := hplays.of_identity h.identity

theorem Took.otherRing (h : Took p d j d') (hq : q ≠ p) :
    d'.shared.rx .linux q = d.shared.rx .linux q := by
  rw [h.shared, Shared.rx_setRx, Function.update_of_ne hq]

theorem Took.halts_iff (h : Took p d j d') (hq : q ≠ p) :
    Halts d' q (fun _ => ResponseEnds d') ↔ Halts d q fun _ => ResponseEnds d := by
  have hgeneration : d'.endpoint.generation = d.endpoint.generation := congrArg Prod.snd h.identity
  unfold Halts ResponseEnds
  rw [h.otherRing hq, h.session, hgeneration]

theorem popped_congr {d₁ d₁' : Driver} (h : d₁.endpoint.stats p = d.endpoint.stats p)
    (h' : d₁'.endpoint.stats p = d'.endpoint.stats p) : popped p d₁ d₁' = popped p d d' := by
  rw [popped, popped, h, h']

end Independent

theorem drainAll_others {ps : List Priority} {d d' : Driver} (hplays : d.endpoint.Plays .linux)
    (hps : ps.Nodup) (hconsumer : ∀ p ∈ ps, (d.shared.rx .linux p).consumer.toNat < 8)
    {lines lines' : List ResponseLine} (h : drainAll 8 ps d lines = some (d', lines'))
    {q : Priority} (hq : q ∉ ps) : d'.endpoint.stats q = d.endpoint.stats q := by
  induction ps generalizing d lines with
  | nil =>
    cases h
    rfl
  | cons p ps ih =>
    rw [drainAll] at h
    cases hdrain : drainResponses p 8 d lines with
    | none =>
      rw [hdrain] at h
      cases h
    | some b =>
      rw [hdrain] at h
      obtain ⟨j, -, htook⟩ := drainResponses_took hplays (hconsumer p List.mem_cons_self) hdrain
      obtain ⟨hp, hps'⟩ := List.nodup_cons.mp hps
      obtain ⟨hqp, hqps⟩ := List.ne_and_not_mem_of_not_mem_cons hq
      rw [ih (htook.plays hplays) hps' ?_ h hqps, htook.others q hqp]
      intro p' hp'
      have hne : p' ≠ p := fun he => hp (he ▸ hp')
      rw [htook.otherRing hne]
      exact hconsumer p' (List.mem_cons_of_mem p hp')

theorem drainAll_iff {ps : List Priority} {d : Driver} (hplays : d.endpoint.Plays .linux)
    (hps : ps.Nodup) (hconsumer : ∀ p ∈ ps, (d.shared.rx .linux p).consumer.toNat < 8)
    (lines : List ResponseLine) :
    (∃ d' lines', drainAll 8 ps d lines = some (d', lines') ∧ ∀ p ∈ ps, popped p d d' ≤ 7) ↔
      ∀ p ∈ ps, Halts d p fun _ => ResponseEnds d := by
  -- on the rings to come: a drained ring leaves the others, and their condition, as they were
  induction ps generalizing d lines with
  | nil => simp [drainAll]
  | cons p ps ih =>
    have hhead := drainResponses_iff hplays (hconsumer p List.mem_cons_self) lines
    rw [List.forall_mem_cons, ← hhead]
    cases hdrain : drainResponses p 8 d lines with
    | none => simp [drainAll, hdrain]
    | some b =>
      obtain ⟨j, -, htook⟩ := drainResponses_took hplays (hconsumer p List.mem_cons_self) hdrain
      obtain ⟨hp, hps'⟩ := List.nodup_cons.mp hps
      have hne (q : Priority) (hq : q ∈ ps) : q ≠ p := fun he => hp (he ▸ hq)
      have hconsumer' : ∀ q ∈ ps, (b.1.shared.rx .linux q).consumer.toNat < 8 := by
        intro q hq
        rw [htook.otherRing (hne q hq)]
        exact hconsumer q (List.mem_cons_of_mem p hq)
      have hrest := ih (htook.plays hplays) hps' hconsumer' b.2
      have hhalts : (∀ q ∈ ps, Halts b.1 q fun _ => ResponseEnds b.1) ↔
          ∀ q ∈ ps, Halts d q fun _ => ResponseEnds d :=
        forall₂_congr fun q hq => htook.halts_iff (hne q hq)
      -- no later ring is this one, so what was popped here is what the whole pass popped here
      have hstats {d' : Driver} {lines' : List ResponseLine}
          (h : drainAll 8 ps b.1 b.2 = some (d', lines')) : popped p d d' = popped p d b.1 :=
        popped_congr rfl (drainAll_others (htook.plays hplays) hps' hconsumer' h hp)
      have hother {d' : Driver} {q : Priority} (hq : q ∈ ps) : popped q b.1 d' = popped q d d' :=
        popped_congr (htook.others q (hne q hq)) rfl
      have hcons : drainAll 8 (p :: ps) d lines = drainAll 8 ps b.1 b.2 := by
        rw [drainAll, hdrain]
      rw [← hhalts, ← hrest, hcons]
      constructor
      · rintro ⟨d', lines', hall, hpopped⟩
        have hfirst := hpopped p List.mem_cons_self
        rw [hstats hall] at hfirst
        refine ⟨⟨b.1, b.2, rfl, hfirst⟩, d', lines', hall, fun q hq => ?_⟩
        rw [hother hq]
        exact hpopped q (List.mem_cons_of_mem p hq)
      · rintro ⟨⟨d₁, lines₁, hb, hfirst⟩, d', lines', hall, hpopped⟩
        obtain rfl : b = (d₁, lines₁) := Option.some.inj hb
        refine ⟨d', lines', hall, List.forall_mem_cons.mpr ⟨?_, fun q hq => ?_⟩⟩
        · rw [hstats hall]
          exact hfirst
        · rw [← hother hq]
          exact hpopped q hq

/-- A bound driver whose reverse rings are cleared, with producer index `producer`. -/
def strayDriver (producer : U32) (state : SessionState) : Driver :=
  { probedWorld.driver with
    shared := { freshShared 1 with cpu3ToLinux := fun _ => { Ring.zero with producer := producer } }
    endpoint := (endpointBind Endpoint.zero (freshShared 1) .linux).2
    life := { probedWorld.driver.life with mailmsgState := state, lifecycleDeadline := 1250 } }

/-- `control_work` and `mailmsg_response_show` return with at most seven frames popped from a ring
exactly if each ring they drain meets `Halts`. -/
theorem receive_loops_halt_iff {d : Driver} (hplays : d.endpoint.Plays .linux)
    (hconsumer : ∀ p, (d.shared.cpu3ToLinux p).consumer.toNat < 8) (cfg : Config) (start : U64)
    (clock : ℕ → U64) :
    ((∃ d' log, mailmsgControlWork cfg start clock 8 d = some (d', log) ∧ popped 0 d d' ≤ 7) ↔
      (d.life.mailmsgState ≠ .starting ∧ d.life.mailmsgState ≠ .stopping) ∨
        timeAfterEq start d.life.lifecycleDeadline = true ∨ Halts d 0 (ControlEnds clock d)) ∧
    ((∃ d' lines, mailmsgResponseShow 8 d = some (d', lines) ∧ ∀ p, popped p d d' ≤ 7) ↔
      d.endpoint.role = none ∨ mailmsgDataGateLocked d ≠ 0 ∨
        ∀ p, Halts d p fun _ => ResponseEnds d) := by
  have hself (p : Priority) : popped p d d ≤ 7 := by
    rw [popped, BitVec.sub_self]
    decide
  constructor
  · rw [mailmsgControlWork]
    by_cases hstate : d.life.mailmsgState ≠ .starting ∧ d.life.mailmsgState ≠ .stopping
    · rw [if_pos hstate]
      exact iff_of_true ⟨d, [], rfl, hself 0⟩ (.inl hstate)
    · rw [if_neg hstate]
      by_cases hlate : timeAfterEq start d.life.lifecycleDeadline = true
      · rw [if_pos hlate]
        exact iff_of_true ⟨mailmsgSetTimeoutLocked d, [], rfl, hself 0⟩ (.inr (.inl hlate))
      · rw [if_neg hlate, controlLoop_iff hplays cfg clock (hconsumer 0)]
        exact ⟨fun h => .inr (.inr h), fun h => (h.resolve_left hstate).resolve_left hlate⟩
  · rw [mailmsgResponseShow]
    by_cases hrole : d.endpoint.role = none
    · rw [if_pos hrole]
      exact iff_of_true ⟨d, _, rfl, hself⟩ (.inl hrole)
    · rw [if_neg hrole]
      by_cases hgate : mailmsgDataGateLocked d ≠ 0
      · rw [if_pos hgate]
        exact iff_of_true ⟨d, _, rfl, hself⟩ (.inr (.inl hgate))
      · have hall := drainAll_iff hplays (by decide : ([0, 1, 2, 3] : List Priority).Nodup)
          (fun p _ => hconsumer p) []
        have hmem (p : Priority) : p ∈ [0, 1, 2, 3] := by
          revert p
          decide
        simp only [hmem, forall_const] at hall
        rw [if_neg hgate]
        constructor
        · rintro ⟨d', lines, hshow, hpopped⟩
          cases hdrain : drainAll 8 [0, 1, 2, 3] d [] with
          | none =>
            rw [hdrain] at hshow
            cases hshow
          | some b =>
            rw [hdrain] at hshow
            obtain rfl : b.1 = d' := congrArg Prod.fst (Option.some.inj hshow)
            exact .inr (.inr (hall.mp ⟨b.1, b.2, hdrain, hpopped⟩))
        · intro h
          obtain ⟨d', lines, hdrain, hpopped⟩ :=
            hall.mpr ((h.resolve_left hrole).resolve_left hgate)
          rw [hdrain]
          exact ⟨d', _, rfl, hpopped⟩

/-- Seven cleared slots ahead of a producer index in range: both loops pop all seven and return. -/
theorem receive_loops_halt_stray :
    (∃ d' log, mailmsgControlWork board 0 (fun _ => 0) 8 (strayDriver 7 .starting) = some (d', log) ∧
        popped 0 (strayDriver 7 .starting) d' = 7) ∧
      ∃ d' lines, mailmsgResponseShow 8 (strayDriver 7 .active) = some (d', lines) ∧
        ∀ p, popped p (strayDriver 7 .active) d' = 7 := by
  have hconsumer (state : SessionState) (p : Priority) :
      ((strayDriver 7 state).shared.cpu3ToLinux p).consumer.toNat < 8 :=
    (by decide : (0 : U32).toNat < 8)
  have hproducer (state : SessionState) (p : Priority) (ends : ℕ → Message → Prop) :
      Halts (strayDriver 7 state) p ends :=
    .inr (.inl (by decide : (7 : U32).toNat < 8))
  obtain ⟨d', log, hcontrol, -⟩ := (receive_loops_halt_iff (.inr rfl) (hconsumer .starting) board 0
    fun _ => 0).1.mpr (.inr (.inr (hproducer ..)))
  obtain ⟨e, lines, hshow, -⟩ := (receive_loops_halt_iff (.inr rfl) (hconsumer .active) board 0
    fun _ => 0).2.mpr (.inr (.inr fun _ => hproducer ..))
  refine ⟨⟨d', log, hcontrol, ?_⟩, e, lines, hshow, ?_⟩
  · have hseven : (mailmsgControlWork board 0 (fun _ => 0) 8 (strayDriver 7 .starting)).map
        (fun r => popped 0 (strayDriver 7 .starting) r.1) = some 7 := by decide +kernel
    rw [hcontrol] at hseven
    exact Option.some.inj hseven
  · have hseven : (mailmsgResponseShow 8 (strayDriver 7 .active)).map
        (fun r => decide (∀ p, popped p (strayDriver 7 .active) r.1 = 7)) = some true := by
      decide +kernel
    rw [hshow] at hseven
    exact of_decide_eq_true (Option.some.inj hseven)

/-- A cleared slot is committed and malformed: it is popped and does not end a loop. -/
theorem stray_never (state : SessionState) (p : Priority) (k : ℕ) :
    ¬ (endpointSessionValid (strayDriver 8 state).endpoint (strayDriver 8 state).shared ≠ endpointOk ∨
        ((strayDriver 8 state).shared.rx .linux p).Rests k) ∧
      frameCheck (((strayDriver 8 state).shared.rx .linux p).ahead k) ≠ ringOk := by
  refine ⟨?_, (by decide : frameCheck Message.zero ≠ ringOk)⟩
  rintro (hsession | hindex | hcommit)
  · exact hsession (by decide : endpointSessionValid
      (endpointBind Endpoint.zero (freshShared 1) .linux).2 (freshShared 1) = endpointOk)
  · have hlt := indexOf_lt (((strayDriver 8 state).shared.rx .linux p).consumer.toNat + k)
    rw [hindex] at hlt
    exact absurd hlt (by decide : ¬ (8 : U32).toNat < 8)
  · exact hcommit rfl

/-- A producer index of 8 over cleared slots: neither loop is left, however long it runs. -/
theorem receive_loops_spin :
    (∀ clock fuel, mailmsgControlWork board 0 clock fuel (strayDriver 8 .starting) = none) ∧
      ∀ fuel, mailmsgResponseShow fuel (strayDriver 8 .active) = none := by
  constructor
  · intro clock fuel
    have hloop : controlLoop board clock fuel 0 (strayDriver 8 .starting) [] = none := by
      rw [controlLoop_eq]
      refine (control_consumes board clock (.inr rfl)).eq_none
        ⟨.refl (by decide), rfl, rfl, rfl, rfl⟩ fun k _ _ => ?_
      obtain ⟨hidle, hcheck⟩ := stray_never .starting 0 k
      exact ⟨hidle, fun hends => hcheck hends.1⟩
    rw [mailmsgControlWork, if_neg (by decide), if_neg (by decide), hloop]
  · intro fuel
    have hloop : drainResponses 0 fuel (strayDriver 8 .active) [] = none := by
      rw [drainResponses_eq 0 fuel 0]
      refine (drain_consumes 0 (.inr rfl)).eq_none (.refl (by decide)) fun k _ _ => ?_
      obtain ⟨hidle, hcheck⟩ := stray_never .active 0 k
      exact ⟨hidle, fun hends => hcheck hends.1⟩
    rw [mailmsgResponseShow, if_neg (by decide), if_neg (by decide), drainAll, hloop]

end Lzamp.R1Amp
