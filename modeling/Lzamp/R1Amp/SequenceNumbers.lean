import Lzamp.Lib.Counter
import Lzamp.Mailmsg.SendAtomic
import Lzamp.R1Amp.FaultInjection
import Lzamp.R1Amp.World

namespace Lzamp.R1Amp
open Lib Mailmsg

/-- The increment as `mailmsg_test_enqueue_locked` writes it out. -/
def testNextSequence (e : Endpoint) : U32 × Endpoint :=
  let e := { e with nextSequence := e.nextSequence + 1 }
  if e.nextSequence = 0 then
    let e := { e with nextSequence := e.nextSequence + 1 }
    (e.nextSequence, e)
  else (e.nextSequence, e)

theorem testNextSequence_eq (e : Endpoint) :
    testNextSequence e =
      (nextNonzero e.nextSequence, { e with nextSequence := nextNonzero e.nextSequence }) := by
  unfold testNextSequence nextNonzero
  dsimp only
  split_ifs
  · rfl
  · rfl

/-- What the ring did with a frame. -/
inductive PushOutcome where
  | committed
  | full
  | invalid
deriving DecidableEq

def PushOutcome.of (full ret : Int) : PushOutcome :=
  if ret = 0 then .committed else if ret = full then .full else .invalid

/-- A number that was allocated, and the ring before and after the frame was handed to it. -/
structure Allocation where
  sequence : U32
  outcome : PushOutcome
  before : Ring
  after : Ring

def Allocation.slot (a : Allocation) : Message := a.after.slot (slotIndex a.before.producer)

/-- A call on an endpoint, with the shared page or the driver state in which it finds itself. -/
inductive Call (ν : Type) where
  | send (sh : Shared) (n : ν) (priority : ℕ) (type : U32) (payload : Option (List U8))
    (length : U32) (result : SendResult)
  | testEnqueue (d : Driver) (p : Priority) (value : U32) (corruptPayload : Bool)

section Calls

variable {ν : Type} (notify : ν → Priority → Int × ν)

def Call.endpoint (e : Endpoint) : Call ν → Endpoint
  | .send sh n priority type payload length result =>
    (endpointSend notify n e sh priority type payload length result).endpoint
  | .testEnqueue d p value corruptPayload =>
    (mailmsgTestEnqueueLocked p value corruptPayload { d with endpoint := e }).2.endpoint

/-- The number that a call allocated, if it came that far. -/
def Call.allocation (e : Endpoint) : Call ν → Option Allocation
  | .send sh n priority type payload length result =>
    match e.role with
    | none => none
    | some role =>
      if h : ArgumentsOk priority payload length ∧ endpointSessionValid e sh = endpointOk then
        let s := endpointSend notify n e sh priority type payload length result
        some ⟨s.endpoint.nextSequence, .of ringFull s.ret, sh.tx role ⟨priority, h.1.1⟩,
          s.shared.tx role ⟨priority, h.1.1⟩⟩
      else none
  | .testEnqueue d p value corruptPayload =>
    if d.shared.magic = protocolMagic ∧ d.shared.version = protocolVersion ∧
        d.shared.generation = e.generation then
      let r := mailmsgTestEnqueueLocked p value corruptPayload { d with endpoint := e }
      some ⟨r.2.endpoint.nextSequence, .of (-enospc) r.1, d.shared.linuxToCpu3 p,
        r.2.shared.linuxToCpu3 p⟩
    else none

def allocations (e : Endpoint) : List (Call ν) → List Allocation
  | [] => []
  | c :: calls => (c.allocation notify e).toList ++ allocations (c.endpoint notify e) calls

end Calls

/-- A frame with a number of its own, that the ring took or had no room for. -/
structure Allocation.Sound (a : Allocation) (sequence : U32) : Prop where
  sequence_eq : a.sequence = sequence
  outcome : a.outcome ≠ .invalid
  slot : a.outcome = .committed → a.slot.sequence = sequence ∧ a.slot.commit = sequence

section Sound

variable {a : Allocation} {sequence : U32}

theorem Allocation.sound_of_full (hsequence : a.sequence = sequence) (hfull : a.outcome = .full) :
    a.Sound sequence where
  sequence_eq := hsequence
  outcome := by simp [hfull]
  slot := by simp [hfull]

theorem Allocation.sound_of_committed {slot : Message} (hsequence : a.sequence = sequence)
    (hcommitted : a.outcome = .committed) (hslot : a.slot = slot)
    (hnumber : slot.sequence = sequence) (hcommit : slot.commit = sequence) :
    a.Sound sequence where
  sequence_eq := hsequence
  outcome := by simp [hcommitted]
  slot _ := by
    rw [hslot]
    exact ⟨hnumber, hcommit⟩

end Sound

section Step

variable {ν : Type} {notify : ν → Priority → Int × ν} {e : Endpoint}

/-- What a call does to the counter. -/
inductive Call.Counts (notify : ν → Priority → Int × ν) (e : Endpoint) (c : Call ν) : Prop where
  | rejected (identity : (c.endpoint notify e).identity = e.identity)
      (nextSequence : (c.endpoint notify e).nextSequence = e.nextSequence)
      (allocation : c.allocation notify e = none)
  | allocated (a : Allocation) (identity : (c.endpoint notify e).identity = e.identity)
      (nextSequence : (c.endpoint notify e).nextSequence = nextNonzero e.nextSequence)
      (allocation : c.allocation notify e = some a) (sound : a.Sound (nextNonzero e.nextSequence))

section Send

variable (n : ν) (sh : Shared) (priority : ℕ) (type : U32) (payload : Option (List U8))
  (length : U32) (result : SendResult)

variable (notify e) in
theorem endpointSend_enqueue :
    let s := endpointSend notify n e sh priority type payload length result
    let q := endpointEnqueue e sh priority type payload length result
    s.ret = q.ret ∧ s.shared = q.shared ∧ s.endpoint.nextSequence = q.endpoint.nextSequence := by
  dsimp only
  unfold endpointSend
  dsimp only
  split_ifs with hret
  · exact ⟨rfl, rfl, rfl⟩
  · exact ⟨(not_not.mp hret).symm, rfl, rfl⟩

theorem endpointEnqueue_of_invalid
    (h : e.role = none ∨ ¬ (ArgumentsOk priority payload length ∧
      endpointSessionValid e sh = endpointOk)) :
    (endpointEnqueue e sh priority type payload length result).endpoint = e := by
  unfold endpointEnqueue
  split
  · rfl
  · next role hrole =>
    have hinvalid := h.resolve_left (by rw [hrole]; exact Option.some_ne_none role)
    split_ifs with hp hargs hsession
    · rfl
    · rfl
    · refine absurd ⟨⟨hp, ?_, ?_⟩, not_not.mp hsession⟩ hinvalid
      · exact BitVec.not_lt.mp fun hlt => hargs (.inl hlt)
      · by_contra hnull
        obtain ⟨hlength, hpayload⟩ := not_or.mp hnull
        exact hargs (.inr ⟨hlength, not_not.mp hpayload⟩)
    · rfl

theorem send_allocation_none
    (h : e.role = none ∨ ¬ (ArgumentsOk priority payload length ∧
      endpointSessionValid e sh = endpointOk)) :
    (Call.send sh n priority type payload length result).allocation notify e = none := by
  unfold Call.allocation
  dsimp only
  split
  · rfl
  · next role hrole =>
    exact dif_neg (h.resolve_left (by rw [hrole]; exact Option.some_ne_none role))

theorem enqueueFrame_outcome (role : EndpointRole) (p : Priority)
    (hsession : endpointSessionValid e sh = endpointOk) (hlength : length ≤ 28#32) :
    let q := enqueueFrame e sh role p type payload length
    q.endpoint.nextSequence = nextNonzero e.nextSequence ∧
      Allocation.Sound ⟨q.endpoint.nextSequence, .of ringFull q.ret, sh.tx role p,
        q.shared.tx role p⟩ (nextNonzero e.nextSequence) := by
  have hform := composeFrame_wellFormed (endpointSessionValid_ok.mp hsession).2.1 type hlength
    payload
  dsimp only
  rw [enqueueFrame, ringPush_eq, if_neg hform]
  split_ifs with hfull
  · exact ⟨rfl, Allocation.sound_of_full rfl rfl⟩
  · have hslot (m : Message) : ((sh.setTx role p ((sh.tx role p).published m)).tx role p).slot
        (slotIndex (sh.tx role p).producer) = m.seal := by
      rw [Shared.tx_setTx, Function.update_self]
      exact Function.update_self ..
    exact ⟨rfl, Allocation.sound_of_committed rfl rfl (hslot _) rfl rfl⟩

theorem send_counts :
    Call.Counts notify e (.send sh n priority type payload length result) := by
  obtain ⟨hret, hshared, hnext⟩ :=
    endpointSend_enqueue notify e n sh priority type payload length result
  have hidentity := identity_endpointSend notify n e sh priority type payload length result
  by_cases hinvalid : e.role = none ∨ ¬ (ArgumentsOk priority payload length ∧
      endpointSessionValid e sh = endpointOk)
  · refine .rejected hidentity (hnext.trans ?_)
      (send_allocation_none n sh priority type payload length result hinvalid)
    rw [endpointEnqueue_of_invalid sh priority type payload length result hinvalid]
  · obtain ⟨hbound, hvalid⟩ := not_or.mp hinvalid
    obtain ⟨role, hrole⟩ := Option.ne_none_iff_exists'.mp hbound
    have hvalid := not_not.mp hvalid
    obtain ⟨⟨hp, hlength, hpayload⟩, hsession⟩ := id hvalid
    have hq := endpointEnqueue_of_valid hrole hsession ⟨priority, hp⟩ type payload length hlength
      hpayload result
    have houtcome := enqueueFrame_outcome sh type payload length role ⟨priority, hp⟩ hsession
      hlength
    rw [← hq] at houtcome
    dsimp only at houtcome
    rw [← hret, ← hshared, ← hnext] at houtcome
    refine .allocated _ hidentity houtcome.1 ?_ houtcome.2
    unfold Call.allocation
    simp only [hrole]
    exact dif_pos hvalid

end Send

theorem mailmsgTestEnqueueLocked_eq (p : Priority) (value : U32) (corruptPayload : Bool)
    (d : Driver) :
    mailmsgTestEnqueueLocked p value corruptPayload d =
      if d.shared.magic ≠ protocolMagic ∨ d.shared.version ≠ protocolVersion ∨
          d.shared.generation ≠ d.endpoint.generation then (-eproto, d)
      else
        let alloc := testNextSequence d.endpoint
        let push := mailmsgLinuxRingPush (d.shared.linuxToCpu3 p)
          (composeFrame d.endpoint.generation msgPing alloc.1 4 (some (storePayloadU32 value)))
          corruptPayload
        (push.1, { d with endpoint := alloc.2, shared := d.shared.setTx .linux p push.2 }) := by
  rw [testNextSequence_eq]
  rfl

/-- The private push writes the number and the commit word whether or not it corrupts. -/
theorem linuxRingPush_outcome (ring : Ring) {m : Message} (hform : ¬ m.Malformed)
    (corruptPayload : Bool) :
    let push := mailmsgLinuxRingPush ring m corruptPayload
    Allocation.Sound ⟨m.sequence, .of (-enospc) push.1, ring, push.2⟩ m.sequence := by
  dsimp only
  rw [mailmsgLinuxRingPush_eq, if_neg hform]
  by_cases hfull : next ring.producer = ring.consumer
  · rw [if_pos hfull]
    exact Allocation.sound_of_full rfl rfl
  · rw [if_neg hfull]
    refine Allocation.sound_of_committed rfl rfl (Function.update_self ..) ?_ ?_
    -- the fault is in the payload, not in the number
    all_goals
      cases corruptPayload with
      | false => rfl
      | true =>
        rw [if_pos rfl, corrupt_payloadFault]
        rfl

theorem testEnqueue_counts (hbound : e.generation ≠ 0) (d : Driver) (p : Priority) (value : U32)
    (corruptPayload : Bool) :
    Call.Counts notify e (.testEnqueue d p value corruptPayload) := by
  have hcall := mailmsgTestEnqueueLocked_eq p value corruptPayload { d with endpoint := e }
  by_cases hheader : d.shared.magic = protocolMagic ∧ d.shared.version = protocolVersion ∧
      d.shared.generation = e.generation
  · have hform := composeFrame_wellFormed hbound msgPing (by decide : 4#32 ≤ 28#32)
      (some (storePayloadU32 value))
    have hsound := linuxRingPush_outcome (d.shared.linuxToCpu3 p) hform corruptPayload
    have hring (ring : Ring) : (d.shared.setTx .linux p ring).linuxToCpu3 p = ring :=
      Function.update_self ..
    rw [if_neg (by tauto), testNextSequence_eq] at hcall
    refine .allocated _ ?_ ?_ (if_pos hheader) ?_
    · exact congrArg (fun r => r.2.endpoint.identity) hcall
    · exact congrArg (fun r => r.2.endpoint.nextSequence) hcall
    · rw [hcall]
      dsimp only
      rw [hring]
      exact hsound
  · rw [if_pos (by tauto)] at hcall
    refine .rejected ?_ ?_ (if_neg hheader)
    · exact congrArg (fun r => r.2.endpoint.identity) hcall
    · exact congrArg (fun r => r.2.endpoint.nextSequence) hcall

theorem call_counts (hbound : e.generation ≠ 0) (c : Call ν) : c.Counts notify e := by
  cases c with
  | send sh n priority type payload length result =>
    exact send_counts n sh priority type payload length result
  | testEnqueue d p value corruptPayload => exact testEnqueue_counts hbound d p value corruptPayload

end Step

section Run

variable {ν : Type} {notify : ν → Priority → Int × ν}

theorem allocations_sound (calls : List (Call ν)) {e : Endpoint} (hbound : e.generation ≠ 0)
    {k : ℕ} {a : Allocation} (hk : (allocations notify e calls)[k]? = some a) :
    a.Sound (nextNonzero^[k + 1] e.nextSequence) := by
  induction calls generalizing e k with
  | nil => simp [allocations] at hk
  | cons c calls ih =>
    have hnext (e' : Endpoint) (he : e'.identity = e.identity) : e'.generation ≠ 0 := by
      rw [show e'.generation = e.generation from congrArg Prod.snd he]
      exact hbound
    rw [allocations] at hk
    cases (call_counts hbound c : c.Counts notify e) with
    | rejected hidentity hsequence hnone =>
      rw [hnone] at hk
      rw [← hsequence]
      exact ih (hnext _ hidentity) hk
    | allocated b hidentity hsequence hsome hsound =>
      rw [hsome] at hk
      cases k with
      | zero =>
        cases hk
        exact hsound
      | succ k =>
        rw [Function.iterate_succ_apply, ← hsequence]
        exact ih (hnext _ hidentity) hk

theorem endpointBind_bound {e : Endpoint} {sh : Shared} {role : EndpointRole}
    (h : (endpointBind e sh role).1 = endpointOk) :
    (endpointBind e sh role).2.generation ≠ 0 ∧ (endpointBind e sh role).2.nextSequence = 0 := by
  unfold endpointBind at h ⊢
  split_ifs at h ⊢ with hheader hgeneration
  · exact absurd h (show endpointProtocolMismatch ≠ endpointOk by decide)
  · exact absurd h (show endpointStaleSession ≠ endpointOk by decide)
  · exact ⟨hgeneration, rfl⟩

end Run

/-- Allocation `k` since the endpoint was bound, counted from zero, has number
`k % (2 ^ 32 - 1) + 1`.  So the ring never refuses a frame for its number, and the commit word of a
committed slot is not zero. -/
theorem sequence_numbers_cycle {ν : Type} (notify : ν → Priority → Int × ν) {e : Endpoint}
    {sh : Shared} {role : EndpointRole} (hbind : (endpointBind e sh role).1 = endpointOk)
    (calls : List (Call ν)) :
    let numbered := allocations notify (endpointBind e sh role).2 calls
    (∀ k a, numbered[k]? = some a → a.sequence.toNat = k % (2 ^ 32 - 1) + 1) ∧
    (∀ a ∈ numbered, a.sequence ≠ 0 ∧ a.outcome ≠ .invalid ∧
      (a.outcome = .committed →
        a.slot.sequence = a.sequence ∧ a.slot.commit = a.sequence ∧ a.slot.commit ≠ 0)) ∧
    ∀ i j a b, numbered[i]? = some a → numbered[j]? = some b → i < j → j - i < 2 ^ 32 - 1 →
      a.sequence ≠ b.sequence := by
  intro numbered
  obtain ⟨hbound, hzero⟩ := endpointBind_bound hbind
  have hsound {k : ℕ} {a : Allocation} (hk : numbered[k]? = some a) :
      a.Sound (nextNonzero^[k + 1] 0) := by
    have h := allocations_sound calls hbound hk
    rw [hzero] at h
    exact h
  refine ⟨?_, ?_, ?_⟩
  · intro k a hk
    rw [(hsound hk).sequence_eq]
    exact toNat_iterate_nextNonzero (by decide) k
  · intro a ha
    obtain ⟨k, hk⟩ := List.mem_iff_getElem?.mp ha
    have h := hsound hk
    have hne : a.sequence ≠ 0 := by
      rw [h.sequence_eq]
      exact iterate_nextNonzero_ne_zero (by decide) k
    refine ⟨hne, h.outcome, fun hcommitted => ?_⟩
    obtain ⟨hnumber, hcommit⟩ := h.slot hcommitted
    rw [← h.sequence_eq] at hnumber hcommit
    exact ⟨hnumber, hcommit, hcommit ▸ hne⟩
  · intro i j a b hi hj hij hnear
    rw [(hsound hi).sequence_eq, (hsound hj).sequence_eq]
    exact iterate_nextNonzero_ne (by decide) hij hnear

def twoPings : List (Call Unit) :=
  [.send (freshShared 1) () 0 msgPing none 0 .zero,
    .testEnqueue { probedWorld.driver with shared := freshShared 1 } 1 5 true]

theorem sequence_numbers_cycle_two :
    ∃ a b, allocations (fun n _ => (notifySent, n)) (endpointBind .zero (freshShared 1) .linux).2
        twoPings = [a, b] ∧
      a.sequence.toNat = 1 ∧ b.sequence.toNat = 2 ∧ a.sequence ≠ b.sequence := by
  have h := sequence_numbers_cycle (fun n _ => (notifySent, n))
    (show (endpointBind .zero (freshShared 1) .linux).1 = endpointOk by decide) twoPings
  obtain ⟨a, b, hlist⟩ : ∃ a b, allocations (fun n _ => (notifySent, n))
      (endpointBind .zero (freshShared 1) .linux).2 twoPings = [a, b] := ⟨_, _, rfl⟩
  rw [hlist] at h
  exact ⟨a, b, hlist, h.1 0 a rfl, h.1 1 b rfl,
    h.2.2 0 1 a b rfl rfl (by decide) (by decide)⟩

end Lzamp.R1Amp
