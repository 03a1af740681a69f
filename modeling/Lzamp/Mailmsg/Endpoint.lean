import Lzamp.Mailmsg.RingContents

namespace Lzamp.Mailmsg

abbrev endpointOk : Int := 0
abbrev endpointInvalid : Int := -100
abbrev endpointProtocolMismatch : Int := -101
abbrev endpointStaleSession : Int := -102
abbrev endpointStaleFrame : Int := -103

abbrev notifySent : Int := 0
abbrev notifyCoalesced : Int := 1

def notifyAccepted (result : Int) : Bool := result == notifySent || result == notifyCoalesced

inductive EndpointRole where
  | linux
  | cpu3
deriving DecidableEq

@[ext] structure PriorityStats where
  txEnqueued : U32
  txFull : U32
  txHighWater : U32
  notifySent : U32
  notifyCoalesced : U32
  notifyFailed : U32
  rxOk : U32
  rxIncomplete : U32
  rxBadCrc : U32
  rxInvalid : U32
  rxStale : U32
deriving DecidableEq

def PriorityStats.zero : PriorityStats := ⟨0, 0, 0, 0, 0, 0, 0, 0, 0, 0, 0⟩

@[ext] structure SendResult where
  queueResult : Int
  notifyResult : Int
  notifyAttempted : Bool
  sequence : U32
deriving DecidableEq

def SendResult.zero : SendResult := ⟨0, 0, false, 0⟩

@[ext] structure Shared where
  magic : U32
  version : U32
  generation : U32
  linuxToCpu3 : Priority → Ring
  cpu3ToLinux : Priority → Ring
deriving DecidableEq

def Shared.zero : Shared := ⟨0, 0, 0, fun _ => Ring.zero, fun _ => Ring.zero⟩

/-- The control page after the `memset` and the three header writes of `start_store`. -/
def freshShared (generation : U32) : Shared :=
  { Shared.zero with
    magic := protocolMagic, version := protocolVersion, generation := generation }

def Shared.tx (sh : Shared) : EndpointRole → Priority → Ring
  | .linux => sh.linuxToCpu3
  | .cpu3 => sh.cpu3ToLinux

def Shared.rx (sh : Shared) : EndpointRole → Priority → Ring
  | .linux => sh.cpu3ToLinux
  | .cpu3 => sh.linuxToCpu3

def Shared.setTx (sh : Shared) (role : EndpointRole) (p : Priority) (r : Ring) : Shared :=
  match role with
  | .linux => { sh with linuxToCpu3 := Function.update sh.linuxToCpu3 p r }
  | .cpu3 => { sh with cpu3ToLinux := Function.update sh.cpu3ToLinux p r }

def Shared.setRx (sh : Shared) (role : EndpointRole) (p : Priority) (r : Ring) : Shared :=
  match role with
  | .linux => { sh with cpu3ToLinux := Function.update sh.cpu3ToLinux p r }
  | .cpu3 => { sh with linuxToCpu3 := Function.update sh.linuxToCpu3 p r }

def Shared.header (sh : Shared) : U32 × U32 × U32 := (sh.magic, sh.version, sh.generation)

/-- `struct mailmsg_endpoint`.  `bind` sets the five pointers together and only clearing the whole
structure resets them, so the role stands for all of them. -/
@[ext] structure Endpoint where
  role : Option EndpointRole
  nextSequence : U32
  generation : U32
  stats : Priority → PriorityStats
deriving DecidableEq

def Endpoint.zero : Endpoint := ⟨none, 0, 0, fun _ => PriorityStats.zero⟩

/-- Not bound to the other side. -/
def Endpoint.Plays (e : Endpoint) (role : EndpointRole) : Prop := e.role = none ∨ e.role = some role

theorem Endpoint.Plays.eq_of_some {e : Endpoint} {role role' : EndpointRole} (h : e.Plays role)
    (hrole : e.role = some role') : role' = role := by
  rcases h with hn | hs
  · rw [hn] at hrole
    cases hrole
  · exact Option.some.inj (hrole.symm.trans hs)

/-- What a bound endpoint never changes. -/
def Endpoint.identity (e : Endpoint) : Option EndpointRole × U32 := (e.role, e.generation)

theorem Endpoint.Plays.of_identity {e e' : Endpoint} {role : EndpointRole} (h : e.Plays role)
    (hsame : e'.identity = e.identity) : e'.Plays role := by
  have hrole : e'.role = e.role := congrArg Prod.fst hsame
  rwa [Endpoint.Plays, hrole]

def Endpoint.modifyStats (e : Endpoint) (p : Priority) (f : PriorityStats → PriorityStats) :
    Endpoint := { e with stats := Function.update e.stats p (f (e.stats p)) }

def endpointNextSequence (e : Endpoint) : U32 × Endpoint :=
  let next := e.nextSequence + 1
  let next := if next = 0 then next + 1 else next
  (next, { e with nextSequence := next })

def endpointSessionValid (e : Endpoint) (sh : Shared) : Int :=
  if e.role = none ∨ e.generation = 0 then endpointInvalid
  else if sh.magic ≠ protocolMagic ∨ sh.version ≠ protocolVersion then endpointProtocolMismatch
  else if sh.generation ≠ e.generation then endpointStaleSession
  else endpointOk

def endpointBind (e : Endpoint) (sh : Shared) (role : EndpointRole) : Int × Endpoint :=
  if sh.magic ≠ protocolMagic ∨ sh.version ≠ protocolVersion then (endpointProtocolMismatch, e)
  else if sh.generation = 0 then (endpointStaleSession, e)
  else (endpointOk, { role := some role, nextSequence := 0, generation := sh.generation,
                      stats := fun _ => PriorityStats.zero })

theorem endpointBind_plays {e : Endpoint} {role : EndpointRole} (h : e.Plays role) (sh : Shared) :
    (endpointBind e sh role).2.Plays role := by
  unfold endpointBind
  split_ifs
  · exact h
  · exact h
  · exact Or.inr rfl

/-- The payload array after the copy loop of `send`. -/
def copyPayload (payload : Option (List U8)) (length : U32) : Fin 28 → U8 := fun i =>
  if i.val < length.toNat then (payload.getD []).getD i.val 0 else 0

def composeFrame (generation type sequence length : U32) (payload : Option (List U8)) : Message :=
  { Message.zero with
    generation := generation, type := type, sequence := sequence, length := length,
    payload := copyPayload payload length }

structure Enqueued where
  ret : Int
  result : SendResult
  endpoint : Endpoint
  shared : Shared

def PriorityStats.countEnqueue (s : PriorityStats) (depth : Int) : PriorityStats :=
  let s := { s with txEnqueued := s.txEnqueued + 1 }
  if 0 < depth ∧ (s.txHighWater.toNat : Int) < depth then
    { s with txHighWater := BitVec.ofInt 32 depth }
  else s

/-- What `mailmsg_endpoint_send` records once the push has returned. -/
def settlePush (e : Endpoint) (sh : Shared) (role : EndpointRole) (p : Priority) (sequence : U32)
    (push : Int × Ring) : Enqueued :=
  if push.1 ≠ ringOk then
    -- the number was never committed and is not reported
    let e := if push.1 = ringFull then
      e.modifyStats p fun s => { s with txFull := s.txFull + 1 } else e
    ⟨push.1, ⟨push.1, -1, false, 0⟩, e, sh.setTx role p push.2⟩
  else
    let e := e.modifyStats p fun s => s.countEnqueue (ringCount push.2)
    ⟨endpointOk, ⟨push.1, -1, false, sequence⟩, e, sh.setTx role p push.2⟩

/-- The part of `mailmsg_endpoint_send` between the session check and the doorbell. -/
def enqueueFrame (e : Endpoint) (sh : Shared) (role : EndpointRole) (p : Priority) (type : U32)
    (payload : Option (List U8)) (length : U32) : Enqueued :=
  let alloc := endpointNextSequence e
  let message := composeFrame e.generation type alloc.1 length payload
  settlePush alloc.2 sh role p alloc.1 (ringPush (sh.tx role p) message)

/-- `mailmsg_endpoint_send` up to the point where the frame is committed and counted. -/
def endpointEnqueue (e : Endpoint) (sh : Shared) (priority : ℕ) (type : U32)
    (payload : Option (List U8)) (length : U32) (result : SendResult) : Enqueued :=
  match e.role with
  | none => ⟨endpointInvalid, result, e, sh⟩
  | some role =>
    if h : priority < 4 then
      if 28#32 < length ∨ (length ≠ 0 ∧ payload = none) then ⟨endpointInvalid, result, e, sh⟩
      else if endpointSessionValid e sh ≠ endpointOk then
        ⟨endpointSessionValid e sh, ⟨ringInvalid, -1, false, 0⟩, e, sh⟩
      else enqueueFrame e sh role ⟨priority, h⟩ type payload length
    else ⟨endpointInvalid, result, e, sh⟩

def PriorityStats.countNotify (s : PriorityStats) (result : Int) : PriorityStats :=
  if result = Mailmsg.notifySent then { s with notifySent := s.notifySent + 1 }
  else if result = Mailmsg.notifyCoalesced then { s with notifyCoalesced := s.notifyCoalesced + 1 }
  else { s with notifyFailed := s.notifyFailed + 1 }

structure Sent (ν : Type) where
  ret : Int
  result : SendResult
  endpoint : Endpoint
  shared : Shared
  notifier : ν

/-- `mailmsg_endpoint_send` with a notification backend that has a state of its own. -/
def endpointSend {ν : Type} (notify : ν → Priority → Int × ν) (n : ν) (e : Endpoint) (sh : Shared)
    (priority : ℕ) (type : U32) (payload : Option (List U8)) (length : U32)
    (result : SendResult) : Sent ν :=
  let q := endpointEnqueue e sh priority type payload length result
  if q.ret ≠ endpointOk then ⟨q.ret, q.result, q.endpoint, q.shared, n⟩
  else
    let p : Priority := Fin.ofNat 4 priority
    let (r, n) := notify n p
    ⟨endpointOk, { q.result with notifyAttempted := true, notifyResult := r },
      q.endpoint.modifyStats p fun s => s.countNotify r, q.shared, n⟩

structure Received where
  ret : Int
  endpoint : Endpoint
  shared : Shared
  message : Message

def PriorityStats.countReceive (s : PriorityStats) (ret : Int) : PriorityStats :=
  if ret = endpointStaleFrame then { s with rxStale := s.rxStale + 1 }
  else if ret = ringOk then { s with rxOk := s.rxOk + 1 }
  else if ret = ringIncomplete then { s with rxIncomplete := s.rxIncomplete + 1 }
  else if ret = ringBadCrc then { s with rxBadCrc := s.rxBadCrc + 1 }
  else if ret = ringInvalid then { s with rxInvalid := s.rxInvalid + 1 }
  else s

/-- A good frame of another generation is reported as stale. -/
def receiveResult (generation : U32) (ret : Int) (message : Message) : Int :=
  if ret = ringOk ∧ message.generation ≠ generation then endpointStaleFrame else ret

def endpointReceive (e : Endpoint) (sh : Shared) (priority : ℕ) (message : Message) : Received :=
  match e.role with
  | none => ⟨endpointInvalid, e, sh, message⟩
  | some role =>
    if h : priority < 4 then
      let p : Priority := ⟨priority, h⟩
      let session := endpointSessionValid e sh
      if session ≠ endpointOk then ⟨session, e, sh, message⟩
      else
        let (ret, ring, message) := ringPop (sh.rx role p) message
        let ret := receiveResult e.generation ret message
        ⟨ret, e.modifyStats p fun s => s.countReceive ret, sh.setRx role p ring, message⟩
    else ⟨endpointInvalid, e, sh, message⟩

def endpointHasReceived (e : Endpoint) (sh : Shared) (priority : ℕ) : Int :=
  match e.role with
  | none => ringInvalid
  | some role =>
    if h : priority < 4 then
      if endpointSessionValid e sh ≠ endpointOk then ringInvalid
      else ringHasData (sh.rx role ⟨priority, h⟩)
    else ringInvalid

@[simp] theorem Shared.header_setTx (sh : Shared) (role : EndpointRole) (p : Priority) (r : Ring) :
    (sh.setTx role p r).header = sh.header := by cases role <;> rfl

@[simp] theorem Shared.header_setRx (sh : Shared) (role : EndpointRole) (p : Priority) (r : Ring) :
    (sh.setRx role p r).header = sh.header := by cases role <;> rfl

@[simp] theorem Shared.rx_setTx (sh : Shared) (role : EndpointRole) (p : Priority) (r : Ring) :
    (sh.setTx role p r).rx role = sh.rx role := by cases role <;> rfl

@[simp] theorem Shared.tx_setRx (sh : Shared) (role : EndpointRole) (p : Priority) (r : Ring) :
    (sh.setRx role p r).tx role = sh.tx role := by cases role <;> rfl

@[simp] theorem Shared.tx_setTx (sh : Shared) (role : EndpointRole) (p : Priority) (r : Ring) :
    (sh.setTx role p r).tx role = Function.update (sh.tx role) p r := by cases role <;> rfl

@[simp] theorem Shared.rx_setRx (sh : Shared) (role : EndpointRole) (p : Priority) (r : Ring) :
    (sh.setRx role p r).rx role = Function.update (sh.rx role) p r := by cases role <;> rfl

@[simp] theorem Shared.setTx_self (sh : Shared) (role : EndpointRole) (p : Priority) :
    sh.setTx role p (sh.tx role p) = sh := by cases role <;> simp [Shared.setTx, Shared.tx]

@[simp] theorem Shared.setRx_self (sh : Shared) (role : EndpointRole) (p : Priority) :
    sh.setRx role p (sh.rx role p) = sh := by cases role <;> simp [Shared.setRx, Shared.rx]

theorem endpointSessionValid_congr {e e' : Endpoint} {sh sh' : Shared}
    (he : e'.identity = e.identity) (hsh : sh'.header = sh.header) :
    endpointSessionValid e' sh' = endpointSessionValid e sh := by
  simp only [Endpoint.identity, Prod.mk.injEq] at he
  simp only [Shared.header, Prod.mk.injEq] at hsh
  simp only [endpointSessionValid, he.1, he.2, hsh.1, hsh.2.1, hsh.2.2]

theorem endpointSessionValid_ok {e : Endpoint} {sh : Shared} :
    endpointSessionValid e sh = endpointOk ↔
      e.role ≠ none ∧ e.generation ≠ 0 ∧ sh.magic = protocolMagic ∧
        sh.version = protocolVersion ∧ sh.generation = e.generation := by
  unfold endpointSessionValid
  split_ifs with h1 h2 h3
  · exact iff_of_false (by decide) (by tauto)
  · exact iff_of_false (by decide) (by tauto)
  · exact iff_of_false (by decide) (by tauto)
  · exact iff_of_true rfl (by tauto)

theorem endpointSessionValid_range (e : Endpoint) (sh : Shared) :
    endpointSessionValid e sh = endpointOk ∨ endpointSessionValid e sh = endpointInvalid ∨
      endpointSessionValid e sh = endpointProtocolMismatch ∨
      endpointSessionValid e sh = endpointStaleSession := by
  unfold endpointSessionValid
  split_ifs <;> simp

theorem endpointSessionValid_le {e : Endpoint} {sh : Shared}
    (h : endpointSessionValid e sh ≠ endpointOk) : endpointSessionValid e sh ≤ endpointInvalid := by
  rcases endpointSessionValid_range e sh with h' | h' | h' | h'
  · exact absurd h' h
  · rw [h']
  · rw [h']
    decide
  · rw [h']
    decide

theorem endpointSessionValid_of_role_none {e : Endpoint} (sh : Shared) (h : e.role = none) :
    endpointSessionValid e sh = endpointInvalid := by
  rw [endpointSessionValid, if_pos (Or.inl h)]

theorem endpointNextSequence_ne_zero (e : Endpoint) : (endpointNextSequence e).1 ≠ 0 := by
  unfold endpointNextSequence
  dsimp only
  split_ifs with h
  · rw [h]
    decide
  · exact h

theorem endpointReceive_of_invalid {e : Endpoint} {sh : Shared}
    (h : endpointSessionValid e sh ≠ endpointOk) (p : Priority) (message : Message) :
    endpointReceive e sh p message = ⟨endpointSessionValid e sh, e, sh, message⟩ := by
  unfold endpointReceive
  cases hrole : e.role with
  | none => rw [endpointSessionValid_of_role_none sh hrole]
  | some role => simp only [p.isLt, dite_true, if_pos h]

theorem endpointReceive_of_valid {e : Endpoint} {sh : Shared} {role : EndpointRole}
    (hrole : e.role = some role) (h : endpointSessionValid e sh = endpointOk) (p : Priority)
    (message : Message) :
    endpointReceive e sh p message =
      let pop := ringPop (sh.rx role p) message
      let ret := receiveResult e.generation pop.1 pop.2.2
      ⟨ret, e.modifyStats p fun s => s.countReceive ret, sh.setRx role p pop.2.1, pop.2.2⟩ := by
  unfold endpointReceive
  simp only [hrole, p.isLt, dite_true, h, ne_eq, not_true_eq_false, if_false, Fin.eta]

section Receive

variable {e : Endpoint} {sh : Shared} {role : EndpointRole} {p : Priority}

theorem endpointReceive_nil (hrole : e.role = some role)
    (h : endpointSessionValid e sh = endpointOk) (hr : (sh.rx role p).InRange)
    (hq : (sh.rx role p).contents = []) (message : Message) :
    endpointReceive e sh p message = ⟨ringEmpty, e, sh, message⟩ := by
  rw [endpointReceive_of_valid hrole h, ringPop_nil hr hq]
  have hstats : (e.modifyStats p fun s => s.countReceive ringEmpty) = e := by
    simp [Endpoint.modifyStats, PriorityStats.countReceive]
  simp only [receiveResult, Shared.setRx_self]
  exact congrArg (fun e => Received.mk ringEmpty e sh message) hstats

theorem endpointReceive_uncommitted (hrole : e.role = some role)
    (h : endpointSessionValid e sh = endpointOk) (hr : (sh.rx role p).InRange) {m : Message}
    {q : List Message} (hq : (sh.rx role p).contents = m :: q) (hcommit : m.commit ≠ m.sequence)
    (message : Message) :
    (endpointReceive e sh p message).ret = ringIncomplete ∧
      (endpointReceive e sh p message).shared = sh := by
  rw [endpointReceive_of_valid hrole h, ringPop_uncommitted hr hq hcommit]
  exact ⟨rfl, sh.setRx_self role p⟩

theorem endpointReceive_cons (hrole : e.role = some role)
    (h : endpointSessionValid e sh = endpointOk) (hr : (sh.rx role p).InRange) {m : Message}
    {q : List Message} (hq : (sh.rx role p).contents = m :: q) (hcommit : m.commit = m.sequence)
    (message : Message) :
    (endpointReceive e sh p message).ret = receiveResult e.generation (frameCheck m) m ∧
      (endpointReceive e sh p message).message = m ∧
      (endpointReceive e sh p message).shared = sh.setRx role p (sh.rx role p).released ∧
      (sh.rx role p).released.contents = q ∧ (sh.rx role p).released.InRange := by
  obtain ⟨hpop, htail, hrange⟩ := ringPop_cons hr hq hcommit message
  rw [endpointReceive_of_valid hrole h, hpop]
  exact ⟨rfl, rfl, rfl, htail, hrange⟩

end Receive

@[simp] theorem endpointReceive_identity (e : Endpoint) (sh : Shared) (p : Priority)
    (message : Message) : (endpointReceive e sh p message).endpoint.identity = e.identity := by
  unfold endpointReceive
  cases e.role with
  | none => rfl
  | some role =>
    simp only [p.isLt, dite_true]
    split_ifs <;> rfl

@[simp] theorem endpointReceive_header (e : Endpoint) (sh : Shared) (p : Priority)
    (message : Message) : (endpointReceive e sh p message).shared.header = sh.header := by
  unfold endpointReceive
  cases e.role with
  | none => rfl
  | some role =>
    simp only [p.isLt, dite_true]
    split_ifs
    · rfl
    · exact Shared.header_setRx _ _ _ _

theorem endpointHasReceived_of_invalid {e : Endpoint} {sh : Shared}
    (h : endpointSessionValid e sh ≠ endpointOk) (p : Priority) :
    endpointHasReceived e sh p = ringInvalid := by
  unfold endpointHasReceived
  cases e.role with
  | none => rfl
  | some role => simp only [p.isLt, dite_true, if_pos h]

theorem endpointHasReceived_of_valid {e : Endpoint} {sh : Shared} {role : EndpointRole}
    (hrole : e.role = some role) (h : endpointSessionValid e sh = endpointOk) (p : Priority) :
    endpointHasReceived e sh p = ringHasData (sh.rx role p) := by
  unfold endpointHasReceived
  simp only [hrole, p.isLt, dite_true, h, ne_eq, not_true_eq_false, if_false, Fin.eta]

/-- An accepted enqueue: one frame with a fresh sequence number behind the others. -/
structure EnqueueAccepted (e : Endpoint) (sh : Shared) (role : EndpointRole) (p : Priority)
    (m : Message) (q : Enqueued) : Prop where
  role_eq : e.role = some role
  session : endpointSessionValid e sh = endpointOk
  wellFormed : ¬ m.Malformed
  room : next (sh.tx role p).producer ≠ (sh.tx role p).consumer
  ret : q.ret = endpointOk
  result : q.result = ⟨ringOk, -1, false, (endpointNextSequence e).1⟩
  shared : q.shared = sh.setTx role p ((sh.tx role p).published m)
  identity : q.endpoint.identity = e.identity
  nextSequence : q.endpoint.nextSequence = (endpointNextSequence e).1

/-- A refused enqueue: at most a sequence number is spent. -/
structure EnqueueRefused (e : Endpoint) (sh : Shared) (q : Enqueued) : Prop where
  ret : q.ret ≠ endpointOk
  shared : q.shared = sh
  identity : q.endpoint.identity = e.identity
  nextSequence : q.endpoint.nextSequence = e.nextSequence ∨
    q.endpoint.nextSequence = (endpointNextSequence e).1
  queue : q.ret ≤ endpointInvalid ∨ q.result.queueResult = q.ret

theorem EnqueueRefused.of_unchanged {ret : Int} (h : ret ≤ endpointInvalid) (e : Endpoint)
    (sh : Shared) (result : SendResult) : EnqueueRefused e sh ⟨ret, result, e, sh⟩ :=
  ⟨(lt_of_le_of_lt h (by decide)).ne, rfl, rfl, Or.inl rfl, Or.inl h⟩

theorem settlePush_refused {ret : Int} (h : ret ≠ ringOk) (e : Endpoint) (sh : Shared)
    (role : EndpointRole) (p : Priority) :
    EnqueueRefused e sh (settlePush (endpointNextSequence e).2 sh role p
      (endpointNextSequence e).1 (ret, sh.tx role p)) := by
  rw [settlePush, if_pos h]
  refine ⟨h, sh.setTx_self role p, ?_, ?_, Or.inr rfl⟩
  · dsimp only
    split_ifs
    · rfl
    · rfl
  · right
    dsimp only
    split_ifs
    · rfl
    · rfl

theorem enqueueFrame_cases {e : Endpoint} {sh : Shared} {role : EndpointRole}
    (hrole : e.role = some role) (hsession : endpointSessionValid e sh = endpointOk)
    (p : Priority) (type : U32) (payload : Option (List U8)) (length : U32) :
    EnqueueRefused e sh (enqueueFrame e sh role p type payload length) ∨
    EnqueueAccepted e sh role p
      (composeFrame e.generation type (endpointNextSequence e).1 length payload)
      (enqueueFrame e sh role p type payload length) := by
  rw [enqueueFrame, ringPush_eq]
  split_ifs with hform hfull
  · exact Or.inl (settlePush_refused (by decide) e sh role p)
  · exact Or.inl (settlePush_refused (by decide) e sh role p)
  · exact Or.inr ⟨hrole, hsession, hform, hfull, rfl, rfl, rfl, rfl, rfl⟩

theorem endpointEnqueue_cases (e : Endpoint) (sh : Shared) (priority : ℕ) (type : U32)
    (payload : Option (List U8)) (length : U32) (result : SendResult) :
    EnqueueRefused e sh (endpointEnqueue e sh priority type payload length result) ∨
    ∃ role, ∃ h : priority < 4, EnqueueAccepted e sh role ⟨priority, h⟩
      (composeFrame e.generation type (endpointNextSequence e).1 length payload)
      (endpointEnqueue e sh priority type payload length result) := by
  unfold endpointEnqueue
  split
  case h_1 => exact Or.inl (.of_unchanged (by decide) e sh result)
  case h_2 role hrole =>
    by_cases hp : priority < 4
    · rw [dif_pos hp]
      split_ifs with harg hsession
      · exact Or.inl (.of_unchanged (by decide) e sh result)
      · exact Or.inl (.of_unchanged (endpointSessionValid_le hsession) e sh _)
      · have hcases := enqueueFrame_cases hrole (not_not.mp hsession) ⟨priority, hp⟩ type
          payload length
        exact hcases.imp id fun h => ⟨role, hp, h⟩
    · rw [dif_neg hp]
      exact Or.inl (.of_unchanged (by decide) e sh result)

theorem composeFrame_wellFormed {e : Endpoint} (hgen : e.generation ≠ 0) (type : U32)
    {length : U32} (hlen : length ≤ 28#32) (payload : Option (List U8)) :
    ¬ (composeFrame e.generation type (endpointNextSequence e).1 length payload).Malformed := by
  rintro (h | h | h)
  · exact hgen h
  · exact endpointNextSequence_ne_zero e h
  · exact absurd hlen (by simpa [composeFrame] using h)

theorem endpointEnqueue_of_valid {e : Endpoint} {sh : Shared} {role : EndpointRole}
    (hrole : e.role = some role) (hsession : endpointSessionValid e sh = endpointOk)
    (p : Priority) (type : U32) (payload : Option (List U8)) (length : U32)
    (hlen : length ≤ 28#32) (hpayload : length = 0 ∨ payload ≠ none) (result : SendResult) :
    endpointEnqueue e sh p type payload length result =
      enqueueFrame e sh role p type payload length := by
  have hargs : ¬ (28#32 < length ∨ (length ≠ 0 ∧ payload = none)) := by
    rintro (h | ⟨h, h'⟩)
    · exact absurd hlen (by simpa using h)
    · exact hpayload.elim h fun hp => hp h'
  unfold endpointEnqueue
  simp only [hrole, p.isLt, dite_true, if_neg hargs, hsession, ne_eq, not_true_eq_false,
    if_false, Fin.eta]

/-- With arguments in range and a valid session, only a full ring refuses a frame. -/
theorem endpointEnqueue_ok_iff {e : Endpoint} {sh : Shared} {role : EndpointRole}
    (hrole : e.role = some role) (hsession : endpointSessionValid e sh = endpointOk)
    (p : Priority) (type : U32) (payload : Option (List U8)) (length : U32)
    (hlen : length ≤ 28#32) (hpayload : length = 0 ∨ payload ≠ none) (result : SendResult) :
    (endpointEnqueue e sh p type payload length result).ret = endpointOk ↔
      next (sh.tx role p).producer ≠ (sh.tx role p).consumer := by
  have hform := composeFrame_wellFormed (endpointSessionValid_ok.mp hsession).2.1 type hlen payload
  rw [endpointEnqueue_of_valid hrole hsession p type payload length hlen hpayload, enqueueFrame,
    ringPush_eq, if_neg hform]
  split_ifs with hfull
  · exact iff_of_false (settlePush_refused (by decide) e sh role p).ret (not_not.mpr hfull)
  · exact iff_of_true rfl hfull

/-- A send is refused before the doorbell, or it commits one frame and rings once. -/
theorem endpointSend_cases {ν : Type} (notify : ν → Priority → Int × ν) (n : ν) (e : Endpoint)
    (sh : Shared) (priority : ℕ) (type : U32) (payload : Option (List U8)) (length : U32)
    (result : SendResult) :
    (∃ q, EnqueueRefused e sh q ∧
      endpointSend notify n e sh priority type payload length result =
        ⟨q.ret, q.result, q.endpoint, q.shared, n⟩) ∨
    ∃ role q, ∃ h : priority < 4, EnqueueAccepted e sh role ⟨priority, h⟩
        (composeFrame e.generation type (endpointNextSequence e).1 length payload) q ∧
      endpointSend notify n e sh priority type payload length result =
        ⟨endpointOk,
          { q.result with notifyAttempted := true, notifyResult := (notify n ⟨priority, h⟩).1 },
          q.endpoint.modifyStats ⟨priority, h⟩ fun s => s.countNotify (notify n ⟨priority, h⟩).1,
          q.shared, (notify n ⟨priority, h⟩).2⟩ := by
  unfold endpointSend
  rcases endpointEnqueue_cases e sh priority type payload length result with hq | ⟨role, h, hq⟩
  · exact Or.inl ⟨_, hq, if_pos hq.ret⟩
  · have hp : Fin.ofNat 4 priority = ⟨priority, h⟩ := Fin.ext (Nat.mod_eq_of_lt h)
    refine Or.inr ⟨role, _, h, hq, ?_⟩
    simp only [hp]
    exact if_neg (not_not.mpr hq.ret)

section Send

variable {ν : Type} (notify : ν → Priority → Int × ν) (n : ν) (e : Endpoint) (sh : Shared)
  (priority : ℕ) (type : U32) (payload : Option (List U8)) (length : U32) (result : SendResult)

theorem identity_endpointSend :
    (endpointSend notify n e sh priority type payload length result).endpoint.identity =
      e.identity := by
  rcases endpointSend_cases notify n e sh priority type payload length result with
    ⟨q, hq, heq⟩ | ⟨role, q, hp, hq, heq⟩ <;> rw [heq] <;> exact hq.identity

theorem header_endpointSend :
    (endpointSend notify n e sh priority type payload length result).shared.header =
      sh.header := by
  rcases endpointSend_cases notify n e sh priority type payload length result with
    ⟨q, hq, heq⟩ | ⟨role, q, hp, hq, heq⟩ <;> rw [heq] <;> dsimp only <;> rw [hq.shared]
  exact Shared.header_setTx _ _ _ _

theorem rx_endpointSend {role : EndpointRole} (hrole : e.Plays role) :
    (endpointSend notify n e sh priority type payload length result).shared.rx role =
      sh.rx role := by
  rcases endpointSend_cases notify n e sh priority type payload length result with
    ⟨q, hq, heq⟩ | ⟨role', q, hp, hq, heq⟩ <;> rw [heq] <;> dsimp only <;> rw [hq.shared]
  rw [hrole.eq_of_some hq.role_eq]
  exact Shared.rx_setTx _ _ _ _

end Send

end Lzamp.Mailmsg
