import Mathlib.Data.List.Perm.Basic
import Mathlib.Data.List.Nodup
import Mathlib.Tactic.IntervalCases
import Lzamp.Lib.Rank
import Lzamp.Lib.Trace
import Lzamp.R1Amp.DataPlane

namespace Lzamp.Tools
open Lib Mailmsg R1Amp

/-- The arguments that `main` accepts. -/
structure Config where
  priority : Priority
  window : ℕ
  durationSeconds : ℕ
  baseValue : U32
  window_pos : 0 < window
  window_le : window ≤ 4096
  duration_pos : 0 < durationSeconds
  duration_le : durationSeconds ≤ 3600
  base_le : baseValue.toNat ≤ 2 ^ 32 - 1 - 1000000

structure RequestSlot where
  value : U32
  startNs : U64
  active : Bool
deriving DecidableEq

/-- `struct result_set`; its `count` is the length of the list. -/
structure ResultSet where
  latencyNs : List U64
  capacity : ℕ
deriving DecidableEq

/-- Where `main` stands. -/
inductive Phase where
  /-- At the head of the first `for (;;)`. -/
  | top
  | fill
  | wait
  | read
  /-- At the label `drain`. -/
  | drain
  /-- At the condition of the `while` below it. -/
  | drainTest (deadline : U64)
  | drainWait (deadline : U64)
  | drainRead (deadline : U64)
  | done
  /-- After a call of `exit(1)`. -/
  | exited
deriving DecidableEq

/-- `main` goes from one system call to the next.  Its counters of type `uint64_t` are natural
numbers, which `tally_run` bounds by the number of steps. -/
structure State where
  phase : Phase
  slots : List RequestSlot
  results : ResultSet
  deadlineNs : U64
  nextValue : U32
  attempts : ℕ
  writeOk : ℕ
  enospc : ℕ
  eagain : ℕ
  writeOther : ℕ
  ack : ℕ
  nack : ℕ
  pong : ℕ
  duplicate : ℕ
  unknown : ℕ
  readError : ℕ
  outstanding : ℕ
  maxInflight : ℕ

inductive WriteResult where
  | written
  | enospc
  | eagain
  /-- A short write or another error. -/
  | other

inductive PollResult where
  /-- EINTR. -/
  | interrupted
  | failed
  | timeout
  /-- Whether one of POLLERR, POLLHUP and POLLNVAL is set, and whether POLLIN is. -/
  | events (bad input : Bool)

inductive ReadResult where
  | eagain
  /-- A short read or another error. -/
  | failed
  | frame (f : UserFrame)

/-- What the operating system says at a step. -/
structure Answer where
  /-- `clock_gettime`, which may fail. -/
  clock : Option U64
  /-- Whether `realloc` gives memory. -/
  realloc : Bool
  write : WriteResult
  poll : PollResult
  read : ReadResult

/-- What a step shows: a frame that was written, or a request whose answer was counted. -/
inductive Event where
  | sent (frame : UserFrame)
  | answered (value : U32)

def storeU32 (value : U32) : Fin 32 → U8 := fun i =>
  if i.val < 4 then (value >>> (8 * i.val)).setWidth 8 else 0

def byteAt (bytes : Fin 32 → U8) (i : ℕ) : U32 :=
  if h : i < 32 then (bytes ⟨i, h⟩).setWidth 32 else 0

def loadU32 (bytes : Fin 32 → U8) : U32 :=
  byteAt bytes 0 ||| byteAt bytes 1 <<< 8 ||| byteAt bytes 2 <<< 16 ||| byteAt bytes 3 <<< 24

/-- The array grows by doubling; `none` when `realloc` fails. -/
def appendLatency (results : ResultSet) (latencyNs : U64) (realloc : Bool) : Option ResultSet :=
  if results.latencyNs.length = results.capacity then
    if realloc then
      some ⟨results.latencyNs ++ [latencyNs],
        if results.capacity ≠ 0 then results.capacity * 2 else 4096⟩
    else none
  else some { results with latencyNs := results.latencyNs ++ [latencyNs] }

def findFreeSlot (slots : List RequestSlot) : Option ℕ := slots.findIdx? fun s => !s.active

def findValue (slots : List RequestSlot) (value : U32) : Option ℕ :=
  slots.findIdx? fun s => s.active && s.value == value

def compareU64 (a b : U64) : Int := (if b < a then 1 else 0) - (if a < b then 1 else 0)

def percentileIndex (count : U64) (percentile : U32) : Int :=
  if count = 0 then 0
  else
    let rank := (count * percentile.setWidth 64 + 99) / 100
    let rank := if rank = 0 then 1 else rank
    ((rank - 1).setWidth 32).toInt

def pingFrame (cfg : Config) (value : U32) : UserFrame :=
  ⟨BitVec.ofNat 32 cfg.priority.val, 1, 0, 4, storeU32 value⟩

def State.exit (s : State) : State := { s with phase := .exited }

def fillStep (cfg : Config) (s : State) (a : Answer) : State × Option Event :=
  if s.outstanding < cfg.window then
    match findFreeSlot s.slots with
    | none => ({ s with phase := .wait }, none)
    | some i =>
      let s := { s with attempts := s.attempts + 1 }
      match a.write with
      | .written =>
        match a.clock with
        | none => (s.exit, some (.sent (pingFrame cfg s.nextValue)))
        | some now =>
          ({ s with
              slots := s.slots.set i ⟨s.nextValue, now, true⟩
              nextValue := s.nextValue + 1
              writeOk := s.writeOk + 1
              outstanding := s.outstanding + 1
              maxInflight := max s.maxInflight (s.outstanding + 1) },
            some (.sent (pingFrame cfg s.nextValue)))
      | .enospc => ({ s with phase := .wait, enospc := s.enospc + 1 }, none)
      | .eagain => ({ s with phase := .wait, eagain := s.eagain + 1 }, none)
      | .other => ({ s with phase := .drain, writeOther := s.writeOther + 1 }, none)
  else ({ s with phase := .wait }, none)

/-- What both reading loops do with a frame. -/
def receive (s : State) (frame : UserFrame) (a : Answer) : State × Option Event :=
  if frame.type = 3 then ({ s with ack := s.ack + 1 }, none)
  else if frame.type = 4 then ({ s with nack := s.nack + 1 }, none)
  else if frame.type ≠ 2 ∨ frame.length.toNat < 4 then
    ({ s with unknown := s.unknown + 1 }, none)
  else
    let pongValue := loadU32 frame.payload
    if pongValue = 0 then ({ s with unknown := s.unknown + 1 }, none)
    else
      match findValue s.slots (pongValue - 1) with
      | none => ({ s with duplicate := s.duplicate + 1 }, none)
      | some i =>
        let slot := s.slots.getD i ⟨0, 0, false⟩
        match a.clock with
        | none => (s.exit, none)
        | some now =>
          match appendLatency s.results (now - slot.startNs) a.realloc with
          | none => (s.exit, none)
          | some results =>
            ({ s with
                results := results
                slots := s.slots.set i { slot with active := false }
                outstanding := s.outstanding - 1
                pong := s.pong + 1 }, some (.answered (pongValue - 1)))

def waitStep (s : State) : PollResult → State
  | .interrupted => { s with phase := .top }
  | .failed => { s with phase := .drain, readError := s.readError + 1 }
  | .timeout => { s with phase := .top }
  | .events bad input =>
    if bad then { s with phase := .drain, readError := s.readError + 1 }
    else if !input then { s with phase := .top }
    else { s with phase := .read }

def drainWaitStep (s : State) (deadline : U64) : PollResult → State
  | .interrupted => { s with phase := .drainTest deadline }
  | .failed => { s with phase := .drainTest deadline }
  | .timeout => { s with phase := .drainTest deadline }
  | .events _ input =>
    if !input then { s with phase := .done } else { s with phase := .drainRead deadline }

/-- One step of `main`. -/
def next (cfg : Config) (s : State) (a : Answer) : State × Option Event :=
  match s.phase with
  | .top =>
    match a.clock with
    | none => (s.exit, none)
    | some now => ({ s with phase := if now < s.deadlineNs then .fill else .drain }, none)
  | .fill => fillStep cfg s a
  | .wait => (waitStep s a.poll, none)
  | .read =>
    match a.read with
    | .eagain => ({ s with phase := .top }, none)
    | .failed => ({ s with phase := .drain, readError := s.readError + 1 }, none)
    | .frame f => receive s f a
  | .drain =>
    match a.clock with
    | none => (s.exit, none)
    | some now => ({ s with phase := .drainTest (now + 5000000000) }, none)
  | .drainTest deadline =>
    if s.outstanding = 0 then ({ s with phase := .done }, none)
    else
      match a.clock with
      | none => (s.exit, none)
      | some now =>
        ({ s with phase := if now < deadline then .drainWait deadline else .done }, none)
  | .drainWait deadline => (drainWaitStep s deadline a.poll, none)
  | .drainRead deadline =>
    match a.read with
    | .eagain => ({ s with phase := .drainTest deadline }, none)
    | .failed => ({ s with phase := .drainTest deadline, readError := s.readError + 1 }, none)
    | .frame f => receive s f a
  | .done => (s, none)
  | .exited => (s, none)

/-- After the first `poll`, with the clock at `startNs`. -/
def initial (cfg : Config) (startNs : U64) : State :=
  { phase := .top
    slots := List.replicate cfg.window ⟨0, 0, false⟩
    results := ⟨[], 0⟩
    deadlineNs := startNs + BitVec.ofNat 64 (cfg.durationSeconds * 1000000000)
    nextValue := cfg.baseValue
    attempts := 0, writeOk := 0, enospc := 0, eagain := 0, writeOther := 0, ack := 0, nack := 0
    pong := 0, duplicate := 0, unknown := 0, readError := 0, outstanding := 0, maxInflight := 0 }

def State.lost (s : State) : ℕ := if s.pong < s.writeOk then s.writeOk - s.pong else 0

/-- The exit status, once there is one. -/
def exitStatus (cfg : Config) (s : State) : Option ℕ :=
  match s.phase with
  | .exited => some 1
  | .done =>
    if s.eagain ≠ 0 ∨ s.writeOther ≠ 0 ∨ s.readError ≠ 0 ∨ s.nack ≠ 0 ∨ s.duplicate ≠ 0 ∨
        s.unknown ≠ 0 then some 1
    else if priorityIsReliable cfg.priority = true ∧
        (s.outstanding ≠ 0 ∨ s.ack ≠ s.writeOk ∨ s.pong ≠ s.writeOk) then some 1
    else some 0
  | _ => none

theorem byteAt_storeU32 (value : U32) {i : ℕ} (h : i < 4) :
    byteAt (storeU32 value) i = ((value >>> (8 * i)).setWidth 8).setWidth 32 := by
  have hlong : i < 32 := by omega
  rw [byteAt, dif_pos hlong, storeU32, if_pos h]

theorem loadU32_storeU32 (value : U32) : loadU32 (storeU32 value) = value := by
  apply BitVec.eq_of_getLsbD_eq
  intro i hi
  simp only [loadU32, byteAt_storeU32 value (by decide : 0 < 4),
    byteAt_storeU32 value (by decide : 1 < 4), byteAt_storeU32 value (by decide : 2 < 4),
    byteAt_storeU32 value (by decide : 3 < 4), BitVec.getLsbD_or, BitVec.getLsbD_setWidth,
    BitVec.getLsbD_shiftLeft]
  interval_cases i <;> simp

def Event.sentValue : Event → Option U32
  | .sent frame => some (loadU32 frame.payload)
  | .answered _ => none

def Event.answeredValue : Event → Option U32
  | .sent _ => none
  | .answered value => some value

def activeValues (slots : List RequestSlot) : List U32 :=
  (slots.filter (·.active)).map (·.value)

/-- The values of the first `n` requests. -/
def sentValues (cfg : Config) (n : ℕ) : List U32 :=
  (List.range n).map fun i => cfg.baseValue + BitVec.ofNat 32 i

/-- How the counters, the slots and what was sent and answered hang together. -/
structure Accounts (cfg : Config) (es : List Event) (s : State) : Prop where
  window : s.slots.length = cfg.window
  outstanding : s.outstanding = (activeValues s.slots).length
  attempts : s.attempts = s.writeOk + s.enospc + s.eagain + s.writeOther
  balance : s.writeOk = s.pong + s.outstanding
  inflight : s.outstanding ≤ s.maxInflight
  bounded : s.maxInflight ≤ cfg.window
  count : s.results.latencyNs.length = s.pong
  capacity : s.results.latencyNs.length ≤ s.results.capacity
  next : s.nextValue = cfg.baseValue + BitVec.ofNat 32 s.writeOk
  sent : es.filterMap Event.sentValue = sentValues cfg s.writeOk
  answered : (es.filterMap Event.answeredValue ++ activeValues s.slots).Perm
    (sentValues cfg s.writeOk)
  nonzero : ∀ v ∈ es.filterMap Event.answeredValue, v + 1 ≠ 0

section Slots

variable {slots : List RequestSlot} {i : ℕ}

theorem activeValues_perm {slots' : List RequestSlot} (h : slots.Perm slots') :
    (activeValues slots).Perm (activeValues slots') := (h.filter _).map _

theorem activeValues_set (h : i < slots.length) (slot : RequestSlot) :
    (activeValues (slots.set i slot)).Perm (activeValues (slot :: slots.eraseIdx i)) :=
  activeValues_perm (List.set_perm_cons_eraseIdx h slot)

theorem activeValues_erase (h : i < slots.length) :
    (activeValues slots).Perm (activeValues (slots[i] :: slots.eraseIdx i)) :=
  activeValues_perm (List.getElem_cons_eraseIdx_perm h).symm

theorem activeValues_cons (slot : RequestSlot) (slots : List RequestSlot) :
    activeValues (slot :: slots) =
      if slot.active then slot.value :: activeValues slots else activeValues slots := by
  unfold activeValues
  rw [List.filter_cons]
  split_ifs
  · rfl
  · rfl

theorem activeValues_take (h : findFreeSlot slots = some i) (value : U32) (now : U64) :
    (activeValues (slots.set i ⟨value, now, true⟩)).Perm (value :: activeValues slots) := by
  obtain ⟨hi, hfree, -⟩ := List.findIdx?_eq_some_iff_getElem.mp h
  have herase := activeValues_erase hi
  rw [activeValues_cons, if_neg (by simpa using hfree)] at herase
  refine (activeValues_set hi _).trans ?_
  rw [activeValues_cons, if_pos rfl]
  exact herase.symm.cons value

theorem activeValues_release {value : U32} (h : findValue slots value = some i) :
    (activeValues slots).Perm (value :: activeValues
      (slots.set i { slots.getD i ⟨0, 0, false⟩ with active := false })) := by
  obtain ⟨hi, hfound, -⟩ := List.findIdx?_eq_some_iff_getElem.mp h
  obtain ⟨hactive, hvalue⟩ : slots[i].active = true ∧ slots[i].value = value := by
    simpa using hfound
  have hset := activeValues_set hi { slots.getD i ⟨0, 0, false⟩ with active := false }
  rw [activeValues_cons, if_neg Bool.false_ne_true] at hset
  refine (activeValues_erase hi).trans ?_
  rw [activeValues_cons, if_pos hactive, hvalue]
  exact hset.symm.cons value

end Slots

theorem sentValues_succ (cfg : Config) (n : ℕ) :
    sentValues cfg (n + 1) = sentValues cfg n ++ [cfg.baseValue + BitVec.ofNat 32 n] := by
  rw [sentValues, List.range_succ, List.map_append]
  rfl

section Steps

variable {cfg : Config} {es : List Event} {s : State}

/-- What a step has to keep; nothing is printed after `exit(1)`. -/
def Keeps (cfg : Config) (es : List Event) (r : State × Option Event) : Prop :=
  r.1.phase ≠ .exited → Accounts cfg (es ++ r.2.toList) r.1

theorem keeps_exit (cfg : Config) (es : List Event) (s : State) (e : Option Event) :
    Keeps cfg es (s.exit, e) := fun h => absurd rfl h

theorem Accounts.keeps (h : Accounts cfg es s) : Keeps cfg es (s, none) := by
  intro _
  rw [Option.toList_none, List.append_nil]
  exact h

theorem Accounts.frame (h : Accounts cfg es s) (phase : Phase)
    (readError ack nack duplicate unknown : ℕ) :
    Accounts cfg es { s with
      phase := phase, readError := readError, ack := ack, nack := nack
      duplicate := duplicate, unknown := unknown } :=
  ⟨h.window, h.outstanding, h.attempts, h.balance, h.inflight, h.bounded, h.count, h.capacity,
    h.next, h.sent, h.answered, h.nonzero⟩

theorem Accounts.refused (h : Accounts cfg es s) (phase : Phase) {enospc eagain writeOther : ℕ}
    (hone : enospc + eagain + writeOther = s.enospc + s.eagain + s.writeOther + 1) :
    Accounts cfg es { s with
      phase := phase, attempts := s.attempts + 1
      enospc := enospc, eagain := eagain, writeOther := writeOther } where
  window := h.window
  outstanding := h.outstanding
  attempts := by
    have := h.attempts
    show s.attempts + 1 = s.writeOk + enospc + eagain + writeOther
    omega
  balance := h.balance
  inflight := h.inflight
  bounded := h.bounded
  count := h.count
  capacity := h.capacity
  next := h.next
  sent := h.sent
  answered := h.answered
  nonzero := h.nonzero

theorem Accounts.write (h : Accounts cfg es s) {i : ℕ} (hslot : findFreeSlot s.slots = some i)
    (hroom : s.outstanding < cfg.window) (now : U64) :
    Accounts cfg (es ++ [.sent (pingFrame cfg s.nextValue)])
      { s with
        attempts := s.attempts + 1
        slots := s.slots.set i ⟨s.nextValue, now, true⟩
        nextValue := s.nextValue + 1
        writeOk := s.writeOk + 1
        outstanding := s.outstanding + 1
        maxInflight := max s.maxInflight (s.outstanding + 1) } := by
  have hperm := activeValues_take hslot s.nextValue now
  have hanswered : (es ++ [Event.sent (pingFrame cfg s.nextValue)]).filterMap
      Event.answeredValue = es.filterMap Event.answeredValue := by
    rw [List.filterMap_append]
    exact List.append_nil _
  constructor
  · exact (List.length_set ..).trans h.window
  · show s.outstanding + 1 = _
    rw [hperm.length_eq, List.length_cons, h.outstanding]
  · have := h.attempts
    show s.attempts + 1 = s.writeOk + 1 + s.enospc + s.eagain + s.writeOther
    omega
  · have := h.balance
    show s.writeOk + 1 = s.pong + (s.outstanding + 1)
    omega
  · exact le_max_right _ _
  · exact max_le h.bounded hroom
  · exact h.count
  · exact h.capacity
  · show s.nextValue + 1 = cfg.baseValue + BitVec.ofNat 32 (s.writeOk + 1)
    rw [h.next, BitVec.ofNat_add, BitVec.add_assoc]
    rfl
  · show _ = sentValues cfg (s.writeOk + 1)
    rw [List.filterMap_append, h.sent, sentValues_succ, ← h.next]
    show _ ++ [loadU32 (storeU32 s.nextValue)] = _
    rw [loadU32_storeU32]
  · show List.Perm _ (sentValues cfg (s.writeOk + 1))
    rw [hanswered, sentValues_succ, ← h.next]
    refine (hperm.append_left _).trans (List.perm_middle.trans ?_)
    exact (h.answered.cons s.nextValue).trans (List.perm_append_singleton _ _).symm
  · rw [hanswered]
    exact h.nonzero

theorem appendLatency_some {results results' : ResultSet} {latencyNs : U64} {realloc : Bool}
    (hfits : results.latencyNs.length ≤ results.capacity)
    (h : appendLatency results latencyNs realloc = some results') :
    results'.latencyNs = results.latencyNs ++ [latencyNs] ∧
      results'.latencyNs.length ≤ results'.capacity := by
  unfold appendLatency at h
  split_ifs at h with hfull hrealloc hzero
  · cases h
    refine ⟨rfl, ?_⟩
    rw [List.length_append, List.length_singleton]
    dsimp only
    omega
  · cases h
    refine ⟨rfl, ?_⟩
    rw [List.length_append, List.length_singleton]
    dsimp only
    omega
  · cases h
    refine ⟨rfl, ?_⟩
    rw [List.length_append, List.length_singleton]
    dsimp only
    omega

theorem Accounts.answer (h : Accounts cfg es s) {i : ℕ} {value : U32} {latencyNs : U64}
    {realloc : Bool} {results : ResultSet} (hslot : findValue s.slots value = some i)
    (hvalue : value + 1 ≠ 0) (hresults : appendLatency s.results latencyNs realloc = some results) :
    Accounts cfg (es ++ [.answered value])
      { s with
        results := results
        slots := s.slots.set i { s.slots.getD i ⟨0, 0, false⟩ with active := false }
        outstanding := s.outstanding - 1
        pong := s.pong + 1 } := by
  have hperm := activeValues_release hslot
  have hlength := hperm.length_eq
  rw [List.length_cons, ← h.outstanding] at hlength
  obtain ⟨hlatencies, hfits⟩ := appendLatency_some h.capacity hresults
  have hanswered : (es ++ [Event.answered value]).filterMap Event.answeredValue =
      es.filterMap Event.answeredValue ++ [value] := List.filterMap_append
  constructor
  · exact (List.length_set ..).trans h.window
  · show s.outstanding - 1 = _
    rw [hlength, Nat.add_sub_cancel]
  · exact h.attempts
  · have := h.balance
    show s.writeOk = s.pong + 1 + (s.outstanding - 1)
    omega
  · exact (Nat.sub_le _ _).trans h.inflight
  · exact h.bounded
  · show results.latencyNs.length = s.pong + 1
    rw [hlatencies, List.length_append, h.count]
    rfl
  · exact hfits
  · exact h.next
  · show _ = sentValues cfg s.writeOk
    rw [List.filterMap_append, ← h.sent]
    exact List.append_nil _
  · rw [hanswered, List.append_assoc]
    exact (hperm.symm.append_left _).trans h.answered
  · intro v hv
    rw [hanswered] at hv
    rcases List.mem_append.mp hv with hv | hv
    · exact h.nonzero v hv
    · rw [List.mem_singleton.mp hv]
      exact hvalue

theorem Accounts.fillStep (h : Accounts cfg es s) (a : Answer) :
    Keeps cfg es (fillStep cfg s a) := by
  unfold Tools.fillStep
  split_ifs with hroom
  · split
    · exact (h.frame _ _ _ _ _ _).keeps
    · rename_i i hslot
      dsimp only
      cases a.write with
      | written =>
        cases a.clock with
        | none => exact keeps_exit _ _ _ _
        | some now => exact fun _ => h.write hslot hroom now
      | enospc => exact (h.refused .wait (by omega)).keeps
      | eagain => exact (h.refused .wait (by omega)).keeps
      | other => exact (h.refused .drain (by omega)).keeps
  · exact (h.frame _ _ _ _ _ _).keeps

theorem Accounts.receive (h : Accounts cfg es s) (frame : UserFrame) (a : Answer) :
    Keeps cfg es (receive s frame a) := by
  unfold Tools.receive
  dsimp only
  split_ifs with hack hnack hshort hzero
  · exact (h.frame _ _ _ _ _ _).keeps
  · exact (h.frame _ _ _ _ _ _).keeps
  · exact (h.frame _ _ _ _ _ _).keeps
  · exact (h.frame _ _ _ _ _ _).keeps
  · split
    · exact (h.frame _ _ _ _ _ _).keeps
    · rename_i i hslot
      cases a.clock with
      | none => exact keeps_exit _ _ _ _
      | some now =>
        dsimp only
        split
        · exact keeps_exit _ _ _ _
        · rename_i results hresults
          refine fun _ => h.answer hslot ?_ hresults
          rw [BitVec.sub_add_cancel]
          exact hzero

theorem Accounts.next_step (h : Accounts cfg es s) (a : Answer) :
    Keeps cfg es (Tools.next cfg s a) := by
  -- a turn that accounts for no request only moves the phase or counts a failed read
  have hframe (phase : Phase) (readError : ℕ) :
      Keeps cfg es ({ s with phase := phase, readError := readError }, none) :=
    (h.frame phase readError s.ack s.nack s.duplicate s.unknown).keeps
  unfold Tools.next
  split
  · cases a.clock with
    | none => exact keeps_exit _ _ _ _
    | some now => exact hframe _ _
  · exact h.fillStep a
  · unfold waitStep
    cases a.poll with
    | interrupted => exact hframe _ _
    | failed => exact hframe _ _
    | timeout => exact hframe _ _
    | events bad input =>
      cases bad
      · cases input
        · exact hframe _ _
        · exact hframe _ _
      · exact hframe _ _
  · cases a.read with
    | eagain => exact hframe _ _
    | failed => exact hframe _ _
    | frame f => exact h.receive f a
  · cases a.clock with
    | none => exact keeps_exit _ _ _ _
    | some now => exact hframe _ _
  · split_ifs
    · exact hframe _ _
    · cases a.clock with
      | none => exact keeps_exit _ _ _ _
      | some now => exact hframe _ _
  · unfold drainWaitStep
    cases a.poll with
    | interrupted => exact hframe _ _
    | failed => exact hframe _ _
    | timeout => exact hframe _ _
    | events bad input =>
      cases input
      · exact hframe _ _
      · exact hframe _ _
  · cases a.read with
    | eagain => exact hframe _ _
    | failed => exact hframe _ _
    | frame f => exact h.receive f a
  · exact h.keeps
  · exact h.keeps

end Steps

/-- What the counters add up to; `attempts` stands for the four that it is split into. -/
def State.tally (s : State) : ℕ :=
  s.attempts + s.ack + s.nack + s.pong + s.duplicate + s.unknown + s.readError

theorem tally_fillStep (cfg : Config) (s : State) (a : Answer) :
    (fillStep cfg s a).1.tally ≤ s.tally + 1 := by
  unfold fillStep
  dsimp only
  repeat' split
  all_goals
    simp only [State.tally, State.exit]
    omega

theorem tally_receive (s : State) (frame : UserFrame) (a : Answer) :
    (receive s frame a).1.tally ≤ s.tally + 1 := by
  unfold receive
  dsimp only
  repeat' split
  all_goals
    simp only [State.tally, State.exit]
    omega

theorem tally_waitStep (s : State) (poll : PollResult) :
    (waitStep s poll).tally ≤ s.tally + 1 := by
  unfold waitStep
  repeat' split
  all_goals
    simp only [State.tally]
    omega

theorem tally_drainWaitStep (s : State) (deadline : U64) (poll : PollResult) :
    (drainWaitStep s deadline poll).tally ≤ s.tally + 1 := by
  unfold drainWaitStep
  repeat' split
  all_goals exact Nat.le_succ _

/-- A step counts at most one thing. -/
theorem tally_next (cfg : Config) (s : State) (a : Answer) :
    (next cfg s a).1.tally ≤ s.tally + 1 := by
  unfold next
  split
  case h_2 => exact tally_fillStep cfg s a
  case h_3 => exact tally_waitStep s a.poll
  case h_7 deadline _ => exact tally_drainWaitStep s deadline a.poll
  case h_4 | h_8 =>
    cases a.read with
    | eagain => exact Nat.le_succ _
    | failed =>
      simp only [State.tally]
      omega
    | frame f => exact tally_receive s f a
  case h_6 =>
    split_ifs
    · exact Nat.le_succ _
    · cases a.clock <;> exact Nat.le_succ _
  case h_9 | h_10 => exact Nat.le_succ _
  all_goals cases a.clock <;> exact Nat.le_succ _

theorem tally_run (cfg : Config) (startNs : U64) (answers : List Answer) :
    (runMachine (next cfg) (initial cfg startNs) answers).1.tally ≤ answers.length := by
  induction answers using List.reverseRecOn with
  | nil => exact le_rfl
  | append_singleton answers a ih =>
    rw [runMachine_snoc, List.length_append, List.length_singleton]
    exact (tally_next cfg _ a).trans (Nat.add_le_add_right ih 1)

/-- Nothing leads back from `exit(1)`. -/
theorem next_exited {cfg : Config} {s : State} (h : s.phase = .exited) (a : Answer) :
    (next cfg s a).1.phase = .exited := by
  unfold next
  rw [h]
  exact h

theorem accounts_initial (cfg : Config) (startNs : U64) :
    Accounts cfg [] (initial cfg startNs) := by
  have hactive : activeValues (List.replicate cfg.window ⟨0, 0, false⟩) = [] := by
    rw [activeValues, List.filter_replicate]
    rfl
  constructor
  · exact List.length_replicate
  · show 0 = (activeValues (List.replicate cfg.window _)).length
    rw [hactive]
    rfl
  · rfl
  · rfl
  · exact le_rfl
  · exact Nat.zero_le _
  · rfl
  · exact le_rfl
  · exact (BitVec.add_zero _).symm
  · rfl
  · show List.Perm ([] ++ activeValues (List.replicate cfg.window _)) []
    rw [hactive]
    exact .nil
  · exact fun v hv => absurd hv List.not_mem_nil

theorem accounts_run (cfg : Config) (startNs : U64) (answers : List Answer) :
    (runMachine (next cfg) (initial cfg startNs) answers).1.phase ≠ .exited →
      Accounts cfg (runMachine (next cfg) (initial cfg startNs) answers).2
        (runMachine (next cfg) (initial cfg startNs) answers).1 := by
  refine runMachine_invariant (next cfg)
    (I := fun es s => s.phase ≠ .exited → Accounts cfg es s)
    (fun _ => accounts_initial cfg startNs) (fun es s a hbooks hrunning => ?_) answers
  have hbefore : s.phase ≠ .exited := fun h => hrunning (next_exited h a)
  exact (hbooks hbefore).next_step a hrunning

theorem sentValues_bounded {cfg : Config} {n : ℕ}
    (h : ∀ v ∈ sentValues cfg n, v + 1 ≠ 0) : cfg.baseValue.toNat + n < 2 ^ 32 := by
  by_contra hlong
  have hbase := cfg.baseValue.isLt
  -- the request whose answer would be 0
  have hlast : 2 ^ 32 - 1 - cfg.baseValue.toNat < n := by omega
  refine h _ (List.mem_map_of_mem (List.mem_range.mpr hlast)) ?_
  apply BitVec.eq_of_toNat_eq
  rw [BitVec.toNat_add, BitVec.toNat_add, BitVec.toNat_ofNat]
  simp only [BitVec.ofNat_eq_ofNat, BitVec.toNat_ofNat]
  omega

theorem nodup_sentValues {cfg : Config} {n : ℕ} (h : cfg.baseValue.toNat + n < 2 ^ 32) :
    (sentValues cfg n).Nodup := by
  refine List.Nodup.map_on (fun i hi j hj heq => ?_) List.nodup_range
  have hi' := List.mem_range.mp hi
  have hj' := List.mem_range.mp hj
  have hnat := congrArg BitVec.toNat heq
  simp only [BitVec.toNat_add, BitVec.toNat_ofNat] at hnat
  omega

/-- Whatever the system calls return: no more requests are in flight than the window holds, every
attempt is counted once, the requests carry consecutive values, each is either answered once or
still in its slot, and the number printed as lost is that of the slots in use.  By the last part no
counter of the source wraps in fewer than `2 ^ 64` steps. -/
theorem window_bench_accounts (cfg : Config) (startNs : U64) (answers : List Answer)
    (hrunning : (runMachine (next cfg) (initial cfg startNs) answers).1.phase ≠ .exited) :
    let r := runMachine (next cfg) (initial cfg startNs) answers
    r.1.maxInflight ≤ cfg.window ∧ r.1.outstanding ≤ r.1.maxInflight ∧
      r.1.attempts = r.1.writeOk + r.1.enospc + r.1.eagain + r.1.writeOther ∧
      r.2.filterMap Event.sentValue = sentValues cfg r.1.writeOk ∧
      (r.2.filterMap Event.answeredValue ++ activeValues r.1.slots).Perm
        (sentValues cfg r.1.writeOk) ∧
      r.1.results.latencyNs.length = r.1.pong ∧ r.1.pong ≤ r.1.results.capacity ∧
      r.1.lost = (activeValues r.1.slots).length ∧ r.1.tally ≤ answers.length := by
  intro r
  have h : Accounts cfg r.2 r.1 := accounts_run cfg startNs answers hrunning
  have hbalance := h.balance
  refine ⟨h.bounded, h.inflight, h.attempts, h.sent, h.answered, h.count,
    h.count ▸ h.capacity, ?_, tally_run cfg startNs answers⟩
  rw [← h.outstanding]
  unfold State.lost
  split_ifs
  · omega
  · omega

def oneConfig : Config := ⟨1, 1, 1, 7, by decide, by decide, by decide, by decide, by decide⟩

def oneRoundTrip : List Answer :=
  [⟨some 0, true, .other, .timeout, .failed⟩, ⟨some 5, true, .written, .timeout, .failed⟩,
    ⟨some 6, true, .other, .timeout, .failed⟩, ⟨none, true, .other, .events false true, .failed⟩,
    ⟨none, true, .other, .timeout, .frame ⟨1, 3, 1, 8, fun _ => 0⟩⟩,
    ⟨some 9, true, .other, .timeout, .frame ⟨1, 2, 2, 4, storeU32 8⟩⟩,
    ⟨none, true, .other, .timeout, .eagain⟩, ⟨some 2000000000, true, .other, .timeout, .failed⟩,
    ⟨some 2000000001, true, .other, .timeout, .failed⟩, ⟨none, true, .other, .timeout, .failed⟩]

theorem window_bench_accounts_inflight :
    (runMachine (next oneConfig) (initial oneConfig 0) (oneRoundTrip.take 4)).1.lost = 1 := by
  obtain ⟨-, -, -, -, -, -, -, hlost, -⟩ :=
    window_bench_accounts oneConfig 0 (oneRoundTrip.take 4) (by decide +kernel)
  rw [hlost]
  decide +kernel

/-- With exit status 0 on a reliable priority every request that was written got its ACK and exactly
one answer, no two requests had the same value, and none had the last value, whose answer would have
been 0. -/
theorem window_bench_success (cfg : Config) (startNs : U64) (answers : List Answer)
    (hreliable : priorityIsReliable cfg.priority = true)
    (hzero : exitStatus cfg (runMachine (next cfg) (initial cfg startNs) answers).1 = some 0) :
    let r := runMachine (next cfg) (initial cfg startNs) answers
    (r.2.filterMap Event.answeredValue).Perm (r.2.filterMap Event.sentValue) ∧
      (r.2.filterMap Event.sentValue).Nodup ∧
      r.2.filterMap Event.sentValue = sentValues cfg r.1.writeOk ∧
      r.1.ack = r.1.writeOk ∧ r.1.results.latencyNs.length = r.1.writeOk ∧
      cfg.baseValue.toNat + r.1.writeOk < 2 ^ 32 ∧ r.1.tally ≤ answers.length := by
  intro r
  obtain ⟨hrunning, hout, hack, hpong⟩ : r.1.phase ≠ .exited ∧ r.1.outstanding = 0 ∧
      r.1.ack = r.1.writeOk ∧ r.1.pong = r.1.writeOk := by
    change exitStatus cfg r.1 = some 0 at hzero
    unfold exitStatus at hzero
    split at hzero
    · cases hzero
    · rename_i hphase
      split at hzero
      · cases hzero
      · split at hzero
        · cases hzero
        · rename_i hlost
          push Not at hlost
          obtain ⟨hout, hack, hpong⟩ := hlost hreliable
          refine ⟨fun hexited => ?_, hout, hack, hpong⟩
          rw [hphase] at hexited
          cases hexited
    · cases hzero
  have h : Accounts cfg r.2 r.1 := accounts_run cfg startNs answers hrunning
  have hnone : activeValues r.1.slots = [] := by
    apply List.eq_nil_of_length_eq_zero
    rw [← h.outstanding, hout]
  have hperm := h.answered
  rw [hnone, List.append_nil] at hperm
  have hbound := sentValues_bounded fun v hv => h.nonzero v (hperm.mem_iff.mpr hv)
  refine ⟨?_, ?_, h.sent, hack, h.count.trans hpong, hbound, tally_run cfg startNs answers⟩
  · rw [h.sent]
    exact hperm
  · rw [h.sent]
    exact nodup_sentValues hbound

theorem window_bench_success_one :
    exitStatus oneConfig (runMachine (next oneConfig) (initial oneConfig 0) oneRoundTrip).1 =
        some 0 ∧
      ((runMachine (next oneConfig) (initial oneConfig 0) oneRoundTrip).2.filterMap
        Event.answeredValue).Perm
        ((runMachine (next oneConfig) (initial oneConfig 0) oneRoundTrip).2.filterMap
          Event.sentValue) := by
  have hzero : exitStatus oneConfig
      (runMachine (next oneConfig) (initial oneConfig 0) oneRoundTrip).1 = some 0 := by
    decide +kernel
  obtain ⟨hperm, -⟩ := window_bench_success oneConfig 0 oneRoundTrip (by decide) hzero
  exact ⟨hzero, hperm⟩

theorem compareU64_le_zero {a b : U64} : compareU64 a b ≤ 0 ↔ a.toNat ≤ b.toNat := by
  unfold compareU64
  simp only [BitVec.lt_def]
  split_ifs <;> omega

/-- The index is that of the nearest rank, and no machine number wraps on the way to it. -/
theorem percentileIndex_eq {count percentile : ℕ} (hpos : 0 < count) (hcount : count < 2 ^ 31)
    (hlow : 0 < percentile) (hhigh : percentile ≤ 100) :
    percentileIndex (BitVec.ofNat 64 count) (BitVec.ofNat 32 percentile) =
      (((count * percentile + 99) / 100 - 1 : ℕ) : ℤ) := by
  have hle : count * percentile ≤ count * 100 := Nat.mul_le_mul_left count hhigh
  have hge : count * 1 ≤ count * percentile := Nat.mul_le_mul_left count hlow
  have hrank : ((BitVec.ofNat 64 count * (BitVec.ofNat 32 percentile).setWidth 64 + 99) / 100 :
      U64) = BitVec.ofNat 64 ((count * percentile + 99) / 100) := by
    apply BitVec.eq_of_toNat_eq
    simp only [BitVec.toNat_udiv, BitVec.toNat_add, BitVec.toNat_mul, BitVec.toNat_setWidth,
      BitVec.toNat_ofNat, BitVec.ofNat_eq_ofNat]
    rw [Nat.mod_eq_of_lt (a := count) (by omega), Nat.mod_eq_of_lt (a := percentile) (by omega),
      Nat.mod_eq_of_lt (a := percentile) (by omega),
      Nat.mod_eq_of_lt (a := count * percentile) (by omega)]
    norm_num
    omega
  have hcount0 : BitVec.ofNat 64 count ≠ 0 := by
    intro h
    have := congrArg BitVec.toNat h
    simp only [BitVec.toNat_ofNat, BitVec.ofNat_eq_ofNat] at this
    omega
  have hrank0 : BitVec.ofNat 64 ((count * percentile + 99) / 100) ≠ 0 := by
    intro h
    have := congrArg BitVec.toNat h
    simp only [BitVec.toNat_ofNat, BitVec.ofNat_eq_ofNat] at this
    omega
  unfold percentileIndex
  dsimp only
  rw [if_neg hcount0, hrank, if_neg hrank0, BitVec.toInt_eq_toNat_of_lt]
  · simp only [BitVec.toNat_setWidth, BitVec.toNat_sub, BitVec.toNat_ofNat, BitVec.ofNat_eq_ofNat]
    omega
  · simp only [BitVec.toNat_setWidth, BitVec.toNat_sub, BitVec.toNat_ofNat, BitVec.ofNat_eq_ofNat]
    omega

/-- For whatever order `qsort` makes of one latency or more, the index lies in the array, at least
`percentile` percent of the latencies are at most the value there, and fewer are smaller. -/
theorem percentile_nearest_rank (latencies sorted : List U64) (percentile : ℕ)
    (hperm : sorted.Perm latencies) (hsorted : sorted.Pairwise fun a b => compareU64 a b ≤ 0)
    (hpos : 0 < latencies.length) (hcount : latencies.length < 2 ^ 31) (hlow : 0 < percentile)
    (hhigh : percentile ≤ 100) :
    ∃ (i : ℕ) (x : U64), sorted[i]? = some x ∧
      percentileIndex (BitVec.ofNat 64 latencies.length) (BitVec.ofNat 32 percentile) = i ∧
      percentile * latencies.length ≤ 100 * latencies.countP (fun y => decide (y ≤ x)) ∧
      100 * latencies.countP (fun y => decide (y < x)) < percentile * latencies.length := by
  have hlength := hperm.length_eq
  have hle : latencies.length * percentile ≤ latencies.length * 100 :=
    Nat.mul_le_mul_left _ hhigh
  have hge : latencies.length * 1 ≤ latencies.length * percentile := Nat.mul_le_mul_left _ hlow
  have hi : (latencies.length * percentile + 99) / 100 - 1 < sorted.length := by omega
  have hordered : sorted.Pairwise fun a b => a.toNat ≤ b.toNat :=
    hsorted.imp compareU64_le_zero.mp
  simp only [BitVec.le_def, BitVec.lt_def]
  refine ⟨_, _, List.getElem?_eq_getElem hi, percentileIndex_eq hpos hcount hlow hhigh, ?_, ?_⟩
  · have hmany := succ_le_countP_le hordered hi
    rw [hperm.countP_eq] at hmany
    rw [Nat.mul_comm percentile]
    omega
  · have hfew := countP_lt_le hordered hi
    rw [hperm.countP_eq] at hfew
    rw [Nat.mul_comm percentile]
    omega

theorem percentile_nearest_rank_median : ∃ (i : ℕ) (x : U64), [10, 20, 30][i]? = some x ∧
    percentileIndex 3 50 = i ∧ 50 * 3 ≤ 100 * [30, 10, 20].countP (fun y : U64 => decide (y ≤ x)) :=
  have ⟨i, x, hx, hindex, hmany, _⟩ := percentile_nearest_rank [30, 10, 20] [10, 20, 30] 50
    (by decide) (by decide) (by decide) (by decide) (by decide) (by decide)
  ⟨i, x, hx, hindex, hmany⟩

end Lzamp.Tools
