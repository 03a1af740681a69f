import Lzamp.Mailmsg.Protocol

namespace Lzamp.Mailmsg.RingSteps
open Lib

/-- The locals of `mailmsg_ring_push` after its first line. -/
structure PushLocals where
  message : Message
  producer : U32
  next : U32

/-- The next shared access of the producer. -/
inductive ProducerPc where
  | idle
  /-- `next == ring->consumer` -/
  | check (l : PushLocals)
  /-- `*slot = *message` -/
  | copy (l : PushLocals)
  /-- `slot->commit = 0` -/
  | clearCommit (l : PushLocals)
  /-- `slot->crc32 = mailmsg_frame_crc32(slot)` -/
  | storeCrc (l : PushLocals)
  /-- `slot->commit = message->sequence` -/
  | storeCommit (l : PushLocals)
  /-- `ring->producer = next` -/
  | publish (l : PushLocals)

/-- The next shared access of the consumer; `consumer` is the local of `mailmsg_ring_pop`. -/
inductive ConsumerPc where
  | idle
  /-- `consumer == ring->producer` -/
  | readProducer (consumer : U32)
  /-- `slot->commit != slot->sequence` -/
  | checkCommit (consumer : U32)
  /-- `*message = *slot` -/
  | copy (consumer : U32)
  /-- `ring->consumer = mailmsg_next(consumer)` -/
  | release (consumer : U32) (message : Message)

/-- One producer and one consumer, which interleave freely.  The hooks make each access visible in
program order. -/
structure Spsc where
  ring : Ring
  producer : ProducerPc
  consumer : ConsumerPc

def Spsc.init : Spsc := ⟨Ring.zero, .idle, .idle⟩

inductive Action where
  | push (m : Message)
  | produce
  | pop
  | consume

/-- The returns of the two functions. -/
inductive Event where
  | pushRet (m : Message) (ret : Int)
  | popRet (ret : Int) (m : Message)

def Spsc.setSlot (s : Spsc) (index : U32) (f : Message → Message) : Ring :=
  let i := slotIndex index
  { s.ring with slot := Function.update s.ring.slot i (f (s.ring.slot i)) }

def produce (s : Spsc) : Spsc × Option Event :=
  match s.producer with
  | .idle => (s, none)
  | .check l =>
    if l.next = s.ring.consumer then
      ({ s with producer := .idle }, some (.pushRet l.message ringFull))
    else ({ s with producer := .copy l }, none)
  | .copy l =>
    ({ s with ring := s.setSlot l.producer fun _ => l.message, producer := .clearCommit l }, none)
  | .clearCommit l =>
    ({ s with ring := s.setSlot l.producer fun slot => { slot with commit := 0 },
              producer := .storeCrc l }, none)
  | .storeCrc l =>
    ({ s with ring := s.setSlot l.producer fun slot => { slot with crc32 := frameCrc32 slot },
              producer := .storeCommit l }, none)
  | .storeCommit l =>
    ({ s with ring := s.setSlot l.producer fun slot => { slot with commit := l.message.sequence },
              producer := .publish l }, none)
  | .publish l =>
    ({ s with ring := { s.ring with producer := l.next }, producer := .idle },
      some (.pushRet l.message ringOk))

def consume (s : Spsc) : Spsc × Option Event :=
  match s.consumer with
  | .idle => (s, none)
  | .readProducer k =>
    if k = s.ring.producer then
      ({ s with consumer := .idle }, some (.popRet ringEmpty Message.zero))
    else ({ s with consumer := .checkCommit k }, none)
  | .checkCommit k =>
    let slot := s.ring.slot (slotIndex k)
    if slot.commit ≠ slot.sequence then
      ({ s with consumer := .idle }, some (.popRet ringIncomplete Message.zero))
    else ({ s with consumer := .copy k }, none)
  | .copy k => ({ s with consumer := .release k (s.ring.slot (slotIndex k)) }, none)
  | .release k m =>
    -- the remaining tests of pop read the private copy only
    ({ s with ring := { s.ring with consumer := next k }, consumer := .idle },
      some (.popRet (frameCheck m) m))

/-- A call is taken up only by a side that is not inside one. -/
def step (s : Spsc) : Action → Spsc × Option Event
  | .push m =>
    match s.producer with
    | .idle =>
      if m.Malformed then (s, some (.pushRet m ringInvalid))
      else ({ s with producer := .check ⟨m, s.ring.producer, next s.ring.producer⟩ }, none)
    | _ => (s, none)
  | .produce => produce s
  | .pop =>
    match s.consumer with
    | .idle => ({ s with consumer := .readProducer s.ring.consumer }, none)
    | _ => (s, none)
  | .consume => consume s

theorem push_alone (s : Spsc) (hs : s.producer = .idle) (m : Message) :
    runMachine step s (.push m :: List.replicate 6 .produce) =
      ({ s with ring := (ringPush s.ring m).2 }, [.pushRet m (ringPush s.ring m).1]) := by
  obtain ⟨ring, pc, consumer⟩ := s
  obtain rfl : pc = .idle := hs
  by_cases hm : m.Malformed
  · simp only [List.replicate, runMachine, step, produce, ringPush, if_pos hm]
    rfl
  · by_cases hfull : next ring.producer = ring.consumer
    · simp only [List.replicate, runMachine, step, produce, ringPush, if_neg hm, if_pos hfull]
      rfl
    · simp only [List.replicate, runMachine, step, produce, ringPush, if_neg hm, if_neg hfull,
        Spsc.setSlot, Function.update_self, Function.update_idem]
      rfl

theorem pop_alone (s : Spsc) (hs : s.consumer = .idle) :
    runMachine step s (.pop :: List.replicate 4 .consume) =
      ({ s with ring := (ringPop s.ring Message.zero).2.1 },
        [.popRet (ringPop s.ring Message.zero).1 (ringPop s.ring Message.zero).2.2]) := by
  obtain ⟨ring, producer, pc⟩ := s
  obtain rfl : pc = .idle := hs
  by_cases hempty : ring.consumer = ring.producer
  · simp only [List.replicate, runMachine, step, consume, ringPop, if_pos hempty]
    rfl
  · by_cases hcommit : (ring.slot (slotIndex ring.consumer)).commit ≠
        (ring.slot (slotIndex ring.consumer)).sequence
    · simp only [List.replicate, runMachine, step, consume, ringPop, if_neg hempty,
        if_pos hcommit]
      rfl
    · simp only [List.replicate, runMachine, step, consume, ringPop, if_neg hempty,
        if_neg hcommit]
      rfl

def Room (log out : List Message) : Prop := log.length - out.length + 1 < 8

/-- The free slot of the ring, where the producer builds the next frame. -/
def freeSlot (log : List Message) (ring : Ring) : Message := ring.slot (Fin.ofNat 8 log.length)

structure PushLocals.Ok (log : List Message) (l : PushLocals) : Prop where
  wellFormed : ¬ l.message.Malformed
  producer : l.producer = indexOf log.length
  next : l.next = indexOf (log.length + 1)

def ProducerPc.Ok (log out : List Message) (ring : Ring) : ProducerPc → Prop
  | .idle => True
  | .check l => l.Ok log
  | .copy l => l.Ok log ∧ Room log out
  | .clearCommit l => l.Ok log ∧ Room log out ∧ freeSlot log ring = l.message
  | .storeCrc l => l.Ok log ∧ Room log out ∧ freeSlot log ring = { l.message with commit := 0 }
  | .storeCommit l => l.Ok log ∧ Room log out ∧
      freeSlot log ring = { l.message with commit := 0, crc32 := frameCrc32 l.message }
  | .publish l => l.Ok log ∧ Room log out ∧ freeSlot log ring = l.message.seal

def ConsumerPc.Ok (log out : List Message) : ConsumerPc → Prop
  | .idle => True
  | .readProducer k => k = indexOf out.length
  | .checkCommit k => k = indexOf out.length ∧ out.length < log.length
  | .copy k => k = indexOf out.length ∧ out.length < log.length
  | .release k m => k = indexOf out.length ∧ (log.map Message.seal)[out.length]? = some m

/-- `log` are the frames whose push returned 0, `out` those that pop returned with 0. -/
structure Inv (log out : List Message) (s : Spsc) : Prop where
  holds : Holds s.ring.slot (log.map Message.seal) out.length
  producerIndex : s.ring.producer = indexOf log.length
  consumerIndex : s.ring.consumer = indexOf out.length
  out_prefix : out <+: log.map Message.seal
  wellFormed : ∀ m ∈ log, ¬ m.Malformed
  producer : s.producer.Ok log out s.ring
  consumer : s.consumer.Ok log out

theorem Inv.init : Inv [] [] Spsc.init :=
  ⟨Holds.init, rfl, rfl, List.nil_prefix, by simp, trivial, trivial⟩

theorem Inv.out_le {log out : List Message} {s : Spsc} (h : Inv log out s) :
    out.length ≤ log.length := by simpa using h.holds.le

theorem Inv.depth_lt {log out : List Message} {s : Spsc} (h : Inv log out s) :
    log.length - out.length < 8 := by simpa using h.holds.room

/-- A store into the free slot keeps every frame that waits to be read. -/
theorem Inv.store {log out : List Message} {s : Spsc} (h : Inv log out s) {index : U32}
    (hi : index = indexOf log.length) (f : Message → Message) {pc : ProducerPc}
    (hpc : ∀ ring, freeSlot log ring = f (freeSlot log s.ring) → pc.Ok log out ring) :
    Inv log out { s with ring := s.setSlot index f, producer := pc } := by
  subst hi
  refine ⟨?_, h.producerIndex, h.consumerIndex, h.out_prefix, h.wellFormed, ?_, h.consumer⟩
  · simpa [Spsc.setSlot, freeSlot] using h.holds.write (f (freeSlot log s.ring))
  · exact hpc _ (by simp [Spsc.setSlot, freeSlot])

/-- What one step may return, and what it then does to the two histories. -/
def Outcome (log out : List Message) (s : Spsc) : Option Event → Prop
  | none => Inv log out s
  | some (.pushRet m r) =>
    (r = ringOk ∧ Room log out ∧ Inv (log ++ [m]) out s) ∨
    (r = ringFull ∧ log.length - out.length = 7 ∧ Inv log out s) ∨
    (r = ringInvalid ∧ Inv log out s)
  | some (.popRet r m) =>
    (r = ringOk ∧ (log.map Message.seal)[out.length]? = some m ∧ Inv log (out ++ [m]) s) ∨
    (r = ringEmpty ∧ log.length = out.length ∧ Inv log out s)

theorem produce_check {log out : List Message} {s : Spsc} (h : Inv log out s) {l : PushLocals}
    (hpc : s.producer = .check l) : Outcome log out (produce s).1 (produce s).2 := by
  have hl : l.Ok log := by simpa [hpc, ProducerPc.Ok] using h.producer
  have hfull : l.next = s.ring.consumer ↔ log.length - out.length + 1 = 8 := by
    rw [hl.next, h.consumerIndex, indexOf_inj]
    exact succ_mod_eq_iff h.out_le h.depth_lt
  simp only [produce, hpc]
  by_cases hn : l.next = s.ring.consumer
  · have h7 : log.length - out.length = 7 := by
      have := hfull.mp hn
      omega
    rw [if_pos hn]
    exact Or.inr (Or.inl ⟨rfl, h7, { h with producer := trivial }⟩)
  · have hroom : Room log out := by
      have := h.depth_lt
      have : log.length - out.length + 1 ≠ 8 := fun he => hn (hfull.mpr he)
      unfold Room
      omega
    rw [if_neg hn]
    exact { h with producer := ⟨hl, hroom⟩ }

theorem produce_publish {log out : List Message} {s : Spsc} (h : Inv log out s) {l : PushLocals}
    (hpc : s.producer = .publish l) : Outcome log out (produce s).1 (produce s).2 := by
  obtain ⟨hl, hroom, hslot⟩ : l.Ok log ∧ Room log out ∧ freeSlot log s.ring = l.message.seal := by
    simpa [hpc, ProducerPc.Ok] using h.producer
  simp only [produce, hpc]
  refine Or.inl ⟨rfl, hroom, ?_, ?_, h.consumerIndex, ?_, ?_, trivial, ?_⟩
  · have hpub := h.holds.publish (x := l.message.seal) (by simpa [Room] using hroom)
      (by simpa [freeSlot] using hslot)
    simpa using hpub
  · simpa using hl.next
  · rw [List.map_append]
    exact h.out_prefix.trans (List.prefix_append _ _)
  · intro m hm
    rcases List.mem_append.mp hm with hm | hm
    · exact h.wellFormed m hm
    · rw [List.mem_singleton.mp hm]
      exact hl.wellFormed
  · -- the consumer's knowledge is about frames already in the log
    have hcons := h.consumer
    cases hc : s.consumer with
    | idle => trivial
    | readProducer k => simpa [hc, ConsumerPc.Ok] using hcons
    | checkCommit k =>
      simp only [hc, ConsumerPc.Ok] at hcons
      exact ⟨hcons.1, by simp; omega⟩
    | copy k =>
      simp only [hc, ConsumerPc.Ok] at hcons
      exact ⟨hcons.1, by simp; omega⟩
    | release k m =>
      simp only [hc, ConsumerPc.Ok] at hcons
      refine ⟨hcons.1, ?_⟩
      have hlt : out.length < (log.map Message.seal).length :=
        (List.getElem?_eq_some_iff.mp hcons.2).1
      rw [List.map_append, List.getElem?_append_left hlt]
      exact hcons.2

theorem produce_spec {log out : List Message} {s : Spsc} (h : Inv log out s) :
    Outcome log out (produce s).1 (produce s).2 := by
  have hprod := h.producer
  cases hpc : s.producer with
  | idle => simpa [produce, hpc, Outcome] using h
  | check l => exact produce_check h hpc
  | copy l =>
    obtain ⟨hl, hroom⟩ : l.Ok log ∧ Room log out := by simpa [hpc, ProducerPc.Ok] using hprod
    simp only [produce, hpc]
    exact h.store hl.producer _ fun ring hr => ⟨hl, hroom, hr⟩
  | clearCommit l =>
    obtain ⟨hl, hroom, hslot⟩ : l.Ok log ∧ Room log out ∧ freeSlot log s.ring = l.message := by
      simpa [hpc, ProducerPc.Ok] using hprod
    simp only [produce, hpc]
    exact h.store hl.producer _ fun ring hr => ⟨hl, hroom, by rw [hr, hslot]⟩
  | storeCrc l =>
    obtain ⟨hl, hroom, hslot⟩ : l.Ok log ∧ Room log out ∧
        freeSlot log s.ring = { l.message with commit := 0 } := by
      simpa [hpc, ProducerPc.Ok] using hprod
    simp only [produce, hpc]
    exact h.store hl.producer _ fun ring hr => ⟨hl, hroom, by rw [hr, hslot]; rfl⟩
  | storeCommit l =>
    obtain ⟨hl, hroom, hslot⟩ : l.Ok log ∧ Room log out ∧
        freeSlot log s.ring = { l.message with commit := 0, crc32 := frameCrc32 l.message } := by
      simpa [hpc, ProducerPc.Ok] using hprod
    simp only [produce, hpc]
    exact h.store hl.producer _ fun ring hr => ⟨hl, hroom, by rw [hr, hslot]; rfl⟩
  | publish l => exact produce_publish h hpc

theorem Inv.front {log out : List Message} {s : Spsc} (h : Inv log out s)
    (hlt : out.length < log.length) :
    s.ring.slot (slotIndex (indexOf out.length)) = (log[out.length]).seal := by
  rw [slotIndex_indexOf, h.holds.head (by simpa using hlt), List.getElem_map]

theorem consume_release {log out : List Message} {s : Spsc} (h : Inv log out s) {k : U32}
    {m : Message} (hpc : s.consumer = .release k m) :
    Outcome log out (consume s).1 (consume s).2 := by
  obtain ⟨rfl, hm⟩ : k = indexOf out.length ∧ (log.map Message.seal)[out.length]? = some m := by
    simpa only [hpc, ConsumerPc.Ok] using h.consumer
  obtain ⟨hlt, hget⟩ := List.getElem?_eq_some_iff.mp hm
  have hlt' : out.length < log.length := by simpa using hlt
  have hcheck : frameCheck m = ringOk := by
    rw [← hget, List.getElem_map]
    exact frameCheck_seal (h.wellFormed _ (List.getElem_mem hlt'))
  simp only [consume, hpc]
  refine Or.inl ⟨hcheck, hm, ?_, h.producerIndex, ?_, ?_, h.wellFormed, ?_, trivial⟩
  · simpa using h.holds.release hlt
  · simp
  · obtain ⟨rest, hrest⟩ := h.out_prefix
    have htake : out = (log.map Message.seal).take out.length := by simp [← hrest]
    have hsucc : out ++ [m] = (log.map Message.seal).take (out.length + 1) := by
      rw [List.take_add_one, hm, ← htake]
      rfl
    rw [hsucc]
    exact List.take_prefix _ _
  · -- more room does not disturb a push under way
    have hprod := h.producer
    have hroom : Room log out → Room log (out ++ [m]) := by
      simp only [Room, List.length_append, List.length_singleton]
      omega
    cases hp : s.producer with
    | idle => trivial
    | check l => simpa [hp, ProducerPc.Ok] using hprod
    | copy l =>
      simp only [hp, ProducerPc.Ok] at hprod
      exact ⟨hprod.1, hroom hprod.2⟩
    | clearCommit l | storeCrc l | storeCommit l | publish l =>
      simp only [hp, ProducerPc.Ok] at hprod
      exact ⟨hprod.1, hroom hprod.2.1, hprod.2.2⟩

theorem consume_spec {log out : List Message} {s : Spsc} (h : Inv log out s) :
    Outcome log out (consume s).1 (consume s).2 := by
  have hcons := h.consumer
  cases hpc : s.consumer with
  | idle => simpa [consume, hpc, Outcome] using h
  | readProducer k =>
    obtain rfl : k = indexOf out.length := by simpa only [hpc, ConsumerPc.Ok] using hcons
    have hempty : indexOf out.length = s.ring.producer ↔ log.length = out.length := by
      rw [h.producerIndex, indexOf_inj, eq_comm]
      exact mod_eq_iff_of_sub_lt h.out_le h.depth_lt
    simp only [consume, hpc]
    by_cases hk : indexOf out.length = s.ring.producer
    · rw [if_pos hk]
      exact Or.inr ⟨rfl, hempty.mp hk, { h with consumer := trivial }⟩
    · have hlt : out.length < log.length := by
        have := h.out_le
        have : log.length ≠ out.length := fun he => hk (hempty.mpr he)
        omega
      rw [if_neg hk]
      exact { h with consumer := ⟨rfl, hlt⟩ }
  | checkCommit k =>
    obtain ⟨rfl, hlt⟩ : k = indexOf out.length ∧ out.length < log.length := by
      simpa only [hpc, ConsumerPc.Ok] using hcons
    have hcommit : (s.ring.slot (slotIndex (indexOf out.length))).commit =
        (s.ring.slot (slotIndex (indexOf out.length))).sequence := by
      rw [h.front hlt]
      rfl
    simp only [consume, hpc]
    rw [if_neg (not_not.mpr hcommit)]
    exact { h with consumer := ⟨rfl, hlt⟩ }
  | copy k =>
    obtain ⟨rfl, hlt⟩ : k = indexOf out.length ∧ out.length < log.length := by
      simpa only [hpc, ConsumerPc.Ok] using hcons
    simp only [consume, hpc]
    refine { h with consumer := ⟨rfl, ?_⟩ }
    rw [h.front hlt, List.getElem?_map, List.getElem?_eq_getElem hlt, Option.map_some]
  | release k m => exact consume_release h hpc

/-- Everything one step can do. -/
theorem step_spec {log out : List Message} {s : Spsc} (h : Inv log out s) (a : Action) :
    Outcome log out (step s a).1 (step s a).2 := by
  cases a with
  | push m =>
    cases hpc : s.producer with
    | idle =>
      simp only [step, hpc]
      by_cases hm : m.Malformed
      · rw [if_pos hm]
        exact Or.inr (Or.inr ⟨rfl, h⟩)
      · rw [if_neg hm]
        have hp : (⟨m, s.ring.producer, next s.ring.producer⟩ : PushLocals).Ok log :=
          ⟨hm, h.producerIndex, by rw [h.producerIndex, next_indexOf]⟩
        exact { h with producer := hp }
    | _ => simpa only [step, hpc, Outcome] using h
  | produce => exact produce_spec h
  | pop =>
    cases hpc : s.consumer with
    | idle =>
      simp only [step, hpc]
      exact { h with consumer := h.consumerIndex }
    | _ => simpa only [step, hpc, Outcome] using h
  | consume => exact consume_spec h

def exec (acts : List Action) : Spsc × List Event := runMachine step Spsc.init acts

def Event.pushedOk : Event → Option Message
  | .pushRet m r => if r = ringOk then some m else none
  | .popRet _ _ => none

def Event.poppedOk : Event → Option Message
  | .pushRet _ _ => none
  | .popRet r m => if r = ringOk then some m else none

def pushed (es : List Event) : List Message := es.filterMap Event.pushedOk

def popped (es : List Event) : List Message := es.filterMap Event.poppedOk

/-- The queue operation a return stands for; an INVALID push is none. -/
def Event.fifo : Event → Option (Fifo.Event (U32 × U32 × U32 × U32 × (Fin 28 → U8)))
  | .pushRet m r =>
    if r = ringOk then some (.enq m.fields) else if r = ringFull then some .full else none
  | .popRet r m =>
    if r = ringOk then some (.deq m.fields) else if r = ringEmpty then some .empty else none

def queue (log out : List Message) : List (U32 × U32 × U32 × U32 × (Fin 28 → U8)) :=
  (log.drop out.length).map Message.fields

def Event.Expected : Event → Prop
  | .pushRet _ r => r = ringOk ∨ r = ringFull ∨ r = ringInvalid
  | .popRet r _ => r = ringOk ∨ r = ringEmpty

/-- One step extends the histories by its return, as one operation of the bounded FIFO. -/
theorem step_fifo {log out : List Message} {s : Spsc} (h : Inv log out s) (a : Action) :
    let es := (step s a).2.toList
    Inv (log ++ pushed es) (out ++ popped es) (step s a).1 ∧ (∀ e ∈ es, e.Expected) ∧
      Trace (Fifo.Step 7) (queue log out) (es.filterMap Event.fifo)
        (queue (log ++ pushed es) (out ++ popped es)) := by
  have hle := h.out_le
  have hspec := step_spec h a
  revert hspec
  generalize (step s a).1 = s'
  rcases (step s a).2 with _ | ⟨m, r⟩ | ⟨r, m⟩
  · intro hspec
    change Inv (log ++ []) (out ++ []) s' ∧ _ ∧
      Trace (Fifo.Step 7) _ [] (queue (log ++ []) (out ++ []))
    rw [List.append_nil, List.append_nil]
    exact ⟨hspec, by simp, Trace.nil _⟩
  · -- a push returned: accepted, full, or refused for its length and then no event at all
    rintro (⟨rfl, hroom, hinv⟩ | ⟨rfl, h7, hinv⟩ | ⟨rfl, hinv⟩)
    · have hlen : (queue log out).length < 7 := by
        simp only [queue, List.length_map, List.length_drop, Room] at hroom ⊢
        omega
      have hq : queue (log ++ [m]) out = queue log out ++ [m.fields] := by
        simp [queue, List.drop_append_of_le_length hle]
      change Inv (log ++ [m]) (out ++ []) s' ∧ _ ∧
        Trace (Fifo.Step 7) _ [Fifo.Event.enq m.fields] (queue (log ++ [m]) (out ++ []))
      rw [List.append_nil, hq]
      exact ⟨hinv, by simp [Event.Expected], Trace.single (Fifo.Step.enq hlen)⟩
    · have hlen : (queue log out).length = 7 := by simpa [queue] using h7
      change Inv (log ++ []) (out ++ []) s' ∧ _ ∧
        Trace (Fifo.Step 7) _ [Fifo.Event.full] (queue (log ++ []) (out ++ []))
      rw [List.append_nil, List.append_nil]
      exact ⟨hinv, by simp [Event.Expected], Trace.single (Fifo.Step.full hlen)⟩
    · change Inv (log ++ []) (out ++ []) s' ∧ _ ∧
        Trace (Fifo.Step 7) _ [] (queue (log ++ []) (out ++ []))
      rw [List.append_nil, List.append_nil]
      exact ⟨hinv, by simp [Event.Expected], Trace.nil _⟩
  · -- a pop returned: the frame at the head of the queue, or none because it is empty
    rintro (⟨rfl, hm, hinv⟩ | ⟨rfl, hnone, hinv⟩)
    · obtain ⟨hlt, hget⟩ := List.getElem?_eq_some_iff.mp hm
      have hlt' : out.length < log.length := by simpa using hlt
      have hfields : (log[out.length]).fields = m.fields := by
        rw [← hget, List.getElem_map, Message.fields_seal]
      have hq : queue log out = m.fields :: queue log (out ++ [m]) := by
        simp only [queue, List.drop_eq_getElem_cons hlt', List.map_cons, hfields,
          List.length_append, List.length_singleton]
      change Inv (log ++ []) (out ++ [m]) s' ∧ _ ∧
        Trace (Fifo.Step 7) _ [Fifo.Event.deq m.fields] (queue (log ++ []) (out ++ [m]))
      rw [List.append_nil, hq]
      exact ⟨hinv, by simp [Event.Expected], Trace.single Fifo.Step.deq⟩
    · have hq : queue log out = [] := by simp [queue, hnone]
      change Inv (log ++ []) (out ++ []) s' ∧ _ ∧
        Trace (Fifo.Step 7) _ [Fifo.Event.empty] (queue (log ++ []) (out ++ []))
      rw [List.append_nil, List.append_nil, hq]
      exact ⟨hinv, by simp [Event.Expected], Trace.single Fifo.Step.empty⟩

theorem exec_fifo (acts : List Action) :
    Inv (pushed (exec acts).2) (popped (exec acts).2) (exec acts).1 ∧
      (∀ e ∈ (exec acts).2, e.Expected) ∧
      Trace (Fifo.Step 7) [] ((exec acts).2.filterMap Event.fifo)
        (queue (pushed (exec acts).2) (popped (exec acts).2)) := by
  apply runMachine_invariant step (I := fun es s => Inv (pushed es) (popped es) s ∧
    (∀ e ∈ es, e.Expected) ∧
    Trace (Fifo.Step 7) [] (es.filterMap Event.fifo) (queue (pushed es) (popped es)))
  · exact ⟨Inv.init, by simp, Trace.nil []⟩
  · rintro es s a ⟨hinv, hexp, htrace⟩
    obtain ⟨hinv', hexp', htrace'⟩ := step_fifo hinv a
    refine ⟨by simpa [pushed, popped] using hinv', ?_, ?_⟩
    · intro e he
      rcases List.mem_append.mp he with he | he
      · exact hexp e he
      · exact hexp' e he
    · simpa [pushed, popped] using htrace.append htrace'

/-- The producer has made no store of its current push. -/
def ProducerPc.BeforeStore : ProducerPc → Prop
  | .idle | .check _ => True
  | _ => False

/-- The producer index and the slots: what only the producer writes. -/
def Ring.producerSide (ring : Ring) : U32 × (Fin 8 → Message) := (ring.producer, ring.slot)

/-- Only a push that will return 0 stores, so a step that ends before the first store of a push and
does not return 0 left the producer's side alone. -/
theorem step_beforeStore (s : Spsc) (a : Action)
    (hok : ∀ m, (step s a).2 ≠ some (.pushRet m ringOk))
    (hpc : (step s a).1.producer.BeforeStore) :
    s.producer.BeforeStore ∧
      Ring.producerSide (step s a).1.ring = Ring.producerSide s.ring := by
  cases a with
  | push m =>
    cases hp : s.producer with
    | idle =>
      simp only [step, hp] at *
      split_ifs <;> exact ⟨trivial, rfl⟩
    | _ =>
      simp only [step, hp] at hpc ⊢
      exact ⟨hpc, trivial⟩
  | produce =>
    cases hp : s.producer with
    | idle => simp [step, produce, hp, ProducerPc.BeforeStore]
    | check l =>
      simp only [step, produce, hp]
      split_ifs <;> exact ⟨trivial, rfl⟩
    | publish l => exact absurd (by simp [step, produce, hp]) (hok l.message)
    | _ => simp [step, produce, hp, ProducerPc.BeforeStore] at hpc
  | pop =>
    cases hc : s.consumer with
    | idle => exact ⟨by simpa [step, hc] using hpc, by simp [step, hc]⟩
    | _ => exact ⟨by simpa [step, hc] using hpc, by simp [step, hc]⟩
  | consume =>
    cases hc : s.consumer with
    | idle => exact ⟨by simpa [step, consume, hc] using hpc, by simp [step, consume, hc]⟩
    | readProducer k =>
      simp only [step, consume, hc] at hpc ⊢
      split_ifs at hpc ⊢ <;> exact ⟨hpc, rfl⟩
    | checkCommit k =>
      simp only [step, consume, hc] at hpc ⊢
      split_ifs at hpc ⊢ <;> exact ⟨hpc, rfl⟩
    | copy k => exact ⟨by simpa [step, consume, hc] using hpc, by simp [step, consume, hc]⟩
    | release k m =>
      simp only [step, consume, hc] at hpc ⊢
      exact ⟨hpc, rfl⟩

/-- A stretch of a run in which no push returns 0 and that does not end inside the stores of one
leaves the producer's side of the ring as it was. -/
theorem refused_pushes_store_nothing (s : Spsc) (acts : List Action)
    (hok : ∀ m, Event.pushRet m ringOk ∉ (runMachine step s acts).2)
    (hpc : (runMachine step s acts).1.producer.BeforeStore) :
    s.producer.BeforeStore ∧
      Ring.producerSide (runMachine step s acts).1.ring = Ring.producerSide s.ring := by
  induction acts generalizing s with
  | nil => exact ⟨hpc, rfl⟩
  | cons a acts ih =>
    simp only [runMachine, List.mem_append, not_or] at hok hpc ⊢
    obtain ⟨hmid, hside⟩ := ih _ (fun m => (hok m).2) hpc
    obtain ⟨hstart, hside'⟩ := step_beforeStore s a
      (fun m he => (hok m).1 (by simp [he])) hmid
    exact ⟨hstart, hside.trans hside'⟩

theorem producer_keeps_consumerIndex (s : Spsc) (a : Action)
    (ha : a = .produce ∨ ∃ m, a = .push m) :
    (step s a).1.ring.consumer = s.ring.consumer := by
  rcases ha with rfl | ⟨m, rfl⟩
  · cases hp : s.producer with
    | check l =>
      simp only [step, produce, hp]
      split_ifs <;> rfl
    | _ => simp [step, produce, hp, Spsc.setSlot]
  · cases hp : s.producer with
    | idle =>
      simp only [step, hp]
      split_ifs <;> rfl
    | _ => simp [step, hp]

theorem enq_fifo (es : List Event) :
    (es.filterMap Event.fifo).filterMap Fifo.Event.enq? = (pushed es).map Message.fields := by
  rw [List.filterMap_filterMap, pushed, List.map_filterMap]
  congr 1
  funext e
  cases e with
  | pushRet m r =>
    simp only [Event.fifo, Event.pushedOk]
    split_ifs <;> rfl
  | popRet r m =>
    simp only [Event.fifo, Event.pushedOk]
    split_ifs <;> rfl

theorem deq_fifo (es : List Event) :
    (es.filterMap Event.fifo).filterMap Fifo.Event.deq? = (popped es).map Message.fields := by
  rw [List.filterMap_filterMap, popped, List.map_filterMap]
  congr 1
  funext e
  cases e with
  | pushRet m r =>
    simp only [Event.fifo, Event.poppedOk]
    split_ifs <;> rfl
  | popRet r m =>
    simp only [Event.fifo, Event.poppedOk]
    split_ifs <;> rfl

/-- For every schedule of the two sides.  The frames are compared in generation, type, sequence,
length and payload; a refused push is described from any point of the run on. -/
theorem ring_refines_bounded_fifo (acts : List Action) :
    (exec acts).1.ring.producer.toNat < 8 ∧ (exec acts).1.ring.consumer.toNat < 8 ∧
    (popped (exec acts).2).map Message.fields <+: (pushed (exec acts).2).map Message.fields ∧
    (∀ r m, Event.popRet r m ∈ (exec acts).2 → r = ringOk ∨ r = ringEmpty) ∧
    Trace (Fifo.Step 7) [] ((exec acts).2.filterMap Event.fifo)
      (queue (pushed (exec acts).2) (popped (exec acts).2)) ∧
    (∀ a m, (step (exec acts).1 a).2 = some (.pushRet m ringFull) →
      7 ≤ (pushed (exec acts).2).length - (popped (exec acts).2).length) ∧
    (∀ more, (∀ m, Event.pushRet m ringOk ∉ (runMachine step (exec acts).1 more).2) →
      (runMachine step (exec acts).1 more).1.producer = .idle →
      Ring.producerSide (runMachine step (exec acts).1 more).1.ring =
        Ring.producerSide (exec acts).1.ring) ∧
    (∀ a, (a = .produce ∨ ∃ m, a = .push m) →
      (step (exec acts).1 a).1.ring.consumer = (exec acts).1.ring.consumer) ∧
    (∀ a m, (step (exec acts).1 a).2 = some (.popRet ringEmpty m) →
      (popped (exec acts).2).map Message.fields = (pushed (exec acts).2).map Message.fields) := by
  obtain ⟨hinv, hexp, htrace⟩ := exec_fifo acts
  have hhead : (popped (exec acts).2).map Message.fields <+:
      (pushed (exec acts).2).map Message.fields := by
    rw [← deq_fifo, ← enq_fifo]
    exact Fifo.deq_prefix_enq htrace
  refine ⟨?_, ?_, hhead, ?_, htrace, ?_, ?_, ?_, ?_⟩
  · rw [hinv.producerIndex]
    exact indexOf_lt _
  · rw [hinv.consumerIndex]
    exact indexOf_lt _
  · intro r m hm
    exact hexp _ hm
  · intro a m ha
    have hspec := step_spec hinv a
    rw [ha] at hspec
    rcases hspec with ⟨h, _⟩ | ⟨_, h7, _⟩ | ⟨h, _⟩
    · exact absurd h (by decide)
    · exact h7.ge
    · exact absurd h (by decide)
  · intro more hok hidle
    exact (refused_pushes_store_nothing _ more hok (by rw [hidle]; trivial)).2
  · exact fun a ha => producer_keeps_consumerIndex _ a ha
  · intro a m ha
    have hspec := step_spec hinv a
    rw [ha] at hspec
    rcases hspec with ⟨h, _⟩ | ⟨_, hlen, _⟩
    · exact absurd h (by decide)
    · exact hhead.eq_of_length (by simpa using hlen.symm)

end Lzamp.Mailmsg.RingSteps
