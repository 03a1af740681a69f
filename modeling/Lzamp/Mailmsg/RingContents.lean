import Lzamp.Mailmsg.Protocol

namespace Lzamp.Mailmsg
open Lib

structure Ring.InRange (r : Ring) : Prop where
  producer : r.producer.toNat < 8
  consumer : r.consumer.toNat < 8

instance (r : Ring) : Decidable r.InRange :=
  decidable_of_iff (r.producer.toNat < 8 ∧ r.consumer.toNat < 8)
    ⟨fun h => ⟨h.1, h.2⟩, fun h => ⟨h.producer, h.consumer⟩⟩

abbrev Ring.Empty (r : Ring) : Prop := r.consumer = r.producer

/-- The number of slots from the consumer index up to the producer index. -/
def Ring.depth (r : Ring) : ℕ := (r.producer.toNat + 8 - r.consumer.toNat) % 8

/-- The queued slots, oldest first. -/
def Ring.contents (r : Ring) : List Message :=
  (List.range r.depth).map fun i => r.slot (Fin.ofNat 8 (r.consumer.toNat + i))

@[simp] theorem Ring.length_contents (r : Ring) : r.contents.length = r.depth := by
  simp [Ring.contents]

theorem Ring.depth_lt (r : Ring) : r.depth < 8 := Nat.mod_lt _ (by decide)

theorem Ring.zero_inRange : Ring.zero.InRange := ⟨by decide, by decide⟩

@[simp] theorem Ring.contents_zero : Ring.zero.contents = [] := rfl

theorem Ring.InRange.depth_eq_zero {r : Ring} (h : r.InRange) :
    r.depth = 0 ↔ r.consumer = r.producer := by
  have hp := h.producer
  have hc := h.consumer
  rw [← BitVec.toNat_inj, Ring.depth]
  omega

theorem Ring.InRange.depth_eq_seven {r : Ring} (h : r.InRange) :
    r.depth = 7 ↔ next r.producer = r.consumer := by
  have hp := h.producer
  have hc := h.consumer
  rw [← BitVec.toNat_inj, toNat_next, Ring.depth]
  omega

theorem Ring.InRange.depth_lt_seven {r : Ring} (h : r.InRange)
    (hroom : next r.producer ≠ r.consumer) : r.depth < 7 := by
  have hne : r.depth ≠ 7 := fun hd => hroom (h.depth_eq_seven.mp hd)
  have := r.depth_lt
  omega

theorem Ring.InRange.contents_eq_nil {r : Ring} (h : r.InRange) :
    r.contents = [] ↔ r.consumer = r.producer := by
  rw [← h.depth_eq_zero, ← List.length_eq_zero_iff, Ring.length_contents]

/-- One more slot is queued behind the old ones, which stay where they are. -/
theorem Ring.InRange.contents_publish {r : Ring} (h : r.InRange) (hroom : r.depth < 7)
    (m : Message) :
    ({ r with slot := Function.update r.slot (slotIndex r.producer) m,
              producer := next r.producer } : Ring).contents = r.contents ++ [m] := by
  have hp := h.producer
  have hc := h.consumer
  have hdepth : ({ r with slot := Function.update r.slot (slotIndex r.producer) m,
                          producer := next r.producer } : Ring).depth = r.depth + 1 := by
    simp only [Ring.depth, toNat_next] at hroom ⊢
    omega
  have hfree : slotIndex r.producer = Fin.ofNat 8 (r.consumer.toNat + r.depth) := by
    apply Fin.ext
    simp only [slotIndex, Ring.depth, Fin.ofNat]
    omega
  simp only [Ring.contents, hdepth, List.range_succ, List.map_append, List.map_cons,
    List.map_nil]
  congr 1
  · apply List.map_congr_left
    intro i hi
    have hi' : i < r.depth := List.mem_range.mp hi
    rw [Function.update_of_ne]
    rw [hfree]
    exact ofNat_ne_of_lt (by omega) (by omega)
  · rw [← hfree, Function.update_self]

theorem Ring.InRange.contents_release {r : Ring} (h : r.InRange)
    (hne : r.consumer ≠ r.producer) :
    r.contents = r.slot (slotIndex r.consumer) ::
      ({ r with consumer := next r.consumer } : Ring).contents := by
  have hp := h.producer
  have hc := h.consumer
  have hne' : r.consumer.toNat ≠ r.producer.toNat := fun he => hne (BitVec.eq_of_toNat_eq he)
  have hdepth : r.depth = ({ r with consumer := next r.consumer } : Ring).depth + 1 := by
    simp only [Ring.depth, toNat_next]
    omega
  rw [Ring.contents, hdepth, List.range_succ_eq_map, List.map_cons, List.map_map]
  congr 1
  apply List.map_congr_left
  intro i _
  have hidx : Fin.ofNat 8 (r.consumer.toNat + (i + 1)) =
      Fin.ofNat 8 ((next r.consumer).toNat + i) := by
    apply Fin.ext
    simp only [toNat_next, Fin.ofNat]
    omega
  exact congrArg r.slot hidx

theorem Ring.InRange.publish {r : Ring} (h : r.InRange) (slot : Fin 8 → Message) :
    Ring.InRange { r with slot := slot, producer := next r.producer } :=
  ⟨by rw [toNat_next]; exact Nat.mod_lt _ (by decide), h.consumer⟩

theorem Ring.InRange.release {r : Ring} (h : r.InRange) :
    Ring.InRange { r with consumer := next r.consumer } :=
  ⟨h.producer, by rw [toNat_next]; exact Nat.mod_lt _ (by decide)⟩

def Ring.published (r : Ring) (m : Message) : Ring :=
  { r with slot := Function.update r.slot (slotIndex r.producer) m.seal,
           producer := next r.producer }

def Ring.released (r : Ring) : Ring := { r with consumer := next r.consumer }

theorem ringPush_eq (r : Ring) (m : Message) :
    ringPush r m =
      if m.Malformed then (ringInvalid, r)
      else if next r.producer = r.consumer then (ringFull, r)
      else (ringOk, r.published m) := rfl

theorem ringPush_ok_iff (r : Ring) (m : Message) :
    (ringPush r m).1 = ringOk ↔ ¬ m.Malformed ∧ next r.producer ≠ r.consumer := by
  rw [ringPush_eq]
  by_cases hm : m.Malformed
  · simp [hm]
  · by_cases hf : next r.producer = r.consumer
    · simp [hm, hf]
    · rw [if_neg hm, if_neg hf]
      exact ⟨fun _ => ⟨hm, hf⟩, fun _ => rfl⟩

/-- A push that does not return 0 leaves the ring as it is. -/
theorem ringPush_refused {r : Ring} {m : Message} (h : (ringPush r m).1 ≠ ringOk) :
    (ringPush r m).2 = r := by
  rw [ringPush_eq] at h ⊢
  split_ifs at h ⊢
  · rfl
  · rfl
  · exact absurd rfl h

theorem ringPop_empty {r : Ring} (h : r.consumer = r.producer) (message : Message) :
    ringPop r message = (ringEmpty, r, message) := by
  rw [ringPop, if_pos h]

theorem ringPop_committed {r : Ring} (h : r.consumer ≠ r.producer)
    (hcommit : (r.slot (slotIndex r.consumer)).commit = (r.slot (slotIndex r.consumer)).sequence)
    (message : Message) :
    ringPop r message = (frameCheck (r.slot (slotIndex r.consumer)), r.released,
      r.slot (slotIndex r.consumer)) := by
  rw [ringPop, if_neg h, if_neg (not_not.mpr hcommit)]
  rfl

theorem ringPop_cons {r : Ring} (h : r.InRange) {m : Message} {q : List Message}
    (hq : r.contents = m :: q) (hcommit : m.commit = m.sequence) (message : Message) :
    ringPop r message = (frameCheck m, r.released, m) ∧ r.released.contents = q ∧
      r.released.InRange := by
  have hne : r.consumer ≠ r.producer := by
    intro he
    rw [h.contents_eq_nil.mpr he] at hq
    exact absurd hq (by simp)
  have hrel := h.contents_release hne
  rw [hq] at hrel
  obtain ⟨hhead, htail⟩ := List.cons.inj hrel
  refine ⟨?_, htail.symm, h.release⟩
  rw [ringPop_committed hne (by rw [← hhead]; exact hcommit), ← hhead]

theorem ringPop_nil {r : Ring} (h : r.InRange) (hq : r.contents = []) (message : Message) :
    ringPop r message = (ringEmpty, r, message) :=
  ringPop_empty (h.contents_eq_nil.mp hq) message

theorem ringPop_uncommitted {r : Ring} (h : r.InRange) {m : Message} {q : List Message}
    (hq : r.contents = m :: q) (hcommit : m.commit ≠ m.sequence) (message : Message) :
    ringPop r message = (ringIncomplete, r, message) := by
  have hne : r.consumer ≠ r.producer := by
    intro he
    rw [h.contents_eq_nil.mpr he] at hq
    exact absurd hq (by simp)
  have hrel := h.contents_release hne
  rw [hq] at hrel
  rw [ringPop, if_neg hne, if_pos (by rw [← (List.cons.inj hrel).1]; exact hcommit)]

theorem ringHasData_eq (r : Ring) :
    ringHasData r = if r.consumer = r.producer then 0 else 1 := by
  by_cases h : r.consumer = r.producer
  · simp [ringHasData, h]
  · simp [ringHasData, h, Ne.symm h]

/-- A ring holding `frames` from index `consumer` on, if they fit before the wrap. -/
def ringOf (consumer : U32) (frames : List Message) : Ring where
  producer := consumer + BitVec.ofNat 32 frames.length
  consumer := consumer
  slot := fun i => frames.getD (i.val - consumer.toNat) Message.zero

end Lzamp.Mailmsg
