import Mathlib.Data.Nat.ModEq
import Mathlib.Data.List.Infix
import Mathlib.Logic.Function.Basic
import Lzamp.Lib.Trace

namespace Lzamp.Lib

section Positions

variable {N : ℕ}

theorem mod_eq_iff_of_sub_lt {i j : ℕ} (hij : i ≤ j) (hlt : j - i < N) :
    j % N = i % N ↔ j = i := by
  constructor
  · intro h
    have hd : N ∣ j - i := (Nat.modEq_iff_dvd' hij).mp h.symm
    have h0 : j - i = 0 := Nat.eq_zero_of_dvd_of_lt hd hlt
    omega
  · rintro rfl
    rfl

/-- With one slot kept free, "the next write position is the read position" means full. -/
theorem succ_mod_eq_iff {C P : ℕ} (hCP : C ≤ P) (hlt : P - C < N) :
    (P + 1) % N = C % N ↔ P - C + 1 = N := by
  constructor
  · intro h
    by_contra hne
    have h' := (mod_eq_iff_of_sub_lt (N := N) (i := C) (j := P + 1) (by omega) (by omega)).mp h
    omega
  · intro h
    have hP : P + 1 = C + N := by omega
    rw [hP, Nat.add_mod_right]

theorem ofNat_ne_of_lt [NeZero N] {i j : ℕ} (hij : i < j) (hlt : j - i < N) :
    Fin.ofNat N i ≠ Fin.ofNat N j := by
  intro h
  have hv : i % N = j % N := congrArg Fin.val h
  have := (mod_eq_iff_of_sub_lt (N := N) hij.le hlt).mp hv.symm
  omega

end Positions

section Holds

variable {N : ℕ} [NeZero N] {β : Type*}

/-- The entries of `log` from `released` on are still in their slots, and one slot is free. -/
structure Holds (slot : Fin N → β) (log : List β) (released : ℕ) : Prop where
  le : released ≤ log.length
  room : log.length - released < N
  entry : ∀ i (hi : i < log.length), released ≤ i → slot (Fin.ofNat N i) = log[i]

variable {slot : Fin N → β} {log : List β} {released : ℕ}

theorem Holds.init : Holds slot [] 0 := ⟨le_rfl, Nat.pos_of_neZero N, by simp⟩

theorem Holds.write (h : Holds slot log released) (x : β) :
    Holds (Function.update slot (Fin.ofNat N log.length) x) log released := by
  refine ⟨h.le, h.room, ?_⟩
  intro i hi hri
  have hne : Fin.ofNat N i ≠ Fin.ofNat N log.length :=
    ofNat_ne_of_lt hi (by have := h.room; omega)
  rw [Function.update_of_ne hne]
  exact h.entry i hi hri

theorem Holds.publish {x : β} (h : Holds slot log released)
    (hroom : log.length - released + 1 < N) (hx : slot (Fin.ofNat N log.length) = x) :
    Holds slot (log ++ [x]) released := by
  have hle := h.le
  refine ⟨by simp; omega, by simp only [List.length_append, List.length_singleton]; omega, ?_⟩
  intro i hi hri
  by_cases hlast : i < log.length
  · rw [List.getElem_append_left hlast]
    exact h.entry i hlast hri
  · have hi' : i = log.length := by
      simp only [List.length_append, List.length_singleton] at hi
      omega
    subst hi'
    simpa using hx

theorem Holds.release (h : Holds slot log released) (hlt : released < log.length) :
    Holds slot log (released + 1) :=
  ⟨hlt, by have := h.room; omega, fun i hi hri => h.entry i hi (by omega)⟩

theorem Holds.head (h : Holds slot log released) (hlt : released < log.length) :
    slot (Fin.ofNat N released) = log[released] := h.entry released hlt le_rfl

end Holds

namespace Fifo

variable {β : Type*}

inductive Event (β : Type*) where
  | enq (b : β)
  | deq (b : β)
  | full
  | empty

/-- A FIFO of capacity `cap`: refusals are observations of a full or an empty queue. -/
inductive Step (cap : ℕ) : List β → Event β → List β → Prop
  | enq {q : List β} {b : β} (h : q.length < cap) : Step cap q (.enq b) (q ++ [b])
  | deq {q : List β} {b : β} : Step cap (b :: q) (.deq b) q
  | full {q : List β} (h : q.length = cap) : Step cap q .full q
  | empty : Step cap [] .empty []

def Event.enq? : Event β → Option β
  | .enq b => some b
  | _ => none

def Event.deq? : Event β → Option β
  | .deq b => some b
  | _ => none

/-- What was queued first, then what came in, is what went out, then what is queued now. -/
theorem conservation {cap : ℕ} {q q' : List β} {es : List (Event β)}
    (h : Trace (Step cap) q es q') :
    q ++ es.filterMap Event.enq? = es.filterMap Event.deq? ++ q' := by
  induction h with
  | nil => simp
  | cons head _ ih =>
    cases head with
    | enq _ =>
      simp only [List.filterMap_cons, Event.enq?, Event.deq?]
      rw [← ih]
      simp
    | deq =>
      simp only [List.filterMap_cons, Event.enq?, Event.deq?, List.cons_append]
      rw [ih]
    | full _ => simpa only [List.filterMap_cons, Event.enq?, Event.deq?] using ih
    | empty => simpa only [List.filterMap_cons, Event.enq?, Event.deq?] using ih

/-- From the empty queue, what went out is a prefix of what came in. -/
theorem deq_prefix_enq {cap : ℕ} {q : List β} {es : List (Event β)}
    (h : Trace (Step cap) [] es q) :
    es.filterMap Event.deq? <+: es.filterMap Event.enq? :=
  ⟨q, by simpa using (conservation h).symm⟩

end Fifo

end Lzamp.Lib
