import Mathlib.Data.BitVec
import Lzamp.Lib.Bus

namespace Lzamp.Lib.Hiword

variable {A : Type}

/-- The upper half of the word selects the bits of the lower half that the write changes. -/
def store (contents : BitVec 16) (word : BitVec 32) : BitVec 16 :=
  let mask := word.extractLsb' 16 16
  contents &&& ~~~mask ||| word.extractLsb' 0 16 &&& mask

theorem getLsbD_store (contents : BitVec 16) (word : BitVec 32) {i : ℕ} (hi : i < 16) :
    (store contents word).getLsbD i =
      if word.getLsbD (16 + i) then word.getLsbD i else contents.getLsbD i := by
  cases hmask : word.getLsbD (16 + i) <;> simp [store, hi, hmask]

section Runs

variable [DecidableEq A]

def apply (regs : A → BitVec 16) : BusEvent A (BitVec 32) → A → BitVec 16
  | .write word addr => Function.update regs addr (store (regs addr) word)
  | _ => regs

def after (regs : A → BitVec 16) (es : List (BusEvent A (BitVec 32))) : A → BitVec 16 :=
  es.foldl apply regs

@[simp] theorem after_nil (regs : A → BitVec 16) : after regs [] = regs := rfl

theorem after_append (regs : A → BitVec 16) (es es' : List (BusEvent A (BitVec 32))) :
    after regs (es ++ es') = after (after regs es) es' := List.foldl_append

/-- What an event gives to bit `i` of the register at `addr`, if it selects it. -/
def given (addr : A) (i : ℕ) : BusEvent A (BitVec 32) → Option Bool
  | .write word a => if a = addr ∧ word.getLsbD (16 + i) then some (word.getLsbD i) else none
  | _ => none

@[simp] theorem given_delay (addr : A) (i usec : ℕ) : given addr i (.delay usec) = none := rfl

theorem given_write (addr : A) (i : ℕ) (word : BitVec 32) :
    given addr i (.write word addr) =
      if word.getLsbD (16 + i) then some (word.getLsbD i) else none := by
  simp [given]

theorem given_write_of_ne {addr a : A} (h : a ≠ addr) (i : ℕ) (word : BitVec 32) :
    given addr i (.write word a) = none := if_neg fun hand => h hand.1

/-- What a run gives to a place last. -/
def lastGiven (addr : A) (i : ℕ) : List (BusEvent A (BitVec 32)) → Option Bool
  | [] => none
  | e :: es => (lastGiven addr i es).or (given addr i e)

variable {addr : A} {i : ℕ}

@[simp] theorem lastGiven_append (es es' : List (BusEvent A (BitVec 32))) :
    lastGiven addr i (es ++ es') = (lastGiven addr i es').or (lastGiven addr i es) := by
  induction es with
  | nil => simp [lastGiven]
  | cons e es ih => simp only [List.cons_append, lastGiven, ih, Option.or_assoc]

theorem lastGiven_of_given {es : List (BusEvent A (BitVec 32))}
    (h : ∀ e ∈ es, given addr i e = none) : lastGiven addr i es = none := by
  induction es with
  | nil => rfl
  | cons e es ih =>
    rw [lastGiven, ih fun e' hmem => h e' (List.mem_cons_of_mem e hmem), h e List.mem_cons_self,
      Option.none_or]

theorem lastGiven_eq_none {es : List (BusEvent A (BitVec 32))}
    (h : ∀ word a, .write word a ∈ es → a = addr → word.getLsbD (16 + i) = false) :
    lastGiven addr i es = none := by
  refine lastGiven_of_given fun e hmem => ?_
  cases e with
  | write word a =>
    have hword := h word a hmem
    by_cases ha : a = addr
    · simp [given, hword ha]
    · simp [given, ha]
  | read => rfl
  | delay => rfl
  | expire => rfl

theorem exists_write_of_lastGiven {es : List (BusEvent A (BitVec 32))} {b : Bool}
    (h : lastGiven addr i es = some b) :
    ∃ word, .write word addr ∈ es ∧ word.getLsbD (16 + i) = true ∧ word.getLsbD i = b := by
  induction es with
  | nil => cases h
  | cons e es ih =>
    rw [lastGiven, Option.or_eq_some_iff] at h
    obtain h | ⟨-, h⟩ := h
    · obtain ⟨word, hmem, hword⟩ := ih h
      exact ⟨word, List.mem_cons_of_mem e hmem, hword⟩
    · cases e with
      | write word a =>
        obtain ⟨⟨rfl, hmask⟩, hvalue⟩ := Option.ite_none_right_eq_some.mp h
        exact ⟨word, List.mem_cons_self, hmask, Option.some.inj hvalue⟩
      | read => cases h
      | delay => cases h
      | expire => cases h

theorem getLsbD_apply (regs : A → BitVec 16) (hi : i < 16) (e : BusEvent A (BitVec 32)) :
    (apply regs e addr).getLsbD i = (given addr i e).getD ((regs addr).getLsbD i) := by
  cases e with
  | write word a =>
    by_cases ha : a = addr
    · subst ha
      cases hmask : word.getLsbD (16 + i) <;> simp [apply, given, getLsbD_store _ _ hi, hmask]
    · simp [apply, given, Function.update_of_ne (Ne.symm ha), ha]
  | read => rfl
  | delay => rfl
  | expire => rfl

/-- The contents of a place are what it was last given, or what it held. -/
theorem getLsbD_after (regs : A → BitVec 16) (hi : i < 16) (es : List (BusEvent A (BitVec 32))) :
    (after regs es addr).getLsbD i = (lastGiven addr i es).getD ((regs addr).getLsbD i) := by
  induction es generalizing regs with
  | nil => rfl
  | cons e es ih =>
    change (after (apply regs e) es addr).getLsbD i = _
    rw [ih, getLsbD_apply regs hi, lastGiven]
    cases lastGiven addr i es <;> rfl

/-- Runs that share no place commute. -/
theorem after_comm (regs : A → BitVec 16) {es es' : List (BusEvent A (BitVec 32))}
    (h : ∀ addr, ∀ i < 16, lastGiven addr i es = none ∨ lastGiven addr i es' = none) :
    after regs (es ++ es') = after regs (es' ++ es) := by
  funext addr
  apply BitVec.eq_of_getLsbD_eq
  intro i hi
  rw [getLsbD_after regs hi, getLsbD_after regs hi, lastGiven_append, lastGiven_append]
  obtain hnone | hnone := h addr i hi
  · simp [hnone]
  · simp [hnone]

end Runs

section Relocation

variable {B : Type} [DecidableEq A] [DecidableEq B] {f : A → B}

/-- The event with its address moved. -/
def relocate (f : A → B) : BusEvent A (BitVec 32) → BusEvent B (BitVec 32)
  | .read addr word => .read (f addr) word
  | .write word addr => .write word (f addr)
  | .delay usec => .delay usec
  | .expire => .expire

theorem given_relocate (hf : Function.Injective f) (addr : A) (i : ℕ)
    (e : BusEvent A (BitVec 32)) : given (f addr) i (relocate f e) = given addr i e := by
  cases e with
  | write word a => simp [relocate, given, hf.eq_iff]
  | read => rfl
  | delay => rfl
  | expire => rfl

theorem lastGiven_relocate (hf : Function.Injective f) (addr : A) (i : ℕ)
    (es : List (BusEvent A (BitVec 32))) :
    lastGiven (f addr) i (es.map (relocate f)) = lastGiven addr i es := by
  induction es with
  | nil => rfl
  | cons e es ih => rw [List.map_cons, lastGiven, lastGiven, ih, given_relocate hf]

end Relocation

end Lzamp.Lib.Hiword
