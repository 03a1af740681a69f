import Mathlib.Data.List.Basic

namespace Lzamp.Lib

/-- A program logs events on its way, and then returns a value, raises an exception, or has not
ended yet. -/
structure Logged (ε E α : Type) where
  events : List E
  outcome : Option (Except ε α)

namespace Logged

variable {ε E α β : Type}

instance : Monad (Logged ε E) where
  pure a := ⟨[], some (.ok a)⟩
  bind p f :=
    match p.outcome with
    | some (.ok a) => ⟨p.events ++ (f a).events, (f a).outcome⟩
    | some (.error e) => ⟨p.events, some (.error e)⟩
    | none => ⟨p.events, none⟩

def raise (e : ε) : Logged ε E α := ⟨[], some (.error e)⟩

/-- `try ... except`: what was logged before the exception stays. -/
def handle (p : Logged ε E α) (handler : ε → Logged ε E α) : Logged ε E α :=
  match p.outcome with
  | some (.error e) => ⟨p.events ++ (handler e).events, (handler e).outcome⟩
  | some (.ok _) => p
  | none => p

theorem bind_cases (p : Logged ε E α) (f : α → Logged ε E β) :
    (∃ a, p.outcome = some (.ok a) ∧ p >>= f = ⟨p.events ++ (f a).events, (f a).outcome⟩) ∨
      ((p >>= f).events = p.events ∧ ∀ b, (p >>= f).outcome ≠ some (.ok b)) := by
  obtain ⟨es, outcome⟩ := p
  cases outcome with
  | none => exact .inr ⟨rfl, fun b h => by cases h⟩
  | some result =>
    cases result with
    | error e => exact .inr ⟨rfl, fun b h => by cases h⟩
    | ok a => exact .inl ⟨a, rfl, rfl⟩

theorem bind_eq_ok {p : Logged ε E α} {f : α → Logged ε E β} {b : β}
    (h : (p >>= f).outcome = some (.ok b)) :
    ∃ a, p.outcome = some (.ok a) ∧ (f a).outcome = some (.ok b) ∧
      (p >>= f).events = p.events ++ (f a).events := by
  rcases bind_cases p f with ⟨a, ha, hbind⟩ | ⟨-, hno⟩
  · rw [hbind] at h ⊢
    exact ⟨a, ha, h, rfl⟩
  · exact absurd h (hno b)

def All (P : E → Prop) (p : Logged ε E α) : Prop := ∀ e ∈ p.events, P e

variable {P : E → Prop}

theorem all_pure (a : α) : All P (pure a : Logged ε E α) := fun _ he => absurd he List.not_mem_nil

theorem all_raise (e : ε) : All P (raise e : Logged ε E α) :=
  fun _ he => absurd he List.not_mem_nil

theorem All.bind {p : Logged ε E α} {f : α → Logged ε E β} (hp : All P p)
    (hf : ∀ a, p.outcome = some (.ok a) → All P (f a)) : All P (p >>= f) := by
  intro e he
  rcases bind_cases p f with ⟨a, ha, hbind⟩ | ⟨hevents, -⟩
  · rw [hbind] at he
    rcases List.mem_append.mp he with he | he
    · exact hp e he
    · exact hf a ha e he
  · rw [hevents] at he
    exact hp e he

/-- The view shows an initial part of `bs`, and all of it once the program has returned. -/
structure Emits {B : Type} (view : E → Option B) (p : Logged ε E α) (bs : List B) : Prop where
  initial : p.events.filterMap view <+: bs
  returned : ∀ a, p.outcome = some (.ok a) → p.events.filterMap view = bs

variable {B : Type} {view : E → Option B}

theorem emits_pure (a : α) : Emits view (pure a : Logged ε E α) [] :=
  ⟨ List.nil_prefix, fun _ _ => rfl⟩

theorem emits_raise (e : ε) (bs : List B) : Emits view (raise e : Logged ε E α) bs :=
  ⟨ List.nil_prefix, fun _ h => by cases h⟩

theorem Emits.bind {p : Logged ε E α} {f : α → Logged ε E β} {bs cs : List B}
    (hp : Emits view p bs) (hf : ∀ a, p.outcome = some (.ok a) → Emits view (f a) cs) :
    Emits view (p >>= f) (bs ++ cs) := by
  rcases bind_cases p f with ⟨a, ha, hbind⟩ | ⟨hevents, hno⟩
  · rw [hbind]
    constructor
    · rw [List.filterMap_append, hp.returned a ha]
      exact List.prefix_append_right_inj bs |>.mpr (hf a ha).initial
    · intro b hb
      rw [List.filterMap_append, hp.returned a ha, (hf a ha).returned b hb]
  · constructor
    · rw [hevents]
      exact hp.initial.trans (List.prefix_append bs cs)
    · exact fun b hb => absurd hb (hno b)

theorem Emits.andThen {p : Logged ε E α} {f : α → Logged ε E β} {bs : List B}
    (hp : Emits view p bs) (hf : ∀ a, p.outcome = some (.ok a) → Emits view (f a) []) :
    Emits view (p >>= f) bs := by
  have h := hp.bind hf
  rwa [List.append_nil] at h

end Logged

end Lzamp.Lib
