import Mathlib.Logic.Relation
import Mathlib.Data.List.Infix

namespace Lzamp.Lib

variable {σ α : Type*} {step : σ → α → σ → Prop}

/-- A finite run of `step`, with its labels in the order they were taken. -/
inductive Trace (step : σ → α → σ → Prop) : σ → List α → σ → Prop
  | nil (s : σ) : Trace step s [] s
  | cons {s t u : σ} {a : α} {as : List α} (head : step s a t) (tail : Trace step t as u) :
      Trace step s (a :: as) u

namespace Trace

theorem single {s t : σ} {a : α} (h : step s a t) : Trace step s [a] t := cons h (nil t)

theorem append {s t u : σ} {as bs : List α} (h : Trace step s as t) (h' : Trace step t bs u) :
    Trace step s (as ++ bs) u := by
  induction h with
  | nil => exact h'
  | cons head _ ih => exact cons head (ih h')

theorem snoc {s t u : σ} {as : List α} {a : α} (h : Trace step s as t) (ha : step t a u) :
    Trace step s (as ++ [a]) u := h.append (single ha)

/-- A property that every step keeps holds at the end of every run that starts in it. -/
theorem invariant {I : σ → Prop} (hstep : ∀ s a t, I s → step s a t → I t)
    {s t : σ} {as : List α} (h : Trace step s as t) (hs : I s) : I t := by
  induction h with
  | nil => exact hs
  | cons head _ ih => exact ih (hstep _ _ _ hs head)

theorem invariant_mem {I : σ → Prop} {s t : σ} {as : List α}
    (hstep : ∀ s a t, a ∈ as → I s → step s a t → I t) (h : Trace step s as t) (hs : I s) :
    I t := by
  induction h with
  | nil => exact hs
  | cons head _ ih =>
    refine ih (fun s a t ha => hstep s a t (List.mem_cons_of_mem _ ha)) ?_
    exact hstep _ _ _ List.mem_cons_self hs head

/-- The invariant rule for a property of the state together with the labels taken so far. -/
theorem history_invariant {I : List α → σ → Prop} {s₀ : σ} (h₀ : I [] s₀)
    (hstep : ∀ as s a t, Trace step s₀ as s → I as s → step s a t → I (as ++ [a]) t)
    {as : List α} {t : σ} (h : Trace step s₀ as t) : I as t := by
  suffices h' : ∀ pre bs s, Trace step s₀ pre s → I pre s → Trace step s bs t → I (pre ++ bs) t by
    simpa using h' [] as s₀ (nil s₀) h₀ h
  intro pre bs
  induction bs generalizing pre with
  | nil =>
    intro s _ hI hrest
    cases hrest
    simpa using hI
  | cons b bs ih =>
    intro s hpre hI hrest
    obtain - | ⟨hb, htail⟩ := hrest
    simpa using ih (pre ++ [b]) _ (hpre.snoc hb) (hstep _ _ _ _ hpre hI hb) htail

/-- A run that leaves `P` takes a step that leaves `P`. -/
theorem exists_exit {P : σ → Prop} {s t : σ} {as : List α} (h : Trace step s as t)
    (hs : P s) (ht : ¬ P t) :
    ∃ pre a post u v, as = pre ++ a :: post ∧ Trace step s pre u ∧ P u ∧ step u a v ∧ ¬ P v ∧
      Trace step v post t := by
  induction h with
  | nil => exact absurd hs ht
  | @cons s v t a as head tail ih =>
    by_cases hv : P v
    · obtain ⟨pre, b, post, u, w, has, hpre, hu, hb, hw, hpost⟩ := ih hv ht
      exact ⟨a :: pre, b, post, u, w, by simp [has], cons head hpre, hu, hb, hw, hpost⟩
    · exact ⟨[], a, as, s, v, rfl, nil s, hs, head, hv, tail⟩

theorem mono {step' : σ → α → σ → Prop} (hstep : ∀ s a t, step s a t → step' s a t) {s t : σ}
    {as : List α} (h : Trace step s as t) : Trace step' s as t := by
  induction h with
  | nil => exact nil _
  | cons head _ ih => exact cons (hstep _ _ _ head) ih

theorem of_restricted {ok : σ → α → Prop} {s t : σ} {as : List α}
    (h : Trace (fun s a t => ok s a ∧ step s a t) s as t) : Trace step s as t :=
  h.mono fun _ _ _ hs => hs.2

/-- A run of a partial step function that can be evaluated is a run of its graph. -/
theorem of_foldlM {f : σ → α → Option σ} {s t : σ} {as : List α} (h : as.foldlM f s = some t) :
    Trace (fun s a t => f s a = some t) s as t := by
  induction as generalizing s with
  | nil =>
    obtain rfl : s = t := Option.some.inj h
    exact nil s
  | cons a as ih =>
    rw [List.foldlM_cons] at h
    obtain ⟨u, hu, hrest⟩ := Option.bind_eq_some_iff.mp h
    exact cons hu (ih hrest)

theorem exists_of_foldlM (f : σ → α → Option σ) (s : σ) (as : List α) (test : σ → Bool)
    (h : (as.foldlM f s).any test = true) :
    ∃ t, Trace (fun s a t => f s a = some t) s as t ∧ test t = true := by
  obtain ⟨t, ht, htest⟩ := (Option.any_eq_true _ _).mp h
  exact ⟨t, of_foldlM ht, htest⟩

theorem exists_of_guarded (f : σ → α → Option σ) (ok : σ → α → Prop) [∀ s a, Decidable (ok s a)]
    (s : σ) (as : List α) (test : σ → Bool)
    (h : (as.foldlM (fun s a => if ok s a then f s a else none) s).any test = true) :
    ∃ t, Trace (fun s a t => ok s a ∧ f s a = some t) s as t ∧ test t = true := by
  obtain ⟨t, htrace, htest⟩ := exists_of_foldlM _ s as test h
  refine ⟨t, htrace.mono fun s a t hs => ?_, htest⟩
  by_cases hok : ok s a
  · rw [if_pos hok] at hs
    exact ⟨hok, hs⟩
  · rw [if_neg hok] at hs
    cases hs

end Trace

/-- Some label satisfies `P`, and no label after it satisfies `Q`. -/
def Since (P Q : α → Prop) (as : List α) : Prop :=
  ∃ pre a post, as = pre ++ a :: post ∧ P a ∧ ∀ b ∈ post, ¬ Q b

theorem Since.of_snoc {P Q : α → Prop} {as : List α} {b : α} (h : Since P Q (as ++ [b])) :
    P b ∨ (Since P Q as ∧ ¬ Q b) := by
  obtain ⟨pre, a, post, heq, ha, hpost⟩ := h
  rcases List.eq_nil_or_concat post with rfl | ⟨post, c, rfl⟩
  · obtain ⟨-, hba⟩ := List.append_inj' heq rfl
    obtain rfl := List.singleton_inj.mp hba
    exact .inl ha
  · rw [List.concat_eq_append, ← List.cons_append, ← List.append_assoc] at heq
    obtain ⟨rfl, hbc⟩ := List.append_inj' heq rfl
    obtain rfl := List.singleton_inj.mp hbc
    refine .inr ⟨⟨pre, a, post, rfl, ha, fun x hx => hpost x ?_⟩, hpost b ?_⟩
    · simp [hx]
    · simp

section Machine

variable {ε : Type*} (next : σ → α → σ × Option ε)

/-- The state after a list of inputs, and the outputs in order. -/
def runMachine (s : σ) : List α → σ × List ε
  | [] => (s, [])
  | a :: as =>
    let r := next s a
    let rest := runMachine r.1 as
    (rest.1, r.2.toList ++ rest.2)

theorem runMachine_snoc (s : σ) (as : List α) (a : α) :
    runMachine next s (as ++ [a]) =
      ((next (runMachine next s as).1 a).1,
        (runMachine next s as).2 ++ (next (runMachine next s as).1 a).2.toList) := by
  induction as generalizing s with
  | nil => simp [runMachine]
  | cons b as ih =>
    simp only [List.cons_append, runMachine]
    rw [ih]
    simp

/-- The invariant rule for a machine: the outputs so far may occur in the invariant. -/
theorem runMachine_invariant {I : List ε → σ → Prop} {s₀ : σ} (h₀ : I [] s₀)
    (hnext : ∀ es s a, I es s → I (es ++ (next s a).2.toList) (next s a).1) (as : List α) :
    I (runMachine next s₀ as).2 (runMachine next s₀ as).1 := by
  induction as using List.reverseRecOn with
  | nil => exact h₀
  | append_singleton as a ih =>
    rw [runMachine_snoc]
    exact hnext _ _ _ ih

end Machine

end Lzamp.Lib
