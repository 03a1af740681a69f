import Mathlib.Order.Basic

namespace Lzamp.Lib

variable {σ β : Type*}

/-- The loop from round `i` on; `none` when it has not been left within the fuel. -/
def cutLoop (round : ℕ → σ → σ ⊕ β) : ℕ → ℕ → σ → Option β
  | 0, _, _ => none
  | fuel + 1, i, s =>
    match round i s with
    | .inl s => cutLoop round fuel (i + 1) s
    | .inr b => some b

/-- The rule of the loop: what the rounds that go on keep, and what the last one makes of it. -/
theorem cutLoop_rule {round : ℕ → σ → σ ⊕ β} {P : σ → Prop} {Q : β → Prop}
    (hagain : ∀ i s s', P s → round i s = .inl s' → P s')
    (hleave : ∀ i s b, P s → round i s = .inr b → Q b) {fuel i : ℕ} {s : σ} {b : β} (hs : P s)
    (h : cutLoop round fuel i s = some b) : Q b := by
  induction fuel generalizing i s with
  | zero => cases h
  | succ fuel ih =>
    rw [cutLoop] at h
    cases hround : round i s with
    | inl s' =>
      rw [hround] at h
      exact ih (hagain i s s' hs hround) h
    | inr b' =>
      rw [hround] at h
      cases h
      exact hleave i s b hs hround

/-- Round `k` leaves without its item if `idle k`, with it if `ends k`, and goes on otherwise.
`At k` are the states in which `k` items have been taken, and `done j` the results after `j`
items. -/
structure Consumes (round : ℕ → σ → σ ⊕ β) (At : ℕ → σ → Prop) (idle ends : ℕ → Prop)
    (done : ℕ → β → Prop) : Prop where
  rests : ∀ k s, At k s → idle k → ∃ b, round k s = .inr b ∧ done k b
  leaves : ∀ k s, At k s → ¬ idle k → ends k → ∃ b, round k s = .inr b ∧ done (k + 1) b
  again : ∀ k s, At k s → ¬ idle k → ¬ ends k → ∃ s', round k s = .inl s' ∧ At (k + 1) s'

namespace Consumes

variable {round : ℕ → σ → σ ⊕ β} {At : ℕ → σ → Prop} {idle ends : ℕ → Prop}
  {done : ℕ → β → Prop}

theorem eq_none (h : Consumes round At idle ends done) {fuel i : ℕ} {s : σ} (hs : At i s)
    (hnever : ∀ k, i ≤ k → k < i + fuel → ¬ idle k ∧ ¬ ends k) :
    cutLoop round fuel i s = none := by
  induction fuel generalizing i s with
  | zero => rfl
  | succ fuel ih =>
    obtain ⟨hidle, hends⟩ := hnever i (Nat.le_refl i) (by omega)
    obtain ⟨s', hround, hs'⟩ := h.again i s hs hidle hends
    have hrest := ih hs' fun k hk hlt => hnever k (by omega) (by omega)
    rw [cutLoop, hround]
    exact hrest

theorem exists_some (h : Consumes round At idle ends done) {fuel i k : ℕ} {s : σ} (hs : At i s)
    (hi : i ≤ k) (hk : k < i + fuel) (hstop : idle k ∨ ends k) :
    ∃ b, cutLoop round fuel i s = some b ∧ ∃ j, i ≤ j ∧ j ≤ k ∧
      (idle j ∧ done j b ∨ ¬ idle j ∧ ends j ∧ done (j + 1) b) := by
  induction fuel generalizing i s with
  | zero => omega
  | succ fuel ih =>
    by_cases hidle : idle i
    · obtain ⟨b, hround, hdone⟩ := h.rests i s hs hidle
      refine ⟨b, ?_, i, Nat.le_refl i, hi, .inl ⟨hidle, hdone⟩⟩
      rw [cutLoop, hround]
    · by_cases hends : ends i
      · obtain ⟨b, hround, hdone⟩ := h.leaves i s hs hidle hends
        refine ⟨b, ?_, i, Nat.le_refl i, hi, .inr ⟨hidle, hends, hdone⟩⟩
        rw [cutLoop, hround]
      · obtain ⟨s', hround, hs'⟩ := h.again i s hs hidle hends
        have hne : i ≠ k := by
          rintro rfl
          exact hstop.elim hidle hends
        obtain ⟨b, hloop, j, hij, hjk, hj⟩ := ih hs' (by omega) (by omega)
        refine ⟨b, ?_, j, by omega, hjk, hj⟩
        rw [cutLoop, hround]
        exact hloop

theorem done_of_eq_some (h : Consumes round At idle ends done) {fuel : ℕ} {s : σ} (hs : At 0 s)
    {b : β} (hb : cutLoop round fuel 0 s = some b) : ∃ j ≤ fuel, done j b := by
  by_cases hstop : ∃ k < fuel, idle k ∨ ends k
  · obtain ⟨k, hk, hstop⟩ := hstop
    obtain ⟨b', hloop, j, -, hj, hcase⟩ := h.exists_some hs (Nat.zero_le k)
      (by omega : k < 0 + fuel) hstop
    obtain rfl : b = b' := Option.some.inj (hb.symm.trans hloop)
    rcases hcase with ⟨-, hdone⟩ | ⟨-, -, hdone⟩
    · exact ⟨j, by omega, hdone⟩
    · exact ⟨j + 1, by omega, hdone⟩
  · have hnone : cutLoop round fuel 0 s = none := h.eq_none hs fun k _ hk =>
      not_or.mp fun hk' => hstop ⟨k, by omega, hk'⟩
    rw [hnone] at hb
    cases hb

/-- The loop is left with at most `n` items taken exactly if one of the first `n` items ends it or
one of the first `n + 1` rounds is idle. -/
theorem within_iff (h : Consumes round At idle ends done) {s : σ} (hs : At 0 s) {n : ℕ}
    (hdone : ∀ j b, j ≤ n → done j b → ¬ done (n + 1) b) :
    (∃ b, cutLoop round (n + 1) 0 s = some b ∧ ∃ j ≤ n, done j b) ↔
      (∃ k ≤ n, idle k) ∨ ∃ k < n, ends k := by
  constructor
  · rintro ⟨b, hloop, j, hj, hb⟩
    by_contra hnot
    obtain ⟨hidle, hends⟩ := not_or.mp hnot
    have hidle' (k : ℕ) (hk : k ≤ n) : ¬ idle k := fun hi => hidle ⟨k, hk, hi⟩
    have hends' (k : ℕ) (hk : k < n) : ¬ ends k := fun he => hends ⟨k, hk, he⟩
    by_cases hlast : ends n
    · obtain ⟨b', hloop', k, -, hk, hcase⟩ := h.exists_some hs (Nat.zero_le n)
        (by omega : n < 0 + (n + 1)) (.inr hlast)
      obtain rfl : b = b' := Option.some.inj (hloop.symm.trans hloop')
      rcases hcase with ⟨hi, -⟩ | ⟨-, he, hb'⟩
      · exact hidle' k hk hi
      · obtain rfl : k = n := by
          by_contra hne
          exact hends' k (by omega) he
        exact hdone j b hj hb hb'
    · have hnone : cutLoop round (n + 1) 0 s = none := h.eq_none hs fun k _ hk => by
        refine ⟨hidle' k (by omega), fun he => ?_⟩
        obtain rfl | hlt := Nat.eq_or_lt_of_le (by omega : k ≤ n)
        · exact hlast he
        · exact hends' k hlt he
      rw [hnone] at hloop
      cases hloop
  · rintro (⟨k, hk, hi⟩ | ⟨k, hk, he⟩)
    · obtain ⟨b, hloop, j, -, hj, hcase⟩ := h.exists_some hs (Nat.zero_le k)
        (by omega : k < 0 + (n + 1)) (.inl hi)
      rcases hcase with ⟨-, hb⟩ | ⟨hj', -, hb⟩
      · exact ⟨b, hloop, j, by omega, hb⟩
      · have hne : j ≠ k := by
          rintro rfl
          exact hj' hi
        exact ⟨b, hloop, j + 1, by omega, hb⟩
    · obtain ⟨b, hloop, j, -, hj, hcase⟩ := h.exists_some hs (Nat.zero_le k)
        (by omega : k < 0 + (n + 1)) (.inr he)
      rcases hcase with ⟨-, hb⟩ | ⟨-, -, hb⟩
      · exact ⟨b, hloop, j, by omega, hb⟩
      · exact ⟨b, hloop, j + 1, by omega, hb⟩

end Consumes

end Lzamp.Lib
