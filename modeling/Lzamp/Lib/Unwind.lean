import Mathlib.Data.List.Basic

namespace Lzamp.Lib

variable {ρ : Type}

/-- `acquire` returns 0 or an error number; `undo` is what the error path makes of the list held. -/
def acquireAll (acquire : ρ → Int) (undo : ρ → List ρ → List ρ) :
    List ρ → List ρ → Int × List ρ
  | held, [] => (0, held)
  | held, r :: rs =>
    if acquire r ≠ 0 then (acquire r, undo r held) else acquireAll acquire undo (held ++ [r]) rs

/-- Either all are taken, or the error path runs for the first that is refused. -/
theorem acquireAll_cases (acquire : ρ → Int) (undo : ρ → List ρ → List ρ) (held rs : List ρ) :
    ((∀ r ∈ rs, acquire r = 0) ∧ acquireAll acquire undo held rs = (0, held ++ rs)) ∨
    ∃ (i : ℕ) (h : i < rs.length), acquire rs[i] ≠ 0 ∧
      acquireAll acquire undo held rs = (acquire rs[i], undo rs[i] (held ++ rs.take i)) := by
  induction rs generalizing held with
  | nil =>
    refine .inl ⟨fun r hr => absurd hr List.not_mem_nil, ?_⟩
    rw [acquireAll, List.append_nil]
  | cons r rs ih =>
    by_cases hr : acquire r = 0
    · have hnext : acquireAll acquire undo held (r :: rs) =
          acquireAll acquire undo (held ++ [r]) rs := by
        rw [acquireAll, if_neg (not_not.mpr hr)]
      rcases ih (held ++ [r]) with ⟨hall, heq⟩ | ⟨i, hi, hne, heq⟩
      · refine .inl ⟨List.forall_mem_cons.mpr ⟨hr, hall⟩, ?_⟩
        rw [hnext, heq, List.append_assoc]
        rfl
      · refine .inr ⟨i + 1, Nat.succ_lt_succ hi, hne, ?_⟩
        rw [hnext, heq, List.append_assoc]
        rfl
    · refine .inr ⟨0, Nat.zero_lt_succ _, hr, ?_⟩
      rw [acquireAll, if_pos hr, List.take_zero, List.append_nil]
      rfl

theorem acquireAll_undone {acquire : ρ → Int} {undo : ρ → List ρ → List ρ} {held rs base : List ρ}
    (hundo : ∀ (i : ℕ) (h : i < rs.length), undo rs[i] (held ++ rs.take i) = base) :
    ((∀ r ∈ rs, acquire r = 0) ∧ acquireAll acquire undo held rs = (0, held ++ rs)) ∨
    ((∃ r ∈ rs, acquire r ≠ 0) ∧ (acquireAll acquire undo held rs).1 ≠ 0 ∧
      (acquireAll acquire undo held rs).2 = base) := by
  rcases acquireAll_cases acquire undo held rs with hall | ⟨i, hi, hne, heq⟩
  · exact .inl hall
  · refine .inr ⟨⟨rs[i], List.getElem_mem hi, hne⟩, ?_, ?_⟩
    · rw [heq]
      exact hne
    · rw [heq]
      exact hundo i hi

end Lzamp.Lib
