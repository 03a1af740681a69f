import Mathlib

namespace Lzamp.Lib

variable {α β : Type*} [LinearOrder β] {key : α → β} {xs : List α} {i : ℕ}

theorem succ_le_countP_le (hsorted : xs.Pairwise fun x y => key x ≤ key y) (hi : i < xs.length) :
    i + 1 ≤ xs.countP fun x => decide (key x ≤ key xs[i]) := by
  have hall : ∀ x ∈ xs.take (i + 1), decide (key x ≤ key xs[i]) = true := by
    intro x hx
    obtain ⟨j, hj, rfl⟩ := List.mem_iff_getElem.mp hx
    rw [List.length_take] at hj
    rw [List.getElem_take, decide_eq_true_eq]
    rcases Nat.lt_or_ge j i with hlt | hge
    · exact List.pairwise_iff_getElem.mp hsorted j i _ hi hlt
    · have hji : j = i := by omega
      subst hji
      exact le_rfl
  have hcount := List.countP_eq_length.mpr hall
  rw [List.length_take, Nat.min_eq_left hi] at hcount
  exact hcount.ge.trans (List.take_sublist (i + 1) xs).countP_le

theorem countP_lt_le (hsorted : xs.Pairwise fun x y => key x ≤ key y) (hi : i < xs.length) :
    (xs.countP fun x => decide (key x < key xs[i])) ≤ i := by
  have hnone : (xs.drop i).countP (fun x => decide (key x < key xs[i])) = 0 := by
    rw [List.countP_eq_zero]
    intro x hx
    obtain ⟨j, hj, rfl⟩ := List.mem_iff_getElem.mp hx
    rw [List.getElem_drop, decide_eq_true_eq, not_lt]
    rcases Nat.eq_zero_or_pos j with rfl | hpos
    · exact le_rfl
    · exact List.pairwise_iff_getElem.mp hsorted i (i + j) hi _ (by omega)
  calc xs.countP (fun x => decide (key x < key xs[i]))
      = (xs.take i).countP _ + (xs.drop i).countP _ := by
        rw [← List.countP_append, List.take_append_drop]
    _ ≤ (xs.take i).length + 0 := Nat.add_le_add List.countP_le_length hnone.le
    _ ≤ i := by
        rw [List.length_take]
        omega

end Lzamp.Lib
