import Mathlib.Data.List.Basic

namespace Lzamp.Lib.Matching

variable {α β : Type}

section Literal

variable [DecidableEq α]

/-- The word `w`. -/
def lit : List α → List α → (List α → Option β) → Option β
  | [], s, k => k s
  | _ :: _, [], _ => none
  | c :: w, d :: s, k => if c = d then lit w s k else none

@[simp] theorem lit_append (w s : List α) (k : List α → Option β) : lit w (w ++ s) k = k s := by
  induction w with
  | nil => rfl
  | cons c w ih => simp [lit, ih]

theorem lit_eq_some {w s : List α} {k : List α → Option β} {b : β} :
    lit w s k = some b ↔ ∃ t, s = w ++ t ∧ k t = some b := by
  induction w generalizing s with
  | nil => simp [lit]
  | cons c w ih =>
    cases s with
    | nil => simp [lit]
    | cons d s =>
      simp only [lit, List.cons_append, List.cons.injEq]
      split_ifs with h
      · simp [ih, h]
      · simp [Ne.symm h]

end Literal

/-- `p*`.  The continuation is given what was taken and what is left, and the next choice is tried
when it fails, as a backtracking engine does. -/
def greedy (p : α → Bool) : List α → (List α → List α → Option β) → Option β
  | [], k => k [] []
  | c :: s, k =>
    if p c then (greedy p s fun got rest => k (c :: got) rest) <|> k [] (c :: s)
    else k [] (c :: s)

/-- `.*?`. -/
def reluctant : List α → (List α → List α → Option β) → Option β
  | [], k => k [] []
  | c :: s, k => k [] (c :: s) <|> reluctant s fun got rest => k (c :: got) rest

theorem greedy_of_head {p : α → Bool} {k : List α → List α → Option β} {s : List α}
    (h : ∀ c ∈ s.head?, p c = false) : greedy p s k = k [] s := by
  cases s with
  | nil => rfl
  | cons c s =>
    have hc : ¬ p c = true := by simpa using h c rfl
    rw [greedy, if_neg hc]

theorem exists_of_greedy {p : α → Bool} {k : List α → List α → Option β} {s : List α} {b : β}
    (h : greedy p s k = some b) :
    ∃ got rest, s = got ++ rest ∧ (∀ c ∈ got, p c = true) ∧ k got rest = some b := by
  induction s generalizing k with
  | nil => exact ⟨[], [], rfl, by simp, h⟩
  | cons c s ih =>
    rw [greedy] at h
    split_ifs at h with hc
    · cases hmore : greedy p s fun got rest => k (c :: got) rest with
      | none =>
        rw [hmore] at h
        exact ⟨[], c :: s, rfl, by simp, h⟩
      | some b' =>
        rw [hmore] at h
        obtain rfl : b' = b := Option.some.inj h
        obtain ⟨got, rest, rfl, hall, hk⟩ := ih hmore
        refine ⟨c :: got, rest, rfl, ?_, hk⟩
        simpa [hc] using hall
    · exact ⟨[], c :: s, rfl, by simp, h⟩

theorem greedy_eq {p : α → Bool} {k : List α → List α → Option β}
    (hk : ∀ got c rest, p c = true → k got (c :: rest) = none) (s : List α) :
    greedy p s k = k (s.takeWhile p) (s.dropWhile p) := by
  induction s generalizing k with
  | nil => rfl
  | cons c s ih =>
    rw [greedy]
    split_ifs with hc
    · rw [ih fun got d rest hd => hk (c :: got) d rest hd, hk [] c s hc,
        List.takeWhile_cons_of_pos hc, List.dropWhile_cons_of_pos hc]
      cases k (c :: s.takeWhile p) (s.dropWhile p) <;> rfl
    · rw [List.takeWhile_cons_of_neg hc, List.dropWhile_cons_of_neg hc]

/-- A reluctant repetition stops at the first place where the continuation succeeds. -/
theorem reluctant_eq {k : List α → List α → Option β} {got rest : List α} {b : β}
    (hb : k got rest = some b)
    (hfirst : ∀ got' more, more ≠ [] → got = got' ++ more → k got' (more ++ rest) = none) :
    reluctant (got ++ rest) k = some b := by
  induction got generalizing k with
  | nil => cases rest <;> simp_all [reluctant]
  | cons c got ih =>
    have hnone : k [] (c :: got ++ rest) = none := hfirst [] (c :: got) (by simp) rfl
    have hrest := ih hb fun got' more hmore h => hfirst (c :: got') more hmore (by simp [h])
    rw [List.cons_append] at hnone ⊢
    rw [reluctant, hnone, hrest]
    rfl

theorem exists_of_reluctant {k : List α → List α → Option β} {s : List α} {b : β}
    (h : reluctant s k = some b) : ∃ got rest, s = got ++ rest ∧ k got rest = some b := by
  induction s generalizing k with
  | nil => exact ⟨[], [], rfl, h⟩
  | cons c s ih =>
    rw [reluctant] at h
    cases hhere : k [] (c :: s) with
    | some b' =>
      rw [hhere] at h
      exact ⟨[], c :: s, rfl, hhere.trans h⟩
    | none =>
      rw [hhere] at h
      obtain ⟨got, rest, rfl, hk⟩ := ih h
      exact ⟨c :: got, rest, rfl, hk⟩

/-- The leftmost match of `m`, with what was passed over before it. -/
def search (m : List α → Option (β × List α)) : List α → Option (List α × β × List α)
  | [] => (m []).map fun r => ([], r.1, r.2)
  | c :: s =>
    match m (c :: s) with
    | some r => some ([], r.1, r.2)
    | none => (search m s).map fun r => (c :: r.1, r.2.1, r.2.2)

/-- The first `n` matches from left to right, each with what was passed over before it, and what is
left after them. -/
def findAll (m : List α → Option (β × List α)) : ℕ → List α → List (List α × β) × List α
  | 0, s => ([], s)
  | n + 1, s =>
    match search m s with
    | none => ([], s)
    | some (gap, b, rest) => ((gap, b) :: (findAll m n rest).1, (findAll m n rest).2)

theorem search_eq_of_match {m : List α → Option (β × List α)} {s rest : List α} {b : β}
    (h : m s = some (b, rest)) : search m s = some ([], b, rest) := by
  cases s with
  | nil => simp [search, h]
  | cons c s => simp [search, h]

theorem length_search {m : List α → Option (β × List α)}
    (hm : ∀ s b rest, m s = some (b, rest) → rest.length < s.length) {s gap rest : List α} {b : β}
    (h : search m s = some (gap, b, rest)) : rest.length < s.length := by
  induction s generalizing gap with
  | nil =>
    simp only [search, Option.map_eq_some_iff] at h
    obtain ⟨r, hr, heq⟩ := h
    simp only [Prod.mk.injEq] at heq
    exact heq.2.2 ▸ hm _ _ _ hr
  | cons c s ih =>
    rw [search] at h
    split at h
    · rename_i r hr
      simp only [Option.some.injEq, Prod.mk.injEq] at h
      exact h.2.2 ▸ hm _ _ _ hr
    · simp only [Option.map_eq_some_iff] at h
      obtain ⟨r, hr, heq⟩ := h
      simp only [Prod.mk.injEq] at heq
      have hsearch : search m s = some (r.1, b, rest) := by rw [hr, ← heq.2.1, ← heq.2.2]
      have hlt := ih hsearch
      rw [List.length_cons]
      omega

theorem search_findAll {m : List α → Option (β × List α)}
    (hm : ∀ s b rest, m s = some (b, rest) → rest.length < s.length) {n : ℕ} {s : List α}
    (hn : s.length < n) : search m (findAll m n s).2 = none := by
  induction n generalizing s with
  | zero => omega
  | succ n ih =>
    rw [findAll]
    split
    · assumption
    · rename_i gap b rest h
      have hlt := length_search hm h
      exact ih (by omega)

end Lzamp.Lib.Matching
