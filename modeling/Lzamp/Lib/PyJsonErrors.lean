import Lzamp.Lib.PyJson

namespace Lzamp.Lib.PyJson
open PyText Matching

variable (py : Interpreter)

/-- Scanning items from `s` on, the scanner comes to the item at `t`. -/
inductive ElementAt : Str → Str → Prop
  | here (s : Str) : ElementAt s s
  | next {s rest t u : Str} {value : Json} (hvalue : scanValue py s = .ok (value, rest))
      (hcomma : delimiter ']' rest = .comma t) (h : ElementAt t u) : ElementAt s u

/-- Scanning members from `s` on, the scanner comes to the value at `t`. -/
inductive MemberAt : Str → Str → Prop
  | here {s key t : Str} (hkey : scanKey s = some (key, t)) : MemberAt s t
  | next {s key t rest u v : Str} {value : Json} (hkey : scanKey s = some (key, t))
      (hvalue : scanValue py t = .ok (value, rest)) (hcomma : delimiter '}' rest = .comma u)
      (h : MemberAt u v) : MemberAt s v

/-- Scanning the value at `s`, the scanner comes to the value at `t`. -/
inductive ValueAt : Str → Str → Prop
  | here (s : Str) : ValueAt s s
  | inArray {s t u v : Str} (hopen : expect '[' s = some t)
      (hitems : expect ']' (skipWs t) = none) (helement : ElementAt py (skipWs t) u)
      (h : ValueAt u v) : ValueAt s v
  | inObject {s t u v : Str} (hopen : expect '{' s = some t)
      (hitems : expect '}' (skipWs t) = none) (hmember : MemberAt py (skipWs t) u)
      (h : ValueAt u v) : ValueAt s v

/-- The text starts with an integer that `int` refuses. -/
def LongInteger (s : Str) : Prop :=
  ∃ number rest, scanNumber s = some (number, rest) ∧ number.TooLong py

/-- The scanner comes to such an integer. -/
def MeetsLongInteger (s : Str) : Prop := ∃ t, ValueAt py s t ∧ LongInteger py t

variable {py}

theorem scanNumber_of_expect {c : Char} (hc : c ∈ ['"', '{', '[']) {s t : Str}
    (h : expect c s = some t) : scanNumber s = none := by
  rw [expect_eq_some.mp h]
  simp only [List.mem_cons, List.not_mem_nil, or_false] at hc
  rcases hc with rfl | rfl | rfl <;> rfl

theorem scanNumber_of_constant {s : Str} {r : Json × Str} (h : scanConstant s = some r) :
    scanNumber s = none := by
  obtain ⟨c, hc, hr⟩ := List.exists_of_findSome?_eq_some h
  obtain ⟨t, rfl, -⟩ := lit_eq_some.mp hr
  simp only [constants, List.mem_cons, List.not_mem_nil, or_false] at hc
  rcases hc with rfl | rfl | rfl | rfl | rfl | rfl <;> rfl

theorem not_longInteger_of_scanNumber {s : Str} (h : scanNumber s = none) : ¬ LongInteger py s := by
  rintro ⟨number, rest, hnumber, -⟩
  rw [h] at hnumber
  cases hnumber

theorem pure_ne_valueError {α : Type} (a : α) :
    (pure a : Except JsonError α) ≠ .error .valueError := by
  intro h
  cases h

theorem decodeError_ne_valueError {α : Type} :
    (throw .decodeError : Except JsonError α) ≠ .error .valueError := by
  intro h
  cases h

theorem scanLeaf_eq_valueError {s : Str} :
    scanLeaf py s = .error .valueError ↔ LongInteger py s := by
  unfold scanLeaf
  split
  · rename_i r hr
    exact iff_of_false (pure_ne_valueError r)
      (not_longInteger_of_scanNumber (scanNumber_of_constant hr))
  split
  · rename_i hnumber
    exact iff_of_false decodeError_ne_valueError (not_longInteger_of_scanNumber hnumber)
  · rename_i number rest hnumber
    have hlong : LongInteger py s ↔ number.TooLong py := by
      constructor
      · rintro ⟨number', rest', hnumber', hlong⟩
        cases hnumber.symm.trans hnumber'
        exact hlong
      · exact fun h => ⟨number, rest, hnumber, h⟩
    rw [hlong]
    unfold NumberText.toJson
    split_ifs with hlong' htail
    · exact iff_of_true rfl hlong'
    · exact iff_of_false (pure_ne_valueError _) hlong'
    · exact iff_of_false (pure_ne_valueError _) hlong'

theorem expect_unique {c d : Char} {s t u : Str} (h : expect c s = some t)
    (h' : expect d s = some u) : ch c = ch d ∧ t = u := by
  have heq := (expect_eq_some.mp h).symm.trans (expect_eq_some.mp h')
  exact List.cons.inj heq

theorem meets_of_string {s t : Str} (h : expect '"' s = some t) : ¬ MeetsLongInteger py s := by
  rintro ⟨u, hu, hlong⟩
  cases hu with
  | here => exact not_longInteger_of_scanNumber (scanNumber_of_expect (by decide) h) hlong
  | inArray hopen => exact absurd (expect_unique h hopen).1 (by decide)
  | inObject hopen => exact absurd (expect_unique h hopen).1 (by decide)

theorem meets_of_object {s t : Str} (h : expect '{' s = some t) :
    MeetsLongInteger py s ↔ expect '}' (skipWs t) = none ∧
      ∃ u, MemberAt py (skipWs t) u ∧ MeetsLongInteger py u := by
  constructor
  · rintro ⟨v, hv, hlong⟩
    cases hv with
    | here =>
      exact absurd hlong (not_longInteger_of_scanNumber (scanNumber_of_expect (by decide) h))
    | inArray hopen => exact absurd (expect_unique h hopen).1 (by decide)
    | inObject hopen hitems hmember hv =>
      obtain ⟨-, rfl⟩ := expect_unique h hopen
      exact ⟨hitems, _, hmember, v, hv, hlong⟩
  · rintro ⟨hitems, u, hmember, v, hv, hlong⟩
    exact ⟨v, .inObject h hitems hmember hv, hlong⟩

theorem meets_of_array {s t : Str} (h : expect '[' s = some t) :
    MeetsLongInteger py s ↔ expect ']' (skipWs t) = none ∧
      ∃ u, ElementAt py (skipWs t) u ∧ MeetsLongInteger py u := by
  constructor
  · rintro ⟨v, hv, hlong⟩
    cases hv with
    | here =>
      exact absurd hlong (not_longInteger_of_scanNumber (scanNumber_of_expect (by decide) h))
    | inArray hopen hitems helement hv =>
      obtain ⟨-, rfl⟩ := expect_unique h hopen
      exact ⟨hitems, _, helement, v, hv, hlong⟩
    | inObject hopen => exact absurd (expect_unique h hopen).1 (by decide)
  · rintro ⟨hitems, u, helement, v, hv, hlong⟩
    exact ⟨v, .inArray h hitems helement hv, hlong⟩

theorem meets_of_leaf {s : Str} (hobject : expect '{' s = none) (harray : expect '[' s = none) :
    MeetsLongInteger py s ↔ LongInteger py s := by
  constructor
  · rintro ⟨v, hv, hlong⟩
    cases hv with
    | here => exact hlong
    | inArray hopen =>
      rw [harray] at hopen
      cases hopen
    | inObject hopen =>
      rw [hobject] at hopen
      cases hopen
  · exact fun h => ⟨s, .here s, h⟩

/-- With fuel `n`, a scan raises the plain ValueError exactly where it comes to a long integer. -/
structure ErrorsWithin (py : Interpreter) (n : ℕ) : Prop where
  once : ∀ s, 2 * s.length < n → (scanOnce py n s = .error .valueError ↔ MeetsLongInteger py s)
  elements : ∀ s items, 2 * s.length + 1 < n → (scanElements py n s items = .error .valueError ↔
    ∃ t, ElementAt py s t ∧ MeetsLongInteger py t)
  members : ∀ s fields, 2 * s.length + 1 < n → (scanMembers py n s fields = .error .valueError ↔
    ∃ t, MemberAt py s t ∧ MeetsLongInteger py t)

namespace ErrorsWithin

variable {n : ℕ}

theorem inside {c : Char} {s t : Str} (h : expect c s = some t) (hn : 2 * s.length < n + 1) :
    2 * (skipWs t).length + 1 < n := by
  have hlt := length_of_expect h
  have hws := length_skipWs_le t
  omega

theorem once_succ (h : ErrorsWithin py n) (s : Str) (hn : 2 * s.length < n + 1) :
    scanOnce py (n + 1) s = .error .valueError ↔ MeetsLongInteger py s := by
  rw [scanOnce]
  split
  · rename_i t ht
    refine iff_of_false ?_ (meets_of_string ht)
    split
    · exact decodeError_ne_valueError
    · exact pure_ne_valueError _
  split
  · rename_i t ht
    rw [meets_of_object ht]
    split
    · rename_i hclose
      refine iff_of_false (pure_ne_valueError _) fun hmeets => ?_
      rw [hclose] at hmeets
      cases hmeets.1
    · rename_i hclose
      rw [h.members _ _ (inside ht hn)]
      exact (and_iff_right hclose).symm
  rename_i hobject
  split
  · rename_i t ht
    rw [meets_of_array ht]
    split
    · rename_i hclose
      refine iff_of_false (pure_ne_valueError _) fun hmeets => ?_
      rw [hclose] at hmeets
      cases hmeets.1
    · rename_i hclose
      rw [h.elements _ _ (inside ht hn)]
      exact (and_iff_right hclose).symm
  · rename_i harray
    rw [scanLeaf_eq_valueError, meets_of_leaf hobject harray]

theorem elements_succ (h : ErrorsWithin py n) (s : Str) (items : List Json)
    (hn : 2 * s.length + 1 < n + 1) :
    scanElements py (n + 1) s items = .error .valueError ↔
      ∃ t, ElementAt py s t ∧ MeetsLongInteger py t := by
  rw [scanElements, bind_eq_error, h.once s (by omega)]
  constructor
  · rintro (hmeets | ⟨⟨value, rest⟩, hvalue, hrest⟩)
    · exact ⟨s, .here s, hmeets⟩
    · have hlt : rest.length < s.length := (length_scan py n).1 _ _ hvalue
      rw [scanOnce_eq_scanValue (by omega)] at hvalue
      dsimp only at hrest
      split at hrest
      · cases hrest
      · rename_i hcomma
        have := length_of_comma hcomma
        obtain ⟨t, ht, hlong⟩ := (h.elements _ _ (by omega)).mp hrest
        exact ⟨t, .next hvalue hcomma ht, hlong⟩
      · cases hrest
  · rintro ⟨t, ht, hlong⟩
    cases ht with
    | here => exact .inl hlong
    | next hvalue hcomma ht =>
      rename_i rest u value
      rw [← scanOnce_eq_scanValue (n := n) (by omega)] at hvalue
      have hlt : rest.length < s.length := (length_scan py n).1 _ _ hvalue
      have := length_of_comma hcomma
      refine .inr ⟨_, hvalue, ?_⟩
      dsimp only
      rw [hcomma]
      exact (h.elements _ _ (by omega)).mpr ⟨t, ht, hlong⟩

theorem members_succ (h : ErrorsWithin py n) (s : Str) (fields : List (Str × Json))
    (hn : 2 * s.length + 1 < n + 1) :
    scanMembers py (n + 1) s fields = .error .valueError ↔
      ∃ t, MemberAt py s t ∧ MeetsLongInteger py t := by
  rw [scanMembers]
  split
  · rename_i hkey
    refine iff_of_false decodeError_ne_valueError ?_
    rintro ⟨t, ht, -⟩
    cases ht with
    | here hkey' => cases hkey.symm.trans hkey'
    | next hkey' => cases hkey.symm.trans hkey'
  rename_i key t hkey
  have hshort := length_scanKey hkey
  rw [bind_eq_error, h.once t (by omega)]
  constructor
  · rintro (hmeets | ⟨⟨value, rest⟩, hvalue, hrest⟩)
    · exact ⟨t, .here hkey, hmeets⟩
    · have hlt : rest.length < t.length := (length_scan py n).1 _ _ hvalue
      rw [scanOnce_eq_scanValue (by omega)] at hvalue
      dsimp only at hrest
      split at hrest
      · cases hrest
      · rename_i hcomma
        have := length_of_comma hcomma
        obtain ⟨u, hu, hlong⟩ := (h.members _ _ (by omega)).mp hrest
        exact ⟨u, .next hkey hvalue hcomma hu, hlong⟩
      · cases hrest
  · rintro ⟨u, hu, hlong⟩
    cases hu with
    | here hkey' =>
      cases hkey.symm.trans hkey'
      exact .inl hlong
    | next hkey' hvalue hcomma hu =>
      cases hkey.symm.trans hkey'
      rename_i rest v value
      rw [← scanOnce_eq_scanValue (n := n) (by omega)] at hvalue
      have hlt : rest.length < t.length := (length_scan py n).1 _ _ hvalue
      have := length_of_comma hcomma
      refine .inr ⟨_, hvalue, ?_⟩
      dsimp only
      rw [hcomma]
      exact (h.members _ _ (by omega)).mpr ⟨u, hu, hlong⟩

end ErrorsWithin

theorem errorsWithin (n : ℕ) : ErrorsWithin py n := by
  induction n with
  | zero =>
    refine ⟨fun s hn => ?_, fun s items hn => ?_, fun s fields hn => ?_⟩
    · omega
    · omega
    · omega
  | succ n ih => exact ⟨ih.once_succ, ih.elements_succ, ih.members_succ⟩

/-- When `loads` raises the plain ValueError. -/
theorem loads_eq_valueError {s : Str} :
    loads py s = .error .valueError ↔
      s.head? ≠ some 0xfeff ∧ MeetsLongInteger py (skipWs s) := by
  unfold loads
  split_ifs with hbom
  · exact iff_of_false decodeError_ne_valueError fun h => h.1 hbom
  · rw [bind_eq_error, ← (errorsWithin _).once _ (Nat.lt_succ_self _)]
    constructor
    · rintro (h | ⟨⟨value, rest⟩, -, h⟩)
      · exact ⟨hbom, h⟩
      · dsimp only at h
        split_ifs at h
        · cases h
        · cases h
    · exact fun h => .inl h.2

end Lzamp.Lib.PyJson
