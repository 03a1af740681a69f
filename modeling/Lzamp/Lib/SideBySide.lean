import Mathlib.Data.List.Forall2

namespace Lzamp.Lib
open List

variable {α β : Type*} {R : α → β → Prop} {l : List α} {m : List β} {a : α} {b : β}

theorem forall₂_getElem? (h : Forall₂ R l m) {i : ℕ} (ha : l[i]? = some a) (hb : m[i]? = some b) :
    R a b := by
  induction h generalizing i with
  | nil => cases ha
  | cons hab _ ih =>
    cases i with
    | zero =>
      cases ha
      cases hb
      exact hab
    | succ i => exact ih ha hb

theorem forall₂_concat (h : Forall₂ R l m) (hab : R a b) : Forall₂ R (l ++ [a]) (m ++ [b]) :=
  rel_append h (.cons hab .nil)

theorem forall₂_set (h : Forall₂ R l m) (i : ℕ) (hab : R a b) :
    Forall₂ R (l.set i a) (m.set i b) := by
  induction h generalizing i with
  | nil => exact .nil
  | cons hxy ht ih =>
    cases i with
    | zero => exact .cons hab ht
    | succ i => exact .cons hxy (ih i)

theorem forall₂_set_left (h : Forall₂ R l m) {i : ℕ} (hnew : ∀ b, m[i]? = some b → R a b) :
    Forall₂ R (l.set i a) m := by
  induction h generalizing i with
  | nil => exact .nil
  | cons hxy ht ih =>
    cases i with
    | zero => exact .cons (hnew _ rfl) ht
    | succ i => exact .cons hxy (ih hnew)

theorem forall₂_eraseIdx (h : Forall₂ R l m) (i : ℕ) :
    Forall₂ R (l.eraseIdx i) (m.eraseIdx i) := by
  induction h generalizing i with
  | nil => exact .nil
  | cons hxy ht ih =>
    cases i with
    | zero => exact ht
    | succ i => exact .cons hxy (ih i)

end Lzamp.Lib
