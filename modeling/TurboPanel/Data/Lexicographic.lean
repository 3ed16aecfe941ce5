import Mathlib

/-!
# Words in alphabetical order

Words are compared letter by letter. Of two words with first parts of one length, the first parts
decide, unless they are equal.
-/

namespace TurboPanel.Lexicographic

open List

variable {α : Type*} [LinearOrder α]

variable {a b : List α}

theorem append_lt_append_iff (h : a.length = b.length) (s t : List α) :
    a ++ s < b ++ t ↔ a < b ∨ a = b ∧ s < t := by
  induction a generalizing b with
  | nil =>
    obtain rfl := length_eq_zero_iff.1 h.symm
    simp
  | cons x a ih =>
    cases b with
    | nil => exact absurd h (Nat.succ_ne_zero _)
    | cons y b =>
      have hlength : a.length = b.length := Nat.succ.inj h
      rw [cons_append, cons_append, cons_lt_cons_iff, cons_lt_cons_iff, ih hlength,
        List.cons.injEq]
      tauto

variable {s t : List α}

theorem le_of_append_le (h : a.length = b.length) (hle : a ++ s ≤ b ++ t) : a ≤ b := by
  by_contra hlt
  exact absurd ((append_lt_append_iff h.symm t s).2 (.inl (not_le.1 hlt))) (not_lt.2 hle)

theorem append_lt_append (h : a.length = b.length) (hlt : a < b) (s t : List α) : a ++ s < b ++ t :=
  (append_lt_append_iff h s t).2 (.inl hlt)

theorem append_left_lt_iff : a ++ s < a ++ t ↔ s < t := by
  rw [append_lt_append_iff rfl, or_iff_right (lt_irrefl a), and_iff_right rfl]

theorem append_left_le_iff : a ++ s ≤ a ++ t ↔ s ≤ t := by
  rw [← not_lt, ← not_lt, append_left_lt_iff]

theorem append_cons_lt (a : List α) {x y : α} (h : x < y) (s t : List α) : a ++ x :: s < a ++ y :: t :=
  append_left_lt_iff.2 (cons_lt_cons_iff.2 (.inl h))

end TurboPanel.Lexicographic
