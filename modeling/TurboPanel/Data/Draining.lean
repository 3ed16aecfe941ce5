import Mathlib.Algebra.Order.Ring.Nat
import Mathlib.Data.List.Basic
import Mathlib.Tactic.Push
import Mathlib.Tactic.ByContra
import Mathlib.Logic.Function.Iterate

/-!
# Draining a collection

A step that only ever takes elements away is taken again and again. What is gone stays gone, and was
lost in one of the steps (`exists_lost`). If each step takes something away as long as there is an
element of a kind, the kind is gone in the end (`exists_drained`).
-/

namespace TurboPanel.Draining

open List

variable {α : Type*} {step : List α → List α}

theorem iterate_sublist (hstep : ∀ s, step s <+ s) {m n : ℕ} (h : m ≤ n) (s : List α) : step^[n] s <+ step^[m] s := by
  induction n, h using Nat.le_induction with
  | base => exact List.Sublist.refl _
  | succ n _ ih =>
    rw [Function.iterate_succ_apply']
    exact (hstep _).trans ih

theorem exists_lost {s : List α} {a : α} (hin : a ∈ s) {n : ℕ} (hout : a ∉ step^[n] s) :
    ∃ m < n, a ∈ step^[m] s ∧ a ∉ step^[m + 1] s := by
  induction n with
  | zero => exact absurd hin hout
  | succ n ih =>
    by_cases hmem : a ∈ step^[n] s
    · exact ⟨n, Nat.lt_succ_self n, hmem, hout⟩
    · obtain ⟨m, hm, hlost⟩ := ih hmem
      exact ⟨m, lt_trans hm (Nat.lt_succ_self n), hlost⟩

theorem iterate_invariant {Inv : List α → Prop} (hinv : ∀ s, Inv s → Inv (step s)) {s : List α} (hs : Inv s) (n : ℕ) :
    Inv (step^[n] s) := by
  induction n with
  | zero => exact hs
  | succ n ih =>
    rw [Function.iterate_succ_apply']
    exact hinv _ ih

/-- **A kind of elements is gone in the end**, if each step takes something away as long as there is
one of them. -/
theorem exists_drained {Inv : List α → Prop} {P : α → Prop} (hstep : ∀ s, step s <+ s)
    (hinv : ∀ s, Inv s → Inv (step s))
    (hprogress : ∀ s, Inv s → ∀ a ∈ s, P a → (step s).length < s.length) {s : List α} (hs : Inv s) :
    ∃ n, ∀ m, n ≤ m → ∀ a ∈ step^[m] s, ¬ P a := by
  have hdrained : ∀ (k : ℕ) (s : List α), s.length = k → Inv s → ∃ n, ∀ a ∈ step^[n] s, ¬ P a := by
    intro k
    induction k using Nat.strong_induction_on with
    | _ k ih =>
      intro s hlength hs
      by_cases hnone : ∀ a ∈ s, ¬ P a
      · exact ⟨0, hnone⟩
      · push Not at hnone
        obtain ⟨a, ha, hP⟩ := hnone
        obtain ⟨n, hn⟩ := ih (step s).length (hlength ▸ hprogress s hs a ha hP) (step s) rfl (hinv s hs)
        exact ⟨n + 1, hn⟩
  obtain ⟨n, hn⟩ := hdrained s.length s rfl hs
  exact ⟨n, fun m hm a ha => hn a ((iterate_sublist hstep hm s).subset ha)⟩

end TurboPanel.Draining
