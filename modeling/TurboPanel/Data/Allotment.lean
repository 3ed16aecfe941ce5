import Mathlib.Data.List.Basic
import Mathlib.Tactic

/-!
# Units handed out in order

A list of items, each of which may want a unit of one kind, and a number of units of each kind. The
items are served in order: an item takes a unit of its kind while there is one. `unserved` are the
items that get none, and `leftover` the units that nobody took.

The two are known in closed form, kind by kind: what is left over is the number of units less the
number of items that want one (`leftover_eq`), and the unserved items of a kind are the last ones of
it, from the number of units on (`filter_unserved`). With more units of each kind, nobody is
unserved who was served before (`unserved_subset`).
-/

namespace TurboPanel.Allotment

open List

variable {α κ : Type*} [DecidableEq κ] (kind : α → Option κ)

def leftover (units : κ → ℕ) : List α → κ → ℕ
  | [] => units
  | a :: items =>
    match kind a with
    | none => leftover units items
    | some k => if units k = 0 then leftover units items else leftover (Function.update units k (units k - 1)) items

def unserved (units : κ → ℕ) : List α → List α
  | [] => []
  | a :: items =>
    match kind a with
    | none => a :: unserved units items
    | some k =>
      if units k = 0 then a :: unserved units items else unserved (Function.update units k (units k - 1)) items

variable {kind} {units units' : κ → ℕ} {a : α} {k : κ}

theorem leftover_cons_of_none (h : kind a = none) (items : List α) :
    leftover kind units (a :: items) = leftover kind units items := by
  rw [leftover, h]

theorem leftover_cons_of_zero (h : kind a = some k) (hzero : units k = 0) (items : List α) :
    leftover kind units (a :: items) = leftover kind units items := by
  rw [leftover, h]
  exact if_pos hzero

theorem leftover_cons_of_pos (h : kind a = some k) (hpos : units k ≠ 0) (items : List α) :
    leftover kind units (a :: items) = leftover kind (Function.update units k (units k - 1)) items := by
  rw [leftover, h]
  exact if_neg hpos

theorem unserved_cons_of_none (h : kind a = none) (items : List α) :
    unserved kind units (a :: items) = a :: unserved kind units items := by
  rw [unserved, h]

theorem unserved_cons_of_zero (h : kind a = some k) (hzero : units k = 0) (items : List α) :
    unserved kind units (a :: items) = a :: unserved kind units items := by
  rw [unserved, h]
  exact if_pos hzero

theorem unserved_cons_of_pos (h : kind a = some k) (hpos : units k ≠ 0) (items : List α) :
    unserved kind units (a :: items) = unserved kind (Function.update units k (units k - 1)) items := by
  rw [unserved, h]
  exact if_neg hpos

theorem leftover_eq (k : κ) : ∀ (items : List α) (units : κ → ℕ),
    leftover kind units items k = units k - items.countP fun a => decide (kind a = some k)
  | [], units => rfl
  | a :: items, units => by
    cases h : kind a with
    | none =>
      rw [leftover_cons_of_none h, leftover_eq k items units, countP_cons_of_neg (by simp [h])]
    | some k' =>
      by_cases hzero : units k' = 0
      · rw [leftover_cons_of_zero h hzero, leftover_eq k items units]
        by_cases hk : k' = k
        · subst hk
          rw [hzero, Nat.zero_sub, Nat.zero_sub]
        · rw [countP_cons_of_neg (by simp [h, hk])]
      · rw [leftover_cons_of_pos h hzero, leftover_eq k items]
        by_cases hk : k' = k
        · subst hk
          rw [Function.update_self, countP_cons_of_pos (by simp [h])]
          omega
        · rw [Function.update_of_ne (Ne.symm hk), countP_cons_of_neg (by simp [h, hk])]

theorem unserved_sublist : ∀ (items : List α) (units : κ → ℕ), (unserved kind units items).Sublist items
  | [], _ => List.Sublist.refl _
  | a :: items, units => by
    cases h : kind a with
    | none =>
      rw [unserved_cons_of_none h]
      exact (unserved_sublist items units).cons_cons a
    | some k =>
      by_cases hzero : units k = 0
      · rw [unserved_cons_of_zero h hzero]
        exact (unserved_sublist items units).cons_cons a
      · rw [unserved_cons_of_pos h hzero]
        exact (unserved_sublist items _).cons a

/-- **The unserved items of a kind are its last ones.** -/
theorem filter_unserved (k : κ) : ∀ (items : List α) (units : κ → ℕ),
    (unserved kind units items).filter (fun a => decide (kind a = some k)) =
      (items.filter fun a => decide (kind a = some k)).drop (units k)
  | [], _ => by simp [unserved]
  | a :: items, units => by
    cases h : kind a with
    | none =>
      rw [unserved_cons_of_none h, filter_cons_of_neg (by simp [h]), filter_cons_of_neg (by simp [h]),
        filter_unserved k items units]
    | some k' =>
      by_cases hk : k' = k
      · subst hk
        by_cases hzero : units k' = 0
        · rw [unserved_cons_of_zero h hzero, filter_cons_of_pos (by simp [h]),
            filter_cons_of_pos (by simp [h]), filter_unserved k' items units, hzero]
          rfl
        · obtain ⟨n, hn⟩ := Nat.exists_eq_succ_of_ne_zero hzero
          rw [unserved_cons_of_pos h hzero, filter_cons_of_pos (by simp [h]), filter_unserved k' items,
            Function.update_self, hn]
          rfl
      · have hothers : (a :: items).filter (fun a => decide (kind a = some k)) =
            items.filter fun a => decide (kind a = some k) := filter_cons_of_neg (by simp [h, hk])
        rw [hothers]
        by_cases hzero : units k' = 0
        · rw [unserved_cons_of_zero h hzero, filter_cons_of_neg (by simp [h, hk]),
            filter_unserved k items units]
        · rw [unserved_cons_of_pos h hzero, filter_unserved k items, Function.update_of_ne (Ne.symm hk)]

theorem mem_unserved_of_none {items : List α} (h : kind a = none) : ∀ {units : κ → ℕ}, a ∈ items →
    a ∈ unserved kind units items := by
  induction items with
  | nil => exact fun ha => absurd ha not_mem_nil
  | cons b items ih =>
    intro units ha
    have hlater : b ≠ a → a ∈ items := fun hne => (mem_cons.1 ha).resolve_left (Ne.symm hne)
    cases hb : kind b with
    | none =>
      rw [unserved_cons_of_none hb]
      obtain rfl | ha := mem_cons.1 ha
      · exact mem_cons_self
      · exact mem_cons_of_mem _ (ih ha)
    | some k =>
      have ha := hlater fun he => by
        rw [he, h] at hb
        cases hb
      by_cases hzero : units k = 0
      · rw [unserved_cons_of_zero hb hzero]
        exact mem_cons_of_mem _ (ih ha)
      · rw [unserved_cons_of_pos hb hzero]
        exact ih ha

/-- **More units of each kind serve everybody who was served.** -/
theorem unserved_subset {items : List α} (hle : ∀ k, units k ≤ units' k) (ha : a ∈ unserved kind units' items) :
    a ∈ unserved kind units items := by
  have hmem : a ∈ items := (unserved_sublist items units').subset ha
  cases h : kind a with
  | none => exact mem_unserved_of_none h hmem
  | some k =>
    have hlast : a ∈ (items.filter fun a => decide (kind a = some k)).drop (units' k) := by
      rw [← filter_unserved k items units', mem_filter]
      exact ⟨ha, decide_eq_true h⟩
    have hlast : a ∈ (items.filter fun a => decide (kind a = some k)).drop (units k) :=
      (drop_sublist_drop_left _ (hle k)).subset hlast
    rw [← filter_unserved k items units, mem_filter] at hlast
    exact hlast.1

end TurboPanel.Allotment
