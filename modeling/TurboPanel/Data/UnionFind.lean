import TurboPanel.Js.Map

/-!
# Union-find on a map of parents

The parents are a `Map`; a key that is not in it is its own parent. `find` follows the parents to
the root and points every key that it met at the root; `union` points the root of one class at the
root of the other.

`Leads p n x r` says that `r` is the root of `x` under the parents `p` and is `n` steps away. In a
forest every key has a root. The number of steps is at most the number of entries, since the keys on
the way are different (`Leads.le_length`), so `find` never runs out of fuel.
-/

namespace TurboPanel.UnionFind

open List Js

variable {κ : Type*}

/-! ## Roots -/

/-- `r` is the root of `x`, after `n` steps. -/
inductive Leads (p : κ → κ) : ℕ → κ → κ → Prop
  | root {r : κ} : p r = r → Leads p 0 r r
  | step {n : ℕ} {x r : κ} : p x ≠ x → Leads p n (p x) r → Leads p (n + 1) x r

/-- `r` is the root of `x`. -/
def RootOf (p : κ → κ) (x r : κ) : Prop := ∃ n, Leads p n x r

/-- Every key has a root. -/
def Forest (p : κ → κ) : Prop := ∀ x, ∃ r, RootOf p x r

variable {p : κ → κ} {x y r s : κ} {m n : ℕ}

theorem Leads.unique (h : Leads p n x r) (h' : Leads p m x s) : n = m ∧ r = s := by
  induction h generalizing m with
  | root hr =>
    cases h' with
    | root => exact ⟨rfl, rfl⟩
    | step hne => exact absurd hr hne
  | step hne _ ih =>
    cases h' with
    | root hr => exact absurd hr hne
    | step _ h' =>
      obtain ⟨rfl, rfl⟩ := ih h'
      exact ⟨rfl, rfl⟩

theorem RootOf.unique (h : RootOf p x r) (h' : RootOf p x s) : r = s := by
  obtain ⟨_, h⟩ := h
  obtain ⟨_, h'⟩ := h'
  exact (h.unique h').2

theorem Leads.isRoot (h : Leads p n x r) : p r = r := by
  induction h with
  | root hr => exact hr
  | step _ _ ih => exact ih

theorem RootOf.isRoot (h : RootOf p x r) : p r = r := by
  obtain ⟨_, h⟩ := h
  exact h.isRoot

theorem RootOf.of_isRoot (h : p r = r) : RootOf p r r := ⟨0, .root h⟩

theorem RootOf.parent (h : RootOf p (p x) r) : RootOf p x r := by
  by_cases hx : p x = x
  · rwa [hx] at h
  · obtain ⟨n, h⟩ := h
    exact ⟨n + 1, .step hx h⟩

theorem Leads.exists_path (h : Leads p n x r) : ∃ path : List κ, path.length = n ∧ path.Nodup ∧
    (∀ y ∈ path, p y ≠ y) ∧ ∀ y ∈ path, ∃ k ≤ n, Leads p k y r := by
  induction h with
  | root _ => exact ⟨[], rfl, nodup_nil, by simp, by simp⟩
  | @step n x r hne hlead ih =>
    obtain ⟨path, hlen, hnodup, hnot, hleads⟩ := ih
    refine ⟨x :: path, by simp [hlen], nodup_cons.2 ⟨fun hx => ?_, hnodup⟩, ?_, ?_⟩
    · obtain ⟨k, hk, hx⟩ := hleads x hx
      have := (hx.unique (.step hne hlead)).1
      omega
    · intro y hy
      obtain rfl | hy := mem_cons.1 hy
      · exact hne
      · exact hnot y hy
    · intro y hy
      obtain rfl | hy := mem_cons.1 hy
      · exact ⟨n + 1, le_refl _, .step hne hlead⟩
      · obtain ⟨k, hk, hy⟩ := hleads y hy
        exact ⟨k, by omega, hy⟩

/-! ## The operations -/

variable [DecidableEq κ]

/-- `parent.get(id) ?? id`. -/
def parentOf (parent : Map κ κ) (id : κ) : κ := (parent.get? id).getD id

/-- The root of `id`, and the parents after path compression. -/
def findFrom : ℕ → Map κ κ → κ → κ × Map κ κ
  | 0, parent, id => (id, parent)
  | fuel + 1, parent, id =>
    if parentOf parent id = id then (id, parent)
    else
      let found := findFrom fuel parent (parentOf parent id)
      (found.1, found.2.set id found.1)

def find (parent : Map κ κ) (id : κ) : κ × Map κ κ :=
  findFrom (parent.entries.length + 1) parent id

def union (parent : Map κ κ) (a b : κ) : Map κ κ :=
  let rootA := find parent a
  let rootB := find rootA.2 b
  if rootA.1 = rootB.1 then rootB.2 else rootB.2.set rootA.1 rootB.1

theorem parentOf_set (parent : Map κ κ) (x r y : κ) :
    parentOf (parent.set x r) y = if y = x then r else parentOf parent y := by
  rw [parentOf, Map.get?_set]
  split <;> rfl

variable {parent : Map κ κ}

theorem Leads.le_length (h : Leads (parentOf parent) n x r) : n ≤ parent.entries.length := by
  obtain ⟨path, rfl, hnodup, hnot, -⟩ := h.exists_path
  have hsub : path ⊆ parent.keys := fun y hy => by
    rw [Map.mem_keys_iff, ← Option.isSome_iff_exists, Option.isSome_iff_ne_none]
    intro hnone
    exact hnot y hy (by rw [parentOf, hnone, Option.getD_none])
  have := (hnodup.subperm hsub).length_le
  rwa [Map.keys, length_map] at this

/-! ## The operations keep the roots -/

theorem RootOf.set (hx : RootOf (parentOf parent) x r) (hne : x ≠ r)
    (hy : RootOf (parentOf parent) y s) : RootOf (parentOf (parent.set x r)) y s := by
  have hr : RootOf (parentOf (parent.set x r)) r r :=
    RootOf.of_isRoot (by rw [parentOf_set, if_neg hne.symm, hx.isRoot])
  obtain ⟨n, hy⟩ := hy
  induction hy with
  | @root s hs =>
    have hsx : s ≠ x := by
      rintro rfl
      exact hne ((RootOf.of_isRoot hs).unique hx)
    exact RootOf.of_isRoot (by rw [parentOf_set, if_neg hsx, hs])
  | @step n y s hstep hlead ih =>
    by_cases hyx : y = x
    · subst hyx
      obtain rfl := hx.unique ⟨n + 1, .step hstep hlead⟩
      refine RootOf.parent ?_
      rwa [parentOf_set, if_pos rfl]
    · refine RootOf.parent ?_
      rwa [parentOf_set, if_neg hyx]

theorem findFrom_spec (h : Leads (parentOf parent) n x r) {fuel : ℕ}
    (hfuel : n < fuel) : (findFrom fuel parent x).1 = r ∧
      ∀ y s, RootOf (parentOf parent) y s → RootOf (parentOf (findFrom fuel parent x).2) y s := by
  induction fuel generalizing n x with
  | zero => omega
  | succ fuel ih =>
    cases h with
    | root hr =>
      rw [findFrom, if_pos hr]
      exact ⟨rfl, fun _ _ h => h⟩
    | @step n _ _ hne hlead =>
      obtain ⟨hroot, hkeep⟩ := ih hlead (by omega)
      simp only [findFrom, if_neg hne, hroot]
      refine ⟨trivial, fun y s hy => RootOf.set (hkeep x r ⟨n + 1, .step hne hlead⟩) ?_ (hkeep y s hy)⟩
      rintro rfl
      exact hne hlead.isRoot

theorem find_spec (h : RootOf (parentOf parent) x r) : (find parent x).1 = r ∧
      ∀ y s, RootOf (parentOf parent) y s → RootOf (parentOf (find parent x).2) y s := by
  obtain ⟨n, h⟩ := h
  exact findFrom_spec h (Nat.lt_succ_of_le h.le_length)

/-! ## Classes -/

/-- The two keys are in one class. -/
def Same (p : κ → κ) (x y : κ) : Prop := ∃ r, RootOf p x r ∧ RootOf p y r

theorem RootOf.link {a b : κ} (ha : parentOf parent a = a)
    (hb : parentOf parent b = b) (hne : a ≠ b) (hy : RootOf (parentOf parent) y s) :
    RootOf (parentOf (parent.set a b)) y (if s = a then b else s) := by
  have hroot : RootOf (parentOf (parent.set a b)) b b :=
    RootOf.of_isRoot (by rw [parentOf_set, if_neg hne.symm, hb])
  obtain ⟨n, hy⟩ := hy
  induction hy with
  | @root s hs =>
    by_cases hsa : s = a
    · subst hsa
      refine RootOf.parent ?_
      rwa [parentOf_set, if_pos rfl, if_pos rfl]
    · rw [if_neg hsa]
      exact RootOf.of_isRoot (by rw [parentOf_set, if_neg hsa, hs])
  | @step n y s hstep hlead ih =>
    have hya : y ≠ a := by
      rintro rfl
      exact hstep ha
    refine RootOf.parent ?_
    rwa [parentOf_set, if_neg hya]

theorem union_spec (h : Forest (parentOf parent)) (a b : κ) : Forest (parentOf (union parent a b)) ∧
    (∀ x y, Same (parentOf parent) x y → Same (parentOf (union parent a b)) x y) ∧
    Same (parentOf (union parent a b)) a b := by
  obtain ⟨ra, ha⟩ := h a
  obtain ⟨rb, hb⟩ := h b
  obtain ⟨hfa, hkeepa⟩ := find_spec ha
  obtain ⟨hfb, hkeepb⟩ := find_spec (hkeepa b rb hb)
  have hkeep : ∀ y s, RootOf (parentOf parent) y s →
      RootOf (parentOf (find (find parent a).2 b).2) y s := fun y s hy => hkeepb y s (hkeepa y s hy)
  rw [union]
  simp only [hfa, hfb]
  -- what is left to say is where the roots of `parent` go
  suffices hmap : ∃ f : κ → κ, f ra = f rb ∧ ∀ y s, RootOf (parentOf parent) y s →
      RootOf (parentOf (if ra = rb then (find (find parent a).2 b).2
        else (find (find parent a).2 b).2.set ra rb)) y (f s) by
    obtain ⟨f, hf, hmap⟩ := hmap
    refine ⟨fun y => ?_, ?_, f ra, hmap a ra ha, hf ▸ hmap b rb hb⟩
    · obtain ⟨s, hs⟩ := h y
      exact ⟨f s, hmap y s hs⟩
    · rintro x y ⟨s, hx, hy⟩
      exact ⟨f s, hmap x s hx, hmap y s hy⟩
  by_cases hr : ra = rb
  · refine ⟨id, by rw [hr], fun y s hy => ?_⟩
    rw [if_pos hr]
    exact hkeep y s hy
  · refine ⟨fun s => if s = ra then rb else s, by simp, fun y s hy => ?_⟩
    rw [if_neg hr]
    exact RootOf.link (hkeep a ra ha).isRoot (hkeep b rb hb).isRoot hr (hkeep y s hy)

end TurboPanel.UnionFind
