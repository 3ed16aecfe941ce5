import Mathlib.Data.List.Nodup
import Mathlib.Data.List.Sort
import Mathlib.Tactic

/-!
# Maps with insertion order, sets and sorting

A `Map` of ECMAScript is the list of its entries in insertion order, with one entry for a key.
Setting a key that is there replaces its value in place; a new key goes to the end. The laws of a
map are `get?_set_self` and `get?_set_of_ne`, and the entries are what the map answers
(`get?_eq_some_iff`).

A comparison that is used to sort is a `Collation`, such as `String.prototype.localeCompare`, whose
order depends on the host: every result here holds for all of them. Sorting is stable.
-/

namespace TurboPanel.Js

open List

variable {κ ν : Type*} [DecidableEq κ]

/-! ## Entries -/

/-- Put `v` under `k`: in place when the key is there, at the end otherwise. -/
def setEntry (k : κ) (v : ν) : List (κ × ν) → List (κ × ν)
  | [] => [(k, v)]
  | e :: rest => if e.1 = k then (k, v) :: rest else e :: setEntry k v rest

theorem keys_setEntry (k : κ) (v : ν) (l : List (κ × ν)) : (setEntry k v l).map Prod.fst =
    if k ∈ l.map Prod.fst then l.map Prod.fst else l.map Prod.fst ++ [k] := by
  induction l with
  | nil => simp [setEntry]
  | cons e rest ih =>
    rw [setEntry]
    by_cases he : e.1 = k
    · simp [he]
    · simp only [he, if_false, map_cons, ih, mem_cons, eq_comm (a := k), false_or]
      split <;> simp

theorem lookup_cons_if (k : κ) (e : κ × ν) (l : List (κ × ν)) :
    (e :: l).lookup k = if k = e.1 then some e.2 else l.lookup k := by
  by_cases h : k = e.1
  · subst h
    rw [lookup_cons_self, if_pos rfl]
  · rw [lookup_cons, beq_eq_false_iff_ne.2 h, if_neg h]

theorem lookup_setEntry (k k' : κ) (v : ν) (l : List (κ × ν)) :
    (setEntry k v l).lookup k' = if k' = k then some v else l.lookup k' := by
  induction l with
  | nil => rw [setEntry, lookup_cons_if]
  | cons e rest ih =>
    rw [setEntry]
    by_cases he : e.1 = k
    · rw [if_pos he, lookup_cons_if, lookup_cons_if, he]
      by_cases hk : k' = k
      · rw [if_pos hk, if_pos hk]
      · rw [if_neg hk, if_neg hk, if_neg hk]
    · rw [if_neg he, lookup_cons_if, lookup_cons_if, ih]
      by_cases hk : k' = k
      · have hne : k' ≠ e.1 := fun h => he (h.symm.trans hk)
        rw [if_neg hne, if_pos hk, if_pos hk]
      · rw [if_neg hk, if_neg hk]

variable {l : List (κ × ν)}

theorem lookup_eq_some_iff (h : (l.map Prod.fst).Nodup) {k : κ} {v : ν} :
    l.lookup k = some v ↔ (k, v) ∈ l := by
  induction l with
  | nil => simp
  | cons e rest ih =>
    obtain ⟨hnot, hrest⟩ := nodup_cons.1 h
    rw [lookup_cons_if, mem_cons]
    by_cases hk : k = e.1
    · subst hk
      have hmem : (e.1, v) ∉ rest := fun hm => hnot (mem_map.2 ⟨_, hm, rfl⟩)
      rw [if_pos rfl, or_iff_left hmem, Option.some.injEq, Prod.ext_iff]
      simp [eq_comm]
    · have hne : (k, v) ≠ e := fun he => hk (by rw [← he])
      rw [if_neg hk, or_iff_right hne, ih hrest]

theorem mem_of_lookup {k : κ} {v : ν} (h : l.lookup k = some v) : (k, v) ∈ l := by
  obtain ⟨before, after, rfl, -⟩ := List.lookup_eq_some_iff.1 h
  exact mem_append_right before mem_cons_self

theorem lookup_eq_none_iff {k : κ} : l.lookup k = none ↔ k ∉ l.map Prod.fst := by
  induction l with
  | nil => simp
  | cons e rest ih =>
    rw [lookup_cons_if, map_cons, mem_cons, not_or, ← ih]
    by_cases hk : k = e.1
    · simp [hk]
    · simp [hk]

/-! ## Maps -/

/-- A `Map`: its entries in insertion order, one for each key. -/
@[ext]
structure Map (κ ν : Type*) where
  entries : List (κ × ν)
  nodup : (entries.map Prod.fst).Nodup

namespace Map

/-- `new Map()`. -/
def empty : Map κ ν := ⟨[], nodup_nil⟩

def keys (m : Map κ ν) : List κ := m.entries.map Prod.fst

def get? (m : Map κ ν) (k : κ) : Option ν := m.entries.lookup k

def has (m : Map κ ν) (k : κ) : Bool := (m.get? k).isSome

def set (m : Map κ ν) (k : κ) (v : ν) : Map κ ν where
  entries := setEntry k v m.entries
  nodup := by
    rw [keys_setEntry]
    split
    · exact m.nodup
    · rename_i h
      exact nodup_append.2 ⟨m.nodup, nodup_singleton k, by
        rintro a ha b hb rfl
        exact h (mem_singleton.1 hb ▸ ha)⟩

def delete (m : Map κ ν) (k : κ) : Map κ ν where
  entries := m.entries.filter fun e => decide (e.1 ≠ k)
  nodup := m.nodup.sublist (filter_sublist.map Prod.fst)

/-- `new Map(entries)`: a later entry for a key replaces the earlier value. -/
def ofEntries (l : List (κ × ν)) : Map κ ν := l.foldl (fun m e => m.set e.1 e.2) empty

@[simp] theorem get?_empty (k : κ) : (empty : Map κ ν).get? k = none := rfl

theorem get?_set (m : Map κ ν) (k k' : κ) (v : ν) :
    (m.set k v).get? k' = if k' = k then some v else m.get? k' :=
  lookup_setEntry k k' v m.entries

@[simp] theorem get?_set_self (m : Map κ ν) (k : κ) (v : ν) : (m.set k v).get? k = some v := by
  simp [get?_set]

variable {m : Map κ ν} {k : κ}

theorem get?_set_of_ne {k' : κ} (h : k' ≠ k) (v : ν) : (m.set k v).get? k' = m.get? k' := by
  simp [get?_set, h]

theorem get?_eq_some_iff {v : ν} : m.get? k = some v ↔ (k, v) ∈ m.entries :=
  lookup_eq_some_iff m.nodup

theorem get?_delete (m : Map κ ν) (k k' : κ) :
    (m.delete k).get? k' = if k' = k then none else m.get? k' := by
  ext v
  rw [get?_eq_some_iff, delete, mem_filter, ← get?_eq_some_iff]
  by_cases hk : k' = k
  · simp [hk]
  · simp [hk]

theorem mem_keys_iff : k ∈ m.keys ↔ ∃ v, m.get? k = some v := by
  rw [← Option.isSome_iff_exists, Option.isSome_iff_ne_none, ne_eq, get?, lookup_eq_none_iff,
    not_not, keys]

theorem has_iff : m.has k = true ↔ ∃ v, m.get? k = some v :=
  Option.isSome_iff_exists

theorem has_eq_false : m.has k = false ↔ m.get? k = none := by
  rw [has, Option.isSome_eq_false_iff, Option.isNone_iff_eq_none]

theorem get?_ofEntries {l : List (κ × ν)} (h : (l.map Prod.fst).Nodup) {v : ν} :
    (ofEntries l).get? k = some v ↔ (k, v) ∈ l := by
  induction l using List.reverseRecOn with
  | nil => simp [ofEntries]
  | append_singleton l e ih =>
    rw [map_append, nodup_append] at h
    obtain ⟨hl, -, hdisj⟩ := h
    rw [ofEntries, foldl_append, foldl_cons, foldl_nil, get?_set]
    by_cases hk : k = e.1
    · subst hk
      have hnot : (e.1, v) ∉ l := fun hm =>
        hdisj e.1 (mem_map.2 ⟨_, hm, rfl⟩) e.1 (by simp) rfl
      rw [if_pos rfl, mem_append, mem_singleton]
      constructor
      · intro he
        rw [Option.some.injEq] at he
        exact .inr (Prod.ext rfl he.symm)
      · rintro (hm | he)
        · exact absurd hm hnot
        · rw [← he]
    · have hne : (k, v) ≠ e := fun he => hk (by rw [← he])
      rw [if_neg hk, mem_append, mem_singleton, or_iff_left hne]
      exact ih hl

theorem get?_ofEntries_eq_getLast? (l : List (κ × ν)) (k : κ) :
    (ofEntries l).get? k = ((l.filter fun e => decide (e.1 = k)).getLast?).map Prod.snd := by
  induction l using List.reverseRecOn with
  | nil => rfl
  | append_singleton l e ih =>
    rw [ofEntries, foldl_append, foldl_cons, foldl_nil, get?_set, filter_append]
    by_cases hk : e.1 = k
    · rw [if_pos hk.symm, filter_cons_of_pos (by simpa using hk), filter_nil,
        List.getLast?_concat]
      rfl
    · rw [if_neg (Ne.symm hk), filter_cons_of_neg (by simpa using hk), filter_nil,
        append_nil, ← ofEntries, ih]

/-- The map with `f` applied to each value. -/
def mapValues {ν' : Type*} (f : ν → ν') (m : Map κ ν) : Map κ ν' where
  entries := m.entries.map (Prod.map id f)
  nodup := by
    rw [map_map]
    exact m.nodup

theorem get?_mapValues {ν' : Type*} (f : ν → ν') (m : Map κ ν) (k : κ) :
    (m.mapValues f).get? k = (m.get? k).map f := by
  change (m.entries.map (Prod.map id f)).lookup k = (m.entries.lookup k).map f
  induction m.entries with
  | nil => rfl
  | cons e rest ih =>
    rw [map_cons, lookup_cons_if, lookup_cons_if, ih, Prod.map_fst, id_eq]
    split
    · rfl
    · rfl

theorem mapValues_set {ν' : Type*} (f : ν → ν') (m : Map κ ν) (k : κ) (v : ν) :
    (m.set k v).mapValues f = (m.mapValues f).set k (f v) := by
  ext1
  change (setEntry k v m.entries).map _ = setEntry k (f v) (m.entries.map _)
  induction m.entries with
  | nil => rfl
  | cons e rest ih =>
    rw [map_cons, setEntry, setEntry, Prod.map_fst, id_eq]
    by_cases he : e.1 = k
    · rw [if_pos he, if_pos he]
      rfl
    · rw [if_neg he, if_neg he, map_cons, ih]

theorem mapValues_ofEntries {ν' : Type*} (f : ν → ν') (l : List (κ × ν)) :
    (ofEntries l).mapValues f = ofEntries (l.map (Prod.map id f)) := by
  rw [ofEntries, ofEntries, foldl_map]
  exact (foldl_hom (mapValues f) fun m e => (mapValues_set f m e.1 e.2).symm).symm

end Map

/-- `Set.prototype.add`, on the elements in insertion order. -/
def setAdd {α : Type*} [DecidableEq α] (s : List α) (a : α) : List α :=
  if a ∈ s then s else s ++ [a]

@[simp] theorem mem_setAdd {α : Type*} [DecidableEq α] {s : List α} {a b : α} :
    b ∈ setAdd s a ↔ b ∈ s ∨ b = a := by
  rw [setAdd]
  split
  · rename_i h
    exact ⟨.inl, fun hb => hb.elim id fun e => e ▸ h⟩
  · simp

theorem nodup_setAdd {α : Type*} [DecidableEq α] {s : List α} (h : s.Nodup) (a : α) :
    (setAdd s a).Nodup := by
  rw [setAdd]
  split
  · exact h
  · rename_i hnot
    exact nodup_append.2 ⟨h, nodup_singleton a, by
      rintro b hb b' hb' rfl
      exact hnot (mem_singleton.1 hb' ▸ hb)⟩

theorem mem_foldl_setAdd {α : Type*} [DecidableEq α] {values seen : List α} {a : α} :
    a ∈ values.foldl setAdd seen ↔ a ∈ seen ∨ a ∈ values := by
  induction values generalizing seen with
  | nil => simp
  | cons b values ih => rw [foldl_cons, ih, mem_setAdd, mem_cons, or_assoc]

theorem nodup_foldl_setAdd {α : Type*} [DecidableEq α] (values : List α) {seen : List α} (h : seen.Nodup) :
    (values.foldl setAdd seen).Nodup := by
  induction values generalizing seen with
  | nil => exact h
  | cons b values ih => exact ih (nodup_setAdd h b)

theorem foldl_setAdd_of_nodup {α : Type*} [DecidableEq α] {values seen : List α}
    (h : (seen ++ values).Nodup) : values.foldl setAdd seen = seen ++ values := by
  induction values generalizing seen with
  | nil => rw [foldl_nil, append_nil]
  | cons a values ih =>
    have ha : a ∉ seen := fun hs => (nodup_append.1 h).2.2 a hs a mem_cons_self rfl
    rw [append_cons] at h
    rw [foldl_cons, setAdd, if_neg ha, ih h, append_assoc, singleton_append]

theorem length_foldl_setAdd_le {α : Type*} [DecidableEq α] (values seen : List α) :
    (values.foldl setAdd seen).length ≤ seen.length + values.length := by
  induction values generalizing seen with
  | nil => exact le_rfl
  | cons a values ih =>
    have hadd : (setAdd seen a).length ≤ seen.length + 1 := by
      rw [setAdd]
      split_ifs <;> simp
    have := ih (setAdd seen a)
    rw [foldl_cons, length_cons]
    omega

theorem foldl_setAdd_eq_self {α : Type*} [DecidableEq α] {values : List α}
    (h : values.length ≤ (values.foldl setAdd []).length) : values.foldl setAdd [] = values := by
  have hnodup : (values.foldl setAdd []).Nodup := nodup_foldl_setAdd values nodup_nil
  have hsubset : values.foldl setAdd [] ⊆ values := fun a ha =>
    (mem_foldl_setAdd.1 ha).resolve_left not_mem_nil
  have hperm := (hnodup.subperm hsubset).perm_of_length_le h
  exact foldl_setAdd_of_nodup (hperm.nodup_iff.1 hnodup)

/-! ## Sorting -/

/-- A comparison of strings that is a total preorder. -/
structure Collation where
  compare : String → String → Ordering
  swap_compare : ∀ a b, (compare a b).swap = compare b a
  trans_compare : ∀ a b c, compare a b ≠ .gt → compare b c ≠ .gt → compare a c ≠ .gt

/-- Order by code points: the collation of a host without locale data. -/
def Collation.codePoint : Collation where
  compare := Ord.compare
  swap_compare _ _ := Std.OrientedCmp.eq_swap.symm
  trans_compare a b c h₁ h₂ := by
    have h₁ : (Ord.compare a b).isLE := by cases h : Ord.compare a b <;> simp_all
    have h₂ : (Ord.compare b c).isLE := by cases h : Ord.compare b c <;> simp_all
    have := Std.TransCmp.isLE_trans h₁ h₂
    intro h
    simp [h] at this

instance (c : Collation) : Std.TransCmp c.compare where
  eq_swap {a b} := (c.swap_compare b a).symm
  isLE_trans {a b d} h₁ h₂ := by
    rw [Ordering.isLE_iff_ne_gt] at *
    exact c.trans_compare a b d h₁ h₂

variable (c : Collation)

/-- `keys.sort((a, b) => a.localeCompare(b))`. -/
def sortKeys (keys : List String) : List String :=
  keys.insertionSort fun a b => c.compare a b ≠ .gt

theorem sortKeys_perm (keys : List String) : (sortKeys c keys).Perm keys :=
  perm_insertionSort _ keys

theorem head?_insertionSort {α : Type*} {r : α → α → Prop} [DecidableRel r]
    (htotal : ∀ a b, r a b ∨ r b a) (htrans : ∀ a b d, r a b → r b d → r a d) {l : List α} {a : α} :
    (l.insertionSort r).head? = some a ↔ ∃ before after, l = before ++ a :: after ∧
      (∀ x ∈ before, ¬r x a) ∧ ∀ x ∈ after, r a x := by
  have hhead : ∀ {l : List α} {a : α}, (l.insertionSort r).head? = some a → ∃ before after,
      l = before ++ a :: after ∧ (∀ x ∈ before, ¬r x a) ∧ ∀ x ∈ after, r a x := by
    intro l
    induction l with
    | nil => exact fun h => nomatch h
    | cons b l ih =>
      intro a h
      rw [insertionSort_cons] at h
      cases hs : l.insertionSort r with
      | nil =>
        obtain rfl : l = [] := by
          rw [← length_eq_zero_iff, ← length_insertionSort r, hs, length_nil]
        obtain rfl : b = a := by simpa using h
        exact ⟨[], [], rfl, by simp, by simp⟩
      | cons m rest =>
        obtain ⟨before, after, rfl, hbefore, hafter⟩ := @ih m (by rw [hs]; rfl)
        rw [hs, orderedInsert_cons] at h
        split at h
        · rename_i hbm
          obtain rfl : b = a := by simpa using h
          refine ⟨[], _, rfl, by simp, fun x hx => ?_⟩
          obtain hx | hx := mem_append.1 hx
          · exact htrans b m x hbm ((htotal x m).resolve_left (hbefore x hx))
          · obtain rfl | hx := mem_cons.1 hx
            · exact hbm
            · exact htrans b m x hbm (hafter x hx)
        · rename_i hbm
          obtain rfl : m = a := by simpa using h
          refine ⟨b :: before, after, rfl, fun x hx => ?_, hafter⟩
          obtain rfl | hx := mem_cons.1 hx
          · exact hbm
          · exact hbefore x hx
  refine ⟨hhead, ?_⟩
  rintro ⟨before, after, rfl, hbefore, hafter⟩
  obtain ⟨m, hm⟩ : ∃ m, ((before ++ a :: after).insertionSort r).head? = some m := by
    rw [← Option.isSome_iff_exists, isSome_head?, ne_eq, ← length_eq_zero_iff,
      length_insertionSort]
    simp
  rw [hm]
  -- of two such elements, the earlier one is below the later one and is not
  obtain ⟨before', after', heq, hbefore', hafter'⟩ := hhead hm
  obtain ⟨mid, rfl, htail⟩ | ⟨mid, rfl, htail⟩ := append_eq_append_iff.1 heq
  · cases mid with
    | nil => rw [(List.cons.inj htail).1]
    | cons x mid =>
      cases htail
      exact absurd (hafter m (by simp)) (hbefore' a (by simp))
  · cases mid with
    | nil => rw [(List.cons.inj htail).1]
    | cons x mid =>
      cases htail
      exact absurd (hafter' a (by simp)) (hbefore m (by simp))

end TurboPanel.Js
