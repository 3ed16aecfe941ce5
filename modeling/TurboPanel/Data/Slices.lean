import Mathlib.Data.List.Nodup
import Mathlib.Data.List.Sort
import Mathlib.Tactic

/-!
# Slices, writes and joined fields

A list cut at the multiples of a width is its slices in a row (`flatten_slices`). A run of writes
into a list leaves at an index what is written there, if no other value is (`getElem?_foldl_set`).
Fields joined by a character are read back by splitting exactly if none of them has that character.
-/

namespace TurboPanel.Data

open List

variable {α β : Type*}

/-! ## Slices -/

/-- The slices of `l` from `0`, `width`, `2 * width`, … on. -/
def slices (width : ℕ) (l : List α) : List (List α) :=
  (List.range ((l.length + width - 1) / width)).map fun i => (l.drop (i * width)).take width

theorem length_slices (width : ℕ) (l : List α) : (slices width l).length = (l.length + width - 1) / width := by
  rw [slices, length_map, length_range]

variable {width : ℕ} {l m : List α}

theorem length_le_of_mem_slices (h : m ∈ slices width l) : m.length ≤ width := by
  obtain ⟨i, -, rfl⟩ := mem_map.1 h
  exact length_take_le width _

theorem mem_of_mem_slices (h : m ∈ slices width l) {a : α} (ha : a ∈ m) : a ∈ l := by
  obtain ⟨i, -, rfl⟩ := mem_map.1 h
  exact mem_of_mem_drop (mem_of_mem_take ha)

theorem ne_nil_of_mem_slices (hwidth : 0 < width) (h : m ∈ slices width l) : m ≠ [] := by
  obtain ⟨i, hi, rfl⟩ := mem_map.1 h
  have hlt : i * width < l.length := by
    have hle : (i + 1) * width ≤ l.length + width - 1 := (Nat.le_div_iff_mul_le hwidth).1 (mem_range.1 hi)
    rw [Nat.add_mul] at hle
    omega
  intro hnil
  have hlength := congrArg List.length hnil
  rw [length_take, length_drop, length_nil] at hlength
  omega

theorem flatten_range_slices (width : ℕ) (l : List α) (n : ℕ) :
    ((List.range n).map fun i => (l.drop (i * width)).take width).flatten = l.take (n * width) := by
  induction n with
  | zero => rw [Nat.zero_mul, take_zero, range_zero, map_nil, flatten_nil]
  | succ n ih =>
    rw [range_succ, map_append, flatten_append, ih, map_singleton, flatten_singleton,
      Nat.add_mul, Nat.one_mul, take_add]

theorem flatten_slices (hwidth : 0 < width) (l : List α) : (slices width l).flatten = l := by
  rw [slices, flatten_range_slices, take_of_length_le]
  have hlt := Nat.lt_mul_div_succ (l.length + width - 1) hwidth
  rw [Nat.mul_add, Nat.mul_one, Nat.mul_comm width] at hlt
  omega

/-! ## Writes -/

theorem length_foldl_set (writes : List (ℕ × α)) (base : List α) :
    (writes.foldl (fun l write => l.set write.1 write.2) base).length = base.length := by
  induction writes generalizing base with
  | nil => rfl
  | cons write writes ih => rw [foldl_cons, ih, length_set]

variable {i : ℕ}

theorem getElem?_foldl_set {writes : List (ℕ × α)} {a : α} (hmem : (i, a) ∈ writes)
    (honly : ∀ b, (i, b) ∈ writes → b = a) (base : List α) (hi : i < base.length) :
    (writes.foldl (fun l write => l.set write.1 write.2) base)[i]? = some a := by
  induction writes using List.reverseRecOn with
  | nil => cases hmem
  | append_singleton writes last ih =>
    have hlength : i < (writes.foldl (fun l write => l.set write.1 write.2) base).length := by
      rwa [length_foldl_set]
    rw [foldl_append, foldl_cons, foldl_nil, getElem?_set]
    split
    · rename_i heq
      have hlast : (i, last.2) ∈ writes ++ [last] := by
        rw [← heq]
        exact mem_append_right writes mem_cons_self
      rw [if_pos (heq ▸ hlength), honly last.2 hlast]
    · rename_i hne
      refine ih ?_ fun b hb => honly b (mem_append_left _ hb)
      refine (mem_append.1 hmem).resolve_right fun hlast => hne ?_
      rw [← mem_singleton.1 hlast]

/-! ## Cells of equal width -/

theorem cell_injective {p q j : ℕ} (hi : i < width) (hj : j < width) (h : p * width + i = q * width + j) :
    p = q ∧ i = j := by
  have hwidth : 0 < width := by omega
  have hmod := congrArg (· % width) h
  have hdiv := congrArg (· / width) h
  simp only [Nat.mul_comm _ width, Nat.mul_add_mod, Nat.mod_eq_of_lt hi, Nat.mod_eq_of_lt hj] at hmod
  simp only [Nat.mul_comm _ width, Nat.mul_add_div hwidth, Nat.div_eq_of_lt hi, Nat.div_eq_of_lt hj,
    Nat.add_zero] at hdiv
  exact ⟨hdiv, hmod⟩

theorem getElem?_flatMap_cell {f : α → List β} (hwidth : ∀ a, (f a).length = width) (l : List α) {p : ℕ}
    {a : α} (ha : l[p]? = some a) (hi : i < width) : (l.flatMap f)[p * width + i]? = (f a)[i]? := by
  induction l generalizing p with
  | nil => cases ha
  | cons b l ih =>
    rw [flatMap_cons]
    cases p with
    | zero =>
      obtain rfl : b = a := Option.some.inj ha
      rw [Nat.zero_mul, Nat.zero_add, getElem?_append_left (by rw [hwidth b]; exact hi)]
    | succ p =>
      have hle : (f b).length ≤ (p + 1) * width + i := by
        rw [hwidth b, Nat.add_mul]
        omega
      have hsub : (p + 1) * width + i - width = p * width + i := by
        rw [Nat.add_mul]
        omega
      rw [getElem?_append_right hle, hwidth b, hsub]
      exact ih ha

/-! ## Joined fields -/

section

variable [DecidableEq α]

theorem not_mem_of_mem_splitOn (sep : α) (l : List α) : ∀ field ∈ l.splitOn sep, sep ∉ field := by
  induction l with
  | nil =>
    intro field hfield
    rw [splitOn_nil, mem_singleton] at hfield
    rw [hfield]
    exact not_mem_nil
  | cons a l ih =>
    intro field hfield
    rw [splitOn_cons_eq_if_modifyHead] at hfield
    split at hfield
    · obtain rfl | hfield := mem_cons.1 hfield
      · exact not_mem_nil
      · exact ih field hfield
    · rename_i hne
      cases hsplit : l.splitOn sep with
      | nil => exact absurd hsplit (splitOn_ne_nil sep l)
      | cons first rest =>
        rw [hsplit, modifyHead_cons] at hfield
        rw [hsplit] at ih
        obtain rfl | hfield := mem_cons.1 hfield
        · rw [mem_cons, not_or]
          exact ⟨fun h => hne (beq_iff_eq.2 h.symm), ih first mem_cons_self⟩
        · exact ih field (mem_cons_of_mem first hfield)

theorem splitOn_joined {sep : α} {fields : List (List α)} (hne : fields ≠ []) (h : ∀ field ∈ fields, sep ∉ field) :
    ([sep].intercalate fields).splitOn sep = fields :=
  splitOn_intercalate sep h hne

end

/-! ## Functions that may fail -/

theorem mapM_eq_some {f : α → Option β} {g : α → β} (h : ∀ a ∈ l, f a = some (g a)) :
    l.mapM f = some (l.map g) := by
  induction l with
  | nil => rfl
  | cons a l ih =>
    rw [mapM_cons, h a mem_cons_self, ih fun b hb => h b (mem_cons_of_mem a hb)]
    rfl

end TurboPanel.Data
