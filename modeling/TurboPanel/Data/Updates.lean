import Mathlib.Data.List.Basic
import Mathlib.Data.List.Nodup
import Mathlib.Tactic

/-!
# Updates of a list

A row of a list is changed at its first match (`modifyFirst`); where the rows are given by distinct
keys, that changes the row of one key (`modifyFirst_map`). An element is added unless there is one
with its key (`appendNew`): in the end, each key has its first element (`mem_foldl_appendNew`). A
variable that is written and deleted holds what the last of these operations left (`valueAfter`).
`FirstPlace` and `LastPlace` speak of the first and the last place with a property that depends on
the elements before it.
-/

namespace TurboPanel

open List

/-! ## The first match -/

section

variable {α β κ : Type}

/-- Change the first element for which `p` holds. -/
def modifyFirst (p : α → Bool) (f : α → α) : List α → List α
  | [] => []
  | a :: rest => if p a then f a :: rest else a :: modifyFirst p f rest

variable {p : α → Bool}

theorem modifyFirst_append_right {l : List α} (h : ∀ a ∈ l, p a = false) (f : α → α)
    (l' : List α) : modifyFirst p f (l ++ l') = l ++ modifyFirst p f l' := by
  induction l with
  | nil => rfl
  | cons a l ih =>
    rw [cons_append, modifyFirst, h a mem_cons_self, if_neg Bool.false_ne_true,
      ih fun b hb => h b (mem_cons_of_mem a hb), cons_append]

theorem modifyFirst_map {f : α → α} {row row' : κ → α} {keys : List κ} {k : κ}
    (hnodup : keys.Nodup) (hmem : k ∈ keys) (hp : p (row k) = true) (hk : row' k = f (row k))
    (hother : ∀ k' ≠ k, p (row k') = false ∧ row' k' = row k') :
    modifyFirst p f (keys.map row) = keys.map row' := by
  induction keys with
  | nil => cases hmem
  | cons k₀ keys ih =>
    obtain ⟨hnot, hnodup⟩ := nodup_cons.1 hnodup
    rw [map_cons, map_cons, modifyFirst]
    by_cases h : k₀ = k
    · subst h
      rw [if_pos hp, hk]
      refine congrArg _ (map_congr_left fun k' hk' => ?_)
      exact (hother k' fun heq => hnot (heq ▸ hk')).2.symm
    · rw [(hother k₀ h).1, if_neg Bool.false_ne_true, (hother k₀ h).2,
        ih hnodup ((mem_cons.1 hmem).resolve_left (Ne.symm h))]

theorem map_modifyFirst {g : α → β} {p' : β → Bool} {f : α → α} {f' : β → β}
    (hp : ∀ a, p' (g a) = p a) (hf : ∀ a, f' (g a) = g (f a)) (l : List α) :
    modifyFirst p' f' (l.map g) = (modifyFirst p f l).map g := by
  induction l with
  | nil => rfl
  | cons a l ih =>
    rw [map_cons, modifyFirst, modifyFirst, hp]
    split
    · rw [hf, map_cons]
    · rw [ih, map_cons]

end

/-! ## Elements with distinct keys -/

section

variable {α κ : Type} [DecidableEq κ] (key : α → κ)

/-- Add an element, unless there is one with its key. -/
def appendNew (l : List α) (a : α) : List α :=
  if l.any fun b => decide (key b = key a) then l else l ++ [a]

theorem mem_foldl_appendNew {init l : List α} {a : α} :
    a ∈ l.foldl (appendNew key) init ↔
      a ∈ init ∨ (∀ b ∈ init, key b ≠ key a) ∧ (l.find? fun b => decide (key b = key a)) = some a := by
  induction l generalizing init with
  | nil => simp
  | cons b l ih =>
    rw [foldl_cons, ih, appendNew]
    by_cases hany : ∃ x ∈ init, key x = key b
    · rw [if_pos (by simpa using hany)]
      obtain ⟨x, hx, hxb⟩ := hany
      by_cases hb : key b = key a
      · have hno : ¬∀ y ∈ init, key y ≠ key a := fun h => h x hx (hxb.trans hb)
        rw [iff_false_intro hno, false_and, false_and]
      · rw [find?_cons_of_neg (by simpa using hb)]
    · have hfree : ∀ y ∈ init, key y ≠ key b := fun y hy h => hany ⟨y, hy, h⟩
      rw [if_neg (by simpa using hfree)]
      by_cases hb : key b = key a
      · have hno : ¬∀ y ∈ init ++ [b], key y ≠ key a := fun h => h b (by simp) hb
        rw [find?_cons_of_pos (by simpa using hb), iff_false_intro hno, false_and, or_false,
          mem_append, mem_singleton, Option.some.injEq, eq_comm (a := b),
          and_iff_right (hb ▸ hfree)]
      · have hne : a ≠ b := fun h => hb (by rw [h])
        rw [find?_cons_of_neg (by simpa using hb), mem_append, mem_singleton,
          or_iff_left hne, forall_mem_append, forall_mem_singleton, and_iff_left hb]

end

/-! ## The first and the last place -/

section

variable {α : Type} {p q : List α → α → Prop} {l : List α} {x : α}

theorem concat_eq_append_cons {before after : List α} {y : α}
    (h : l ++ [x] = before ++ y :: after) : (after = [] ∧ l = before ∧ x = y) ∨
      ∃ after', after = after' ++ [x] ∧ l = before ++ y :: after' := by
  obtain rfl | ⟨after', z, rfl⟩ := eq_nil_or_concat after
  · obtain ⟨rfl, hxy⟩ := append_inj' h rfl
    exact .inl ⟨rfl, rfl, head_eq_of_cons_eq hxy⟩
  · rw [concat_eq_append, ← cons_append, ← append_assoc] at h
    obtain ⟨rfl, hxz⟩ := append_inj' h rfl
    rw [head_eq_of_cons_eq hxz]
    exact .inr ⟨after', concat_eq_append, rfl⟩

theorem exists_place_concat : (∃ before y after, l ++ [x] = before ++ y :: after ∧ p before y) ↔
    (∃ before y after, l = before ++ y :: after ∧ p before y) ∨ p l x := by
  constructor
  · rintro ⟨before, y, after, heq, hp⟩
    obtain ⟨rfl, rfl, rfl⟩ | ⟨after', rfl, rfl⟩ := concat_eq_append_cons heq
    · exact .inr hp
    · exact .inl ⟨before, y, after', rfl, hp⟩
  · rintro (⟨before, y, after, rfl, hp⟩ | hp)
    · exact ⟨before, y, after ++ [x], by simp, hp⟩
    · exact ⟨l, x, [], rfl, hp⟩

/-- At no place of the list does `p` hold, of the elements before it and the element there. -/
def Nowhere (p : List α → α → Prop) (l : List α) : Prop :=
  ¬∃ before x after, l = before ++ x :: after ∧ p before x

/-- At the first place with `p` there is `q`. -/
def FirstPlace (p q : List α → α → Prop) (l : List α) : Prop :=
  ∃ before x after, l = before ++ x :: after ∧ Nowhere p before ∧ q before x

/-- At the last place with `p` there is `q`. -/
def LastPlace (p q : List α → α → Prop) (l : List α) : Prop :=
  ∃ before x after, l = before ++ x :: after ∧ q before x ∧
    Nowhere (fun later => p (before ++ x :: later)) after

theorem nowhere_nil : Nowhere p [] := by
  rintro ⟨before, x, after, heq, -⟩
  exact absurd heq.symm (append_ne_nil_of_right_ne_nil _ (cons_ne_nil _ _))

theorem nowhere_concat : Nowhere p (l ++ [x]) ↔ Nowhere p l ∧ ¬p l x := by
  rw [Nowhere, exists_place_concat, not_or, Nowhere]

theorem firstPlace_concat : FirstPlace p q (l ++ [x]) ↔ FirstPlace p q l ∨ Nowhere p l ∧ q l x :=
  exists_place_concat

theorem lastPlace_concat : LastPlace p q (l ++ [x]) ↔ q l x ∨ LastPlace p q l ∧ ¬p l x := by
  constructor
  · rintro ⟨before, y, after, heq, hq, hafter⟩
    obtain ⟨rfl, rfl, rfl⟩ | ⟨after', rfl, rfl⟩ := concat_eq_append_cons heq
    · exact .inl hq
    · rw [nowhere_concat] at hafter
      exact .inr ⟨⟨before, y, after', rfl, hq, hafter.1⟩, hafter.2⟩
  · rintro (hq | ⟨⟨before, y, after, rfl, hq, hafter⟩, hp⟩)
    · exact ⟨l, x, [], rfl, hq, nowhere_nil⟩
    · exact ⟨before, y, after ++ [x], by simp, hq, nowhere_concat.2 ⟨hafter, hp⟩⟩

end

/-! ## The last write -/

theorem exists_eq_append_cons_last {α : Type} {p : α → Prop} {l : List α} (h : ∃ a ∈ l, p a) :
    ∃ before a after, l = before ++ a :: after ∧ p a ∧ ∀ b ∈ after, ¬p b := by
  induction l with
  | nil => simp at h
  | cons a l ih =>
    by_cases hlater : ∃ b ∈ l, p b
    · obtain ⟨before, b, after, rfl, hb, hafter⟩ := ih hlater
      exact ⟨a :: before, b, after, rfl, hb, hafter⟩
    · obtain ⟨b, hb, hpb⟩ := h
      obtain rfl | hb := mem_cons.1 hb
      · exact ⟨[], b, l, rfl, hpb, fun x hx hpx => hlater ⟨x, hx, hpx⟩⟩
      · exact absurd ⟨b, hb, hpb⟩ hlater

section

variable {κ ν : Type} [DecidableEq κ]

/-- What a variable holds after writes `(k, some v)` and deletions `(k, none)`, when it held `init`.
-/
def valueAfter (init : Option ν) (ops : List (κ × Option ν)) (k : κ) : Option ν :=
  ops.foldl (fun v op => if op.1 = k then op.2 else v) init

theorem valueAfter_nil (init : Option ν) (k : κ) : valueAfter init [] k = init := rfl

theorem valueAfter_append (init : Option ν) (ops ops' : List (κ × Option ν)) (k : κ) :
    valueAfter init (ops ++ ops') k = valueAfter (valueAfter init ops k) ops' k :=
  foldl_append

theorem valueAfter_cons (init : Option ν) (op : κ × Option ν) (ops : List (κ × Option ν)) (k : κ) :
    valueAfter init (op :: ops) k = valueAfter (if op.1 = k then op.2 else init) ops k :=
  rfl

theorem valueAfter_of_forall_ne {init : Option ν} {ops : List (κ × Option ν)} {k : κ}
    (h : ∀ op ∈ ops, op.1 ≠ k) : valueAfter init ops k = init := by
  induction ops with
  | nil => rfl
  | cons op ops ih =>
    rw [valueAfter_cons, if_neg (h op mem_cons_self)]
    exact ih fun op' h' => h op' (mem_cons_of_mem op h')

theorem exists_valueAfter_eq (init : Option ν) {ops : List (κ × Option ν)} {k : κ}
    (h : ∃ op ∈ ops, op.1 = k) : ∃ op ∈ ops, op.1 = k ∧ valueAfter init ops k = op.2 := by
  induction ops generalizing init with
  | nil => simp at h
  | cons op ops ih =>
    rw [valueAfter_cons]
    by_cases hlater : ∃ op ∈ ops, op.1 = k
    · obtain ⟨op', hmem, hop⟩ := ih _ hlater
      exact ⟨op', mem_cons_of_mem op hmem, hop⟩
    · obtain ⟨op', hop', rfl⟩ := h
      obtain rfl | hop' := mem_cons.1 hop'
      · refine ⟨op', mem_cons_self, rfl, ?_⟩
        rw [if_pos rfl, valueAfter_of_forall_ne fun x hx heq => hlater ⟨x, hx, heq⟩]
      · exact absurd ⟨op', hop', rfl⟩ hlater

end

end TurboPanel
