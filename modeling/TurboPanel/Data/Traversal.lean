import Mathlib.Data.List.Forall2
import Mathlib.Tactic

/-!
# Loops that can fail

A loop that returns at the first error is a traversal in `Except`. One that succeeds has succeeded
on every element (`forall₂_of_mapM`, `foldlM_append_eq_ok`), and `filter_flatten` reads off what one
element contributed to the concatenation of the results. `foldlM_map_comm` compares two loops.
-/

namespace TurboPanel

open List

variable {ε α β : Type}

variable {f : α → Except ε β}

theorem bind_eq_ok {x : Except ε α} {b : β} : x >>= f = .ok b ↔ ∃ a, x = .ok a ∧ f a = .ok b := by
  cases x with
  | error e =>
    constructor
    · intro h
      cases h
    · rintro ⟨a, h, -⟩
      cases h
  | ok a =>
    constructor
    · exact fun h => ⟨a, rfl, h⟩
    · rintro ⟨a', h, h'⟩
      cases h
      exact h'

variable {l : List α} {r : List β}

theorem forall₂_of_mapM (h : l.mapM f = .ok r) : List.Forall₂ (fun a b => f a = .ok b) l r := by
  induction l generalizing r with
  | nil =>
    obtain rfl : [] = r := Except.ok.inj h
    exact List.Forall₂.nil
  | cons a l ih =>
    rw [mapM_cons, bind_eq_ok] at h
    obtain ⟨b, ha, h⟩ := h
    obtain ⟨bs, hl, h⟩ := bind_eq_ok.1 h
    obtain rfl : b :: bs = r := Except.ok.inj h
    exact List.Forall₂.cons ha (ih hl)

theorem forall₂_of_mapM_some {f : α → Option β}
    (h : l.mapM f = some r) : List.Forall₂ (fun a b => f a = some b) l r := by
  induction l generalizing r with
  | nil =>
    obtain rfl : [] = r := Option.some.inj h
    exact List.Forall₂.nil
  | cons a l ih =>
    rw [mapM_cons] at h
    obtain ⟨b, ha, h⟩ := Option.bind_eq_some_iff.1 h
    obtain ⟨bs, hl, h⟩ := Option.bind_eq_some_iff.1 h
    obtain rfl : b :: bs = r := Option.some.inj h
    exact List.Forall₂.cons ha (ih hl)

variable {R : α → β → Prop}

theorem exists_mem_congr (h : List.Forall₂ R l r)
    {p : α → Prop} {q : β → Prop} (hpq : ∀ a b, R a b → (q b ↔ p a)) : (∃ b ∈ r, q b) ↔ ∃ a ∈ l, p a := by
  induction h with
  | nil => simp
  | cons hab _ ih => simp only [exists_mem_cons_iff, ih, hpq _ _ hab]

theorem exists_left_of_mem (h : List.Forall₂ R l r) {b : β} (hb : b ∈ r) : ∃ a ∈ l, R a b := by
  obtain ⟨i, hi, rfl⟩ := getElem_of_mem hb
  have hl : i < l.length := h.length_eq ▸ hi
  exact ⟨l[i], getElem_mem hl, h.get hl hi⟩

theorem exists_right_of_mem (h : List.Forall₂ R l r) {a : α} (ha : a ∈ l) : ∃ b ∈ r, R a b :=
  exists_left_of_mem h.flip ha

theorem exists_of_mapM_ok (h : l.mapM f = .ok r) : ∀ a ∈ l, ∃ b, f a = .ok b := by
  have hall := forall₂_of_mapM h
  clear h
  induction hall with
  | nil => simp
  | cons hhead _ ih =>
    intro a ha
    rcases mem_cons.1 ha with rfl | ha
    · exact ⟨_, hhead⟩
    · exact ih a ha

theorem exists_mapM_ok : ∀ {l : List α}, (∀ a ∈ l, ∃ b, f a = .ok b) → ∃ r, l.mapM f = .ok r
  | [], _ => ⟨[], rfl⟩
  | a :: l, h => by
    obtain ⟨b, hb⟩ := h a mem_cons_self
    obtain ⟨bs, hbs⟩ := exists_mapM_ok fun x hx => h x (mem_cons_of_mem a hx)
    refine ⟨b :: bs, ?_⟩
    rw [mapM_cons, bind_eq_ok]
    exact ⟨b, hb, bind_eq_ok.2 ⟨bs, hbs, rfl⟩⟩

theorem foldlM_append_eq_ok {f : α → Except ε (List β)} {init out : List β}
    (h : l.foldlM (fun acc a => do return acc ++ (← f a)) init = .ok out) :
    ∃ parts, List.Forall₂ (fun a part => f a = .ok part) l parts ∧ out = init ++ parts.flatten := by
  induction l generalizing init with
  | nil =>
    obtain rfl : init = out := Except.ok.inj h
    exact ⟨[], List.Forall₂.nil, by simp⟩
  | cons a l ih =>
    rw [foldlM_cons, bind_eq_ok] at h
    obtain ⟨acc, hacc, h⟩ := h
    obtain ⟨part, ha, hacc⟩ := bind_eq_ok.1 hacc
    obtain rfl : init ++ part = acc := Except.ok.inj hacc
    obtain ⟨parts, hparts, rfl⟩ := ih h
    exact ⟨part :: parts, List.Forall₂.cons ha hparts, by simp⟩

theorem exists_foldlM_append {f : α → Except ε (List β)} (h : ∀ a ∈ l, ∃ part, f a = .ok part)
    (init : List β) : ∃ out, l.foldlM (fun acc a => do return acc ++ (← f a)) init = .ok out := by
  induction l generalizing init with
  | nil => exact ⟨init, rfl⟩
  | cons a l ih =>
    obtain ⟨part, ha⟩ := h a mem_cons_self
    obtain ⟨out, hout⟩ := ih (fun b hb => h b (mem_cons_of_mem a hb)) (init ++ part)
    refine ⟨out, ?_⟩
    rw [foldlM_cons, bind_eq_ok]
    exact ⟨init ++ part, by rw [ha]; rfl, hout⟩

theorem foldlM_rel {R : β → β → Prop} (refl : ∀ b, R b b) (trans : ∀ {a b c}, R a b → R b c → R a c)
    {f : β → α → Except ε β} (step : ∀ b a b', f b a = .ok b' → R b b') {init out : β}
    (h : l.foldlM f init = .ok out) : R init out := by
  induction l generalizing init with
  | nil =>
    obtain rfl := Except.ok.inj h
    exact refl init
  | cons a l ih =>
    rw [foldlM_cons, bind_eq_ok] at h
    obtain ⟨b, hb, h⟩ := h
    exact trans (step init a b hb) (ih h)

theorem map_bind_comm {f' : α → Except ε β} {g : α → α} {g' : β → β}
    (h : ∀ a, f' (g a) = (f a).map g') (x : Except ε α) : x.map g >>= f' = (x >>= f).map g' := by
  cases x with
  | error e => rfl
  | ok a => exact h a

theorem foldlM_map_comm {f f' : β → α → Except ε β} (g : β → β)
    (h : ∀ b a, f' (g b) a = (f b a).map g) (l : List α) (init : β) :
    l.foldlM f' (g init) = (l.foldlM f init).map g := by
  induction l generalizing init with
  | nil => rfl
  | cons a l ih =>
    rw [foldlM_cons, foldlM_cons, h]
    exact map_bind_comm ih (f init a)

theorem filter_flatten_eq_nil (keep : β → Bool) {R : α → List β → Prop}
    {parts : List (List β)} (h : List.Forall₂ R l parts)
    (hother : ∀ a ∈ l, ∀ part, R a part → part.filter keep = []) : parts.flatten.filter keep = [] := by
  induction h with
  | nil => rfl
  | @cons a part l parts ha _ ih =>
    rw [flatten_cons, filter_append, hother a (by simp) part ha,
      ih fun a' ha' => hother a' (by simp [ha']), append_nil]

theorem filter_flatten (keep : β → Bool) {R : α → List β → Prop}
    {parts : List (List β)} (h : List.Forall₂ R l parts) (hnodup : l.Nodup) {a : α} (ha : a ∈ l)
    (hother : ∀ a' ∈ l, a' ≠ a → ∀ part, R a' part → part.filter keep = []) :
    ∃ part, R a part ∧ parts.flatten.filter keep = part.filter keep := by
  induction h with
  | nil => cases ha
  | @cons a' part l parts ha' hrest ih =>
    obtain ⟨hnot, hnodup⟩ := nodup_cons.1 hnodup
    rw [flatten_cons, filter_append]
    by_cases heq : a' = a
    · subst heq
      refine ⟨part, ha', ?_⟩
      rw [filter_flatten_eq_nil keep hrest fun b hb => hother b (by simp [hb]) fun hba => hnot (hba ▸ hb),
        append_nil]
    · obtain ⟨part', hpart', hflat⟩ := ih hnodup ((mem_cons.1 ha).resolve_left (Ne.symm heq))
        fun b hb => hother b (by simp [hb])
      refine ⟨part', hpart', ?_⟩
      rw [hother a' (by simp) heq part ha', hflat, nil_append]

end TurboPanel
