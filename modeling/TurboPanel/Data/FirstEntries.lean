import Mathlib.Data.List.Nodup
import Mathlib.Data.List.Perm.Basic
import Mathlib.Tactic

/-!
# First entries

A table that a list of entries gives, read by key: the first entry of a key answers for it. What the
keys that are read say is what all entries say, in some order, exactly if no entry that says
something has an unread key or stands behind another entry of its key
(`filterMap_firstFact_perm_iff`).
-/

namespace TurboPanel.Data

open List

variable {κ ε φ : Type*} [DecidableEq κ] (key : ε → κ) (fact : ε → Option φ)

/-- What the first entry of a key says. -/
def firstFact (entries : List ε) (k : κ) : Option φ := (entries.find? fun e => decide (key e = k)).bind fact

@[simp] theorem firstFact_nil (k : κ) : firstFact key fact [] k = none := rfl

theorem firstFact_cons (e : ε) (entries : List ε) (k : κ) :
    firstFact key fact (e :: entries) k = if key e = k then fact e else firstFact key fact entries k := by
  rw [firstFact, find?_cons, firstFact]
  by_cases h : key e = k
  · rw [if_pos h, decide_eq_true h]
    rfl
  · rw [if_neg h, decide_eq_false h]

variable {key fact}

variable {keys : List κ}

theorem filterMap_firstFact_cons {e : ε} {entries : List ε} (h : key e ∉ keys) :
    keys.filterMap (firstFact key fact (e :: entries)) = keys.filterMap (firstFact key fact entries) :=
  filterMap_congr fun k hk => by
    rw [firstFact_cons, if_neg]
    rintro rfl
    exact h hk

theorem filterMap_firstFact_perm {e : ε} {entries : List ε} (hkeys : keys.Nodup) (h : key e ∈ keys) :
    (keys.filterMap (firstFact key fact (e :: entries))).Perm
      ((fact e).toList ++ (keys.erase (key e)).filterMap (firstFact key fact entries)) := by
  refine ((perm_cons_erase h).filterMap _).trans (List.Perm.of_eq ?_)
  rw [filterMap_cons, firstFact_cons, if_pos rfl, filterMap_firstFact_cons hkeys.not_mem_erase]
  cases fact e with
  | none => rfl
  | some f => rfl

/-- **The first entries say what all entries say** exactly if every entry that says something is of
a read key and the first of its key. -/
theorem filterMap_firstFact_perm_iff {keyOf : φ → κ} (hkeyOf : ∀ e f, fact e = some f → keyOf f = key e)
    (hkeys : keys.Nodup) (entries : List ε) :
    (keys.filterMap (firstFact key fact entries)).Perm (entries.filterMap fact) ↔
      (∀ e ∈ entries, (fact e).isSome → key e ∈ keys) ∧
        entries.Pairwise fun e later => key e = key later → fact later = none := by
  induction entries generalizing keys with
  | nil => simp
  | cons e entries ih =>
    rw [pairwise_cons, forall_mem_cons]
    by_cases he : key e ∈ keys
    · have hrest : (keys.filterMap (firstFact key fact (e :: entries))).Perm ((e :: entries).filterMap fact) ↔
          ((keys.erase (key e)).filterMap (firstFact key fact entries)).Perm (entries.filterMap fact) := by
        rw [(filterMap_firstFact_perm hkeys he).congr_left, filterMap_cons]
        cases fact e with
        | none => exact Iff.rfl
        | some f => exact perm_cons f
      rw [hrest, ih (hkeys.erase (key e))]
      constructor
      · rintro ⟨hread, honce⟩
        refine ⟨⟨fun _ => he, fun later hlater hsome => mem_of_mem_erase (hread later hlater hsome)⟩,
          fun later hlater heq => ?_, honce⟩
        rw [← Option.not_isSome_iff_eq_none]
        intro hsome
        exact (hkeys.mem_erase_iff.1 (hread later hlater hsome)).1 heq.symm
      · rintro ⟨⟨-, hread⟩, hfirst, honce⟩
        refine ⟨fun later hlater hsome => hkeys.mem_erase_iff.2 ⟨fun heq => ?_, hread later hlater hsome⟩, honce⟩
        rw [hfirst later hlater heq.symm] at hsome
        cases hsome
    · rw [filterMap_firstFact_cons he, filterMap_cons]
      cases hfact : fact e with
      | none =>
        dsimp only
        rw [ih hkeys]
        constructor
        · rintro ⟨hread, honce⟩
          refine ⟨⟨nofun, hread⟩, fun later hlater heq => ?_, honce⟩
          rw [← Option.not_isSome_iff_eq_none]
          intro hsome
          exact he (heq ▸ hread later hlater hsome)
        · rintro ⟨⟨-, hread⟩, -, honce⟩
          exact ⟨hread, honce⟩
      | some f =>
        dsimp only
        refine iff_of_false (fun hperm => he ?_) fun h => he (h.1.1 rfl)
        -- an answer is about a key that is read
        obtain ⟨k, hk, hanswer⟩ := mem_filterMap.1 (hperm.mem_iff.2 mem_cons_self)
        rw [firstFact] at hanswer
        obtain ⟨first, hfirst, hsays⟩ := Option.bind_eq_some_iff.1 hanswer
        have hkey : key first = k := by simpa using find?_some hfirst
        rw [← hkeyOf e f hfact, hkeyOf first f hsays, hkey]
        exact hk

theorem filterMap_perm_of_subset {α : Type*} [DecidableEq α] {f : α → Option φ} {l m : List α} (hl : l.Nodup)
    (hm : m.Nodup) (hsub : ∀ a ∈ m, a ∈ l) (hnone : ∀ a ∈ l, a ∉ m → f a = none) :
    (l.filterMap f).Perm (m.filterMap f) := by
  have hsplit : l.Perm (m ++ l.filter fun a => decide (a ∉ m)) := by
    refine (perm_ext_iff_of_nodup hl (nodup_append.2 ⟨hm, hl.filter _, ?_⟩)).2 fun a => ?_
    · rintro a ha b hb rfl
      exact of_decide_eq_true (mem_filter.1 hb).2 ha
    · rw [mem_append, mem_filter, decide_eq_true_eq]
      constructor
      · intro ha
        by_cases hmem : a ∈ m
        · exact .inl hmem
        · exact .inr ⟨ha, hmem⟩
      · rintro (ha | ⟨ha, -⟩)
        · exact hsub a ha
        · exact ha
  refine (hsplit.filterMap f).trans (List.Perm.of_eq ?_)
  rw [filterMap_append]
  have hnil : (l.filter fun a => decide (a ∉ m)).filterMap f = [] :=
    filterMap_eq_nil_iff.2 fun a ha =>
      hnone a (mem_filter.1 ha).1 (of_decide_eq_true (mem_filter.1 ha).2)
  rw [hnil, append_nil]

end TurboPanel.Data
