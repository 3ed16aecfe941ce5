import Mathlib.Tactic

/-!
# Wildcards

A pattern is a list of pieces: each takes one symbol that passes a test, or a run of them. `Accepts`
says which words a pattern takes, and `accepts` tries the runs from the shortest one
(`accepts_iff`).
-/

namespace TurboPanel.Wildcard

open List

variable {α : Type*}

inductive Piece (α : Type*)
  | one (test : α → Bool)
  | run (test : α → Bool)

/-- The word is cut into the parts that the pieces take. -/
def Accepts : List (Piece α) → List α → Prop
  | [], word => word = []
  | .one test :: pieces, word => ∃ a rest, word = a :: rest ∧ test a = true ∧ Accepts pieces rest
  | .run test :: pieces, word => ∃ part rest, word = part ++ rest ∧ (∀ a ∈ part, test a = true) ∧ Accepts pieces rest

/-- A run of symbols, and then the rest. -/
def acceptsRun (test : α → Bool) (rest : List α → Bool) : List α → Bool
  | [] => rest []
  | a :: word => rest (a :: word) || test a && acceptsRun test rest word

def accepts : List (Piece α) → List α → Bool
  | [], word => word.isEmpty
  | .one _ :: _, [] => false
  | .one test :: pieces, a :: word => test a && accepts pieces word
  | .run test :: pieces, word => acceptsRun test (accepts pieces) word

variable {word : List α}

theorem acceptsRun_iff {test : α → Bool} {rest : List α → Bool} : acceptsRun test rest word = true ↔
    ∃ part word', word = part ++ word' ∧ (∀ a ∈ part, test a = true) ∧ rest word' = true := by
  induction word with
  | nil =>
    constructor
    · exact fun h => ⟨[], [], rfl, by simp, h⟩
    · rintro ⟨part, word', heq, -, hrest⟩
      rwa [(append_eq_nil_iff.1 heq.symm).2] at hrest
  | cons a word ih =>
    rw [acceptsRun, Bool.or_eq_true, Bool.and_eq_true, ih]
    constructor
    · rintro (hnone | ⟨ha, part, word', rfl, hpart, hrest⟩)
      · exact ⟨[], a :: word, rfl, by simp, hnone⟩
      · exact ⟨a :: part, word', rfl, forall_mem_cons.2 ⟨ha, hpart⟩, hrest⟩
    · rintro ⟨part, word', heq, hpart, hrest⟩
      cases part with
      | nil => exact .inl (heq ▸ hrest)
      | cons b part =>
        cases heq
        obtain ⟨hb, hpart⟩ := forall_mem_cons.1 hpart
        exact .inr ⟨hb, part, word', rfl, hpart, hrest⟩

variable {pieces : List (Piece α)}

/-- **The search finds a cut when there is one.** -/
theorem accepts_iff : accepts pieces word = true ↔ Accepts pieces word := by
  induction pieces generalizing word with
  | nil => exact isEmpty_iff
  | cons piece pieces ih =>
    cases piece with
    | one test =>
      cases word with
      | nil => simp [accepts, Accepts]
      | cons a word =>
        rw [accepts, Bool.and_eq_true, ih, Accepts]
        constructor
        · rintro ⟨ha, hrest⟩
          exact ⟨a, word, rfl, ha, hrest⟩
        · rintro ⟨b, word', heq, hb, hrest⟩
          cases heq
          exact ⟨hb, hrest⟩
    | run test =>
      rw [accepts, acceptsRun_iff, Accepts]
      simp only [ih]

theorem not_accepts_of_mem {test : α → Bool} (h : .one test ∈ pieces)
    (hword : ∀ a ∈ word, test a = false) : ¬ Accepts pieces word := by
  induction pieces generalizing word with
  | nil => exact nomatch h
  | cons piece pieces ih =>
    cases piece with
    | one test' =>
      rintro ⟨a, rest, rfl, ha, hrest⟩
      obtain heq | h := mem_cons.1 h
      · cases heq
        rw [hword a mem_cons_self] at ha
        exact Bool.false_ne_true ha
      · exact ih h (fun b hb => hword b (mem_cons_of_mem a hb)) hrest
    | run test' =>
      rintro ⟨part, rest, rfl, -, hrest⟩
      have h : .one test ∈ pieces := (mem_cons.1 h).resolve_left (by simp)
      exact ih h (fun b hb => hword b (mem_append_right part hb)) hrest

/-- Two pieces are of one kind and take the same symbols of an alphabet. -/
inductive Piece.AgreesOn (alphabet : α → Prop) : Piece α → Piece α → Prop
  | one {test test' : α → Bool} (h : ∀ a, alphabet a → test a = test' a) : AgreesOn alphabet (.one test) (.one test')
  | run {test test' : α → Bool} (h : ∀ a, alphabet a → test a = test' a) : AgreesOn alphabet (.run test) (.run test')

/-- **Patterns whose pieces take the same symbols of an alphabet agree on its words.** -/
theorem accepts_congr {alphabet : α → Prop} {pieces' : List (Piece α)}
    (h : List.Forall₂ (Piece.AgreesOn alphabet) pieces pieces') (hword : ∀ a ∈ word, alphabet a) :
    Accepts pieces word ↔ Accepts pieces' word := by
  induction h generalizing word with
  | nil => exact Iff.rfl
  | cons hpiece hrest ih =>
    cases hpiece with
    | one htest =>
      refine exists_congr fun a => exists_congr fun rest => and_congr_right ?_
      rintro rfl
      obtain ⟨ha, hrest⟩ := forall_mem_cons.1 hword
      rw [htest a ha, ih hrest]
    | run htest =>
      refine exists_congr fun part => exists_congr fun rest => and_congr_right ?_
      rintro rfl
      obtain ⟨hpart, hrest⟩ := forall_mem_append.1 hword
      rw [ih hrest]
      refine and_congr_left fun _ => forall₂_congr fun a ha => ?_
      rw [htest a (hpart a ha)]

end TurboPanel.Wildcard
