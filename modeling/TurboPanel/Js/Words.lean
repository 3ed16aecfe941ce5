import TurboPanel.Js.Bounded
import TurboPanel.Js.Text

/-!
# Words of a line

The parts of a text that is split at its white space, without the empty ones, are its words.
Together they are its characters that are not white space (`flatten_splitSpaces`), and a line in
which words stand with one blank between them has these words (`words_intercalate`) and is no longer
than any other line that has them (`utf16Length_words_le`).
-/

namespace TurboPanel.Js

open List

/-! ## Lengths -/

theorem utf16Length_append (l r : Text) : utf16Length (l ++ r) = utf16Length l + utf16Length r := by
  rw [utf16Length, utf16Length, utf16Length, map_append, sum_append]

theorem utf16Length_cons (c : Char) (l : Text) :
    utf16Length (c :: l) = (if c.toNat < 0x10000 then 1 else 2) + utf16Length l := by
  rw [utf16Length, utf16Length, map_cons, sum_cons]

theorem length_le_utf16Length (l : Text) : l.length ≤ utf16Length l := by
  induction l with
  | nil => exact le_rfl
  | cons c l ih =>
    rw [utf16Length_cons, length_cons]
    split_ifs <;> omega

theorem utf16Length_filter_add (p : Char → Bool) (l : Text) :
    utf16Length (l.filter p) + utf16Length (l.filter (!p ·)) = utf16Length l := by
  induction l with
  | nil => rfl
  | cons c l ih =>
    rw [filter_cons, filter_cons, utf16Length_cons]
    cases h : p c
    · simp only [Bool.false_eq_true, if_false, Bool.not_false, if_true, utf16Length_cons]
      omega
    · simp only [if_true, Bool.not_true, Bool.false_eq_true, if_false, utf16Length_cons]
      omega

/-! ## Splitting -/

theorem splitSpaces_ne_nil : ∀ l : Text, splitSpaces l ≠ []
  | [] => cons_ne_nil _ _
  | [c] => by
    rw [splitSpaces]
    split_ifs <;> exact cons_ne_nil _ _
  | c :: d :: rest => by
    have ih := splitSpaces_ne_nil (d :: rest)
    rw [splitSpaces]
    split_ifs
    · exact ih
    · exact cons_ne_nil _ _
    · obtain ⟨first, others, hparts⟩ := exists_cons_of_ne_nil ih
      rw [hparts, modifyHead_cons]
      exact cons_ne_nil _ _

theorem flatten_splitSpaces : ∀ l : Text, (splitSpaces l).flatten = l.filter (!isSpace ·)
  | [] => rfl
  | [c] => by
    rw [splitSpaces]
    cases h : isSpace c <;> simp [h]
  | c :: d :: rest => by
    have ih := flatten_splitSpaces (d :: rest)
    rw [splitSpaces, filter_cons]
    by_cases hc : isSpace c = true
    · rw [if_pos hc, if_neg (show ¬(!isSpace c) = true by simp [hc]), ← ih]
      split_ifs
      · rfl
      · rw [flatten_cons, nil_append]
    · rw [if_neg hc, if_pos (by simpa using hc)]
      obtain ⟨first, others, hparts⟩ := exists_cons_of_ne_nil (splitSpaces_ne_nil (d :: rest))
      rw [hparts, flatten_cons] at ih
      rw [hparts, modifyHead_cons, flatten_cons, cons_append, ih]

theorem length_splitSpaces_le : ∀ l : Text, (splitSpaces l).length ≤ l.countP isSpace + 1
  | [] => le_rfl
  | [c] => by
    rw [splitSpaces]
    cases h : isSpace c <;> simp [h]
  | c :: d :: rest => by
    have ih := length_splitSpaces_le (d :: rest)
    rw [splitSpaces, countP_cons]
    split_ifs with hc hd
    · omega
    · rw [length_cons]
      omega
    · rw [length_modifyHead]
      omega

/-! ## Words -/

/-- `text.split(/\s+/).filter((token) => token.length > 0)`. -/
def words (l : Text) : List Text := (splitSpaces l).filter (0 < ·.length)

theorem flatten_words (l : Text) : (words l).flatten = l.filter (!isSpace ·) := by
  rw [← flatten_splitSpaces, words]
  induction splitSpaces l with
  | nil => rfl
  | cons part parts ih =>
    rw [filter_cons, flatten_cons, ← ih]
    split_ifs with h
    · rw [flatten_cons]
    · have hnil : part = [] := by simpa using h
      rw [hnil, nil_append]

variable {l word : Text}

theorem ne_nil_of_mem_words (h : word ∈ words l) : word ≠ [] := by
  have hpos := (mem_filter.1 h).2
  rintro rfl
  cases hpos

theorem mem_of_mem_words (h : word ∈ words l) {c : Char} (hc : c ∈ word) : c ∈ l ∧ isSpace c = false := by
  have hmem : c ∈ (words l).flatten := mem_flatten.2 ⟨word, h, hc⟩
  rw [flatten_words] at hmem
  simpa using mem_filter.1 hmem

/-- A text that is not empty and has no white space. -/
structure IsWord (part : Text) : Prop where
  ne_nil : part ≠ []
  not_space : ∀ c ∈ part, isSpace c = false

theorem isWord_of_mem_words (h : word ∈ words l) : IsWord word :=
  ⟨ne_nil_of_mem_words h, fun _ hc => (mem_of_mem_words h hc).2⟩

section

variable {parts : List Text} (hne : parts ≠ []) (hword : ∀ part ∈ parts, IsWord part)

include hne hword

theorem ends_intercalate : [' '].intercalate parts ≠ [] ∧
    (∀ c ∈ ([' '].intercalate parts).head?, isSpace c = false) ∧
    ∀ c ∈ ([' '].intercalate parts).getLast?, isSpace c = false := by
  induction parts with
  | nil => exact absurd rfl hne
  | cons part parts ih =>
    obtain ⟨hpart, hspace⟩ := hword part mem_cons_self
    cases parts with
    | nil =>
      rw [show [' '].intercalate [part] = part by simp [List.intercalate]]
      exact ⟨hpart, fun c hc => hspace c (mem_of_mem_head? hc), fun c hc => hspace c (mem_of_getLast? hc)⟩
    | cons next parts =>
      obtain ⟨hrest, -, hlast⟩ := ih (cons_ne_nil _ _) fun p hp => hword p (mem_cons_of_mem _ hp)
      rw [intercalate_cons_cons]
      refine ⟨append_ne_nil_of_right_ne_nil _ hrest, fun c hc => ?_, fun c hc => ?_⟩
      · rw [append_assoc, head?_append_of_ne_nil _ hpart] at hc
        exact hspace c (mem_of_mem_head? hc)
      · rw [getLast?_append_of_ne_nil _ hrest] at hc
        exact hlast c hc

theorem trim_intercalate : trim ([' '].intercalate parts) = [' '].intercalate parts :=
  trim_eq_self (ends_intercalate hne hword).2.1 (ends_intercalate hne hword).2.2

theorem splitSpaces_intercalate : splitSpaces ([' '].intercalate parts) = parts := by
  induction parts with
  | nil => exact absurd rfl hne
  | cons part parts ih =>
    cases parts with
    | nil => simpa [List.intercalate] using splitSpaces_eq_singleton (hword part mem_cons_self).not_space
    | cons next parts =>
      have hne' : next :: parts ≠ [] := cons_ne_nil _ _
      have hword' : ∀ p ∈ next :: parts, IsWord p := fun p hp => hword p (mem_cons_of_mem _ hp)
      obtain ⟨hrest, hhead, -⟩ := ends_intercalate hne' hword'
      rw [intercalate_cons_cons, splitSpaces_append (w := [' ']) (by decide) (by decide) hhead hrest
        (hword part mem_cons_self).not_space, ih hne' hword']

theorem words_intercalate : words ([' '].intercalate parts) = parts := by
  rw [words, splitSpaces_intercalate hne hword, filter_eq_self]
  exact fun part hpart => decide_eq_true (length_pos_iff.2 (hword part hpart).ne_nil)

end

theorem utf16Length_intercalate {parts : List Text} (hne : parts ≠ []) :
    utf16Length ([' '].intercalate parts) + 1 = utf16Length parts.flatten + parts.length := by
  induction parts with
  | nil => exact absurd rfl hne
  | cons part parts ih =>
    cases parts with
    | nil => simp [List.intercalate]
    | cons next parts =>
      have hrest := ih (cons_ne_nil _ _)
      rw [intercalate_cons_cons, utf16Length_append, utf16Length_append, flatten_cons, utf16Length_append,
        length_cons]
      have hblank : utf16Length [' '] = 1 := by decide
      omega

theorem utf16Length_words_le (hne : words l ≠ []) :
    utf16Length ([' '].intercalate (words l)) ≤ utf16Length l := by
  have hlength := utf16Length_intercalate hne
  have hcount : (words l).length ≤ l.countP isSpace + 1 :=
    (length_filter_le _ _).trans (length_splitSpaces_le l)
  have hspaces : l.countP isSpace ≤ utf16Length (l.filter isSpace) := by
    rw [countP_eq_length_filter]
    exact length_le_utf16Length _
  have hsum := utf16Length_filter_add isSpace l
  rw [flatten_words] at hlength
  omega

end TurboPanel.Js
