import Mathlib.Data.List.Chain
import Mathlib.Data.List.TakeWhile
import Mathlib.Tactic

/-!
# Text, as the string methods of ECMAScript read it

A string that is taken apart is a list of characters. This module has the string methods that
parsers are written with, and the rules their proofs use:

* `trim` and white space (`trim_eq_self`);
* `lastIndexOf` (`lastIndexOf_eq_none`, `lastIndexOf_append_cons`);
* `splitPair`, the split at a separator of two characters (`splitPair_append`);
* digits in a radix up to 16: `ofDigits` reads what `Nat.toDigits` writes
  (`ofDigits_toDigits`), and `parseInt` reads a run of digits (`parseInt_digits`).

Splitting at one character is `List.splitOn`, and joining is `List.intercalate`.
-/

namespace TurboPanel.Js

open List

/-- A string that the program takes apart. -/
abbrev Text := List Char

instance lawfulBEqText : LawfulBEq Text := inferInstance

/-! ## White space -/

/-- White space and line terminators: what `trim` removes and `\s` matches. -/
def isSpace (c : Char) : Bool :=
  (9 ≤ c.toNat && c.toNat ≤ 13) || c.toNat == 0x20 || c.toNat == 0xA0 || c.toNat == 0x1680 ||
    (0x2000 ≤ c.toNat && c.toNat ≤ 0x200A) || c.toNat == 0x2028 || c.toNat == 0x2029 ||
    c.toNat == 0x202F || c.toNat == 0x205F || c.toNat == 0x3000 || c.toNat == 0xFEFF

/-- `String.prototype.trim`. -/
def trim (l : List Char) : List Char :=
  ((l.dropWhile isSpace).reverse.dropWhile isSpace).reverse

variable {c : Char} {radix : ℕ} {α : Type*} (l : List Char)

theorem dropWhile_eq_self_of_head {p : α → Bool} {l : List α} (h : ∀ a ∈ l.head?, p a = false) :
    l.dropWhile p = l := by
  cases l with
  | nil => rfl
  | cons a l => simp [h a (by simp)]

theorem trim_eq_self {l : List Char} (hh : ∀ c ∈ l.head?, isSpace c = false)
    (hl : ∀ c ∈ l.getLast?, isSpace c = false) : trim l = l := by
  rw [trim, dropWhile_eq_self_of_head hh, dropWhile_eq_self_of_head, reverse_reverse]
  simpa using hl

theorem trim_eq_self_of_forall {l : List Char} (h : ∀ c ∈ l, isSpace c = false) : trim l = l :=
  trim_eq_self (fun c hc => h c (mem_of_mem_head? hc))
    (fun c hc => h c (mem_of_getLast? hc))

theorem head?_dropWhile_not (p : α → Bool) (l : List α) :
    ∀ a ∈ (l.dropWhile p).head?, p a = false := by
  intro a ha
  have := List.head?_dropWhile_not p l
  rw [Option.mem_def.1 ha] at this
  simpa using this

theorem getLast?_dropWhile_of_mem {p : α → Bool} {l : List α} {a : α} (h : a ∈ (l.dropWhile p).getLast?) :
    a ∈ l.getLast? := by
  induction l with
  | nil => simp at h
  | cons b l ih =>
    rw [dropWhile_cons] at h
    split at h
    · have := ih h
      rw [getLast?_cons]
      rw [Option.mem_def] at this
      simp [this]
    · exact h

theorem head?_trim : ∀ c ∈ (trim l).head?, isSpace c = false := by
  intro c hc
  rw [trim, head?_reverse] at hc
  have := getLast?_dropWhile_of_mem hc
  rw [getLast?_reverse] at this
  exact head?_dropWhile_not isSpace l c this

theorem getLast?_trim : ∀ c ∈ (trim l).getLast?, isSpace c = false := by
  intro c hc
  rw [trim, getLast?_reverse] at hc
  exact head?_dropWhile_not isSpace _ c hc

@[simp] theorem trim_trim : trim (trim l) = trim l :=
  trim_eq_self (head?_trim l) (getLast?_trim l)

theorem mem_of_mem_trim {l : List Char} (h : c ∈ trim l) : c ∈ l := by
  rw [trim, mem_reverse] at h
  exact (dropWhile_subset _ (mem_reverse.1 ((dropWhile_subset _) h)))

theorem exists_eq_append_trim :
    ∃ w₁ w₂, (∀ c ∈ w₁, isSpace c = true) ∧ (∀ c ∈ w₂, isSpace c = true) ∧
      l = w₁ ++ trim l ++ w₂ := by
  refine ⟨l.takeWhile isSpace, ((l.dropWhile isSpace).reverse.takeWhile isSpace).reverse, ?_, ?_, ?_⟩
  · exact fun c hc => mem_takeWhile_imp hc
  · exact fun c hc => mem_takeWhile_imp (mem_reverse.1 hc)
  · rw [trim, append_assoc, ← reverse_append, takeWhile_append_dropWhile,
      reverse_reverse, takeWhile_append_dropWhile]

theorem trim_padded {w l w' : Text} (hw : ∀ c ∈ w, isSpace c = true)
    (hw' : ∀ c ∈ w', isSpace c = true) (hh : ∀ c ∈ l.head?, isSpace c = false)
    (hl : ∀ c ∈ l.getLast?, isSpace c = false) (hne : l ≠ []) : trim (w ++ l ++ w') = l := by
  have h₁ : (w ++ l ++ w').dropWhile isSpace = l ++ w' := by
    rw [append_assoc, dropWhile_append_of_pos hw, dropWhile_eq_self_of_head]
    rwa [head?_append_of_ne_nil _ hne]
  have h₂ : (w'.reverse ++ l.reverse).dropWhile isSpace = l.reverse := by
    rw [dropWhile_append_of_pos (fun c hc => hw' c (mem_reverse.1 hc)),
      dropWhile_eq_self_of_head]
    simpa using hl
  rw [trim, h₁, reverse_append, h₂, reverse_reverse]

/-! ## Searching and splitting -/

/-- `String.prototype.lastIndexOf` of one character; `none` for the answer `-1`. -/
def lastIndexOf (c : Char) : List Char → Option ℕ
  | [] => none
  | x :: xs =>
    match lastIndexOf c xs with
    | some i => some (i + 1)
    | none => if x = c then some 0 else none

@[simp] theorem lastIndexOf_eq_none {l : List Char} : lastIndexOf c l = none ↔ c ∉ l := by
  induction l with
  | nil => simp [lastIndexOf]
  | cons x xs ih =>
    rw [lastIndexOf, mem_cons, not_or, ← ih]
    cases lastIndexOf c xs with
    | some i => simp
    | none => simp [eq_comm]

variable {r : List Char}

theorem lastIndexOf_append_cons (h : c ∉ r) : lastIndexOf c (l ++ c :: r) = some l.length := by
  induction l with
  | nil => simp [lastIndexOf, lastIndexOf_eq_none.2 h]
  | cons x xs ih => simp [lastIndexOf, ih]

theorem lastIndexOf_eq_some {l : List Char} {i : ℕ} (h : lastIndexOf c l = some i) :
    l = l.take i ++ c :: l.drop (i + 1) ∧ c ∉ l.drop (i + 1) := by
  induction l generalizing i with
  | nil => simp [lastIndexOf] at h
  | cons x xs ih =>
    rw [lastIndexOf] at h
    cases hx : lastIndexOf c xs with
    | some j =>
      rw [hx] at h
      obtain rfl : j + 1 = i := by simpa using h
      obtain ⟨h₁, h₂⟩ := ih hx
      refine ⟨?_, by simpa using h₂⟩
      rw [take_succ_cons, drop_succ_cons, cons_append, ← h₁]
    | none =>
      rw [hx] at h
      simp only [Option.ite_none_right_eq_some, Option.some.injEq] at h
      obtain ⟨rfl, rfl⟩ := h
      exact ⟨by simp, by simpa using hx⟩

theorem append_cons_inj {c : α} : ∀ {p q x y : List α}, c ∉ p → c ∉ q →
    p ++ c :: x = q ++ c :: y → p = q ∧ x = y
  | [], [], _, _, _, _, h => ⟨rfl, by simpa using h⟩
  | [], b :: _, _, _, _, hq, h => by
    cases h
    exact absurd mem_cons_self hq
  | a :: _, [], _, _, hp, _, h => by
    cases h
    exact absurd mem_cons_self hp
  | a :: p, b :: q, _, _, hp, hq, h => by
    obtain ⟨rfl, htail⟩ := List.cons.inj h
    obtain ⟨rfl, hxy⟩ := append_cons_inj (fun hm => hp (mem_cons_of_mem _ hm))
      (fun hm => hq (mem_cons_of_mem _ hm)) htail
    exact ⟨rfl, hxy⟩

theorem mem_intercalate_singleton {a c : α} {ls : List (List α)} (h : c ∈ [a].intercalate ls) :
    c = a ∨ ∃ l ∈ ls, c ∈ l := by
  induction ls with
  | nil => simp [List.intercalate] at h
  | cons l ls ih =>
    cases ls with
    | nil =>
      refine .inr ⟨l, by simp, ?_⟩
      simpa [List.intercalate] using h
    | cons m ms =>
      rw [intercalate_cons_cons] at h
      rcases mem_append.1 h with h | h
      · rcases mem_append.1 h with h | h
        · exact .inr ⟨l, by simp, h⟩
        · exact .inl (by simpa using h)
      · rcases ih h with h | ⟨l', hl', h⟩
        · exact .inl h
        · exact .inr ⟨l', mem_cons_of_mem _ hl', h⟩

/-! ## Prefixes of joined texts -/

variable {parts : List Text}

theorem flatMap_append_singleton (h : parts ≠ []) :
    (parts.flatMap fun p => p ++ [c]) = [c].intercalate parts ++ [c] := by
  induction parts with
  | nil => exact absurd rfl h
  | cons p parts ih =>
    cases parts with
    | nil => simp [List.intercalate]
    | cons q parts =>
      rw [flatMap_cons, ih (cons_ne_nil q parts), intercalate_cons_cons]
      simp

theorem intercalate_concat_nil (parts : List Text) :
    [c].intercalate (parts ++ [[]]) = parts.flatMap fun p => p ++ [c] := by
  induction parts with
  | nil => rfl
  | cons p parts ih =>
    cases parts with
    | nil => simp [List.intercalate]
    | cons q parts =>
      rw [cons_append, cons_append, intercalate_cons_cons, flatMap_cons, ← ih]
      rfl

variable {t : Text}

theorem append_cons_isPrefix {p x y : Text} (hp : c ∉ p) (ht : c ∉ t) :
    p ++ c :: x <+: t ++ c :: y ↔ p = t ∧ x <+: y := by
  constructor
  · rintro ⟨r, hr⟩
    rw [append_assoc, cons_append] at hr
    obtain ⟨rfl, hxy⟩ := append_cons_inj hp ht hr
    exact ⟨rfl, r, hxy⟩
  · rintro ⟨rfl, r, rfl⟩
    exact ⟨r, by simp⟩

theorem not_append_cons_isPrefix {p x : Text} (ht : c ∉ t) : ¬p ++ c :: x <+: t := fun h =>
  ht (h.subset (mem_append_right _ mem_cons_self))

/-- **A prefix that ends with a separator is a list of parts**, and parts follow. -/
theorem flatMap_isPrefix_intercalate {texts : List Text} (hp : ∀ p ∈ parts, c ∉ p) (ht : ∀ t ∈ texts, c ∉ t)
    (hne : texts ≠ []) : (parts.flatMap fun p => p ++ [c]) <+: [c].intercalate texts ↔
      parts <+: texts ∧ parts.length < texts.length := by
  induction parts generalizing texts with
  | nil => simpa using length_pos_iff.2 hne
  | cons p parts ih =>
    obtain ⟨t, texts, rfl⟩ := exists_cons_of_ne_nil hne
    have hpc : c ∉ p := hp p mem_cons_self
    have htc : c ∉ t := ht t mem_cons_self
    rw [flatMap_cons, append_assoc, singleton_append]
    cases texts with
    | nil =>
      refine iff_of_false ?_ fun h => absurd h.2 (by simp)
      simpa [List.intercalate] using not_append_cons_isPrefix htc
    | cons t' texts =>
      rw [intercalate_cons_cons, append_assoc, singleton_append,
        append_cons_isPrefix hpc htc,
        ih (fun q hq => hp q (mem_cons_of_mem _ hq)) (fun q hq => ht q (mem_cons_of_mem _ hq))
          (cons_ne_nil t' texts), cons_prefix_cons, and_assoc]
      simp only [length_cons, Nat.add_lt_add_iff_right]

theorem flatMap_isPrefix_gap {texts : List Text} {rest : Text} (hp : ∀ p ∈ parts, p ≠ [] ∧ c ∉ p)
    (ht : ∀ t ∈ texts, c ∉ t) :
    (parts.flatMap fun p => p ++ [c]) <+: [c].intercalate texts ++ c :: c :: rest ↔ parts <+: texts := by
  have hgap : ∀ {ps : List Text} {z : Text}, (∀ p ∈ ps, p ≠ [] ∧ c ∉ p) →
      (ps.flatMap fun p => p ++ [c]) <+: c :: z → ps = [] := by
    intro ps z hps h
    cases ps with
    | nil => rfl
    | cons p ps =>
      obtain ⟨hne, hc⟩ := hps p mem_cons_self
      obtain ⟨a, p, rfl⟩ := exists_cons_of_ne_nil hne
      rw [flatMap_cons] at h
      exact absurd (cons_prefix_cons.1 h).1 fun hac => hc (hac ▸ mem_cons_self)
  induction parts generalizing texts with
  | nil => simp
  | cons p parts ih =>
    obtain ⟨hne, hpc⟩ := hp p mem_cons_self
    have hparts : ∀ q ∈ parts, q ≠ [] ∧ c ∉ q := fun q hq => hp q (mem_cons_of_mem _ hq)
    cases texts with
    | nil => exact iff_of_false (fun h => absurd (hgap hp h) (cons_ne_nil p parts)) (by simp)
    | cons t texts =>
      have htc : c ∉ t := ht t mem_cons_self
      rw [flatMap_cons, append_assoc, singleton_append, cons_prefix_cons]
      cases texts with
      | nil =>
        have hone : [c].intercalate [t] ++ c :: c :: rest = t ++ c :: c :: rest := by
          simp [List.intercalate]
        rw [hone, append_cons_isPrefix hpc htc, prefix_nil]
        refine and_congr_right fun _ => ⟨hgap hparts, fun h => ?_⟩
        rw [h]
        exact nil_prefix
      | cons t' texts =>
        rw [intercalate_cons_cons, append_assoc, append_assoc, singleton_append,
          append_cons_isPrefix hpc htc]
        exact and_congr_right fun _ => ih hparts fun q hq => ht q (mem_cons_of_mem _ hq)

/-- `String.prototype.split` at the two-character separator `ab`, scanning from the left. -/
def splitPair (a b : Char) : List Char → List (List Char)
  | [] => [[]]
  | [c] => [[c]]
  | c :: d :: rest =>
    if c = a ∧ d = b then [] :: splitPair a b rest
    else (splitPair a b (d :: rest)).modifyHead (c :: ·)

/-- `l` contains no occurrence of the separator `ab`. -/
def NoPair (a b : Char) (l : List Char) : Prop := l.IsChain fun x y => ¬(x = a ∧ y = b)

variable {a b : Char}

theorem noPair_of_not_mem {l : List Char} (h : a ∉ l) : NoPair a b l := by
  refine List.Pairwise.isChain (pairwise_of_forall_mem_list fun x hx y _ => ?_)
  rintro ⟨rfl, -⟩
  exact h hx

theorem noPair_intercalate {parts : List (List Char)} (hne : ∀ l ∈ parts, l ≠ [])
    (hmem : ∀ l ∈ parts, a ∉ l) : NoPair a a ([a].intercalate parts) ∧
      (∀ c ∈ ([a].intercalate parts).head?, c ≠ a) ∧ (∀ c ∈ ([a].intercalate parts).getLast?, c ≠ a) := by
  induction parts with
  | nil => exact ⟨List.IsChain.nil, by simp [List.intercalate], by simp [List.intercalate]⟩
  | cons l ls ih =>
    have hl : l ≠ [] := hne l (by simp)
    have hal : a ∉ l := hmem l (by simp)
    have hhead : ∀ c ∈ l.head?, c ≠ a := by
      rintro c hc rfl
      exact hal (mem_of_mem_head? hc)
    have hlast : ∀ c ∈ l.getLast?, c ≠ a := by
      rintro c hc rfl
      exact hal (mem_of_getLast? hc)
    obtain ⟨ih₁, ih₂, ih₃⟩ := ih (fun m hm => hne m (by simp [hm])) fun m hm => hmem m (by simp [hm])
    cases ls with
    | nil =>
      simp only [intercalate_singleton]
      exact ⟨noPair_of_not_mem hal, hhead, hlast⟩
    | cons m ms =>
      have hm : [a].intercalate (m :: ms) ≠ [] := by
        obtain ⟨c, m', rfl⟩ := exists_cons_of_ne_nil (hne m (by simp))
        cases ms <;> simp [intercalate_cons_cons]
      rw [intercalate_cons_cons, append_assoc, singleton_append]
      refine ⟨?_, ?_, ?_⟩
      · refine List.IsChain.append (noPair_of_not_mem hal) ?_ ?_
        · exact isChain_cons.2 ⟨fun c hc h => ih₂ c hc h.2, ih₁⟩
        · exact fun c hc d _ h => hlast c hc h.1
      · rwa [head?_append_of_ne_nil _ hl]
      · rw [getLast?_append_of_ne_nil _ (by simp), getLast?_cons_of_ne_nil hm]
        exact ih₃

theorem splitPair_of_noPair : ∀ {l : List Char}, NoPair a b l → splitPair a b l = [l]
  | [], _ => rfl
  | [_], _ => rfl
  | c :: d :: rest, h => by
    obtain ⟨hne, htail⟩ := isChain_cons_cons.1 h
    rw [splitPair, if_neg hne, splitPair_of_noPair htail, modifyHead_cons]

theorem splitPair_ne_nil {a b : Char} : ∀ l : List Char, splitPair a b l ≠ []
  | [] => by simp [splitPair]
  | [_] => by simp [splitPair]
  | c :: d :: rest => by
    rw [splitPair]
    split_ifs
    · simp
    · simpa using splitPair_ne_nil (d :: rest)

theorem intercalate_splitPair {a b : Char} : ∀ l : List Char,
    [a, b].intercalate (splitPair a b l) = l
  | [] => by simp [splitPair]
  | [_] => by simp [splitPair]
  | c :: d :: rest => by
    rw [splitPair]
    split_ifs with h
    · obtain ⟨rfl, rfl⟩ := h
      obtain ⟨p, ps, hp⟩ := exists_cons_of_ne_nil (@splitPair_ne_nil c d rest)
      rw [hp, intercalate_cons_cons, ← hp, intercalate_splitPair rest]
      rfl
    · have ih := @intercalate_splitPair a b (d :: rest)
      obtain ⟨p, ps, hp⟩ := exists_cons_of_ne_nil (@splitPair_ne_nil a b (d :: rest))
      rw [hp] at ih ⊢
      rw [modifyHead_cons]
      cases ps with
      | nil =>
        rw [intercalate_singleton] at ih ⊢
        rw [ih]
      | cons q qs =>
        rw [intercalate_cons_cons] at ih ⊢
        rw [cons_append, cons_append, ih]

theorem splitPair_append (r : List Char) : ∀ {l : List Char},
    NoPair a b (l ++ [a]) → splitPair a b (l ++ a :: b :: r) = l :: splitPair a b r
  | [], _ => by rw [nil_append, splitPair, if_pos ⟨rfl, rfl⟩]
  | [c], h => by
    obtain ⟨hne, -⟩ := isChain_cons_cons.1 h
    rw [singleton_append, splitPair, if_neg hne, splitPair, if_pos ⟨rfl, rfl⟩,
      modifyHead_cons]
  | c :: d :: rest, h => by
    obtain ⟨hne, htail⟩ := isChain_cons_cons.1 h
    have ih : splitPair a b (d :: (rest ++ a :: b :: r)) = (d :: rest) :: splitPair a b r :=
      splitPair_append r (l := d :: rest) htail
    rw [cons_append, cons_append, splitPair, if_neg hne, ih, modifyHead_cons]

/-- `String.prototype.split` at runs of white space. -/
def splitSpaces : Text → List Text
  | [] => [[]]
  | [c] => if isSpace c then [[], []] else [[c]]
  | c :: d :: rest =>
    if isSpace c then
      -- the separator is the whole run, so only its last character ends a part
      if isSpace d then splitSpaces (d :: rest) else [] :: splitSpaces (d :: rest)
    else (splitSpaces (d :: rest)).modifyHead (c :: ·)

theorem splitSpaces_eq_singleton : ∀ {l : Text}, (∀ c ∈ l, isSpace c = false) → splitSpaces l = [l]
  | [], _ => rfl
  | [c], h => by simp [splitSpaces, h c (by simp)]
  | c :: d :: rest, h => by
    rw [splitSpaces, h c (by simp), splitSpaces_eq_singleton fun e he => h e (by simp [he])]
    rfl

theorem splitSpaces_run {w r : Text} (hne : w ≠ []) (hw : ∀ c ∈ w, isSpace c = true)
    (hr : ∀ c ∈ r.head?, isSpace c = false) (hrne : r ≠ []) :
    splitSpaces (w ++ r) = [] :: splitSpaces r := by
  induction w with
  | nil => exact absurd rfl hne
  | cons c w ih =>
    have hc : isSpace c = true := hw c mem_cons_self
    cases w with
    | nil =>
      obtain ⟨d, r, rfl⟩ := exists_cons_of_ne_nil hrne
      have hd : isSpace d = false := hr d rfl
      rw [singleton_append, splitSpaces, if_pos hc, hd, if_neg Bool.false_ne_true]
    | cons d w =>
      have hd : isSpace d = true := hw d (mem_cons_of_mem _ mem_cons_self)
      have hrest := ih (cons_ne_nil d w) fun e he => hw e (mem_cons_of_mem _ he)
      rw [cons_append, cons_append, splitSpaces, if_pos hc, if_pos hd]
      exact hrest

theorem splitSpaces_append {w r : Text} (hw : ∀ c ∈ w, isSpace c = true) (hwne : w ≠ [])
    (hr : ∀ c ∈ r.head?, isSpace c = false) (hrne : r ≠ []) : ∀ {l : Text},
    (∀ c ∈ l, isSpace c = false) → splitSpaces (l ++ w ++ r) = l :: splitSpaces r
  | [], _ => by simpa using splitSpaces_run hwne hw hr hrne
  | [c], h => by
    obtain ⟨d, w', rfl⟩ := exists_cons_of_ne_nil hwne
    have ih := splitSpaces_append hw hwne hr hrne (l := []) (by simp)
    simp only [nil_append] at ih
    simp only [cons_append, nil_append] at ih ⊢
    rw [splitSpaces, h c (by simp), ih]
    rfl
  | c :: d :: l, h => by
    have ih := splitSpaces_append hw hwne hr hrne (l := d :: l) fun e he => h e (by simp [he])
    simp only [cons_append] at ih ⊢
    rw [splitSpaces, h c (by simp), ih]
    rfl

theorem not_isSpace_of_mem_splitSpaces : ∀ {l part : Text}, part ∈ splitSpaces l →
    ∀ c ∈ part, isSpace c = false
  | [], part, h, c, hc => by
    rw [splitSpaces, mem_singleton] at h
    subst h
    cases hc
  | [d], part, h, c, hc => by
    rw [splitSpaces] at h
    split_ifs at h with hd
    · simp only [mem_cons, not_mem_nil, or_false, or_self] at h
      subst h
      cases hc
    · rw [mem_singleton] at h
      subst h
      rw [mem_singleton] at hc
      subst hc
      simpa using hd
  | d :: e :: rest, part, h, c, hc => by
    rw [splitSpaces] at h
    split_ifs at h with hd he
    · exact not_isSpace_of_mem_splitSpaces h c hc
    · rcases mem_cons.1 h with rfl | h
      · cases hc
      · exact not_isSpace_of_mem_splitSpaces h c hc
    · -- the first part has one more character in front
      cases hparts : splitSpaces (e :: rest) with
      | nil =>
        rw [hparts] at h
        cases h
      | cons first others =>
        have hmem : ∀ p ∈ first :: others, ∀ x ∈ p, isSpace x = false := fun p hp =>
          not_isSpace_of_mem_splitSpaces (hparts ▸ hp)
        rw [hparts, modifyHead_cons] at h
        rcases mem_cons.1 h with rfl | h
        · rcases mem_cons.1 hc with rfl | hc
          · simpa using hd
          · exact hmem first (by simp) c hc
        · exact hmem part (by simp [h]) c hc

/-! ## Lengths and case -/

/-- `String.prototype.length`: the number of UTF-16 code units. -/
def utf16Length (l : Text) : ℕ := (l.map fun c => if c.toNat < 0x10000 then 1 else 2).sum

/-- `String.prototype.toLowerCase`, as far as a comparison with ASCII text can see it: the two
letters outside ASCII whose lower case has an ASCII letter in it are mapped, the others are kept. -/
def toLowerCase (l : Text) : Text := l.flatMap fun c =>
  if c.toNat = 0x212A then ['k'] else if c.toNat = 0x130 then ['i', Char.ofNat 0x307]
  else [c.toLower]

theorem toLowerCase_eq_map {l : Text} (h : ∀ c ∈ l.map Char.toLower, c.toNat < 128) :
    toLowerCase l = l.map Char.toLower := by
  induction l with
  | nil => rfl
  | cons c l ih =>
    have hc : c.toNat ≠ 0x212A ∧ c.toNat ≠ 0x130 := by
      have hlt : c.toLower.toNat < 128 := h _ (by simp)
      constructor <;>
      · intro he
        rw [← Char.ofNat_toNat c, he] at hlt
        exact absurd hlt (by decide)
    rw [toLowerCase, flatMap_cons, if_neg hc.1, if_neg hc.2, map_cons]
    exact congrArg _ (ih fun d hd => h d (by simp [hd]))

theorem map_toLower_of_toLowerCase : ∀ {l t : Text}, toLowerCase l = t →
    (∀ c ∈ t, c.toNat < 128 ∧ c ≠ 'k') → l.map Char.toLower = t
  | [], t, h, _ => h
  | c :: l, t, h, ht => by
    rw [toLowerCase, flatMap_cons] at h
    have htail : ∀ d ∈ toLowerCase l, d.toNat < 128 ∧ d ≠ 'k' := fun d hd =>
      ht d (h ▸ mem_append_right _ hd)
    have ih := map_toLower_of_toLowerCase rfl htail
    split_ifs at h with hk hi
    · exact absurd rfl (ht 'k' (h ▸ mem_append_left _ (mem_singleton_self _))).2
    · have hdot := (ht (Char.ofNat 0x307) (h ▸ mem_append_left _ (by simp))).1
      exact absurd hdot (by decide)
    · rw [map_cons, ih, ← h]
      rfl

/-! ## Digits -/

/-- The value of a digit, in any radix up to 16. -/
def digitValue (c : Char) : ℕ :=
  if '0' ≤ c ∧ c ≤ '9' then c.toNat - '0'.toNat
  else if 'a' ≤ c ∧ c ≤ 'f' then c.toNat - 'a'.toNat + 10
  else if 'A' ≤ c ∧ c ≤ 'F' then c.toNat - 'A'.toNat + 10
  else 16

/-- `c` is a digit of the radix. -/
def isDigitOf (radix : ℕ) (c : Char) : Bool := digitValue c < radix

/-- The number a run of digits denotes. -/
def ofDigits (radix : ℕ) (l : List Char) : ℕ :=
  l.foldl (fun acc c => acc * radix + digitValue c) 0

theorem ofDigits_concat (radix : ℕ) (l : List Char) (c : Char) :
    ofDigits radix (l ++ [c]) = ofDigits radix l * radix + digitValue c := by
  simp [ofDigits]

theorem ofDigits_lt {l : List Char} (h : ∀ c ∈ l, isDigitOf radix c = true) :
    ofDigits radix l < radix ^ l.length := by
  induction l using List.reverseRecOn with
  | nil => simp [ofDigits]
  | append_singleton l c ih =>
    have hc : digitValue c < radix := by simpa [isDigitOf] using h c (by simp)
    have hl := ih fun d hd => h d (by simp [hd])
    rw [ofDigits_concat, length_append, length_singleton, Nat.pow_succ]
    calc ofDigits radix l * radix + digitValue c
        < ofDigits radix l * radix + radix := by omega
      _ = (ofDigits radix l + 1) * radix := by ring
      _ ≤ radix ^ l.length * radix := Nat.mul_le_mul_right _ hl

theorem digitValue_digitChar : ∀ d < 16, digitValue (Nat.digitChar d) = d := by decide

theorem eq_digitChar_of_isDigit (h : isDigitOf 10 c = true) :
    c = Nat.digitChar (digitValue c) ∧ digitValue c < 10 := by
  have hv : digitValue c < 10 := by simpa [isDigitOf] using h
  refine ⟨?_, hv⟩
  unfold digitValue at hv ⊢
  split at hv
  · rename_i hc
    rw [if_pos hc]
    have h₁ : 48 ≤ c.toNat := hc.1
    have h₂ : c.toNat ≤ 57 := hc.2
    have h₀ : '0'.toNat = 48 := rfl
    have key : ∀ n, 48 ≤ n → n ≤ 57 → Char.ofNat n = Nat.digitChar (n - 48) := by decide
    rw [h₀, ← key c.toNat h₁ h₂, Char.ofNat_toNat]
  · split at hv
    · omega
    · split at hv <;> omega

variable {n : ℕ}

theorem isDigitOf_of_mem_toDigits {radix : ℕ} (h₁ : 1 < radix) (h₂ : radix ≤ 16) :
    ∀ c ∈ Nat.toDigits radix n, isDigitOf radix c = true := by
  induction n using Nat.strongRecOn with
  | ind n ih =>
    intro c hc
    rw [Nat.toDigits_eq_if h₁] at hc
    split at hc
    · rename_i hn
      rw [mem_singleton] at hc
      simp [hc, isDigitOf, digitValue_digitChar n (by omega), hn]
    · rename_i hn
      rcases mem_append.1 hc with hc | hc
      · exact ih (n / radix) (Nat.div_lt_self (by omega) h₁) c hc
      · rw [mem_singleton] at hc
        have hm : n % radix < radix := Nat.mod_lt _ (by omega)
        simp [hc, isDigitOf, digitValue_digitChar (n % radix) (by omega), hm]

theorem isDigitOf_of_mem_decimal {n : ℕ} {c : Char} (h : c ∈ Nat.toDigits 10 n) :
    isDigitOf 10 c = true :=
  isDigitOf_of_mem_toDigits (by decide) (by decide) c h

theorem not_mem_decimal (h : isDigitOf 10 c = false) : c ∉ Nat.toDigits 10 n := by
  intro hc
  rw [isDigitOf_of_mem_decimal hc] at h
  exact Bool.noConfusion h

theorem ofDigits_toDigits (h₁ : 1 < radix) (h₂ : radix ≤ 16) (n : ℕ) :
    ofDigits radix (Nat.toDigits radix n) = n := by
  induction n using Nat.strongRecOn with
  | ind n ih =>
    rw [Nat.toDigits_eq_if h₁]
    split
    · rename_i hn
      simp [ofDigits, digitValue_digitChar n (by omega)]
    · rename_i hn
      have hm : n % radix < radix := Nat.mod_lt _ (by omega)
      rw [ofDigits_concat, ih (n / radix) (Nat.div_lt_self (by omega) h₁),
        digitValue_digitChar (n % radix) (by omega)]
      exact Nat.div_add_mod' n radix

theorem toDigits_injective (h₁ : 1 < radix) (h₂ : radix ≤ 16) {m : ℕ}
    (h : Nat.toDigits radix m = Nat.toDigits radix n) : m = n := by
  rw [← ofDigits_toDigits h₁ h₂ m, h, ofDigits_toDigits h₁ h₂]

theorem toDigits_ofDigits {l : Text} (hne : l ≠ []) (hd : ∀ c ∈ l, isDigitOf 10 c = true)
    (hzero : l = ['0'] ∨ l.head? ≠ some '0') : Nat.toDigits 10 (ofDigits 10 l) = l := by
  induction l using List.reverseRecOn with
  | nil => exact absurd rfl hne
  | append_singleton l c ih =>
    obtain ⟨hc, hlt⟩ := eq_digitChar_of_isDigit (hd c (by simp))
    rw [ofDigits_concat]
    by_cases hl : l = []
    · subst hl
      rw [ofDigits, foldl_nil, Nat.zero_mul, Nat.zero_add, Nat.toDigits_of_lt_base hlt, ← hc]
      rfl
    · obtain ⟨d, l, rfl⟩ := exists_cons_of_ne_nil hl
      have hhead : (d :: l).head? ≠ some '0' := by
        rcases hzero with h | h
        · simp at h
        · exact h
      have hrest := ih hl (fun b hb => hd b (mem_append_left _ hb)) (.inr hhead)
      have hpos : 0 < ofDigits 10 (d :: l) := by
        rw [Nat.pos_iff_ne_zero]
        intro h0
        rw [h0] at hrest
        exact hhead (congrArg List.head? hrest).symm
      rw [Nat.mul_comm, ← Nat.toDigits_append_toDigits (by decide) hpos hlt, hrest,
        Nat.toDigits_of_lt_base hlt, ← hc]

/-- `/^\d+$/`. -/
def isDecimal (l : List Char) : Bool := !l.isEmpty && l.all (isDigitOf 10)

/-- The optional sign in front of a number, and the rest. -/
def readSign : List Char → Bool × List Char
  | '-' :: r => (true, r)
  | '+' :: r => (false, r)
  | r => (false, r)

/-- The optional `0x` that `Number.parseInt` skips in radix 16. -/
def skipHexPrefix (radix : ℕ) : List Char → List Char
  | '0' :: 'x' :: r => if radix = 16 then r else '0' :: 'x' :: r
  | '0' :: 'X' :: r => if radix = 16 then r else '0' :: 'X' :: r
  | r => r

/-- `Number.parseInt(text, radix)`: leading space and a sign are skipped, the longest run of digits
is read and what follows it is ignored; `none` for `NaN`. -/
def parseInt (radix : ℕ) (l : List Char) : Option ℤ :=
  let (negative, body) := readSign (l.dropWhile isSpace)
  let digits := (skipHexPrefix radix body).takeWhile (isDigitOf radix)
  if digits.isEmpty then none
  else some (if negative then -(ofDigits radix digits : ℤ) else ofDigits radix digits)

theorem toNat_of_isDigitOf (hr : radix ≤ 16) (h : isDigitOf radix c = true) :
    48 ≤ c.toNat ∧ c.toNat ≤ 102 := by
  have hv : digitValue c < 16 := lt_of_lt_of_le (by simpa [isDigitOf] using h) hr
  unfold digitValue at hv
  split at hv
  · rename_i hc
    exact ⟨hc.1, le_trans hc.2 (by decide)⟩
  · split at hv
    · rename_i hc
      exact ⟨le_trans (by decide) hc.1, hc.2⟩
    · split at hv
      · rename_i hc
        exact ⟨le_trans (by decide) hc.1, le_trans hc.2 (by decide)⟩
      · omega

theorem not_isSpace_of_isDigitOf (hr : radix ≤ 16) (h : isDigitOf radix c = true) : isSpace c = false := by
  have key := toNat_of_isDigitOf hr h
  simp only [isSpace, Bool.or_eq_false_iff, Bool.and_eq_false_iff, decide_eq_false_iff_not,
    beq_eq_false_iff_ne, ne_eq]
  omega

theorem not_isSpace_of_isAlpha (h : c.isAlpha = true) : isSpace c = false := by
  have hrange : 65 ≤ c.toNat ∧ c.toNat ≤ 122 := by
    rcases Bool.or_eq_true_iff.1 h with h | h
    · have h := of_decide_eq_true h
      exact ⟨UInt32.le_iff_toNat_le.1 h.1, (UInt32.le_iff_toNat_le.1 h.2).trans (by decide)⟩
    · obtain ⟨h₁, h₂⟩ := Bool.and_eq_true_iff.1 h
      exact ⟨le_trans (by decide) (UInt32.le_iff_toNat_le.1 (of_decide_eq_true h₁)),
        UInt32.le_iff_toNat_le.1 (of_decide_eq_true h₂)⟩
  simp only [isSpace, Bool.or_eq_false_iff, Bool.and_eq_false_iff, decide_eq_false_iff_not,
    beq_eq_false_iff_ne, ne_eq]
  omega

theorem isAlpha_of_isLower_toLower (h : c.toLower.isLower = true) :
    c.isAlpha = true := by
  by_cases hu : c.isUpper = true
  · exact Bool.or_eq_true_iff.2 (.inl hu)
  · have hsame : c.toLower = c := by
      unfold Char.toLower
      rw [dif_neg]
      exact fun hrange => hu (decide_eq_true hrange)
    rw [hsame] at h
    exact Bool.or_eq_true_iff.2 (.inr h)

theorem toLower_eq_self (h : c.toLower.isLower = false) : c.toLower = c := by
  by_cases hu : c.val ≥ 'A'.val ∧ c.val ≤ 'Z'.val
  · have key : ∀ n, 65 ≤ n → n ≤ 90 → (Char.ofNat n).toLower.isLower = true := by decide
    have hlow := key c.toNat (UInt32.le_iff_toNat_le.1 hu.1) (UInt32.le_iff_toNat_le.1 hu.2)
    rw [Char.ofNat_toNat, h] at hlow
    exact Bool.noConfusion hlow
  · unfold Char.toLower
    rw [dif_neg hu]

theorem not_isSpace_of_toLower (h : isSpace c.toLower = false) : isSpace c = false := by
  by_cases hl : c.toLower.isLower = true
  · exact not_isSpace_of_isAlpha (isAlpha_of_isLower_toLower hl)
  · rwa [toLower_eq_self (by simpa using hl)] at h

theorem toLowerCase_of_digits {l : Text} (h : ∀ c ∈ l, isDigitOf 10 c = true) :
    toLowerCase l = l := by
  have key : ∀ d < 10, (Nat.digitChar d).toLower = Nat.digitChar d ∧
      (Nat.digitChar d).toNat < 128 := by decide
  have hsame : l.map Char.toLower = l := by
    conv_rhs => rw [← map_id l]
    refine map_congr_left fun c hc => ?_
    obtain ⟨he, hlt⟩ := eq_digitChar_of_isDigit (h c hc)
    rw [he]
    exact (key _ hlt).1
  rw [toLowerCase_eq_map, hsame]
  rw [hsame]
  intro c hc
  obtain ⟨he, hlt⟩ := eq_digitChar_of_isDigit (h c hc)
  rw [he]
  exact (key _ hlt).2

theorem isDigitOf_mono {r s : ℕ} (h : r ≤ s) (hc : isDigitOf r c = true) :
    isDigitOf s c = true := by
  simp only [isDigitOf, decide_eq_true_eq] at hc ⊢
  omega

theorem readSign_of_digit (hr : radix ≤ 16) {l : List Char} (h : ∀ c ∈ l.head?, isDigitOf radix c = true) :
    readSign l = (false, l) := by
  unfold readSign
  split
  · exact absurd (isDigitOf_mono hr (h '-' rfl)) (by decide)
  · exact absurd (isDigitOf_mono hr (h '+' rfl)) (by decide)
  · rfl

theorem skipHexPrefix_eq_self {l : List Char} (h : ∀ c ∈ l.tail.head?, c ≠ 'x' ∧ c ≠ 'X') :
    skipHexPrefix radix l = l := by
  unfold skipHexPrefix
  split
  · exact absurd rfl (h 'x' rfl).1
  · exact absurd rfl (h 'X' rfl).2
  · rfl

variable {ds : List Char}

theorem parseInt_run (hr : radix ≤ 16) {w : List Char} (hw : ∀ c ∈ w, isSpace c = true) (hne : ds ≠ [])
    (hd : ∀ c ∈ ds, isDigitOf radix c = true) (hend : ∀ c ∈ r.head?, isDigitOf radix c = false ∧ c ≠ 'x' ∧ c ≠ 'X') :
    parseInt radix (w ++ ds ++ r) = some (ofDigits radix ds : ℤ) := by
  obtain ⟨d, ds', rfl⟩ := exists_cons_of_ne_nil hne
  have hd0 : isDigitOf radix d = true := hd d (by simp)
  have h₁ : (w ++ (d :: ds') ++ r).dropWhile isSpace = d :: ds' ++ r := by
    rw [append_assoc, dropWhile_append_of_pos hw]
    refine dropWhile_eq_self_of_head fun c hc => ?_
    obtain rfl : d = c := by simpa using hc
    exact not_isSpace_of_isDigitOf hr hd0
  have h₂ : readSign (d :: ds' ++ r) = (false, d :: ds' ++ r) := by
    refine readSign_of_digit hr fun c hc => ?_
    obtain rfl : d = c := by simpa using hc
    exact hd0
  have h₃ : skipHexPrefix radix (d :: ds' ++ r) = d :: ds' ++ r := by
    refine skipHexPrefix_eq_self fun c hc => ?_
    cases ds' with
    | nil => exact (hend c (by simpa using hc)).2
    | cons e es =>
      obtain rfl : e = c := by simpa using hc
      have he := isDigitOf_mono hr (hd e (by simp))
      constructor <;>
      · rintro rfl
        cases he
  have h₄ : (d :: ds' ++ r).takeWhile (isDigitOf radix) = d :: ds' := by
    rw [takeWhile_append_of_pos hd]
    cases r with
    | nil => simp
    | cons c r => simp [(hend c rfl).1]
  simp only [parseInt, h₁, h₂, h₃, h₄]
  rfl

theorem parseInt_padded (hr : radix ≤ 16) {w : List Char} (hw : ∀ c ∈ w, isSpace c = true) (hne : ds ≠ [])
    (hd : ∀ c ∈ ds, isDigitOf radix c = true) (hsp : ∀ c ∈ r.head?, isSpace c = true) :
    parseInt radix (w ++ ds ++ r) = some (ofDigits radix ds : ℤ) := by
  refine parseInt_run hr hw hne hd fun c hc => ?_
  have hspace := hsp c hc
  refine ⟨?_, ?_, ?_⟩
  · -- a white space character ends the run
    by_contra hcon
    rw [not_isSpace_of_isDigitOf hr (by simpa using hcon)] at hspace
    exact Bool.false_ne_true hspace
  · rintro rfl
    cases hspace
  · rintro rfl
    cases hspace

theorem parseInt_digits (hr : radix ≤ 16) (hne : ds ≠ []) (hd : ∀ c ∈ ds, isDigitOf radix c = true) :
    parseInt radix ds = some (ofDigits radix ds : ℤ) := by
  simpa using parseInt_padded (w := []) (r := []) hr (by simp) hne hd (by simp)

/-! ## Numbers as text -/

/-- `String(n)` of an integer. -/
def intText : ℤ → Text
  | .ofNat n => Nat.toDigits 10 n
  | .negSucc n => '-' :: Nat.toDigits 10 (n + 1)

theorem mem_intText {n : ℤ} (h : c ∈ intText n) : c = '-' ∨ isDigitOf 10 c = true := by
  cases n with
  | ofNat n => exact .inr (isDigitOf_of_mem_toDigits (by decide) (by decide) c h)
  | negSucc n =>
    rcases mem_cons.1 h with rfl | h
    · exact .inl rfl
    · exact .inr (isDigitOf_of_mem_toDigits (by decide) (by decide) c h)

theorem intText_injective : Function.Injective intText := by
  have hdash : ∀ {n m : ℕ}, Nat.toDigits 10 n ≠ '-' :: Nat.toDigits 10 m := by
    intro n m h
    have hd := @isDigitOf_of_mem_decimal n '-' (by rw [h]; simp)
    cases hd
  intro m n h
  cases m with
  | ofNat m =>
    cases n with
    | ofNat n => exact congrArg Int.ofNat (toDigits_injective (by decide) (by decide) h)
    | negSucc n => exact (hdash h).elim
  | negSucc m =>
    cases n with
    | ofNat n => exact (hdash h.symm).elim
    | negSucc n =>
      have := toDigits_injective (by decide) (by decide) (List.cons.inj h).2
      rw [Nat.succ.inj this]

/-- A string that is not `undefined`, `null` or empty: what `if (!value)` lets through. -/
def truthy (value : Option Text) : Option Text := value.filter fun t => !t.isEmpty

/-- The same for a string that is not read character by character. -/
def truthyString (value : Option String) : Option String := value.filter (· ≠ "")

theorem truthyString_some {s : String} (h : s ≠ "") : truthyString (some s) = some s := by
  simp [truthyString, Option.filter, h]

theorem truthy_eq_some {value : Option Text} : truthy value = some t ↔ value = some t ∧ t ≠ [] := by
  simp [truthy, Option.filter_eq_some_iff]

end TurboPanel.Js
