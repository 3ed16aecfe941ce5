import TurboPanel.DockerRun.Lexer

/-!
# The lexer undoes the quoting of a shell

An argument is quoted in single quotes, with `'\''` for a quote in it, or in double quotes, with a
backslash before the characters that a shell would read there. The lexer reads a quoted argument as
the argument, whatever is in it (`splitLoop_quoted`), and so a line of quoted arguments as the
arguments (`lex_joined`).
-/

namespace TurboPanel.DockerRun

open Js List

/-! ## Quoting -/

/-- What stands for a character in single quotes. -/
def singleQuotedChar (ch : Char) : Text := if ch = '\'' then ['\'', '\\', '\'', '\''] else [ch]

def singleQuoted (arg : Text) : Text := '\'' :: arg.flatMap singleQuotedChar ++ ['\'']

/-- What stands for a character in double quotes. -/
def doubleQuotedChar (ch : Char) : Text := if isDoubleEscaped ch then ['\\', ch] else [ch]

def doubleQuoted (arg : Text) : Text := '"' :: arg.flatMap doubleQuotedChar ++ ['"']

/-- The text is the argument, quoted in one of the two ways. -/
inductive Quoted (arg : Text) : Text → Prop
  | single : Quoted arg (singleQuoted arg)
  | double : Quoted arg (doubleQuoted arg)

/-- What may stand between two arguments. -/
def IsGap (gap : Text) : Prop := gap ≠ [] ∧ ∀ ch ∈ gap, ch = ' ' ∨ ch = '\t' ∨ ch = '\n'

/-- The text is the quoted arguments, with gaps between them. -/
inductive Joined : List Text → Text → Prop
  | nil : Joined [] []
  | last {arg text : Text} (h : Quoted arg text) : Joined [arg] text
  | cons {arg text gap rest : Text} {args : List Text} (h : Quoted arg text) (hgap : IsGap gap)
      (hargs : args ≠ []) (hrest : Joined args rest) : Joined (arg :: args) (text ++ gap ++ rest)

/-! ## The loop -/

theorem length_substitutionSpan (depth : ℕ) (rest : Text) :
    (substitutionSpan depth rest).2.length ≤ rest.length := by
  induction rest generalizing depth with
  | nil => exact le_rfl
  | cons ch rest ih =>
    rw [substitutionSpan]
    split
    · exact (ih _).trans (Nat.le_succ _)
    · split
      · split
        · exact Nat.le_succ _
        · exact (ih _).trans (Nat.le_succ _)
      · exact (ih _).trans (Nat.le_succ _)

theorem length_readChar (st : SplitState) (char : Char) (rest : Text) :
    (readChar st char rest).2.length ≤ rest.length := by
  rw [readChar]
  split
  · rw [readSingleQuoted]
    split <;> exact le_rfl
  · unfold readDoubleQuoted
    split
    · split
      · exact le_rfl
      · split
        · exact Nat.le_succ _
        · split
          · exact Nat.le_succ _
          · exact le_rfl
    · split <;> exact le_rfl
  · rw [readUnquoted]
    split
    · unfold readUnquotedBackslash
      split
      · exact le_rfl
      · exact Nat.le_succ _
      · exact (Nat.le_succ _).trans (Nat.le_succ _)
      · exact Nat.le_succ _
    · split
      · exact le_rfl
      · split
        · exact le_rfl
        · split
          · exact length_substitutionSpan 0 rest
          · split
            · rw [readBacktickSpan, length_drop]
              exact (Nat.sub_le _ _).trans (length_dropWhile_le _ _)
            · split <;> exact le_rfl

theorem splitRounds_congr {rounds rounds' : ℕ} {rest : Text} (h : rest.length ≤ rounds)
    (h' : rest.length ≤ rounds') (st : SplitState) :
    splitRounds rounds st rest = splitRounds rounds' st rest := by
  induction rounds generalizing rounds' st rest with
  | zero =>
    obtain rfl := length_eq_zero_iff.1 (Nat.le_zero.1 h)
    cases rounds' <;> rfl
  | succ rounds ih =>
    cases rest with
    | nil => cases rounds' <;> rfl
    | cons char rest =>
      cases rounds' with
      | zero => cases h'
      | succ rounds' =>
        have hrest := length_readChar st char rest
        exact ih (hrest.trans (Nat.le_of_succ_le_succ h)) (hrest.trans (Nat.le_of_succ_le_succ h')) _

theorem splitLoop_cons (st : SplitState) (char : Char) (rest : Text) :
    splitLoop st (char :: rest) = splitLoop (readChar st char rest).1 (readChar st char rest).2 :=
  splitRounds_congr (length_readChar st char rest) le_rfl _

/-! ## Quoted arguments -/

theorem splitLoop_escapedQuote (tokens : List Text) (current rest : Text) :
    splitLoop ⟨tokens, current, true, some .single⟩ ('\'' :: '\\' :: '\'' :: '\'' :: rest) =
      splitLoop ⟨tokens, current ++ ['\''], true, some .single⟩ rest :=
  calc
    _ = splitLoop ⟨tokens, current, true, none⟩ ('\\' :: '\'' :: '\'' :: rest) := splitLoop_cons _ _ _
    _ = splitLoop ⟨tokens, current ++ ['\''], true, none⟩ ('\'' :: rest) := splitLoop_cons _ _ _
    _ = splitLoop ⟨tokens, current ++ ['\''], true, some .single⟩ rest := splitLoop_cons _ _ _

theorem splitLoop_singleQuoted (tokens : List Text) (current arg rest : Text) :
    splitLoop ⟨tokens, current, true, some .single⟩ (arg.flatMap singleQuotedChar ++ '\'' :: rest) =
      splitLoop ⟨tokens, current ++ arg, true, none⟩ rest := by
  induction arg generalizing current with
  | nil =>
    rw [flatMap_nil, nil_append, splitLoop_cons, append_nil]
    rfl
  | cons ch arg ih =>
    rw [flatMap_cons, append_assoc, singleQuotedChar]
    by_cases hch : ch = '\''
    · subst hch
      rw [if_pos rfl, cons_append, cons_append, cons_append, singleton_append,
        splitLoop_escapedQuote, ih, append_assoc, singleton_append]
    · rw [if_neg hch, singleton_append, splitLoop_cons]
      have hread : readChar ⟨tokens, current, true, some .single⟩ ch
          (arg.flatMap singleQuotedChar ++ '\'' :: rest) =
          (⟨tokens, current ++ [ch], true, some .single⟩,
            arg.flatMap singleQuotedChar ++ '\'' :: rest) := by
        rw [readChar, readSingleQuoted, if_neg hch, append]
      rw [hread, ih, append_assoc, singleton_append]

theorem splitLoop_doubleQuoted (tokens : List Text) (current arg rest : Text) :
    splitLoop ⟨tokens, current, true, some .double⟩ (arg.flatMap doubleQuotedChar ++ '"' :: rest) =
      splitLoop ⟨tokens, current ++ arg, true, none⟩ rest := by
  induction arg generalizing current with
  | nil =>
    rw [flatMap_nil, nil_append, splitLoop_cons, append_nil]
    rfl
  | cons ch arg ih =>
    rw [flatMap_cons, append_assoc, doubleQuotedChar]
    cases hch : isDoubleEscaped ch with
    | true =>
      have hread : readChar ⟨tokens, current, true, some .double⟩ '\\'
          (ch :: (arg.flatMap doubleQuotedChar ++ '"' :: rest)) =
          (⟨tokens, current ++ [ch], true, some .double⟩,
            arg.flatMap doubleQuotedChar ++ '"' :: rest) := by
        simp [readChar, readDoubleQuoted, hch, append]
      rw [if_pos rfl, cons_append, singleton_append, splitLoop_cons, hread, ih,
        append_assoc, singleton_append]
    | false =>
      have hslash : ch ≠ '\\' := by rintro rfl; cases hch
      have hquote : ch ≠ '"' := by rintro rfl; cases hch
      have hread : readChar ⟨tokens, current, true, some .double⟩ ch
          (arg.flatMap doubleQuotedChar ++ '"' :: rest) =
          (⟨tokens, current ++ [ch], true, some .double⟩,
            arg.flatMap doubleQuotedChar ++ '"' :: rest) := by
        simp [readChar, readDoubleQuoted, hslash, hquote, append]
      rw [if_neg Bool.false_ne_true, singleton_append, splitLoop_cons, hread, ih,
        append_assoc, singleton_append]

theorem splitLoop_quoted {arg text : Text} (h : Quoted arg text) (tokens : List Text) (rest : Text) :
    splitLoop ⟨tokens, [], false, none⟩ (text ++ rest) =
      splitLoop ⟨tokens, arg, true, none⟩ rest := by
  cases h with
  | single =>
    rw [singleQuoted, cons_append, cons_append, append_assoc, singleton_append,
      splitLoop_cons]
    exact splitLoop_singleQuoted tokens [] arg rest
  | double =>
    rw [doubleQuoted, cons_append, cons_append, append_assoc, singleton_append,
      splitLoop_cons]
    exact splitLoop_doubleQuoted tokens [] arg rest

theorem readChar_gap {ch : Char} (h : ch = ' ' ∨ ch = '\t' ∨ ch = '\n') (tokens : List Text)
    (current : Text) (hasCurrent : Bool) (rest : Text) :
    readChar ⟨tokens, current, hasCurrent, none⟩ ch rest =
      (flushToken ⟨tokens, current, hasCurrent, none⟩, rest) := by
  obtain rfl | rfl | rfl := h <;> rfl

theorem splitLoop_gap {gap : Text} (h : ∀ ch ∈ gap, ch = ' ' ∨ ch = '\t' ∨ ch = '\n')
    (tokens : List Text) (rest : Text) :
    splitLoop ⟨tokens, [], false, none⟩ (gap ++ rest) = splitLoop ⟨tokens, [], false, none⟩ rest := by
  induction gap with
  | nil => rfl
  | cons ch gap ih =>
    rw [cons_append, splitLoop_cons, readChar_gap (h ch mem_cons_self)]
    exact ih fun ch' hch' => h ch' (mem_cons_of_mem ch hch')

theorem splitLoop_end {gap : Text} (h : IsGap gap) (tokens : List Text) (arg rest : Text) :
    splitLoop ⟨tokens, arg, true, none⟩ (gap ++ rest) =
      splitLoop ⟨tokens ++ [arg], [], false, none⟩ rest := by
  obtain ⟨hne, hgap⟩ := h
  cases gap with
  | nil => exact absurd rfl hne
  | cons ch gap =>
    rw [cons_append, splitLoop_cons, readChar_gap (hgap ch mem_cons_self)]
    exact splitLoop_gap (fun ch' hch' => hgap ch' (mem_cons_of_mem ch hch')) _ rest

/-! ## Commands -/

theorem tokens_splitLoop_joined {args : List Text} {text : Text} (h : Joined args text)
    (tokens : List Text) :
    (flushToken (splitLoop ⟨tokens, [], false, none⟩ text)).tokens = tokens ++ args := by
  induction h generalizing tokens with
  | nil => exact (append_nil tokens).symm
  | @last arg text h =>
    have hread := splitLoop_quoted h tokens []
    rw [append_nil] at hread
    rw [hread]
    rfl
  | @cons arg text gap rest args h hgap _ _ ih =>
    rw [append_assoc, splitLoop_quoted h, splitLoop_end hgap, ih, append_assoc,
      singleton_append]

/-- **The lexer undoes quoting.** A line of quoted arguments has the tokens of the arguments, which
are the arguments without the prefix of the command. -/
theorem lex_joined {args : List String} {text : String}
    (h : Joined (args.map String.toList) text.toList) :
    (lexDockerRunCommand (.text text)).tokens = (lexDockerRunCommand (.argv args)).tokens ∧
      (lexDockerRunCommand (.text text)).tokens = stripCommandPrefix args := by
  have htokens := tokens_splitLoop_joined h []
  rw [nil_append] at htokens
  have hargs : (args.map String.toList).map String.ofList = args := by
    rw [map_map]
    exact map_id'' (fun arg => String.ofList_toList) args
  have htext : (lexDockerRunCommand (.text text)).tokens = stripCommandPrefix args := by
    change stripCommandPrefix ((flushToken (splitLoop ⟨[], [], false, none⟩ text.toList)).tokens.map
      String.ofList) = stripCommandPrefix args
    rw [htokens, hargs]
  exact ⟨htext, htext⟩

theorem lex_joined_sample :
    Joined (["docker", "run", "it's $(id -u)"].map String.toList) "\"docker\" \t'run' 'it'\\''s $(id -u)'".toList ∧
    (lexDockerRunCommand (.text "\"docker\" \t'run' 'it'\\''s $(id -u)'")).tokens =
      stripCommandPrefix ["docker", "run", "it's $(id -u)"] ∧
    stripCommandPrefix ["docker", "run", "it's $(id -u)"] = ["it's $(id -u)"] :=
  have hgap : IsGap [' ', '\t'] := ⟨cons_ne_nil _ _, by simp⟩
  have hjoined : Joined (["docker", "run", "it's $(id -u)"].map String.toList)
      (doubleQuoted "docker".toList ++ [' ', '\t'] ++ (singleQuoted "run".toList ++ [' '] ++
        singleQuoted "it's $(id -u)".toList)) :=
    .cons .double hgap (cons_ne_nil _ _)
      (.cons .single ⟨cons_ne_nil _ _, by simp⟩ (cons_ne_nil _ _) (.last .single))
  ⟨hjoined, (lex_joined hjoined).2, rfl⟩

end TurboPanel.DockerRun
