import TurboPanel.Deploy.Cron
import TurboPanel.Js.Bounded
import TurboPanel.Js.Words

/-!
# Cron commands

The model of `parseCronCommand` of `src/features/deploy/cron.ts`: a command line is split into
words, and the first one has to be an absolute path or a shortcut. The shortcuts are looked up in an
object, which also has what every object inherits: such a name is accepted, and what stands first
then is no text (`Argument.inherited`). Every other accepted line is safe to run, and is read in the
same way from its words, unless the path of a shortcut makes them too long
(`parsed_commands_safe_iff`).
-/

namespace TurboPanel.Deploy

open Js List

/-! ## Parsing -/

/-- `SHELL_METACHARACTERS`. -/
def isShellMetacharacter (c : Char) : Bool := "|&;<>()$`\\\"'*?[]\x7b\x7d~\n\r\x00".toList.contains c

def maxCommandLength : ℕ := 1000

def maxArgLength : ℕ := 512

/-- `KNOWN_COMMANDS`. -/
def knownCommands : List (Text × Text) := [("php".toList, "/usr/local/bin/php".toList)]

/-- The members that every object inherits by the standard; Deno has no `__proto__`. -/
def objectMembers : List Text :=
  ["constructor", "__proto__", "__defineGetter__", "__defineSetter__", "__lookupGetter__", "__lookupSetter__",
    "hasOwnProperty", "isPrototypeOf", "propertyIsEnumerable", "toLocaleString", "toString", "valueOf"].map
    String.toList

/-- An element of `argv`: a text, or what every object has under a name. -/
inductive Argument
  | text (t : Text)
  | inherited (member : Text)
  deriving DecidableEq

/-- `KNOWN_COMMANDS[command]`. -/
def knownCommand (command : Text) : Option Argument :=
  match knownCommands.lookup command with
  | some path => some (.text path)
  | none => if command ∈ objectMembers then some (.inherited command) else none

/-- The checks of a trimmed line, before its first word is looked at. -/
def checkCommand (trimmed : Text) : Except String (List Text) :=
  if trimmed.length = 0 then .error "a command is required"
  else if maxCommandLength < utf16Length trimmed then
    .error ("a command must be under " ++ toString maxCommandLength ++ " characters")
  else
    match trimmed.find? isShellMetacharacter with
    | some c => .error (quoted [c] ++ " cannot be used here — the command runs directly, with no shell, so " ++
        "redirection, pipes, and globs are not available. Put them in a script and run that instead. " ++
        "Output is captured for you.")
    | none =>
      let argv := words trimmed
      if argv.any (maxArgLength < utf16Length ·) then
        .error ("each argument must be under " ++ toString maxArgLength ++ " characters")
      else .ok argv

/-- The argument list of a line. A line that passes the checks has a word. -/
def parseCronCommand (input : Text) : Except String (List Argument) :=
  match checkCommand (trim input) with
  | .error e => .error e
  | .ok [] => .error "a command is required"
  | .ok (command :: args) =>
    match knownCommand command with
    | some known => .ok (known :: args.map .text)
    | none =>
      if command.head? ≠ some '/' then
        .error (quoted command ++ " must be an absolute path (systemd does not search PATH). Known shortcuts: " ++
          ", ".intercalate (knownCommands.map fun known => String.ofList known.1) ++ ".")
      else if (command.splitOn '/').contains ['.', '.'] then .error (quoted command ++ " must not contain \"..\"")
      else .ok (.text command :: args.map .text)

example : parseCronCommand " php  bin/console\tcache:clear ".toList = .ok [.text "/usr/local/bin/php".toList,
    .text "bin/console".toList, .text "cache:clear".toList] := by decide

/-! ## Checked lines -/

theorem checkCommand_eq_ok {t : Text} {argv : List Text} : checkCommand t = .ok argv ↔
    t ≠ [] ∧ utf16Length t ≤ maxCommandLength ∧ (∀ c ∈ t, isShellMetacharacter c = false) ∧ argv = words t ∧
      ∀ a ∈ argv, utf16Length a ≤ maxArgLength := by
  rw [checkCommand]
  constructor
  · intro h
    split_ifs at h with hempty hlong
    split at h
    · cases h
    · rename_i hmeta
      dsimp only at h
      split_ifs at h with hargs
      cases h
      refine ⟨fun hnil => hempty (congrArg List.length hnil), not_lt.1 hlong, fun c hc => ?_, rfl, fun a ha => ?_⟩
      · simpa using find?_eq_none.1 hmeta c hc
      · by_contra hlt
        exact hargs (any_eq_true.2 ⟨a, ha, decide_eq_true (not_le.1 hlt)⟩)
  · rintro ⟨hne, hlong, hmeta, rfl, hargs⟩
    have hnone : t.find? isShellMetacharacter = none :=
      find?_eq_none.2 fun c hc => by simp [hmeta c hc]
    have hany : (words t).any (maxArgLength < utf16Length ·) = false := by
      rw [any_eq_false]
      exact fun a ha => by simpa using hargs a ha
    rw [if_neg fun hlen => hne (eq_nil_of_length_eq_zero hlen), if_neg (not_lt.2 hlong), hnone]
    dsimp only
    rw [hany, if_neg Bool.false_ne_true]

/-- A text that is passed on as it is. -/
structure IsSafeArgument (t : Text) : Prop where
  word : IsWord t
  plain : ∀ c ∈ t, isShellMetacharacter c = false

theorem isSafeArgument_of_check {t : Text} {argv : List Text} (h : checkCommand t = .ok argv) {a : Text}
    (ha : a ∈ argv) : IsSafeArgument a := by
  obtain ⟨-, -, hmeta, rfl, -⟩ := checkCommand_eq_ok.1 h
  exact ⟨isWord_of_mem_words ha, fun c hc => hmeta c (mem_of_mem_words ha hc).1⟩

theorem checkCommand_intercalate {parts : List Text} (hne : parts ≠ []) (hsafe : ∀ a ∈ parts, IsSafeArgument a)
    (hargs : ∀ a ∈ parts, utf16Length a ≤ maxArgLength) :
    checkCommand (trim ([' '].intercalate parts)) = .ok parts ↔
      utf16Length ([' '].intercalate parts) ≤ maxCommandLength := by
  have hword : ∀ a ∈ parts, IsWord a := fun a ha => (hsafe a ha).word
  rw [trim_intercalate hne hword, checkCommand_eq_ok, words_intercalate hne hword]
  refine ⟨fun h => h.2.1, fun h => ⟨(ends_intercalate hne hword).1, h, fun c hc => ?_, rfl, hargs⟩⟩
  rcases mem_intercalate_singleton hc with rfl | ⟨a, ha, hc⟩
  · decide
  · exact (hsafe a ha).plain c hc

/-! ## First words -/

/-- An absolute path without a `..` segment. -/
def IsSafePath (t : Text) : Prop := t.head? = some '/' ∧ ['.', '.'] ∉ t.splitOn '/'

instance (t : Text) : Decidable (IsSafePath t) := inferInstanceAs (Decidable (_ ∧ _))

/-- What the paths of the shortcuts are. -/
structure IsKnownPath (path : Text) : Prop where
  safe : IsSafeArgument path
  absolute : IsSafePath path
  unlisted : knownCommands.lookup path = none
  not_member : path ∉ objectMembers
  le : utf16Length path ≤ maxArgLength

theorem isKnownPath {command path : Text} (h : knownCommands.lookup command = some path) : IsKnownPath path := by
  have hmem : ∀ known ∈ knownCommands, ((known.2 ≠ [] ∧ ∀ c ∈ known.2, isSpace c = false) ∧
      ∀ c ∈ known.2, isShellMetacharacter c = false) ∧ IsSafePath known.2 ∧
      knownCommands.lookup known.2 = none ∧ known.2 ∉ objectMembers ∧ utf16Length known.2 ≤ maxArgLength := by decide
  obtain ⟨before, after, hknown, -⟩ := lookup_eq_some_iff.1 h
  obtain ⟨⟨⟨hne, hspace⟩, hplain⟩, hpath, hunlisted, hmember, hle⟩ := hmem (command, path)
    (hknown ▸ mem_append_right _ mem_cons_self)
  exact ⟨⟨⟨hne, hspace⟩, hplain⟩, hpath, hunlisted, hmember, hle⟩

theorem knownCommand_of_mem : ∀ member ∈ objectMembers, knownCommand member = some (.inherited member) := by decide

theorem parseCronCommand_of_check {input command : Text} {args : List Text}
    (h : checkCommand (trim input) = .ok (command :: args)) :
    (∀ path, knownCommands.lookup command = some path →
      parseCronCommand input = .ok ((path :: args).map .text)) ∧
    (command ∈ objectMembers → parseCronCommand input = .ok (.inherited command :: args.map .text)) ∧
    (knownCommands.lookup command = none → command ∉ objectMembers → IsSafePath command →
      parseCronCommand input = .ok ((command :: args).map .text)) ∧
    (knownCommands.lookup command = none → command ∉ objectMembers → ¬IsSafePath command →
      ∃ e, parseCronCommand input = .error e) := by
  rw [parseCronCommand, h]
  dsimp only
  refine ⟨fun path hpath => ?_, fun hmem => ?_, fun hlookup hmem hpath => ?_, fun hlookup hmem hpath => ?_⟩
  · rw [knownCommand, hpath]
    rfl
  · rw [knownCommand_of_mem command hmem]
  · rw [knownCommand, hlookup]
    dsimp only
    rw [if_neg hmem]
    dsimp only
    rw [if_neg (not_not.2 hpath.1), if_neg (by simpa using hpath.2)]
    rfl
  · rw [knownCommand, hlookup]
    dsimp only
    rw [if_neg hmem]
    dsimp only
    split_ifs with hhead hdots
    · exact ⟨_, rfl⟩
    · exact ⟨_, rfl⟩
    · exact absurd ⟨not_not.1 hhead, by simpa using hdots⟩ hpath

/-! ## Accepted lines -/

/-- What is promised of an accepted line whose arguments are `parts`. -/
structure RunsAs (input : Text) (parts : List Text) : Prop where
  safe : ∀ a ∈ parts, IsSafeArgument a
  path : ∃ command args, parts = command :: args ∧ IsSafePath command
  reparsed : parseCronCommand ([' '].intercalate parts) = .ok (parts.map .text)
  shortcut : ∀ first ∈ (words (trim input)).head?, first.head? = some '/' ∨ first ∈ knownCommands.map Prod.fst

/-- Every argument list that the parser answers with is one of texts, as promised. -/
def ParsedSafely (input : Text) : Prop :=
  ∀ argv, parseCronCommand input = .ok argv → ∃ parts, argv = parts.map .text ∧ RunsAs input parts

/-- The line passes the checks, and its first word is a name that every object inherits, or a
shortcut whose path makes the line too long. -/
def IsMisread (input : Text) : Prop :=
  ∃ command args, checkCommand (trim input) = .ok (command :: args) ∧
    (command ∈ objectMembers ∨ ∃ path, knownCommands.lookup command = some path ∧
      maxCommandLength < utf16Length ([' '].intercalate (path :: args)))

theorem map_text_injective : Function.Injective (List.map Argument.text) :=
  map_injective_iff.2 fun _ _ h => Argument.text.inj h

theorem parsedSafely_iff_of_ok {input : Text} {parts : List Text}
    (h : parseCronCommand input = .ok (parts.map .text)) : ParsedSafely input ↔ RunsAs input parts := by
  constructor
  · intro hsafe
    obtain ⟨parts', hparts, hruns⟩ := hsafe _ h
    rwa [map_text_injective hparts]
  · intro hruns argv hargv
    exact ⟨parts, (Except.ok.inj (h.symm.trans hargv)).symm, hruns⟩

theorem runsAs_iff {input first : Text} {args : List Text} (hsafe : ∀ a ∈ first :: args, IsSafeArgument a)
    (hargs : ∀ a ∈ first :: args, utf16Length a ≤ maxArgLength) (hpath : IsSafePath first)
    (hunlisted : knownCommands.lookup first = none) (hmember : first ∉ objectMembers)
    (hshortcut : ∀ word ∈ (words (trim input)).head?, word.head? = some '/' ∨ word ∈ knownCommands.map Prod.fst) :
    RunsAs input (first :: args) ↔ utf16Length ([' '].intercalate (first :: args)) ≤ maxCommandLength := by
  have hcheck := checkCommand_intercalate (cons_ne_nil first args) hsafe hargs
  rw [← hcheck]
  constructor
  · intro h
    have hreparsed := h.reparsed
    rw [parseCronCommand] at hreparsed
    cases hagain : checkCommand (trim ([' '].intercalate (first :: args))) with
    | error e =>
      rw [hagain] at hreparsed
      cases hreparsed
    | ok argv =>
      obtain ⟨-, hlength, -⟩ := checkCommand_eq_ok.1 hagain
      rw [trim_intercalate (cons_ne_nil _ _) fun a ha => (hsafe a ha).word] at hlength
      exact hagain.symm.trans (hcheck.2 hlength)
  · exact fun h => ⟨hsafe, ⟨first, args, rfl, hpath⟩,
      (parseCronCommand_of_check h).2.2.1 hunlisted hmember hpath, hshortcut⟩

/-- **Accepted commands are safe to run**, and read back from their words, exactly if the first word
is no inherited name and no shortcut whose path makes the line too long. -/
theorem parsed_commands_safe_iff (input : Text) : ParsedSafely input ↔ ¬IsMisread input := by
  cases hcheck : checkCommand (trim input) with
  | error e =>
    refine iff_of_true (fun argv h => ?_) ?_
    · rw [parseCronCommand, hcheck] at h
      cases h
    · rintro ⟨command, args, h, -⟩
      rw [hcheck] at h
      cases h
  | ok argv =>
    cases argv with
    | nil =>
      refine iff_of_true (fun argv h => ?_) ?_
      · rw [parseCronCommand, hcheck] at h
        cases h
      · rintro ⟨command, args, h, -⟩
        rw [hcheck] at h
        cases h
    | cons command args =>
      obtain ⟨hknown, hinherited, hpath, hrefused⟩ := parseCronCommand_of_check hcheck
      have hmisread : IsMisread input ↔ command ∈ objectMembers ∨
          ∃ path, knownCommands.lookup command = some path ∧
            maxCommandLength < utf16Length ([' '].intercalate (path :: args)) := by
        refine ⟨?_, fun h => ⟨command, args, hcheck, h⟩⟩
        rintro ⟨command', args', h, hmisread⟩
        rw [hcheck] at h
        cases Except.ok.inj h
        exact hmisread
      obtain ⟨-, hlength, -, hwords, hargs⟩ := checkCommand_eq_ok.1 hcheck
      have hsafe : ∀ a ∈ command :: args, IsSafeArgument a := fun a ha => isSafeArgument_of_check hcheck ha
      have hfirst : ∀ first ∈ (words (trim input)).head?, first = command := by
        rw [← hwords]
        exact fun first h => (Option.some.inj h).symm
      rw [hmisread]
      by_cases hmem : command ∈ objectMembers
      · -- the first argument is no text
        refine iff_of_false (fun h => ?_) (not_not.2 (.inl hmem))
        obtain ⟨parts, hparts, -⟩ := h _ (hinherited hmem)
        cases parts with
        | nil => cases hparts
        | cons part parts => cases (List.cons.inj hparts).1
      cases hlookup : knownCommands.lookup command with
      | some path =>
        -- the arguments are the words of the line, but for the path
        have hknownPath := isKnownPath hlookup
        have hshortcut : command ∈ knownCommands.map Prod.fst := by
          obtain ⟨before, after, hsplit, -⟩ := lookup_eq_some_iff.1 hlookup
          exact mem_map.2 ⟨(command, path), hsplit ▸ mem_append_right _ mem_cons_self, rfl⟩
        rw [parsedSafely_iff_of_ok (hknown path hlookup), runsAs_iff
          (forall_mem_cons.2 ⟨hknownPath.safe, fun a ha => hsafe a (mem_cons_of_mem _ ha)⟩)
          (forall_mem_cons.2 ⟨hknownPath.le, fun a ha => hargs a (mem_cons_of_mem _ ha)⟩)
          hknownPath.absolute hknownPath.unlisted hknownPath.not_member
          fun word hword => .inr (hfirst word hword ▸ hshortcut)]
        constructor
        · rintro hle (h | ⟨path', hpath', hlong⟩)
          · exact hmem h
          · cases hpath'
            exact absurd hle (not_le.2 hlong)
        · exact fun h => not_lt.1 fun hlong => h (.inr ⟨path, rfl, hlong⟩)
      | none =>
        have hnot : ¬(command ∈ objectMembers ∨ ∃ path, (none : Option Text) = some path ∧
            maxCommandLength < utf16Length ([' '].intercalate (path :: args))) := by
          rintro (h | ⟨path, hpath, -⟩)
          · exact hmem h
          · cases hpath
        by_cases hsafePath : IsSafePath command
        · rw [parsedSafely_iff_of_ok (hpath hlookup hmem hsafePath), runsAs_iff hsafe hargs hsafePath hlookup hmem
            fun word hword => .inl (hfirst word hword ▸ hsafePath.1)]
          refine iff_of_true ?_ hnot
          have hne : words (trim input) ≠ [] := hwords ▸ cons_ne_nil command args
          rw [hwords]
          exact (utf16Length_words_le hne).trans hlength
        · obtain ⟨e, he⟩ := hrefused hlookup hmem hsafePath
          refine iff_of_true (fun argv h => ?_) hnot
          rw [he] at h
          cases h

/-- `constructor` is taken for a known command. -/
theorem constructor_accepted : parseCronCommand "constructor --all".toList =
      .ok [.inherited "constructor".toList, .text "--all".toList] ∧ ¬ParsedSafely "constructor --all".toList := by
  have hparse : parseCronCommand "constructor --all".toList =
      .ok [.inherited "constructor".toList, .text "--all".toList] := by decide
  refine ⟨hparse, fun h => ?_⟩
  obtain ⟨parts, hparts, -⟩ := h _ hparse
  cases parts with
  | nil => cases hparts
  | cons part parts => cases (List.cons.inj hparts).1

end TurboPanel.Deploy
