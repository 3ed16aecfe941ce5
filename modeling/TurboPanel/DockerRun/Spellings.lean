import TurboPanel.DockerRun.Parse

/-!
# Spellings of options

An option may be spelled in many ways: with its long name and the value inline or in the next token,
or as a shorthand, of which booleans may be clustered, with the value of the last one attached,
after an equals sign or in the next token (`Spelled`). The parser undoes every spelling, and an
unknown long option in between costs one diagnostic and nothing else.
-/

namespace TurboPanel.DockerRun

open Js List

/-- The name is a long one. -/
def IsLong (name : Text) : Prop := ∃ rest, name = '-' :: '-' :: rest

/-- The character is a shorthand of an option of the table. -/
def IsShorthand (definition : DockerRunOptionDefinition) (c : Char) : Prop :=
  definition ∈ dockerRunOptions ∧ ['-', c] ∈ definition.names

/-- The name is a long name of an option of the table. -/
def IsLongName (definition : DockerRunOptionDefinition) (name : Text) : Prop :=
  definition ∈ dockerRunOptions ∧ name ∈ definition.names ∧ IsLong name

/-- The entries of a cluster of shorthands, its characters and the tokens after it. -/
inductive Cluster : List DockerRunParseEntry → Text → List Text → Prop where
  | bare {definition : DockerRunOptionDefinition} {c : Char} (h : IsShorthand definition c)
      (hvalue : definition.value = .optional) : Cluster [⟨definition, ['-', c], none⟩] [c] []
  | valued {definition : DockerRunOptionDefinition} {c : Char} (h : IsShorthand definition c)
      (hvalue : definition.value = .optional) (value : Text) :
      Cluster [⟨definition, ['-', c], some value⟩] (c :: '=' :: value) []
  | attached {definition : DockerRunOptionDefinition} {c : Char} (h : IsShorthand definition c)
      (hvalue : definition.value = .required) {value : Text} (hne : value ≠ []) (heq : value.head? ≠ some '=') :
      Cluster [⟨definition, ['-', c], some value⟩] (c :: value) []
  | equals {definition : DockerRunOptionDefinition} {c : Char} (h : IsShorthand definition c)
      (hvalue : definition.value = .required) {value : Text} (hne : value ≠ []) (heq : value.head? ≠ some '=') :
      Cluster [⟨definition, ['-', c], some value⟩] (c :: '=' :: value) []
  | apart {definition : DockerRunOptionDefinition} {c : Char} (h : IsShorthand definition c)
      (hvalue : definition.value = .required) (value : Text) :
      Cluster [⟨definition, ['-', c], some value⟩] [c] [value]
  | cons {definition : DockerRunOptionDefinition} {c : Char} {entries : List DockerRunParseEntry} {chars : Text}
      {after : List Text} (h : IsShorthand definition c) (hvalue : definition.value = .optional)
      (hrest : Cluster entries chars after) :
      Cluster (⟨definition, ['-', c], none⟩ :: entries) (c :: chars) after

/-- The entries of an option, or of a cluster, and the tokens that spell it. -/
inductive Spelled : List DockerRunParseEntry → List Text → Prop where
  | inline {definition : DockerRunOptionDefinition} {name : Text} (h : IsLongName definition name)
      (value : Text) : Spelled [⟨definition, name, some value⟩] [name ++ '=' :: value]
  | apart {definition : DockerRunOptionDefinition} {name : Text} (h : IsLongName definition name)
      (hvalue : definition.value = .required) (value : Text) :
      Spelled [⟨definition, name, some value⟩] [name, value]
  | bare {definition : DockerRunOptionDefinition} {name : Text} (h : IsLongName definition name)
      (hvalue : definition.value = .optional) : Spelled [⟨definition, name, none⟩] [name]
  | cluster {entries : List DockerRunParseEntry} {chars : Text} {after : List Text}
      (h : Cluster entries chars after) : Spelled entries (('-' :: chars) :: after)

/-- The entries of options one after the other. -/
inductive Spells : List DockerRunParseEntry → List Text → Prop where
  | nil : Spells [] []
  | cons {entries entries' : List DockerRunParseEntry} {tokens tokens' : List Text}
      (h : Spelled entries tokens) (hrest : Spells entries' tokens') :
      Spells (entries ++ entries') (tokens ++ tokens')

/-! ## Reading one option -/

variable {entries : List DockerRunParseEntry} {tokens : List Text} {after : List Text} {c : Char} {chars : Text}

variable {definition : DockerRunOptionDefinition}

theorem IsShorthand.lookup (h : IsShorthand definition c) :
    lookupDockerRunOption ['-', c] = some definition := lookup_name h.1 h.2

theorem IsShorthand.ne (h : IsShorthand definition c) : c ≠ '-' ∧ c ≠ '=' := by
  obtain ⟨rest, heq, hrest, -⟩ | ⟨c', heq, hc'⟩ := long_or_short h.1 h.2
  · cases heq
    exact absurd rfl hrest
  · cases heq
    exact hc'

variable {name : Text}

theorem IsLongName.lookup (h : IsLongName definition name) :
    lookupDockerRunOption name = some definition := lookup_name h.1 h.2.1

theorem IsLongName.shape
    (h : IsLongName definition name) : ∃ rest, name = '-' :: '-' :: rest ∧ rest ≠ [] ∧ '=' ∉ name := by
  obtain ⟨rest, rfl, hrest, hequals⟩ | ⟨c, rfl, hc, -⟩ := long_or_short h.1 h.2.1
  · refine ⟨rest, rfl, hrest, ?_⟩
    simpa using hequals
  · obtain ⟨rest, heq⟩ := h.2.2
    cases heq
    exact absurd rfl hc

/-- The state after some entries. -/
def ParseState.recordAll (st : ParseState) (entries : List DockerRunParseEntry) : ParseState :=
  entries.foldl ParseState.record st

theorem takeWhile_name (h : '=' ∉ name) (value : Text) :
    (name ++ '=' :: value).takeWhile (· ≠ '=') = name ∧
      ((name ++ '=' :: value).dropWhile (· ≠ '=')).tail = value := by
  have hall : ∀ c ∈ name, decide (c ≠ '=') = true := fun c hc => decide_eq_true fun heq => h (heq ▸ hc)
  rw [takeWhile_append_of_pos hall, dropWhile_append_of_pos hall]
  simp

theorem takeWhile_bare (h : '=' ∉ name) : name.takeWhile (· ≠ '=') = name :=
  takeWhile_eq_self_iff.2 fun _ hc => decide_eq_true fun heq => h (heq ▸ hc)

section

variable {definition : DockerRunOptionDefinition} {name : Text} (st : ParseState)

theorem readLongOption_inline (h : IsLongName definition name) (value : Text) (next : Option Text) :
    readLongOption st (name ++ '=' :: value) next = (st.record ⟨definition, name, some value⟩, false) := by
  obtain ⟨rest, -, -, hequals⟩ := h.shape
  obtain ⟨hflag, hinline⟩ := takeWhile_name hequals value
  have hmem : '=' ∈ name ++ '=' :: value := mem_append_right _ mem_cons_self
  rw [readLongOption, hflag, hinline, if_pos hmem, h.lookup]
  have hvalue := value_ne_none h.1
  cases hkind : definition.value with
  | none => exact absurd hkind hvalue
  | required => simp only [hkind]
  | optional => simp only [hkind]

theorem readLongOption_apart (h : IsLongName definition name) (hvalue : definition.value = .required)
    (value : Text) :
    readLongOption st name (some value) = (st.record ⟨definition, name, some value⟩, true) := by
  obtain ⟨rest, -, -, hequals⟩ := h.shape
  rw [readLongOption, takeWhile_bare hequals, if_neg hequals, h.lookup]
  simp only [hvalue]
  rfl

theorem readLongOption_bare (h : IsLongName definition name) (hvalue : definition.value = .optional)
    (next : Option Text) : readLongOption st name next = (st.record ⟨definition, name, none⟩, false) := by
  obtain ⟨rest, -, -, hequals⟩ := h.shape
  rw [readLongOption, takeWhile_bare hequals, if_neg hequals, h.lookup]
  simp only [hvalue]

end

theorem Cluster.head (h : Cluster entries chars after) : ∃ c rest, chars = c :: rest ∧ c ≠ '-' ∧ c ≠ '=' := by
  cases h with
  | bare h => exact ⟨_, _, rfl, h.ne⟩
  | valued h => exact ⟨_, _, rfl, h.ne⟩
  | attached h => exact ⟨_, _, rfl, h.ne⟩
  | equals h => exact ⟨_, _, rfl, h.ne⟩
  | apart h => exact ⟨_, _, rfl, h.ne⟩
  | cons h => exact ⟨_, _, rfl, h.ne⟩

theorem Cluster.after_cases (h : Cluster entries chars after) : after = [] ∨ ∃ value, after = [value] := by
  induction h with
  | apart h hvalue value => exact .inr ⟨value, rfl⟩
  | cons _ _ _ ih => exact ih
  | _ => exact .inl rfl

/-- **A cluster is read**, with the next token when its last value is there. -/
theorem readShortCluster_cluster (h : Cluster entries chars after) (st : ParseState) (rest : List Text) :
    readShortCluster (after ++ rest).head? st chars = (st.recordAll entries, !after.isEmpty) := by
  induction h generalizing st with
  | bare h hvalue =>
    rw [readShortCluster, h.lookup]
    simp [hvalue, readShortCluster, ParseState.recordAll]
  | valued h hvalue value =>
    rw [readShortCluster, h.lookup]
    simp [hvalue, ParseState.recordAll]
  | attached h hvalue hne heq =>
    rw [readShortCluster, h.lookup]
    simp [hvalue, heq, hne, readShortValue, ParseState.recordAll]
  | equals h hvalue hne heq =>
    rw [readShortCluster, h.lookup]
    simp [hvalue, hne, readShortValue, ParseState.recordAll]
  | apart h hvalue value =>
    rw [readShortCluster, h.lookup]
    simp [hvalue, readShortValue, readNext, ParseState.recordAll]
  | cons h hvalue hrest ih =>
    obtain ⟨c', chars', rfl, -, hequals⟩ := hrest.head
    rw [readShortCluster, h.lookup]
    simp only [hvalue, reduceCtorEq, if_false, head?_cons, Option.some.injEq, hequals]
    exact ih _

/-! ## Walking over options -/

variable {st : ParseState} {token : Text}

theorem walk_option {st' : ParseState} {rest : List Text} (hend : token ≠ ['-', '-'])
    (htoken : isOptionToken token = true) (hread : readOption st token rest.head? = (st', false)) :
    walk st (token :: rest) = walk st' rest := by
  rw [walk.eq_def]
  simp only
  rw [if_neg hend, htoken, if_neg (by simp), hread]
  cases rest with
  | nil => rfl
  | cons next others => rfl

theorem walk_option_value {st' : ParseState} {value : Text} {rest : List Text}
    (hend : token ≠ ['-', '-']) (htoken : isOptionToken token = true)
    (hread : readOption st token (some value) = (st', true)) :
    walk st (token :: value :: rest) = walk st' rest := by
  rw [walk.eq_def]
  simp only
  rw [if_neg hend, htoken, if_neg (by simp), head?_cons, hread, if_pos rfl]

theorem isOptionToken_dash {rest : Text} : isOptionToken ('-' :: c :: rest) = true := by
  simp [isOptionToken]

theorem readOption_long (st : ParseState) (rest : Text) (next : Option Text) :
    readOption st ('-' :: '-' :: rest) next = readLongOption st ('-' :: '-' :: rest) next :=
  if_pos ⟨rest, rfl⟩

theorem readOption_cluster (st : ParseState) (hc : c ≠ '-') (rest : Text) (next : Option Text) :
    readOption st ('-' :: c :: rest) next = readShortCluster next st (c :: rest) := by
  refine if_neg ?_
  rintro ⟨after, heq⟩
  cases heq
  exact hc rfl

/-- **The walk over an option records its entries and goes on after it.** -/
theorem walk_spelled (h : Spelled entries tokens) (st : ParseState) (rest : List Text) :
    walk st (tokens ++ rest) = walk (st.recordAll entries) rest := by
  cases h with
  | @inline definition name h value =>
    obtain ⟨letters, rfl, hne, -⟩ := h.shape
    obtain ⟨c, letters, rfl⟩ := exists_cons_of_ne_nil hne
    refine walk_option (fun heq => ?_) isOptionToken_dash ?_
    · cases heq
    · exact (readOption_long _ _ _).trans (readLongOption_inline st h value _)
  | @apart definition name h hvalue value =>
    obtain ⟨letters, rfl, hne, -⟩ := h.shape
    obtain ⟨c, letters, rfl⟩ := exists_cons_of_ne_nil hne
    refine walk_option_value (fun heq => ?_) isOptionToken_dash ?_
    · cases heq
    · exact (readOption_long _ _ _).trans (readLongOption_apart st h hvalue value)
  | @bare definition name h hvalue =>
    obtain ⟨letters, rfl, hne, -⟩ := h.shape
    obtain ⟨c, letters, rfl⟩ := exists_cons_of_ne_nil hne
    refine walk_option (fun heq => ?_) isOptionToken_dash ?_
    · cases heq
    · exact (readOption_long _ _ _).trans (readLongOption_bare st h hvalue _)
  | @cluster entries chars after h =>
    obtain ⟨c, letters, rfl, hdash, -⟩ := h.head
    have hread := readShortCluster_cluster h st rest
    have hend : '-' :: c :: letters ≠ ['-', '-'] := fun heq => by
      cases heq
      exact hdash rfl
    cases h.after_cases with
    | inl hnil =>
      obtain rfl := hnil
      exact walk_option hend isOptionToken_dash ((readOption_cluster st hdash _ _).trans hread)
    | inr hsome =>
      obtain ⟨value, rfl⟩ := hsome
      exact walk_option_value hend isOptionToken_dash ((readOption_cluster st hdash _ _).trans hread)

theorem walk_spells (h : Spells entries tokens) (st : ParseState) (rest : List Text) :
    walk st (tokens ++ rest) = walk (st.recordAll entries) rest := by
  induction h generalizing st with
  | nil => rfl
  | cons h _ ih =>
    rw [append_assoc, walk_spelled h, ih, ParseState.recordAll, ParseState.recordAll,
      ParseState.recordAll, foldl_append]

/-- An unknown long option: its name is in no entry of the table. -/
def IsUnknownLong (token : Text) : Prop :=
  (∃ c rest, token = '-' :: '-' :: c :: rest) ∧ lookupDockerRunOption (token.takeWhile (· ≠ '=')) = none

theorem walk_unknown (h : IsUnknownLong token) (st : ParseState) (rest : List Text) :
    walk st (token :: rest) =
      walk (st.diagnose (unknownOptionDiagnostic (token.takeWhile (· ≠ '=')))) rest := by
  obtain ⟨⟨c, letters, rfl⟩, hlookup⟩ := h
  refine walk_option (fun heq => ?_) isOptionToken_dash ?_
  · cases heq
  · rw [readOption_long, readLongOption, hlookup]

/-! ## What is left after the options -/

/-- The end marker, if it is there, the image and the command. -/
def positionals (terminator : Bool) (image : Text) (command : List Text) : List Text :=
  if terminator then ['-', '-'] :: image :: command else image :: command

theorem walk_positionals (st : ParseState) {terminator : Bool} {image : Text} (command : List Text)
    (himage : terminator = false → image.head? ≠ some '-') :
    walk st (positionals terminator image command) = (st, terminator, image :: command) := by
  cases terminator with
  | true => rfl
  | false =>
    have hhead := himage rfl
    have hend : image ≠ ['-', '-'] := by
      rintro rfl
      exact hhead rfl
    have htoken : isOptionToken image = false := by
      rw [isOptionToken, beq_eq_false_iff_ne.2 hhead, Bool.and_false]
    change walk st (image :: command) = _
    rw [walk.eq_def]
    simp only
    rw [if_neg hend, htoken, if_pos rfl]

theorem parse_of_walk {lexWarnings : List DockerRunLexWarning} {terminator : Bool} {image : Text}
    {command : List Text}
    (h : walk ⟨[], lexWarnings.map lexWarningDiagnostic, []⟩ tokens = (st, terminator, image :: command)) :
    parseDockerRunTokens tokens lexWarnings = ⟨some image, command, st.entries, st.diagnostics⟩ := by
  rw [parseDockerRunTokens, h]
  rfl

theorem entries_recordAll (st : ParseState) (entries : List DockerRunParseEntry) :
    (st.recordAll entries).entries = st.entries ++ entries := by
  induction entries generalizing st with
  | nil => exact (append_nil _).symm
  | cons entry entries ih =>
    rw [ParseState.recordAll, foldl_cons]
    exact (ih _).trans (append_assoc st.entries [entry] entries)

theorem diagnostics_recordAll (entries : List DockerRunParseEntry) (seen : List Text) :
    ∃ added : List DockerRunDiagnostic, (∀ diagnostic ∈ added, diagnostic.blocking = false) ∧
      ∀ st : ParseState, st.seen = seen → (st.recordAll entries).diagnostics = st.diagnostics ++ added := by
  induction entries generalizing seen with
  | nil => exact ⟨[], fun _ h => (nomatch h), fun st _ => (append_nil _).symm⟩
  | cons entry entries ih =>
    obtain ⟨added, hadded, heq⟩ := ih (dockerRunOptionName entry.definition :: seen)
    by_cases hrepeated : entry.definition.repeatable = false ∧ dockerRunOptionName entry.definition ∈ seen
    · refine ⟨repeatedDiagnostic (dockerRunOptionName entry.definition) entry.rawFlag :: added,
        fun diagnostic hmem => ?_, fun st hst => ?_⟩
      · obtain rfl | hmem := mem_cons.1 hmem
        · rfl
        · exact hadded diagnostic hmem
      · subst hst
        rw [ParseState.recordAll, foldl_cons]
        refine (heq (st.record entry) rfl).trans ?_
        rw [ParseState.record, if_pos hrepeated, append_assoc, singleton_append]
    · refine ⟨added, hadded, fun st hst => ?_⟩
      subst hst
      rw [ParseState.recordAll, foldl_cons]
      refine (heq (st.record entry) rfl).trans ?_
      rw [ParseState.record, if_neg hrepeated]

theorem recordAll_diagnose (st : ParseState) (diagnostic : DockerRunDiagnostic)
    (entries : List DockerRunParseEntry) :
    ((st.diagnose diagnostic).recordAll entries).entries = (st.recordAll entries).entries ∧
      ∃ added, (st.recordAll entries).diagnostics = st.diagnostics ++ added ∧
        ((st.diagnose diagnostic).recordAll entries).diagnostics = st.diagnostics ++ diagnostic :: added := by
  obtain ⟨added, -, heq⟩ := diagnostics_recordAll entries st.seen
  refine ⟨?_, added, heq st rfl, (heq (st.diagnose diagnostic) rfl).trans ?_⟩
  · rw [entries_recordAll, entries_recordAll]
    rfl
  · rw [ParseState.diagnose, append_assoc, singleton_append]

/-- **The parser undoes every spelling.** Options in any spelling, an end marker or none, an image,
which does not begin with a dash unless the end marker is there, and a command are read as these
entries, this image and this command, with no blocking diagnostic; and an unknown long option before
any option, or after them, adds one diagnostic and changes nothing else. -/
theorem parse_spells (terminator : Bool) (image : Text) (command : List Text)
    (himage : terminator = false → image.head? ≠ some '-') (lexWarnings : List DockerRunLexWarning) :
    (∀ entries tokens, Spells entries tokens →
      let parsed := parseDockerRunTokens (tokens ++ positionals terminator image command) lexWarnings
      parsed.entries = entries ∧ parsed.image = some image ∧ parsed.command = command ∧
        ∀ diagnostic ∈ parsed.diagnostics, diagnostic.blocking = false) ∧
    ∀ entries tokens entries' tokens' unknown, Spells entries tokens → Spells entries' tokens' →
      IsUnknownLong unknown →
      let parsed := parseDockerRunTokens (tokens ++ (tokens' ++ positionals terminator image command)) lexWarnings
      let withUnknown := parseDockerRunTokens
        (tokens ++ unknown :: (tokens' ++ positionals terminator image command)) lexWarnings
      withUnknown.entries = parsed.entries ∧ withUnknown.image = parsed.image ∧
        withUnknown.command = parsed.command ∧ ∃ before after diagnostic,
          parsed.diagnostics = before ++ after ∧ withUnknown.diagnostics = before ++ diagnostic :: after ∧
          diagnostic.code = .unknownOption ∧ diagnostic.flag = some (unknown.takeWhile (· ≠ '=')) := by
  refine ⟨fun entries tokens h => ?_, fun entries tokens entries' tokens' unknown h h' hunknown => ?_⟩
  · obtain ⟨added, hadded, heq⟩ := diagnostics_recordAll entries []
    rw [parse_of_walk ((walk_spells h _ _).trans (walk_positionals _ command himage))]
    refine ⟨entries_recordAll _ _, rfl, rfl, fun diagnostic hmem => ?_⟩
    rw [heq _ rfl] at hmem
    obtain hmem | hmem := mem_append.1 hmem
    · obtain ⟨warning, -, rfl⟩ := mem_map.1 hmem
      rfl
    · exact hadded diagnostic hmem
  · have hparsed := (walk_spells h ⟨[], lexWarnings.map lexWarningDiagnostic, []⟩ _).trans
      ((walk_spells h' _ _).trans (walk_positionals _ command himage))
    have hwith := (walk_spells h ⟨[], lexWarnings.map lexWarningDiagnostic, []⟩ _).trans
      ((walk_unknown hunknown _ _).trans ((walk_spells h' _ _).trans (walk_positionals _ command himage)))
    obtain ⟨hentries, added, hadded, hadded'⟩ := recordAll_diagnose
      (ParseState.recordAll ⟨[], lexWarnings.map lexWarningDiagnostic, []⟩ entries)
      (unknownOptionDiagnostic (unknown.takeWhile (· ≠ '='))) entries'
    rw [parse_of_walk hparsed, parse_of_walk hwith]
    exact ⟨hentries, rfl, rfl, _, added, _, hadded, hadded', rfl, rfl⟩

theorem parse_spells_nginx :
    let interactive := option ["-i", "--interactive"] .optional false
    let tty := option ["-t", "--tty"] .optional false
    let name := option ["--name"] .required false
    let entries : List DockerRunParseEntry := [⟨interactive, "-i".toList, none⟩, ⟨tty, "-t".toList, none⟩,
      ⟨name, "--name".toList, some "-web".toList⟩]
    let tokens := ["-it".toList, "--name".toList, "-web".toList]
    let parsed := parseDockerRunTokens (tokens ++ positionals false "nginx".toList ["-v".toList]) []
    parsed.entries = entries ∧ parsed.image = some "nginx".toList ∧ parsed.command = ["-v".toList] := by
  have hinteractive : IsShorthand (option ["-i", "--interactive"] .optional false) 'i' :=
    ⟨mem_of_getElem? (i := 48) rfl, by simp [option]⟩
  have htty : IsShorthand (option ["-t", "--tty"] .optional false) 't' :=
    ⟨mem_of_getElem? (i := 93) rfl, by simp [option]⟩
  have hname : IsLongName (option ["--name"] .required false) "--name".toList :=
    ⟨mem_of_getElem? (i := 67) rfl, mem_cons_self, "name".toList, by simp⟩
  have hspells := Spells.cons (.cluster (.cons hinteractive rfl (.bare htty rfl)))
    (Spells.cons (.apart hname rfl "-web".toList) .nil)
  have hparsed := (parse_spells false "nginx".toList ["-v".toList] (fun _ => by simp) []).1 _ _ hspells
  exact ⟨hparsed.1, hparsed.2.1, hparsed.2.2.1⟩

end TurboPanel.DockerRun
