import TurboPanel.DockerRun.Lexer
import TurboPanel.DockerRun.Options

/-!
# The parser of a `docker run` command

The model of `src/features/docker-run/parse.ts`. The tokens are walked from the front. A token that
is an option may take the next one as its value; the first token that is no option is the image, and
what follows it is the command.
-/

namespace TurboPanel.DockerRun

open Js

/-! ## Diagnostics -/

inductive DockerRunDiagnosticCode where
  | unknownOption
  | missingOptionValue
  | unexpectedOptionValue
  | missingImage
  | optionNotRepeatable
  | shellSyntaxLiteral
  deriving DecidableEq

structure DockerRunDiagnostic where
  code : DockerRunDiagnosticCode
  flag : Option Text
  message : String
  blocking : Bool

structure DockerRunParseEntry where
  definition : DockerRunOptionDefinition
  /-- The spelling that was used. -/
  rawFlag : Text
  value : Option Text

structure ParsedDockerRun where
  image : Option Text
  command : List Text
  entries : List DockerRunParseEntry
  diagnostics : List DockerRunDiagnostic

/-- The next row of the distances, from the entry above to the left, the entry to the left and the
row above. -/
def levenshteinRow (a : Char) : Text → (diagonal left : ℕ) → List ℕ → List ℕ
  | b :: rest, diagonal, left, candidate :: previous =>
    let distance := min (min (candidate + 1) (left + 1)) (diagonal + if a = b then 0 else 1)
    distance :: levenshteinRow a rest candidate distance previous
  | _, _, _, _ => []

/-- The rows, one for each character of the first text. -/
def levenshteinRows (b : Text) : Text → (i : ℕ) → List ℕ → List ℕ
  | [], _, previous => previous
  | a :: rest, i, previous =>
    levenshteinRows b rest (i + 1) (i :: levenshteinRow a b (previous.headD 0) i previous.tail)

def levenshtein (a b : Text) : ℕ :=
  (levenshteinRows b a 1 (List.range (b.length + 1))).getLastD 0

/-- The nearest spelling within an edit distance of 2. -/
def suggestFlag (flag : Text) : Option Text :=
  (dockerRunOptionNames.foldl (fun best candidate =>
    if candidate.length < 3 then best
    else if levenshtein flag candidate < best.2 then (some candidate, levenshtein flag candidate)
    else best) (none, 3)).1

def unknownOptionDiagnostic (flag : Text) : DockerRunDiagnostic where
  code := .unknownOption
  flag := some flag
  blocking := true
  message := match suggestFlag flag with
    | some suggestion => "Unknown docker run option \"" ++ String.ofList flag ++ "\" — did you mean \"" ++
        String.ofList suggestion ++ "\"?"
    | none => "Unknown docker run option \"" ++ String.ofList flag ++
        "\". It was not imported, and nothing after it was read as its value."

def lexWarningDiagnostic (warning : DockerRunLexWarning) : DockerRunDiagnostic where
  code := .shellSyntaxLiteral
  flag := none
  message := warning.message
  blocking := false

def repeatedDiagnostic (canonical rawFlag : Text) : DockerRunDiagnostic where
  code := .optionNotRepeatable
  flag := some rawFlag
  blocking := false
  message := "\"" ++ String.ofList canonical ++
    "\" was given more than once; Docker keeps the last value, and so does this import."

def missingValueDiagnostic (flag : Text) : DockerRunDiagnostic where
  code := .missingOptionValue
  flag := some flag
  blocking := true
  message := "\"" ++ String.ofList flag ++ "\" needs a value and the command ended."

def unexpectedValueDiagnostic (flag inlineValue : Text) : DockerRunDiagnostic where
  code := .unexpectedOptionValue
  flag := some flag
  blocking := true
  message := "\"" ++ String.ofList flag ++ "\" takes no value, but \"" ++ String.ofList inlineValue ++
    "\" was given."

def missingImageDiagnostic (sawTerminator : Bool) : DockerRunDiagnostic where
  code := .missingImage
  flag := none
  blocking := true
  message := if sawTerminator then "No image was given after \"--\"."
    else "No image was found. A docker run command needs an IMAGE after its options."

/-! ## Options -/

/-- What the walk has gathered. -/
structure ParseState where
  entries : List DockerRunParseEntry
  diagnostics : List DockerRunDiagnostic
  seen : List Text

def ParseState.diagnose (st : ParseState) (diagnostic : DockerRunDiagnostic) : ParseState :=
  { st with diagnostics := st.diagnostics ++ [diagnostic] }

def ParseState.record (st : ParseState) (entry : DockerRunParseEntry) : ParseState where
  entries := st.entries ++ [entry]
  diagnostics :=
    if entry.definition.repeatable = false ∧ dockerRunOptionName entry.definition ∈ st.seen then
      st.diagnostics ++ [repeatedDiagnostic (dockerRunOptionName entry.definition) entry.rawFlag]
    else st.diagnostics
  seen := dockerRunOptionName entry.definition :: st.seen

/-- A value that is the next token, and whether that token was taken. -/
def readNext (st : ParseState) (definition : DockerRunOptionDefinition) (flag : Text) :
    (next : Option Text) → ParseState × Bool
  | none => (st.diagnose (missingValueDiagnostic flag), false)
  | some next => (st.record ⟨definition, flag, some next⟩, true)

def readLongOption (st : ParseState) (token : Text) (next : Option Text) : ParseState × Bool :=
  let flag := token.takeWhile (· ≠ '=')
  let inlineValue := if '=' ∈ token then some (token.dropWhile (· ≠ '=')).tail else none
  match lookupDockerRunOption flag with
  | none => (st.diagnose (unknownOptionDiagnostic flag), false)
  | some definition =>
    match definition.value, inlineValue with
    | .none, some inlineValue => (st.diagnose (unexpectedValueDiagnostic flag inlineValue), false)
    | .required, none => readNext st definition flag next
    | _, _ => (st.record ⟨definition, flag, inlineValue⟩, false)

def readShortValue (st : ParseState) (definition : DockerRunOptionDefinition) (flag rest : Text)
    (next : Option Text) : ParseState × Bool :=
  if rest ≠ [] then (st.record ⟨definition, flag, some rest⟩, false) else readNext st definition flag next

/-- The shorthands of a cluster, from the cursor on. -/
def readShortCluster (next : Option Text) (st : ParseState) : Text → ParseState × Bool
  | [] => (st, false)
  | c :: after =>
    match lookupDockerRunOption ['-', c] with
    | none => (st.diagnose (unknownOptionDiagnostic ['-', c]), false)
    | some definition =>
      let rest := if after.head? = some '=' then after.tail else after
      if definition.value = .required then readShortValue st definition ['-', c] rest next
      else if after.head? = some '=' then (st.record ⟨definition, ['-', c], some rest⟩, false)
      else readShortCluster next (st.record ⟨definition, ['-', c], none⟩) after

/-! ## The walk -/

def isOptionToken (token : Text) : Bool := 1 < token.length && token.head? == some '-'

def readOption (st : ParseState) (token : Text) (next : Option Text) : ParseState × Bool :=
  if ['-', '-'] <+: token then readLongOption st token next else readShortCluster next st token.tail

/-- The walk over the options: what it gathers, whether it met the end marker, and the tokens that
are left. -/
def walk (st : ParseState) : List Text → ParseState × Bool × List Text
  | [] => (st, false, [])
  | token :: rest =>
    if token = ['-', '-'] then (st, true, rest)
    else if isOptionToken token = false then (st, false, token :: rest)
    else
      let read := readOption st token rest.head?
      match rest with
      | [] => (read.1, false, [])
      | next :: others => if read.2 then walk read.1 others else walk read.1 (next :: others)

def parseDockerRunTokens (tokens : List Text) (lexWarnings : List DockerRunLexWarning) : ParsedDockerRun :=
  let (st, sawTerminator, positionals) := walk ⟨[], lexWarnings.map lexWarningDiagnostic, []⟩ tokens
  { image := positionals.head?
    command := positionals.tail
    entries := st.entries
    diagnostics := if positionals = [] then st.diagnostics ++ [missingImageDiagnostic sawTerminator]
      else st.diagnostics }

end TurboPanel.DockerRun
