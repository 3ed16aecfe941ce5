import TurboPanel.Js.Text

/-!
# The lexer of a `docker run` command

The model of `src/features/docker-run/lexer.ts`. A text is read one character at a time, in one of
three states: outside quotes, in single quotes or in double quotes. What a character does may use up
some of the characters after it, so a step takes the rest of the text and gives back what is left of
it. Nothing is evaluated: `$(…)` and backticks are taken as they stand.
-/

namespace TurboPanel.DockerRun

open Js

/-! ## Warnings -/

inductive DockerRunLexWarningCode
  | commandSubstitutionLiteral
  | shellOperatorLiteral
  | redirectionLiteral
  | globLiteral
  | unterminatedQuote
  deriving DecidableEq

structure DockerRunLexWarning where
  code : DockerRunLexWarningCode
  message : String
  text : String

structure DockerRunLexResult where
  tokens : List String
  warnings : List DockerRunLexWarning

def shellOperators : List String := ["&&", "||", "|", ";", "&"]

def redirections : List String := [">>", ">", "<<", "<"]

def pushWarning (warnings : List DockerRunLexWarning) (code : DockerRunLexWarningCode)
    (text message : String) : List DockerRunLexWarning :=
  if warnings.any fun w => w.code == code && w.text == text then warnings
  else warnings ++ [⟨code, message, text⟩]

def includesText (source part : Text) : Bool := decide (part <:+: source)

/-- The first match of `/\$\([^)]*\)/`. -/
def substitutionMatch : Text → Option Text
  | [] => none
  | ch :: rest =>
    match ch, rest with
    | '$', '(' :: inner =>
      if inner.contains ')' then some ('$' :: '(' :: inner.takeWhile (· ≠ ')') ++ [')'])
      else substitutionMatch rest
    | _, _ => substitutionMatch rest

/-- `/(^|\s)[^\s'"]*[*?][^\s'"]*/.test(source)`; `clean` says that no quote stands between the start
of the word and here. -/
def hasGlob (clean : Bool) : Text → Bool
  | [] => false
  | ch :: rest =>
    if isSpace ch then hasGlob true rest
    else if ch = '\'' ∨ ch = '"' then hasGlob false rest
    else if ch = '*' ∨ ch = '?' then clean || hasGlob clean rest
    else hasGlob clean rest

/-- The first of the texts that the source has gets a warning. -/
def warnFirst (source : Text) (texts : List String) (code : DockerRunLexWarningCode)
    (message : String → String) (warnings : List DockerRunLexWarning) : List DockerRunLexWarning :=
  match texts.find? fun text => includesText source text.toList with
  | none => warnings
  | some text => pushWarning warnings code text (message text)

def substitutionMessage : String :=
  "Command substitution is never evaluated — the text was imported literally. " ++
    "Substitute the value yourself, or use a TurboPanel variable."

def operatorMessage (operator : String) : String :=
  "\"" ++ operator ++ "\" was imported as a literal character — " ++
    "this importer reads one docker run command, not a shell pipeline."

def redirectionMessage (redirection : String) : String :=
  "\"" ++ redirection ++ "\" was imported as a literal character — " ++
    "redirection belongs to the shell that ran the command, not to the container."

def globMessage : String :=
  "Glob patterns were imported literally — " ++
    "nothing is expanded against the control plane filesystem."

def scanLiteralShellSyntax (source : Text) (warnings : List DockerRunLexWarning) :
    List DockerRunLexWarning :=
  let warnings := match substitutionMatch source with
    | some text =>
      pushWarning warnings .commandSubstitutionLiteral (String.ofList text) substitutionMessage
    | none =>
      if source.contains '`' then
        pushWarning warnings .commandSubstitutionLiteral "`" substitutionMessage
      else warnings
  let warnings := warnFirst source shellOperators .shellOperatorLiteral operatorMessage warnings
  let warnings := warnFirst source redirections .redirectionLiteral redirectionMessage warnings
  if hasGlob true source then pushWarning warnings .globLiteral "*" globMessage else warnings

/-! ## The states of the lexer -/

inductive Quote
  | single
  | double
  deriving DecidableEq

structure SplitState where
  tokens : List Text
  current : Text
  hasCurrent : Bool
  quote : Option Quote

def append (st : SplitState) (text : Text) : SplitState :=
  { st with current := st.current ++ text, hasCurrent := true }

def flushToken (st : SplitState) : SplitState :=
  if st.hasCurrent then
    { st with tokens := st.tokens ++ [st.current], current := [], hasCurrent := false }
  else st

/-! ## One character -/

/-- A character and the rest of the text after it; the result has the text that is still to be read.
-/
def readSingleQuoted (st : SplitState) (char : Char) (rest : Text) : SplitState × Text :=
  if char = '\'' then ({ st with quote := none }, rest) else (append st [char], rest)

/-- The characters that a backslash escapes in double quotes. -/
def isDoubleEscaped (ch : Char) : Bool := ch == '"' || ch == '\\' || ch == '$' || ch == '`'

def readDoubleQuoted (st : SplitState) (char : Char) (rest : Text) : SplitState × Text :=
  if char = '\\' then
    match rest with
    | [] => (append st [char], rest)
    | next :: after =>
      if isDoubleEscaped next then (append st [next], after)
      else if next = '\n' then (st, after)
      else (append st [char], rest)
  else if char = '"' then ({ st with quote := none, hasCurrent := true }, rest)
  else (append st [char], rest)

def readUnquotedBackslash (st : SplitState) : Text → SplitState × Text
  | [] => (append st ['\\'], [])
  | '\n' :: rest => (st, rest)
  | '\r' :: '\n' :: rest => (st, rest)
  | next :: rest => (append st [next], rest)

/-- The text up to the parenthesis that closes the substitution, and what follows it. -/
def substitutionSpan (depth : ℕ) : Text → Text × Text
  | [] => ([], [])
  | ch :: rest =>
    if ch = '(' then ((substitutionSpan (depth + 1) rest).map (ch :: ·) id)
    else if ch = ')' then
      if depth - 1 = 0 then ([ch], rest) else ((substitutionSpan (depth - 1) rest).map (ch :: ·) id)
    else ((substitutionSpan depth rest).map (ch :: ·) id)

/-- `rest` is what follows the `$`. -/
def readCommandSubstitution (st : SplitState) (rest : Text) : SplitState × Text :=
  let span := substitutionSpan 0 rest
  (append st ('$' :: span.1), span.2)

/-- `rest` is what follows the backtick. -/
def readBacktickSpan (st : SplitState) (rest : Text) : SplitState × Text :=
  let inner := rest.takeWhile (· ≠ '`')
  let after := rest.dropWhile (· ≠ '`')
  (append st ('`' :: inner ++ after.take 1), after.drop 1)

/-- The characters between two arguments. -/
def isSeparator (ch : Char) : Bool := ch == ' ' || ch == '\t' || ch == '\n' || ch == '\r'

def readUnquoted (st : SplitState) (char : Char) (rest : Text) : SplitState × Text :=
  if char = '\\' then readUnquotedBackslash st rest
  else if char = '\'' then ({ st with quote := some .single, hasCurrent := true }, rest)
  else if char = '"' then ({ st with quote := some .double, hasCurrent := true }, rest)
  else if char = '$' ∧ rest.head? = some '(' then readCommandSubstitution st rest
  else if char = '`' then readBacktickSpan st rest
  else if isSeparator char then (flushToken st, rest)
  else (append st [char], rest)

def readChar (st : SplitState) (char : Char) (rest : Text) : SplitState × Text :=
  match st.quote with
  | some .single => readSingleQuoted st char rest
  | some .double => readDoubleQuoted st char rest
  | none => readUnquoted st char rest

/-! ## A command -/

/-- The loop, with a bound on the number of rounds; each round uses up a character at least. -/
def splitRounds : ℕ → SplitState → Text → SplitState
  | 0, st, _ => st
  | _ + 1, st, [] => st
  | rounds + 1, st, char :: rest =>
    splitRounds rounds (readChar st char rest).1 (readChar st char rest).2

def splitLoop (st : SplitState) (source : Text) : SplitState := splitRounds source.length st source

def splitCommandString (source : Text) (warnings : List DockerRunLexWarning) :
    List Text × List DockerRunLexWarning :=
  let st := splitLoop ⟨[], [], false, none⟩ source
  let warnings := match st.quote with
    | none => warnings
    | some .double => pushWarning warnings .unterminatedQuote "\""
        "Unterminated double quote — the rest of the command was read as one argument."
    | some .single => pushWarning warnings .unterminatedQuote "'"
        "Unterminated single quote — the rest of the command was read as one argument."
  ((flushToken st).tokens, warnings)

def stripCommandPrefix (tokens : List String) : List String :=
  let docker := if tokens.head? = some "sudo" then tokens.tail else tokens
  if docker.head? ≠ some "docker" then tokens
  else
    let run := if docker.tail.head? = some "container" then docker.tail.tail else docker.tail
    if run.head? ≠ some "run" then tokens else run.tail

/-- A text, or the arguments as they are. -/
inductive DockerRunInput
  | text (source : String)
  | argv (tokens : List String)

def lexDockerRunCommand : DockerRunInput → DockerRunLexResult
  | .argv argv =>
    { tokens := stripCommandPrefix argv
      warnings := scanLiteralShellSyntax (" ".intercalate argv).toList [] }
  | .text source =>
    let split := splitCommandString source.toList (scanLiteralShellSyntax source.toList [])
    { tokens := stripCommandPrefix (split.1.map String.ofList)
      warnings := split.2 }

end TurboPanel.DockerRun
