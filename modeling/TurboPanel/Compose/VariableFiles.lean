import TurboPanel.Compose.Json

/-!
# References to variables, the `.env` file and secret files

The models of `variable-refs.ts`, `env-file.ts` and `secret-files.ts` of `src/features/compose`. A
value is a reference `{$KEY}` or `{$scope.KEY}` as a whole or not at all. The `.env` file has one
line for each key, and the last entry with a key is the one that is kept (`envByKey`).
-/

namespace TurboPanel.Compose

open Js

/-! ## References -/

/-- `\w`. -/
def isWordChar (ch : Char) : Bool := ch.isAlphanum || ch == '_'

def isIdentifierStart (ch : Char) : Bool := ch.isAlpha || ch == '_'

/-- `/^[A-Za-z_]\w*$/`. -/
def isIdentifier : Text → Bool
  | [] => false
  | ch :: rest => isIdentifierStart ch && rest.all isWordChar

inductive VariableRefScope
  | organization
  | workspace
  | project
  | environment
  | service
  | hosting
  | server
  deriving DecidableEq

def VariableRefScope.name : VariableRefScope → String
  | organization => "organization"
  | workspace => "workspace"
  | project => "project"
  | environment => "environment"
  | service => "service"
  | hosting => "hosting"
  | server => "server"

def variableRefScopes : List VariableRefScope :=
  [.organization, .workspace, .project, .environment, .service, .hosting, .server]

/-- What a scope token stands for. The table of aliases is an object, so the name of a member that
every object inherits is found in it: a function, which is the key of no scope. -/
inductive RefScope
  | scope (s : VariableRefScope)
  | member (name : String)
  deriving DecidableEq

/-- The text of a scope in a message. -/
def RefScope.text : RefScope → String
  | scope s => s.name
  | member name => "function " ++ (if name = "constructor" then "Object" else name) ++
      "() \x7b [native code] \x7d"

def resolveVariableRefScope (token : String) : Option RefScope :=
  match variableRefScopes.find? (·.name == token) with
  | some s => some (.scope s)
  | none =>
    if token = "org" then some (.scope .organization)
    else if token = "env" then some (.scope .environment)
    else if inheritedMembers.contains token then some (.member token)
    else none

structure ParsedVariableRef where
  raw : String
  scope : Option RefScope
  key : String

inductive ParseVariableRefResult
  | ok (ref : ParsedVariableRef)
  | notARef
  | invalid (message : String)

/-- `{$`. -/
def refOpener : Text := ['\x7b', '$']

def containsVariableRefOpener (value : Text) : Bool := decide (refOpener <:+: value)

/-- The parts of `/^\{\$(?:([A-Za-z_]\w*)\.)?([A-Za-z_]\w*)\}$/`, after the opener. -/
def matchExactRef (rest : Text) : Option (Option Text × Text) :=
  if rest.getLast? = some '\x7d' then
    match rest.dropLast.splitOn '.' with
    | [key] => if isIdentifier key then some (none, key) else none
    | [scope, key] => if isIdentifier scope && isIdentifier key then some (some scope, key) else none
    | _ => none
  else none

def parseExactVariableRef (value : String) : ParseVariableRefResult :=
  let trimmed := trim value.toList
  if refOpener.isPrefixOf trimmed then
    match matchExactRef (trimmed.drop 2) with
    | none => .invalid
        "Invalid TurboPanel variable ref; use \x7b$KEY\x7d or \x7b$scope.KEY\x7d with a Compose-safe key"
    | some (none, key) => .ok ⟨String.ofList trimmed, none, String.ofList key⟩
    | some (some token, key) =>
      match resolveVariableRefScope (String.ofList token) with
      | none => .invalid ("Unknown variable scope \"" ++ String.ofList token ++ "\"")
      | some scope => .ok ⟨String.ofList trimmed, some scope, String.ofList key⟩
  else if containsVariableRefOpener trimmed then
    .invalid
      "TurboPanel variable refs must be the entire value (e.g. \x7b$KEY\x7d or \x7b$project.KEY\x7d)"
  else .notARef

/-- The key that is read after a `$`: `{KEY}` or `KEY`. -/
def interpolationKeyAt (rest : Text) : Option Text :=
  match rest with
  | '\x7b' :: inner =>
    let key := inner.takeWhile isWordChar
    if isIdentifier key && (inner.dropWhile isWordChar).head? == some '\x7d' then some key else none
  | _ =>
    let key := rest.takeWhile isWordChar
    if isIdentifier key then some key else none

/-- The matches of `/\$\{([A-Za-z_]\w*)\}|\$([A-Za-z_]\w*)/g`; a match has no second `$` in it. -/
def interpolationKeys : Text → List Text
  | [] => []
  | ch :: rest =>
    if ch = '$' then
      match interpolationKeyAt rest with
      | none => interpolationKeys rest
      | some key => key :: interpolationKeys rest
    else interpolationKeys rest

def collectComposeInterpolationKeys (value : String) : List String :=
  ((interpolationKeys value.toList).map String.ofList).foldl setAdd []

/-! ## The `.env` file -/

structure EnvFileEntry where
  key : String
  value : String
  isLiteral : Bool

/-- `value.replaceAll('$', '$$$$')`: in the replacement, `$$` is one `$`. -/
def escapeLiteralDollars (value : String) : String :=
  String.ofList (value.toList.flatMap fun ch => if ch = '$' then ['$', '$'] else [ch])

def needsQuotes (value : String) : Bool :=
  value.isEmpty || value.toList.any fun ch => isSpace ch || ch == '#' || ch == '"' || ch == '\\'

def quoteEnvValue (value : String) : String :=
  "\"" ++ String.ofList (value.toList.flatMap fun ch =>
    if ch = '\\' ∨ ch = '"' then ['\\', ch] else [ch]) ++ "\""

/-- `value.replaceAll(/\W+/g, '_')`. -/
def replaceNonWord : Text → Text
  | [] => []
  | ch :: rest =>
    if isWordChar ch then ch :: replaceNonWord rest
    else if rest.head?.any fun next => !isWordChar next then replaceNonWord rest
    else '_' :: replaceNonWord rest

def serviceEnvInterpolationKey (composeServiceName key : String) : String :=
  let slug := String.ofList (replaceNonWord composeServiceName.toList)
  (if slug.isEmpty then "svc" else slug) ++ "__" ++ key

def composeInterpolationRef (envKey : String) : String := "$\x7b" ++ envKey ++ "\x7d"

/-- The entry that is kept for each key: the last one. -/
def envByKey (entries : List EnvFileEntry) : Map String EnvFileEntry :=
  Map.ofEntries (entries.map fun entry => (entry.key, entry))

def envFileLine (entry : EnvFileEntry) : String :=
  let raw := if entry.isLiteral then escapeLiteralDollars entry.value else entry.value
  entry.key ++ "=" ++ (if needsQuotes raw then quoteEnvValue raw else raw)

def encodeEnvFile (c : Collation) (entries : List EnvFileEntry) : String :=
  let byKey := envByKey entries
  let keys := sortKeys c byKey.keys
  if keys.isEmpty then ""
  else "\n".intercalate ((keys.filterMap byKey.get?).map envFileLine) ++ "\n"

/-! ## Secret files -/

def defaultDeployRunDir : String := "/run/turbopanel"

structure DeploySecretPlanEntry where
  key : String
  composeServiceName : String
  source : String
  target : String
  relativePath : String
  forBuild : Bool
  forRuntime : Bool

/-- `trimCharRun(value, ch)`. -/
def trimCharRun (value : Text) (ch : Char) : Text :=
  ((value.dropWhile (· == ch)).reverse.dropWhile (· == ch)).reverse

def trimTrailingSlashes (path : String) : String :=
  String.ofList (path.toList.reverse.dropWhile (· == '/')).reverse

def slugToken (value : String) : Text :=
  let slug := trimCharRun (value.toList.map fun ch => if isWordChar ch then ch else '_') '_'
  if slug.isEmpty then ['x'] else slug

def composeSecretSourceName (composeServiceName key : String) : String :=
  String.ofList (toLowerCase (slugToken composeServiceName ++ '_' :: slugToken key))

def isSafeSecretTargetKey (key : String) : Bool :=
  !key.isEmpty && key.toList.all fun ch => ch.isAlphanum || ch == '.' || ch == '_' || ch == '-'

def composeSecretTargetName (key : String) : String :=
  if isSafeSecretTargetKey key then key else String.ofList (slugToken key)

def secretRelativePath (composeServiceName key : String) : String :=
  String.ofList (slugToken composeServiceName) ++ "--" ++ key

def secretHostDirectory (projectId environmentId runDir : String) : String :=
  trimTrailingSlashes runDir ++ "/deployments/" ++ projectId ++ "/" ++ environmentId ++ "/secrets"

def secretHostPath (projectId environmentId relativePath runDir : String) : String :=
  secretHostDirectory projectId environmentId runDir ++ "/" ++ relativePath

def secretContainerPath (target : String) : String := "/run/secrets/" ++ target

def secretFileEnvKey (key : String) : String :=
  if "_FILE".toList.isSuffixOf key.toList then key else key ++ "_FILE"

def buildSecretPlanEntry (key composeServiceName : String) (forBuild forRuntime : Bool)
    (target : Option String) : DeploySecretPlanEntry where
  key := key
  composeServiceName := composeServiceName
  source := composeSecretSourceName composeServiceName key
  target := composeSecretTargetName (target.getD key)
  relativePath := secretRelativePath composeServiceName key
  forBuild := forBuild
  forRuntime := forRuntime

end TurboPanel.Compose
