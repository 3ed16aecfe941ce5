import TurboPanel.Compose.VariableFiles
import TurboPanel.Data.Updates

/-!
# Variables of a document

The model of `applyVariablesToComposeDocument` of `src/features/compose/apply-variables.ts`. For
each service, in the order of the names, the values of `environment` and of `build.args` that are
references are resolved, and then the entries that the service inherits are injected. A plain value
goes to the `.env` file and is referred to by an interpolation; a secret becomes a file that is
mounted.

What the functions of the source change is an `ApplyState`, which is passed on explicitly; what they
only read is a `ServiceContext`.
-/

namespace TurboPanel.Compose

open Js

/-! ## Data -/

structure DeployVariableEntry where
  key : String
  value : String
  isSecret : Bool
  isLiteral : Bool
  forBuild : Bool
  forRuntime : Bool
  bindingId : Option String
  source : Option String

structure UnreferencedSecret where
  key : String
  source : Option String

structure RuntimeEnvAssignment where
  name : String
  key : String
  isSecret : Bool
  value : Option String
  source : Option String

structure BuildEnvAssignment where
  name : String
  key : String
  value : String
  source : Option String

structure DeployVariableMaterial where
  key : String
  composeServiceName : String
  forBuild : Bool
  forRuntime : Bool
  isLiteral : Bool
  valueEnvelope : String

abbrev VariableScopeEntryMap := Map VariableRefScope (Map String DeployVariableEntry)

inductive ApplyVariablesErrorKind
  | variableUnresolved
  | variableRefInvalid
  | variableSecretInterpolation
  deriving DecidableEq

structure ApplyVariablesError where
  kind : ApplyVariablesErrorKind
  message : String
  ref : Option String
  composeServiceName : Option String
  envKey : Option String

structure ApplyVariablesResult where
  document : ComposeDocument
  secretMaterial : List DeployVariableMaterial
  secretPlan : List DeploySecretPlanEntry
  envFileContent : String
  runtimeAssignments : Map String (List RuntimeEnvAssignment)
  buildAssignments : Map String (List BuildEnvAssignment)
  unreferencedSecrets : Map String (List UnreferencedSecret)

structure ApplyVariablesParams where
  globalEntries : List DeployVariableEntry
  perServiceEntries : Map String (List DeployVariableEntry)
  perServiceScopes : Option (Map String VariableScopeEntryMap)
  nativeServiceNames : Option (List String)
  projectId : Option String
  environmentId : Option String
  runDir : Option String

/-! ## Values and maps of strings -/

def trimVariableValue (value : String) : String := String.ofList (trim value.toList)

/-- The same text as `escapeLiteralDollars`. -/
def escapeLiteralComposeValue (value : String) : String := escapeLiteralDollars value

/-- A mapping of strings: `environment` or `build.args`. -/
abbrev StringMap := List (String × String)

def readStringEnvMap : Option Json → StringMap
  | some (.arr items) => items.foldl (fun out item =>
      match item with
      | .str item => setProp out (String.ofList (listEntryKey item.toList))
          (String.ofList ((listEntryValue item.toList).getD []))
      | _ => out) []
  | some (.obj fields) => fields.foldl (fun out e =>
      match e.2 with
      | .str envValue => setProp out e.1 envValue
      | _ => out) []
  | _ => []

/-- A mapping of strings as a value. -/
def stringMapJson (env : StringMap) : Json := .obj (env.map fun e => (e.1, .str e.2))

def writeStringEnvMap (service : Fields) (env : StringMap) : Fields :=
  if env.length = 0 then deleteProp service "environment"
  else setProp service "environment" (stringMapJson env)

/-- `isRecord(service[key]) ? { ...service[key] } : {}`. -/
def recordProp (o : Fields) (key : String) : Fields := ((o.lookup key).bind Json.fields?).getD []

def writeBuildArgs (service : Fields) (args : StringMap) : Fields :=
  if ((service.lookup "build").bind Json.fields?).isNone ∧ args.length = 0 then service
  else
    let build := recordProp service "build"
    let build := if args.length = 0 then deleteProp build "args"
      else setProp build "args" (stringMapJson args)
    if build.length = 0 then deleteProp service "build" else setProp service "build" (.obj build)

/-- `isRecord(service.build) ? readStringEnvMap(service.build.args) : {}`. -/
def readBuildArgs (service : Fields) : StringMap :=
  match (service.lookup "build").bind Json.fields? with
  | none => []
  | some build => readStringEnvMap (build.lookup "args")

def listComposeServiceNames (c : Collation) (document : ComposeDocument) : List String :=
  sortKeys c ((recordProp document.data "services").map Prod.fst)

def isPlatformInlineKey (key : String) : Bool := "TURBOPANEL_".toList.isPrefixOf key.toList

/-! ## Entries -/

def entriesToMap (entries : List DeployVariableEntry) : Map String DeployVariableEntry :=
  Map.ofEntries (entries.map fun entry => (entry.key, entry))

def lookupVariable (ref : ParsedVariableRef) (inherited : Map String DeployVariableEntry)
    (scopes : Option VariableScopeEntryMap) : Option DeployVariableEntry :=
  match ref.scope with
  | some (.scope scope) => (scopes.bind (·.get? scope)).bind (·.get? ref.key)
  | some (.member _) => none
  | none => inherited.get? ref.key

/-- The keys of the secrets among the entries of a map. -/
def secretKeysOf (entries : Map String DeployVariableEntry) : List String :=
  ((entries.entries.map Prod.snd).filter (·.isSecret)).map (·.key)

def collectSecretKeys (inherited : Map String DeployVariableEntry)
    (scopes : Option VariableScopeEntryMap) : List String :=
  (secretKeysOf inherited ++ match scopes with
    | none => []
    | some scopes => scopes.entries.flatMap fun e => secretKeysOf e.2).foldl setAdd []

def secretMaterialFrom (entry : DeployVariableEntry) (composeServiceName : String) :
    DeployVariableMaterial where
  key := entry.key
  composeServiceName := composeServiceName
  forBuild := entry.forBuild
  forRuntime := entry.forRuntime
  isLiteral := entry.isLiteral
  valueEnvelope := entry.value

/-! ## Mounts -/

def ensureTopLevelSecret (data : Fields) (plan : DeploySecretPlanEntry) (hostPath : String) : Fields :=
  setProp data "secrets" (.obj (setProp (recordProp data "secrets") plan.source
    (.obj [("file", .str hostPath)])))

/-- `Array.isArray(o.secrets) ? [...o.secrets] : []`. -/
def secretItems (o : Fields) : List Json := ((o.lookup "secrets").bind Json.items?).getD []

/-- The item has this source. -/
def hasSource (source : String) : Json → Bool
  | .str item => item == source
  | .obj item => ((item.lookup "source").bind Json.str?) == some source
  | _ => false

def secretItem (plan : DeploySecretPlanEntry) : Json :=
  .obj [("source", .str plan.source), ("target", .str plan.target)]

def appendServiceSecret (service : Fields) (plan : DeploySecretPlanEntry) : Fields :=
  if (secretItems service).any (hasSource plan.source) then service
  else setProp service "secrets" (.arr (secretItems service ++ [secretItem plan]))

def appendBuildSecret (service : Fields) (plan : DeploySecretPlanEntry) : Fields :=
  let build := recordProp service "build"
  let build := if (secretItems build).any (hasSource plan.source) then build
    else setProp build "secrets" (.arr (secretItems build ++ [secretItem plan]))
  setProp service "build" (.obj build)

/-! ## The state of a service -/

/-- What is read of a service and its parameters. -/
structure ServiceContext where
  composeServiceName : String
  inherited : Map String DeployVariableEntry
  scopes : Option VariableScopeEntryMap
  secretKeys : List String
  nativeApp : Bool
  projectId : String
  environmentId : String
  runDir : String

/-- What is changed while a service is processed. -/
structure ApplyState where
  service : Fields
  data : Fields
  plannedKeys : List String
  secretMaterial : List DeployVariableMaterial
  secretPlan : List DeploySecretPlanEntry
  envEntries : List EnvFileEntry
  runtimeAssignments : List RuntimeEnvAssignment
  buildAssignments : List BuildEnvAssignment
  unreferencedSecrets : List UnreferencedSecret
  runtimeEnv : StringMap
  buildArgs : StringMap

inductive Lane
  | runtime
  | build
  deriving DecidableEq

variable (ctx : ServiceContext)

/-- The service with the mounts of the secret. -/
def mountSecret (service : Fields) (plan : DeploySecretPlanEntry) : Fields :=
  let service := if plan.forRuntime then appendServiceSecret service plan else service
  if plan.forBuild then appendBuildSecret service plan else service

def applySecretMounts (st : ApplyState) (plan : DeploySecretPlanEntry) (hostPath : String) :
    ApplyState :=
  { st with
    data := ensureTopLevelSecret st.data plan hostPath
    service := mountSecret st.service plan
    runtimeEnv := if plan.forRuntime then
        setProp st.runtimeEnv (secretFileEnvKey plan.target) (secretContainerPath plan.target)
      else st.runtimeEnv }

/-- `{ envKey, ref }` of `interpolationFor`. -/
def interpolationKeyFor (variableKey : String) : String :=
  serviceEnvInterpolationKey ctx.composeServiceName variableKey

/-- The value of a plain variable in the document, and the entry of the `.env` file that it needs.
-/
def plainValue (entry : DeployVariableEntry) : String × List EnvFileEntry :=
  if isPlatformInlineKey entry.key then
    (if entry.isLiteral then escapeLiteralComposeValue (trimVariableValue entry.value)
      else trimVariableValue entry.value, [])
  else
    (composeInterpolationRef (interpolationKeyFor ctx entry.key),
      [⟨interpolationKeyFor ctx entry.key, trimVariableValue entry.value, entry.isLiteral⟩])

def applyNonSecretAssignment (st : ApplyState) (envKey : String) (entry : DeployVariableEntry)
    (target : Lane) : ApplyState :=
  let value := plainValue ctx entry
  match target with
  | .runtime =>
    { st with
      runtimeAssignments := st.runtimeAssignments ++
        [⟨envKey, entry.key, false, some (trimVariableValue entry.value), entry.source⟩]
      envEntries := st.envEntries ++ value.2
      runtimeEnv := setProp st.runtimeEnv envKey value.1 }
  | .build =>
    { st with
      buildAssignments := st.buildAssignments ++
        [⟨envKey, entry.key, trimVariableValue entry.value, entry.source⟩]
      envEntries := st.envEntries ++ value.2
      buildArgs := setProp st.buildArgs envKey value.1 }

/-- The rows of a key of the service. -/
def isPlanOf (key : String) (plan : DeploySecretPlanEntry) : Bool :=
  plan.key == key && plan.composeServiceName == ctx.composeServiceName

def isMaterialOf (key : String) (row : DeployVariableMaterial) : Bool :=
  row.key == key && row.composeServiceName == ctx.composeServiceName

def findPlannedSecret (st : ApplyState) (key : String) : Option DeploySecretPlanEntry :=
  st.secretPlan.find? (isPlanOf ctx key)

def hostPathOf (plan : DeploySecretPlanEntry) : String :=
  secretHostPath ctx.projectId ctx.environmentId plan.relativePath ctx.runDir

/-- The flags of a row after a further use of the secret. -/
def widenPlan (entry : DeployVariableEntry) (plan : DeploySecretPlanEntry) : DeploySecretPlanEntry :=
  { plan with
    forBuild := plan.forBuild || entry.forBuild
    forRuntime := plan.forRuntime || entry.forRuntime }

/-- The row of material has the flags of the plan. -/
def copyFlags (plan : DeploySecretPlanEntry) (row : DeployVariableMaterial) :
    DeployVariableMaterial :=
  { row with forBuild := plan.forBuild, forRuntime := plan.forRuntime }

/-- A further use of a secret whose row is `existing`. -/
def reuseSecret (st : ApplyState) (entry : DeployVariableEntry) (existing : DeploySecretPlanEntry) :
    ApplyState :=
  let plan := widenPlan entry existing
  { applySecretMounts st plan (hostPathOf ctx plan) with
    secretPlan := modifyFirst (isPlanOf ctx entry.key) (widenPlan entry) st.secretPlan
    secretMaterial := modifyFirst (isMaterialOf ctx entry.key) (copyFlags plan) st.secretMaterial }

/-- The row of a secret that the service uses under a name for the first time. -/
def newPlan (entry : DeployVariableEntry) (envKey : String) : DeploySecretPlanEntry :=
  buildSecretPlanEntry entry.key ctx.composeServiceName entry.forBuild entry.forRuntime (some envKey)

/-- The first use of a secret. -/
def planSecret (st : ApplyState) (entry : DeployVariableEntry) (envKey : String) : ApplyState :=
  let plan := newPlan ctx entry envKey
  { applySecretMounts st plan (hostPathOf ctx plan) with
    plannedKeys := setAdd st.plannedKeys entry.key
    secretPlan := st.secretPlan ++ [plan]
    secretMaterial := st.secretMaterial ++ [secretMaterialFrom entry ctx.composeServiceName] }

def applySecretAssignment (st : ApplyState) (entry : DeployVariableEntry) (envKey : String) :
    ApplyState :=
  match findPlannedSecret ctx st entry.key with
  | some existing => reuseSecret ctx st entry existing
  | none => planSecret ctx st entry envKey

/-! ## References -/

def unresolvedError (ref : ParsedVariableRef) (envKey : String) : ApplyVariablesError :=
  let labeled := match ref.scope with
    | some scope => "\x7b$" ++ scope.text ++ "." ++ ref.key ++ "\x7d"
    | none => "\x7b$" ++ ref.key ++ "\x7d"
  { kind := .variableUnresolved
    message := "Unresolved variable " ++ labeled ++ " on " ++ ctx.composeServiceName ++ "." ++ envKey
    ref := some labeled
    composeServiceName := some ctx.composeServiceName
    envKey := some envKey }

def secretInterpolationError (envKey raw : String) : Option ApplyVariablesError :=
  ((collectComposeInterpolationKeys raw).find? ctx.secretKeys.contains).map fun key =>
    { kind := .variableSecretInterpolation
      message := "Secret " ++ key ++ " cannot use Compose $\x7b" ++ key ++
        "\x7d interpolation; use \x7b$" ++ key ++ "\x7d so it becomes a file"
      ref := none
      composeServiceName := some ctx.composeServiceName
      envKey := some envKey }

def recordSecretAssignment (st : ApplyState) (name : String) (entry : DeployVariableEntry) :
    ApplyState :=
  { st with runtimeAssignments := st.runtimeAssignments ++
      [⟨name, entry.key, true, none, entry.source⟩] }

/-- The entry of a reference, used in its lane. -/
def inLane (target : Lane) (entry : DeployVariableEntry) : DeployVariableEntry :=
  { entry with
    forRuntime := if target = .runtime then true else entry.forRuntime
    forBuild := if target = .build then true else entry.forBuild }

def applySecretRefValue (st : ApplyState) (envKey : String) (entry : DeployVariableEntry)
    (target : Lane) : ApplyState :=
  let st := match target with
    | .runtime =>
      recordSecretAssignment { st with runtimeEnv := deleteProp st.runtimeEnv envKey } envKey entry
    | .build => { st with buildArgs := deleteProp st.buildArgs envKey }
  applySecretAssignment ctx st (inLane target entry) envKey

def applyRefValue (target : Lane) (st : ApplyState) (value : String × String) :
    Except ApplyVariablesError ApplyState :=
  match parseExactVariableRef value.2 with
  | .notARef =>
    match secretInterpolationError ctx value.1 value.2 with
    | some error => .error error
    | none => .ok st
  | .invalid message =>
    .error
      { kind := .variableRefInvalid
        message := message
        ref := none
        composeServiceName := some ctx.composeServiceName
        envKey := some value.1 }
  | .ok ref =>
    match lookupVariable ref ctx.inherited ctx.scopes with
    | none => .error (unresolvedError ctx ref value.1)
    | some entry =>
      if entry.isSecret then .ok (applySecretRefValue ctx st value.1 entry target)
      else .ok (applyNonSecretAssignment ctx st value.1 entry target)

/-- The values are those from before the loop. -/
def scanMapForRefs (st : ApplyState) (values : StringMap) (target : Lane) :
    Except ApplyVariablesError ApplyState :=
  values.foldlM (applyRefValue ctx target) st

/-! ## Injection -/

def shouldAutoAttachSecret (plannedKeys : List String) (entry : DeployVariableEntry) : Bool :=
  if plannedKeys.contains entry.key then false
  else if (truthyString entry.bindingId).isSome then true
  else ctx.nativeApp && entry.forRuntime &&
    (entry.source == some "service" || entry.source == some "hosting")

def attachUnreferencedSecret (st : ApplyState) (entry : DeployVariableEntry) : ApplyState :=
  if shouldAutoAttachSecret ctx st.plannedKeys entry then
    let st := applySecretAssignment ctx st entry entry.key
    if entry.forRuntime then recordSecretAssignment st entry.key entry else st
  else if ctx.nativeApp && entry.forRuntime && !st.plannedKeys.contains entry.key then
    { st with unreferencedSecrets := st.unreferencedSecrets ++ [⟨entry.key, entry.source⟩] }
  else st

/-- One round of the loop of `autoInjectEntries`. -/
def injectEntry (st : ApplyState) (entry : DeployVariableEntry) : ApplyState :=
  if entry.isSecret then attachUnreferencedSecret ctx st entry
  else
    let st := if entry.forRuntime then applyNonSecretAssignment ctx st entry.key entry .runtime else st
    if entry.forBuild then applyNonSecretAssignment ctx st entry.key entry .build else st

/-- The maps are read from the service. -/
def ApplyState.readMaps (st : ApplyState) : ApplyState :=
  { st with
    runtimeEnv := readStringEnvMap (st.service.lookup "environment")
    buildArgs := readBuildArgs st.service }

/-- The maps are written to the service. -/
def ApplyState.writeMaps (st : ApplyState) : ApplyState :=
  { st with service := writeBuildArgs (writeStringEnvMap st.service st.runtimeEnv) st.buildArgs }

def autoInjectEntries (st : ApplyState) : ApplyState :=
  ((ctx.inherited.entries.map Prod.snd).foldl (injectEntry ctx) st.readMaps).writeMaps

def applyEntriesToService (st : ApplyState) : Except ApplyVariablesError ApplyState := do
  let st := st.readMaps
  let st ← scanMapForRefs ctx st st.runtimeEnv .runtime
  let st ← scanMapForRefs ctx st st.buildArgs .build
  return autoInjectEntries ctx st.writeMaps

/-! ## Documents -/

/-- What the loop over the services changes. -/
structure ApplyRun where
  data : Fields
  services : Fields
  secretMaterial : List DeployVariableMaterial
  secretPlan : List DeploySecretPlanEntry
  envEntries : List EnvFileEntry
  runtimeAssignments : Map String (List RuntimeEnvAssignment)
  buildAssignments : Map String (List BuildEnvAssignment)
  unreferencedSecrets : Map String (List UnreferencedSecret)

def serviceContext (params : ApplyVariablesParams) (composeServiceName : String) : ServiceContext :=
  let inherited := entriesToMap (params.globalEntries ++
    (params.perServiceEntries.get? composeServiceName).getD [])
  let scopes := params.perServiceScopes.bind (·.get? composeServiceName)
  { composeServiceName
    inherited
    scopes
    secretKeys := collectSecretKeys inherited scopes
    nativeApp := (params.nativeServiceNames.getD []).contains composeServiceName
    projectId := params.projectId.getD "preview"
    environmentId := params.environmentId.getD "preview"
    runDir := params.runDir.getD defaultDeployRunDir }

/-- The state with which a service begins. -/
def ApplyRun.start (run : ApplyRun) (rawService : Fields) : ApplyState where
  service := rawService
  data := run.data
  plannedKeys := []
  secretMaterial := run.secretMaterial
  secretPlan := run.secretPlan
  envEntries := run.envEntries
  runtimeAssignments := []
  buildAssignments := []
  unreferencedSecrets := []
  runtimeEnv := []
  buildArgs := []

/-- What a service leaves behind. -/
def ApplyRun.finish (run : ApplyRun) (composeServiceName : String) (st : ApplyState) : ApplyRun where
  data := st.data
  services := setProp run.services composeServiceName (.obj st.service)
  secretMaterial := st.secretMaterial
  secretPlan := st.secretPlan
  envEntries := st.envEntries
  runtimeAssignments := run.runtimeAssignments.set composeServiceName st.runtimeAssignments
  buildAssignments := run.buildAssignments.set composeServiceName st.buildAssignments
  unreferencedSecrets := run.unreferencedSecrets.set composeServiceName st.unreferencedSecrets

/-- One round of the loop over the services. -/
def applyService (params : ApplyVariablesParams) (run : ApplyRun) (composeServiceName : String) :
    Except ApplyVariablesError ApplyRun :=
  match (run.services.lookup composeServiceName).bind Json.fields? with
  | none => .ok run
  | some rawService => do
    let st ← applyEntriesToService (serviceContext params composeServiceName) (run.start rawService)
    return run.finish composeServiceName st

/-- The state of the loop over the services before the first one. -/
def ApplyRun.initial (document : ComposeDocument) : ApplyRun where
  data := document.data
  services := recordProp document.data "services"
  secretMaterial := []
  secretPlan := []
  envEntries := []
  runtimeAssignments := Map.empty
  buildAssignments := Map.empty
  unreferencedSecrets := Map.empty

/-- The loop over the services. -/
def applyRun (c : Collation) (document : ComposeDocument) (params : ApplyVariablesParams) :
    Except ApplyVariablesError ApplyRun :=
  (listComposeServiceNames c document).foldlM (applyService params) (ApplyRun.initial document)

def ApplyRun.result (c : Collation) (document : ComposeDocument) (run : ApplyRun) :
    ApplyVariablesResult where
  document :=
    { data := setProp run.data "services" (.obj run.services)
      presentation := document.presentation }
  secretMaterial := run.secretMaterial
  secretPlan := run.secretPlan
  envFileContent := encodeEnvFile c run.envEntries
  runtimeAssignments := run.runtimeAssignments
  buildAssignments := run.buildAssignments
  unreferencedSecrets := run.unreferencedSecrets

def applyVariablesToComposeDocument (c : Collation) (document : ComposeDocument)
    (params : ApplyVariablesParams) : Except ApplyVariablesError ApplyVariablesResult := do
  return (← applyRun c document params).result c document

end TurboPanel.Compose
