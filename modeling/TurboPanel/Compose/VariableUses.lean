import TurboPanel.Compose.ApplyVariables
import TurboPanel.Data.Traversal

/-!
# The uses of variables

What `applyVariablesToComposeDocument` does to a service is a list of uses of variables, which the
input alone determines (`serviceUses`): the references of the runtime lane, those of the build lane,
and the variables that are injected. A run is the list of the uses, one after the other, and this
module says what each output is in terms of them (`RunTracks`): the rows of a secret come from the
first of its uses, and an environment variable holds what the last of its writes left.
-/

namespace TurboPanel.Compose

open Option Js List

/-! ## Uses -/

/-- A use of a variable by a service. -/
inductive Use
  /-- A plain variable, as `name`. -/
  | plain (target : Lane) (name : String) (entry : DeployVariableEntry)
  /-- A reference `name: {$KEY}` to a secret. -/
  | secretRef (target : Lane) (name : String) (entry : DeployVariableEntry)
  /-- A secret that is attached without a reference. -/
  | attached (entry : DeployVariableEntry)
  /-- A secret that is not passed on, of a native app. -/
  | unreferenced (entry : DeployVariableEntry)

/-- A secret, with the name under which it is used first or again. -/
abbrev SecretUse := String × DeployVariableEntry

def Use.secret? : Use → Option SecretUse
  | secretRef target name entry => some (name, inLane target entry)
  | attached entry => some (entry.key, entry)
  | _ => none

def secretUses (uses : List Use) : List SecretUse := uses.filterMap Use.secret?

/-- The keys of the secrets that are used, in the order of their first uses. -/
def usedKeys (secrets : List SecretUse) : List String := (secrets.map (·.2.key)).foldl setAdd []

variable (ctx : ServiceContext)

/-- What a value of a lane uses. -/
def refUse (target : Lane) (value : String × String) : Option Use :=
  match parseExactVariableRef value.2 with
  | .ok ref => (lookupVariable ref ctx.inherited ctx.scopes).map fun entry =>
      if entry.isSecret then .secretRef target value.1 entry else .plain target value.1 entry
  | _ => none

def refUses (rawService : Fields) : List Use :=
  (readStringEnvMap (rawService.lookup "environment")).filterMap (refUse ctx .runtime) ++
    (readBuildArgs rawService).filterMap (refUse ctx .build)

/-- What is injected for an entry, when the secrets with the keys `planned` are referred to. -/
def injectUses (planned : List String) (entry : DeployVariableEntry) : List Use :=
  if entry.isSecret then
    if shouldAutoAttachSecret ctx planned entry then [.attached entry]
    else if ctx.nativeApp && entry.forRuntime && !planned.contains entry.key then
      [.unreferenced entry]
    else []
  else
    (if entry.forRuntime then [.plain .runtime entry.key entry] else []) ++
      if entry.forBuild then [.plain .build entry.key entry] else []

/-- The uses of a service, from its input. -/
def serviceUses (rawService : Fields) : List Use :=
  refUses ctx rawService ++ (ctx.inherited.entries.map Prod.snd).flatMap
    (injectUses ctx (usedKeys (secretUses (refUses ctx rawService))))

/-! ## What a use does -/

def Use.apply (st : ApplyState) : Use → ApplyState
  | plain target name entry => applyNonSecretAssignment ctx st name entry target
  | secretRef target name entry => applySecretRefValue ctx st name entry target
  | attached entry =>
    let st := applySecretAssignment ctx st entry entry.key
    if entry.forRuntime then recordSecretAssignment st entry.key entry else st
  | unreferenced entry =>
    { st with unreferencedSecrets := st.unreferencedSecrets ++ [⟨entry.key, entry.source⟩] }

/-- The uses of a secret. -/
def usesOf (secrets : List SecretUse) (key : String) : List SecretUse :=
  secrets.filter (·.2.key == key)

/-- The row of the plan for a secret: its first use gives the target. -/
def planOf (secrets : List SecretUse) (key : String) : DeploySecretPlanEntry :=
  let uses := usesOf secrets key
  buildSecretPlanEntry key ctx.composeServiceName (uses.any (·.2.forBuild)) (uses.any (·.2.forRuntime))
    (uses.head?.map Prod.fst)

theorem planOf_names (secrets : List SecretUse) (key : String) :
    (planOf ctx secrets key).key = key ∧
      (planOf ctx secrets key).source = composeSecretSourceName ctx.composeServiceName key ∧
        (planOf ctx secrets key).relativePath = secretRelativePath ctx.composeServiceName key :=
  ⟨rfl, rfl, rfl⟩

/-- The row of material for a secret: its first use gives the value. -/
def materialOf (secrets : List SecretUse) (key : String) : DeployVariableMaterial :=
  let uses := usesOf secrets key
  { key
    composeServiceName := ctx.composeServiceName
    forBuild := uses.any (·.2.forBuild)
    forRuntime := uses.any (·.2.forRuntime)
    isLiteral := (uses.head?.map (·.2.isLiteral)).getD false
    valueEnvelope := (uses.head?.map (·.2.value)).getD "" }

def Use.envEntries : Use → List EnvFileEntry
  | plain _ _ entry => (plainValue ctx entry).2
  | _ => []

/-- The runtime assignments of a use. -/
def Use.records : Use → List RuntimeEnvAssignment
  | plain .runtime name entry =>
    [⟨name, entry.key, false, some (trimVariableValue entry.value), entry.source⟩]
  | plain .build _ _ => []
  | secretRef .runtime name entry => [⟨name, entry.key, true, none, entry.source⟩]
  | secretRef .build _ _ => []
  | attached entry => if entry.forRuntime then [⟨entry.key, entry.key, true, none, entry.source⟩] else []
  | unreferenced _ => []

/-- The row that a use mounts at runtime. -/
def Use.runtimePlans (before : List Use) (use : Use) : List DeploySecretPlanEntry :=
  match use.secret? with
  | none => []
  | some secret => [planOf ctx (secretUses before ++ [secret]) secret.2.key].filter (·.forRuntime)

/-- The uses, each with the row that it mounts. -/
def mountedUses (before : List Use) : List Use → List (Use × List DeploySecretPlanEntry)
  | [] => []
  | use :: rest => (use, use.runtimePlans ctx before) :: mountedUses (before ++ [use]) rest

/-- What a use does to the environment under its own name. -/
def Use.ownOps : Use → List (String × Option String)
  | plain .runtime name entry => [(name, some (plainValue ctx entry).1)]
  | secretRef .runtime name _ => [(name, none)]
  | _ => []

def fileOp (plan : DeploySecretPlanEntry) : String × Option String :=
  (secretFileEnvKey plan.target, some (secretContainerPath plan.target))

/-- What a use does to the environment. -/
def envOps (use : Use × List DeploySecretPlanEntry) : List (String × Option String) :=
  use.1.ownOps ctx ++ use.2.map fileOp

/-- What the uses do to the environment, in order. -/
def envWrites (uses : List Use) : List (String × Option String) :=
  (mountedUses ctx [] uses).flatMap (envOps ctx)

/-- The rows that are mounted at runtime, in order. -/
def runtimeMounts (uses : List Use) : List DeploySecretPlanEntry :=
  (mountedUses ctx [] uses).flatMap Prod.snd

theorem mountedUses_append (before uses : List Use) (use : Use) :
    mountedUses ctx before (uses ++ [use]) =
      mountedUses ctx before uses ++ [(use, use.runtimePlans ctx (before ++ uses))] := by
  induction uses generalizing before with
  | nil => rw [nil_append, append_nil]; rfl
  | cons u uses ih =>
    rw [cons_append, mountedUses, mountedUses, ih, cons_append, append_assoc]
    rfl

theorem envWrites_append (uses : List Use) (use : Use) : envWrites ctx (uses ++ [use]) =
    envWrites ctx uses ++ envOps ctx (use, use.runtimePlans ctx uses) := by
  rw [envWrites, mountedUses_append, flatMap_append, flatMap_singleton]
  rfl

theorem runtimeMounts_append (uses : List Use) (use : Use) : runtimeMounts ctx (uses ++ [use]) =
    runtimeMounts ctx uses ++ use.runtimePlans ctx uses := by
  rw [runtimeMounts, mountedUses_append, flatMap_append, flatMap_singleton]
  rfl

/-! ## The references of a service -/

variable {st : ApplyState}

theorem applyRefValue_eq_ok {target : Lane} {st' : ApplyState} {value : String × String}
    (h : applyRefValue ctx target st value = .ok st') :
    st' = (refUse ctx target value).toList.foldl (Use.apply ctx) st := by
  rw [applyRefValue] at h
  rw [refUse]
  cases hparse : parseExactVariableRef value.2 with
  | notARef =>
    simp only [hparse] at h
    split at h
    · cases h
    · exact (Except.ok.inj h).symm
  | invalid message =>
    simp only [hparse] at h
    cases h
  | ok ref =>
    simp only [hparse] at h
    simp only
    cases hlookup : lookupVariable ref ctx.inherited ctx.scopes with
    | none =>
      simp only [hlookup] at h
      cases h
    | some entry =>
      simp only [hlookup] at h
      rw [map_some, toList_some, foldl_cons, foldl_nil]
      split at h
      · rename_i hsecret
        rw [if_pos hsecret]
        exact (Except.ok.inj h).symm
      · rename_i hsecret
        rw [if_neg hsecret]
        exact (Except.ok.inj h).symm

theorem scanMapForRefs_eq_ok {target : Lane} {st' : ApplyState} {values : StringMap}
    (h : scanMapForRefs ctx st values target = .ok st') :
    st' = (values.filterMap (refUse ctx target)).foldl (Use.apply ctx) st := by
  rw [scanMapForRefs] at h
  induction values generalizing st with
  | nil => exact (Except.ok.inj h).symm
  | cons value values ih =>
    rw [foldlM_cons, bind_eq_ok] at h
    obtain ⟨st₁, hvalue, h⟩ := h
    have hrest := ih h
    rw [hrest, applyRefValue_eq_ok ctx hvalue]
    cases huse : refUse ctx target value with
    | none => rw [filterMap_cons_none huse]; rfl
    | some use => rw [filterMap_cons_some huse]; rfl

/-! ## The rows of the secrets -/

section

variable {secrets : List SecretUse} {secret : SecretUse} {key : String}

theorem usedKeys_append : usedKeys (secrets ++ [secret]) = setAdd (usedKeys secrets) secret.2.key := by
  rw [usedKeys, map_append, foldl_append]
  rfl

theorem usesOf_append : usesOf (secrets ++ [secret]) key =
    usesOf secrets key ++ if secret.2.key = key then [secret] else [] := by
  rw [usesOf, filter_append, ← usesOf]
  by_cases h : secret.2.key = key
  · rw [if_pos h, filter_cons_of_pos (by simpa using h), filter_nil]
  · rw [if_neg h, filter_cons_of_neg (by simpa using h), filter_nil]

theorem mem_usedKeys : key ∈ usedKeys secrets ↔ usesOf secrets key ≠ [] := by
  induction secrets using List.reverseRecOn with
  | nil => simp [usedKeys, usesOf]
  | append_singleton secrets secret ih =>
    rw [usedKeys_append, mem_setAdd, ih, usesOf_append]
    by_cases h : secret.2.key = key
    · simp [h]
    · simp [h, Ne.symm h]

theorem nodup_usedKeys : (usedKeys secrets).Nodup := by
  induction secrets using List.reverseRecOn with
  | nil => exact nodup_nil
  | append_singleton secrets secret ih => exact usedKeys_append ▸ nodup_setAdd ih _

theorem planOf_append_of_ne (h : secret.2.key ≠ key) :
    planOf ctx (secrets ++ [secret]) key = planOf ctx secrets key := by
  rw [planOf, planOf, usesOf_append, if_neg h, append_nil]

theorem materialOf_append_of_ne (h : secret.2.key ≠ key) :
    materialOf ctx (secrets ++ [secret]) key = materialOf ctx secrets key := by
  rw [materialOf, materialOf, usesOf_append, if_neg h, append_nil]

theorem planOf_append_of_mem (h : secret.2.key ∈ usedKeys secrets) :
    planOf ctx (secrets ++ [secret]) secret.2.key =
      widenPlan secret.2 (planOf ctx secrets secret.2.key) := by
  rw [planOf, planOf, usesOf_append, if_pos rfl, any_append, any_append,
    head?_append_of_ne_nil _ (mem_usedKeys.1 h)]
  simp [widenPlan, buildSecretPlanEntry]

theorem materialOf_append_of_mem (h : secret.2.key ∈ usedKeys secrets) :
    materialOf ctx (secrets ++ [secret]) secret.2.key =
      copyFlags (planOf ctx (secrets ++ [secret]) secret.2.key)
        (materialOf ctx secrets secret.2.key) := by
  rw [materialOf, materialOf, planOf, usesOf_append, if_pos rfl,
    head?_append_of_ne_nil _ (mem_usedKeys.1 h)]
  rfl

theorem planOf_append_of_not_mem (h : secret.2.key ∉ usedKeys secrets) :
    planOf ctx (secrets ++ [secret]) secret.2.key = newPlan ctx secret.2 secret.1 := by
  rw [mem_usedKeys, not_not] at h
  rw [planOf, usesOf_append, h, if_pos rfl]
  simp [newPlan]

theorem materialOf_append_of_not_mem (h : secret.2.key ∉ usedKeys secrets) :
    materialOf ctx (secrets ++ [secret]) secret.2.key =
      secretMaterialFrom secret.2 ctx.composeServiceName := by
  rw [mem_usedKeys, not_not] at h
  rw [materialOf, usesOf_append, h, if_pos rfl]
  simp [secretMaterialFrom]

end

/-- No row of the run is one of this service. -/
structure Fresh (run : ApplyRun) : Prop where
  plan : ∀ plan ∈ run.secretPlan, plan.composeServiceName ≠ ctx.composeServiceName
  material : ∀ row ∈ run.secretMaterial, row.composeServiceName ≠ ctx.composeServiceName

/-- The rows after the uses `secrets` of a service. -/
structure SecretsTracked (run : ApplyRun) (secrets : List SecretUse) (st : ApplyState) : Prop where
  plannedKeys : st.plannedKeys = usedKeys secrets
  secretPlan : st.secretPlan = run.secretPlan ++ (usedKeys secrets).map (planOf ctx secrets)
  secretMaterial : st.secretMaterial =
    run.secretMaterial ++ (usedKeys secrets).map (materialOf ctx secrets)

section

variable {ctx} {run : ApplyRun} {secrets : List SecretUse} {st : ApplyState}

theorem Fresh.isPlanOf_eq_false (hfresh : Fresh ctx run) (key : String) :
    ∀ plan ∈ run.secretPlan, isPlanOf ctx key plan = false := by
  intro plan hplan
  rw [isPlanOf, beq_eq_false_iff_ne.2 (hfresh.plan plan hplan), Bool.and_false]

theorem Fresh.isMaterialOf_eq_false (hfresh : Fresh ctx run) (key : String) :
    ∀ row ∈ run.secretMaterial, isMaterialOf ctx key row = false := by
  intro row hrow
  rw [isMaterialOf, beq_eq_false_iff_ne.2 (hfresh.material row hrow), Bool.and_false]

theorem isPlanOf_planOf (key key' : String) :
    isPlanOf ctx key (planOf ctx secrets key') = (key' == key) := by
  simp [isPlanOf, planOf, buildSecretPlanEntry]

theorem isMaterialOf_materialOf (key key' : String) :
    isMaterialOf ctx key (materialOf ctx secrets key') = (key' == key) := by
  simp [isMaterialOf, materialOf]

theorem SecretsTracked.find (h : SecretsTracked ctx run secrets st) (hfresh : Fresh ctx run)
    (key : String) : findPlannedSecret ctx st key =
      if key ∈ usedKeys secrets then some (planOf ctx secrets key) else none := by
  rw [findPlannedSecret, h.secretPlan, find?_append,
    find?_eq_none.2 fun plan hplan => by simp [hfresh.isPlanOf_eq_false key plan hplan],
    none_or, find?_map]
  have hcomp : isPlanOf ctx key ∘ planOf ctx secrets = fun key' => key' == key :=
    funext fun key' => isPlanOf_planOf key key'
  rw [hcomp]
  cases hfind : (usedKeys secrets).find? fun key' => key' == key with
  | none =>
    rw [find?_eq_none] at hfind
    rw [if_neg fun hkey => hfind key hkey (beq_self_eq_true key), map_none]
  | some key' =>
    obtain rfl : key' = key := by simpa using find?_some hfind
    rw [if_pos (mem_of_find?_eq_some hfind), map_some]

/-- The state after a further use of a secret. -/
def afterSecret (ctx : ServiceContext) (run : ApplyRun) (secrets : List SecretUse)
    (secret : SecretUse) (st : ApplyState) : ApplyState :=
  let plan := planOf ctx (secrets ++ [secret]) secret.2.key
  { applySecretMounts st plan (hostPathOf ctx plan) with
    plannedKeys := usedKeys (secrets ++ [secret])
    secretPlan := run.secretPlan ++
      (usedKeys (secrets ++ [secret])).map (planOf ctx (secrets ++ [secret]))
    secretMaterial := run.secretMaterial ++
      (usedKeys (secrets ++ [secret])).map (materialOf ctx (secrets ++ [secret])) }

/-- **A use of a secret.** Whether the service has the secret already or not, the rows are those of
all its uses, and the secret is mounted with its row. -/
theorem applySecretAssignment_eq (h : SecretsTracked ctx run secrets st) (hfresh : Fresh ctx run)
    (secret : SecretUse) : applySecretAssignment ctx st secret.2 secret.1 =
      afterSecret ctx run secrets secret st := by
  rw [applySecretAssignment, h.find hfresh]
  by_cases hkey : secret.2.key ∈ usedKeys secrets
  · have hkeys : usedKeys (secrets ++ [secret]) = usedKeys secrets := by
      rw [usedKeys_append, setAdd, if_pos hkey]
    have hplans : modifyFirst (isPlanOf ctx secret.2.key) (widenPlan secret.2) st.secretPlan =
        run.secretPlan ++ (usedKeys secrets).map (planOf ctx (secrets ++ [secret])) := by
      rw [h.secretPlan, modifyFirst_append_right (hfresh.isPlanOf_eq_false _),
        modifyFirst_map nodup_usedKeys hkey (by simp [isPlanOf_planOf])
          (planOf_append_of_mem ctx hkey) fun key' hne =>
          ⟨by simpa [isPlanOf_planOf] using hne, planOf_append_of_ne ctx hne.symm⟩]
    have hrows : modifyFirst (isMaterialOf ctx secret.2.key)
        (copyFlags (planOf ctx (secrets ++ [secret]) secret.2.key)) st.secretMaterial =
        run.secretMaterial ++ (usedKeys secrets).map (materialOf ctx (secrets ++ [secret])) := by
      rw [h.secretMaterial, modifyFirst_append_right (hfresh.isMaterialOf_eq_false _),
        modifyFirst_map nodup_usedKeys hkey (by simp [isMaterialOf_materialOf])
          (materialOf_append_of_mem ctx hkey) fun key' hne =>
          ⟨by simpa [isMaterialOf_materialOf] using hne, materialOf_append_of_ne ctx hne.symm⟩]
    rw [if_pos hkey, afterSecret, hkeys, ← hplans, ← hrows, planOf_append_of_mem ctx hkey,
      ← h.plannedKeys]
    rfl
  · have hkeys : usedKeys (secrets ++ [secret]) = usedKeys secrets ++ [secret.2.key] := by
      rw [usedKeys_append, setAdd, if_neg hkey]
    have hne : ∀ key ∈ usedKeys secrets, secret.2.key ≠ key := fun key hmem heq => hkey (heq ▸ hmem)
    have hplans : run.secretPlan ++
        (usedKeys (secrets ++ [secret])).map (planOf ctx (secrets ++ [secret])) =
        st.secretPlan ++ [newPlan ctx secret.2 secret.1] := by
      rw [h.secretPlan, hkeys, map_append, map_singleton, planOf_append_of_not_mem ctx hkey,
        map_congr_left fun key hmem => planOf_append_of_ne ctx (hne key hmem), append_assoc]
    have hrows : run.secretMaterial ++
        (usedKeys (secrets ++ [secret])).map (materialOf ctx (secrets ++ [secret])) =
        st.secretMaterial ++ [secretMaterialFrom secret.2 ctx.composeServiceName] := by
      rw [h.secretMaterial, hkeys, map_append, map_singleton,
        materialOf_append_of_not_mem ctx hkey,
        map_congr_left fun key hmem => materialOf_append_of_ne ctx (hne key hmem),
        append_assoc]
    rw [if_neg hkey, afterSecret, hplans, hrows, planOf_append_of_not_mem ctx hkey, usedKeys_append,
      ← h.plannedKeys]
    rfl

end

/-! ## The items of a service -/

/-- The source of an item of `secrets`. -/
def sourceOf : Json → Option String
  | .str item => some item
  | .obj item => (item.lookup "source").bind Json.str?
  | _ => none

theorem hasSource_eq (source : String) (item : Json) :
    hasSource source item = decide (sourceOf item = some source) := by
  rw [Bool.eq_iff_iff, decide_eq_true_iff]
  cases item with
  | str item => simp [hasSource, sourceOf]
  | obj item => simp [hasSource, sourceOf]
  | _ => simp [hasSource, sourceOf]

variable {entry : DeployVariableEntry} {run : ApplyRun} (service : Fields) (plan : DeploySecretPlanEntry)

theorem sourceOf_secretItem :
    sourceOf (secretItem plan) = some plan.source := rfl

theorem secretItems_appendServiceSecret :
    secretItems (appendServiceSecret service plan) =
      TurboPanel.appendNew sourceOf (secretItems service) (secretItem plan) := by
  have hany : (secretItems service).any (hasSource plan.source) =
      (secretItems service).any fun item => decide (sourceOf item = sourceOf (secretItem plan)) :=
    congrArg _ (funext fun item => hasSource_eq plan.source item)
  rw [appendServiceSecret, TurboPanel.appendNew, hany]
  split
  · rfl
  · rw [secretItems, lookup_setProp, if_pos rfl]
    rfl

theorem secretItems_setProp (key : String) (h : key ≠ "secrets") (v : Json) :
    secretItems (setProp service key v) = secretItems service := by
  rw [secretItems, lookup_setProp, if_neg h.symm, ← secretItems]

theorem secretItems_deleteProp (key : String) (h : key ≠ "secrets") :
    secretItems (deleteProp service key) = secretItems service := by
  rw [secretItems, lookup_deleteProp, if_neg h.symm, ← secretItems]

theorem secretItems_mountSecret :
    secretItems (mountSecret service plan) =
      (([plan].filter (·.forRuntime)).map secretItem).foldl (TurboPanel.appendNew sourceOf)
        (secretItems service) := by
  have hbuild : ∀ service, secretItems (if plan.forBuild then appendBuildSecret service plan
      else service) = secretItems service := by
    intro service
    split
    · exact secretItems_setProp service "build" (by decide) _
    · rfl
  rw [mountSecret, hbuild]
  cases h : plan.forRuntime with
  | true => simp [h, secretItems_appendServiceSecret]
  | false => simp [h]

theorem secretItems_writeMaps (st : ApplyState) :
    secretItems st.writeMaps.service = secretItems st.service := by
  have henv : secretItems (writeStringEnvMap st.service st.runtimeEnv) = secretItems st.service := by
    rw [writeStringEnvMap]
    split
    · exact secretItems_deleteProp _ "environment" (by decide)
    · exact secretItems_setProp _ "environment" (by decide) _
  have hbuild : ∀ service build : Fields, secretItems (if build.length = 0 then
      deleteProp service "build" else setProp service "build" (.obj build)) = secretItems service := by
    intro service build
    split
    · exact secretItems_deleteProp service "build" (by decide)
    · exact secretItems_setProp service "build" (by decide) _
  have hargs : ∀ service args, secretItems (writeBuildArgs service args) = secretItems service := by
    intro service args
    rw [writeBuildArgs]
    split
    · rfl
    · exact hbuild service _
  rw [ApplyState.writeMaps, hargs, henv]

/-! ## The state after some uses -/

/-- The state of a service after some of its uses, in terms of the input and of the uses. -/
structure Tracks (run : ApplyRun) (rawService : Fields) (uses : List Use) (st : ApplyState) :
    Prop where
  secrets : SecretsTracked ctx run (secretUses uses) st
  envEntries : st.envEntries = run.envEntries ++ uses.flatMap (Use.envEntries ctx)
  runtimeAssignments : st.runtimeAssignments = uses.flatMap Use.records
  nodupEnv : (st.runtimeEnv.map Prod.fst).Nodup
  env : ∀ n, st.runtimeEnv.lookup n =
    valueAfter ((readStringEnvMap (rawService.lookup "environment")).lookup n) (envWrites ctx uses) n
  items : secretItems st.service =
    ((runtimeMounts ctx uses).map secretItem).foldl (TurboPanel.appendNew sourceOf) (secretItems rawService)

section

variable {ctx} {run : ApplyRun} {rawService : Fields} {uses : List Use} {st : ApplyState}

theorem lookup_afterSecret (run : ApplyRun) (secrets : List SecretUse) (secret : SecretUse) (n : String) :
    (afterSecret ctx run secrets secret st).runtimeEnv.lookup n =
      valueAfter (st.runtimeEnv.lookup n)
        (([planOf ctx (secrets ++ [secret]) secret.2.key].filter (·.forRuntime)).map fileOp) n := by
  change (if (planOf ctx (secrets ++ [secret]) secret.2.key).forRuntime = true then
    setProp st.runtimeEnv _ _ else st.runtimeEnv).lookup n = _
  cases h : (planOf ctx (secrets ++ [secret]) secret.2.key).forRuntime with
  | true =>
    rw [if_pos rfl, lookup_setProp, filter_cons_of_pos h, filter_nil, map_singleton,
      valueAfter_cons, valueAfter_nil]
    simp only [fileOp]
    exact if_congr eq_comm rfl rfl
  | false =>
    rw [if_neg Bool.false_ne_true, filter_cons_of_neg (by simp [h])]
    rfl

theorem nodup_afterSecret (run : ApplyRun) (secrets : List SecretUse) (secret : SecretUse)
    (h : (st.runtimeEnv.map Prod.fst).Nodup) :
    ((afterSecret ctx run secrets secret st).runtimeEnv.map Prod.fst).Nodup := by
  change ((if (planOf ctx (secrets ++ [secret]) secret.2.key).forRuntime = true then
    setProp st.runtimeEnv _ _ else st.runtimeEnv).map Prod.fst).Nodup
  split
  · exact nodup_setProp h _ _
  · exact h

theorem Tracks.step_plain (h : Tracks ctx run rawService uses st) {use : Use}
    (hnone : use.secret? = none) {st' : ApplyState}
    (hsecrets : SecretsTracked ctx run (secretUses uses) st') (hservice : st'.service = st.service)
    (henvEntries : st'.envEntries = st.envEntries ++ use.envEntries ctx)
    (hrecords : st'.runtimeAssignments = st.runtimeAssignments ++ use.records)
    (hnodup : (st'.runtimeEnv.map Prod.fst).Nodup)
    (henv : ∀ n, st'.runtimeEnv.lookup n = valueAfter (st.runtimeEnv.lookup n) (use.ownOps ctx) n) :
    Tracks ctx run rawService (uses ++ [use]) st' := by
  have hplans : use.runtimePlans ctx uses = [] := by rw [Use.runtimePlans, hnone]
  refine ⟨?_, ?_, ?_, hnodup, fun n => ?_, ?_⟩
  · rwa [secretUses, filterMap_append, filterMap_cons_none hnone, filterMap_nil,
      append_nil]
  · rw [henvEntries, h.envEntries, flatMap_append, flatMap_singleton, append_assoc]
  · rw [hrecords, h.runtimeAssignments, flatMap_append, flatMap_singleton]
  · rw [henv, h.env, envWrites_append, valueAfter_append, envOps, hplans, map_nil,
      append_nil]
  · rw [hservice, h.items, runtimeMounts_append, hplans, append_nil]

theorem Tracks.step_secret (h : Tracks ctx run rawService uses st) (use : Use) {secret : SecretUse}
    (hsome : use.secret? = some secret) (henvEntries : use.envEntries ctx = [])
    (env args : StringMap) (hnodup : (env.map Prod.fst).Nodup)
    (henv : ∀ n, env.lookup n = valueAfter (st.runtimeEnv.lookup n) (use.ownOps ctx) n) :
    Tracks ctx run rawService (uses ++ [use])
      { afterSecret ctx run (secretUses uses) secret { st with runtimeEnv := env, buildArgs := args } with
        runtimeAssignments := st.runtimeAssignments ++ use.records } := by
  have hsecrets : secretUses (uses ++ [use]) = secretUses uses ++ [secret] := by
    rw [secretUses, filterMap_append, filterMap_cons_some hsome, filterMap_nil]
    rfl
  have hplans : use.runtimePlans ctx uses =
      [planOf ctx (secretUses uses ++ [secret]) secret.2.key].filter (·.forRuntime) := by
    rw [Use.runtimePlans, hsome]
  refine ⟨?_, ?_, ?_, nodup_afterSecret run _ _ hnodup, fun n => ?_, ?_⟩
  · rw [hsecrets]
    exact ⟨rfl, rfl, rfl⟩
  · rw [flatMap_append, flatMap_singleton, henvEntries, append_nil]
    exact h.envEntries
  · rw [flatMap_append, flatMap_singleton, h.runtimeAssignments]
  · refine (lookup_afterSecret run _ _ n).trans ?_
    rw [envWrites_append, valueAfter_append, envOps, valueAfter_append, ← h.env, ← henv, hplans]
  · refine (secretItems_mountSecret _ _).trans ?_
    rw [runtimeMounts_append, map_append, foldl_append, ← h.items, hplans]

/-- **A step.** One more use of the service. -/
theorem Tracks.step (h : Tracks ctx run rawService uses st) (hfresh : Fresh ctx run) (use : Use) :
    Tracks ctx run rawService (uses ++ [use]) (use.apply ctx st) := by
  have hkeep := h.secrets
  cases use with
  | plain target name entry =>
    cases target with
    | runtime =>
      refine h.step_plain rfl ⟨hkeep.1, hkeep.2, hkeep.3⟩ rfl rfl rfl (nodup_setProp h.nodupEnv _ _)
        fun n => ?_
      rw [Use.ownOps, valueAfter_cons]
      simp only [eq_comm (b := n)]
      exact lookup_setProp st.runtimeEnv name _ n
    | build =>
      exact h.step_plain rfl ⟨hkeep.1, hkeep.2, hkeep.3⟩ rfl rfl (append_nil _).symm h.nodupEnv
        fun n => rfl
  | unreferenced entry =>
    exact h.step_plain rfl ⟨hkeep.1, hkeep.2, hkeep.3⟩ rfl (append_nil _).symm
      (append_nil _).symm h.nodupEnv fun n => rfl
  | secretRef target name entry =>
    cases target with
    | runtime =>
      have hstep := h.step_secret (.secretRef .runtime name entry) rfl rfl
        (deleteProp st.runtimeEnv name) st.buildArgs (nodup_deleteProp h.nodupEnv name) fun n => by
          rw [Use.ownOps, valueAfter_cons]
          simp only [eq_comm (b := n)]
          exact lookup_deleteProp st.runtimeEnv name n
      have hown : SecretsTracked ctx run (secretUses uses) (recordSecretAssignment
          { st with runtimeEnv := deleteProp st.runtimeEnv name } name entry) :=
        ⟨hkeep.1, hkeep.2, hkeep.3⟩
      rw [Use.apply, applySecretRefValue,
        applySecretAssignment_eq hown hfresh (name, inLane .runtime entry)]
      exact hstep
    | build =>
      have hstep := h.step_secret (.secretRef .build name entry) rfl rfl st.runtimeEnv
        (deleteProp st.buildArgs name) h.nodupEnv fun n => rfl
      rw [Use.records, append_nil] at hstep
      have hown : SecretsTracked ctx run (secretUses uses)
          { st with buildArgs := deleteProp st.buildArgs name } := ⟨hkeep.1, hkeep.2, hkeep.3⟩
      rw [Use.apply, applySecretRefValue,
        applySecretAssignment_eq hown hfresh (name, inLane .build entry)]
      exact hstep
  | attached entry =>
    have hstep := h.step_secret (.attached entry) rfl rfl st.runtimeEnv st.buildArgs h.nodupEnv
      fun n => rfl
    have heq : applySecretAssignment ctx st entry entry.key =
        afterSecret ctx run (secretUses uses) (entry.key, entry) st :=
      applySecretAssignment_eq hkeep hfresh (entry.key, entry)
    rw [Use.apply, heq]
    cases hflag : entry.forRuntime with
    | true =>
      rw [Use.records, hflag, if_pos rfl] at hstep
      exact hstep
    | false =>
      rw [Use.records, hflag, if_neg Bool.false_ne_true, append_nil] at hstep
      exact hstep

theorem Tracks.steps (h : Tracks ctx run rawService uses st) (hfresh : Fresh ctx run)
    (more : List Use) : Tracks ctx run rawService (uses ++ more) (more.foldl (Use.apply ctx) st) := by
  induction more generalizing uses st with
  | nil => rwa [append_nil]
  | cons use more ih =>
    have hrest := ih (h.step hfresh use)
    rwa [append_assoc] at hrest

end

/-! ## The maps of a service -/

theorem nodup_readStringEnvMap (value : Option Json) :
    ((readStringEnvMap value).map Prod.fst).Nodup := by
  unfold readStringEnvMap
  split
  · refine List.foldlRecOn (motive := fun out : StringMap => (out.map Prod.fst).Nodup) _ _
      nodup_nil fun out hout item _ => ?_
    split
    · exact nodup_setProp hout _ _
    · exact hout
  · refine List.foldlRecOn (motive := fun out : StringMap => (out.map Prod.fst).Nodup) _ _
      nodup_nil fun out hout item _ => ?_
    split
    · exact nodup_setProp hout _ _
    · exact hout
  · exact nodup_nil

theorem readStringEnvMap_stringMapJson (env : StringMap) :
    readStringEnvMap (some (stringMapJson env)) = assignInto [] env := by
  rw [stringMapJson, readStringEnvMap, foldl_map]
  rfl

variable {key : String}

theorem lookup_writeBuildArgs (args : StringMap) (h : key ≠ "build") :
    (writeBuildArgs service args).lookup key = service.lookup key := by
  have hbuild : ∀ build : Fields, (if build.length = 0 then deleteProp service "build"
      else setProp service "build" (.obj build)).lookup key = service.lookup key := by
    intro build
    split
    · rw [lookup_deleteProp, if_neg h]
    · rw [lookup_setProp, if_neg h]
  rw [writeBuildArgs]
  split
  · rfl
  · exact hbuild _

theorem lookup_environment_writeMaps (st : ApplyState) :
    st.writeMaps.service.lookup "environment" =
      if st.runtimeEnv.length = 0 then none else some (stringMapJson st.runtimeEnv) := by
  rw [ApplyState.writeMaps, lookup_writeBuildArgs _ _ (by decide), writeStringEnvMap]
  split
  · rw [lookup_deleteProp, if_pos rfl]
  · rw [lookup_setProp, if_pos rfl]

/-- The value of a variable in the environment of a service. -/
def environmentValue (service : Fields) (name : String) : Option Json :=
  ((service.lookup "environment").bind Json.fields?).bind (·.lookup name)

theorem environmentValue_writeMaps (st : ApplyState) (name : String) :
    environmentValue st.writeMaps.service name = (st.runtimeEnv.lookup name).map .str := by
  rw [environmentValue, lookup_environment_writeMaps]
  split
  · rename_i h
    rw [length_eq_zero_iff.1 h]
    rfl
  · change (st.runtimeEnv.map fun e => (e.1, Json.str e.2)).lookup name = _
    induction st.runtimeEnv with
    | nil => rfl
    | cons e rest ih =>
      rw [map_cons, lookup_cons_if, lookup_cons_if, ih]
      split
      · rfl
      · rfl

theorem lookup_readMaps_writeMaps (h : (st.runtimeEnv.map Prod.fst).Nodup)
    (name : String) : st.writeMaps.readMaps.runtimeEnv.lookup name = st.runtimeEnv.lookup name := by
  rw [ApplyState.readMaps, lookup_environment_writeMaps]
  split
  · rename_i hempty
    rw [length_eq_zero_iff.1 hempty]
    rfl
  · rw [readStringEnvMap_stringMapJson, lookup_assignInto _ h, lookup_nil, or_none]

theorem Tracks.remap {rawService : Fields} {uses : List Use} (h : Tracks ctx run rawService uses st) :
    Tracks ctx run rawService uses st.writeMaps.readMaps where
  secrets := ⟨h.secrets.1, h.secrets.2, h.secrets.3⟩
  envEntries := h.envEntries
  runtimeAssignments := h.runtimeAssignments
  nodupEnv := nodup_readStringEnvMap _
  env n := (lookup_readMaps_writeMaps h.nodupEnv n).trans (h.env n)
  items := (secretItems_writeMaps st).trans h.items

/-! ## A service -/

theorem Tracks.start (rawService : Fields) :
    Tracks ctx run rawService [] (run.start rawService).readMaps where
  secrets := ⟨rfl, (append_nil _).symm, (append_nil _).symm⟩
  envEntries := (append_nil _).symm
  runtimeAssignments := rfl
  nodupEnv := nodup_readStringEnvMap _
  env _ := rfl
  items := rfl

theorem buildArgs_foldl_runtime (values : StringMap) (st : ApplyState) :
    ((values.filterMap (refUse ctx .runtime)).foldl (Use.apply ctx) st).buildArgs = st.buildArgs := by
  have hsecret : ∀ (st : ApplyState) (entry : DeployVariableEntry) (name : String),
      (applySecretAssignment ctx st entry name).buildArgs = st.buildArgs := by
    intro st entry name
    rw [applySecretAssignment]
    split
    · rfl
    · rfl
  refine List.foldlRecOn (motive := fun st' : ApplyState => st'.buildArgs = st.buildArgs) _ _ rfl
    fun st' hst' use huse => ?_
  obtain ⟨value, -, huse⟩ := mem_filterMap.1 huse
  rw [refUse] at huse
  split at huse
  · obtain ⟨entry, -, rfl⟩ := map_eq_some_iff.1 huse
    split
    · exact (hsecret _ _ _).trans hst'
    · exact hst'
  · cases huse

/-- The entries of a service have distinct keys. -/
def DistinctKeys : Prop := ((ctx.inherited.entries.map Prod.snd).map (·.key)).Nodup

variable {planned : List String}

theorem shouldAutoAttachSecret_congr {planned' : List String}
    (h : planned.contains entry.key = planned'.contains entry.key) :
    shouldAutoAttachSecret ctx planned entry = shouldAutoAttachSecret ctx planned' entry := by
  rw [shouldAutoAttachSecret, shouldAutoAttachSecret, h]

theorem injectEntry_eq (h : st.plannedKeys.contains entry.key = planned.contains entry.key) :
    injectEntry ctx st entry = (injectUses ctx planned entry).foldl (Use.apply ctx) st := by
  rw [injectEntry, injectUses]
  split
  · rw [attachUnreferencedSecret, shouldAutoAttachSecret_congr ctx h, h]
    split
    · rfl
    · split
      · rfl
      · rfl
  · cases entry.forRuntime <;> cases entry.forBuild <;> rfl

theorem mem_plannedKeys_applySecretAssignment (st : ApplyState) (name : String) (h : key ≠ entry.key) :
    key ∈ (applySecretAssignment ctx st entry name).plannedKeys ↔ key ∈ st.plannedKeys := by
  rw [applySecretAssignment]
  split
  · exact Iff.rfl
  · change key ∈ setAdd st.plannedKeys entry.key ↔ _
    rw [mem_setAdd, or_iff_left h]

theorem mem_plannedKeys_injectEntry (h : key ≠ entry.key) :
    key ∈ (injectEntry ctx st entry).plannedKeys ↔ key ∈ st.plannedKeys := by
  rw [injectEntry]
  split
  · rw [attachUnreferencedSecret]
    split
    · have hattach := mem_plannedKeys_applySecretAssignment ctx st entry.key h
      cases entry.forRuntime with
      | true => exact hattach
      | false => exact hattach
    · split
      · rfl
      · rfl
  · cases entry.forRuntime <;> cases entry.forBuild <;> rfl

theorem foldl_injectEntry_eq {entries : List DeployVariableEntry}
    (hnodup : (entries.map (·.key)).Nodup)
    (h : ∀ entry ∈ entries, entry.key ∈ st.plannedKeys ↔ entry.key ∈ planned) :
    entries.foldl (injectEntry ctx) st =
      (entries.flatMap (injectUses ctx planned)).foldl (Use.apply ctx) st := by
  induction entries generalizing st with
  | nil => rfl
  | cons entry entries ih =>
    obtain ⟨hnot, hnodup⟩ := nodup_cons.1 hnodup
    have hentry : st.plannedKeys.contains entry.key = planned.contains entry.key := by
      rw [Bool.eq_iff_iff, contains_iff_mem, contains_iff_mem]
      exact h entry mem_cons_self
    rw [foldl_cons, flatMap_cons, foldl_append, ← injectEntry_eq ctx hentry]
    refine ih hnodup fun entry' hmem => ?_
    have hne : entry'.key ≠ entry.key := fun heq => hnot (mem_map.2 ⟨entry', hmem, heq⟩)
    rw [mem_plannedKeys_injectEntry ctx hne]
    exact h entry' (mem_cons_of_mem entry hmem)

/-- **A service.** When the uses of a service succeed, its state is what its uses make of the input.
-/
theorem applyEntriesToService_eq_ok (hkeys : DistinctKeys ctx) (hfresh : Fresh ctx run) {rawService : Fields}
    (h : applyEntriesToService ctx (run.start rawService) = .ok st) :
    ∃ st', Tracks ctx run rawService (serviceUses ctx rawService) st' ∧ st = st'.writeMaps := by
  rw [applyEntriesToService, bind_eq_ok] at h
  obtain ⟨st₁, hruntime, h⟩ := h
  obtain ⟨st₂, hbuild, h⟩ := bind_eq_ok.1 h
  obtain rfl : autoInjectEntries ctx st₂.writeMaps = st := Except.ok.inj h
  have hst₁ := scanMapForRefs_eq_ok ctx hruntime
  have hargs : st₁.buildArgs = readBuildArgs rawService := by
    rw [hst₁]
    exact buildArgs_foldl_runtime ctx _ _
  have hst₂ := scanMapForRefs_eq_ok ctx hbuild
  have htracks₁ := (Tracks.start ctx rawService).steps hfresh
    ((readStringEnvMap (rawService.lookup "environment")).filterMap (refUse ctx .runtime))
  have htracks₂ := htracks₁.steps hfresh ((readBuildArgs rawService).filterMap (refUse ctx .build))
  have hrefs : Tracks ctx run rawService (refUses ctx rawService) st₂ := by
    rw [hst₂, hargs, hst₁]
    exact htracks₂
  refine ⟨_, (hrefs.remap ctx).steps hfresh _, ?_⟩
  rw [autoInjectEntries]
  refine congrArg ApplyState.writeMaps (foldl_injectEntry_eq ctx hkeys fun entry _ => ?_)
  rw [(hrefs.remap ctx).secrets.plannedKeys]

end TurboPanel.Compose
