import TurboPanel.Compose.ApplyVariables
import TurboPanel.Data.Traversal

/-!
# The values of the secrets stay in the material

Two runs of `applyVariablesToComposeDocument` whose parameters differ only in the values of secrets
fail with the same error, or give results that differ only in the envelopes of the material
(`secret_values_noninterference`).

`erase` forgets the values of the secrets in the parameters and the envelopes in the material. A run
on the erased parameters is the erased run (`applyRun_erase`): this holds for each function of the
model, because a value is read only after `isSecret` was found false, and an envelope is not read at
all.
-/

namespace TurboPanel.Compose

open Js List

/-! ## Erasure -/

/-- The entry, without the value of a secret. -/
def DeployVariableEntry.erase (entry : DeployVariableEntry) : DeployVariableEntry :=
  { entry with value := if entry.isSecret then "" else entry.value }

def DeployVariableMaterial.erase (row : DeployVariableMaterial) : DeployVariableMaterial :=
  { row with valueEnvelope := "" }

/-- The parameters, without the values of the secrets. -/
def ApplyVariablesParams.erase (params : ApplyVariablesParams) : ApplyVariablesParams :=
  { params with
    globalEntries := params.globalEntries.map DeployVariableEntry.erase
    perServiceEntries := params.perServiceEntries.mapValues (List.map DeployVariableEntry.erase)
    perServiceScopes := params.perServiceScopes.map
      (Map.mapValues (Map.mapValues (Map.mapValues DeployVariableEntry.erase))) }

def ServiceContext.erase (ctx : ServiceContext) : ServiceContext :=
  { ctx with
    inherited := ctx.inherited.mapValues DeployVariableEntry.erase
    scopes := ctx.scopes.map (Map.mapValues (Map.mapValues DeployVariableEntry.erase)) }

def ApplyState.erase (st : ApplyState) : ApplyState :=
  { st with secretMaterial := st.secretMaterial.map DeployVariableMaterial.erase }

def ApplyRun.erase (run : ApplyRun) : ApplyRun :=
  { run with secretMaterial := run.secretMaterial.map DeployVariableMaterial.erase }

def ApplyVariablesResult.erase (result : ApplyVariablesResult) : ApplyVariablesResult :=
  { result with secretMaterial := result.secretMaterial.map DeployVariableMaterial.erase }

theorem DeployVariableEntry.erase_of_plain {entry : DeployVariableEntry}
    (h : entry.isSecret = false) : entry.erase = entry := by
  cases entry
  subst h
  rfl

theorem secretMaterialFrom_erase {entry : DeployVariableEntry} (h : entry.isSecret = true)
    (composeServiceName : String) : secretMaterialFrom entry.erase composeServiceName =
      (secretMaterialFrom entry composeServiceName).erase := by
  cases entry
  subst h
  rfl

/-! ## What a service reads -/

theorem entriesToMap_erase (entries : List DeployVariableEntry) :
    entriesToMap (entries.map DeployVariableEntry.erase) =
      (entriesToMap entries).mapValues DeployVariableEntry.erase := by
  rw [entriesToMap, entriesToMap, Map.mapValues_ofEntries, map_map, map_map]
  rfl

theorem lookupVariable_erase (ref : ParsedVariableRef) (ctx : ServiceContext) :
    lookupVariable ref ctx.erase.inherited ctx.erase.scopes =
      (lookupVariable ref ctx.inherited ctx.scopes).map DeployVariableEntry.erase := by
  rw [lookupVariable, lookupVariable]
  split
  · rename_i scope _
    cases hscopes : ctx.scopes with
    | none => simp [ServiceContext.erase, hscopes]
    | some scopes =>
      simp only [ServiceContext.erase, hscopes, Option.map_some, Option.bind_some,
        Map.get?_mapValues]
      cases scopes.get? scope with
      | none => rfl
      | some entries => exact Map.get?_mapValues _ _ _
  · rfl
  · exact Map.get?_mapValues _ _ _

theorem secretKeysOf_erase (entries : Map String DeployVariableEntry) :
    secretKeysOf (entries.mapValues DeployVariableEntry.erase) = secretKeysOf entries := by
  rw [secretKeysOf, secretKeysOf, Map.mapValues, map_map]
  change (((entries.entries.map (DeployVariableEntry.erase ∘ Prod.snd)).filter (·.isSecret)).map
    (·.key)) = _
  rw [← map_map, filter_map, map_map]
  rfl

theorem collectSecretKeys_erase (inherited : Map String DeployVariableEntry)
    (scopes : Option VariableScopeEntryMap) :
    collectSecretKeys (inherited.mapValues DeployVariableEntry.erase)
      (scopes.map (Map.mapValues (Map.mapValues DeployVariableEntry.erase))) =
    collectSecretKeys inherited scopes := by
  simp only [collectSecretKeys, secretKeysOf_erase]
  cases scopes with
  | none => rfl
  | some scopes =>
    simp only [Option.map_some, Map.mapValues, flatMap_map, Prod.map_snd]
    congr 3
    funext e
    exact secretKeysOf_erase e.2

theorem serviceContext_erase (params : ApplyVariablesParams) (composeServiceName : String) :
    serviceContext params.erase composeServiceName =
      (serviceContext params composeServiceName).erase := by
  have hentries : params.erase.globalEntries ++
      (params.erase.perServiceEntries.get? composeServiceName).getD [] =
      (params.globalEntries ++
        (params.perServiceEntries.get? composeServiceName).getD []).map
          DeployVariableEntry.erase := by
    rw [map_append, ApplyVariablesParams.erase, Map.get?_mapValues]
    cases params.perServiceEntries.get? composeServiceName with
    | none => rfl
    | some entries => rfl
  have hscopes : params.erase.perServiceScopes.bind (·.get? composeServiceName) =
      (params.perServiceScopes.bind (·.get? composeServiceName)).map
        (Map.mapValues (Map.mapValues DeployVariableEntry.erase)) := by
    rw [ApplyVariablesParams.erase]
    cases params.perServiceScopes with
    | none => rfl
    | some scopes => exact Map.get?_mapValues _ _ _
  rw [serviceContext, hentries, hscopes, entriesToMap_erase, collectSecretKeys_erase]
  rfl

/-! ## A service -/

variable (ctx : ServiceContext) (st : ApplyState) (entry : DeployVariableEntry)

theorem applyNonSecretAssignment_erase (envKey : String) (target : Lane) :
    applyNonSecretAssignment ctx.erase st.erase envKey entry target =
      (applyNonSecretAssignment ctx st envKey entry target).erase := by
  cases target <;> rfl

theorem planSecret_erase (h : entry.isSecret = true) (envKey : String) :
    planSecret ctx.erase st.erase entry.erase envKey = (planSecret ctx st entry envKey).erase := by
  have hrows : st.secretMaterial.map DeployVariableMaterial.erase ++
      [secretMaterialFrom entry.erase ctx.composeServiceName] =
      (st.secretMaterial ++ [secretMaterialFrom entry ctx.composeServiceName]).map
        DeployVariableMaterial.erase := by
    rw [secretMaterialFrom_erase h, map_append, map_singleton]
  exact congrArg (fun rows => { planSecret ctx st entry envKey with secretMaterial := rows }) hrows

theorem reuseSecret_erase (existing : DeploySecretPlanEntry) :
    reuseSecret ctx.erase st.erase entry.erase existing =
      (reuseSecret ctx st entry existing).erase := by
  have hrows : modifyFirst (isMaterialOf ctx entry.key) (copyFlags (widenPlan entry existing))
      (st.secretMaterial.map DeployVariableMaterial.erase) =
      (modifyFirst (isMaterialOf ctx entry.key) (copyFlags (widenPlan entry existing))
        st.secretMaterial).map DeployVariableMaterial.erase :=
    map_modifyFirst (p := isMaterialOf ctx entry.key) (f := copyFlags (widenPlan entry existing))
      (fun row => (rfl : isMaterialOf ctx entry.key row.erase = _))
      (fun row => (rfl : copyFlags _ row.erase = _)) st.secretMaterial
  exact congrArg (fun rows => { reuseSecret ctx st entry existing with secretMaterial := rows }) hrows

theorem applySecretAssignment_erase (h : entry.isSecret = true) (envKey : String) :
    applySecretAssignment ctx.erase st.erase entry.erase envKey =
      (applySecretAssignment ctx st entry envKey).erase := by
  have hfind : findPlannedSecret ctx.erase st.erase entry.erase.key =
      findPlannedSecret ctx st entry.key := rfl
  rw [applySecretAssignment, applySecretAssignment, hfind]
  cases findPlannedSecret ctx st entry.key with
  | none => exact planSecret_erase ctx st entry h envKey
  | some existing => exact reuseSecret_erase ctx st entry existing

theorem applySecretRefValue_erase (h : entry.isSecret = true) (envKey : String) (target : Lane) :
    applySecretRefValue ctx.erase st.erase envKey entry.erase target =
      (applySecretRefValue ctx st envKey entry target).erase := by
  cases target with
  | runtime =>
    exact applySecretAssignment_erase ctx (recordSecretAssignment
      { st with runtimeEnv := deleteProp st.runtimeEnv envKey } envKey entry)
      (inLane .runtime entry) h envKey
  | build =>
    exact applySecretAssignment_erase ctx { st with buildArgs := deleteProp st.buildArgs envKey }
      (inLane .build entry) h envKey

theorem applyRefValue_erase (target : Lane) (value : String × String) :
    applyRefValue ctx.erase target st.erase value =
      (applyRefValue ctx target st value).map ApplyState.erase := by
  have herror : secretInterpolationError ctx.erase value.1 value.2 =
      secretInterpolationError ctx value.1 value.2 := rfl
  rw [applyRefValue, applyRefValue]
  cases parseExactVariableRef value.2 with
  | notARef =>
    simp only [herror]
    cases secretInterpolationError ctx value.1 value.2 with
    | none => rfl
    | some error => rfl
  | invalid message => rfl
  | ok ref =>
    simp only [lookupVariable_erase]
    cases lookupVariable ref ctx.inherited ctx.scopes with
    | none => rfl
    | some entry =>
      have hkeep : entry.erase.isSecret = entry.isSecret := rfl
      simp only [Option.map_some, hkeep]
      cases h : entry.isSecret with
      | true =>
        rw [if_pos rfl, if_pos rfl, applySecretRefValue_erase ctx st entry h, Except.map]
      | false =>
        rw [if_neg Bool.false_ne_true, if_neg Bool.false_ne_true, entry.erase_of_plain h,
          applyNonSecretAssignment_erase, Except.map]

theorem scanMapForRefs_erase (values : StringMap) (target : Lane) :
    scanMapForRefs ctx.erase st.erase values target =
      (scanMapForRefs ctx st values target).map ApplyState.erase :=
  foldlM_map_comm ApplyState.erase (fun st => applyRefValue_erase ctx st target) values st

theorem attachUnreferencedSecret_erase (h : entry.isSecret = true) :
    attachUnreferencedSecret ctx.erase st.erase entry.erase =
      (attachUnreferencedSecret ctx st entry).erase := by
  have hattach : shouldAutoAttachSecret ctx.erase st.erase.plannedKeys entry.erase =
      shouldAutoAttachSecret ctx st.plannedKeys entry := rfl
  have hflag : entry.erase.forRuntime = entry.forRuntime := rfl
  have hnative : (ctx.erase.nativeApp && entry.forRuntime &&
      !st.erase.plannedKeys.contains entry.erase.key) =
      (ctx.nativeApp && entry.forRuntime && !st.plannedKeys.contains entry.key) := rfl
  rw [attachUnreferencedSecret, attachUnreferencedSecret, hattach, hflag, hnative,
    applySecretAssignment_erase ctx st entry h]
  split
  · split
    · rfl
    · rfl
  · split
    · rfl
    · rfl

theorem injectEntry_erase :
    injectEntry ctx.erase st.erase entry.erase = (injectEntry ctx st entry).erase := by
  have hkeep : entry.erase.isSecret = entry.isSecret := rfl
  rw [injectEntry, injectEntry, hkeep]
  cases h : entry.isSecret with
  | true =>
    rw [if_pos rfl, if_pos rfl, attachUnreferencedSecret_erase ctx st entry h]
  | false =>
    rw [if_neg Bool.false_ne_true, if_neg Bool.false_ne_true, entry.erase_of_plain h]
    cases entry.forRuntime <;> cases entry.forBuild <;> rfl

theorem autoInjectEntries_erase :
    autoInjectEntries ctx.erase st.erase = (autoInjectEntries ctx st).erase := by
  have hvalues : ctx.erase.inherited.entries.map Prod.snd =
      (ctx.inherited.entries.map Prod.snd).map DeployVariableEntry.erase := by
    rw [map_map]
    exact map_map
  have hloop : ((ctx.inherited.entries.map Prod.snd).map DeployVariableEntry.erase).foldl
      (injectEntry ctx.erase) st.readMaps.erase =
      ((ctx.inherited.entries.map Prod.snd).foldl (injectEntry ctx) st.readMaps).erase := by
    rw [foldl_map]
    exact foldl_hom ApplyState.erase fun st entry => injectEntry_erase ctx st entry
  rw [autoInjectEntries, autoInjectEntries, hvalues]
  exact congrArg ApplyState.writeMaps hloop

theorem applyEntriesToService_erase :
    applyEntriesToService ctx.erase st.erase = (applyEntriesToService ctx st).map ApplyState.erase := by
  have hruntime := scanMapForRefs_erase ctx st.readMaps st.readMaps.runtimeEnv .runtime
  refine (congrArg (· >>= _) hruntime).trans (map_bind_comm (fun st => ?_) _)
  refine (congrArg (· >>= _) (scanMapForRefs_erase ctx st st.buildArgs .build)).trans
    (map_bind_comm (fun st => ?_) _)
  exact congrArg Except.ok (autoInjectEntries_erase ctx st.writeMaps)

/-! ## A document -/

theorem applyService_erase (params : ApplyVariablesParams) (run : ApplyRun)
    (composeServiceName : String) : applyService params.erase run.erase composeServiceName =
      (applyService params run composeServiceName).map ApplyRun.erase := by
  have hservices : run.erase.services = run.services := rfl
  rw [applyService, applyService, hservices]
  cases (run.services.lookup composeServiceName).bind Json.fields? with
  | none => rfl
  | some rawService =>
    rw [serviceContext_erase]
    refine (congrArg (· >>= _) (applyEntriesToService_erase _ (run.start rawService))).trans
      (map_bind_comm (fun st => ?_) _)
    rfl

theorem applyRun_erase (c : Collation) (document : ComposeDocument)
    (params : ApplyVariablesParams) :
    applyRun c document params.erase = (applyRun c document params).map ApplyRun.erase :=
  foldlM_map_comm ApplyRun.erase (applyService_erase params) _ (ApplyRun.initial document)

theorem applyVariablesToComposeDocument_erase (c : Collation) (document : ComposeDocument)
    (params : ApplyVariablesParams) :
    applyVariablesToComposeDocument c document params.erase =
      (applyVariablesToComposeDocument c document params).map ApplyVariablesResult.erase := by
  rw [applyVariablesToComposeDocument, applyVariablesToComposeDocument, applyRun_erase]
  refine map_bind_comm (fun run => ?_) _
  rfl

/-- The two results differ at most in the envelopes of the material. -/
structure SameButEnvelopes (r₁ r₂ : ApplyVariablesResult) : Prop where
  document : r₁.document = r₂.document
  envFileContent : r₁.envFileContent = r₂.envFileContent
  secretPlan : r₁.secretPlan = r₂.secretPlan
  runtimeAssignments : r₁.runtimeAssignments = r₂.runtimeAssignments
  buildAssignments : r₁.buildAssignments = r₂.buildAssignments
  unreferencedSecrets : r₁.unreferencedSecrets = r₂.unreferencedSecrets
  secretMaterial : r₁.secretMaterial.map DeployVariableMaterial.erase =
    r₂.secretMaterial.map DeployVariableMaterial.erase

/-- **Secrets do not interfere.** Two runs whose parameters differ only in the values of secrets
fail with the same error, or their results differ only in the envelopes of the material. -/
theorem secret_values_noninterference (c : Collation) (document : ComposeDocument)
    {params₁ params₂ : ApplyVariablesParams} (h : params₁.erase = params₂.erase) :
    (∃ error, applyVariablesToComposeDocument c document params₁ = .error error ∧
      applyVariablesToComposeDocument c document params₂ = .error error) ∨
    ∃ r₁ r₂, applyVariablesToComposeDocument c document params₁ = .ok r₁ ∧
      applyVariablesToComposeDocument c document params₂ = .ok r₂ ∧ SameButEnvelopes r₁ r₂ := by
  have hrun := applyVariablesToComposeDocument_erase c document params₁
  rw [h, applyVariablesToComposeDocument_erase] at hrun
  cases h₁ : applyVariablesToComposeDocument c document params₁ with
  | error e₁ =>
    cases h₂ : applyVariablesToComposeDocument c document params₂ with
    | error e₂ =>
      rw [h₁, h₂] at hrun
      exact .inl ⟨e₁, rfl, congrArg Except.error (Except.error.inj hrun)⟩
    | ok r₂ =>
      rw [h₁, h₂] at hrun
      cases hrun
  | ok r₁ =>
    cases h₂ : applyVariablesToComposeDocument c document params₂ with
    | error e₂ =>
      rw [h₁, h₂] at hrun
      cases hrun
    | ok r₂ =>
      rw [h₁, h₂] at hrun
      have heq : r₂.erase = r₁.erase := Except.ok.inj hrun
      refine .inr ⟨r₁, r₂, rfl, rfl, ?_⟩
      exact
        { document := (congrArg ApplyVariablesResult.document heq).symm
          envFileContent := (congrArg ApplyVariablesResult.envFileContent heq).symm
          secretPlan := (congrArg ApplyVariablesResult.secretPlan heq).symm
          runtimeAssignments := (congrArg ApplyVariablesResult.runtimeAssignments heq).symm
          buildAssignments := (congrArg ApplyVariablesResult.buildAssignments heq).symm
          unreferencedSecrets := (congrArg ApplyVariablesResult.unreferencedSecrets heq).symm
          secretMaterial := (congrArg ApplyVariablesResult.secretMaterial heq).symm }

/-- A service whose variable `PASSWORD` refers to a secret. -/
def passwordDocument : ComposeDocument :=
  plainDocument [("services", .obj [("api", .obj
    [("environment", .obj [("PASSWORD", .str "\x7b$SECRET\x7d")])])])]

def passwordParams (value : String) : ApplyVariablesParams where
  globalEntries := [⟨"SECRET", value, true, false, false, true, none, none⟩]
  perServiceEntries := Map.empty
  perServiceScopes := none
  nativeServiceNames := none
  projectId := none
  environmentId := none
  runDir := none

theorem secret_values_noninterference_password :
    (passwordParams "a").erase = (passwordParams "b").erase ∧
    ((∃ error, applyVariablesToComposeDocument .codePoint passwordDocument (passwordParams "a") =
        .error error ∧
      applyVariablesToComposeDocument .codePoint passwordDocument (passwordParams "b") =
        .error error) ∨
    ∃ r₁ r₂, applyVariablesToComposeDocument .codePoint passwordDocument (passwordParams "a") =
        .ok r₁ ∧
      applyVariablesToComposeDocument .codePoint passwordDocument (passwordParams "b") = .ok r₂ ∧
      SameButEnvelopes r₁ r₂) :=
  ⟨rfl, secret_values_noninterference .codePoint passwordDocument rfl⟩

example : (applyVariablesToComposeDocument .codePoint passwordDocument (passwordParams "a")).map
    (fun r => r.secretMaterial.map (·.valueEnvelope)) = .ok ["a"] := rfl

end TurboPanel.Compose
