import TurboPanel.Compose.VariableUses

/-!
# A run over the services of a document

The uses of a service depend on the input alone, and no service touches the rows or the output of
another one. So the result of a run is put together from the uses of the services
(`applyRun_tracks`). The names of the services are distinct, as the keys of an object are.
-/

namespace TurboPanel.Compose

open Js List

/-! ## Input and output of a service -/

/-- The service in the input, when it is a mapping. -/
def rawService? (document : ComposeDocument) (composeServiceName : String) : Option Fields :=
  ((recordProp document.data "services").lookup composeServiceName).bind Json.fields?

/-- The uses of a service of the document. -/
def usesIn (document : ComposeDocument) (params : ApplyVariablesParams) (composeServiceName : String) :
    List Use :=
  match rawService? document composeServiceName with
  | none => []
  | some rawService => serviceUses (serviceContext params composeServiceName) rawService

/-- The environment of a service in the input. -/
def inputEnvironment (document : ComposeDocument) (composeServiceName : String) : StringMap :=
  readStringEnvMap (((rawService? document composeServiceName).getD []).lookup "environment")

/-- The service in the output; what is not a mapping has no properties. -/
def ApplyRun.outputService (run : ApplyRun) (composeServiceName : String) : Fields :=
  ((run.services.lookup composeServiceName).bind Json.fields?).getD []

/-- The entries for the `.env` file. -/
def envEntriesIn (document : ComposeDocument) (params : ApplyVariablesParams)
    (composeServiceName : String) : List EnvFileEntry :=
  (usesIn document params composeServiceName).flatMap
    (Use.envEntries (serviceContext params composeServiceName))

def secretsIn (document : ComposeDocument) (params : ApplyVariablesParams)
    (composeServiceName : String) : List SecretUse :=
  secretUses (usesIn document params composeServiceName)

def plansIn (document : ComposeDocument) (params : ApplyVariablesParams)
    (composeServiceName : String) : List DeploySecretPlanEntry :=
  (usedKeys (secretsIn document params composeServiceName)).map
    (planOf (serviceContext params composeServiceName) (secretsIn document params composeServiceName))

def materialIn (document : ComposeDocument) (params : ApplyVariablesParams)
    (composeServiceName : String) : List DeployVariableMaterial :=
  (usedKeys (secretsIn document params composeServiceName)).map
    (materialOf (serviceContext params composeServiceName)
      (secretsIn document params composeServiceName))

/-! ## Runs -/

variable (document : ComposeDocument) (params : ApplyVariablesParams)

/-- What one service leaves in the output. -/
structure ServiceTracked (run : ApplyRun) (s : String) : Prop where
  environment : ∀ n, environmentValue (run.outputService s) n =
    (valueAfter ((inputEnvironment document s).lookup n)
      (envWrites (serviceContext params s) (usesIn document params s)) n).map .str
  items : secretItems (run.outputService s) =
    ((runtimeMounts (serviceContext params s) (usesIn document params s)).map secretItem).foldl
      (TurboPanel.appendNew sourceOf) (secretItems ((rawService? document s).getD []))
  runtimeAssignments : (run.runtimeAssignments.get? s).getD [] =
    (usesIn document params s).flatMap Use.records

/-- A run after the services `names`. -/
structure RunTracks (names : List String) (run : ApplyRun) : Prop where
  pending : ∀ s ∉ names, run.services.lookup s = (recordProp document.data "services").lookup s ∧
    run.runtimeAssignments.get? s = none
  service : ∀ s ∈ names, ServiceTracked document params run s
  envEntries : run.envEntries = names.flatMap (envEntriesIn document params)
  secretPlan : run.secretPlan = names.flatMap (plansIn document params)
  secretMaterial : run.secretMaterial = names.flatMap (materialIn document params)

theorem key_of_get?_entriesToMap {entries : List DeployVariableEntry} {key : String}
    {entry : DeployVariableEntry} (h : (entriesToMap entries).get? key = some entry) :
    entry.key = key := by
  induction entries using List.reverseRecOn with
  | nil => cases h
  | append_singleton entries last ih =>
    rw [entriesToMap, map_append, Map.ofEntries, foldl_append, map_singleton,
      foldl_cons, foldl_nil, Map.get?_set] at h
    split at h
    · rename_i heq
      rw [← Option.some.inj h, heq]
    · exact ih h

theorem distinctKeys_serviceContext (s : String) : DistinctKeys (serviceContext params s) := by
  have hkeys : ((serviceContext params s).inherited.entries.map Prod.snd).map (·.key) =
      (serviceContext params s).inherited.entries.map Prod.fst := by
    rw [map_map]
    exact map_congr_left fun e he => key_of_get?_entriesToMap (Map.get?_eq_some_iff.2 he)
  rw [DistinctKeys, hkeys]
  exact (serviceContext params s).inherited.nodup

section

variable {document params} {names : List String} {run : ApplyRun} {s : String}

theorem RunTracks.fresh (h : RunTracks document params names run) (hs : s ∉ names) :
    Fresh (serviceContext params s) run := by
  refine ⟨fun plan hplan => ?_, fun row hrow => ?_⟩
  · rw [h.secretPlan, mem_flatMap] at hplan
    obtain ⟨s', hs', hplan⟩ := hplan
    obtain ⟨key, -, rfl⟩ := mem_map.1 hplan
    exact fun heq : s' = s => hs (heq ▸ hs')
  · rw [h.secretMaterial, mem_flatMap] at hrow
    obtain ⟨s', hs', hrow⟩ := hrow
    obtain ⟨key, -, rfl⟩ := mem_map.1 hrow
    exact fun heq : s' = s => hs (heq ▸ hs')

theorem ServiceTracked.of_not_mapping (hraw : rawService? document s = none)
    (hservice : (run.services.lookup s).bind Json.fields? = none)
    (hassign : run.runtimeAssignments.get? s = none) : ServiceTracked document params run s := by
  have huses : usesIn document params s = [] := by rw [usesIn, hraw]
  have hinput : inputEnvironment document s = [] := by rw [inputEnvironment, hraw]; rfl
  have houtput : run.outputService s = [] := by rw [ApplyRun.outputService, hservice]; rfl
  refine ⟨fun n => ?_, ?_, ?_⟩
  · rw [houtput, huses, hinput]
    rfl
  · rw [houtput, huses, hraw]
    rfl
  · rw [hassign, huses]
    rfl

theorem ServiceTracked.congr {run' : ApplyRun} (h : ServiceTracked document params run s)
    (hservice : run'.services.lookup s = run.services.lookup s)
    (hassign : run'.runtimeAssignments.get? s = run.runtimeAssignments.get? s) :
    ServiceTracked document params run' s := by
  have houtput : run'.outputService s = run.outputService s := by
    rw [ApplyRun.outputService, hservice, ← ApplyRun.outputService]
  exact ⟨houtput ▸ h.environment, houtput ▸ h.items, hassign ▸ h.runtimeAssignments⟩

theorem Tracks.service {st : ApplyState} {rawService : Fields}
    (h : Tracks (serviceContext params s) run rawService (usesIn document params s) st)
    (hraw : rawService? document s = some rawService) :
    ServiceTracked document params (run.finish s st.writeMaps) s := by
  have houtput : (run.finish s st.writeMaps).outputService s = st.writeMaps.service := by
    rw [ApplyRun.outputService]
    change (((setProp run.services s _).lookup s).bind Json.fields?).getD [] = _
    rw [lookup_setProp, if_pos rfl]
    rfl
  refine ⟨fun n => ?_, ?_, ?_⟩
  · rw [houtput, environmentValue_writeMaps, h.env, inputEnvironment, hraw, Option.getD_some]
  · rw [houtput, secretItems_writeMaps, h.items, hraw, Option.getD_some]
  · change ((run.runtimeAssignments.set s st.runtimeAssignments).get? s).getD [] = _
    rw [Map.get?_set_self, Option.getD_some, h.runtimeAssignments]

/-- **A step.** One more service. -/
theorem RunTracks.step (h : RunTracks document params names run) (hs : s ∉ names) {run' : ApplyRun}
    (hrun : applyService params run s = .ok run') :
    RunTracks document params (names ++ [s]) run' := by
  have hraw : (run.services.lookup s).bind Json.fields? = rawService? document s := by
    rw [rawService?, (h.pending s hs).1]
  rw [applyService, hraw] at hrun
  cases hcase : rawService? document s with
  | none =>
    rw [hcase] at hrun hraw
    obtain rfl : run = run' := Except.ok.inj hrun
    have huses : usesIn document params s = [] := by rw [usesIn, hcase]
    refine ⟨fun s' hs' => h.pending s' fun hmem => hs' (mem_append_left _ hmem),
      fun s' hs' => ?_, ?_, ?_, ?_⟩
    · obtain hs' | hs' := mem_append.1 hs'
      · exact h.service s' hs'
      · rw [mem_singleton.1 hs']
        exact ServiceTracked.of_not_mapping hcase hraw (h.pending s hs).2
    · rw [h.envEntries, flatMap_append, flatMap_singleton, envEntriesIn, huses,
        flatMap_nil, append_nil]
    · rw [h.secretPlan, flatMap_append, flatMap_singleton, plansIn, secretsIn, huses]
      exact (append_nil _).symm
    · rw [h.secretMaterial, flatMap_append, flatMap_singleton, materialIn, secretsIn, huses]
      exact (append_nil _).symm
  | some rawService =>
    rw [hcase] at hrun
    obtain ⟨st, hst, hrun⟩ := bind_eq_ok.1 hrun
    obtain rfl : run.finish s st = run' := Except.ok.inj hrun
    obtain ⟨st', htracks, rfl⟩ := applyEntriesToService_eq_ok _
      (distinctKeys_serviceContext params s) (h.fresh hs) hst
    have huses : serviceUses (serviceContext params s) rawService = usesIn document params s := by
      rw [usesIn, hcase]
    have hother : ∀ s' ≠ s, (run.finish s st'.writeMaps).services.lookup s' = run.services.lookup s' ∧
        (run.finish s st'.writeMaps).runtimeAssignments.get? s' = run.runtimeAssignments.get? s' :=
      fun s' hne => ⟨(lookup_setProp _ _ _ _).trans (if_neg hne), Map.get?_set_of_ne hne _⟩
    rw [huses] at htracks
    refine ⟨fun s' hs' => ?_, fun s' hs' => ?_, ?_, ?_, ?_⟩
    · obtain ⟨hnot, hne⟩ := not_or.1 fun hmem => hs' (mem_append.2 hmem)
      obtain ⟨hservices, hassign⟩ := hother s' fun heq => hne (mem_singleton.2 heq)
      rw [hservices, hassign]
      exact h.pending s' hnot
    · obtain hs' | hs' := mem_append.1 hs'
      · have hne : s' ≠ s := fun heq => hs (heq ▸ hs')
        exact (h.service s' hs').congr (hother s' hne).1 (hother s' hne).2
      · rw [mem_singleton.1 hs']
        exact htracks.service hcase
    · rw [flatMap_append, flatMap_singleton, ← h.envEntries]
      exact htracks.envEntries
    · rw [flatMap_append, flatMap_singleton, ← h.secretPlan]
      exact htracks.secrets.secretPlan
    · rw [flatMap_append, flatMap_singleton, ← h.secretMaterial]
      exact htracks.secrets.secretMaterial

theorem RunTracks.steps {more : List String} (h : RunTracks document params names run)
    (hnodup : (names ++ more).Nodup) {run' : ApplyRun}
    (hrun : more.foldlM (applyService params) run = .ok run') :
    RunTracks document params (names ++ more) run' := by
  induction more generalizing names run with
  | nil =>
    obtain rfl : run = run' := Except.ok.inj hrun
    rwa [append_nil]
  | cons s more ih =>
    rw [foldlM_cons, bind_eq_ok] at hrun
    obtain ⟨run₁, hstep, hrun⟩ := hrun
    have hs : s ∉ names := fun hmem =>
      (nodup_append.1 hnodup).2.2 s hmem s mem_cons_self rfl
    have hrest := ih (h.step hs hstep) (by rwa [append_assoc]) hrun
    rwa [append_assoc] at hrest

end

theorem RunTracks.initial : RunTracks document params [] (ApplyRun.initial document) where
  pending _ _ := ⟨rfl, rfl⟩
  service _ hs := absurd hs not_mem_nil
  envEntries := rfl
  secretPlan := rfl
  secretMaterial := rfl

/-- The keys of the services of a document are distinct, as those of any object. -/
def DistinctServices : Prop := ((recordProp document.data "services").map Prod.fst).Nodup

/-- **The outcome of a run.** The result is put together from the uses of the services. -/
theorem applyRun_tracks {c : Collation} (hnodup : DistinctServices document) {run : ApplyRun}
    (hrun : applyRun c document params = .ok run) :
    RunTracks document params (listComposeServiceNames c document) run :=
  (RunTracks.initial document params).steps
    ((sortKeys_perm c _).nodup_iff.2 hnodup) hrun

theorem RunTracks.tracked {c : Collation} {run : ApplyRun}
    (h : RunTracks document params (listComposeServiceNames c document) run) (s : String) :
    ServiceTracked document params run s := by
  by_cases hs : s ∈ listComposeServiceNames c document
  · exact h.service s hs
  · have hlookup : (recordProp document.data "services").lookup s = none :=
      lookup_eq_none_iff.2 fun hmem => hs ((sortKeys_perm c _).mem_iff.2 hmem)
    obtain ⟨hservice, hassign⟩ := h.pending s hs
    refine ServiceTracked.of_not_mapping ?_ ?_ hassign
    · rw [rawService?, hlookup]
      rfl
    · rw [hservice, hlookup]
      rfl

end TurboPanel.Compose
