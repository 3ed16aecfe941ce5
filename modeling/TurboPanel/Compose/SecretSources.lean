import TurboPanel.Compose.SecretDelivery

/-!
# Names of secret files

Every secret that a service uses gets a name among the top-level `secrets` and a file. Both are made
of slugs, in which every character that is not a word character is `_`, and the name is in lower
case. So the secrets of two services, or two secrets of one service, have one name when their slugs
clash (`source_eq_iff`), and otherwise every name that is written belongs to one secret
(`secret_sources_apart_iff`). Two files are never the same without the names being so
(`source_eq_of_relativePath_eq`).
-/

namespace TurboPanel.Compose

open Js List

/-! ## Slugs -/

/-- The slug of a name, in lower case. -/
def lowerSlug (value : String) : Text := toLowerCase (slugToken value)

theorem toLowerCase_append (l m : Text) : toLowerCase (l ++ m) = toLowerCase l ++ toLowerCase m :=
  flatMap_append

theorem composeSecretSourceName_eq (s key : String) :
    composeSecretSourceName s key = String.ofList (lowerSlug s ++ '_' :: lowerSlug key) := by
  have hcons : toLowerCase ('_' :: slugToken key) = '_' :: lowerSlug key := rfl
  rw [composeSecretSourceName, toLowerCase_append, hcons]
  rfl

/-- The name of the secret `key` of `s` is that of `key'` of `s'`: the slugs are the same, or a part
of the slug of one service is in front of the slug of the other key. -/
def Clash (s key s' key' : String) : Prop :=
  lowerSlug s = lowerSlug s' ∧ lowerSlug key = lowerSlug key' ∨
    (∃ part, lowerSlug s' = lowerSlug s ++ '_' :: part ∧ lowerSlug key = part ++ '_' :: lowerSlug key') ∨
    ∃ part, lowerSlug s = lowerSlug s' ++ '_' :: part ∧ lowerSlug key' = part ++ '_' :: lowerSlug key

theorem append_cons_eq_iff {α : Type*} {c : α} {a b a' b' : List α} :
    a ++ c :: b = a' ++ c :: b' ↔ a = a' ∧ b = b' ∨
      (∃ part, a' = a ++ c :: part ∧ b = part ++ c :: b') ∨ ∃ part, a = a' ++ c :: part ∧ b' = part ++ c :: b := by
  constructor
  · intro h
    rw [append_eq_append_iff] at h
    obtain ⟨rest, rfl, hrest⟩ | ⟨rest, rfl, hrest⟩ := h
    · cases rest with
      | nil => exact .inl ⟨(append_nil a).symm, (List.cons.inj hrest).2⟩
      | cons ch part =>
        obtain ⟨rfl, hb⟩ := List.cons.inj hrest
        exact .inr (.inl ⟨part, rfl, hb⟩)
    · cases rest with
      | nil => exact .inl ⟨append_nil a', (List.cons.inj hrest).2.symm⟩
      | cons ch part =>
        obtain ⟨rfl, hb⟩ := List.cons.inj hrest
        exact .inr (.inr ⟨part, rfl, hb⟩)
  · rintro (⟨rfl, rfl⟩ | ⟨part, rfl, rfl⟩ | ⟨part, rfl, rfl⟩) <;> simp

theorem source_eq_iff {s key s' key' : String} :
    composeSecretSourceName s key = composeSecretSourceName s' key' ↔ Clash s key s' key' := by
  rw [composeSecretSourceName_eq, composeSecretSourceName_eq, String.ofList_inj, append_cons_eq_iff]
  rfl

theorem isWordChar_of_mem_slugToken {value : String} {ch : Char} (h : ch ∈ slugToken value) :
    isWordChar ch = true := by
  have htrim : ∀ l : Text, ch ∈ trimCharRun l '_' → ch ∈ l := by
    intro l hmem
    rw [trimCharRun, mem_reverse] at hmem
    exact dropWhile_subset _ (mem_reverse.1 (dropWhile_subset _ hmem))
  rw [slugToken] at h
  split at h
  · rw [mem_singleton.1 h]
    rfl
  · obtain ⟨ch', -, rfl⟩ := mem_map.1 (htrim _ h)
    split
    · assumption
    · rfl

theorem source_eq_of_relativePath_eq {s key s' key' : String}
    (h : secretRelativePath s key = secretRelativePath s' key') :
    composeSecretSourceName s key = composeSecretSourceName s' key' := by
  have hdash : ∀ value : String, '-' ∉ slugToken value :=
    fun value hmem => absurd (isWordChar_of_mem_slugToken hmem) (by decide)
  have htext := congrArg String.toList h
  simp only [secretRelativePath, String.toList_append, String.toList_ofList] at htext
  obtain ⟨hslug, hkey⟩ := append_cons_inj (c := '-') (x := '-' :: key.toList) (y := '-' :: key'.toList)
    (hdash s) (hdash s') (by simpa using htext)
  have hkeys : key = key' := String.toList_injective (List.cons.inj hkey).2
  rw [composeSecretSourceName, composeSecretSourceName, hslug, hkeys]

/-! ## What is written -/

/-- The top-level secret with a name. -/
def topLevelSecret (data : Fields) (source : String) : Option Json := (recordProp data "secrets").lookup source

def sources (plan : List DeploySecretPlanEntry) : List String := plan.map (·.source)

/-- From one document and plan to a later: no name is lost from the plan, and a top-level secret
that is another one has a name of the plan. -/
structure Written (data : Fields) (plan : List DeploySecretPlanEntry) (data' : Fields)
    (plan' : List DeploySecretPlanEntry) : Prop where
  kept : ∀ source ∈ sources plan, source ∈ sources plan'
  changed : ∀ source, topLevelSecret data' source ≠ topLevelSecret data source → source ∈ sources plan'

theorem Written.refl (data : Fields) (plan : List DeploySecretPlanEntry) : Written data plan data plan :=
  ⟨fun _ h => h, fun _ h => absurd rfl h⟩

theorem Written.trans {data data' data'' : Fields} {plan plan' plan'' : List DeploySecretPlanEntry}
    (h : Written data plan data' plan') (h' : Written data' plan' data'' plan'') : Written data plan data'' plan'' := by
  refine ⟨fun source hmem => h'.kept source (h.kept source hmem), fun source hne => ?_⟩
  by_cases hsame : topLevelSecret data'' source = topLevelSecret data' source
  · exact h'.kept source (h.changed source (hsame ▸ hne))
  · exact h'.changed source hsame

theorem topLevelSecret_ensure (data : Fields) (plan : DeploySecretPlanEntry) (hostPath source : String) :
    topLevelSecret (ensureTopLevelSecret data plan hostPath) source =
      if source = plan.source then some (.obj [("file", .str hostPath)]) else topLevelSecret data source := by
  have hsecrets : ∀ secrets : Fields, recordProp (setProp data "secrets" (.obj secrets)) "secrets" = secrets := by
    intro secrets
    rw [recordProp, lookup_setProp, if_pos rfl]
    rfl
  rw [topLevelSecret, ensureTopLevelSecret, hsecrets, lookup_setProp]
  rfl

theorem Written.ensure {data : Fields} {plan plan' : List DeploySecretPlanEntry}
    (hkept : ∀ source ∈ sources plan, source ∈ sources plan') {row : DeploySecretPlanEntry}
    (hrow : row.source ∈ sources plan') (hostPath : String) :
    Written data plan (ensureTopLevelSecret data row hostPath) plan' := by
  refine ⟨hkept, fun source hne => ?_⟩
  rw [topLevelSecret_ensure] at hne
  split at hne
  · rename_i heq
    exact heq ▸ hrow
  · exact absurd rfl hne

variable {ctx : ServiceContext} {st st' : ApplyState}

/-- What a step of a service writes. -/
def ApplyState.Writes (st st' : ApplyState) : Prop := Written st.data st.secretPlan st'.data st'.secretPlan

theorem sources_modifyFirst (p : DeploySecretPlanEntry → Bool) (entry : DeployVariableEntry)
    (plan : List DeploySecretPlanEntry) : sources (modifyFirst p (widenPlan entry) plan) = sources plan := by
  induction plan with
  | nil => rfl
  | cons row plan ih =>
    rw [modifyFirst]
    split
    · rfl
    · rw [sources, map_cons, ← sources, ih]
      rfl

theorem writes_applySecretAssignment (st : ApplyState) (entry : DeployVariableEntry) (envKey : String) :
    st.Writes (applySecretAssignment ctx st entry envKey) := by
  rw [applySecretAssignment]
  split
  · rename_i existing hfound
    have hmem : existing.source ∈ sources st.secretPlan := mem_map_of_mem (mem_of_find?_eq_some hfound)
    change Written _ _ _ (modifyFirst _ (widenPlan entry) st.secretPlan)
    refine Written.ensure ?_ ?_ _
    · rw [sources_modifyFirst]
      exact fun _ h => h
    · rw [sources_modifyFirst]
      exact hmem
  · change Written _ _ _ (st.secretPlan ++ [newPlan ctx entry envKey])
    refine Written.ensure ?_ ?_ _
    · rw [sources, sources, map_append]
      exact fun _ h => mem_append_left _ h
    · rw [sources, map_append]
      exact mem_append_right _ mem_cons_self

theorem writes_applySecretRefValue (st : ApplyState) (envKey : String) (entry : DeployVariableEntry) (target : Lane) :
    st.Writes (applySecretRefValue ctx st envKey entry target) := by
  cases target with
  | runtime =>
    exact writes_applySecretAssignment
      (recordSecretAssignment { st with runtimeEnv := deleteProp st.runtimeEnv envKey } envKey entry) _ envKey
  | build => exact writes_applySecretAssignment { st with buildArgs := deleteProp st.buildArgs envKey } _ envKey

theorem writes_applyRefValue {target : Lane} {value : String × String}
    (h : applyRefValue ctx target st value = .ok st') : st.Writes st' := by
  unfold applyRefValue at h
  split at h
  · split at h
    · cases h
    · cases h
      exact Written.refl _ _
  · cases h
  · split at h
    · cases h
    · split at h
      · cases h
        exact writes_applySecretRefValue _ _ _ _
      · cases h
        cases target
        · exact Written.refl _ _
        · exact Written.refl _ _

theorem writes_injectEntry (st : ApplyState) (entry : DeployVariableEntry) : st.Writes (injectEntry ctx st entry) := by
  rw [injectEntry]
  split
  · rw [attachUnreferencedSecret]
    split
    · split
      · exact writes_applySecretAssignment _ _ _
      · exact writes_applySecretAssignment _ _ _
    · split
      · exact Written.refl _ _
      · exact Written.refl _ _
  · cases entry.forRuntime <;> cases entry.forBuild <;> exact Written.refl _ _

theorem writes_applyEntriesToService (h : applyEntriesToService ctx st = .ok st') : st.Writes st' := by
  rw [applyEntriesToService, bind_eq_ok] at h
  obtain ⟨st₁, hruntime, h⟩ := h
  obtain ⟨st₂, hbuild, h⟩ := bind_eq_ok.1 h
  obtain rfl : autoInjectEntries ctx st₂.writeMaps = st' := Except.ok.inj h
  have hscan : ∀ {st st' : ApplyState} {values : StringMap} {target : Lane},
      scanMapForRefs ctx st values target = .ok st' → st.Writes st' :=
    fun {st st' values target} h => foldlM_rel (R := ApplyState.Writes) (fun _ => Written.refl _ _) Written.trans
      (fun _ _ _ hstep => writes_applyRefValue hstep) h
  have hinject : ApplyState.Writes st₂ (autoInjectEntries ctx st₂.writeMaps) := by
    refine List.foldlRecOn (motive := fun st' : ApplyState => st₂.Writes st') _ _ (Written.refl _ _) ?_
    exact fun st' hst' entry _ => Written.trans hst' (writes_injectEntry st' entry)
  have hfirst : st.readMaps.Writes st₁ := hscan hruntime
  exact Written.trans (show st.Writes st₁ from hfirst) (Written.trans (hscan hbuild) hinject)

theorem written_applyRun {c : Collation} {document : ComposeDocument} {params : ApplyVariablesParams} {run : ApplyRun}
    (h : applyRun c document params = .ok run) : Written document.data [] run.data run.secretPlan := by
  refine foldlM_rel (R := fun run run' : ApplyRun => Written run.data run.secretPlan run'.data run'.secretPlan)
    (fun _ => Written.refl _ _) Written.trans (fun run s run' hstep => ?_) h
  rw [applyService] at hstep
  split at hstep
  · cases hstep
    exact Written.refl _ _
  · obtain ⟨st, hst, hstep⟩ := bind_eq_ok.1 hstep
    cases hstep
    exact writes_applyEntriesToService hst

/-! ## Apart -/

/-- The secret that a row is for. -/
def DeploySecretPlanEntry.owner (row : DeploySecretPlanEntry) : String × String := (row.composeServiceName, row.key)

/-- Two secrets have two names and two files, and every top-level secret that is written belongs to
one of them. -/
structure SourcesApart (document : ComposeDocument) (result : ApplyVariablesResult) : Prop where
  apart : ∀ row ∈ result.secretPlan, ∀ row' ∈ result.secretPlan, row.owner ≠ row'.owner →
    row.source ≠ row'.source ∧ row.relativePath ≠ row'.relativePath
  owned : ∀ source, source ∈ sources result.secretPlan ∨
      topLevelSecret result.document.data source ≠ topLevelSecret document.data source →
    ∃! owner : String × String, ∃ row ∈ result.secretPlan, row.source = source ∧ row.owner = owner

section

variable {c : Collation} {document : ComposeDocument} {params : ApplyVariablesParams} {run : ApplyRun}

theorem topLevelSecret_result (run : ApplyRun) (source : String) :
    topLevelSecret (run.result c document).document.data source = topLevelSecret run.data source := by
  have hsecrets : recordProp (setProp run.data "services" (.obj run.services)) "secrets" = recordProp run.data "secrets" := by
    rw [recordProp, lookup_setProp, if_neg (by decide), ← recordProp]
  rw [topLevelSecret, topLevelSecret, ← hsecrets]
  rfl

theorem RunTracks.owner_iff (h : RunTracks document params (listComposeServiceNames c document) run) {s key : String} :
    (∃ row ∈ run.secretPlan, row.owner = (s, key)) ↔ key ∈ usedKeys (secretsIn document params s) := by
  constructor
  · rintro ⟨row, hrow, howner⟩
    obtain ⟨hs, hkey⟩ := Prod.mk.inj howner
    obtain ⟨key', hused, rfl⟩ := h.mem_secretPlan.1 ⟨hrow, hs⟩
    obtain rfl : key' = key := hkey
    exact hused
  · intro hused
    obtain ⟨hrow, hs⟩ := h.mem_secretPlan.2 ⟨key, hused, rfl⟩
    exact ⟨_, hrow, rfl⟩

theorem RunTracks.row_names (h : RunTracks document params (listComposeServiceNames c document) run)
    {row : DeploySecretPlanEntry} (hrow : row ∈ run.secretPlan) :
    row.source = composeSecretSourceName row.composeServiceName row.key ∧
      row.relativePath = secretRelativePath row.composeServiceName row.key := by
  obtain ⟨key, -, heq⟩ := h.mem_secretPlan.1 ⟨hrow, rfl⟩
  obtain ⟨hkey, hsource, hpath⟩ := planOf_names (serviceContext params row.composeServiceName)
    (secretsIn document params row.composeServiceName) key
  rw [← heq] at hkey hsource hpath
  rw [hkey]
  exact ⟨hsource, hpath⟩

/-- **Names of secrets are apart** if and only if no two of the secrets that the services use have
slugs that clash. -/
theorem secret_sources_apart_iff (hnodup : DistinctServices document) {result : ApplyVariablesResult}
    (happly : applyVariablesToComposeDocument c document params = .ok result) :
    SourcesApart document result ↔ ∀ s key s' key', key ∈ usedKeys (secretsIn document params s) →
      key' ∈ usedKeys (secretsIn document params s') → Clash s key s' key' → s = s' ∧ key = key' := by
  rw [applyVariablesToComposeDocument, bind_eq_ok] at happly
  obtain ⟨run, hrun, happly⟩ := happly
  cases happly
  have htracks := applyRun_tracks document params hnodup hrun
  have hwritten := written_applyRun hrun
  constructor
  · intro h s key s' key' hkey hkey' hclash
    obtain ⟨row, hrow, howner⟩ := htracks.owner_iff.2 hkey
    obtain ⟨row', hrow', howner'⟩ := htracks.owner_iff.2 hkey'
    by_contra hne
    have hsource := (h.apart row hrow row' hrow' fun heq => hne (by simpa [howner, howner'] using heq)).1
    rw [(htracks.row_names hrow).1, (htracks.row_names hrow').1, (Prod.mk.inj howner).1, (Prod.mk.inj howner).2,
      (Prod.mk.inj howner').1, (Prod.mk.inj howner').2] at hsource
    exact hsource (source_eq_iff.2 hclash)
  · intro h
    have hsource : ∀ row ∈ run.secretPlan, ∀ row' ∈ run.secretPlan, row.source = row'.source →
        row.owner = row'.owner := by
      intro row hrow row' hrow' heq
      rw [(htracks.row_names hrow).1, (htracks.row_names hrow').1, source_eq_iff] at heq
      obtain ⟨hs, hkey⟩ := h _ _ _ _ (htracks.owner_iff.1 ⟨row, hrow, rfl⟩) (htracks.owner_iff.1 ⟨row', hrow', rfl⟩) heq
      rw [DeploySecretPlanEntry.owner, hs, hkey]
      rfl
    refine ⟨fun row hrow row' hrow' hne => ⟨fun heq => hne (hsource row hrow row' hrow' heq), fun heq => ?_⟩,
      fun source hwrote => ?_⟩
    · rw [(htracks.row_names hrow).2, (htracks.row_names hrow').2] at heq
      refine hne (hsource row hrow row' hrow' ?_)
      rw [(htracks.row_names hrow).1, (htracks.row_names hrow').1]
      exact source_eq_of_relativePath_eq heq
    · have hmem : source ∈ sources run.secretPlan := by
        obtain hmem | hne := hwrote
        · exact hmem
        · rw [topLevelSecret_result] at hne
          exact hwritten.changed source hne
      obtain ⟨row, hrow, rfl⟩ := mem_map.1 hmem
      refine ⟨row.owner, ⟨row, hrow, rfl, rfl⟩, ?_⟩
      rintro owner ⟨row', hrow', heq, rfl⟩
      exact hsource row' hrow' row hrow heq

end

/-- Two services with one reference to the secret each. -/
def referringServices (first second : String) : ComposeDocument :=
  plainDocument [("services", .obj [
    (first, .obj [("environment", .obj [("KEY", .str "\x7b$KEY\x7d")])]),
    (second, .obj [("environment", .obj [("KEY", .str "\x7b$KEY\x7d")])])])]

theorem secret_sources_apart_two : DistinctServices (referringServices "api" "web") ∧
    ∃ result, applyVariablesToComposeDocument .codePoint (referringServices "api" "web") secretKeyParams = .ok result ∧
      (SourcesApart (referringServices "api" "web") result ↔ ∀ s key s' key',
        key ∈ usedKeys (secretsIn (referringServices "api" "web") secretKeyParams s) →
        key' ∈ usedKeys (secretsIn (referringServices "api" "web") secretKeyParams s') →
        Clash s key s' key' → s = s' ∧ key = key') := by
  have hnodup : DistinctServices (referringServices "api" "web") := by
    rw [DistinctServices]
    decide
  exact ⟨hnodup, _, rfl, secret_sources_apart_iff (c := .codePoint) hnodup rfl⟩

/-- Two names with one slug get one source. -/
theorem secret_sources_not_apart : DistinctServices (referringServices "a.b" "a_b") ∧
    ∃ result, applyVariablesToComposeDocument .codePoint (referringServices "a.b" "a_b") secretKeyParams = .ok result ∧
      ¬ SourcesApart (referringServices "a.b" "a_b") result := by
  have hnodup : DistinctServices (referringServices "a.b" "a_b") := by
    rw [DistinctServices]
    decide
  refine ⟨hnodup, _, rfl, fun h => ?_⟩
  have hplan : ∀ s, DeploySecretPlanEntry.mk "KEY" s "a_b_key" "KEY" "a_b--KEY" false true ∈
      [DeploySecretPlanEntry.mk "KEY" "a.b" "a_b_key" "KEY" "a_b--KEY" false true,
        DeploySecretPlanEntry.mk "KEY" "a_b" "a_b_key" "KEY" "a_b--KEY" false true] ↔ s = "a.b" ∨ s = "a_b" := by
    simp
  have happart := h.apart _ ((hplan "a.b").2 (.inl rfl)) _ ((hplan "a_b").2 (.inr rfl)) (by decide)
  exact happart.1 rfl

end TurboPanel.Compose
