import TurboPanel.Compose.SecretDelivery

/-!
# Settings of the author

What the author wrote under `environment` is read into a mapping of strings, and the variables are
put into that mapping. A setting that is a text is left as it is when nothing writes its name
(`name_of_mem_envWrites`): neither a reference under the name, nor an entry that the service
inherits, nor the path of a secret. Of several list items with one name the last one counts, and a
mapping has string values only.
-/

namespace TurboPanel.Compose

open Js List

/-! ## Settings -/

/-- The text of a setting. -/
def settingText : Json → Option String
  | .str s => some s
  | .num text => some text
  | .bool b => some (if b then "true" else "false")
  | _ => none

/-- An entry of `environment`: one of the mapping, or an item `name=value` of the list. -/
def IsSetting (environment : Json) (name : String) (value : Json) : Prop :=
  match environment with
  | .obj fields => (name, value) ∈ fields
  | .arr items => '=' ∉ name.toList ∧ ∃ v, value = .str v ∧ .str (name ++ "=" ++ v) ∈ items
  | _ => False

/-- The item of a list has the name; the name ends at the first `=` or `:`. -/
def ItemNamed (name : String) (item : Json) : Prop := ∃ s, item = .str s ∧ String.ofList (listEntryKey s.toList) = name

/-- The last entry with the name, which is a text. -/
inductive TextSetting (name v : String) : Json → Prop
  | mapping {before after : Fields} (last : name ∉ after.map Prod.fst) :
    TextSetting name v (.obj (before ++ (name, .str v) :: after))
  | list {before after : List Json} (noSeparator : ∀ ch ∈ name.toList, isListSeparator ch = false)
    (last : ∀ item ∈ after, ¬ ItemNamed name item) :
    TextSetting name v (.arr (before ++ .str (name ++ "=" ++ v) :: after))

theorem lookup_foldl_of_keep {α : Type} {f : StringMap → α → StringMap} {l : List α} {name : String}
    (h : ∀ out, ∀ a ∈ l, (f out a).lookup name = out.lookup name) (init : StringMap) :
    (l.foldl f init).lookup name = init.lookup name := by
  induction l generalizing init with
  | nil => rfl
  | cons a l ih =>
    rw [foldl_cons, ih fun out b hb => h out b (mem_cons_of_mem a hb), h init a mem_cons_self]

theorem listEntry_of_name {name : Text} (h : ∀ ch ∈ name, isListSeparator ch = false) (v : Text) :
    listEntryKey (name ++ '=' :: v) = name ∧ listEntryValue (name ++ '=' :: v) = some v := by
  have hkeep : ∀ ch ∈ name, (!isListSeparator ch) = true := fun ch hch => by rw [h ch hch]; rfl
  constructor
  · rw [listEntryKey, takeWhile_append_of_pos hkeep]
    simp [isListSeparator]
  · rw [listEntryValue, dropWhile_append_of_pos hkeep]
    simp [isListSeparator]

theorem TextSetting.lookup {name v : String} {environment : Json} (h : TextSetting name v environment) :
    (readStringEnvMap (some environment)).lookup name = some v := by
  cases h with
  | mapping last =>
    rename_i before after
    rw [readStringEnvMap, foldl_append, foldl_cons, lookup_foldl_of_keep, lookup_setProp, if_pos rfl]
    intro out e he
    split
    · rw [lookup_setProp, if_neg]
      rintro rfl
      exact last (mem_map_of_mem he)
    · rfl
  | list noSeparator last =>
    rename_i before after
    have hsplit := listEntry_of_name noSeparator v.toList
    have htext : (name ++ "=" ++ v).toList = name.toList ++ '=' :: v.toList := by simp [String.toList_append]
    rw [readStringEnvMap, foldl_append, foldl_cons, lookup_foldl_of_keep]
    · simp only [htext, hsplit.1, hsplit.2, Option.getD_some, String.ofList_toList, lookup_setProp, if_true]
    · intro out item hitem
      split
      · rename_i s
        rw [lookup_setProp, if_neg]
        exact fun heq => last _ hitem ⟨s, rfl, heq.symm⟩
      · rfl

/-! ## Writes -/

section

variable {ctx : ServiceContext}

theorem exists_before_of_mem_mountedUses {uses : List Use} {use : Use × List DeploySecretPlanEntry}
    (h : use ∈ mountedUses ctx [] uses) :
    ∃ before after, uses = before ++ use.1 :: after ∧ use.2 = use.1.runtimePlans ctx before := by
  induction uses using List.reverseRecOn with
  | nil => cases h
  | append_singleton uses last ih =>
    rw [mountedUses_append, mem_append, mem_singleton] at h
    obtain h | rfl := h
    · obtain ⟨before, after, rfl, hplans⟩ := ih h
      exact ⟨before, after ++ [last], by simp, hplans⟩
    · exact ⟨uses, [], rfl, by rw [nil_append]⟩

theorem planOf_append (ctx : ServiceContext) {secrets : List SecretUse} {key : String} (h : key ∈ usedKeys secrets)
    (more : List SecretUse) :
    (planOf ctx (secrets ++ more) key).target = (planOf ctx secrets key).target ∧
      ((planOf ctx secrets key).forRuntime = true → (planOf ctx (secrets ++ more) key).forRuntime = true) := by
  have huses : usesOf (secrets ++ more) key = usesOf secrets key ++ usesOf more key := filter_append ..
  constructor
  · simp only [planOf, buildSecretPlanEntry, huses, head?_append_of_ne_nil _ (mem_usedKeys.1 h)]
  · simp only [planOf, buildSecretPlanEntry, huses, any_append, Bool.or_eq_true]
    exact .inl

theorem exists_row_of_mount {uses : List Use} {use : Use × List DeploySecretPlanEntry}
    (h : use ∈ mountedUses ctx [] uses) {plan : DeploySecretPlanEntry} (hplan : plan ∈ use.2) :
    ∃ key ∈ usedKeys (secretUses uses), (planOf ctx (secretUses uses) key).forRuntime = true ∧
      (planOf ctx (secretUses uses) key).target = plan.target := by
  obtain ⟨before, after, rfl, hplans⟩ := exists_before_of_mem_mountedUses h
  rw [hplans, Use.runtimePlans] at hplan
  split at hplan
  · cases hplan
  · rename_i secret hsecret
    obtain ⟨hmem, hruntime⟩ := mem_filter.1 hplan
    obtain rfl := mem_singleton.1 hmem
    have hsplit : secretUses (before ++ use.1 :: after) = (secretUses before ++ [secret]) ++ secretUses after := by
      simp [secretUses, hsecret]
    have hkey : secret.2.key ∈ usedKeys (secretUses before ++ [secret]) := by
      rw [usedKeys_append, mem_setAdd]
      exact .inr rfl
    have hkeys : secret.2.key ∈ usedKeys ((secretUses before ++ [secret]) ++ secretUses after) := by
      rw [mem_usedKeys, usesOf, filter_append, ← usesOf]
      exact fun hnil => mem_usedKeys.1 hkey (append_eq_nil_iff.1 hnil).1
    obtain ⟨htarget, hmounted⟩ := planOf_append ctx hkey (secretUses after)
    rw [hsplit]
    exact ⟨secret.2.key, hkeys, hmounted hruntime, htarget⟩

variable {op : String × Option String}

theorem name_of_refUse {target : Lane} {value : String × String} {use : Use} (h : refUse ctx target value = some use)
    (hop : op ∈ use.ownOps ctx) :
    target = .runtime ∧ op.1 = value.1 ∧ ∃ ref, parseExactVariableRef value.2 = .ok ref := by
  rw [refUse] at h
  split at h
  · rename_i ref href
    obtain ⟨entry, -, rfl⟩ := Option.map_eq_some_iff.1 h
    cases target with
    | build =>
      split at hop
      · cases hop
      · cases hop
    | runtime =>
      refine ⟨rfl, ?_, ref, href⟩
      split at hop
      · rw [mem_singleton.1 hop]
      · rw [mem_singleton.1 hop]
  · cases h

theorem name_of_injectUses {planned : List String} {entry : DeployVariableEntry} {use : Use}
    (h : use ∈ injectUses ctx planned entry) (hop : op ∈ use.ownOps ctx) :
    entry.isSecret = false ∧ entry.forRuntime = true ∧ entry.key = op.1 := by
  rw [injectUses] at h
  split at h
  · split at h
    · rw [mem_singleton.1 h] at hop
      cases hop
    · split at h
      · rw [mem_singleton.1 h] at hop
        cases hop
      · cases h
  · rename_i hsecret
    obtain h | h := mem_append.1 h
    · split at h
      · rename_i hruntime
        rw [mem_singleton.1 h] at hop
        rw [mem_singleton.1 hop]
        exact ⟨Bool.eq_false_iff.2 hsecret, hruntime, rfl⟩
      · cases h
    · split at h
      · rw [mem_singleton.1 h] at hop
        cases hop
      · cases h

theorem name_of_mem_envWrites {rawService : Fields}
    (h : op ∈ envWrites ctx (serviceUses ctx rawService)) :
    (∃ value ref, (op.1, value) ∈ readStringEnvMap (rawService.lookup "environment") ∧
        parseExactVariableRef value = .ok ref) ∨
      (∃ entry ∈ ctx.inherited.entries.map Prod.snd, entry.isSecret = false ∧ entry.forRuntime = true ∧
        entry.key = op.1) ∨ ∃ key ∈ usedKeys (secretUses (serviceUses ctx rawService)),
        (planOf ctx (secretUses (serviceUses ctx rawService)) key).forRuntime = true ∧
        secretFileEnvKey (planOf ctx (secretUses (serviceUses ctx rawService)) key).target = op.1 := by
  obtain ⟨use, huse, hop⟩ := mem_flatMap.1 h
  obtain hop | hop := mem_append.1 hop
  · obtain ⟨before, after, hsplit, -⟩ := exists_before_of_mem_mountedUses huse
    have hmem : use.1 ∈ serviceUses ctx rawService := by rw [hsplit]; simp
    obtain hmem | hmem := mem_append.1 hmem
    · left
      obtain hmem | hmem := mem_append.1 hmem
      · obtain ⟨value, hvalue, hrefUse⟩ := mem_filterMap.1 hmem
        obtain ⟨-, hname, ref, href⟩ := name_of_refUse hrefUse hop
        exact ⟨value.2, ref, hname ▸ hvalue, href⟩
      · obtain ⟨value, -, hrefUse⟩ := mem_filterMap.1 hmem
        obtain ⟨hlane, -⟩ := name_of_refUse hrefUse hop
        cases hlane
    · right; left
      obtain ⟨entry, hentry, hmem⟩ := mem_flatMap.1 hmem
      exact ⟨entry, hentry, name_of_injectUses hmem hop⟩
  · right; right
    obtain ⟨plan, hplan, rfl⟩ := mem_map.1 hop
    obtain ⟨key, hkey, hruntime, htarget⟩ := exists_row_of_mount huse hplan
    exact ⟨key, hkey, hruntime, by rw [htarget]; rfl⟩

end

/-! ## Frame -/

section

variable {c : Collation} {document : ComposeDocument} {params : ApplyVariablesParams} {result : ApplyVariablesResult}
  {s name : String}

/-- Neither an entry that the service inherits nor the path of one of its secrets is written under
the name. -/
structure FreeName (params : ApplyVariablesParams) (result : ApplyVariablesResult) (s name : String) : Prop where
  inherited : ∀ entry ∈ (serviceContext params s).inherited.entries.map Prod.snd,
    entry.isSecret = false → entry.forRuntime = true → entry.key ≠ name
  generated : ∀ row ∈ result.secretPlan, row.composeServiceName = s → row.forRuntime = true →
    secretFileEnvKey row.target ≠ name

/-- The value of a variable of a service of a document. -/
def settingIn (document : ComposeDocument) (s name : String) : Option Json :=
  environmentValue ((rawService? document s).getD []) name

theorem settingIn_result (run : ApplyRun) (s name : String) :
    settingIn (run.result c document).document s name = environmentValue (run.outputService s) name := by
  have hservices : recordProp (setProp run.data "services" (.obj run.services)) "services" = run.services := by
    rw [recordProp, lookup_setProp, if_pos rfl]
    rfl
  rw [ApplyRun.outputService, ← hservices]
  rfl

/-- **What the author wrote survives.** The last entry of a name whose value is a text and no
reference is in the output as it was, when no entry that the service inherits and no path of a
secret has the name. -/
theorem authored_setting_survives (hnodup : DistinctServices document)
    (happly : applyVariablesToComposeDocument c document params = .ok result) {rawService : Fields}
    (hservice : rawService? document s = some rawService) {environment : Json}
    (henvironment : rawService.lookup "environment" = some environment) {v : String}
    (hset : TextSetting name v environment) (href : ∀ ref, parseExactVariableRef v ≠ .ok ref)
    (hfree : FreeName params result s name) : settingIn result.document s name = some (.str v) := by
  rw [applyVariablesToComposeDocument, bind_eq_ok] at happly
  obtain ⟨run, hrun, happly⟩ := happly
  cases happly
  have htracks := applyRun_tracks document params hnodup hrun
  have hinput : (inputEnvironment document s).lookup name = some v := by
    rw [inputEnvironment, hservice, Option.getD_some, henvironment, hset.lookup]
  have huses : usesIn document params s = serviceUses (serviceContext params s) rawService := by
    rw [usesIn, hservice]
  rw [settingIn_result, (htracks.tracked document params s).environment, hinput, huses, valueAfter_of_forall_ne,
    Option.map_some]
  intro op hop hname
  obtain ⟨value, ref, hvalue, hparse⟩ | ⟨entry, hentry, hplain, hruntime, hkey⟩ | ⟨key, hkey, hruntime, htarget⟩ :=
    name_of_mem_envWrites hop
  · rw [hname, henvironment] at hvalue
    have hsame := (lookup_eq_some_iff (nodup_readStringEnvMap _)).2 hvalue
    rw [hset.lookup, Option.some.injEq] at hsame
    exact href ref (hsame ▸ hparse)
  · exact hfree.inherited entry hentry hplain hruntime (hkey.trans hname)
  · rw [← huses] at hkey hruntime htarget
    obtain ⟨hrow, hs⟩ := htracks.mem_secretPlan.2 ⟨key, hkey, rfl⟩
    exact hfree.generated _ hrow hs hruntime (htarget.trans hname)

end

/-- The value is a reference as a whole. -/
def isVariableRef (value : String) : Bool :=
  match parseExactVariableRef value with
  | .ok _ => true
  | _ => false

theorem ne_ok_of_isVariableRef {value : String} (h : isVariableRef value = false) (ref : ParsedVariableRef) :
    parseExactVariableRef value ≠ .ok ref := by
  intro href
  rw [isVariableRef, href] at h
  cases h

instance (params : ApplyVariablesParams) (result : ApplyVariablesResult) (s name : String) :
    Decidable (FreeName params result s name) :=
  decidable_of_iff
    ((∀ entry ∈ (serviceContext params s).inherited.entries.map Prod.snd,
      entry.isSecret = false → entry.forRuntime = true → entry.key ≠ name) ∧
      ∀ row ∈ result.secretPlan, row.composeServiceName = s → row.forRuntime = true →
        secretFileEnvKey row.target ≠ name)
    ⟨fun h => ⟨h.1, h.2⟩, fun h => ⟨h.inherited, h.generated⟩⟩

/-- A secret and a text for every service. -/
def keyAndRegion : ApplyVariablesParams :=
  { secretKeyParams with globalEntries := [secretKey, ⟨"REGION", "eu", false, false, false, true, none, none⟩] }

/-- A setting beside a reference to the secret. -/
def levelAndReference : ComposeDocument := apiDocument [("LEVEL", .str "debug"), ("PASS", .str "{$KEY}")]

theorem authored_setting_survives_level :
    ∃ result, applyVariablesToComposeDocument .codePoint levelAndReference keyAndRegion = .ok result ∧
      settingIn result.document "api" "REGION" = some (.str "${api__REGION}") ∧
      result.secretPlan.length = 1 ∧ settingIn result.document "api" "LEVEL" = some (.str "debug") := by
  have hnodup : DistinctServices levelAndReference := nodup_singleton _
  have hrun : applyVariablesToComposeDocument .codePoint levelAndReference keyAndRegion = .ok _ := rfl
  refine ⟨_, hrun, rfl, rfl, authored_setting_survives hnodup hrun rfl rfl
    (show TextSetting "LEVEL" "debug" (.obj ([] ++ ("LEVEL", .str "debug") :: [("PASS", .str "{$KEY}")])) from
      .mapping (by decide)) (ne_ok_of_isVariableRef (by decide +kernel)) (by decide +kernel)⟩

/-- Every setting of the document is in the output with the same text. -/
def SettingsKept (document : ComposeDocument) (params : ApplyVariablesParams) : Prop :=
  ∀ (c : Collation) (result : ApplyVariablesResult), applyVariablesToComposeDocument c document params = .ok result →
    ∀ s rawService environment name value text, rawService? document s = some rawService →
      rawService.lookup "environment" = some environment → IsSetting environment name value →
      settingText value = some text → (∀ ref, parseExactVariableRef text ≠ .ok ref) →
      FreeName params result s name →
      ∃ kept, settingIn result.document s name = some kept ∧ settingText kept = some text

/-- A service `api` with the list. -/
def listDocument (items : List Json) : ComposeDocument :=
  plainDocument [("services", .obj [("api", .obj [("environment", .arr items)])])]

/-- A number, a name with a colon in a list, and the earlier entry of a repeated name. -/
theorem settings_lost : ¬SettingsKept (apiDocument [("PORT", .num "3000")]) secretKeyParams ∧
    ¬SettingsKept (listDocument [.str "A:B=1"]) secretKeyParams ∧
    ¬SettingsKept (listDocument [.str "LEVEL=a", .str "LEVEL=b"]) secretKeyParams := by
  refine ⟨fun h => ?_, fun h => ?_, fun h => ?_⟩
  · obtain ⟨kept, hkept, -⟩ := h .codePoint _ rfl "api" _ _ "PORT" (.num "3000") "3000" rfl rfl mem_cons_self rfl
      (ne_ok_of_isVariableRef (by decide +kernel)) (by decide +kernel)
    cases hkept
  · obtain ⟨kept, hkept, -⟩ := h .codePoint _ rfl "api" _ _ "A:B" (.str "1") "1" rfl rfl
      ⟨by decide, "1", rfl, mem_cons_self⟩ rfl (ne_ok_of_isVariableRef (by decide +kernel)) (by decide +kernel)
    cases hkept
  · obtain ⟨kept, hkept, htext⟩ := h .codePoint _ rfl "api" _ _ "LEVEL" (.str "a") "a" rfl rfl
      ⟨by decide, "a", rfl, mem_cons_self⟩ rfl (ne_ok_of_isVariableRef (by decide +kernel)) (by decide +kernel)
    cases hkept
    exact absurd htext (by decide)

end TurboPanel.Compose
