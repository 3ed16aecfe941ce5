import TurboPanel.Compose.VariableRuns

/-!
# Delivery of referenced secrets

A reference `NAME: {$KEY}` to a secret is delivered when the service has the variable `NAME_FILE`
with the path of a mounted secret whose material carries the value. The row of a secret is that of
its first use in the service: a second reference to the same key gets neither a variable of its own
name nor, when it comes from another scope, its own value. `delivered_iff` says for every reference
whether it is delivered, from the list of uses that the document and the parameters give: which use
of a secret is the first, which use of the `_FILE` variable the last, and which secret is the first
of its source.
-/

namespace TurboPanel.Compose

open Option Js List

/-! ## The property -/

/-- The source of an item of `secrets`, and its name under `/run/secrets/`. -/
def mountOf : Json → Option (String × String)
  | .str source => some (source, source)
  | .obj item => ((item.lookup "source").bind Json.str?).map fun source =>
      (source, ((item.lookup "target").bind Json.str?).getD source)
  | _ => none

/-- The variable `name` of the service `s` refers to the secret `entry`. -/
def SecretReference (document : ComposeDocument) (params : ApplyVariablesParams) (s name : String)
    (entry : DeployVariableEntry) : Prop :=
  ∃ value ref, (name, value) ∈ inputEnvironment document s ∧ parseExactVariableRef value = .ok ref ∧
    lookupVariable ref (serviceContext params s).inherited (serviceContext params s).scopes =
      some entry ∧ entry.isSecret = true

/-- The `_FILE` variable of `name` holds the path of a mounted secret whose material carries the
value of the entry. -/
def Delivered (run : ApplyRun) (s name : String) (entry : DeployVariableEntry) : Prop :=
  ∃ plan ∈ run.secretPlan, plan.composeServiceName = s ∧
    environmentValue (run.outputService s) (secretFileEnvKey name) =
      some (.str (secretContainerPath plan.target)) ∧
    (∃ item ∈ secretItems (run.outputService s), mountOf item = some (plan.source, plan.target)) ∧
    ∃ row ∈ run.secretMaterial, row.key = plan.key ∧ row.composeServiceName = s ∧
      row.valueEnvelope = entry.value

/-! ## The condition -/

/-- The use, after those before it, makes the service mount the secret `key` as `target`: it is a
use of the secret, whose first use names the target, and one of the uses so far is for runtime. -/
def Mounts (before : List Use) (use : Use) (key target : String) : Prop :=
  (∃ secret, use.secret? = some secret ∧ secret.2.key = key) ∧
    (∃ first, (usesOf (secretUses (before ++ [use])) key).head? = some first ∧
      composeSecretTargetName first.1 = target) ∧
    ∃ other ∈ usesOf (secretUses (before ++ [use])) key, other.2.forRuntime = true

/-- The use sets or deletes the variable `name`: it is a runtime reference of that name, or it
mounts a secret with that `_FILE` variable. -/
def Touches (name : String) (before : List Use) (use : Use) : Prop :=
  (∃ key target, Mounts before use key target ∧ secretFileEnvKey target = name) ∨
    (∃ entry, use = .plain .runtime name entry) ∨ ∃ entry, use = .secretRef .runtime name entry

/-- The use sets the variable `name` to `text`: to the path of the secret that it mounts, or, for a
plain variable, to its text. -/
def Sets (ctx : ServiceContext) (name text : String) (before : List Use) (use : Use) : Prop :=
  (∃ key target, Mounts before use key target ∧ secretFileEnvKey target = name ∧
      secretContainerPath target = text) ∨
    ∃ entry, use = .plain .runtime name entry ∧ (plainValue ctx entry).1 = text

/-- The last use that touches the variable sets it to the text, or none does and the input has it
so. -/
def EndsAs (document : ComposeDocument) (params : ApplyVariablesParams) (s name text : String) : Prop :=
  LastPlace (Touches name) (Sets (serviceContext params s) name text) (usesIn document params s) ∨
    Nowhere (Touches name) (usesIn document params s) ∧
      (inputEnvironment document s).lookup name = some text

/-- The use mounts a secret with the source. -/
def MountsSource (s source : String) (before : List Use) (use : Use) : Prop :=
  ∃ key target, Mounts before use key target ∧ composeSecretSourceName s key = source

/-- The use mounts a secret with the source as `target`. -/
def MountsSourceAs (s source target : String) (before : List Use) (use : Use) : Prop :=
  ∃ key, Mounts before use key target ∧ composeSecretSourceName s key = source

/-- An item of the input mounts `source` as `target`, or no item of the input has the source and the
first use that mounts a secret with it mounts it so. -/
def MountsAs (document : ComposeDocument) (params : ApplyVariablesParams) (s source target : String) :
    Prop :=
  (∃ item ∈ secretItems ((rawService? document s).getD []), mountOf item = some (source, target)) ∨
    (∀ item ∈ secretItems ((rawService? document s).getD []), sourceOf item ≠ some source) ∧
      FirstPlace (MountsSource s source) (MountsSourceAs s source target) (usesIn document params s)

/-- The first use of the secret `key` in the service. -/
def FirstUse (document : ComposeDocument) (params : ApplyVariablesParams) (s key : String)
    (first : SecretUse) : Prop :=
  (usesOf (secretsIn document params s) key).head? = some first

/-- The first use of the secret carries the value of the entry, the `_FILE` variable of `name` ends
as the path of the target that this use names, and the service mounts the source of the secret
there. The secret is that of the reference, unless another one has the same envelope. -/
def DeliveryCondition (document : ComposeDocument) (params : ApplyVariablesParams) (s name : String)
    (entry : DeployVariableEntry) : Prop :=
  ∃ key first, FirstUse document params s key first ∧ first.2.value = entry.value ∧
    EndsAs document params s (secretFileEnvKey name)
      (secretContainerPath (composeSecretTargetName first.1)) ∧
    MountsAs document params s (composeSecretSourceName s key) (composeSecretTargetName first.1)

/-! ## What the uses leave -/

section

variable {ctx : ServiceContext} {before uses : List Use} {use : Use}

theorem runtimePlans_cases : (∃ key target plan, use.runtimePlans ctx before = [plan] ∧
      plan.target = target ∧ plan.source = composeSecretSourceName ctx.composeServiceName key ∧
      ∀ key' target', Mounts before use key' target' ↔ key' = key ∧ target' = target) ∨
    use.runtimePlans ctx before = [] ∧ ∀ key target, ¬Mounts before use key target := by
  rw [Use.runtimePlans]
  cases hsecret : use.secret? with
  | none =>
    refine .inr ⟨rfl, ?_⟩
    rintro key target ⟨⟨secret, hsome, -⟩, -⟩
    cases hsecret.symm.trans hsome
  | some secret =>
    have huses : secretUses (before ++ [use]) = secretUses before ++ [secret] := by
      rw [secretUses, filterMap_append, filterMap_cons_some hsecret]
      rfl
    have hkey : ∀ {key target}, Mounts before use key target → key = secret.2.key := by
      rintro key target ⟨⟨secret', hsome, rfl⟩, -⟩
      rw [Option.some.inj (hsecret.symm.trans hsome)]
    have hruntime : (planOf ctx (secretUses before ++ [secret]) secret.2.key).forRuntime = true ↔
        ∃ other ∈ usesOf (secretUses (before ++ [use])) secret.2.key, other.2.forRuntime = true := by
      rw [huses]
      exact any_eq_true
    cases hflag : (planOf ctx (secretUses before ++ [secret]) secret.2.key).forRuntime with
    | false =>
      refine .inr ⟨filter_cons_of_neg (by simp [hflag]), fun key target hmounts => ?_⟩
      obtain rfl := hkey hmounts
      rw [hruntime.2 hmounts.2.2] at hflag
      cases hflag
    | true =>
      obtain ⟨first, hfirst⟩ : ∃ first, (usesOf (secretUses (before ++ [use])) secret.2.key).head? =
          some first := by
        rw [← isSome_iff_exists, isSome_head?, huses, usesOf_append, if_pos rfl]
        exact append_ne_nil_of_right_ne_nil _ (cons_ne_nil _ _)
      refine .inl ⟨secret.2.key, composeSecretTargetName first.1, _,
        filter_cons_of_pos (by simpa using hflag), ?_, rfl, fun key' target' => ⟨fun hmounts => ?_, ?_⟩⟩
      · rw [huses] at hfirst
        rw [planOf, hfirst]
        rfl
      · obtain rfl := hkey hmounts
        obtain ⟨-, ⟨first', hfirst', rfl⟩, -⟩ := hmounts
        rw [Option.some.inj (hfirst.symm.trans hfirst')]
        exact ⟨rfl, rfl⟩
      · rintro ⟨rfl, rfl⟩
        exact ⟨⟨secret, hsecret, rfl⟩, ⟨first, hfirst, rfl⟩, hruntime.1 hflag⟩

theorem valueAfter_fileOps (init : Option String) (name text : String) :
    valueAfter init ((use.runtimePlans ctx before).map fileOp) name = some text ↔
      (∃ key target, Mounts before use key target ∧ secretFileEnvKey target = name ∧
        secretContainerPath target = text) ∨
      (¬∃ key target, Mounts before use key target ∧ secretFileEnvKey target = name) ∧
        init = some text := by
  obtain ⟨key, target, plan, hplans, htarget, -, hmounts⟩ | ⟨hplans, hnone⟩ :=
    @runtimePlans_cases ctx before use
  · rw [hplans, map_singleton, valueAfter_cons, valueAfter_nil, fileOp, htarget]
    by_cases hname : secretFileEnvKey target = name
    · simp [hmounts, hname]
    · simp [hmounts, hname]
  · simp [hplans, hnone, valueAfter_nil]

theorem valueAfter_envOps (init : Option String) (name text : String) :
    valueAfter init (envOps ctx (use, use.runtimePlans ctx before)) name = some text ↔
      Sets ctx name text before use ∨ init = some text ∧ ¬Touches name before use := by
  rw [envOps, valueAfter_append, valueAfter_fileOps, Sets, Touches]
  -- a plain variable mounts nothing, and a reference to a secret deletes its name first
  have hplain : ∀ target name entry key path, ¬Mounts before (.plain target name entry) key path := by
    rintro target name entry key path ⟨⟨_, hsome, -⟩, -⟩
    cases hsome
  cases use with
  | plain target envKey entry =>
    cases target with
    | runtime =>
      by_cases hname : envKey = name
      · simp [hplain, Use.ownOps, valueAfter_cons, valueAfter_nil, hname]
      · simp [hplain, Use.ownOps, valueAfter_cons, valueAfter_nil, hname]
    | build => simp [hplain, Use.ownOps, valueAfter_nil]
  | secretRef target envKey entry =>
    cases target with
    | runtime =>
      by_cases hname : envKey = name
      · simp [Use.ownOps, valueAfter_cons, valueAfter_nil, hname]
      · simp [Use.ownOps, valueAfter_cons, valueAfter_nil, hname, and_comm]
    | build => simp [Use.ownOps, valueAfter_nil, and_comm]
  | attached entry => simp [Use.ownOps, valueAfter_nil, and_comm]
  | unreferenced entry => simp [Use.ownOps, valueAfter_nil, and_comm]

theorem valueAfter_envWrites (init : Option String) (name text : String) :
    valueAfter init (envWrites ctx uses) name = some text ↔
      LastPlace (Touches name) (Sets ctx name text) uses ∨ Nowhere (Touches name) uses ∧ init = some text := by
  induction uses using List.reverseRecOn with
  | nil =>
    have hlast : ¬LastPlace (Touches name) (Sets ctx name text) [] := by
      rintro ⟨before, use, after, heq, -⟩
      exact absurd heq.symm (append_ne_nil_of_right_ne_nil _ (cons_ne_nil _ _))
    rw [iff_false_intro hlast, false_or, and_iff_right nowhere_nil]
    rfl
  | append_singleton uses use ih =>
    rw [envWrites_append, valueAfter_append, valueAfter_envOps, ih, lastPlace_concat, nowhere_concat]
    tauto

theorem find?_runtimeMounts {source : String} :
    (((runtimeMounts ctx uses).find? fun plan => decide (plan.source = source)) = none ↔
        Nowhere (MountsSource ctx.composeServiceName source) uses) ∧
      ∀ target, (∃ plan, ((runtimeMounts ctx uses).find? fun plan => decide (plan.source = source)) =
          some plan ∧ plan.target = target) ↔
        FirstPlace (MountsSource ctx.composeServiceName source)
          (MountsSourceAs ctx.composeServiceName source target) uses := by
  induction uses using List.reverseRecOn with
  | nil =>
    refine ⟨iff_of_true rfl nowhere_nil, fun target => iff_of_false ?_ nowhere_nil⟩
    rintro ⟨plan, hfind, -⟩
    cases hfind
  | append_singleton uses use ih =>
    have hlast : ((use.runtimePlans ctx uses).find? fun plan => decide (plan.source = source)) = none ↔
        ¬MountsSource ctx.composeServiceName source uses use := by
      obtain ⟨key, target, plan, hplans, -, hsource, hmounts⟩ | ⟨hplans, hnone⟩ :=
        @runtimePlans_cases ctx uses use
      · simp [MountsSource, hplans, hmounts, hsource]
      · simp [MountsSource, hplans, hnone]
    have hlast' : ∀ target, (∃ plan, ((use.runtimePlans ctx uses).find? fun plan =>
        decide (plan.source = source)) = some plan ∧ plan.target = target) ↔
          MountsSourceAs ctx.composeServiceName source target uses use := by
      intro target
      obtain ⟨key, target', plan, hplans, htarget, hsource, hmounts⟩ | ⟨hplans, hnone⟩ :=
        @runtimePlans_cases ctx uses use
      · by_cases hkey : composeSecretSourceName ctx.composeServiceName key = source
        · simp [MountsSourceAs, hplans, hmounts, hsource, hkey, htarget, eq_comm]
        · simp [MountsSourceAs, hplans, hmounts, hsource, hkey]
      · simp [MountsSourceAs, hplans, hnone]
    rw [runtimeMounts_append, find?_append, or_eq_none_iff, ih.1, hlast, nowhere_concat]
    refine ⟨Iff.rfl, fun target => ?_⟩
    rw [firstPlace_concat, ← hlast', ← ih.2, ← ih.1]
    cases (runtimeMounts ctx uses).find? fun plan => decide (plan.source = source) with
    | none => simp
    | some plan => simp

end

/-! ## Delivery -/

section

variable {c : Collation} {document : ComposeDocument} {params : ApplyVariablesParams} {run : ApplyRun}
  {s key : String}

variable {first : SecretUse}

theorem mem_usedKeys_of_firstUse (h : FirstUse document params s key first) :
    key ∈ usedKeys (secretsIn document params s) := by
  refine mem_usedKeys.2 fun hnil => ?_
  rw [FirstUse, hnil] at h
  cases h

theorem exists_firstUse (h : key ∈ usedKeys (secretsIn document params s)) :
    ∃ first, FirstUse document params s key first := by
  rw [mem_usedKeys, ← isSome_head?] at h
  exact isSome_iff_exists.1 h

theorem target_planOf (h : FirstUse document params s key first) :
    (planOf (serviceContext params s) (secretsIn document params s) key).target =
      composeSecretTargetName first.1 := by
  rw [FirstUse] at h
  rw [planOf, h]
  rfl

theorem valueEnvelope_materialOf (h : FirstUse document params s key first) :
    (materialOf (serviceContext params s) (secretsIn document params s) key).valueEnvelope =
      first.2.value := by
  rw [FirstUse] at h
  rw [materialOf, h]
  rfl

theorem mem_names_of_mem_usedKeys (h : key ∈ usedKeys (secretsIn document params s)) :
    s ∈ listComposeServiceNames c document := by
  refine (sortKeys_perm c _).mem_iff.2 ?_
  by_contra hnot
  rw [secretsIn, usesIn, rawService?, lookup_eq_none_iff.2 hnot] at h
  cases h

theorem RunTracks.mem_secretPlan
    (h : RunTracks document params (listComposeServiceNames c document) run)
    {plan : DeploySecretPlanEntry} : plan ∈ run.secretPlan ∧ plan.composeServiceName = s ↔
      ∃ key ∈ usedKeys (secretsIn document params s),
        plan = planOf (serviceContext params s) (secretsIn document params s) key := by
  rw [h.secretPlan, mem_flatMap]
  constructor
  · rintro ⟨⟨s', -, hplan⟩, hs⟩
    obtain ⟨key, hkey, rfl⟩ := mem_map.1 hplan
    obtain rfl : s' = s := hs
    exact ⟨key, hkey, rfl⟩
  · rintro ⟨key, hkey, rfl⟩
    exact ⟨⟨s, mem_names_of_mem_usedKeys hkey, mem_map_of_mem hkey⟩, rfl⟩

theorem RunTracks.mem_secretMaterial
    (h : RunTracks document params (listComposeServiceNames c document) run)
    (hkey : key ∈ usedKeys (secretsIn document params s)) {row : DeployVariableMaterial} :
    row ∈ run.secretMaterial ∧ row.key = key ∧ row.composeServiceName = s ↔
      row = materialOf (serviceContext params s) (secretsIn document params s) key := by
  rw [h.secretMaterial, mem_flatMap]
  constructor
  · rintro ⟨⟨s', -, hrow⟩, hkey', hs⟩
    obtain ⟨key', -, rfl⟩ := mem_map.1 hrow
    obtain rfl : s' = s := hs
    obtain rfl : key' = key := hkey'
    rfl
  · rintro rfl
    exact ⟨⟨s, mem_names_of_mem_usedKeys hkey, mem_map_of_mem hkey⟩, rfl, rfl⟩

theorem sourceOf_of_mountOf {item : Json} {source target : String}
    (h : mountOf item = some (source, target)) : sourceOf item = some source := by
  cases item with
  | str item =>
    cases h
    rfl
  | obj item =>
    obtain ⟨source', hsource, heq⟩ := map_eq_some_iff.1 h
    rw [sourceOf, hsource, (Prod.mk.inj heq).1]
  | null => cases h
  | bool b => cases h
  | num text => cases h
  | arr items => cases h

theorem find?_map_secretItem (plans : List DeploySecretPlanEntry) (source : String) :
    ((plans.map secretItem).find? fun item => decide (sourceOf item = some source)) =
      (plans.find? fun plan => decide (plan.source = source)).map secretItem := by
  rw [find?_map]
  congr 2
  funext plan
  exact decide_eq_decide.2 (by rw [sourceOf_secretItem, Option.some.injEq])

theorem ServiceTracked.mounts_iff (h : ServiceTracked document params run s) {source target : String} :
    (∃ item ∈ secretItems (run.outputService s), mountOf item = some (source, target)) ↔
      MountsAs document params s source target := by
  rw [h.items, MountsAs]
  have hfirst : _ ↔ FirstPlace (MountsSource s source) (MountsSourceAs s source target)
      (usesIn document params s) :=
    (@find?_runtimeMounts (serviceContext params s) (usesIn document params s) source).2 target
  rw [← hfirst]
  constructor
  · rintro ⟨item, hitem, hmount⟩
    rw [mem_foldl_appendNew, sourceOf_of_mountOf hmount, find?_map_secretItem,
      map_eq_some_iff] at hitem
    refine hitem.imp (fun hmem => ⟨item, hmem, hmount⟩) ?_
    rintro ⟨hfree, plan, hfind, rfl⟩
    exact ⟨hfree, plan, hfind, (Prod.mk.inj (Option.some.inj hmount)).2⟩
  · rintro (⟨item, hitem, hmount⟩ | ⟨hfree, plan, hfind, rfl⟩)
    · exact ⟨item, (mem_foldl_appendNew sourceOf).2 (.inl hitem), hmount⟩
    · obtain rfl : plan.source = source := by simpa using find?_some hfind
      refine ⟨secretItem plan, (mem_foldl_appendNew sourceOf).2 (.inr ⟨hfree, ?_⟩), rfl⟩
      rw [sourceOf_secretItem, find?_map_secretItem, hfind, map_some]

theorem ServiceTracked.environment_iff (h : ServiceTracked document params run s)
    {name text : String} : environmentValue (run.outputService s) name = some (.str text) ↔
      EndsAs document params s name text := by
  rw [h.environment, EndsAs, ← valueAfter_envWrites, map_eq_some_iff]
  simp only [Json.str.injEq, exists_eq_right]

theorem delivered_iff (h : RunTracks document params (listComposeServiceNames c document) run)
    (s name : String) (entry : DeployVariableEntry) :
    Delivered run s name entry ↔ DeliveryCondition document params s name entry := by
  have htracked := h.tracked document params s
  constructor
  · rintro ⟨plan, hplan, hs, henv, hmount, row, hrow, hkey, hrow_s, hvalue⟩
    obtain ⟨key, hused, rfl⟩ := h.mem_secretPlan.1 ⟨hplan, hs⟩
    obtain ⟨first, hfirst⟩ := exists_firstUse hused
    obtain rfl := (h.mem_secretMaterial hused).1 ⟨hrow, hkey, hrow_s⟩
    rw [htracked.environment_iff, target_planOf hfirst] at henv
    rw [htracked.mounts_iff, target_planOf hfirst] at hmount
    rw [valueEnvelope_materialOf hfirst] at hvalue
    exact ⟨key, first, hfirst, hvalue, henv, hmount⟩
  · rintro ⟨key, first, hfirst, hvalue, henv, hmount⟩
    have hused := mem_usedKeys_of_firstUse hfirst
    obtain ⟨hplan, hs⟩ := h.mem_secretPlan.2 ⟨key, hused, rfl⟩
    obtain ⟨hrow, hkey, hrow_s⟩ := (h.mem_secretMaterial hused).2 rfl
    refine ⟨_, hplan, hs, ?_, ?_, _, hrow, hkey, hrow_s, ?_⟩
    · rw [htracked.environment_iff, target_planOf hfirst]
      exact henv
    · rw [htracked.mounts_iff, target_planOf hfirst]
      exact hmount
    · rw [valueEnvelope_materialOf hfirst]
      exact hvalue

/-- **Delivery of secrets.** Every reference to a secret is delivered if and only if every one meets
the condition on the uses of its service. -/
theorem secret_references_delivered (hnodup : DistinctServices document)
    (hrun : applyRun c document params = .ok run) :
    (∀ s name entry, SecretReference document params s name entry → Delivered run s name entry) ↔
      ∀ s name entry, SecretReference document params s name entry →
        DeliveryCondition document params s name entry := by
  have h := applyRun_tracks document params hnodup hrun
  exact forall_congr' fun s => forall_congr' fun name => forall_congr' fun entry =>
    imp_congr_right fun _ => delivered_iff h s name entry

end

/-- A service `api` with the environment. -/
def apiDocument (environment : Fields) : ComposeDocument :=
  plainDocument [("services", .obj [("api", .obj [("environment", .obj environment)])])]

/-- A secret `KEY` for every service. -/
def secretKey : DeployVariableEntry := ⟨"KEY", "envelope", true, false, false, true, none, none⟩

def secretKeyParams : ApplyVariablesParams where
  globalEntries := [secretKey]
  perServiceEntries := Map.empty
  perServiceScopes := none
  nativeServiceNames := none
  projectId := none
  environmentId := none
  runDir := none

/-- Two references to the secret. -/
def twoReferences : ComposeDocument :=
  apiDocument [("A", .str "\x7b$KEY\x7d"), ("B", .str "\x7b$KEY\x7d")]

/-- A reference to the secret under its own name and one to a second secret. -/
def referenceEach : ComposeDocument :=
  apiDocument [("A", .str "\x7b$KEY\x7d"), ("B", .str "\x7b$OTHER\x7d")]

def secretOther : DeployVariableEntry := ⟨"OTHER", "other envelope", true, false, false, true, none, none⟩

def bothParams : ApplyVariablesParams :=
  { secretKeyParams with globalEntries := [secretKey, secretOther] }

/-- Where each secret is referred to once, both references are delivered. -/
theorem secret_references_delivered_each : DistinctServices referenceEach ∧
    ∃ run, applyRun .codePoint referenceEach bothParams = .ok run ∧
      ((∀ s name entry, SecretReference referenceEach bothParams s name entry →
        Delivered run s name entry) ↔
      ∀ s name entry, SecretReference referenceEach bothParams s name entry →
        DeliveryCondition referenceEach bothParams s name entry) ∧
      Delivered run "api" "A" secretKey ∧ Delivered run "api" "B" secretOther := by
  have hnodup : DistinctServices referenceEach := nodup_singleton _
  refine ⟨hnodup, _, rfl, secret_references_delivered (c := .codePoint) hnodup rfl, ?_, ?_⟩
  · exact ⟨_, mem_cons_self, rfl, rfl, ⟨_, mem_cons_self, rfl⟩, _, mem_cons_self, rfl, rfl, rfl⟩
  · refine ⟨_, mem_cons_of_mem _ mem_cons_self, rfl, rfl,
      ⟨_, mem_cons_of_mem _ mem_cons_self, rfl⟩, _, mem_cons_of_mem _ mem_cons_self, ?_⟩
    exact ⟨rfl, rfl, rfl⟩

/-- The second of two references to a secret is not delivered. -/
theorem second_reference_not_delivered : DistinctServices twoReferences ∧
    SecretReference twoReferences secretKeyParams "api" "B" secretKey ∧
    ∃ run, applyRun .codePoint twoReferences secretKeyParams = .ok run ∧
      ¬Delivered run "api" "B" secretKey := by
  refine ⟨nodup_singleton _, ⟨"\x7b$KEY\x7d", ⟨"\x7b$KEY\x7d", none, "KEY"⟩, ?_, rfl, rfl, rfl⟩,
    _, rfl, ?_⟩
  · have hinput : inputEnvironment twoReferences "api" =
        [("A", "\x7b$KEY\x7d"), ("B", "\x7b$KEY\x7d")] := rfl
    simp [hinput]
  · rintro ⟨plan, -, -, henv, -⟩
    cases henv

end TurboPanel.Compose
