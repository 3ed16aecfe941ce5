import TurboPanel.Compose.VariableRuns

/-!
# The `.env` file and the runtime assignments

A plain variable reaches a service on two ways: through an interpolation that is resolved from the
`.env` file, and as a runtime assignment. The `.env` file has one value for a key, and the key is
made of the slug of the service and the name of the variable. So the two ways agree on a variable if
and only if the last use in the document that has the same `.env` key has the same value
(`lanesAgree_iff`): services such as `a-b` and `a_b` share their keys.
-/

namespace TurboPanel.Compose

open Js List

/-! ## The property -/

/-- The last plain assignment of a name. -/
def lastPlain (assignments : List RuntimeEnvAssignment) (name : String) :
    Option RuntimeEnvAssignment :=
  (assignments.filter fun a => decide (a.name = name ∧ a.isSecret = false)).getLast?

/-- When the variable `n` of the service `s` is an interpolation of `t` that the function wrote, the
`.env` file has under `t` the value of the last plain assignment of `n`. A variable whose last plain
assignment is of a platform key has its value inline. -/
def LanesAgree (run : ApplyRun) (s n : String) : Prop :=
  ∀ t a, environmentValue (run.outputService s) n = some (.str (composeInterpolationRef t)) →
    lastPlain ((run.runtimeAssignments.get? s).getD []) n = some a →
    isPlatformInlineKey a.key = false →
    ((envByKey run.envEntries).get? t).map (·.value) = a.value

/-! ## The condition -/

/-- The entry is used as the variable `n` at runtime, and no later use of the service touches `n`.
-/
def Stands (ctx : ServiceContext) (uses : List Use) (n : String) (entry : DeployVariableEntry) : Prop :=
  ∃ before after, mountedUses ctx [] uses = before ++ (.plain .runtime n entry, []) :: after ∧
    ∀ use ∈ after, ∀ op ∈ envOps ctx use, op.1 ≠ n

/-- The last use in the document that goes to the `.env` file under `key`. -/
def lastEnvEntry (c : Collation) (document : ComposeDocument) (params : ApplyVariablesParams)
    (key : String) : Option EnvFileEntry :=
  (((listComposeServiceNames c document).flatMap (envEntriesIn document params)).filter
    fun entry => decide (entry.key = key)).getLast?

/-! ## Uses -/

theorem fst_mountedUses (ctx : ServiceContext) (before uses : List Use) :
    (mountedUses ctx before uses).map Prod.fst = uses := by
  induction uses generalizing before with
  | nil => rfl
  | cons use uses ih => rw [mountedUses, map_cons, ih]

variable {n : String}

theorem mountedUses_plain {ctx : ServiceContext} {before uses : List Use} {target : Lane}
    {entry : DeployVariableEntry} {plans : List DeploySecretPlanEntry}
    (h : (.plain target n entry, plans) ∈ mountedUses ctx before uses) : plans = [] := by
  induction uses generalizing before with
  | nil => cases h
  | cons use uses ih =>
    obtain heq | h := mem_cons.1 h
    · cases heq
      rfl
    · exact ih h

/-- The plain uses of a name at runtime. -/
def IsPlainAt (n : String) (use : Use) : Prop := ∃ entry, use = .plain .runtime n entry

theorem records_filter_plain {use : Use} (h : ¬IsPlainAt n use) :
    (use.records.filter fun a => decide (a.name = n ∧ a.isSecret = false)) = [] := by
  cases use with
  | plain target name entry =>
    cases target with
    | runtime =>
      have hne : name ≠ n := fun heq => h ⟨entry, by rw [heq]⟩
      simp [Use.records, hne]
    | build => rfl
  | secretRef target name entry => cases target <;> simp [Use.records]
  | attached entry => cases hflag : entry.forRuntime <;> simp [Use.records, hflag]
  | unreferenced entry => rfl

theorem lastPlain_of_last {before after : List Use} {entry : DeployVariableEntry}
    (h : ∀ use ∈ after, ¬IsPlainAt n use) :
    lastPlain ((before ++ .plain .runtime n entry :: after).flatMap Use.records) n =
      some ⟨n, entry.key, false, some (trimVariableValue entry.value), entry.source⟩ := by
  have hafter : ((after.flatMap Use.records).filter
      fun a => decide (a.name = n ∧ a.isSecret = false)) = [] := by
    rw [filter_flatMap, flatMap_eq_nil_iff]
    exact fun use huse => records_filter_plain (h use huse)
  rw [lastPlain, flatMap_append, flatMap_cons, filter_append, filter_append,
    hafter, append_nil]
  simp [Use.records]

theorem exists_plainAt_of_lastPlain {uses : List Use} {a : RuntimeEnvAssignment}
    (h : lastPlain (uses.flatMap Use.records) n = some a) : ∃ use ∈ uses, IsPlainAt n use := by
  by_contra hno
  have hnil : ((uses.flatMap Use.records).filter
      fun a => decide (a.name = n ∧ a.isSecret = false)) = [] := by
    rw [filter_flatMap, flatMap_eq_nil_iff]
    exact fun use huse => records_filter_plain fun hplain => hno ⟨use, huse, hplain⟩
  rw [lastPlain, hnil] at h
  cases h

theorem envOps_of_not_plainAt {ctx : ServiceContext} {use : Use × List DeploySecretPlanEntry}
    (h : ¬IsPlainAt n use.1) {op : String × Option String} (hop : op ∈ envOps ctx use)
    (hn : op.1 = n) : op.2 = none ∨ ∃ target, op.2 = some (secretContainerPath target) := by
  rw [envOps, mem_append, mem_map] at hop
  obtain hop | ⟨plan, -, rfl⟩ := hop
  · left
    obtain ⟨use, plans⟩ := use
    cases use with
    | plain target name entry =>
      cases target with
      | runtime =>
        obtain rfl := mem_singleton.1 hop
        exact absurd ⟨entry, by rw [← hn]⟩ h
      | build => cases hop
    | secretRef target name entry =>
      cases target with
      | runtime => rw [mem_singleton.1 hop]
      | build => cases hop
    | attached entry => cases hop
    | unreferenced entry => cases hop
  · exact .inr ⟨plan.target, rfl⟩

/-! ## Texts -/

theorem composeInterpolationRef_injective {t t' : String}
    (h : composeInterpolationRef t = composeInterpolationRef t') : t = t' := by
  have htext := congrArg String.toList h
  simp only [composeInterpolationRef, String.toList_append] at htext
  exact String.ext (append_cancel_left (append_cancel_right htext))

theorem composeInterpolationRef_ne_path (t target : String) :
    composeInterpolationRef t ≠ secretContainerPath target := by
  intro h
  have htext := congrArg (fun text => text.toList.head?) h
  simp [composeInterpolationRef, secretContainerPath] at htext

/-! ## Agreement -/

section

variable {c : Collation} {document : ComposeDocument} {params : ApplyVariablesParams} {run : ApplyRun}

theorem envByKey_get? (entries : List EnvFileEntry) (key : String) : (envByKey entries).get? key =
    (entries.filter fun entry => decide (entry.key = key)).getLast? := by
  rw [envByKey, Map.get?_ofEntries_eq_getLast?, filter_map, getLast?_map, Option.map_map]
  exact congrFun Option.map_id _

theorem RunTracks.envByKey (h : RunTracks document params (listComposeServiceNames c document) run)
    (key : String) :
    (envByKey run.envEntries).get? key = lastEnvEntry c document params key := by
  rw [envByKey_get?, h.envEntries, lastEnvEntry]

variable {s : String}

theorem environmentValue_of_stands
    (h : RunTracks document params (listComposeServiceNames c document) run) {n : String}
    {entry : DeployVariableEntry} (hinline : isPlatformInlineKey entry.key = false)
    (hstands : Stands (serviceContext params s) (usesIn document params s) n entry) :
    environmentValue (run.outputService s) n =
      some (.str (composeInterpolationRef (serviceEnvInterpolationKey s entry.key))) := by
  obtain ⟨before, after, hsplit, hafter⟩ := hstands
  have hrest : ∀ op ∈ after.flatMap (envOps (serviceContext params s)), op.1 ≠ n := by
    intro op hop
    obtain ⟨use, huse, hop⟩ := mem_flatMap.1 hop
    exact hafter use huse op hop
  rw [(h.tracked document params s).environment n, envWrites, hsplit, flatMap_append,
    flatMap_cons, valueAfter_append, valueAfter_append, valueAfter_of_forall_ne hrest]
  simp [envOps, Use.ownOps, valueAfter, plainValue, hinline, interpolationKeyFor, serviceContext]

theorem stands_of_environmentValue
    (h : RunTracks document params (listComposeServiceNames c document) run) {n t : String}
    {a : RuntimeEnvAssignment}
    (hvalue : environmentValue (run.outputService s) n = some (.str (composeInterpolationRef t)))
    (hlast : lastPlain ((run.runtimeAssignments.get? s).getD []) n = some a) :
    ∃ entry, Stands (serviceContext params s) (usesIn document params s) n entry ∧
      a = ⟨n, entry.key, false, some (trimVariableValue entry.value), entry.source⟩ := by
  have htracked := h.tracked document params s
  rw [htracked.runtimeAssignments] at hlast
  obtain ⟨use, huse, hplain⟩ := exists_plainAt_of_lastPlain hlast
  rw [← fst_mountedUses (serviceContext params s) [] (usesIn document params s), mem_map] at huse
  obtain ⟨mounted, hmounted, rfl⟩ := huse
  obtain ⟨before, ⟨use, plans⟩, after, hsplit, ⟨entry, rfl⟩, hafter⟩ :=
    exists_eq_append_cons_last (p := fun use => IsPlainAt n use.1) ⟨mounted, hmounted, hplain⟩
  obtain rfl : plans = [] := mountedUses_plain (hsplit ▸ mem_append_right _ mem_cons_self)
  refine ⟨entry, ⟨before, after, hsplit, ?_⟩, ?_⟩
  · -- a later operation on `n` would leave no interpolation
    by_contra hno
    push Not at hno
    obtain ⟨use, huse, op, hop, hn⟩ := hno
    rw [htracked.environment n, envWrites, hsplit, flatMap_append, flatMap_cons,
      valueAfter_append, valueAfter_append] at hvalue
    obtain ⟨op', hop', hn', hvalue'⟩ := exists_valueAfter_eq
      (valueAfter (valueAfter _ (before.flatMap (envOps (serviceContext params s))) n)
        (envOps (serviceContext params s) (Use.plain .runtime n entry, [])) n)
      ⟨op, mem_flatMap.2 ⟨use, huse, hop⟩, hn⟩
    rw [hvalue'] at hvalue
    obtain ⟨use', huse', hop'⟩ := mem_flatMap.1 hop'
    obtain hnone | ⟨target, hpath⟩ := envOps_of_not_plainAt (hafter use' huse') hop' hn'
    · rw [hnone] at hvalue
      cases hvalue
    · rw [hpath] at hvalue
      exact composeInterpolationRef_ne_path t target (Json.str.inj (Option.some.inj hvalue)).symm
  · rw [← fst_mountedUses (serviceContext params s) [] (usesIn document params s), hsplit,
      map_append, map_cons, lastPlain_of_last fun use huse => ?_] at hlast
    · exact (Option.some.inj hlast).symm
    · obtain ⟨mounted, hmounted, rfl⟩ := mem_map.1 huse
      exact hafter mounted hmounted

theorem mem_listComposeServiceNames {use : Use} (h : use ∈ usesIn document params s) :
    s ∈ listComposeServiceNames c document := by
  refine (sortKeys_perm c _).mem_iff.2 ?_
  by_contra hnot
  rw [usesIn, rawService?, lookup_eq_none_iff.2 hnot] at h
  cases h

theorem exists_lastEnvEntry {n : String} {entry : DeployVariableEntry}
    (hinline : isPlatformInlineKey entry.key = false)
    (hstands : Stands (serviceContext params s) (usesIn document params s) n entry) :
    ∃ last, lastEnvEntry c document params (serviceEnvInterpolationKey s entry.key) = some last := by
  obtain ⟨before, after, hsplit, -⟩ := hstands
  have huse : Use.plain .runtime n entry ∈ usesIn document params s := by
    rw [← fst_mountedUses (serviceContext params s) [] (usesIn document params s), hsplit]
    simp
  have hentry : (⟨serviceEnvInterpolationKey s entry.key, trimVariableValue entry.value,
      entry.isLiteral⟩ : EnvFileEntry) ∈ envEntriesIn document params s := by
    refine mem_flatMap.2 ⟨_, huse, ?_⟩
    rw [Use.envEntries, plainValue, hinline, if_neg Bool.false_ne_true]
    exact mem_singleton.2 rfl
  rw [lastEnvEntry, ← Option.isSome_iff_exists, getLast?_isSome, ne_eq,
    filter_eq_nil_iff]
  intro hnone
  exact hnone _ (mem_flatMap.2 ⟨s, mem_listComposeServiceNames huse, hentry⟩)
    (decide_eq_true rfl)

/-- **The `.env` file and the assignments.** The two ways agree on a variable if and only if the
last use in the document with the same `.env` key has the same value. -/
theorem lanesAgree_iff (hnodup : DistinctServices document)
    (hrun : applyRun c document params = .ok run) (s n : String) :
    LanesAgree run s n ↔
      ∀ entry, Stands (serviceContext params s) (usesIn document params s) n entry →
        isPlatformInlineKey entry.key = false →
        ∀ last, lastEnvEntry c document params (serviceEnvInterpolationKey s entry.key) = some last →
          last.value = trimVariableValue entry.value := by
  have h := applyRun_tracks document params hnodup hrun
  constructor
  · intro hagree entry hstands hinline last hlast
    have hvalue := environmentValue_of_stands h hinline hstands
    obtain ⟨before, after, hsplit, hafter⟩ := hstands
    have hplain : lastPlain ((run.runtimeAssignments.get? s).getD []) n =
        some ⟨n, entry.key, false, some (trimVariableValue entry.value), entry.source⟩ := by
      rw [(h.tracked document params s).runtimeAssignments,
        ← fst_mountedUses (serviceContext params s) [] (usesIn document params s), hsplit,
        map_append, map_cons]
      refine lastPlain_of_last fun use huse hplain => ?_
      obtain ⟨⟨use, plans⟩, hmounted, rfl⟩ := mem_map.1 huse
      obtain ⟨entry', rfl⟩ := hplain
      exact hafter _ hmounted (n, some (plainValue _ entry').1)
        (mem_append_left _ mem_cons_self) rfl
    have hkept := hagree _ _ hvalue hplain hinline
    rw [h.envByKey, hlast, Option.map_some] at hkept
    exact Option.some.inj hkept
  · intro hcond t a hvalue hlast hinline
    obtain ⟨entry, hstands, rfl⟩ := stands_of_environmentValue h hvalue hlast
    have hvalue' := environmentValue_of_stands h hinline hstands
    rw [hvalue] at hvalue'
    obtain rfl := composeInterpolationRef_injective (Json.str.inj (Option.some.inj hvalue'))
    obtain ⟨last, hlast⟩ := exists_lastEnvEntry (c := c) hinline hstands
    rw [h.envByKey, hlast, Option.map_some, hcond entry hstands hinline last hlast]

end

/-- Two services with nothing in them. -/
def twoServices (first second : String) : ComposeDocument :=
  plainDocument [("services", .obj [(first, .obj []), (second, .obj [])])]

/-- A variable `KEY` for each of the two services. -/
def keyForEach (first second : String) : ApplyVariablesParams where
  globalEntries := []
  perServiceEntries := Map.ofEntries
    [(first, [⟨"KEY", "1", false, false, false, true, none, none⟩]),
      (second, [⟨"KEY", "2", false, false, false, true, none, none⟩])]
  perServiceScopes := none
  nativeServiceNames := none
  projectId := none
  environmentId := none
  runDir := none

theorem lanesAgree_api : DistinctServices (twoServices "api" "web") ∧
    ∃ run, applyRun .codePoint (twoServices "api" "web") (keyForEach "api" "web") = .ok run ∧
      (LanesAgree run "api" "KEY" ↔
        ∀ entry, Stands (serviceContext (keyForEach "api" "web") "api")
            (usesIn (twoServices "api" "web") (keyForEach "api" "web") "api") "KEY" entry →
          isPlatformInlineKey entry.key = false →
          ∀ last, lastEnvEntry .codePoint (twoServices "api" "web") (keyForEach "api" "web")
            (serviceEnvInterpolationKey "api" entry.key) = some last →
            last.value = trimVariableValue entry.value) :=
  have hnodup : DistinctServices (twoServices "api" "web") := by
    unfold DistinctServices
    decide
  ⟨hnodup, _, rfl, lanesAgree_iff hnodup rfl "api" "KEY"⟩

/-- A service with two references to a variable `KEY`, of two scopes. -/
def twoScopes : ComposeDocument :=
  plainDocument [("services", .obj [("api", .obj [("environment", .obj
    [("A", .str "\x7b$project.KEY\x7d"), ("B", .str "\x7b$environment.KEY\x7d")])])])]

/-- The variable of the project is `1` and that of the environment is `2`. -/
def keyOfScopes : ApplyVariablesParams where
  globalEntries := []
  perServiceEntries := Map.empty
  perServiceScopes := some (Map.ofEntries [("api", Map.ofEntries
    [(.project, Map.ofEntries [("KEY", ⟨"KEY", "1", false, false, false, true, none, none⟩)]),
      (.environment, Map.ofEntries [("KEY", ⟨"KEY", "2", false, false, false, true, none, none⟩)])])])
  nativeServiceNames := none
  projectId := none
  environmentId := none
  runDir := none

theorem listComposeServiceNames_twoServices (c : Collation) (first second : String) :
    listComposeServiceNames c (twoServices first second) = [first, second] ∨
      listComposeServiceNames c (twoServices first second) = [second, first] := by
  change (if _ then _ else _) = _ ∨ (if _ then _ else _) = _
  split
  · exact .inl rfl
  · exact .inr rfl

/-- In whatever order the services are taken, two scopes of one service and two services share an
`.env` key. -/
theorem env_key_shared :
    (DistinctServices twoScopes ∧ ∀ c : Collation, ∃ run, applyRun c twoScopes keyOfScopes = .ok run ∧
      ¬LanesAgree run "api" "A") ∧
    DistinctServices (twoServices "a-b" "a_b") ∧ ∀ c : Collation,
      ∃ run, applyRun c (twoServices "a-b" "a_b") (keyForEach "a-b" "a_b") = .ok run ∧
        ¬(LanesAgree run "a-b" "KEY" ∧ LanesAgree run "a_b" "KEY") := by
  refine ⟨⟨nodup_singleton _, fun c => ⟨_, rfl, fun h => ?_⟩⟩, ?_, fun c => ?_⟩
  · have hkept := h "api__KEY" ⟨"A", "KEY", false, some "1", none⟩ rfl rfl rfl
    have htwo : some "2" = some "1" := hkept
    exact absurd (Option.some.inj htwo) (by decide)
  · unfold DistinctServices
    decide
  · rw [applyRun]
    obtain hnames | hnames := listComposeServiceNames_twoServices c "a-b" "a_b"
    · rw [hnames]
      refine ⟨_, rfl, ?_⟩
      rintro ⟨h, -⟩
      have hkept := h "a_b__KEY" ⟨"KEY", "KEY", false, some "1", none⟩ rfl rfl rfl
      have htwo : some "2" = some "1" := hkept
      exact absurd (Option.some.inj htwo) (by decide)
    · rw [hnames]
      refine ⟨_, rfl, ?_⟩
      rintro ⟨-, h⟩
      have hkept := h "a_b__KEY" ⟨"KEY", "KEY", false, some "2", none⟩ rfl rfl rfl
      have hone : some "1" = some "2" := hkept
      exact absurd (Option.some.inj hone) (by decide)

end TurboPanel.Compose
