import TurboPanel.Metrics.HostRows

/-!
# The live overlay

`hostValuesFromSample` of `live-session.ts` puts the readings of a live sample on the last point of
a chart, by the scope and the field of each metric's descriptor; `v12HostRowValues` stores them by
slot. The overlay looks a field up in one group of the sample. The diagnostics lie in two groups one
level below, and so do the readings of a database engine, whose field is named flat. So for these
the overlay is null, and the two agree exactly where the nested reading is null too, or the field is
not nested (`hostValuesFromSample_eq_stored_iff`).
-/

namespace TurboPanel.Metrics

open Option Js List

variable {ν : Type} [Add ν] [Zero ν]

/-! ## The overlay -/

/-- What the overlay reads of a descriptor. -/
structure HostMetricsMetricDescriptor where
  entityScope : MetricEntityScope
  fieldName : Text

/-- `extended.docker` with the reclaimable total, the daemon's own or the sum of the parts. -/
def extendedDockerRecord (sample : MetricsSample ν) : Option (FieldRecord ν) :=
  match sample.section? .docker, sample.dockerUsage with
  | none, none => none
  | docker, usage =>
    let record : FieldRecord ν := docker.getD fun _ => none
    match record "reclaimableBytes".toList, usage with
    | none, some usage =>
      let parts := reclaimableParts usage
      if parts.isEmpty then some record
      else some fun field => if field = "reclaimableBytes".toList then some (total parts) else record field
    | _, _ => some record

def hostGroupForScope (sample : MetricsSample ν) : MetricEntityScope → Option (FieldRecord ν)
  | .host group => some (sample.host group)
  | .diagnostics => sample.diagnostics.map diagnosticsRecord
  | .router => sample.router
  | .storage => sample.storage.map StorageSample.record
  | .dockerUsage => sample.dockerUsage
  | .extended .host => sample.section? .host
  | .extended .docker => extendedDockerRecord sample
  | .extended .ingress => sample.section? .ingress
  | .extended .sizes => sample.section? .sizes
  | .network | .filesystem | .block | .gpu | .hardwareSignal | .ingress | .databaseProxy => none

/-- The values of the metrics that have a descriptor. -/
def hostValuesFromSample (descriptors : Text → Option HostMetricsMetricDescriptor) (sample : MetricsSample ν)
    (metrics : List Text) : Map Text (Option ν) :=
  metrics.foldl (fun values name =>
    match descriptors name with
    | none => values
    | some descriptor =>
      match hostGroupForScope sample descriptor.entityScope with
      | none => values.set name none
      | some group => values.set name (group descriptor.fieldName)) Map.empty

theorem get?_hostValuesFromSample {descriptors : Text → Option HostMetricsMetricDescriptor}
    {descriptor : HostMetricsMetricDescriptor} {sample : MetricsSample ν} {metrics : List Text} {name : Text}
    (hname : name ∈ metrics) (hdescriptor : descriptors name = some descriptor) :
    (hostValuesFromSample descriptors sample metrics).get? name =
      some (num (hostGroupForScope sample descriptor.entityScope) descriptor.fieldName) := by
  rw [hostValuesFromSample]
  induction metrics using List.reverseRecOn with
  | nil => cases hname
  | append_singleton metrics last ih =>
    rw [foldl_append, foldl_cons, foldl_nil]
    by_cases hlast : name = last
    · subst hlast
      rw [hdescriptor]
      dsimp only
      split
      · rename_i hgroup
        rw [Map.get?_set_self, hgroup]
        rfl
      · rename_i group hgroup
        rw [Map.get?_set_self, hgroup]
        rfl
    · have hmem := (mem_append.1 hname).resolve_right fun h => hlast (mem_singleton.1 h)
      split
      · exact ih hmem
      · split
        · rw [Map.get?_set_of_ne hlast]
          exact ih hmem
        · rw [Map.get?_set_of_ne hlast]
          exact ih hmem

/-! ## One field, one text -/

def allScopes : List MetricEntityScope :=
  [.host .cpu, .host .kernel, .host .memory, .host .storage, .host .network, .network, .filesystem, .block, .gpu,
    .hardwareSignal, .ingress, .databaseProxy, .router, .storage, .dockerUsage, .diagnostics, .extended .host,
    .extended .docker, .extended .ingress, .extended .sizes]

theorem mem_allScopes (scope : MetricEntityScope) : scope ∈ allScopes := by
  cases scope with
  | host group => cases group <;> decide
  | extended part => cases part <;> decide
  | _ => decide

theorem not_prefix_dot (a b : MetricEntityScope) : ¬(a.text ++ ['.']) <+: b.text := by
  have hall : ∀ a ∈ allScopes, ∀ b ∈ allScopes, ¬(a.text ++ ['.']) <+: b.text := by decide +kernel
  exact hall a (mem_allScopes a) b (mem_allScopes b)

theorem text_injective {a b : MetricEntityScope} (h : a.text = b.text) : a = b := by
  have hall : ∀ a ∈ allScopes, ∀ b ∈ allScopes, a.text = b.text → a = b := by decide +kernel
  exact hall a (mem_allScopes a) b (mem_allScopes b) h

variable {field : Text}

theorem key_injective {a b : MetricEntityScope} {field' : Text} (h : key a field = key b field') :
    a = b ∧ field = field' := by
  rw [key, key] at h
  obtain ⟨rest, hb, hfield⟩ | ⟨rest, ha, hfield⟩ := append_eq_append_iff.1 h
  · cases rest with
    | nil =>
      rw [append_nil] at hb
      rw [nil_append] at hfield
      exact ⟨(text_injective hb).symm, (List.cons.inj hfield).2⟩
    | cons c rest =>
      rw [cons_append] at hfield
      cases hfield
      refine absurd ⟨rest, ?_⟩ (not_prefix_dot a b)
      rw [hb, append_assoc]
      rfl
  · cases rest with
    | nil =>
      rw [append_nil] at ha
      rw [nil_append] at hfield
      exact ⟨text_injective ha, (List.cons.inj hfield).2.symm⟩
    | cons c rest =>
      rw [cons_append] at hfield
      cases hfield
      refine absurd ⟨rest, ?_⟩ (not_prefix_dot b a)
      rw [ha, append_assoc]
      rfl

theorem exists_def_of_slot {scope : MetricEntityScope} {slot : V12Slot}
    (h : v12HostSlotFor scope field = some slot) : ∃ id d, slot.family.doubles[slot.doubleIndex]? = some (some id) ∧
      (id, d) ∈ doubleDefs ∧ defOf id = some d ∧ d.ref = some (scope, field) := by
  rw [v12HostSlotFor, slotByRef, Map.get?_ofEntries_eq_getLast?] at h
  obtain ⟨⟨text, found⟩, hlast, hfound⟩ := map_eq_some_iff.1 h
  obtain rfl : found = slot := hfound
  obtain ⟨hmem, hkey⟩ := mem_filter.1 (mem_of_getLast? hlast)
  obtain ⟨family, -, hslot⟩ := mem_flatMap.1 hmem
  rw [slotsOf, mem_filterMap] at hslot
  obtain ⟨⟨id, doubleIndex⟩, hindex, hentry⟩ := hslot
  obtain ⟨ref, href, heq⟩ := map_eq_some_iff.1 hentry
  obtain ⟨hd, rfl⟩ := Prod.mk.inj heq
  obtain ⟨d, hdef, hd'⟩ := bind_eq_some_iff.1 href
  obtain ⟨id, rfl, hid⟩ := bind_eq_some_iff.1 hdef
  obtain ⟨hscope, hfield⟩ := key_injective (hd.trans (of_decide_eq_true hkey))
  obtain ⟨before, after, htable, -⟩ := lookup_eq_some_iff.1 hid
  refine ⟨id, d, mk_mem_zipIdx_iff_getElem?.1 hindex, ?_, hid, ?_⟩
  · rw [htable]
    exact mem_append_right before mem_cons_self
  · rw [hd', ← hscope, ← hfield]

theorem exists_slot {family : V12HostFamily} {doubleIndex : ℕ} {id : Text} {d : DoubleDef} {scope : MetricEntityScope}
    {field : Text} (hfamily : family ∈ v12HostFamilies) (hid : family.doubles[doubleIndex]? = some (some id))
    (hdef : defOf id = some d) (href : d.ref = some (scope, field)) : ∃ slot, v12HostSlotFor scope
        field = some slot := by
  have hslot : (key scope field, (⟨family, doubleIndex⟩ : V12Slot)) ∈ slotsOf family := by
    rw [slotsOf, mem_filterMap]
    refine ⟨(some id, doubleIndex), mk_mem_zipIdx_iff_getElem?.2 hid, ?_⟩
    dsimp only
    rw [bind_some, hdef, bind_some, href]
    rfl
  have hmem : (key scope field, (⟨family, doubleIndex⟩ : V12Slot)) ∈
      (v12HostFamilies.flatMap slotsOf).filter fun entry => decide (entry.1 = key scope field) :=
    mem_filter.2 ⟨mem_flatMap_of_mem hfamily hslot, decide_eq_true rfl⟩
  rw [v12HostSlotFor, slotByRef, Map.get?_ofEntries_eq_getLast?, getLast?_eq_some_getLast (ne_nil_of_mem hmem)]
  exact ⟨_, rfl⟩

/-! ## Where the readings lie -/

/-- The scopes that describe the host and not one of its devices or sources. -/
def MetricEntityScope.hostWide : MetricEntityScope → Bool
  | .network | .filesystem | .block | .gpu | .hardwareSignal | .ingress | .databaseProxy => false
  | _ => true

/-- The readings of the engines that are stored. -/
def engineFields : List (StorageEngine × Text) :=
  [.postgres, .mysql, .mariadb].flatMap fun engine =>
    [(engine, "instancesRunning".toList), (engine, "instancesHealthy".toList)]

def engineFieldOf (field : Text) : Option (StorageEngine × Text) :=
  engineFields.find? fun e => decide (storageEngineFieldName e.1 e.2 = field)

/-- The reading of a field that lies one level below its scope's group. -/
def nestedReading (sample : MetricsSample ν) (scope : MetricEntityScope) (field : Text) : Option ν :=
  match scope with
  | .diagnostics => num (sample.diagnostics.map (· .memory)) field
  | .storage => (engineFieldOf field).bind fun e => num (sample.storage.map (·.engine e.1)) e.2
  | _ => none

/-- What is so of each entry of the table: a flat name is not an engine's, an engine's is not flat,
the diagnostics are of the memory half, and the reclaimable total is not read as a plain field. -/
def DoubleDef.placed : DoubleDef → Bool
  | .diagnostics half _ => half = .memory
  | .sampleScope .storage field => engineFieldOf field = none
  | .engineField engine field => engineFieldOf (storageEngineFieldName engine field) = some (engine, field) &&
      decide (storageEngineFieldName engine field ∉ storageFlatFieldNames)
  | .extended .docker field => field ≠ "reclaimableBytes".toList
  | _ => true

variable {d : DoubleDef}

theorem placed_of_mem {id : Text} (h : (id, d) ∈ doubleDefs) : d.placed = true := by
  have hall : ∀ e ∈ doubleDefs, e.2.placed = true := by decide +kernel
  exact hall _ h

theorem extendedDockerRecord_of_ne (sample : MetricsSample ν) (h : field ≠ "reclaimableBytes".toList) :
    num (extendedDockerRecord sample) field = num (sample.section? .docker) field := by
  rw [extendedDockerRecord]
  have hrecord : ((sample.section? .docker).getD fun _ => none) field = num (sample.section? .docker) field := by
    cases sample.section? .docker with
    | none => rfl
    | some docker => rfl
  split
  · rename_i hdocker _
    rw [hdocker]
  · dsimp only
    split
    · split
      · exact hrecord
      · exact (if_neg h).trans hrecord
    · exact hrecord

theorem extendedDockerRecord_reclaimable (sample : MetricsSample ν) :
    num (extendedDockerRecord sample) "reclaimableBytes".toList =
      dockerReclaimableBytes (sample.section? .docker) sample.dockerUsage := by
  have hsum : ∀ (record : FieldRecord ν) (usage : FieldRecord ν), record "reclaimableBytes".toList = none →
      num (if (reclaimableParts usage).isEmpty then some record
        else some fun field =>
          if field = "reclaimableBytes".toList then some (total (reclaimableParts usage)) else record field)
        "reclaimableBytes".toList =
      if (reclaimableParts usage).isEmpty then none else some (total (reclaimableParts usage)) := by
    intro record usage hnone
    split
    · exact hnone
    · rw [num, bind_some]
      exact if_pos rfl
  rw [extendedDockerRecord, dockerReclaimableBytes]
  cases sample.section? .docker with
  | none =>
    cases sample.dockerUsage with
    | none => rfl
    | some usage => exact hsum _ usage rfl
  | some docker =>
    have hnum : num (some docker) "reclaimableBytes".toList = docker "reclaimableBytes".toList := rfl
    rw [hnum]
    cases hown : docker "reclaimableBytes".toList with
    | some own =>
      cases sample.dockerUsage with
      | none =>
        simp only [getD_some, hown]
        exact hown
      | some usage =>
        simp only [getD_some, hown]
        exact hown
    | none =>
      cases sample.dockerUsage with
      | none =>
        simp only [getD_some, hown]
        exact hown
      | some usage =>
        simp only [getD_some, hown]
        exact hsum docker usage hown

/-! ## Agreement -/

/-- The number that a host row holds at a slot. -/
def storedAt (ctx : V12Context ν) (slot : V12Slot) : Option ν :=
  ((v12HostRowValues slot.family ctx).doubles[slot.doubleIndex]?).join

theorem storedAt_eq_read (ctx : V12Context ν) {slot : V12Slot} {id : Text}
    (hid : slot.family.doubles[slot.doubleIndex]? = some (some id)) (hdef : defOf id = some d) :
    storedAt ctx slot = d.read ctx := by
  rw [storedAt, getElem?_v12HostRowValues hid hdef]
  rfl

theorem overlay_eq_read_iff (ctx : V12Context ν) {scope : MetricEntityScope}
    (hplaced : d.placed = true) (href : d.ref = some (scope, field)) (hwide : scope.hostWide = true) :
    num (hostGroupForScope ctx.sample scope) field = d.read ctx ↔ nestedReading ctx.sample scope field = none := by
  cases d with
  | hostField group name =>
    cases href
    exact iff_of_true rfl rfl
  | «extended» part name =>
    cases href
    cases part with
    | docker => exact iff_of_true (extendedDockerRecord_of_ne ctx.sample (of_decide_eq_true hplaced)) rfl
    | host => exact iff_of_true rfl rfl
    | ingress => exact iff_of_true rfl rfl
    | sizes => exact iff_of_true rfl rfl
  | diagnostics half name =>
    cases href
    obtain rfl : half = .memory := of_decide_eq_true hplaced
    have hoverlay : num (hostGroupForScope ctx.sample .diagnostics) field = none := by
      rw [hostGroupForScope]
      cases ctx.sample.diagnostics with
      | none => rfl
      | some diagnostics => rfl
    rw [hoverlay]
    exact eq_comm
  | sampleScope scope' name =>
    cases href
    cases scope' with
    | router => exact iff_of_true rfl rfl
    | dockerUsage => exact iff_of_true rfl rfl
    | storage =>
      refine iff_of_true rfl ?_
      change (engineFieldOf field).bind _ = none
      rw [of_decide_eq_true hplaced]
      rfl
  | engineField engine name =>
    cases href
    rw [DoubleDef.placed, Bool.and_eq_true, decide_eq_true_eq, decide_eq_true_eq] at hplaced
    have hoverlay : num (hostGroupForScope ctx.sample .storage) (storageEngineFieldName engine name) = none := by
      rw [hostGroupForScope]
      cases ctx.sample.storage with
      | none => rfl
      | some storage => exact if_neg hplaced.2
    have hnested : nestedReading ctx.sample .storage (storageEngineFieldName engine name) =
        num (ctx.sample.storage.map (·.engine engine)) name := by
      rw [nestedReading, hplaced.1]
      rfl
    rw [hoverlay, hnested]
    exact eq_comm
  | reclaimableTotal =>
    cases href
    exact iff_of_true (extendedDockerRecord_reclaimable ctx.sample) rfl
  | ingressField name =>
    cases href
    cases hwide
  | proxyField name =>
    cases href
    cases hwide
  | embeddedNic0 key => cases href
  | embeddedNic1 key => cases href
  | foldedFilesystemField name => cases href
  | foldedFilesystemSize name => cases href

/-- **The overlay reports what the row stores**, for a host-wide metric with a slot, exactly if the
reading does not lie one level below the group of its scope, or is null there. -/
theorem hostValuesFromSample_eq_stored_iff {descriptors : Text → Option HostMetricsMetricDescriptor}
    {descriptor : HostMetricsMetricDescriptor} {metrics : List Text} {name : Text} {slot : V12Slot}
    (hname : name ∈ metrics) (hdescriptor : descriptors name = some descriptor)
    (hwide : descriptor.entityScope.hostWide = true)
    (hslot : v12HostSlotFor descriptor.entityScope descriptor.fieldName = some slot) (ctx : V12Context ν) :
    (hostValuesFromSample descriptors ctx.sample metrics).get? name = some (storedAt ctx slot) ↔
      nestedReading ctx.sample descriptor.entityScope descriptor.fieldName = none := by
  obtain ⟨id, d, hid, hmem, hdef, href⟩ := exists_def_of_slot hslot
  rw [get?_hostValuesFromSample hname hdescriptor, storedAt_eq_read ctx hid hdef, Option.some.injEq]
  exact overlay_eq_read_iff ctx (placed_of_mem hmem) href hwide

/-! ## The committed memory -/

/-- A sample whose one reading is the committed memory. -/
def committedSample : MetricsSample ℕ where
  serverId := []
  sampledAt := []
  sequence := 0
  intervalSeconds := 60
  capabilityPlanGeneration := none
  host _ _ := none
  diagnostics := some fun half field =>
    if half = .memory ∧ field = "committedAsBytes".toList then some 4096 else none
  router := none
  storage := none
  dockerUsage := none
  extended := none
  networks := []
  filesystems := []
  blockDevices := []
  gpus := []
  hardwareSignals := []
  ingressSources := []
  databaseProxies := []
  events := []

def committedContext : V12Context ℕ := ⟨committedSample, none, none, none, none, none⟩

def committedDescriptor : HostMetricsMetricDescriptor := ⟨.diagnostics, "committedAsBytes".toList⟩

/-- The CPU's busy share, which lies in its scope's group. -/
def busyDescriptor : HostMetricsMetricDescriptor := ⟨.host .cpu, "busyPercent".toList⟩

theorem exists_slot_committed : ∃ slot, v12HostSlotFor .diagnostics "committedAsBytes".toList = some slot :=
  have hdef : defOf "dCommit".toList = some (.diagnostics .memory "committedAsBytes".toList) := by decide +kernel
  @exists_slot .hostSystem 17 _ _ _ _ mem_cons_self rfl hdef rfl

theorem exists_slot_busy : ∃ slot, v12HostSlotFor (.host .cpu) "busyPercent".toList = some slot :=
  have hdef : defOf "busy".toList = some (.hostField .cpu "busyPercent".toList) := by decide +kernel
  @exists_slot .hostSystem 0 _ _ _ _ mem_cons_self rfl hdef rfl

theorem busy_overlay_eq_stored : ∃ slot, v12HostSlotFor (.host .cpu) "busyPercent".toList = some slot ∧
    ((hostValuesFromSample (fun _ => some busyDescriptor) committedSample [[]]).get? [] =
        some (storedAt committedContext slot) ↔
      nestedReading committedSample (.host .cpu) "busyPercent".toList = none) := by
  obtain ⟨slot, hslot⟩ := exists_slot_busy
  exact ⟨slot, hslot, @hostValuesFromSample_eq_stored_iff ℕ _ _ (fun _ => some busyDescriptor) busyDescriptor [[]] []
    slot mem_cons_self rfl rfl hslot committedContext⟩

/-- The overlay looks for committed memory beside the object it is in. -/
theorem committed_overlay_ne_stored : ¬∀ (ctx : V12Context ℕ) (descriptor : HostMetricsMetricDescriptor)
    (slot : V12Slot), descriptor.entityScope.hostWide = true →
    v12HostSlotFor descriptor.entityScope descriptor.fieldName = some slot →
    (hostValuesFromSample (fun _ => some descriptor) ctx.sample [[]]).get? [] = some (storedAt ctx slot) := by
  intro h
  obtain ⟨slot, hslot⟩ := exists_slot_committed
  have hagrees := h committedContext committedDescriptor slot rfl hslot
  obtain ⟨id, d, hid, hmem, hdef, href⟩ := exists_def_of_slot hslot
  rw [@get?_hostValuesFromSample ℕ _ _ (fun _ => some committedDescriptor) committedDescriptor _ _ _
      mem_cons_self rfl,
    storedAt_eq_read committedContext hid hdef, Option.some.injEq] at hagrees
  have hnested := (overlay_eq_read_iff committedContext (placed_of_mem hmem) href rfl).1 hagrees
  have hreading : nestedReading committedContext.sample .diagnostics "committedAsBytes".toList = some 4096 :=
    show (if DiagnosticsHalf.memory = .memory ∧ "committedAsBytes".toList = "committedAsBytes".toList then some 4096
      else none) = some 4096 from if_pos ⟨rfl, rfl⟩
  exact absurd (hreading.symm.trans hnested) nofun

end TurboPanel.Metrics
