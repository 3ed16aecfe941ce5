import TurboPanel.Metrics.RowPoints

/-!
# The hosted rows lose and mix up nothing

What a validated sample's rows hold: every device of a family once, its readings and texts in the
cells of its position, at most 250 rows (`LosesNothing`). A row names its entities by their ids
joined with commas, and every reader splits that text, so all of it holds exactly if no paged
entity's id has a comma (`losesNothing_iff`).
-/

namespace TurboPanel.Metrics

open Js Data List

variable {ν : Type}

/-! ## Validated samples -/

def maxMetricEntityArrayLength : ℕ := 64

def maxMetricEventsPerSample : ℕ := 16

/-- The sentinel is negative, and numbers that are not have a sum that is not. -/
structure Writer.Sound [Add ν] [Zero ν] [LE ν] (w : Writer ν) : Prop where
  sentinel : ¬0 ≤ w.sentinel
  add : ∀ a b : ν, 0 ≤ a → 0 ≤ b → 0 ≤ a + b

/-- An id that is not empty and readings that are not negative. -/
def Entity.Validated [Zero ν] [LE ν] (entity : Entity ν) : Prop :=
  entity.id ≠ [] ∧ ∀ field value, entity.fields field = some value → 0 ≤ value

structure MetricsSample.Validated [Zero ν] [LE ν] (sample : MetricsSample ν) : Prop where
  networks_length : sample.networks.length ≤ maxMetricEntityArrayLength
  filesystems_length : sample.filesystems.length ≤ maxMetricEntityArrayLength
  blockDevices_length : sample.blockDevices.length ≤ maxMetricEntityArrayLength
  gpus_length : sample.gpus.length ≤ maxMetricEntityArrayLength
  hardwareSignals_length : sample.hardwareSignals.length ≤ maxMetricEntityArrayLength
  events_length : sample.events.length ≤ maxMetricEventsPerSample
  networks : ∀ d ∈ sample.networks, d.Validated
  filesystems : ∀ fs ∈ sample.filesystems, fs.Validated
  blockDevices : ∀ d ∈ sample.blockDevices, d.Validated
  gpus : ∀ g ∈ sample.gpus, g.Validated
  hardwareSignals : ∀ s ∈ sample.hardwareSignals, s.toEntity.Validated

/-- Within each family, no two devices have one id. -/
structure MetricsSample.DistinctIds (sample : MetricsSample ν) : Prop where
  networks : (sample.networks.map Entity.id).Nodup
  filesystems : (sample.filesystems.map Entity.id).Nodup
  blockDevices : (sample.blockDevices.map Entity.id).Nodup
  gpus : (sample.gpus.map Entity.id).Nodup
  hardwareSignals : (sample.hardwareSignals.map (·.id)).Nodup

/-! ## What the rows hold -/

/-- The three readings of an embedded network device, from a slot on. -/
def EmbeddedAt [Add ν] [Zero ν] (w : Writer ν) (row : AnalyticsEngineDataPoint ν) (first : ℕ)
    (nic : Option (Entity ν)) : Prop :=
  row.doubles[first]? = some (nullToSentinel w (embeddedNic nic .rx)) ∧
    row.doubles[first + 1]? = some (nullToSentinel w (embeddedNic nic .tx)) ∧
    row.doubles[first + 2]? = some (nullToSentinel w (embeddedNic nic .problems))

/-- The ids that the rows of a family name. -/
def rowIds (family : V12EntityFamily) (points : List (AnalyticsEngineDataPoint ν)) : List Text :=
  (rowsOf family.text points).flatMap idsOf

structure LosesNothing [Add ν] [Zero ν] (w : Writer ν) (sample : MetricsSample ν) (slotMapping : Option SlotMapping)
    (points : List (AnalyticsEngineDataPoint ν)) : Prop where
  length_le : points.length ≤ aeMaxDataPointsPerInvocation
  /-- The cap drops nothing. -/
  uncapped : metricsDataPoints w sample slotMapping = some points
  /-- Each device that is not of the mesh stands once, embedded or in a page. -/
  networks : ((((resolveNetworkSlots sample.networks slotMapping).nic0.toList ++
    (resolveNetworkSlots sample.networks slotMapping).nic1.toList).map Entity.id) ++ rowIds .network points).Perm
      ((sample.networks.filter fun device => !isMesh slotMapping device.id).map Entity.id)
  blocks : (rowIds .block points).Perm
    (if 1 < sample.blockDevices.length then sample.blockDevices.map Entity.id else [])
  filesystems : (rowIds .filesystem points).Perm
    (if 1 < sample.filesystems.length then sample.filesystems.map Entity.id else [])
  gpus : (rowIds .gpu points).Perm (sample.gpus.map Entity.id)
  hardwareSignals : (rowIds .hardwarePhysical points).Perm (sample.hardwareSignals.map (·.id))
  /-- The one `host.network` row has the embedded devices. -/
  embedded : ∃ row, rowsOf V12HostFamily.hostNetwork.text points = [row] ∧
    EmbeddedAt w row 1 (resolveNetworkSlots sample.networks slotMapping).nic0 ∧
    EmbeddedAt w row 4 (resolveNetworkSlots sample.networks slotMapping).nic1
  /-- The one `host.io` row has a lone filesystem. -/
  folded : ∀ fs, sample.filesystems = [fs] → ∃ row, rowsOf V12HostFamily.hostIo.text points = [row] ∧
    row.doubles[11]? = some (nullToSentinel w (fs.fields "availableBytes".toList)) ∧
    row.doubles[12]? = some (nullToSentinel w (filesystemSizeOf sample fs.id "totalBytes".toList)) ∧
    row.doubles[13]? = some (nullToSentinel w (fs.fields "freeInodes".toList)) ∧
    row.doubles[14]? = some (nullToSentinel w (filesystemSizeOf sample fs.id "totalInodes".toList))
  placedBlocks : Placed w sample blockSpec .block sample.blockDevices points
  placedNetworks : Placed w sample (networkSpec w) .network sample.networks points
  placedFilesystems : Placed w sample (filesystemSpec w) .filesystem sample.filesystems points
  placedGpus : Placed w sample (gpuSpec w) .gpu sample.gpus points
  placedHardwareSignals : Placed w sample signalSpec .hardwarePhysical sample.hardwareSignals points
  /-- No cell of one entity is a cell of another. -/
  apart : ∀ width position position' i j, i < width → j < width →
    slotDoubleIndex width position i = slotDoubleIndex width position' j → position = position' ∧ i = j

/-- The ids of the devices that have rows of their own. -/
def pagedIds (sample : MetricsSample ν) (slotMapping : Option SlotMapping) : List Text :=
  (pagedNetworks sample.networks slotMapping).map Entity.id ++
    (if 1 < sample.blockDevices.length then sample.blockDevices.map Entity.id else []) ++
    (if 1 < sample.filesystems.length then sample.filesystems.map Entity.id else []) ++
    sample.gpus.map Entity.id ++ sample.hardwareSignals.map (·.id)

/-! ## Counting -/

section

variable {sample : MetricsSample ν} {slotMapping : Option SlotMapping}

theorem blocks_perm (hids : sample.DistinctIds) : (blocks sample slotMapping).Perm
    (if 1 < sample.blockDevices.length then sample.blockDevices else []) := by
  rw [blocks]
  split
  · exact orderByPageOrder_perm hids.blockDevices _
  · exact List.Perm.refl []

theorem filesystems_perm (hids : sample.DistinctIds) : (filesystems sample slotMapping).Perm
    (if 1 < sample.filesystems.length then sample.filesystems else []) := by
  rw [filesystems]
  split
  · exact orderByPageOrder_perm hids.filesystems _
  · exact List.Perm.refl []

theorem length_if_le {α : Type} (p : Prop) [Decidable p] {l : List α} {n : ℕ} (h : l.length ≤ n) :
    (if p then l else []).length ≤ n := by
  split
  · exact h
  · exact Nat.zero_le n

theorem length_pagedNetworks_le (networks : List (Entity ν)) :
    (pagedNetworks networks slotMapping).length ≤ networks.length := by
  cases slotMapping with
  | none => exact (drop_sublist _ networks).length_le
  | some slots => exact length_filter_le _ _

variable [Add ν] [Zero ν] (w : Writer ν)

theorem length_familyRows_le [LE ν] (hvalid : sample.Validated) (hids : sample.DistinctIds)
    (hsound : ∀ slots ∈ slotMapping, slots.Sound) (family : V12EntityFamily) :
    (familyRows w sample slotMapping family).length ≤ 22 := by
  have hblocks : (blocks sample slotMapping).length ≤ _ := (blocks_perm hids).length_eq.le.trans
    (length_if_le (1 < sample.blockDevices.length) hvalid.blockDevices_length)
  have hnetworks := (paged_perm hids.networks hsound).length_eq.le.trans
    ((length_pagedNetworks_le sample.networks).trans hvalid.networks_length)
  have hfilesystems : (filesystems sample slotMapping).length ≤ _ := (filesystems_perm hids).length_eq.le.trans
    (length_if_le (1 < sample.filesystems.length) hvalid.filesystems_length)
  have hgpus := (orderByPageOrder_perm hids.gpus (slotMapping.map (·.gpuPageOrder))).length_eq.le.trans
    hvalid.gpus_length
  have hsignals := (orderByPageOrder_perm hids.hardwareSignals (slotMapping.map
    (·.hardwareSignalPageOrder))).length_eq.le.trans hvalid.hardwareSignals_length
  rw [maxMetricEntityArrayLength] at *
  cases family with
  | block =>
    rw [familyRows, length_pageRows]
    change (_ + 3 - 1) / 3 ≤ 22
    omega
  | network =>
    rw [familyRows, length_pageRows]
    change (_ + 3 - 1) / 3 ≤ 22
    omega
  | filesystem =>
    rw [familyRows, length_pageRows]
    change (_ + 9 - 1) / 9 ≤ 22
    omega
  | gpu =>
    rw [familyRows, length_pageRows]
    change (_ + 3 - 1) / 3 ≤ 22
    omega
  | hardwarePhysical =>
    rw [familyRows, length_pageRows]
    change (_ + 19 - 1) / 19 ≤ 22
    omega

theorem length_allRows_le [LE ν] (hvalid : sample.Validated) (hids : sample.DistinctIds)
    (hsound : ∀ slots ∈ slotMapping, slots.Sound) :
    (allRows w sample slotMapping).length ≤ aeMaxDataPointsPerInvocation := by
  have hfamily := length_familyRows_le w hvalid hids hsound
  have hhost : (hostFamilies sample).length ≤ v12HostFamilies.length := length_filter_le _ _
  have hevents := hvalid.events_length
  have hblock := hfamily .block
  have hnetwork := hfamily .network
  have hfilesystem := hfamily .filesystem
  have hgpu := hfamily .gpu
  have hsignal := hfamily .hardwarePhysical
  change _ ≤ 5 at hhost
  rw [maxMetricEventsPerSample] at hevents
  rw [allRows, aeMaxDataPointsPerInvocation]
  simp only [length_append, length_map, entityFamilies, flatMap_cons, flatMap_nil, length_nil]
  omega

theorem buildMetricsDataPoints_eq [LE ν] (hvalid : sample.Validated) (hids : sample.DistinctIds)
    (hsound : ∀ slots ∈ slotMapping, slots.Sound) :
    buildMetricsDataPoints w sample slotMapping = some (allRows w sample slotMapping) := by
  rw [buildMetricsDataPoints, metricsDataPoints_eq, Option.map_some, capToInvocationLimit,
    if_pos (length_allRows_le w hvalid hids hsound)]

end

/-! ## Readings are not the sentinel -/

section

variable [Add ν] [Zero ν] [LE ν] {w : Writer ν} (hw : w.Sound) (sample : MetricsSample ν) {entity : Entity ν}

include hw in
theorem present_of_nonneg {value : Option ν} (h : ∀ v, value = some v → 0 ≤ v) : value ≠ some w.sentinel :=
  fun heq => hw.sentinel (h _ heq)

include hw in
theorem present_blockOpsPerSecond (h : entity.Validated) : blockOpsPerSecond entity ≠ some w.sentinel := by
  refine present_of_nonneg hw fun v hv => ?_
  rw [blockOpsPerSecond] at hv
  obtain ⟨read, hread, hv⟩ := Option.bind_eq_some_iff.1 hv
  obtain ⟨write, hwrite, hv⟩ := Option.bind_eq_some_iff.1 hv
  rw [← Option.some.inj hv]
  exact hw.add read write (h.2 _ read hread) (h.2 _ write hwrite)

include hw in
theorem present_entityNum (h : entity.Validated) (field : Text) :
    (entityNum field).2 entity sample ≠ some w.sentinel := present_of_nonneg hw (h.2 field)

include hw in
theorem blockSpec_present (h : entity.Validated) : blockSpec.Present w sample entity := by
  have hnum := present_entityNum hw sample h
  intro slot hslot
  simp only [blockSpec, mem_cons, not_mem_nil, or_false] at hslot
  obtain rfl | rfl | rfl | rfl | rfl | rfl := hslot
  · exact hnum _
  · exact hnum _
  · exact present_blockOpsPerSecond hw h
  · exact hnum _
  · exact hnum _
  · exact hnum _

include hw in
theorem present_of_fields {spec : EntityRowSpec (Entity ν) ν}
    (hspec : ∀ slot ∈ spec.doubles, ∃ field, slot = entityNum field) (h : entity.Validated) :
    spec.Present w sample entity := by
  intro slot hslot
  obtain ⟨field, rfl⟩ := hspec slot hslot
  exact present_entityNum hw sample h field

include hw in
theorem networkSpec_present (h : entity.Validated) : (networkSpec w).Present w sample entity :=
  present_of_fields hw sample (by simp [networkSpec]) h

include hw in
theorem filesystemSpec_present (h : entity.Validated) : (filesystemSpec w).Present w sample entity :=
  present_of_fields hw sample (by simp [filesystemSpec]) h

include hw in
theorem gpuSpec_present (h : entity.Validated) : (gpuSpec w).Present w sample entity :=
  present_of_fields hw sample (by simp [gpuSpec]) h

include hw in
theorem signalSpec_present {signal : HardwareSignalSample ν} (h : signal.toEntity.Validated) :
    signalSpec.Present w sample signal := by
  intro slot hslot
  obtain rfl := mem_singleton.1 hslot
  exact present_of_nonneg hw (h.2 _)

end

/-! ## The host rows -/

section

variable [Add ν] [Zero ν] (w : Writer ν) (sample : MetricsSample ν) (slotMapping : Option SlotMapping)

/-- Where the numbers of single devices stand in the host rows. -/
def deviceSlots : List (V12HostFamily × ℕ × String × DoubleDef) :=
  [(.hostNetwork, 1, "nic1.rx", .embeddedNic0 .rx), (.hostNetwork, 2, "nic1.tx", .embeddedNic0 .tx),
    (.hostNetwork, 3, "nic1.problems", .embeddedNic0 .problems), (.hostNetwork, 4, "nic2.rx", .embeddedNic1 .rx),
    (.hostNetwork, 5, "nic2.tx", .embeddedNic1 .tx), (.hostNetwork, 6, "nic2.problems", .embeddedNic1 .problems),
    (.hostIo, 11, "fs_availableBytes", .foldedFilesystemField "availableBytes".toList),
    (.hostIo, 12, "fs_totalBytes", .foldedFilesystemSize "totalBytes".toList),
    (.hostIo, 13, "fs_freeInodes", .foldedFilesystemField "freeInodes".toList),
    (.hostIo, 14, "fs_totalInodes", .foldedFilesystemSize "totalInodes".toList)]

theorem hostRow_device (family : V12HostFamily) (i : ℕ) (id : String) (d : DoubleDef)
    (h : (family, i, id, d) ∈ deviceSlots) : (hostRow w sample slotMapping family).doubles[i]? =
      some (nullToSentinel w (d.read (hostContext sample slotMapping))) := by
  have hall : ∀ e ∈ deviceSlots, e.1.doubles[e.2.1]? = some (some e.2.2.1.toList) ∧
      defOf e.2.2.1.toList = some e.2.2.2 := by decide +kernel
  obtain ⟨hid, hdef⟩ := hall _ h
  exact rowPoint_double w sample (getElem?_v12HostRowValues hid hdef _) (length_v12HostRowValues family _).1.le

theorem embeddedAt_hostRow :
    EmbeddedAt w (hostRow w sample slotMapping .hostNetwork) 1 (resolveNetworkSlots sample.networks slotMapping).nic0 ∧
      EmbeddedAt w (hostRow w sample slotMapping .hostNetwork) 4
        (resolveNetworkSlots sample.networks slotMapping).nic1 := by
  have hdevice := hostRow_device w sample slotMapping .hostNetwork
  refine ⟨⟨?_, ?_, ?_⟩, ?_, ?_, ?_⟩
  · exact hdevice 1 "nic1.rx" (.embeddedNic0 .rx) (by simp [deviceSlots])
  · exact hdevice 2 "nic1.tx" (.embeddedNic0 .tx) (by simp [deviceSlots])
  · exact hdevice 3 "nic1.problems" (.embeddedNic0 .problems) (by simp [deviceSlots])
  · exact hdevice 4 "nic2.rx" (.embeddedNic1 .rx) (by simp [deviceSlots])
  · exact hdevice 5 "nic2.tx" (.embeddedNic1 .tx) (by simp [deviceSlots])
  · exact hdevice 6 "nic2.problems" (.embeddedNic1 .problems) (by simp [deviceSlots])

theorem folded_hostRow {fs : Entity ν} (h : sample.filesystems = [fs]) :
    (hostRow w sample slotMapping .hostIo).doubles[11]? =
        some (nullToSentinel w (fs.fields "availableBytes".toList)) ∧
      (hostRow w sample slotMapping .hostIo).doubles[12]? =
        some (nullToSentinel w (filesystemSizeOf sample fs.id "totalBytes".toList)) ∧
      (hostRow w sample slotMapping .hostIo).doubles[13]? =
        some (nullToSentinel w (fs.fields "freeInodes".toList)) ∧
      (hostRow w sample slotMapping .hostIo).doubles[14]? =
        some (nullToSentinel w (filesystemSizeOf sample fs.id "totalInodes".toList)) := by
  have hfolded : (hostContext sample slotMapping).foldedFilesystem = some fs := by
    rw [hostContext, buildV12Context]
    dsimp only
    rw [h]
    rfl
  have hread : ∀ field, (DoubleDef.foldedFilesystemField field).read (hostContext sample slotMapping) =
      fs.fields field := by
    intro field
    rw [DoubleDef.read, hfolded]
    rfl
  have hsize : ∀ field, (DoubleDef.foldedFilesystemSize field).read (hostContext sample slotMapping) =
      filesystemSizeOf sample fs.id field := by
    intro field
    rw [DoubleDef.read, hfolded]
    rfl
  have hdevice := hostRow_device w sample slotMapping .hostIo
  rw [← hread, ← hread, ← hsize, ← hsize]
  exact ⟨hdevice 11 "fs_availableBytes" (.foldedFilesystemField "availableBytes".toList) (by simp [deviceSlots]),
    hdevice 12 "fs_totalBytes" (.foldedFilesystemSize "totalBytes".toList) (by simp [deviceSlots]),
    hdevice 13 "fs_freeInodes" (.foldedFilesystemField "freeInodes".toList) (by simp [deviceSlots]),
    hdevice 14 "fs_totalInodes" (.foldedFilesystemSize "totalInodes".toList) (by simp [deviceSlots])⟩

end

/-! ## Exactly when nothing is lost -/

section

variable [Add ν] [Zero ν] {w : Writer ν} {sample : MetricsSample ν} {slotMapping : Option SlotMapping}

variable {points : List (AnalyticsEngineDataPoint ν)}

theorem comma_not_mem_of_losesNothing (hids : sample.DistinctIds)
    (hne : ∀ d ∈ sample.networks, d.id ≠ []) (hsound : ∀ slots ∈ slotMapping, slots.Sound)
    (h : LosesNothing w sample slotMapping points) : ∀ id ∈ pagedIds sample slotMapping, ',' ∉ id := by
  have hnamed : ∀ family, ∀ id ∈ rowIds family points, ',' ∉ id := by
    intro family id hid
    obtain ⟨row, -, hrow⟩ := mem_flatMap.1 hid
    exact comma_not_mem_idsOf hrow
  intro id hid
  rw [pagedIds, mem_append, mem_append, mem_append, mem_append] at hid
  obtain (((hnetwork | hblock) | hfilesystem) | hgpu) | hsignal := hid
  · obtain ⟨device, hdevice, rfl⟩ := mem_map.1 hnetwork
    have hpaged := (paged_perm hids.networks hsound).mem_iff.2 hdevice
    have hmesh := (resolveNetworkSlots_perm hids.networks hne hsound).mem_iff.1 (mem_append_right _ hpaged)
    obtain hembedded | hrow := mem_append.1 (h.networks.mem_iff.2 (mem_map_of_mem hmesh))
    · obtain ⟨nic, hnic, heq⟩ := mem_map.1 hembedded
      exact absurd (heq ▸ hnetwork) (not_mem_pagedNetworks hids.networks hne hnic)
    · exact hnamed .network device.id hrow
  · exact hnamed .block id (h.blocks.mem_iff.2 hblock)
  · exact hnamed .filesystem id (h.filesystems.mem_iff.2 hfilesystem)
  · exact hnamed .gpu id (h.gpus.mem_iff.2 hgpu)
  · exact hnamed .hardwarePhysical id (h.hardwareSignals.mem_iff.2 hsignal)

omit [Add ν] [Zero ν] in
theorem family_holds {ε : Type} {spec : EntityRowSpec ε ν} {family : V12EntityFamily} {entities ordered : List ε}
    (hrows : rowsOf family.text points = pageRows w sample spec family ordered) (hperm : ordered.Perm entities)
    (hfits : spec.Fits) (hpresent : ∀ entity ∈ entities, spec.Present w sample entity)
    (hcomma : ∀ id ∈ entities.map spec.idOf, ',' ∉ id) :
    (rowIds family points).Perm (entities.map spec.idOf) ∧ Placed w sample spec family entities points := by
  have hordered : ∀ entity ∈ ordered, ',' ∉ spec.idOf entity := fun entity hentity =>
    hcomma _ (mem_map_of_mem (hperm.mem_iff.1 hentity))
  constructor
  · rw [rowIds, hrows, flatMap_idsOf_pageRows w sample hfits hordered]
    exact hperm.map spec.idOf
  · intro row hrow position id hid
    rw [hrows] at hrow
    obtain ⟨entity, hentity, hat⟩ := placed_pageRows w sample hfits hordered
      (fun entity hentity => hpresent entity (hperm.mem_iff.1 hentity)) hrow hid
    exact ⟨entity, hperm.mem_iff.1 hentity, hat⟩

omit [Add ν] [Zero ν] in
theorem Placed.mono {ε : Type} {spec : EntityRowSpec ε ν} {family : V12EntityFamily} {entities more : List ε}
    (h : Placed w sample spec family entities points)
    (hmore : ∀ entity ∈ entities, entity ∈ more) : Placed w sample spec family more points := by
  intro row hrow position id hid
  obtain ⟨entity, hentity, hat⟩ := h row hrow position id hid
  exact ⟨entity, hmore entity hentity, hat⟩

theorem mem_of_mem_if {α : Type} {p : Prop} [Decidable p] {l : List α} {a : α} (h : a ∈ if p then l else []) :
    a ∈ l := by
  split at h
  · exact h
  · cases h

theorem map_if {α β : Type} (p : Prop) [Decidable p] (f : α → β) (l : List α) :
    (if p then l else []).map f = if p then l.map f else [] := by
  split
  · rfl
  · rfl

variable [LE ν]

/-- **The hosted rows lose and mix up nothing**, for a validated sample, exactly if no paged
entity's id has a comma. -/
theorem losesNothing_iff (hw : w.Sound) (hvalid : sample.Validated) (hids : sample.DistinctIds)
    (hsound : ∀ slots ∈ slotMapping, slots.Sound) :
    (∃ points, buildMetricsDataPoints w sample slotMapping = some points ∧ LosesNothing w sample slotMapping points) ↔
      ∀ id ∈ pagedIds sample slotMapping, ',' ∉ id := by
  have hne : ∀ d ∈ sample.networks, d.id ≠ [] := fun d hd => (hvalid.networks d hd).1
  constructor
  · rintro ⟨points, -, h⟩
    exact comma_not_mem_of_losesNothing hids hne hsound h
  · intro hcomma
    simp only [pagedIds, mem_append, or_imp, forall_and] at hcomma
    obtain ⟨⟨⟨⟨hnetworks, hblocks⟩, hfilesystems⟩, hgpus⟩, hsignals⟩ := hcomma
    rw [← map_if (1 < sample.blockDevices.length)] at hblocks
    rw [← map_if (1 < sample.filesystems.length)] at hfilesystems
    have hrows := rowsOf_allRows w sample slotMapping
    obtain ⟨hblockIds, hblockPlaced⟩ := family_holds (hrows .block) (blocks_perm hids) blockSpec_fits
      (fun d hd => blockSpec_present hw sample (hvalid.blockDevices d (mem_of_mem_if hd))) hblocks
    obtain ⟨hnetworkIds, hnetworkPlaced⟩ := family_holds (hrows .network) (paged_perm hids.networks hsound)
      (networkSpec_fits w) (fun d hd => networkSpec_present hw sample
        (hvalid.networks d (mem_of_mem_pagedNetworks hd))) hnetworks
    obtain ⟨hfilesystemIds, hfilesystemPlaced⟩ := family_holds (hrows .filesystem) (filesystems_perm hids)
      (filesystemSpec_fits w) (fun fs hfs => filesystemSpec_present hw sample
        (hvalid.filesystems fs (mem_of_mem_if hfs))) hfilesystems
    obtain ⟨hgpuIds, hgpuPlaced⟩ := family_holds (hrows .gpu) (orderByPageOrder_perm hids.gpus _) (gpuSpec_fits w)
      (fun g hg => gpuSpec_present hw sample (hvalid.gpus g hg)) hgpus
    obtain ⟨hsignalIds, hsignalPlaced⟩ := family_holds (hrows .hardwarePhysical)
      (orderByPageOrder_perm hids.hardwareSignals _) signalSpec_fits
      (fun s hs => signalSpec_present hw sample (hvalid.hardwareSignals s hs)) hsignals
    rw [map_if] at hblockIds hfilesystemIds
    refine ⟨allRows w sample slotMapping, buildMetricsDataPoints_eq w hvalid hids hsound,
      length_allRows_le w hvalid hids hsound, metricsDataPoints_eq w sample slotMapping, ?_, hblockIds, hfilesystemIds,
      hgpuIds, hsignalIds, ?_, ?_, hblockPlaced.mono fun d hd => mem_of_mem_if hd,
      hnetworkPlaced.mono fun d hd => mem_of_mem_pagedNetworks hd, hfilesystemPlaced.mono fun fs
          hfs => mem_of_mem_if hfs,
      hgpuPlaced, hsignalPlaced, fun width position position' i j hi hj h => cell_injective hi hj h⟩
    · refine (hnetworkIds.append_left _).trans ?_
      refine (((paged_perm hids.networks hsound).map Entity.id).symm.append_left _).trans ?_
      rw [← map_append]
      exact (resolveNetworkSlots_perm hids.networks hne hsound).map Entity.id
    · exact ⟨_, rowsOf_allRows_host w sample slotMapping nofun, embeddedAt_hostRow w sample slotMapping⟩
    · intro fs hfs
      exact ⟨_, rowsOf_allRows_host w sample slotMapping nofun, folded_hostRow w sample slotMapping hfs⟩

end

/-! ## Hosts -/

/-- `Date.parse`, of the two ways that one time is written. -/
def parseNoon (text : Text) : Option ℤ :=
  if text = "2026-10-05T12:00:00.000Z".toList ∨ text = "2026-10-05T12:00:00Z".toList then some 1791201600000 else none

def integerWriter : Writer ℤ := ⟨-1, intText, parseNoon⟩

theorem integerWriter_sound : integerWriter.Sound := ⟨by decide, fun _ _ => Int.add_nonneg⟩

/-- A sample that names one GPU and has no reading. -/
def oneGpuSample (gpuId : Text) : MetricsSample ℤ where
  serverId := []
  sampledAt := []
  sequence := 0
  intervalSeconds := 60
  capabilityPlanGeneration := none
  host _ _ := none
  diagnostics := none
  router := none
  storage := none
  dockerUsage := none
  extended := none
  networks := []
  filesystems := []
  blockDevices := []
  gpus := [⟨gpuId, fun _ => none⟩]
  hardwareSignals := []
  ingressSources := []
  databaseProxies := []
  events := []

theorem oneGpuSample_validated {gpuId : Text} (h : gpuId ≠ []) : (oneGpuSample gpuId).Validated where
  networks_length := Nat.zero_le _
  filesystems_length := Nat.zero_le _
  blockDevices_length := Nat.zero_le _
  gpus_length := by
    change 1 ≤ maxMetricEntityArrayLength
    decide
  hardwareSignals_length := Nat.zero_le _
  events_length := Nat.zero_le _
  networks := nofun
  filesystems := nofun
  blockDevices := nofun
  gpus g hg := by
    obtain rfl := mem_singleton.1 hg
    exact ⟨h, nofun⟩
  hardwareSignals := nofun

theorem oneGpuSample_distinctIds (gpuId : Text) : (oneGpuSample gpuId).DistinctIds :=
  ⟨nodup_nil, nodup_nil, nodup_nil, nodup_singleton gpuId, nodup_nil⟩

/-- A device whose readings all have one value, but for one that is null. -/
def deviceReading (id : String) (value : ℤ) : Entity ℤ :=
  ⟨id.toList, fun field => if field = "temperatureCelsius".toList then none else some value⟩

theorem deviceReading_validated {id : String} {value : ℤ} (hid : id.toList ≠ []) (hvalue : 0 ≤ value) :
    (deviceReading id value).Validated := by
  refine ⟨hid, fun field value' hfield => ?_⟩
  change (if _ then none else some value) = some value' at hfield
  split at hfield
  · cases hfield
  · exact Option.some.inj hfield ▸ hvalue

/-- A host with devices of every family: a network device of the mesh, two that are embedded and two
that are paged, four drives, a lone filesystem, and two GPUs. -/
def busyHost : MetricsSample ℤ :=
  { oneGpuSample "gpu0".toList with
    networks := [deviceReading "eth0" 10, deviceReading "wg0" 11, deviceReading "eth1" 12, deviceReading "eth2" 13,
      deviceReading "eth3" 14]
    filesystems := [deviceReading "/data" 500]
    blockDevices := [deviceReading "sda" 1, deviceReading "sdb" 2, deviceReading "sdc" 3, deviceReading "sdd" 4]
    gpus := [deviceReading "gpu0" 20, deviceReading "gpu1" 21]
    hardwareSignals := [⟨deviceReading "fan0" 900, "fan".toList⟩, ⟨deviceReading "fan1" 901, "fan".toList⟩] }

/-- The mapping embeds the third device first, and has an id that no device has. -/
def busySlots : SlotMapping where
  normalNicSlots := ["eth1".toList, "eth0".toList]
  fabricDeviceIds := ["wg0".toList]
  blockPageOrder := ["sdd".toList, "gone".toList, "sda".toList]
  filesystemPageOrder := []
  gpuPageOrder := ["gpu1".toList]
  hardwareSignalPageOrder := []

theorem busyHost_validated : busyHost.Validated where
  networks_length := by decide
  filesystems_length := by decide
  blockDevices_length := by decide
  gpus_length := by decide
  hardwareSignals_length := by decide
  events_length := by decide
  networks := by simp [busyHost, deviceReading_validated]
  filesystems := by simp [busyHost, deviceReading_validated]
  blockDevices := by simp [busyHost, deviceReading_validated]
  gpus := by simp [busyHost, deviceReading_validated]
  hardwareSignals := by simp [busyHost, deviceReading_validated]

theorem losesNothing_busyHost : ∃ points,
    buildMetricsDataPoints integerWriter busyHost (some busySlots) = some points ∧
      LosesNothing integerWriter busyHost (some busySlots) points := by
  refine (losesNothing_iff integerWriter_sound busyHost_validated ?_ fun slots hslots => ?_).2 (by decide)
  · exact ⟨by decide, by decide, by decide, by decide, by decide⟩
  · cases hslots
    exact ⟨by decide, by decide, by decide, by decide, by decide, by decide, by decide⟩

/-- A GPU whose id has a comma is not read back. -/
theorem gpu_with_comma_lost : ¬∀ (sample : MetricsSample ℤ) (slotMapping : Option SlotMapping), sample.Validated →
    sample.DistinctIds → (∀ slots ∈ slotMapping, slots.Sound) →
    ∃ points, buildMetricsDataPoints integerWriter sample slotMapping = some points ∧
      LosesNothing integerWriter sample slotMapping points := by
  intro h
  obtain ⟨points, -, hpoints⟩ := h (oneGpuSample "gpu,0".toList) none (oneGpuSample_validated (by decide))
    (oneGpuSample_distinctIds _) (by simp)
  exact comma_not_mem_of_losesNothing (oneGpuSample_distinctIds _) nofun (by simp) hpoints "gpu,0".toList (by decide)
    (by decide)

end TurboPanel.Metrics
