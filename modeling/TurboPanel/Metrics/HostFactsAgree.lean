import TurboPanel.Metrics.StoredFacts

/-!
# Both stores tell the same facts

The hosted store says of a device what the first entry of its id says, if the device has a row of
its own or is an embedded network device that the reader recognises. The self-hosted store says what
every entry says. So the two agree, whatever the order of the rows, exactly if a lone drive has no
text, a lone filesystem no size, an embedded network device with a line terminator in its id no
speed, and no second entry of a device says anything (`factsAgree_iff`).
-/

namespace TurboPanel.Metrics

open Js Data List

variable {ν : Type}

/-! ## Agreement -/

/-- The same facts, up to the order of each device list. -/
structure HostFacts.Agree (a b : HostFacts ν) : Prop where
  text : a.text = b.text
  blockDevices : a.blockDevices.Perm b.blockDevices
  gpus : a.gpus.Perm b.gpus
  filesystems : a.filesystems.Perm b.filesystems
  networks : a.networks.Perm b.networks

/-- Whatever the answer for the rows of a sample, it tells the facts that the sample carries. -/
def FactsAgree [Add ν] [Zero ν] [LE ν] [DecidableLE ν] (w : Writer ν) (r : Reader ν)
    (sample : MetricsSample ν) : Prop :=
  ∃ points, buildMetricsDataPoints w sample none = some points ∧ ∀ rows,
    Answers sample.serverId points rows →
    (parseHostFactsRows r rows).facts.Agree (hostFactsFromSample r sample)

/-- Ids that can be joined, entries of devices that the sample has, sizes that are safe integers,
and versions of databases only with database data. -/
structure MetricsSample.Clear [NatCast ν] (sample : MetricsSample ν) : Prop where
  networks : ∀ d ∈ sample.networks, ',' ∉ d.id ∧ ';' ∉ d.id
  filesystems : ∀ fs ∈ sample.filesystems, ',' ∉ fs.id ∧ ';' ∉ fs.id
  blockDevices : ∀ d ∈ sample.blockDevices, ',' ∉ d.id ∧ ';' ∉ d.id
  gpus : ∀ g ∈ sample.gpus, ',' ∉ g.id ∧ ';' ∉ g.id
  blockDeviceText : ∀ entry ∈ sample.listed MetricsExtended.blockDeviceText,
    entry.id ∈ sample.blockDevices.map Entity.id
  gpuText : ∀ entry ∈ sample.listed MetricsExtended.gpuText, entry.id ∈ sample.gpus.map Entity.id
  gpuSizes : ∀ entry ∈ sample.listed MetricsExtended.gpuSizes, entry.id ∈ sample.gpus.map Entity.id
  filesystemSizes : ∀ entry ∈ sample.listed MetricsExtended.filesystemSizes,
    entry.id ∈ sample.filesystems.map Entity.id
  networkSizes : ∀ entry ∈ sample.listed MetricsExtended.networkSizes,
    entry.id ∈ sample.networks.map Entity.id
  safeGpuSizes : SafeSizes (sample.listed MetricsExtended.gpuSizes)
  safeFilesystemSizes : SafeSizes (sample.listed MetricsExtended.filesystemSizes)
  safeNetworkSizes : SafeSizes (sample.listed MetricsExtended.networkSizes)
  database : ∀ text, sample.hostText "dbVersions".toList = some text → text ≠ [] →
    hasManagedDatabase sample = true

/-- A drive's entry without text. -/
def EntityText.Silent (entry : EntityText) : Prop :=
  present (entry.text "model".toList) = none ∧ present (entry.text "smart".toList) = none

/-- A filesystem's entry without a size. -/
def Entity.Unsized (entry : Entity ν) : Prop :=
  entry.fields "totalBytes".toList = none ∧ entry.fields "totalInodes".toList = none

/-- A network device's entry without a speed. -/
def Entity.Unlinked (entry : Entity ν) : Prop := entry.fields "linkSpeedMbps".toList = none

/-- Nothing is said of a device that the reader does not see, and only the first entry of a device
says something. -/
structure MetricsSample.FactsKept (sample : MetricsSample ν) : Prop where
  /-- A lone drive has no row. -/
  loneDrive : sample.blockDevices.length = 1 →
    ∀ entry ∈ sample.listed MetricsExtended.blockDeviceText, entry.Silent
  /-- A lone filesystem is folded into `host.io`, which is read for its texts only. -/
  loneFilesystem : sample.filesystems.length = 1 →
    ∀ entry ∈ sample.listed MetricsExtended.filesystemSizes, entry.Unsized
  /-- The id of an embedded device is matched by `.+`. -/
  embedded : ∀ d ∈ sample.networks.take embeddedNicSlotCount, d.id.any isLineTerminator = true →
    ∀ entry ∈ sample.listed MetricsExtended.networkSizes, entry.id = d.id → entry.Unlinked
  drives : (sample.listed MetricsExtended.blockDeviceText).Pairwise fun entry later =>
    entry.id = later.id → later.Silent
  filesystems : (sample.listed MetricsExtended.filesystemSizes).Pairwise fun entry later =>
    entry.id = later.id → later.Unsized
  networks : (sample.listed MetricsExtended.networkSizes).Pairwise fun entry later =>
    entry.id = later.id → later.Unlinked

/-! ## Entries that say nothing -/

theorem ite_isNone_eq_none {α β γ : Type} {a : Option α} {b : Option β} {fact : γ} :
    (if a.isNone && b.isNone then none else some fact) = none ↔ a = none ∧ b = none := by
  rw [← Option.isNone_iff_eq_none (o := a), ← Option.isNone_iff_eq_none (o := b),
    ← Bool.and_eq_true_iff]
  split
  · rename_i h
    exact iff_of_true rfl h
  · rename_i h
    exact iff_of_false nofun h

theorem blockDeviceFact_eq_none {entry : EntityText} : blockDeviceFact entry = none ↔
    entry.Silent :=
  ite_isNone_eq_none

theorem blockDeviceFact_id {entry : EntityText} {fact : BlockDeviceFact}
    (h : blockDeviceFact entry = some fact) :
    fact.deviceId = entry.id := by
  rw [blockDeviceFact] at h
  split at h
  · cases h
  · rw [← Option.some.inj h]

section

variable [Zero ν] [LE ν] [DecidableLE ν] {r : Reader ν} {entry : Entity ν}

theorem filesystemFact_id {fact : FilesystemFact ν}
    (h : filesystemFact r (filesystemEntry entry) = some fact) :
    fact.filesystemId = entry.id := by
  rw [filesystemFact] at h
  split at h
  · cases h
  · rw [← Option.some.inj h]
    rfl

theorem networkFact_id {fact : NetworkFact ν} (h : networkFact r (networkEntry entry) = some fact) :
    fact.deviceId = entry.id := by
  obtain ⟨speed, -, rfl⟩ := Option.map_eq_some_iff.1 h
  rfl

variable [NatCast ν] {w : Writer ν} (hdec : Decimal w r)
  (hsafe : ∀ field value, entry.fields field = some value → SafeSize value)

include hdec hsafe in
theorem filesystemFact_eq_none : filesystemFact r (filesystemEntry entry) = none ↔
    entry.Unsized := by
  rw [filesystemFact, ite_isNone_eq_none, Entity.Unsized]
  exact and_congr (presentSize_ofReading hdec (hsafe _)) (presentSize_ofReading hdec (hsafe _))

include hdec hsafe in
theorem networkFact_eq_none : networkFact r (networkEntry entry) = none ↔ entry.Unlinked := by
  rw [networkFact, Option.map_eq_none_iff, Entity.Unlinked]
  exact presentSize_ofReading hdec (hsafe _)

end

/-! ## What an answer tells -/

section

variable [Add ν] [Zero ν] [LE ν] {w : Writer ν} {r : Reader ν} {sample : MetricsSample ν}
  {rows : List FactRow} (hvalid : sample.Validated) (hids : sample.DistinctIds)
  (htime : w.sampleTime sample.sampledAt ≠ [])
  (hrows : Answers sample.serverId (allRows w sample none) rows)

include hvalid hids hrows in
theorem rowsOfFamily_host {host : V12HostFamily} (hhost : host ∈ hostFamilies sample) :
    rowsOfFamily rows host.text = [factRow (hostRow w sample none host)] := by
  have hperm := rowsOfFamily_perm hvalid hids hrows (hostText_mem_factFamilies host)
  rw [rowsOf_host, if_pos hhost] at hperm
  exact perm_singleton.1 hperm

omit [LE ν] [Add ν] [Zero ν] in
theorem mem_hostFamilies (host : V12HostFamily) (h : host ≠ .managedDatabase) :
    host ∈ hostFamilies sample := by
  rw [hostFamilies, mem_filter, decide_eq_true h, Bool.true_or]
  refine ⟨?_, rfl⟩
  cases host <;> simp [v12HostFamilies]

include hvalid hids hrows in
theorem parsed_perm {ε : Type} (spec : EntityRowSpec ε ν) (family : V12EntityFamily)
    (entities : List ε)
    (hfamily : family.text ∈ factFamilies)
    (hpages : familyRows w sample none family = pageRows w sample spec family entities)
    (hfits : spec.Fits)
    (hfields : family.textFields.length = spec.blobs.length)
    (hcomma : ∀ entity ∈ entities, ',' ∉ spec.idOf entity)
    (hne : ∀ entity ∈ entities, spec.idOf entity ≠ []) :
    (parseEntityText (rowsOfFamily rows family.text) family.textFields).Perm
      (entities.map (parsedEntity spec family.textFields sample)) := by
  have hperm := parseEntityText_perm (rowsOfFamily_perm hvalid hids hrows hfamily) family.textFields
  rwa [rowsOf_allRows, hpages,
    parseEntityText_pageRows w sample family hfits hfields hcomma hne] at hperm

omit [Add ν] [Zero ν] [LE ν] in
theorem lone_iff {ε φ : Type} {key : ε → Text} {fact : ε → Option φ} {entities : List (Entity ν)}
    {entries : List ε}
    (hnames : ∀ e ∈ entries, key e ∈ entities.map Entity.id) :
    (∀ e ∈ entries, (fact e).isSome →
    key e ∈ (if 1 < entities.length then entities else []).map Entity.id) ↔
      (entities.length = 1 → ∀ e ∈ entries, fact e = none) := by
  by_cases hmany : 1 < entities.length
  · rw [if_pos hmany]
    refine iff_of_true (fun e he _ => hnames e he) fun hlone => ?_
    omega
  · rw [if_neg hmany]
    constructor
    · intro h _ e he
      rw [← Option.not_isSome_iff_eq_none]
      exact fun hsome => not_mem_nil (h e he hsome)
    · intro h e he hsome
      have hpos : 0 < entities.length := by
        obtain ⟨d, hd, -⟩ := mem_map.1 (hnames e he)
        exact length_pos_of_mem hd
      rw [h (by omega) e he] at hsome
      cases hsome

variable [DecidableLE ν]

include hvalid hids htime hrows in
theorem facts_eq : (parseHostFactsRows r rows).facts =
    { text := parseHostText rows
      blockDevices := presentBlockDeviceFacts
        (parseEntityText (rowsOfFamily rows V12EntityFamily.block.text)
          V12EntityFamily.block.textFields)
      gpus := presentGpuFacts r
        ((parseEntityText (rowsOfFamily rows V12EntityFamily.gpu.text)
          V12EntityFamily.gpu.textFields).map storedGpu)
      filesystems := presentFilesystemFacts r
        ((parseEntityText (rowsOfFamily rows V12EntityFamily.filesystem.text)
          V12EntityFamily.filesystem.textFields).map storedFilesystem)
      networks := presentNetworkFacts r
        (parseEmbeddedNicSpeeds (rowsOfFamily rows V12HostFamily.hostNetwork.text) ++
          (parseEntityText (rowsOfFamily rows V12EntityFamily.network.text)
            V12EntityFamily.network.textFields).map storedNetwork) } := by
  have hsampled : ∀ row ∈ rows, row.sampled = w.sampleTime sample.sampledAt := fun row hrow =>
    sampled_eq hvalid hids hrows hrow
  have hne : rows ≠ [] := by
    rintro rfl
    have hsystem := rowsOfFamily_host hvalid hids hrows (mem_hostFamilies .hostSystem nofun)
    cases hsystem
  have hnewest := newestKey_eq htime hne hsampled
  have hall : (rows.filter fun row =>
    decide (row.sampled = w.sampleTime sample.sampledAt)) = rows :=
    filter_eq_self.2 fun row hrow => decide_eq_true (hsampled row hrow)
  rw [parseHostFactsRows, hnewest]
  dsimp only
  rw [if_neg htime, hall]

variable [NatCast ν] (hdec : Decimal w r) (hclear : sample.Clear)

include hvalid hids htime hrows hclear in
theorem text_eq : (parseHostFactsRows r rows).facts.text = (hostFactsFromSample r sample).text := by
  rw [facts_eq hvalid hids htime hrows, hostFactsFromSample_eq]
  exact parseHostText_eq hvalid hids hrows hclear.database

include hvalid hids htime hrows hclear in
/-- **The drives agree** if a lone drive has no text and each drive one entry. -/
theorem blockDevices_perm_iff :
    ((parseHostFactsRows r rows).facts.blockDevices).Perm
    (hostFactsFromSample r sample).blockDevices ↔
      (sample.blockDevices.length = 1 → ∀ entry ∈ sample.listed MetricsExtended.blockDeviceText,
      entry.Silent) ∧
        (sample.listed MetricsExtended.blockDeviceText).Pairwise fun entry later =>
          entry.id = later.id → later.Silent := by
  have hmem : ∀ d ∈ blocks sample none, d ∈ sample.blockDevices := fun d hd => mem_of_mem_if hd
  have hparsed := parsed_perm hvalid hids hrows blockSpec .block (blocks sample none)
    (by decide) rfl blockSpec_fits rfl
    (fun d hd => (hclear.blockDevices d (hmem d hd)).1)
      (fun d hd => (hvalid.blockDevices d (hmem d hd)).1)
  have htold : ((parseHostFactsRows r rows).facts.blockDevices).Perm
    (((blocks sample none).map Entity.id).filterMap
      (firstFact EntityText.id blockDeviceFact
        (sample.listed MetricsExtended.blockDeviceText))) := by
    rw [facts_eq hvalid hids htime hrows]
    refine (hparsed.filterMap blockDeviceFact).trans (List.Perm.of_eq ?_)
    rw [filterMap_map, filterMap_map]
    exact filterMap_congr fun d _ => blockDeviceFact_parsed sample d
  have hnodup : ((blocks sample none).map Entity.id).Nodup := by
    rw [((blocks_perm hids).map Entity.id).nodup_iff]
    split
    · exact hids.blockDevices
    · exact nodup_nil
  rw [htold.congr_left, hostFactsFromSample_eq]
  dsimp only
  rw [presentBlockDeviceFacts, filterMap_firstFact_perm_iff (fun _ _ => blockDeviceFact_id) hnodup]
  simp only [← blockDeviceFact_eq_none]
  exact and_congr_left' (lone_iff hclear.blockDeviceText)

include hvalid hids htime hrows hdec hclear in
/-- **The GPUs agree**: their texts and sizes are merged by the first entries on both sides. -/
theorem gpus_perm : ((parseHostFactsRows r rows).facts.gpus).Perm
    (hostFactsFromSample r sample).gpus := by
  have hparsed := parsed_perm hvalid hids hrows (gpuSpec w) .gpu sample.gpus (by decide) rfl
    (gpuSpec_fits w) rfl
    (fun g hg => (hclear.gpus g hg).1) (fun g hg => (hvalid.gpus g hg).1)
  have htold : ((parseHostFactsRows r rows).facts.gpus).Perm
    ((sample.gpus.map Entity.id).filterMap fun id =>
      gpuFact r (gpuEntry (sample.listed MetricsExtended.gpuText)
        (sample.listed MetricsExtended.gpuSizes) id)) := by
    rw [facts_eq hvalid hids htime hrows]
    refine ((hparsed.map storedGpu).filterMap (gpuFact r)).trans (List.Perm.of_eq ?_)
    rw [map_map, filterMap_map, filterMap_map]
    exact filterMap_congr fun g _ => gpuFact_parsed hdec hclear.safeGpuSizes g
  have hsent : (hostFactsFromSample r sample).gpus =
      (((sample.listed MetricsExtended.gpuText).map (·.id) ++
        (sample.listed MetricsExtended.gpuSizes).map (·.id)).foldl setAdd []).filterMap fun id =>
          gpuFact r (gpuEntry (sample.listed MetricsExtended.gpuText)
            (sample.listed MetricsExtended.gpuSizes) id) := by
    rw [hostFactsFromSample_eq]
    exact filterMap_map
  rw [hsent]
  refine htold.trans ?_
  refine filterMap_perm_of_subset hids.gpus (nodup_foldl_setAdd _ nodup_nil)
    (fun id hid => ?_) fun id _ hid => ?_
  · rw [mem_foldl_setAdd, or_iff_right not_mem_nil, mem_append, mem_map, mem_map] at hid
    obtain ⟨entry, hentry, rfl⟩ | ⟨entry, hentry, rfl⟩ := hid
    · exact hclear.gpuText entry hentry
    · exact hclear.gpuSizes entry hentry
  · rw [mem_foldl_setAdd, or_iff_right not_mem_nil, mem_append, not_or, mem_map, mem_map] at hid
    have htext : ((sample.listed MetricsExtended.gpuText).find? fun t =>
      decide (t.id = id)) = none :=
      find?_eq_none.2 fun t ht heq => hid.1 ⟨t, ht, of_decide_eq_true heq⟩
    have hsize : ((sample.listed MetricsExtended.gpuSizes).find? fun s =>
      decide (s.id = id)) = none :=
      find?_eq_none.2 fun s hs heq => hid.2 ⟨s, hs, of_decide_eq_true heq⟩
    rw [gpuEntry, htext, hsize]
    rfl

include hvalid hids htime hrows hdec hclear in
/-- **The filesystems agree** if a lone filesystem has no size and each filesystem one entry. -/
theorem filesystems_perm_iff :
    ((parseHostFactsRows r rows).facts.filesystems).Perm
    (hostFactsFromSample r sample).filesystems ↔
      (sample.filesystems.length = 1 → ∀ entry ∈ sample.listed MetricsExtended.filesystemSizes,
      entry.Unsized) ∧
        (sample.listed MetricsExtended.filesystemSizes).Pairwise fun entry later =>
          entry.id = later.id → later.Unsized := by
  have hmem : ∀ fs ∈ filesystems sample none, fs ∈ sample.filesystems := fun fs hfs =>
    mem_of_mem_if hfs
  have hparsed := parsed_perm hvalid hids hrows (filesystemSpec w) .filesystem
    (filesystems sample none) (by decide) rfl
    (filesystemSpec_fits w) rfl
    (fun fs hfs => (hclear.filesystems fs (hmem fs hfs)).1)
      (fun fs hfs => (hvalid.filesystems fs (hmem fs hfs)).1)
  have htold : ((parseHostFactsRows r rows).facts.filesystems).Perm
    (((filesystems sample none).map Entity.id).filterMap
      (firstFact Entity.id (fun entry => filesystemFact r (filesystemEntry entry))
        (sample.listed MetricsExtended.filesystemSizes))) := by
    rw [facts_eq hvalid hids htime hrows]
    refine ((hparsed.map storedFilesystem).filterMap (filesystemFact r)).trans (List.Perm.of_eq ?_)
    rw [map_map, filterMap_map, filterMap_map]
    exact filterMap_congr fun fs _ => filesystemFact_parsed hdec hclear.safeFilesystemSizes fs
  have hnodup : ((filesystems sample none).map Entity.id).Nodup := by
    rw [((filesystems_perm hids).map Entity.id).nodup_iff]
    split
    · exact hids.filesystems
    · exact nodup_nil
  have hsilent : ∀ entry ∈ sample.listed MetricsExtended.filesystemSizes,
      (filesystemFact r (filesystemEntry entry) = none ↔ entry.Unsized) := fun entry hentry =>
    filesystemFact_eq_none hdec (hclear.safeFilesystemSizes entry hentry)
  have hsent : (hostFactsFromSample r sample).filesystems =
    (sample.listed MetricsExtended.filesystemSizes).filterMap
      fun entry => filesystemFact r (filesystemEntry entry) := by
    rw [hostFactsFromSample_eq]
    exact filterMap_map
  rw [htold.congr_left, hsent, filterMap_firstFact_perm_iff (fun _ _ => filesystemFact_id) hnodup]
  refine and_congr ?_ (List.Pairwise.iff_of_mem fun _ hlater => imp_congr_right fun _ =>
    hsilent _ hlater)
  refine (lone_iff hclear.filesystemSizes).trans (imp_congr_right fun _ => ?_)
  exact forall₂_congr hsilent

end

/-! ## Network devices -/

section

variable [Add ν] [Zero ν] [LE ν] {w : Writer ν} {r : Reader ν} {sample : MetricsSample ν}
  {rows : List FactRow}
  (hvalid : sample.Validated) (hids : sample.DistinctIds)
  (htime : w.sampleTime sample.sampledAt ≠ [])
  (hrows : Answers sample.serverId (allRows w sample none) rows)

/-- The network devices that the reader sees: the embedded ones whose id it matches, and those with
rows. -/
def readableNetworks (sample : MetricsSample ν) : List (Entity ν) :=
  ((sample.networks.take embeddedNicSlotCount).filter fun d => !d.id.any isLineTerminator) ++
    sample.networks.drop embeddedNicSlotCount

omit [Add ν] [Zero ν] [LE ν] in
theorem readableNetworks_sublist (sample : MetricsSample ν) :
    (readableNetworks sample).Sublist sample.networks := by
  have h := (filter_sublist (p := fun d : Entity ν => !d.id.any isLineTerminator)
    (l := sample.networks.take embeddedNicSlotCount)).append_right
      (sample.networks.drop embeddedNicSlotCount)
  rwa [take_append_drop] at h

omit [Add ν] [Zero ν] [LE ν] in
include hids in
theorem mem_readableNetworks {d : Entity ν} (hd : d ∈ sample.networks) :
    d ∈ readableNetworks sample ↔
    (d ∈ sample.networks.take embeddedNicSlotCount → ¬d.id.any isLineTerminator = true) := by
  have hnodup : (sample.networks.take embeddedNicSlotCount ++
    sample.networks.drop embeddedNicSlotCount).Nodup := by
    rw [take_append_drop]
    exact List.Nodup.of_map Entity.id hids.networks
  rw [readableNetworks, mem_append, mem_filter, Bool.not_eq_true', ← Bool.not_eq_true]
  constructor
  · rintro (⟨-, hnot⟩ | hdrop) htake
    · exact hnot
    · exact absurd rfl ((nodup_append.1 hnodup).2.2 d htake d hdrop)
  · intro h
    rw [← take_append_drop embeddedNicSlotCount sample.networks, mem_append] at hd
    obtain htake | hdrop := hd
    · exact .inl ⟨htake, h htake⟩
    · exact .inr hdrop

omit [Add ν] [Zero ν] [LE ν] in
include hids in
theorem readable_iff {ε φ : Type} {key : ε → Text} {fact : ε → Option φ} {entries : List ε}
    (hnames : ∀ e ∈ entries, key e ∈ sample.networks.map Entity.id) :
    (∀ e ∈ entries, (fact e).isSome → key e ∈ (readableNetworks sample).map Entity.id) ↔
      ∀ d ∈ sample.networks.take embeddedNicSlotCount, d.id.any isLineTerminator = true →
        ∀ e ∈ entries, key e = d.id → fact e = none := by
  constructor
  · intro h d htake hline e he heq
    rw [← Option.not_isSome_iff_eq_none]
    intro hsome
    obtain ⟨other, hother, hid⟩ := mem_map.1 (h e he hsome)
    have hmem := (readableNetworks_sublist sample).subset hother
    obtain rfl := inj_on_of_nodup_map hids.networks hmem (mem_of_mem_take htake) (hid.trans heq)
    exact (mem_readableNetworks hids hmem).1 hother htake hline
  · intro h e he hsome
    obtain ⟨d, hd, hid⟩ := mem_map.1 (hnames e he)
    refine mem_map.2 ⟨d, (mem_readableNetworks hids hd).2 fun htake hline => ?_, hid⟩
    rw [h d htake hline e he hid.symm] at hsome
    cases hsome

variable [DecidableLE ν] [NatCast ν] (hdec : Decimal w r) (hclear : sample.Clear)

omit [Add ν] in
include hdec hclear in
theorem filterMap_embeddedEntry (nics : List (Entity ν)) :
    (nics.filterMap (embeddedEntry w sample)).filterMap (networkFact r) =
      ((nics.filter fun d => !d.id.any isLineTerminator).map Entity.id).filterMap
        (firstFact Entity.id (fun entry => networkFact r (networkEntry entry))
          (sample.listed MetricsExtended.networkSizes)) := by
  rw [filterMap_filterMap, filterMap_map, filterMap_filter]
  refine filterMap_congr fun d _ => ?_
  rw [embeddedEntry]
  cases d.id.any isLineTerminator with
  | true => rfl
  | false => exact networkFact_stored hdec hclear.safeNetworkSizes d.id

include hvalid hids htime hrows hdec hclear in
/-- **The network devices agree** if each has one entry and none with a speed is unreadable. -/
theorem networks_perm_iff :
    ((parseHostFactsRows r rows).facts.networks).Perm (hostFactsFromSample r sample).networks ↔
      (∀ d ∈ sample.networks.take embeddedNicSlotCount, d.id.any isLineTerminator = true →
        ∀ entry ∈ sample.listed MetricsExtended.networkSizes, entry.id = d.id → entry.Unlinked) ∧
        (sample.listed MetricsExtended.networkSizes).Pairwise fun entry later =>
          entry.id = later.id → later.Unlinked := by
  have hmem : ∀ d ∈ sample.networks.drop embeddedNicSlotCount, d ∈ sample.networks := fun d hd =>
    mem_of_mem_drop hd
  have hparsed := parsed_perm hvalid hids hrows (networkSpec w) .network
    (sample.networks.drop embeddedNicSlotCount) (by decide) rfl (networkSpec_fits w) rfl
    (fun d hd => (hclear.networks d (hmem d hd)).1) (fun d hd => (hvalid.networks d (hmem d hd)).1)
  have hembedded := parseEmbeddedNicSpeeds_hostRow hdec hclear.safeNetworkSizes
    (fun d hd => ⟨(hvalid.networks d hd).1, (hclear.networks d hd).2⟩) fun fs hfs =>
      (hclear.filesystems fs hfs).2
  have htold : ((parseHostFactsRows r rows).facts.networks).Perm
    (((readableNetworks sample).map Entity.id).filterMap
      (firstFact Entity.id (fun entry => networkFact r (networkEntry entry))
        (sample.listed MetricsExtended.networkSizes))) := by
    rw [facts_eq hvalid hids htime hrows]
    dsimp only
    rw [rowsOfFamily_host hvalid hids hrows (mem_hostFamilies .hostNetwork nofun), hembedded,
      presentNetworkFacts,
      filterMap_append, filterMap_embeddedEntry hdec hclear, readableNetworks, map_append,
      filterMap_append]
    refine (((hparsed.map storedNetwork).filterMap (networkFact r)).trans
      (List.Perm.of_eq ?_)).append_left _
    rw [map_map, filterMap_map, filterMap_map]
    refine filterMap_congr fun d _ => ?_
    have hspeed : (parsedEntity (networkSpec w) V12EntityFamily.network.textFields sample d).text
      "linkSpeed".toList =
        some (sizeText w (linkSpeedOf sample d.id)) := parsedEntity_text rfl rfl
    rw [Function.comp_apply, Function.comp_apply, Function.comp_apply, storedNetwork, hspeed]
    exact networkFact_stored hdec hclear.safeNetworkSizes d.id
  have hsent : (hostFactsFromSample r sample).networks =
    (sample.listed MetricsExtended.networkSizes).filterMap
      fun entry => networkFact r (networkEntry entry) := by
    rw [hostFactsFromSample_eq]
    exact filterMap_map
  have hnodup : ((readableNetworks sample).map Entity.id).Nodup :=
    hids.networks.sublist ((readableNetworks_sublist sample).map Entity.id)
  have hsilent : ∀ entry ∈ sample.listed MetricsExtended.networkSizes,
      (networkFact r (networkEntry entry) = none ↔ entry.Unlinked) := fun entry hentry =>
    networkFact_eq_none hdec (hclear.safeNetworkSizes entry hentry)
  rw [htold.congr_left, hsent, filterMap_firstFact_perm_iff (fun _ _ => networkFact_id) hnodup]
  refine and_congr ?_ (List.Pairwise.iff_of_mem fun _ hlater => imp_congr_right fun _ =>
    hsilent _ hlater)
  refine (readable_iff hids hclear.networkSizes).trans ?_
  refine forall₂_congr fun d _ => imp_congr_right fun _ => forall₂_congr fun entry hentry => ?_
  exact imp_congr_right fun _ => hsilent entry hentry

/-! ## Exactly when both stores agree -/

include hvalid hids htime hrows hdec hclear in
theorem agree_iff : (parseHostFactsRows r rows).facts.Agree (hostFactsFromSample r sample) ↔
    sample.FactsKept := by
  have hdrives := blockDevices_perm_iff (r := r) hvalid hids htime hrows hclear
  have hfilesystems := filesystems_perm_iff hvalid hids htime hrows hdec hclear
  have hnetworks := networks_perm_iff hvalid hids htime hrows hdec hclear
  constructor
  · intro h
    obtain ⟨hlone, honce⟩ := hdrives.1 h.blockDevices
    obtain ⟨hlone', honce'⟩ := hfilesystems.1 h.filesystems
    obtain ⟨hembedded, honce''⟩ := hnetworks.1 h.networks
    exact ⟨hlone, hlone', hembedded, honce, honce', honce''⟩
  · intro h
    exact ⟨text_eq hvalid hids htime hrows hclear, hdrives.2 ⟨h.loneDrive, h.drives⟩,
      gpus_perm hvalid hids htime hrows hdec hclear,
        hfilesystems.2 ⟨h.loneFilesystem, h.filesystems⟩,
      hnetworks.2 ⟨h.embedded, h.networks⟩⟩

omit hrows in
include hvalid hids htime hdec hclear in
theorem factsKept_of_factsAgree (h : FactsAgree w r sample) : sample.FactsKept := by
  obtain ⟨points, hpoints, hagree⟩ := h
  rw [buildMetricsDataPoints_eq w hvalid hids (by simp)] at hpoints
  cases hpoints
  have hanswer : Answers sample.serverId (allRows w sample none) _ := ⟨_, List.Perm.refl _, rfl⟩
  exact (agree_iff hvalid hids htime hanswer hdec hclear).1 (hagree _ hanswer)

omit hrows in
include hvalid hids htime hdec hclear in
/-- **The hosted store tells the facts of a sample** exactly if nothing is said of a device that its
reader does not see, and nothing by a second entry. -/
theorem factsAgree_iff : FactsAgree w r sample ↔ sample.FactsKept := by
  constructor
  · exact factsKept_of_factsAgree hvalid hids htime hdec hclear
  · intro h
    exact ⟨allRows w sample none,
      buildMetricsDataPoints_eq w hvalid hids (by simp), fun rows hrows =>
      (agree_iff hvalid hids htime hrows hdec hclear).2 h⟩

end

/-! ## Hosts with drives -/

/-- Whole numbers in decimal. -/
def integerReader : Reader ℤ where
  number text := if isDecimal text then some (ofDigits 10 text : ℤ) else none
  round value := value
  dateParse := parseNoon

theorem integer_decimal : Decimal integerWriter integerReader where
  nonneg n _ := Int.natCast_nonneg n
  roundText _ _ := rfl
  number n _ := by
    have hdigits : isDecimal (Nat.toDigits 10 n) = true := by
      rw [isDecimal, Bool.and_eq_true, all_eq_true]
      exact ⟨by simp [Nat.toDigits_ne_nil], fun c hc => isDigitOf_of_mem_decimal hc⟩
    change (if isDecimal (Nat.toDigits 10 n) then some (ofDigits 10 (Nat.toDigits 10 n) : ℤ)
      else none) = _
    rw [if_pos hdigits, ofDigits_toDigits (by decide) (by decide)]

/-- A sample that names these drives, each of one model. -/
def driveSample (drives : List Text) (model : Text) : MetricsSample ℤ where
  serverId := []
  sampledAt := "2026-10-05T12:00:00.000Z".toList
  sequence := 0
  intervalSeconds := 60
  capabilityPlanGeneration := none
  host _ _ := none
  diagnostics := none
  router := none
  storage := none
  dockerUsage := none
  extended := some {
    sections := fun _ => none
    text := none
    blockDeviceText := drives.map fun id =>
      ⟨id, fun key => if key = "model".toList then some model else none⟩
    gpuText := []
    gpuSizes := []
    networkSizes := []
    filesystemSizes := [] }
  networks := []
  filesystems := []
  blockDevices := drives.map fun id => ⟨id, fun _ => none⟩
  gpus := []
  hardwareSignals := []
  ingressSources := []
  databaseProxies := []
  events := []

section

variable (drives : List Text) (model : Text)

theorem driveSample_ids : (driveSample drives model).blockDevices.map Entity.id = drives := by
  change (drives.map fun id => (⟨id, fun _ => none⟩ : Entity ℤ)).map Entity.id = drives
  rw [map_map]
  exact map_id drives

theorem driveSample_validated (hlength : drives.length ≤ maxMetricEntityArrayLength)
    (hne : [] ∉ drives) :
    (driveSample drives model).Validated where
  networks_length := Nat.zero_le _
  filesystems_length := Nat.zero_le _
  blockDevices_length := by
    change (drives.map _).length ≤ _
    rwa [length_map]
  gpus_length := Nat.zero_le _
  hardwareSignals_length := Nat.zero_le _
  events_length := Nat.zero_le _
  networks := nofun
  filesystems := nofun
  blockDevices d hd := by
    obtain ⟨id, hid, rfl⟩ := mem_map.1 hd
    refine ⟨?_, nofun⟩
    rintro rfl
    exact hne hid
  gpus := nofun
  hardwareSignals := nofun

theorem driveSample_distinctIds (hnodup : drives.Nodup) : (driveSample drives model).DistinctIds :=
  ⟨nodup_nil, nodup_nil, (driveSample_ids drives model).symm ▸ hnodup, nodup_nil, nodup_nil⟩

theorem driveSample_clear (hjoin : ∀ id ∈ drives, ',' ∉ id ∧ ';' ∉ id) :
    (driveSample drives model).Clear where
  networks := nofun
  filesystems := nofun
  blockDevices d hd := by
    obtain ⟨id, hid, rfl⟩ := mem_map.1 hd
    exact hjoin id hid
  gpus := nofun
  blockDeviceText entry hentry := by
    obtain ⟨id, hid, rfl⟩ := mem_map.1 hentry
    rw [driveSample_ids]
    exact hid
  gpuText := nofun
  gpuSizes := nofun
  filesystemSizes := nofun
  networkSizes := nofun
  safeGpuSizes := nofun
  safeFilesystemSizes := nofun
  safeNetworkSizes := nofun
  database _ htext := nomatch htext

theorem driveSample_factsKept (hnodup : drives.Nodup) (hmany : drives.length ≠ 1) :
    (driveSample drives model).FactsKept where
  loneDrive hlone := by
    refine absurd ?_ hmany
    rwa [← driveSample_ids drives model, length_map]
  loneFilesystem _ := nofun
  embedded := nofun
  drives := by
    change (drives.map _).Pairwise _
    rw [pairwise_map]
    exact hnodup.imp fun hne heq => absurd heq hne
  filesystems := List.Pairwise.nil
  networks := List.Pairwise.nil

end

theorem factsAgree_two_drives :
    FactsAgree integerWriter integerReader (driveSample ["disk:a".toList,
    "disk:b".toList] "990 PRO".toList) :=
  (factsAgree_iff (driveSample_validated _ _ (by decide) (by decide))
    (driveSample_distinctIds _ _ (by decide))
    (by decide +kernel) integer_decimal (driveSample_clear _ _ (by decide))).2
      (driveSample_factsKept _ _ (by decide) (by decide))

/-- The text of a lone drive is in no row. -/
theorem lone_drive_lost : ¬∀ sample : MetricsSample ℤ, sample.Validated → sample.DistinctIds →
    integerWriter.sampleTime sample.sampledAt ≠ [] → sample.Clear →
    FactsAgree integerWriter integerReader sample := by
  intro h
  have hvalid := driveSample_validated ["disk:a".toList] "990 PRO".toList (by decide) (by decide)
  have hids := driveSample_distinctIds ["disk:a".toList] "990 PRO".toList (by decide)
  have hclear := driveSample_clear ["disk:a".toList] "990 PRO".toList (by decide)
  have hkept := factsKept_of_factsAgree hvalid hids (by decide +kernel) integer_decimal hclear
    (h _ hvalid hids (by decide +kernel) hclear)
  have hsilent := (hkept.loneDrive rfl _ mem_cons_self).1
  revert hsilent
  decide

end TurboPanel.Metrics
