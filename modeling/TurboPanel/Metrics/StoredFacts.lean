import TurboPanel.Data.FirstEntries
import TurboPanel.Metrics.FactRows

/-!
# What is stored of a device

Of a drive, a filesystem or a network device the hosted store says what the first entry of its id
says (`blockDeviceFact_parsed`, `filesystemFact_parsed`, `networkFact_stored`), and of a GPU what
its first text and its first size say (`gpuFact_parsed`). The two embedded network devices are read
from the ids of `host.network` (`parseEmbeddedNicSpeeds_hostRow`); one with a line terminator in its
id is not recognised.
-/

namespace TurboPanel.Metrics

open Option Js Data List

variable {ν : Type}

/-! ## What a sample lists -/

/-- A list of `extended`; it is empty where the sample has none. -/
def MetricsSample.listed {α : Type} (sample : MetricsSample ν)
    (part : MetricsExtended ν → List α) : List α :=
  (sample.extended.map part).getD []

theorem entityText_eq (texts : MetricsExtended ν → List EntityText) (sample : MetricsSample ν)
    (id key : Text) :
    entityText texts sample id key =
      (((sample.listed texts).find? fun entry => decide (entry.id = id)).bind
      (·.text key)).getD [] := by
  rw [entityText, MetricsSample.listed]
  cases sample.extended with
  | none => rfl
  | some extended => rfl

theorem sizeOf_eq (sizes : MetricsExtended ν → List (Entity ν)) (sample : MetricsSample ν)
    (id field : Text) :
    sizeOf sizes sample id field =
      ((sample.listed sizes).find? fun entry => decide (entry.id = id)).bind (·.fields field) := by
  rw [sizeOf, MetricsSample.listed]
  cases sample.extended with
  | none => rfl
  | some extended => rfl

theorem filesystemSizeOf_eq (sample : MetricsSample ν) (id field : Text) :
    filesystemSizeOf sample id field = sizeOf MetricsExtended.filesystemSizes sample id field := rfl

section

variable [Zero ν] [LE ν] [DecidableLE ν] (r : Reader ν)

theorem hostFactsFromSample_eq (sample : MetricsSample ν) : hostFactsFromSample r sample =
    { text := presentHostText sample.hostText
      blockDevices := presentBlockDeviceFacts (sample.listed MetricsExtended.blockDeviceText)
      gpus := presentGpuFacts r (mergeGpuSizes (sample.listed MetricsExtended.gpuText)
        (sample.listed MetricsExtended.gpuSizes))
      filesystems := presentFilesystemFacts r
        ((sample.listed MetricsExtended.filesystemSizes).map filesystemEntry)
      networks := presentNetworkFacts r
        ((sample.listed MetricsExtended.networkSizes).map networkEntry) } := by
  unfold hostFactsFromSample MetricsSample.listed MetricsSample.hostText
  cases sample.extended with
  | none => rfl
  | some extended => rfl

end

/-! ## Sizes -/

/-- `Number.MAX_SAFE_INTEGER`. -/
def maxSafeInteger : ℕ := 2 ^ 53 - 1

/-- A safe integer that is not negative. -/
def SafeSize [NatCast ν] (value : ν) : Prop := ∃ n : ℕ, n ≤ maxSafeInteger ∧ value = n

/-- Safe integers are written in decimal and read back. -/
structure Decimal [NatCast ν] [Zero ν] [LE ν] (w : Writer ν) (r : Reader ν) : Prop where
  nonneg : ∀ n ≤ maxSafeInteger, (0 : ν) ≤ (n : ν)
  roundText : ∀ n ≤ maxSafeInteger, w.roundText (n : ν) = Nat.toDigits 10 n
  number : ∀ n ≤ maxSafeInteger, r.number (Nat.toDigits 10 n) = some (n : ν)

section

variable [NatCast ν] [Zero ν] [LE ν] {w : Writer ν} {r : Reader ν} (hdec : Decimal w r)
  {value : Option ν}
  (hsafe : ∀ v, value = some v → SafeSize v)

include hdec hsafe in
theorem isDigit_of_mem_sizeText {c : Char} (h : c ∈ sizeText w value) : c.isDigit = true := by
  cases value with
  | none => cases h
  | some v =>
    obtain ⟨n, hn, rfl⟩ := hsafe v rfl
    have htext : sizeText w (some (n : ν)) = Nat.toDigits 10 n := hdec.roundText n hn
    rw [htext] at h
    exact Nat.isDigit_of_mem_toDigits (by decide) (by decide) h

include hdec hsafe in
theorem not_mem_sizeText {c : Char} (hc : c.isDigit = false) : c ∉ sizeText w value := by
  intro h
  rw [isDigit_of_mem_sizeText hdec hsafe h] at hc
  cases hc

variable [DecidableLE ν]

include hdec hsafe in
theorem presentSize_sizeText :
    presentSize r (.text (sizeText w value)) = presentSize r (.ofReading value) := by
  cases value with
  | none => rfl
  | some v =>
    obtain ⟨n, hn, rfl⟩ := hsafe v rfl
    have htext : sizeText w (some (n : ν)) = Nat.toDigits 10 n := hdec.roundText n hn
    rw [htext]
    unfold presentSize SizeValue.ofReading
    dsimp only
    rw [if_neg Nat.toDigits_ne_nil, hdec.number n hn]

include hdec hsafe in
theorem presentSize_ofReading : presentSize r (.ofReading value) = none ↔ value = none := by
  cases value with
  | none => exact iff_of_true rfl rfl
  | some v =>
    obtain ⟨n, hn, rfl⟩ := hsafe v rfl
    refine iff_of_false ?_ nofun
    unfold presentSize SizeValue.ofReading
    dsimp only
    rw [filter_some, if_pos (decide_eq_true (hdec.nonneg n hn))]
    exact nofun

end

/-! ## What is said of a device -/

theorem parsedEntity_text {ε : Type} {spec : EntityRowSpec ε ν} {fields : List Text}
    {sample : MetricsSample ν}
    {entity : ε} {key text : Text} {i : ℕ} (hindex : fields.idxOf? key = some i)
    (hblob : (spec.blobs[i]?).map (fun blob => blob entity sample) = some text) :
    (parsedEntity spec fields sample entity).text key = some text := by
  rw [parsedEntity]
  dsimp only
  rw [hindex, map_some, hblob]
  rfl

theorem blockDeviceFact_parsed [Add ν] (sample : MetricsSample ν) (device : Entity ν) :
    blockDeviceFact (parsedEntity blockSpec V12EntityFamily.block.textFields sample device) =
      firstFact EntityText.id blockDeviceFact (sample.listed MetricsExtended.blockDeviceText)
      device.id := by
  have hmodel : (parsedEntity blockSpec V12EntityFamily.block.textFields sample device).text
    "model".toList =
      some (entityText MetricsExtended.blockDeviceText sample device.id "model".toList) :=
        parsedEntity_text rfl rfl
  have hsmart : (parsedEntity blockSpec V12EntityFamily.block.textFields sample device).text
    "smart".toList =
      some (entityText MetricsExtended.blockDeviceText sample device.id "smart".toList) :=
        parsedEntity_text rfl rfl
  rw [blockDeviceFact, hmodel, hsmart, entityText_eq, entityText_eq, present_getD,
    present_getD, firstFact]
  cases hfind : (sample.listed MetricsExtended.blockDeviceText).find? fun entry =>
    decide (entry.id = device.id) with
  | none => rfl
  | some entry =>
    have hid : entry.id = device.id := by simpa using find?_some hfind
    rw [bind_some, bind_some, bind_some, blockDeviceFact, hid]
    rfl

section

variable [Zero ν] [LE ν] [DecidableLE ν] {r : Reader ν}

theorem gpuFact_congr {a b : GpuEntry ν} (hid : a.gpuId = b.gpuId)
    (hdriver : present a.driver = present b.driver)
    (hmodel : present a.model = present b.model)
    (hmemory : presentSize r a.memoryTotalBytes = presentSize r b.memoryTotalBytes) :
    gpuFact r a = gpuFact r b := by
  rw [gpuFact, gpuFact, hid, hdriver, hmodel, hmemory]

variable [NatCast ν] {w : Writer ν} (hdec : Decimal w r) {sample : MetricsSample ν}

/-- Every size that a list gives is a safe integer. -/
def SafeSizes (entries : List (Entity ν)) : Prop :=
  ∀ entry ∈ entries, ∀ field value, entry.fields field = some value → SafeSize value

omit [Zero ν] [LE ν] [DecidableLE ν] in
theorem safe_of_find? {entries : List (Entity ν)} (h : SafeSizes entries) {id field : Text} {v : ν}
    (hv : (entries.find? fun entry => decide (entry.id = id)).bind (·.fields field) = some v) :
    SafeSize v := by
  obtain ⟨entry, hfind, hfield⟩ := bind_eq_some_iff.1 hv
  exact h entry (mem_of_find?_eq_some hfind) field v hfield

include hdec in
theorem gpuFact_parsed (hsizes : SafeSizes (sample.listed MetricsExtended.gpuSizes))
    (gpu : Entity ν) :
    gpuFact r (storedGpu (parsedEntity (gpuSpec w) V12EntityFamily.gpu.textFields sample gpu)) =
      gpuFact r (gpuEntry (sample.listed MetricsExtended.gpuText)
      (sample.listed MetricsExtended.gpuSizes) gpu.id) := by
  have hdriver : (parsedEntity (gpuSpec w) V12EntityFamily.gpu.textFields sample gpu).text
    "driver".toList =
      some (entityText MetricsExtended.gpuText sample gpu.id "driver".toList) :=
        parsedEntity_text rfl rfl
  have hmodel : (parsedEntity (gpuSpec w) V12EntityFamily.gpu.textFields sample gpu).text
    "model".toList =
      some (entityText MetricsExtended.gpuText sample gpu.id "model".toList) :=
        parsedEntity_text rfl rfl
  have hmemory : (parsedEntity (gpuSpec w) V12EntityFamily.gpu.textFields sample gpu).text
    "memoryTotal".toList =
      some (sizeText w (gpuMemoryTotalOf sample gpu.id)) := parsedEntity_text rfl rfl
  rw [entityText_eq] at hdriver hmodel
  rw [gpuMemoryTotalOf, sizeOf_eq] at hmemory
  refine gpuFact_congr rfl ?_ ?_ ?_
  · rw [storedGpu]
    dsimp only
    rw [hdriver, present_getD]
    rfl
  · rw [storedGpu]
    dsimp only
    rw [hmodel, present_getD]
    rfl
  · rw [storedGpu]
    dsimp only
    rw [hmemory, getD_some, presentSize_sizeText hdec fun v hv => safe_of_find? hsizes hv]
    rfl

omit [DecidableLE ν] in
include hdec in
theorem parse_filesystemSizeText
    (hsizes : SafeSizes (sample.listed MetricsExtended.filesystemSizes)) (id : Text) :
    (parseFilesystemSizeText id (filesystemSizeText w sample id) : FilesystemEntry ν) =
      ⟨id, .text (sizeText w (sizeOf MetricsExtended.filesystemSizes sample id
      "totalBytes".toList)),
        .text (sizeText w (sizeOf MetricsExtended.filesystemSizes sample id
        "totalInodes".toList))⟩ := by
  have hslash : ∀ field, '/' ∉
    sizeText w (sizeOf MetricsExtended.filesystemSizes sample id field) := fun field =>
    not_mem_sizeText hdec (fun v hv => safe_of_find? hsizes (sizeOf_eq _ sample id field ▸ hv))
      (by decide)
  have hbytes := hslash "totalBytes".toList
  have hinodes := hslash "totalInodes".toList
  rw [filesystemSizeText, filesystemSizeOf_eq, filesystemSizeOf_eq]
  split
  · rename_i hnone hnone'
    rw [hnone, hnone']
    rfl
  · rw [parseFilesystemSizeText]
    have hsplit := splitOn_joined (cons_ne_nil _ _)
      (forall_mem_cons.2 ⟨hbytes, forall_mem_singleton.2 hinodes⟩)
    rw [intercalate_cons_cons, intercalate_singleton, append_assoc, singleton_append] at hsplit
    rw [hsplit]

include hdec in
theorem filesystemFact_parsed (hsizes : SafeSizes (sample.listed MetricsExtended.filesystemSizes))
    (fs : Entity ν) :
    filesystemFact r (storedFilesystem
      (parsedEntity (filesystemSpec w) V12EntityFamily.filesystem.textFields sample fs)) =
        firstFact Entity.id (fun entry => filesystemFact r (filesystemEntry entry))
          (sample.listed MetricsExtended.filesystemSizes) fs.id := by
  have hsize : (parsedEntity (filesystemSpec w) V12EntityFamily.filesystem.textFields sample
    fs).text "size".toList =
      some (filesystemSizeText w sample fs.id) := parsedEntity_text rfl rfl
  have hread : ∀ field, presentSize r (.text (sizeText w
      (sizeOf MetricsExtended.filesystemSizes sample fs.id field))) =
        presentSize r (.ofReading (sizeOf MetricsExtended.filesystemSizes sample fs.id field)) :=
          fun field =>
    presentSize_sizeText hdec fun v hv => safe_of_find? hsizes (sizeOf_eq _ sample fs.id field ▸ hv)
  rw [storedFilesystem, hsize, getD_some]
  change filesystemFact r (parseFilesystemSizeText fs.id _) = _
  rw [parse_filesystemSizeText hdec hsizes, filesystemFact]
  dsimp only
  rw [hread, hread, sizeOf_eq, sizeOf_eq, firstFact]
  cases hfind : (sample.listed MetricsExtended.filesystemSizes).find? fun entry =>
    decide (entry.id = fs.id) with
  | none => rfl
  | some entry =>
    have hid : entry.id = fs.id := by simpa using find?_some hfind
    rw [bind_some, bind_some, bind_some, ← hid]
    rfl

include hdec in
theorem networkFact_stored (hsizes : SafeSizes (sample.listed MetricsExtended.networkSizes))
    (id : Text) :
    networkFact r ⟨id, .text (sizeText w (linkSpeedOf sample id))⟩ =
      firstFact Entity.id (fun entry => networkFact r (networkEntry entry))
        (sample.listed MetricsExtended.networkSizes) id := by
  have hread : presentSize r (.text (sizeText w (linkSpeedOf sample id))) =
      presentSize r (.ofReading (linkSpeedOf sample id)) :=
    presentSize_sizeText hdec fun v hv => by
      rw [linkSpeedOf, sizeOf_eq] at hv
      exact safe_of_find? hsizes hv
  rw [networkFact]
  dsimp only
  rw [hread, linkSpeedOf, sizeOf_eq, firstFact]
  cases hfind : (sample.listed MetricsExtended.networkSizes).find? fun entry =>
    decide (entry.id = id) with
  | none => rfl
  | some entry =>
    have hid : entry.id = id := by simpa using find?_some hfind
    rw [bind_some, bind_some, ← hid]
    rfl

end

/-! ## The embedded network devices -/

theorem filterMap_splitOn_joined {β : Type} {f : Text → Option β} (hnil : f [] = none) {sep : Char}
    {parts : List Text}
    (h : ∀ part ∈ parts, sep ∉ part) :
    (([sep].intercalate parts).splitOn sep).filterMap f = parts.filterMap f := by
  cases parts with
  | nil =>
    change (([] : Text).splitOn sep).filterMap f = []
    rw [splitOn_nil, filterMap_cons, hnil]
    rfl
  | cons part parts => rw [splitOn_joined (cons_ne_nil part parts) h]

theorem matchEmbeddedNic_part {slot : Char} (hslot : slot = '1' ∨ slot = '2') {id : Text}
    (hid : id ≠ []) {speed : Text}
    (hspeed : ∀ c ∈ speed, c.isDigit = true) :
    (matchEmbeddedNic ("nic".toList ++ slot :: '=' :: id ++ '@' :: speed) : Option
    (NetworkEntry ν)) =
      if id.any isLineTerminator then none else some ⟨id, .text speed⟩ := by
  have hat : '@' ∉ speed := fun h => absurd (hspeed '@' h) (by decide)
  change matchEmbeddedNic ('n' :: 'i' :: 'c' :: slot :: '=' :: (id ++ '@' :: speed)) = _
  rw [matchEmbeddedNic, if_pos hslot, lastIndexOf_append_cons id hat, bind_eq_bind,
    bind_some,
    take_left]
  have hdrop : (id ++ '@' :: speed).drop (id.length + 1) = speed := by
    rw [← drop_drop, drop_left]
    rfl
  dsimp only
  rw [hdrop]
  by_cases hline : id.any isLineTerminator = true
  · rw [if_pos hline, if_neg]
    rintro ⟨-, hnot, -⟩
    rw [hline] at hnot
    cases hnot
  · have hnot : (!id.any isLineTerminator) = true := by
      rw [Bool.eq_false_iff.2 hline, Bool.not_false]
    rw [if_neg hline, if_pos ⟨hid, hnot, all_eq_true.2 hspeed⟩]

section

variable [NatCast ν] [Zero ν] [LE ν] {w : Writer ν} {r : Reader ν} (hdec : Decimal w r)
  {sample : MetricsSample ν}

/-- An embedded network device as its reader sees it. -/
def embeddedEntry (w : Writer ν) (sample : MetricsSample ν) (nic : Entity ν) :
    Option (NetworkEntry ν) :=
  if nic.id.any isLineTerminator then none else some ⟨nic.id,
    .text (sizeText w (linkSpeedOf sample nic.id))⟩

/-- The part of an embedded network device. -/
def nicPart (w : Writer ν) (sample : MetricsSample ν) (slot : Char) (nic : Entity ν) : Text :=
  "nic".toList ++ slot :: '=' :: nic.id ++ '@' :: sizeText w (linkSpeedOf sample nic.id)

def fsPart (fs : Entity ν) : Text := "fs=".toList ++ fs.id

include hdec in
theorem isDigit_linkSpeed (hsizes : SafeSizes (sample.listed MetricsExtended.networkSizes))
    (id : Text) :
    ∀ c ∈ sizeText w (linkSpeedOf sample id), c.isDigit = true := fun c hc =>
  isDigit_of_mem_sizeText hdec (fun v hv => by
    rw [linkSpeedOf, sizeOf_eq] at hv
    exact safe_of_find? hsizes hv) hc

include hdec in
theorem not_mem_nicPart (hsizes : SafeSizes (sample.listed MetricsExtended.networkSizes))
    {slot : Char}
    (hslot : slot = '1' ∨ slot = '2') {nic : Entity ν} (hid : ';' ∉ nic.id) :
    ';' ∉ nicPart w sample slot nic := by
  have hspeed : ';' ∉ sizeText w (linkSpeedOf sample nic.id) := fun h =>
    absurd (isDigit_linkSpeed hdec hsizes nic.id ';' h) (by decide)
  have hne : ';' ≠ slot := by
    rintro rfl
    revert hslot
    decide
  rw [nicPart]
  simp [hspeed, hid, hne]

variable [Add ν]

omit [NatCast ν] [Zero ν] [LE ν] [Add ν] in
theorem entityIds_hostNetwork : v12HostRowEntityIds w .hostNetwork (hostContext sample none) =
    [';'].intercalate ((sample.networks[0]?.map (nicPart w sample '1')).toList ++
      (sample.networks[1]?.map (nicPart w sample '2')).toList ++
      ((hostContext sample none).foldedFilesystem.map fsPart).toList) := rfl

include hdec in
/-- **The embedded devices are read back**, apart from those with a line terminator in their id. -/
theorem parseEmbeddedNicSpeeds_hostRow
    (hsizes : SafeSizes (sample.listed MetricsExtended.networkSizes))
    (hnics : ∀ d ∈ sample.networks, d.id ≠ [] ∧ ';' ∉ d.id) (hfs : ∀ fs ∈ sample.filesystems,
    ';' ∉ fs.id) :
    parseEmbeddedNicSpeeds [factRow (hostRow w sample none .hostNetwork)] =
      (sample.networks.take embeddedNicSlotCount).filterMap (embeddedEntry w sample) := by
  have hmatch : ∀ slot : Char, slot = '1' ∨ slot = '2' → ∀ d ∈ sample.networks,
      matchEmbeddedNic (nicPart w sample slot d) = embeddedEntry w sample d :=
        fun slot hslot d hd =>
    matchEmbeddedNic_part hslot (hnics d hd).1 (isDigit_linkSpeed hdec hsizes d.id)
  have hnic : ∀ slot : Char, slot = '1' ∨ slot = '2' → ∀ nic : Option (Entity ν),
    (∀ d ∈ nic, d ∈ sample.networks) →
      ((nic.map (nicPart w sample slot)).toList.filterMap matchEmbeddedNic = nic.toList.filterMap
          (embeddedEntry w sample)) ∧
        ∀ part ∈ (nic.map (nicPart w sample slot)).toList, ';' ∉ part := by
    intro slot hslot nic hmem
    cases nic with
    | none => exact ⟨rfl, fun _ hpart => by cases hpart⟩
    | some d =>
      refine ⟨?_, fun part hpart => ?_⟩
      · rw [map_some, toList_some, toList_some, filterMap_cons, filterMap_cons,
          hmatch slot hslot d (hmem d rfl)]
        rfl
      · obtain rfl := mem_singleton.1 hpart
        exact not_mem_nicPart hdec hsizes hslot (hnics d (hmem d rfl)).2
  obtain ⟨hfirst, hclean⟩ := hnic '1' (.inl rfl) sample.networks[0]? fun d hd => mem_of_getElem? hd
  obtain ⟨hsecond, hclean'⟩ := hnic '2' (.inr rfl) sample.networks[1]? fun d hd =>
    mem_of_getElem? hd
  have hfolded : ∀ part ∈ ((hostContext sample none).foldedFilesystem.map fsPart).toList,
      ';' ∉ part ∧ matchEmbeddedNic (ν := ν) part = none := by
    intro part hpart
    rw [mem_toList] at hpart
    obtain ⟨fs, hfold, rfl⟩ := map_eq_some_iff.1 hpart
    have hmem : fs ∈ sample.filesystems := by
      rw [hostContext, buildV12Context] at hfold
      dsimp only at hfold
      split at hfold
      · exact mem_of_getElem? hfold
      · cases hfold
    refine ⟨?_, rfl⟩
    rw [fsPart]
    simp [hfs fs hmem]
  rw [parseEmbeddedNicSpeeds, flatMap_singleton, hostRow, factRow_ids, entityIds_hostNetwork,
    filterMap_splitOn_joined rfl]
  · have hnone : ((hostContext sample none).foldedFilesystem.map fsPart).toList.filterMap
        (matchEmbeddedNic (ν := ν)) = [] := filterMap_eq_nil_iff.2 fun part hpart =>
          (hfolded part hpart).2
    rw [filterMap_append, filterMap_append, hfirst, hsecond, hnone, append_nil, ← filterMap_append]
    rcases sample.networks with _ | ⟨d, _ | ⟨d', rest⟩⟩
    · rfl
    · rfl
    · rfl
  · intro part hpart
    rw [mem_append, mem_append] at hpart
    obtain (hpart | hpart) | hpart := hpart
    · exact hclean part hpart
    · exact hclean' part hpart
    · exact (hfolded part hpart).1

end

end TurboPanel.Metrics
