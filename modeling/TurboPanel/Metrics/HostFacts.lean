import TurboPanel.Metrics.EntityRows

/-!
# Host facts

What a host last told about itself: the short texts beside a sample's numbers, the model and SMART
verdict of a drive, the driver, model and memory of a GPU, the size of a filesystem and the link
speed of a network device. The self-hosted store keeps them as `hostFactsFromSample` of
`query/host-facts.ts` reads them off the sample; the hosted store reads them back from the rows of
the sample (`parseHostFactsRows` of `host-facts-sql.ts`). Both end in the same `present…` functions,
which leave out what was not reported.
-/

namespace TurboPanel.Metrics

open Js

variable {ν : Type}

/-! ## Facts -/

structure BlockDeviceFact where
  deviceId : Text
  model : Option Text
  smart : Option Text

structure GpuFact (ν : Type) where
  gpuId : Text
  driver : Option Text
  model : Option Text
  memoryTotalBytes : Option ν

structure FilesystemFact (ν : Type) where
  filesystemId : Text
  totalBytes : Option ν
  totalInodes : Option ν

structure NetworkFact (ν : Type) where
  deviceId : Text
  linkSpeedMbps : ν

/-- The text is by its keys, in the order of the contract. -/
structure HostFacts (ν : Type) where
  text : List (Text × Text)
  blockDevices : List BlockDeviceFact
  gpus : List (GpuFact ν)
  filesystems : List (FilesystemFact ν)
  networks : List (NetworkFact ν)

def emptyHostFacts : HostFacts ν := ⟨[], [], [], [], []⟩

/-- `METRICS_TEXT_FIELD_NAMES`. -/
def metricsTextFieldNames : List Text :=
  ids ["loadavg", "topCpu", "cpuModel", "topMem", "lastOom", "unhealthyContainers", "dockerVersion", "failedUnits",
    "raidState", "rebootRequired", "kernel", "os", "bootId", "virt", "cloudProvider", "agentVersion", "timeSync",
    "pendingUpdates", "fsReadOnly", "phpVersions", "webEngines", "fpmBusiest", "topSites", "caddyVersion",
    "certSoonest", "traefikVersion", "unhealthyBackends", "dbVersions"]

/-- What the reader takes from its surroundings. -/
structure Reader (ν : Type) where
  /-- `Number(text)`, where it is finite. -/
  number : Text → Option ν
  /-- `Math.round`. -/
  round : ν → ν
  /-- `Date.parse`, where it is finite. -/
  dateParse : Text → Option ℤ

/-- The stored sample time as an ISO timestamp. -/
def sampleTimeToIso (dateParse : Text → Option ℤ) (sampled : Text) : Option Text :=
  (dateParse (replaceFirst ' ' 'T' sampled ++ ['Z'])).map isoText

/-- A size: a number as sent, or decimal text as stored. -/
inductive SizeValue (ν : Type) where
  | absent
  | number (value : ν)
  | text (text : Text)

def SizeValue.ofReading : Option ν → SizeValue ν
  | none => .absent
  | some value => .number value

structure GpuEntry (ν : Type) where
  gpuId : Text
  driver : Option Text
  model : Option Text
  memoryTotalBytes : SizeValue ν

structure FilesystemEntry (ν : Type) where
  filesystemId : Text
  totalBytes : SizeValue ν
  totalInodes : SizeValue ν

structure NetworkEntry (ν : Type) where
  deviceId : Text
  linkSpeedMbps : SizeValue ν

/-! ## What was reported -/

/-- An empty text is not reported. -/
def present (value : Option Text) : Option Text := value.filter fun text => decide (text ≠ [])

def presentHostText (source : Text → Option Text) : List (Text × Text) :=
  metricsTextFieldNames.filterMap fun key => (present (source key)).map fun text => (key, text)

def blockDeviceFact (entry : EntityText) : Option BlockDeviceFact :=
  let model := present (entry.text "model".toList)
  let smart := present (entry.text "smart".toList)
  if model.isNone && smart.isNone then none else some ⟨entry.id, model, smart⟩

def presentBlockDeviceFacts (entries : List EntityText) : List BlockDeviceFact := entries.filterMap blockDeviceFact

section

variable [Zero ν] [LE ν] [DecidableLE ν] (r : Reader ν)

def presentSize (value : SizeValue ν) : Option ν :=
  let parsed := match value with
    | .absent => none
    | .number value => some value
    | .text text => if text = [] then none else r.number text
  (parsed.filter fun value => decide (0 ≤ value)).map r.round

def gpuFact (entry : GpuEntry ν) : Option (GpuFact ν) :=
  let driver := present entry.driver
  let model := present entry.model
  let memoryTotalBytes := presentSize r entry.memoryTotalBytes
  if driver.isNone && model.isNone && memoryTotalBytes.isNone then none
  else some ⟨entry.gpuId, driver, model, memoryTotalBytes⟩

def presentGpuFacts (entries : List (GpuEntry ν)) : List (GpuFact ν) := entries.filterMap (gpuFact r)

def filesystemFact (entry : FilesystemEntry ν) : Option (FilesystemFact ν) :=
  let totalBytes := presentSize r entry.totalBytes
  let totalInodes := presentSize r entry.totalInodes
  if totalBytes.isNone && totalInodes.isNone then none else some ⟨entry.filesystemId, totalBytes, totalInodes⟩

def presentFilesystemFacts (entries : List (FilesystemEntry ν)) : List (FilesystemFact ν) :=
  entries.filterMap (filesystemFact r)

def networkFact (entry : NetworkEntry ν) : Option (NetworkFact ν) :=
  (presentSize r entry.linkSpeedMbps).map fun linkSpeedMbps => ⟨entry.deviceId, linkSpeedMbps⟩

def presentNetworkFacts (entries : List (NetworkEntry ν)) : List (NetworkFact ν) := entries.filterMap (networkFact r)

/-! ## The facts of a sample -/

/-- The texts and sizes of one GPU. -/
def gpuEntry (text : List EntityText) (sizes : List (Entity ν)) (gpuId : Text) : GpuEntry ν where
  gpuId := gpuId
  driver := (text.find? fun t => decide (t.id = gpuId)).bind (·.text "driver".toList)
  model := (text.find? fun t => decide (t.id = gpuId)).bind (·.text "model".toList)
  memoryTotalBytes := .ofReading ((sizes.find? fun s => decide (s.id = gpuId)).bind (·.fields "memoryTotalBytes".toList))

/-- GPU text with each GPU's memory size; a GPU with a size only is listed too. -/
def mergeGpuSizes (text : List EntityText) (sizes : List (Entity ν)) : List (GpuEntry ν) :=
  ((text.map (·.id) ++ sizes.map (·.id)).foldl setAdd []).map (gpuEntry text sizes)

def filesystemEntry (entry : Entity ν) : FilesystemEntry ν :=
  ⟨entry.id, .ofReading (entry.fields "totalBytes".toList), .ofReading (entry.fields "totalInodes".toList)⟩

def networkEntry (entry : Entity ν) : NetworkEntry ν := ⟨entry.id, .ofReading (entry.fields "linkSpeedMbps".toList)⟩

def hostFactsFromSample (sample : MetricsSample ν) : HostFacts ν :=
  match sample.extended with
  | none => emptyHostFacts
  | some extended =>
    { text := presentHostText fun key => extended.text.bind (· key)
      blockDevices := presentBlockDeviceFacts extended.blockDeviceText
      gpus := presentGpuFacts r (mergeGpuSizes extended.gpuText extended.gpuSizes)
      filesystems := presentFilesystemFacts r (extended.filesystemSizes.map filesystemEntry)
      networks := presentNetworkFacts r (extended.networkSizes.map networkEntry) }

end

/-! ## The rows that are read -/

/-- A row of the answer: its family, its sample time, the ids it names and its content texts. -/
structure FactRow where
  family : Text
  sampled : Text
  ids : Text
  content : List Text

/-- The columns that the statement selects. -/
def factRow (point : AnalyticsEngineDataPoint ν) : FactRow where
  family := (point.blobs[1]?).getD []
  sampled := (point.blobs[4]?).getD []
  ids := (point.blobs[5]?).getD []
  content := (point.blobs.drop v12FirstContentBlobIndex).take v12ContentBlobCapacity

/-- `FACT_ENTITY_FAMILIES`. -/
def factEntityFamilies : List V12EntityFamily := [.block, .gpu, .network, .filesystem]

/-- `FACT_FAMILIES`. -/
def factFamilies : List Text :=
  (v12HostFamilies.filter fun family => 0 < family.texts.length).map (·.text) ++ factEntityFamilies.map (·.text)

def factRowLimit : ℕ := 96

/-- The points that `buildHostFactsSql` asks for, within the window. -/
def isFactPoint (serverId : Text) (point : AnalyticsEngineDataPoint ν) : Bool :=
  (serverId :: factFamilies.map (aeIndexForFamily serverId)).contains point.index &&
    decide (point.blobs[0]? = some "metrics".toList) && decide (point.blobs[2]? = some aeStorageVersion) &&
    (factFamilies.map some).contains point.blobs[1]?

/-- An answer: points that were written at one time stand in any order. -/
def Answers (serverId : Text) (points : List (AnalyticsEngineDataPoint ν)) (rows : List FactRow) : Prop :=
  ∃ order : List (AnalyticsEngineDataPoint ν), order.Perm (points.filter (isFactPoint serverId)) ∧
    rows = (order.take factRowLimit).map factRow

/-! ## Reading the rows -/

def contentBlob (row : FactRow) (index : ℕ) : Text := (row.content[index]?).getD []

def rowsOfFamily (rows : List FactRow) (family : Text) : List FactRow :=
  rows.filter fun row => decide (row.family = family)

/-- The texts of the first row of a family, with their keys. -/
def hostTextEntries (rows : List FactRow) (family : V12HostFamily) : List (Text × Text) :=
  match (rowsOfFamily rows family.text).head? with
  | none => []
  | some row => family.texts.zipIdx.map fun (key, index) => (key, contentBlob row index)

def parseHostText (rows : List FactRow) : List (Text × Text) :=
  presentHostText (Map.ofEntries (v12HostFamilies.flatMap (hostTextEntries rows))).get?

/-- The texts of the entity at a position of a row: its blobs follow those of the entities before
it. -/
def entityTextAt (row : FactRow) (fields : List Text) (entityIndex : ℕ) (id : Text) : EntityText where
  id := id
  text key := (fields.idxOf? key).map fun fieldIndex => contentBlob row (entityIndex * fields.length + fieldIndex)

def parseEntityText (rows : List FactRow) (fields : List Text) : List EntityText :=
  rows.flatMap fun row =>
    if row.ids = [] then []
    else (row.ids.splitOn ',').zipIdx.map fun (id, entityIndex) => entityTextAt row fields entityIndex id

/-- `V12_ENTITY_TEXT_FIELDS`; the signals have none. -/
def V12EntityFamily.textFields : V12EntityFamily → List Text
  | .block => ids ["model", "smart"]
  | .gpu => ids ["driver", "model", "memoryTotal"]
  | .network => ids ["linkSpeed"]
  | .filesystem => ids ["size"]
  | .hardwarePhysical => []

/-- `<bytes>/<inodes>`, where either side may be empty. -/
def parseFilesystemSizeText (filesystemId raw : Text) : FilesystemEntry ν :=
  match raw.splitOn '/' with
  | [] => ⟨filesystemId, .text [], .text []⟩
  | [bytes] => ⟨filesystemId, .text bytes, .text []⟩
  | bytes :: inodes :: _ => ⟨filesystemId, .text bytes, .text inodes⟩

/-- What `.` does not match. -/
def isLineTerminator (c : Char) : Bool := [0x0a, 0x0d, 0x2028, 0x2029].contains c.toNat

/-- `/^nic[12]=(.+)@(\d*)$/`: no digit is an `@`, so the last one ends the id. -/
def matchEmbeddedNic : Text → Option (NetworkEntry ν)
  | 'n' :: 'i' :: 'c' :: slot :: '=' :: rest =>
    if slot = '1' ∨ slot = '2' then do
      let last ← lastIndexOf '@' rest
      let id := rest.take last
      let speed := rest.drop (last + 1)
      if id ≠ [] ∧ !id.any isLineTerminator ∧ speed.all Char.isDigit then some ⟨id, .text speed⟩ else none
    else none
  | _ => none

def parseEmbeddedNicSpeeds (rows : List FactRow) : List (NetworkEntry ν) :=
  rows.flatMap fun row => (row.ids.splitOn ';').filterMap matchEmbeddedNic

/-- The UTF-16 code units, by which texts are compared. -/
def codeUnits (text : Text) : List ℕ := text.flatMap fun c =>
  if c.toNat < 0x10000 then [c.toNat]
  else [0xD800 + (c.toNat - 0x10000) / 0x400, 0xDC00 + (c.toNat - 0x10000) % 0x400]

/-- The greatest sample time; the empty text where there is no row. -/
def newestKey (rows : List FactRow) : Text :=
  (rows.map (·.sampled)).foldl (fun a b => if codeUnits a < codeUnits b then b else a) []

structure HostFactsResult (ν : Type) where
  sampledAt : Option Text
  facts : HostFacts ν

variable [Zero ν] [LE ν] [DecidableLE ν] (r : Reader ν)

/-- What is stored of a GPU. -/
def storedGpu (entity : EntityText) : GpuEntry ν where
  gpuId := entity.id
  driver := entity.text "driver".toList
  model := entity.text "model".toList
  memoryTotalBytes := .text ((entity.text "memoryTotal".toList).getD [])

def storedFilesystem (entity : EntityText) : FilesystemEntry ν :=
  parseFilesystemSizeText entity.id ((entity.text "size".toList).getD [])

def storedNetwork (entity : EntityText) : NetworkEntry ν := ⟨entity.id, .text ((entity.text "linkSpeed".toList).getD [])⟩

/-- The facts of the newest sample among the rows; a device that only an older sample names is not
listed. -/
def parseHostFactsRows (allRows : List FactRow) : HostFactsResult ν :=
  let newest := newestKey allRows
  if newest = [] then ⟨none, emptyHostFacts⟩
  else
    let rows := allRows.filter fun row => decide (row.sampled = newest)
    let entities (family : V12EntityFamily) := parseEntityText (rowsOfFamily rows family.text) family.textFields
    { sampledAt := sampleTimeToIso r.dateParse newest
      facts :=
        { text := parseHostText rows
          blockDevices := presentBlockDeviceFacts (entities .block)
          gpus := presentGpuFacts r ((entities .gpu).map storedGpu)
          filesystems := presentFilesystemFacts r ((entities .filesystem).map storedFilesystem)
          networks := presentNetworkFacts r
            (parseEmbeddedNicSpeeds (rowsOfFamily rows V12HostFamily.hostNetwork.text) ++
              (entities .network).map storedNetwork) } }

end TurboPanel.Metrics
