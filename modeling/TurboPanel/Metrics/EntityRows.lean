import TurboPanel.Data.Slices
import TurboPanel.Js.DateText
import TurboPanel.Metrics.HostRows

/-!
# The hosted rows of a sample

`buildMetricsDataPoints` of `field-map.ts`: the host rows, the pages of drives, network devices,
filesystems, GPUs and signals with the ids of a page joined by commas, and a row for each event. A
row is twenty numbers, where a sentinel stands for null, and twenty texts. The text of a rounded
number and of a sample time are the host's own.
-/

namespace TurboPanel.Metrics

open Js Data

variable {ν : Type}

/-- What the writer takes from its surroundings. -/
structure Writer (ν : Type) where
  /-- `AE_MISSING_METRIC_SENTINEL`. -/
  sentinel : ν
  /-- `String(Math.round(value))`. -/
  roundText : ν → Text
  /-- `Date.parse`, where it is finite. -/
  dateParse : Text → Option ℤ

/-- `text.replace(a, b)`, of two characters. -/
def replaceFirst (a b : Char) : Text → Text
  | [] => []
  | c :: rest => if c = a then b :: rest else c :: replaceFirst a b rest

/-- ISO timestamp to UTC `YYYY-MM-DD hh:mm:ss`. An unparseable input yields empty text. -/
def formatAeSampleTime (dateParse : Text → Option ℤ) (iso : Text) : Text :=
  match dateParse iso with
  | none => []
  | some ms => replaceFirst 'T' ' ' ((isoText ms).take 19)

def Writer.sampleTime (w : Writer ν) (iso : Text) : Text := formatAeSampleTime w.dateParse iso

/-! ## The order of a family's pages -/

/-- The entities that the order names, each once, and the entities that are left. -/
def takeInOrder {ε : Type} : Map Text ε → List Text → List ε × Map Text ε
  | left, [] => ([], left)
  | left, id :: order =>
    match left.get? id with
    | some entity => (entity :: (takeInOrder (left.delete id) order).1, (takeInOrder (left.delete id) order).2)
    | none => takeInOrder left order

def orderByPageOrder {ε : Type} (entities : List ε) (idOf : ε → Text) (pageOrder : Option (List Text)) : List ε :=
  match pageOrder with
  | none => entities
  | some order =>
    let (ordered, left) := takeInOrder (Map.ofEntries (entities.map fun entity => (idOf entity, entity))) order
    ordered ++ entities.filter fun entity => left.has (idOf entity)

/-! ## Texts -/

section

variable (w : Writer ν)

def sizeText (value : Option ν) : Text := (value.map w.roundText).getD []

/-- A number that `extended` lists for an entity. -/
def sizeOf (sizes : MetricsExtended ν → List (Entity ν)) (sample : MetricsSample ν) (id field : Text) : Option ν := do
  let extended ← sample.extended
  let entry ← (sizes extended).find? fun entry => decide (entry.id = id)
  entry.fields field

/-- A text that `extended` lists for an entity. -/
def entityText (texts : MetricsExtended ν → List EntityText) (sample : MetricsSample ν) (id key : Text) : Text :=
  ((sample.extended.bind fun extended => (texts extended).find? fun entry => decide (entry.id = id)).bind
    (·.text key)).getD []

def filesystemSizeText (sample : MetricsSample ν) (filesystemId : Text) : Text :=
  match filesystemSizeOf sample filesystemId "totalBytes".toList,
    filesystemSizeOf sample filesystemId "totalInodes".toList with
  | none, none => []
  | bytes, inodes => sizeText w bytes ++ '/' :: sizeText w inodes

def linkSpeedOf (sample : MetricsSample ν) (deviceId : Text) : Option ν :=
  sizeOf MetricsExtended.networkSizes sample deviceId "linkSpeedMbps".toList

def gpuMemoryTotalOf (sample : MetricsSample ν) (gpuId : Text) : Option ν :=
  sizeOf MetricsExtended.gpuSizes sample gpuId "memoryTotalBytes".toList

/-- `nic1=<id>@<speed>;nic2=<id>@<speed>;fs=<id>` on `host.network`, without the parts that are not
there. -/
def v12HostRowEntityIds (family : V12HostFamily) (ctx : V12Context ν) : Text :=
  if family = .hostNetwork then
    let nicPart (number : Char) (nic : Entity ν) : Text :=
      "nic".toList ++ number :: '=' :: nic.id ++ '@' :: sizeText w (linkSpeedOf ctx.sample nic.id)
    [';'].intercalate ((ctx.nic0.map (nicPart '1')).toList ++ (ctx.nic1.map (nicPart '2')).toList ++
      (ctx.foldedFilesystem.map fun fs => "fs=".toList ++ fs.id).toList)
  else []

end

/-! ## Pages -/

inductive V12EntityFamily where
  | block
  | network
  | filesystem
  | gpu
  | hardwarePhysical
  deriving DecidableEq

def V12EntityFamily.text : V12EntityFamily → Text
  | .block => "block".toList
  | .network => "network".toList
  | .filesystem => "filesystem".toList
  | .gpu => "gpu".toList
  | .hardwarePhysical => "hardware.physical".toList

structure EntityRowSpec (ε ν : Type) where
  idOf : ε → Text
  /-- The doubles of an entity: a field and its reader. -/
  doubles : List (Text × (ε → MetricsSample ν → Option ν))
  /-- The texts of an entity. -/
  blobs : List (ε → MetricsSample ν → Text)
  /-- The texts of the whole row. -/
  pageBlobs : List (List ε → MetricsSample ν → Text)
  perPage : ℕ

/-- `V12_DOUBLE_SLOTS`. -/
def v12DoubleSlots : ℕ := 19

def entityNum (field : Text) : Text × (Entity ν → MetricsSample ν → Option ν) :=
  (field, fun entity _ => entity.fields field)

section

variable (w : Writer ν)

def blockSpec [Add ν] : EntityRowSpec (Entity ν) ν where
  idOf := Entity.id
  doubles := [entityNum "readBytesPerSecond".toList, entityNum "writeBytesPerSecond".toList,
    ("opsPerSecond".toList, fun device _ => blockOpsPerSecond device), entityNum "readLatencyMs".toList,
    entityNum "writeLatencyMs".toList, entityNum "queueDepth".toList]
  blobs := [fun d s => entityText MetricsExtended.blockDeviceText s d.id "model".toList,
    fun d s => entityText MetricsExtended.blockDeviceText s d.id "smart".toList]
  pageBlobs := []
  perPage := 3

def networkSpec : EntityRowSpec (Entity ν) ν where
  idOf := Entity.id
  doubles := [entityNum "receiveBytesPerSecond".toList, entityNum "transmitBytesPerSecond".toList,
    entityNum "receiveErrorsPerSecond".toList, entityNum "transmitErrorsPerSecond".toList,
    entityNum "receiveDropsPerSecond".toList, entityNum "transmitDropsPerSecond".toList]
  blobs := [fun nic s => sizeText w (linkSpeedOf s nic.id)]
  pageBlobs := []
  perPage := 3

def filesystemSpec : EntityRowSpec (Entity ν) ν where
  idOf := Entity.id
  doubles := [entityNum "availableBytes".toList, entityNum "freeInodes".toList]
  blobs := [fun fs s => filesystemSizeText w s fs.id]
  pageBlobs := []
  perPage := 9

def gpuSpec : EntityRowSpec (Entity ν) ν where
  idOf := Entity.id
  doubles := [entityNum "utilizationPercent".toList, entityNum "memoryUsedBytes".toList,
    entityNum "memoryActivityPercent".toList, entityNum "pcieReceiveBytesPerSecond".toList,
    entityNum "pcieTransmitBytesPerSecond".toList, entityNum "throttlePercent".toList]
  blobs := [fun g s => entityText MetricsExtended.gpuText s g.id "driver".toList,
    fun g s => entityText MetricsExtended.gpuText s g.id "model".toList,
    fun g s => sizeText w (gpuMemoryTotalOf s g.id)]
  pageBlobs := []
  perPage := 3

def signalSpec : EntityRowSpec (HardwareSignalSample ν) ν where
  idOf signal := signal.id
  doubles := [("value".toList, fun signal _ => signal.fields "value".toList)]
  blobs := []
  pageBlobs := [fun signals _ => [','].intercalate (signals.map (·.kind))]
  perPage := v12DoubleSlots

end

structure V12EntityPage (ν : Type) extends V12RowValues ν where
  ids : Text

/-- What is written into the doubles of a page, entity by entity. -/
def cells {ε : Type} (spec : EntityRowSpec ε ν) (sample : MetricsSample ν) (chunk : List ε) : List (ℕ × Option ν) :=
  chunk.zipIdx.flatMap fun (entity, entityIndex) =>
    spec.doubles.zipIdx.map fun (slot, fieldIndex) =>
      (entityIndex * spec.doubles.length + fieldIndex, slot.2 entity sample)

def entityPage {ε : Type} (spec : EntityRowSpec ε ν) (sample : MetricsSample ν) (chunk : List ε) : V12EntityPage ν where
  doubles := (cells spec sample chunk).foldl (fun doubles cell => doubles.set cell.1 cell.2)
    (List.replicate v12DoubleSlots none)
  blobs := (chunk.flatMap fun entity => spec.blobs.map fun blob => blob entity sample) ++
    spec.pageBlobs.map fun blob => blob chunk sample
  ids := [','].intercalate (chunk.map spec.idOf)

def packEntityPages {ε : Type} (entities : List ε) (spec : EntityRowSpec ε ν) (sample : MetricsSample ν) :
    List (V12EntityPage ν) :=
  (slices spec.perPage entities).map (entityPage spec sample)

/-! ## Points -/

structure AnalyticsEngineDataPoint (ν : Type) where
  index : Text
  doubles : List ν
  blobs : List Text

def aeDoubleCount : ℕ := 20

def aeBlobCount : ℕ := 20

def aeDoubleIntervalIndex : ℕ := 19

def v12FirstContentBlobIndex : ℕ := 6

def v12ContentBlobCapacity : ℕ := 14

def aeStorageVersion : Text := "12".toList

/-- A point's index: the server itself for `host.system`, else with the family. -/
def aeIndexForFamily (serverId family : Text) : Text :=
  if family = V12HostFamily.hostSystem.text then serverId else serverId ++ ':' :: family

/-- These values from an index on. -/
def writesFrom {α : Type} (start : ℕ) (values : List α) : List (ℕ × α) :=
  values.zipIdx.map fun (value, i) => (start + i, value)

/-- The texts of a point, with these written. -/
def blobsOf (writes : List (ℕ × Text)) : List Text :=
  writes.foldl (fun blobs write => blobs.set write.1 write.2) (List.replicate aeBlobCount [])

section

variable (w : Writer ν)

/-- `none` where the source throws. -/
def buildMetricsBlobs (sample : MetricsSample ν) (family entityIds : Text) (content : List Text) : Option (List Text) :=
  if v12ContentBlobCapacity < content.length then none
  else some (blobsOf ([(0, "metrics".toList), (1, family), (2, aeStorageVersion), (4, w.sampleTime sample.sampledAt),
    (5, entityIds)] ++ writesFrom v12FirstContentBlobIndex content))

def nullToSentinel (value : Option ν) : ν := value.getD w.sentinel

def v12Point (sample : MetricsSample ν) (family entityIds : Text) (values : V12RowValues ν) :
    Option (AnalyticsEngineDataPoint ν) := do
  let blobs ← buildMetricsBlobs w sample family entityIds values.blobs
  -- Writing past the end makes the array longer, and the check of its shape throws.
  if aeDoubleCount < values.doubles.length then none
  else some {
    index := aeIndexForFamily sample.serverId family
    doubles := (writesFrom 0 (values.doubles.map (nullToSentinel w)) ++ [(aeDoubleIntervalIndex,
      sample.intervalSeconds)]).foldl (fun doubles write => doubles.set write.1 write.2)
        (List.replicate aeDoubleCount w.sentinel)
    blobs := blobs }

def buildEventDataPoint (sample : MetricsSample ν) (event : MetricEvent) : AnalyticsEngineDataPoint ν where
  index := aeIndexForFamily sample.serverId "event".toList
  doubles := (List.replicate aeDoubleCount w.sentinel).set aeDoubleIntervalIndex sample.intervalSeconds
  blobs := blobsOf [(0, "event".toList), (1, event.kind), (2, aeStorageVersion), (4, w.sampleTime event.time),
    (5, Nat.toDigits 10 sample.sequence), (7, (sample.capabilityPlanGeneration.map (Nat.toDigits 10)).getD []),
    (8, "0".toList), (9, event.source.getD []), (10, event.entityId.getD []), (11, event.payload), (12, event.eventId),
    (16, event.severity)]

def entityPoints (sample : MetricsSample ν) (family : V12EntityFamily) (pages : List (V12EntityPage ν)) :
    Option (List (AnalyticsEngineDataPoint ν)) :=
  pages.mapM fun page => v12Point w sample family.text page.ids page.toV12RowValues

def hasManagedDatabase (sample : MetricsSample ν) : Bool :=
  !sample.databaseProxies.isEmpty || sample.storage.any fun storage =>
    [StorageEngine.postgres, .mysql, .mariadb].any fun engine =>
      (storage.engine engine "instancesRunning".toList).isSome || (storage.engine engine "instancesHealthy".toList).isSome

def buildV12Context (sample : MetricsSample ν) (nic0 nic1 : Option (Entity ν)) : V12Context ν where
  sample := sample
  nic0 := nic0
  nic1 := nic1
  foldedFilesystem := if sample.filesystems.length = 1 then sample.filesystems[0]? else none
  ingress := (sample.ingressSources.find? fun s => decide (s.sourceKind = "caddy".toList)).or sample.ingressSources[0]?
  proxy := sample.databaseProxies[0]?

/-! ## The limit of an invocation -/

def aeMaxDataPointsPerInvocation : ℕ := 250

/-- Host rows first, then events, then the rest. -/
def invocationPriority (point : AnalyticsEngineDataPoint ν) : ℕ :=
  if point.blobs[0]? = some "metrics".toList then
    if point.blobs[1]? ∈ [V12HostFamily.hostSystem, .hostIo, .hostNetwork, .hostWeb].map (fun f => some f.text) then 0
    else 2
  else if point.blobs[0]? = some "event".toList then 1
  else 2

/-- The points of the highest priority, in the order they came in. -/
def capToInvocationLimit (points : List (AnalyticsEngineDataPoint ν)) : List (AnalyticsEngineDataPoint ν) :=
  if points.length ≤ aeMaxDataPointsPerInvocation then points
  else
    let byPriority := points.zipIdx.mergeSort fun a b =>
      decide (invocationPriority a.1 < invocationPriority b.1) ||
        decide (invocationPriority a.1 = invocationPriority b.1) && decide (a.2 ≤ b.2)
    ((byPriority.take aeMaxDataPointsPerInvocation).mergeSort fun a b => decide (a.2 ≤ b.2)).map Prod.fst

/-! ## All points of a sample -/

variable [Add ν] [Zero ν]

/-- The pages in the order of their families; one drive is in `host.io`, one filesystem is folded.
-/
def buildEntityPoints (sample : MetricsSample ν) (pagedNetworks : List (Entity ν)) (slotMapping : Option SlotMapping) :
    Option (List (AnalyticsEngineDataPoint ν)) := do
  let blocks := if 1 < sample.blockDevices.length then
    orderByPageOrder sample.blockDevices Entity.id (slotMapping.map (·.blockPageOrder)) else []
  let filesystems := if 1 < sample.filesystems.length then
    orderByPageOrder sample.filesystems Entity.id (slotMapping.map (·.filesystemPageOrder)) else []
  let gpus := orderByPageOrder sample.gpus Entity.id (slotMapping.map (·.gpuPageOrder))
  let signals := orderByPageOrder sample.hardwareSignals (·.id) (slotMapping.map (·.hardwareSignalPageOrder))
  let blockPoints ← entityPoints w sample .block (packEntityPages blocks blockSpec sample)
  let networkPoints ← entityPoints w sample .network (packEntityPages pagedNetworks (networkSpec w) sample)
  let filesystemPoints ← entityPoints w sample .filesystem (packEntityPages filesystems (filesystemSpec w) sample)
  let gpuPoints ← entityPoints w sample .gpu (packEntityPages gpus (gpuSpec w) sample)
  let signalPoints ← entityPoints w sample .hardwarePhysical (packEntityPages signals signalSpec sample)
  some (blockPoints ++ networkPoints ++ filesystemPoints ++ gpuPoints ++ signalPoints)

/-- The points before the limit of an invocation. -/
def metricsDataPoints (sample : MetricsSample ν) (slotMapping : Option SlotMapping) :
    Option (List (AnalyticsEngineDataPoint ν)) := do
  let slots := resolveNetworkSlots sample.networks slotMapping
  let ctx := buildV12Context sample slots.nic0 slots.nic1
  let hostPoints ← (v12HostFamilies.filter fun family => family ≠ .managedDatabase || hasManagedDatabase sample).mapM
    fun family => v12Point w sample family.text (v12HostRowEntityIds w family ctx) (v12HostRowValues family ctx)
  let pages ← buildEntityPoints w sample slots.paged slotMapping
  some (hostPoints ++ pages ++ sample.events.map (buildEventDataPoint w sample))

def buildMetricsDataPoints (sample : MetricsSample ν) (slotMapping : Option SlotMapping) :
    Option (List (AnalyticsEngineDataPoint ν)) :=
  (metricsDataPoints w sample slotMapping).map capToInvocationLimit

end

/-- Where field `fieldIndex` of the entity at `slotPosition` of a page lies. -/
def slotDoubleIndex (width slotPosition fieldIndex : ℕ) : ℕ := slotPosition * width + fieldIndex

end TurboPanel.Metrics
