import TurboPanel.Js.Map
import TurboPanel.Js.Text

/-!
# A metrics sample

The sample of `metrics-contract.ts` after validation, with the derivations of
`shared-derivations.ts`. A group of readings answers a field name with a finite number or with null;
a group that the daemon did not send is absent. The numbers are of any type with an addition, in
which the source's sums are made.
-/

namespace TurboPanel.Metrics

open Js

/-! ## Readings -/

/-- A group of readings by field name, `none` for null. -/
abbrev FieldRecord (ν : Type) := Text → Option ν

/-- A device, a GPU, a signal or a source with its readings. -/
structure Entity (ν : Type) where
  id : Text
  fields : FieldRecord ν

structure HardwareSignalSample (ν : Type) extends Entity ν where
  kind : Text

structure IngressSourceSample (ν : Type) extends Entity ν where
  sourceKind : Text

inductive HostGroup where
  | cpu
  | kernel
  | memory
  | storage
  | network
  deriving DecidableEq

inductive DiagnosticsHalf where
  | cpu
  | memory
  deriving DecidableEq

inductive StorageEngine where
  | postgres
  | mysql
  | mariadb
  deriving DecidableEq

/-- The sections of `extended` with numbers. -/
inductive ExtendedSection where
  | host
  | docker
  | ingress
  | sizes
  deriving DecidableEq

structure StorageSample (ν : Type) where
  flat : FieldRecord ν
  engine : StorageEngine → FieldRecord ν

/-- A text of one entity. -/
structure EntityText where
  id : Text
  text : Text → Option Text

structure MetricsExtended (ν : Type) where
  sections : ExtendedSection → Option (FieldRecord ν)
  text : Option (Text → Option Text)
  blockDeviceText : List EntityText
  gpuText : List EntityText
  gpuSizes : List (Entity ν)
  networkSizes : List (Entity ν)
  filesystemSizes : List (Entity ν)

structure MetricEvent where
  eventId : Text
  kind : Text
  severity : Text
  time : Text
  source : Option Text
  entityId : Option Text
  /-- The payload as it is written. -/
  payload : Text

structure MetricsSample (ν : Type) where
  serverId : Text
  sampledAt : Text
  sequence : ℕ
  intervalSeconds : ν
  capabilityPlanGeneration : Option ℕ
  host : HostGroup → FieldRecord ν
  diagnostics : Option (DiagnosticsHalf → FieldRecord ν)
  router : Option (FieldRecord ν)
  storage : Option (StorageSample ν)
  dockerUsage : Option (FieldRecord ν)
  extended : Option (MetricsExtended ν)
  networks : List (Entity ν)
  filesystems : List (Entity ν)
  blockDevices : List (Entity ν)
  gpus : List (Entity ν)
  hardwareSignals : List (HardwareSignalSample ν)
  ingressSources : List (IngressSourceSample ν)
  databaseProxies : List (Entity ν)
  events : List MetricEvent

variable {ν : Type}

/-- `STORAGE_FLAT_FIELD_NAMES`. -/
def storageFlatFieldNames : List Text :=
  ["hostingUsedBytes".toList, "backupUsedBytes".toList, "dockerUsedBytes".toList, "logsUsedBytes".toList,
    "hostingFreeBytes".toList, "backupFreeBytes".toList, "logsFreeBytes".toList]

/-- The numbers that are fields of the object itself; an engine is an object of its own. -/
def StorageSample.record (storage : StorageSample ν) : FieldRecord ν := fun field =>
  if field ∈ storageFlatFieldNames then storage.flat field else none

/-- The two halves are objects, so the object itself has no numbers. -/
def diagnosticsRecord (_ : DiagnosticsHalf → FieldRecord ν) : FieldRecord ν := fun _ => none

/-- A section of `extended`, where both are there. -/
def MetricsSample.section? (sample : MetricsSample ν) (section_ : ExtendedSection) : Option (FieldRecord ν) :=
  sample.extended.bind (·.sections section_)

/-- `num(source, key)`. -/
def num (source : Option (FieldRecord ν)) (key : Text) : Option ν := source.bind (· key)

/-! ## Derivations -/

def reclaimableParts (usage : FieldRecord ν) : List ν :=
  ["imagesReclaimableBytes".toList, "volumesReclaimableBytes".toList,
    "buildCacheReclaimableBytes".toList].filterMap usage

variable [Add ν] [Zero ν]

/-- `parts.reduce((sum, part) => sum + part, 0)`. -/
def total (parts : List ν) : ν := parts.foldl (· + ·) 0

/-- Docker's own total, else the sum of the parts that were reported. -/
def dockerReclaimableBytes (docker usage : Option (FieldRecord ν)) : Option ν :=
  match num docker "reclaimableBytes".toList with
  | some own => some own
  | none =>
    let parts := (usage.map reclaimableParts).getD []
    if parts.isEmpty then none else some (total parts)

/-- The sum of the four error and drop rates, if all are known. -/
def nicProblemsPerSecond (nic : Option (Entity ν)) : Option ν := do
  let nic ← nic
  let receiveErrors ← nic.fields "receiveErrorsPerSecond".toList
  let transmitErrors ← nic.fields "transmitErrorsPerSecond".toList
  let receiveDrops ← nic.fields "receiveDropsPerSecond".toList
  let transmitDrops ← nic.fields "transmitDropsPerSecond".toList
  some (total [receiveErrors, transmitErrors, receiveDrops, transmitDrops])

def blockOpsPerSecond (device : Entity ν) : Option ν := do
  let read ← device.fields "readOpsPerSecond".toList
  let write ← device.fields "writeOpsPerSecond".toList
  some (read + write)

/-! ## Slots -/

structure SlotMapping where
  normalNicSlots : List Text
  fabricDeviceIds : List Text
  blockPageOrder : List Text
  filesystemPageOrder : List Text
  gpuPageOrder : List Text
  hardwareSignalPageOrder : List Text

/-- `new Map(entities.map((entity) => [entity.id, entity])).get(id)`. -/
def byId {ε : Type} (idOf : ε → Text) (entities : List ε) (id : Text) : Option ε :=
  (Map.ofEntries (entities.map fun entity => (idOf entity, entity))).get? id

structure NetworkSlots (ν : Type) where
  nic0 : Option (Entity ν)
  nic1 : Option (Entity ν)
  paged : List (Entity ν)

/-- `HOST_IO_EMBEDDED_NIC_SLOT_COUNT`. -/
def embeddedNicSlotCount : ℕ := 2

/-- The two network devices that ride in `host.network`, and those with rows of their own. -/
def resolveNetworkSlots (networks : List (Entity ν)) (slotMapping : Option SlotMapping) : NetworkSlots ν :=
  match slotMapping with
  | none => ⟨networks[0]?, networks[1]?, networks.drop 2⟩
  | some slots =>
    let lookup := byId Entity.id networks
    let excluded := slots.fabricDeviceIds ++ slots.normalNicSlots.take embeddedNicSlotCount
    let pagedSlots := (slots.normalNicSlots.drop embeddedNicSlotCount).filterMap lookup
    ⟨(truthy slots.normalNicSlots[0]?).bind lookup, (truthy slots.normalNicSlots[1]?).bind lookup,
      pagedSlots ++ networks.filter fun device =>
        !excluded.contains device.id && !(pagedSlots.map (·.id)).contains device.id⟩

end TurboPanel.Metrics
