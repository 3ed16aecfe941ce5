import TurboPanel.Metrics.Sample

/-!
# The host rows

The static row table of `v12-layout.ts`: what is read for each slot id, which ids stand in which
host row, and where a contract field is stored. A slot is found by the text `scope.field`; no scope
is a prefix of another up to a dot, so that text belongs to one field (`key_injective`).
-/

namespace TurboPanel.Metrics

open Js

inductive V12HostFamily where
  | hostSystem
  | hostIo
  | hostNetwork
  | hostWeb
  | managedDatabase
  deriving DecidableEq

/-- `V12_HOST_FAMILIES`. -/
def v12HostFamilies : List V12HostFamily := [.hostSystem, .hostIo, .hostNetwork, .hostWeb, .managedDatabase]

def V12HostFamily.text : V12HostFamily → Text
  | .hostSystem => "host.system".toList
  | .hostIo => "host.io".toList
  | .hostNetwork => "host.network".toList
  | .hostWeb => "host.web".toList
  | .managedDatabase => "managed.database".toList

inductive MetricEntityScope where
  | host (group : HostGroup)
  | network
  | filesystem
  | block
  | gpu
  | hardwareSignal
  | ingress
  | databaseProxy
  | router
  | storage
  | dockerUsage
  | diagnostics
  | extended (part : ExtendedSection)
  deriving DecidableEq

def MetricEntityScope.text : MetricEntityScope → Text
  | .host .cpu => "host.cpu".toList
  | .host .kernel => "host.kernel".toList
  | .host .memory => "host.memory".toList
  | .host .storage => "host.storage".toList
  | .host .network => "host.network".toList
  | .network => "network".toList
  | .filesystem => "filesystem".toList
  | .block => "block".toList
  | .gpu => "gpu".toList
  | .hardwareSignal => "hardwareSignal".toList
  | .ingress => "ingress".toList
  | .databaseProxy => "databaseProxy".toList
  | .router => "router".toList
  | .storage => "storage".toList
  | .dockerUsage => "dockerUsage".toList
  | .diagnostics => "diagnostics".toList
  | .extended .host => "extended.host".toList
  | .extended .docker => "extended.docker".toList
  | .extended .ingress => "extended.ingress".toList
  | .extended .sizes => "extended.sizes".toList

/-- What a row builder reads besides the sample. -/
structure V12Context (ν : Type) where
  sample : MetricsSample ν
  nic0 : Option (Entity ν)
  nic1 : Option (Entity ν)
  foldedFilesystem : Option (Entity ν)
  ingress : Option (IngressSourceSample ν)
  proxy : Option (Entity ν)

/-! ## Readers -/

/-- The scopes of the sample with one group of readings. -/
inductive SampleScope where
  | router
  | storage
  | dockerUsage
  deriving DecidableEq

inductive NicReading where
  | rx
  | tx
  | problems
  deriving DecidableEq

/-- What stands behind a slot id. -/
inductive DoubleDef where
  | hostField (group : HostGroup) (field : Text)
  | extended (part : ExtendedSection) (field : Text)
  | diagnostics (half : DiagnosticsHalf) (field : Text)
  | sampleScope (scope : SampleScope) (field : Text)
  | engineField (engine : StorageEngine) (field : Text)
  | ingressField (field : Text)
  | proxyField (field : Text)
  | embeddedNic0 (key : NicReading)
  | embeddedNic1 (key : NicReading)
  | reclaimableTotal
  | foldedFilesystemField (field : Text)
  | foldedFilesystemSize (field : Text)
  deriving DecidableEq

def StorageEngine.text : StorageEngine → Text
  | .postgres => "postgres".toList
  | .mysql => "mysql".toList
  | .mariadb => "mariadb".toList

/-- `storageEngineFieldName`. -/
def storageEngineFieldName (engine : StorageEngine) (field : Text) : Text :=
  engine.text ++ (field.take 1).map Char.toUpper ++ field.drop 1

def SampleScope.scope : SampleScope → MetricEntityScope
  | .router => .router
  | .storage => .storage
  | .dockerUsage => .dockerUsage

/-- The contract field of a slot, where it has one. -/
def DoubleDef.ref : DoubleDef → Option (MetricEntityScope × Text)
  | .hostField group field => some (.host group, field)
  | .extended part field => some (.extended part, field)
  | .diagnostics _ field => some (.diagnostics, field)
  | .sampleScope scope field => some (scope.scope, field)
  | .engineField engine field => some (.storage, storageEngineFieldName engine field)
  | .ingressField field => some (.ingress, field)
  | .proxyField field => some (.databaseProxy, field)
  | .reclaimableTotal => some (.extended .docker, "reclaimableBytes".toList)
  | .embeddedNic0 _ | .embeddedNic1 _ | .foldedFilesystemField _ | .foldedFilesystemSize _ => none

section

variable {ν : Type}

def SampleScope.group (sample : MetricsSample ν) : SampleScope → Option (FieldRecord ν)
  | .router => sample.router
  | .storage => sample.storage.map StorageSample.record
  | .dockerUsage => sample.dockerUsage

def filesystemSizeOf (sample : MetricsSample ν) (filesystemId field : Text) : Option ν := do
  let extended ← sample.extended
  let entry ← extended.filesystemSizes.find? fun entry => decide (entry.id = filesystemId)
  entry.fields field

variable [Add ν] [Zero ν]

def embeddedNic (nic : Option (Entity ν)) : NicReading → Option ν
  | .rx => num (nic.map (·.fields)) "receiveBytesPerSecond".toList
  | .tx => num (nic.map (·.fields)) "transmitBytesPerSecond".toList
  | .problems => nicProblemsPerSecond nic

def DoubleDef.read (c : V12Context ν) : DoubleDef → Option ν
  | .hostField group field => num (some (c.sample.host group)) field
  | .extended part field => num (c.sample.section? part) field
  | .diagnostics half field => num (c.sample.diagnostics.map (· half)) field
  | .sampleScope scope field => num (scope.group c.sample) field
  | .engineField engine field => num (c.sample.storage.map (·.engine engine)) field
  | .ingressField field => num (c.ingress.map (·.fields)) field
  | .proxyField field => num (c.proxy.map (·.fields)) field
  | .embeddedNic0 key => embeddedNic c.nic0 key
  | .embeddedNic1 key => embeddedNic c.nic1 key
  | .reclaimableTotal => dockerReclaimableBytes (c.sample.section? .docker) c.sample.dockerUsage
  | .foldedFilesystemField field => num (c.foldedFilesystem.map (·.fields)) field
  | .foldedFilesystemSize field => c.foldedFilesystem.bind fun fs => filesystemSizeOf c.sample fs.id field

end

/-! ## The table -/

/-- The entries of `DOUBLE_DEFS`, for the fields of one reader. -/
def defsOf (reader : Text → DoubleDef) (ids : List (String × String)) : List (Text × DoubleDef) :=
  ids.map fun (id, field) => (id.toList, reader field.toList)

/-- `DOUBLE_DEFS`, reader by reader. -/
def doubleDefs : List (Text × DoubleDef) :=
  defsOf (.hostField .cpu) [("busy", "busyPercent"), ("user", "userPercent"), ("system", "systemPercent"),
    ("iowait", "iowaitPercent"), ("steal", "stealPercent"), ("softirq", "softirqPercent"),
    ("cpuPsi", "pressureSomePercent")] ++
  defsOf (.extended .host) [("irqPsiFull", "irqPressureFullPercent"), ("oomKills", "oomKills"),
    ("pidLimit", "pidLimitUsedPercent"), ("rootQueue", "rootDiskQueueDepth"), ("rootOps", "rootDiskOpsPerSecond"),
    ("systemdFailed", "systemdUnitsFailed"), ("mdDegraded", "mdArraysDegraded")] ++
  defsOf (.hostField .memory) [("used", "usedBytes"), ("cachedFiles", "cachedFilesBytes"),
    ("swapUsed", "swapUsedBytes"), ("memPsiSome", "pressureSomePercent"), ("memPsiFull", "pressureFullPercent")] ++
  defsOf (.hostField .kernel) [("fileHandles", "fileHandlesUsedPercent"), ("conntrack", "conntrackUsedPercent")] ++
  defsOf (.extended .sizes) [("memTotal", "memoryTotalBytes"), ("swapTotal", "swapTotalBytes"),
    ("commitLimit", "commitLimitBytes"), ("cores", "logicalCores"), ("rootTotal", "rootFilesystemTotalBytes"),
    ("rootInodesTotal", "rootFilesystemTotalInodes")] ++
  defsOf (.hostField .storage) [("ioPsiSome", "ioPressureSomePercent"), ("ioPsiFull", "ioPressureFullPercent"),
    ("diskRead", "diskReadBytesPerSecond"), ("diskWrite", "diskWriteBytesPerSecond"),
    ("diskLatency", "diskLatencyMs"), ("rootAvail", "rootFilesystemAvailableBytes"),
    ("rootInodes", "rootFilesystemFreeInodes")] ++
  defsOf (.extended .docker) [("ctrRunning", "containersRunning"), ("ctrUnhealthy", "containersUnhealthy"),
    ("ctrRestarting", "containersRestarting"), ("ctrOom", "containerOomEvents"), ("ctrDie", "containerDieEvents"),
    ("ctrCpu", "containersCpuPercent"), ("ctrMem", "containersMemoryBytes")] ++
  defsOf (.sampleScope .dockerUsage) [("layers", "layersBytes"), ("ctrBytes", "containersBytes"),
    ("volumes", "volumesBytes"), ("buildCache", "buildCacheBytes")] ++
  [("reclTotal".toList, .reclaimableTotal)] ++
  defsOf .foldedFilesystemField [("fs_availableBytes", "availableBytes"), ("fs_freeInodes", "freeInodes")] ++
  defsOf .foldedFilesystemSize [("fs_totalBytes", "totalBytes"), ("fs_totalInodes", "totalInodes")] ++
  defsOf (.hostField .network) [("tcpRetrans", "tcpRetransmitPercent")] ++
  [("nic1.rx".toList, .embeddedNic0 .rx), ("nic1.tx".toList, .embeddedNic0 .tx),
    ("nic1.problems".toList, .embeddedNic0 .problems), ("nic2.rx".toList, .embeddedNic1 .rx),
    ("nic2.tx".toList, .embeddedNic1 .tx), ("nic2.problems".toList, .embeddedNic1 .problems)] ++
  defsOf (.diagnostics .memory) [("dCommit", "committedAsBytes")] ++
  defsOf (.sampleScope .router) [("tTotal", "backendsTotal"), ("t5xx", "backendErrors5xx"),
    ("tLatency", "backendLatencyMsAvg")] ++
  defsOf (.sampleScope .storage) [("hostingUsed", "hostingUsedBytes"), ("backupUsed", "backupUsedBytes"),
    ("backupFree", "backupFreeBytes")] ++
  defsOf .ingressField [("cReq", "requests"), ("c4xx", "responses4xx"), ("c5xx", "responses5xx"),
    ("cErr", "requestErrors"), ("cReqB", "requestBytes"), ("cRespB", "responseBytes"),
    ("cDur", "requestDurationSecondsSum"), ("cB100", "bucket100ms"), ("cB500", "bucket500ms"),
    ("cB1s", "bucket1s"), ("cInFlight", "requestsInFlight")] ++
  defsOf (.extended .ingress) [("cTls", "tlsCertSoonestExpiryDays")] ++
  defsOf (.engineField .postgres) [("dbpostgresInstancesRunning", "instancesRunning"),
    ("dbpostgresInstancesHealthy", "instancesHealthy")] ++
  defsOf (.engineField .mysql) [("dbmysqlInstancesRunning", "instancesRunning"),
    ("dbmysqlInstancesHealthy", "instancesHealthy")] ++
  defsOf (.engineField .mariadb) [("dbmariadbInstancesRunning", "instancesRunning"),
    ("dbmariadbInstancesHealthy", "instancesHealthy")] ++
  defsOf .proxyField [("pxqueries", "queries"), ("pxslowQueries", "slowQueries"),
    ("pxqueryLatencyMsAvg", "queryLatencyMsAvg"), ("pxbackendLatencyMsAvg", "backendLatencyMsAvg"),
    ("pxactiveTransactions", "activeTransactions"), ("pxclientConnections", "clientConnections"),
    ("pxclientConnectionsAborted", "clientConnectionsAborted"),
    ("pxconnectionsRejectedMaxConns", "connectionsRejectedMaxConns"),
    ("pxbackendConnections", "backendConnections"), ("pxconnectionErrors", "connectionErrors"),
    ("pxbackendsUp", "backendsUp"), ("pxbackendsTotal", "backendsTotal")]

/-- `defOf`, `none` where it throws. -/
def defOf (id : Text) : Option DoubleDef := doubleDefs.lookup id

def ids (list : List String) : List Text := list.map String.toList

/-- The doubles of `V12_HOST_ROW_SPECS`; `none` is a spare slot. -/
def V12HostFamily.doubles : V12HostFamily → List (Option Text)
  | .hostSystem => (ids ["busy", "user", "system", "iowait", "steal", "softirq", "cores", "cpuPsi", "irqPsiFull",
      "memPsiSome", "memPsiFull", "used", "cachedFiles", "swapUsed", "memTotal", "swapTotal", "oomKills",
      "dCommit", "commitLimit"]).map some
  | .hostIo => (ids ["ioPsiSome", "ioPsiFull", "diskRead", "diskWrite", "diskLatency", "rootQueue", "rootOps",
      "rootAvail", "rootTotal", "rootInodes", "rootInodesTotal", "fs_availableBytes", "fs_totalBytes",
      "fs_freeInodes", "fs_totalInodes", "hostingUsed", "backupUsed", "backupFree", "mdDegraded"]).map some
  | .hostNetwork => (ids ["tcpRetrans", "nic1.rx", "nic1.tx", "nic1.problems", "nic2.rx", "nic2.tx", "nic2.problems",
      "ctrRunning", "ctrUnhealthy", "ctrRestarting", "ctrOom", "ctrDie", "ctrCpu", "ctrMem", "layers",
      "ctrBytes", "volumes", "buildCache", "reclTotal"]).map some
  | .hostWeb => (ids ["cReq", "c4xx", "c5xx", "cErr", "cReqB", "cRespB", "cDur", "cB100", "cB500", "cB1s",
      "cInFlight", "cTls", "tTotal", "t5xx", "tLatency", "conntrack", "fileHandles", "pidLimit",
      "systemdFailed"]).map some
  | .managedDatabase => (ids ["dbpostgresInstancesRunning", "dbpostgresInstancesHealthy", "dbmysqlInstancesRunning",
      "dbmysqlInstancesHealthy", "dbmariadbInstancesRunning", "dbmariadbInstancesHealthy", "pxqueries",
      "pxslowQueries", "pxqueryLatencyMsAvg", "pxbackendLatencyMsAvg", "pxactiveTransactions",
      "pxclientConnections", "pxclientConnectionsAborted", "pxconnectionsRejectedMaxConns",
      "pxbackendConnections", "pxconnectionErrors", "pxbackendsUp", "pxbackendsTotal"]).map some ++ [none]

/-- The text ids of `V12_HOST_ROW_SPECS`, as the keys of `extended.text` that `TEXT_KEYS` gives for
them. -/
def V12HostFamily.texts : V12HostFamily → List Text
  | .hostSystem => ids ["loadavg", "topCpu", "cpuModel", "topMem", "lastOom", "kernel", "os", "bootId", "virt",
      "cloudProvider", "agentVersion", "timeSync", "pendingUpdates", "rebootRequired"]
  | .hostIo => ids ["fsReadOnly", "raidState"]
  | .hostNetwork => ids ["unhealthyContainers", "dockerVersion"]
  | .hostWeb => ids ["fpmBusiest", "topSites", "caddyVersion", "certSoonest", "traefikVersion",
      "unhealthyBackends", "phpVersions", "webEngines", "failedUnits"]
  | .managedDatabase => ids ["dbVersions"]

section

variable {ν : Type} [Add ν] [Zero ν]

structure V12RowValues (ν : Type) where
  doubles : List (Option ν)
  blobs : List Text

def textOf (c : V12Context ν) (key : Text) : Text :=
  ((c.sample.extended.bind (·.text)).bind (· key)).getD []

def v12HostRowValues (family : V12HostFamily) (ctx : V12Context ν) : V12RowValues ν where
  doubles := family.doubles.map fun id => (id.bind defOf).bind (·.read ctx)
  blobs := family.texts.map (textOf ctx)

theorem getElem?_v12HostRowValues {family : V12HostFamily} {i : ℕ} {id : Text} {d : DoubleDef}
    (hid : family.doubles[i]? = some (some id)) (hdef : defOf id = some d) (ctx : V12Context ν) :
    (v12HostRowValues family ctx).doubles[i]? = some (d.read ctx) := by
  rw [v12HostRowValues]
  dsimp only
  rw [List.getElem?_map, hid]
  change some ((defOf id).bind (·.read ctx)) = some (d.read ctx)
  rw [hdef]
  rfl

end

/-! ## Where a field is stored -/

structure V12Slot where
  family : V12HostFamily
  doubleIndex : ℕ

def key (scope : MetricEntityScope) (field : Text) : Text := scope.text ++ '.' :: field

def slotsOf (family : V12HostFamily) : List (Text × V12Slot) :=
  family.doubles.zipIdx.filterMap fun (id, doubleIndex) =>
    ((id.bind defOf).bind DoubleDef.ref).map fun ref => (key ref.1 ref.2, ⟨family, doubleIndex⟩)

/-- `SLOT_BY_REF`. -/
def slotByRef : Map Text V12Slot := Map.ofEntries (v12HostFamilies.flatMap slotsOf)

def v12HostSlotFor (scope : MetricEntityScope) (field : Text) : Option V12Slot := slotByRef.get? (key scope field)

end TurboPanel.Metrics
