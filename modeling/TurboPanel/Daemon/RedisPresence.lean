import TurboPanel.Data.Interleaving

/-!
# The presence of a daemon in Redis

The socket part of `daemon/cell/redis/cell.ts`, for one server: `attachDaemonSocket`,
`detachDaemonSocket`, `recordInbound` and `reconcileStalePresence`, with the scripts of `lua.ts`.
The lease key holds the connection that has the socket, the meta hash says whether it is connected,
and the online set holds the servers that are. Each command and each script is atomic; between two
commands of a call, those of others may come. A cell is an object of one process, with its own hints
about the connection, and there may be several for the server.

Times are in milliseconds. The connection hash and the outbox stream are left out: nothing here
reads them.
-/

namespace TurboPanel.DaemonCell

open Interleaving

/-- What `crypto.randomUUID` gave. -/
abbrev ConnectionId := ℕ

abbrev CellId := ℕ

abbrev Time := ℤ

/-- `DAEMON_STALE_MS`. -/
def daemonStaleMs : Time := 60000

/-- `DAEMON_OFFLINE_SWEEP_MS`. -/
def daemonOfflineSweepMs : Time := 150000

/-- `HEARTBEAT_COALESCE_MS - COALESCE_TIMER_SKEW_MS`. -/
def presenceCoalesceFloorMs : Time := 60000 - 10000

/-! ## What is stored -/

structure DaemonBuildInfo where
  commit : String
  buildId : String
  builtAt : Option String
  channel : Option String
  version : Option String

/-- The meta hash, and the fields that an `HSET` gives it. -/
structure Meta where
  /-- `'1'` or `'0'`. -/
  connected : Option Bool := none
  connectionId : Option ConnectionId := none
  remoteAddress : Option String := none
  connectedAt : Option Time := none
  lastSeenAt : Option Time := none
  lastInboundAt : Option Time := none
  keyLastUsedAt : Option Time := none
  daemonBuild : Option DaemonBuildInfo := none
  snapshotVersion : Option ℕ := none
  updatedAt : Option Time := none

def Meta.hset (old fields : Meta) : Meta where
  connected := fields.connected <|> old.connected
  connectionId := fields.connectionId <|> old.connectionId
  remoteAddress := fields.remoteAddress <|> old.remoteAddress
  connectedAt := fields.connectedAt <|> old.connectedAt
  lastSeenAt := fields.lastSeenAt <|> old.lastSeenAt
  lastInboundAt := fields.lastInboundAt <|> old.lastInboundAt
  keyLastUsedAt := fields.keyLastUsedAt <|> old.keyLastUsedAt
  daemonBuild := fields.daemonBuild <|> old.daemonBuild
  snapshotVersion := fields.snapshotVersion <|> old.snapshotVersion
  updatedAt := fields.updatedAt <|> old.updatedAt

/-- `DaemonCellSnapshot`, the fields that are written here. -/
structure Snapshot where
  version : ℕ
  updatedAt : Time
  remoteAddress : Option String := none
  connected : Bool
  connectedAt : Option Time := none
  lastInboundAt : Option Time := none
  lastSeenAt : Option Time := none
  keyLastUsedAt : Option Time := none
  daemonBuild : Option DaemonBuildInfo := none

/-- `Partial<DaemonCellSnapshot>`; an address may be given as `undefined`. -/
structure SnapshotPatch where
  remoteAddress : Option (Option String) := none
  connected : Option Bool := none
  connectedAt : Option Time := none
  lastInboundAt : Option Time := none
  lastSeenAt : Option Time := none
  daemonBuild : Option DaemonBuildInfo := none

/-- `#connectedHint` and `#lastInboundMs` of a cell. -/
structure Hints where
  connectedHint : Bool := false
  lastInboundMs : Time := 0

structure Redis where
  lease : Option ConnectionId
  metaHash : Option Meta
  snapshot : Option Snapshot
  /-- The server is in the online set. -/
  online : Bool
  hints : CellId → Hints
  clock : Time

namespace Redis

def connected (s : Redis) : Option Bool := s.metaHash.bind (·.connected)

def connectionId (s : Redis) : Option ConnectionId := s.metaHash.bind (·.connectionId)

def hset (s : Redis) (fields : Meta) : Redis :=
  { s with metaHash := some ((s.metaHash.getD {}).hset fields) }

end Redis

/-- `lastInboundAt`, else `lastSeenAt`, else `connectedAt`. -/
def lastInbound (hash : Option Meta) : Option Time :=
  hash.bind fun hash => hash.lastInboundAt <|> hash.lastSeenAt <|> hash.connectedAt

def isInboundStale (hash : Option Meta) (now : Time) : Bool :=
  match lastInbound hash with
  | none => true
  | some inbound => decide (daemonStaleMs ≤ now - inbound)

/-- `RECONCILE_STALE_SOCKET_PRESENCE`. -/
def reconcileStaleSocketPresence (staleBefore : Time) (s : Redis) : Bool × Redis :=
  if s.connected ≠ some true ∧ s.online = false then (false, s)
  else
    let s := if s.connected = some true then s else { s with online := false }
    if s.lease.isSome ∧ (lastInbound s.metaHash).any (fun inbound => decide (staleBefore < inbound)) then (false, s)
    else if s.connected = some true then (true, { s.hset { connected := some false } with online := false })
    else (true, s)

/-! ## Commands -/

inductive Op where
  /-- `Date.now()`. -/
  | now
  | readHints (cell : CellId)
  | setConnectedHint (cell : CellId) (connected : Bool)
  | setLastInboundMs (cell : CellId) (ms : Time)
  | getLease
  | delLease
  | setnxLease (connectionId : ConnectionId)
  /-- `COMPARE_AND_DELETE` on the lease key. -/
  | releaseLease (connectionId : ConnectionId)
  | reconcile (staleBefore : Time)
  | hgetallMeta
  | hsetMeta (fields : Meta)
  | getSnapshot
  | setSnapshot (snapshot : Snapshot)
  | saddOnline
  | sremOnline

@[reducible] def Ans : Op → Type
  | .now => Time
  | .readHints _ => Hints
  | .setConnectedHint _ _ => Unit
  | .setLastInboundMs _ _ => Unit
  | .getLease => Option ConnectionId
  | .delLease => Unit
  | .setnxLease _ => Bool
  | .releaseLease _ => Bool
  | .reconcile _ => Bool
  | .hgetallMeta => Option Meta
  | .hsetMeta _ => Unit
  | .getSnapshot => Option Snapshot
  | .setSnapshot _ => Unit
  | .saddOnline => Unit
  | .sremOnline => Unit

def Redis.setHints (s : Redis) (cell : CellId) (hints : Hints) : Redis :=
  { s with hints := Function.update s.hints cell hints }

def exec : (o : Op) → Redis → Ans o × Redis
  | .now, s => (s.clock, s)
  | .readHints cell, s => (s.hints cell, s)
  | .setConnectedHint cell connected, s => ((), s.setHints cell { s.hints cell with connectedHint := connected })
  | .setLastInboundMs cell ms, s => ((), s.setHints cell { s.hints cell with lastInboundMs := ms })
  | .getLease, s => (s.lease, s)
  | .delLease, s => ((), { s with lease := none })
  | .setnxLease connectionId, s =>
    if s.lease.isSome then (false, s) else (true, { s with lease := some connectionId })
  | .releaseLease connectionId, s =>
    if s.lease = some connectionId then (true, { s with lease := none }) else (false, s)
  | .reconcile staleBefore, s => reconcileStaleSocketPresence staleBefore s
  | .hgetallMeta, s => (s.metaHash, s)
  | .hsetMeta fields, s => ((), s.hset fields)
  | .getSnapshot, s => (s.snapshot, s)
  | .setSnapshot snapshot, s => ((), { s with snapshot := some snapshot })
  | .saddOnline, s => ((), { s with online := true })
  | .sremOnline, s => ((), { s with online := false })

/-- Some time passes before each command. -/
def machine : Machine Op Ans Redis ℕ where
  exec _ ms o s := some (exec o { s with clock := s.clock + ms })
  drop _ s := s

abbrev Proc := Prog Op Ans

abbrev ask (o : Op) : Proc (Ans o) := Prog.call o

/-! ## The snapshot -/

def snapshotFromMeta (hash : Meta) (now : Time) : Snapshot where
  version := hash.snapshotVersion.getD 0
  updatedAt := hash.updatedAt.getD now
  remoteAddress := hash.remoteAddress.filter (· ≠ "")
  connected := hash.connected == some true
  connectedAt := hash.connectedAt
  lastInboundAt := hash.lastInboundAt
  lastSeenAt := hash.lastSeenAt
  keyLastUsedAt := hash.keyLastUsedAt

def mergeSnapshotPresence (stored fromMeta : Snapshot) : Snapshot :=
  { stored with
    connected := fromMeta.connected
    remoteAddress := fromMeta.remoteAddress <|> stored.remoteAddress
    connectedAt := fromMeta.connectedAt <|> stored.connectedAt
    lastSeenAt := fromMeta.lastSeenAt <|> stored.lastSeenAt
    updatedAt := max stored.updatedAt fromMeta.updatedAt }

def getSnapshot : Proc Snapshot := do
  let fromJson ← ask .getSnapshot
  let hash ← ask .hgetallMeta
  let now ← ask .now
  match fromJson, hash with
  | some stored, some hash => pure (mergeSnapshotPresence stored (snapshotFromMeta hash now))
  | some stored, none => pure stored
  | none, some hash => pure (snapshotFromMeta hash now)
  | none, none => pure { version := 0, updatedAt := now, connected := false }

def Snapshot.patched (current : Snapshot) (patch : SnapshotPatch) (now : Time) : Snapshot :=
  { current with
    remoteAddress := patch.remoteAddress.getD current.remoteAddress
    connected := patch.connected.getD current.connected
    connectedAt := patch.connectedAt <|> current.connectedAt
    lastInboundAt := patch.lastInboundAt <|> current.lastInboundAt
    lastSeenAt := patch.lastSeenAt <|> current.lastSeenAt
    daemonBuild := patch.daemonBuild <|> current.daemonBuild
    version := current.version + 1
    updatedAt := now }

def putSnapshot (patch : SnapshotPatch) : Proc Unit := do
  let current ← getSnapshot
  let now ← ask .now
  let updated := current.patched patch now
  ask (.setSnapshot updated)
  ask (.hsetMeta {
    snapshotVersion := some updated.version
    updatedAt := some updated.updatedAt
    lastSeenAt := patch.lastSeenAt
    lastInboundAt := patch.lastInboundAt })

/-! ## The calls -/

/-- A time that a caller may give; else it is now. -/
def timeOrNow : Option Time → Proc Time
  | some time => pure time
  | none => ask .now

def reconcileStalePresence (cell : CellId) : Proc Bool := do
  let now ← ask .now
  let demoted ← ask (.reconcile (now - daemonOfflineSweepMs))
  if demoted then do
    ask (.setConnectedHint cell false)
    pure true
  else pure false

/-- The server is no longer connected, if the meta hash still names this connection. -/
def goOffline (hash : Option Meta) (connectionId : ConnectionId) : Proc Unit :=
  if hash.bind (·.connectionId) = some connectionId then do
    ask (.hsetMeta { connected := some false })
    ask .sremOnline
  else pure ()

/-- The lease is taken from a holder that is stale; `false` where the holder is not. -/
def evictStaleHolder (existingHolder : ConnectionId) : Proc Bool := do
  let staleMeta ← ask .hgetallMeta
  let now ← ask .now
  if !isInboundStale staleMeta now then pure false
  else do
    ask .delLease
    goOffline staleMeta existingHolder
    pure true

def freeLease : Option ConnectionId → Proc Bool
  | none => pure true
  | some existingHolder => evictStaleHolder existingHolder

structure AttachParams where
  remoteAddress : Option String := none
  connectedAt : Option Time := none

/-- The connection has the lease; what is stored of it. -/
def storeConnection (cell : CellId) (connectionId : ConnectionId) (params : AttachParams) (connectedAt : Time) :
    Proc Unit := do
  let keyLastUsedAt ← ask .now
  ask (.hsetMeta {
    connected := some true
    connectionId := some connectionId
    remoteAddress := some (params.remoteAddress.getD "")
    connectedAt := some connectedAt
    lastSeenAt := some connectedAt
    lastInboundAt := some connectedAt
    keyLastUsedAt := some keyLastUsedAt })
  ask .saddOnline
  putSnapshot {
    remoteAddress := some params.remoteAddress
    connected := some true
    connectedAt := some connectedAt }
  ask (.setConnectedHint cell true)
  ask (.setLastInboundMs cell connectedAt)

/-- `connectionId` is the new one; the error is what the source throws. -/
def attachDaemonSocket (cell : CellId) (connectionId : ConnectionId) (params : AttachParams) :
    Proc (Except String ConnectionId) := do
  let _ ← reconcileStalePresence cell
  let connectedAt ← timeOrNow params.connectedAt
  let existingHolder ← ask .getLease
  let free ← freeLease existingHolder
  if !free then pure (.error "daemon socket lease held")
  else do
    let acquired ← ask (.setnxLease connectionId)
    if !acquired then pure (.error "daemon socket lease acquisition failed")
    else do
      storeConnection cell connectionId params connectedAt
      pure (.ok connectionId)

def detachDaemonSocket (cell : CellId) (connectionId : ConnectionId) : Proc Unit := do
  let released ← ask (.releaseLease connectionId)
  if !released then pure ()
  else do
    let hash ← ask .hgetallMeta
    goOffline hash connectionId
    ask (.setConnectedHint cell false)

structure InboundParams where
  connectionId : Option ConnectionId := none
  time : Option Time := none
  daemonBuild : Option DaemonBuildInfo := none

def InboundParams.namedBuild (params : InboundParams) : Option DaemonBuildInfo :=
  params.daemonBuild.filter fun build => build.commit ≠ "" && build.buildId ≠ ""

def shouldCoalesceLastSeenAt (lastSeenAt : Option Time) (time : Time) : Bool :=
  match lastSeenAt with
  | none => true
  | some lastSeenAt => decide (presenceCoalesceFloorMs ≤ time - lastSeenAt)

def daemonBuildIdentityEqual (a : DaemonBuildInfo) : Option DaemonBuildInfo → Bool
  | none => false
  | some b => a.commit == b.commit && a.buildId == b.buildId && a.builtAt.getD "" == b.builtAt.getD "" &&
    a.channel.getD "" == b.channel.getD "" && a.version.getD "" == b.version.getD ""

/-- An inbound message is a sign that the server is connected. -/
def healConnected (hash : Option Meta) : Proc Unit :=
  if hash.bind (·.connected) ≠ some true then do
    ask (.hsetMeta { connected := some true })
    putSnapshot { connected := some true }
  else pure ()

/-- The times of the snapshot and the build, where they change. -/
def putInboundSnapshot (namedBuild : Option DaemonBuildInfo) (bumpInbound : Option Time) : Proc Unit :=
  if namedBuild.isSome || bumpInbound.isSome then
    putSnapshot { daemonBuild := namedBuild, lastInboundAt := bumpInbound, lastSeenAt := bumpInbound }
  else pure ()

/-- `fields` of `recordInbound`. -/
def inboundFields (namedBuild : Option DaemonBuildInfo) (time : Time) (hash : Option Meta)
    (bumpInbound : Option Time) : Meta where
  keyLastUsedAt := some time
  lastInboundAt := bumpInbound
  lastSeenAt := bumpInbound
  daemonBuild := namedBuild.filter fun build => !daemonBuildIdentityEqual build (hash.bind (·.daemonBuild))

def storeInbound (cell : CellId) (namedBuild : Option DaemonBuildInfo) (time : Time) (hash : Option Meta) :
    Proc Unit := do
  healConnected hash
  let bumpInbound :=
    if shouldCoalesceLastSeenAt (hash.bind (·.lastInboundAt)) time then some time else none
  putInboundSnapshot namedBuild bumpInbound
  ask (.hsetMeta (inboundFields namedBuild time hash bumpInbound))
  ask .saddOnline
  ask (.setLastInboundMs cell time)
  ask (.setConnectedHint cell true)

def recordInbound (cell : CellId) (params : InboundParams) : Proc Unit := do
  let time ← timeOrNow params.time
  let hints ← ask (.readHints cell)
  if params.namedBuild.isNone && hints.connectedHint &&
      decide (time - hints.lastInboundMs < presenceCoalesceFloorMs) then pure ()
  else do
    let hash ← ask .hgetallMeta
    match params.connectionId <|> hash.bind (·.connectionId) with
    | none => pure ()
    | some _ => storeInbound cell params.namedBuild time hash

inductive Call where
  | attachDaemonSocket (cell : CellId) (connectionId : ConnectionId) (params : AttachParams)
  | detachDaemonSocket (cell : CellId) (connectionId : ConnectionId)
  | recordInbound (cell : CellId) (params : InboundParams)
  | reconcileStalePresence (cell : CellId)

def body : Call → Proc Unit
  | .attachDaemonSocket cell connectionId params => do
    let _ ← attachDaemonSocket cell connectionId params
    pure ()
  | .detachDaemonSocket cell connectionId => detachDaemonSocket cell connectionId
  | .recordInbound cell params => recordInbound cell params
  | .reconcileStalePresence cell => do
    let _ ← reconcileStalePresence cell
    pure ()

end TurboPanel.DaemonCell
