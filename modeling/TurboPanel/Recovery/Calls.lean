import TurboPanel.Recovery.Store

/-!
# The calls of a recovery

The functions of `ha-recovery.ts`, `ha-ingress-gate.ts` and `recovery-records.ts` that write the
journal or queue commands, as programs over the tables, and what calls them: the consumer with the
result of a command, the sweeps, and the operator.

The addresses in a payload, the positions of a write-ahead log and the re-seed of a former primary
are left out: nothing here reads them.
-/

namespace TurboPanel.Recovery

open CommandRecords (CommandStatus)
open Interleaving

/-! ## Commands -/

/-- `publishCommand`: where the queue does not take the command, it fails. -/
def publishCommand (commandId : CommandId) : Proc Bool := do
  let queued ← ask (.enqueue commandId)
  if queued then pure true
  else do
    ask (.transitionCommand commandId .failed)
    pure false

def enqueueCommand (spec : CommandSpec) : Proc (Option CommandId) := do
  let commandId ← ask (.createCommandRecord spec)
  let queued ← publishCommand commandId
  pure (if queued then some commandId else none)

inductive RecoveryEnqueueResult where
  | ok (commandId : CommandId) (serverId : ServerId) (fencePending : Bool) (recoveryId : RecoveryId)
  | err (error : String) (status : ℕ)

def RecoveryEnqueueResult.isOk : RecoveryEnqueueResult → Bool
  | .ok .. => true
  | .err .. => false

def managedBusy : RecoveryEnqueueResult := .err "managed_busy" 409

def automaticFailoverBlocked : RecoveryEnqueueResult := .err "managed_automatic_failover_blocked" 409

/-! ## The promote -/

structure PromoteParams where
  recovery : RecoveryRecord
  source : ManagedMemberRow
  target : ManagedMemberRow
  haPresent : Bool
  resume : Bool := false

def PromoteParams.spec (params : PromoteParams) : CommandSpec where
  serverId := params.target.serverId
  kind := if params.haPresent then .recover else .promote params.resume
  managedId := params.recovery.managedId
  sourceMemberId := params.source.id
  targetMemberId := params.target.id
  recoveryId := some params.recovery.id

def PromoteParams.metadata (params : PromoteParams) : RecoveryMetadata :=
  { params.recovery.metadata with haPresent := some params.haPresent }

def PromoteParams.queuedMetadata (params : PromoteParams) (commandId : CommandId) : RecoveryMetadata :=
  if params.haPresent then { params.metadata with failoverCommandId := some commandId }
  else { params.metadata with promoteCommandId := some commandId }

def blockUnqueuedPromote (recoveryId : RecoveryId) (metadata : RecoveryMetadata) : Proc Unit := do
  let _ ← ask (.updateRecovery recoveryId { state := some .blocked, metadata := some { metadata with
    blockedReason := some promoteUnqueuedMessage } })
  pure ()

/-- What `enqueuePromoteOrRecover` does once the command was queued, or not. -/
def promoteQueued (params : PromoteParams) : Option CommandId → Proc RecoveryEnqueueResult
  | none => do
    blockUnqueuedPromote params.recovery.id params.metadata
    pure (.err "Command queue unavailable" 503)
  | some commandId => do
    let _ ← ask (.updateRecovery params.recovery.id { metadata := some (params.queuedMetadata commandId) })
    pure (.ok commandId params.target.serverId false params.recovery.id)

def enqueuePromoteOrRecover (params : PromoteParams) : Proc RecoveryEnqueueResult := do
  let _ ← ask (.updateRecovery params.recovery.id {
    state := some .promoting, metadata := some params.metadata })
  let queued ← enqueueCommand params.spec
  promoteQueued params queued

/-! ## The latest recovery -/

def findLatestRecovery (managedId : ManagedId) : Proc (Option RecoveryRecord) := do
  let inflight ← ask (.findInFlightRecovery managedId)
  match inflight with
  | some row => pure (some row)
  | none => ask (.newestRecovery managedId)

/-- The primary of the members that are listed. -/
def primaryOf (members : List ManagedMemberRow) : Option ManagedMemberRow :=
  members.find? fun row => row.role == .primary

/-- The second half of `abortRestartStaleReason`. -/
def primaryStaleReason (row : RecoveryRecord) : Proc (Option String) := do
  let members ← ask (.listManagedMembers row.managedId)
  if (primaryOf members).map (·.id) ≠ some row.sourcePrimaryMemberId then
    pure (some "the cluster primary changed")
  else pure none

def abortRestartStaleReason (row : RecoveryRecord) : Proc (Option String) := do
  let latest ← findLatestRecovery row.managedId
  if latest.any fun latest => latest.id != row.id then pure (some "a newer recovery exists for the cluster")
  else primaryStaleReason row

/-! ## The commands that bring the old primary back -/

structure ReactivationParams where
  record : RecoveryRecord
  source : ManagedMemberRow
  members : List ManagedMemberRow
  reactivate : Bool := true
  only : Option (List RestartStep) := none
  /-- `before` is given: the restart is asked for, before each command. -/
  before : Bool := false

def ReactivationParams.wanted (params : ReactivationParams) (key : RestartStep) : Bool :=
  match params.only with
  | none => true
  | some only => decide (key ∈ only)

def ReactivationParams.target (params : ReactivationParams) : ManagedMemberRow :=
  (params.members.find? fun row => some row.id == params.record.targetMemberId).getD params.source

def ReactivationParams.spec (params : ReactivationParams) (kind : CommandKind) (serverId : ServerId) :
    CommandSpec where
  serverId := serverId
  kind := kind
  managedId := params.record.managedId
  sourceMemberId := params.source.id
  targetMemberId := params.target.id
  restartOf := if params.before then some params.record.id else none

/-- What could not be queued, and whether the restart was found to be stale. -/
structure Reactivation where
  missing : List RestartStep
  stale : Bool

/-- `before`, with `stale` of `finishAbortRestart`: whether the rest is not wanted any more. -/
def askStale (params : ReactivationParams) (stale : Bool) : Proc Bool :=
  if !params.before then pure false
  else if stale then pure true
  else do
    let reason ← abortRestartStaleReason params.record
    pure reason.isSome

/-- One command, unless the restart is stale. -/
def reactivationCommand (params : ReactivationParams) (key : RestartStep) (spec : CommandSpec)
    (acc : Reactivation) : Proc Reactivation := do
  let stale ← askStale params acc.stale
  if stale then pure { acc with stale := true }
  else do
    let queued ← enqueueCommand spec
    pure { acc with missing := if queued.isSome then acc.missing else acc.missing ++ [key] }

def undrainCommand (params : ReactivationParams) (acc : Reactivation) (serverId : ServerId) :
    Proc Reactivation :=
  if !params.wanted (.undrain serverId) then pure acc
  else do
    let connected ← ask (.isServerConnected serverId)
    if !connected then pure acc
    else reactivationCommand params (.undrain serverId) (params.spec .undrain serverId) acc

def startCommand (params : ReactivationParams) : Proc Reactivation :=
  if params.reactivate && params.wanted .start then
    reactivationCommand params .start (params.spec .start params.source.serverId) ⟨[], false⟩
  else pure ⟨[], false⟩

def enqueueSwitchoverAbortReactivation (params : ReactivationParams) : Proc Reactivation := do
  let started ← startCommand params
  Prog.foldEach (undrainCommand params) (params.members.map (·.serverId)).eraseDups started

def blockRecoveryNothingChanged (recoveryId : RecoveryId) (reason : String) (unlessFenced clearTarget : Bool)
    (extra : BlockExtra) : Proc (Option RecoveryRecord) := do
  let blocked ← ask (.updateRecoveryLocked recoveryId
    (.blockNothingChanged reason unlessFenced clearTarget extra))
  match blocked with
  | none => pure none
  | some row => do
    ask (.stampManaged row.managedId .ready)
    pure (some row)

def reactivateSource (record : RecoveryRecord) (members : List ManagedMemberRow) : Proc Unit :=
  match members.find? fun row => row.id == record.sourcePrimaryMemberId with
  | none => pure ()
  | some source => do
    let _ ← enqueueSwitchoverAbortReactivation { record, source, members }
    pure ()

def fenceStopCapturesSwitchoverGtid (kind : RecoveryKind) (engine : ManagedEngineCode) : Bool :=
  kind == .switchover && (engine == .mysql || engine == .mariadb)

/-- `abortSwitchoverWhenGtidMissing`, where there is a queue. -/
def abortSwitchoverWhenGtidMissing (record : RecoveryRecord) (engine : ManagedEngineCode) : Proc Bool :=
  if record.kind != .switchover || !fenceStopCapturesSwitchoverGtid record.kind engine ||
      record.metadata.switchoverRequiredGtidSet.isSome then pure false
  else do
    let members ← ask (.listManagedMembers record.managedId)
    reactivateSource record members
    let _ ← blockRecoveryNothingChanged record.id switchoverPrimaryDidNotAnswerMessage false false .nothing
    pure true

/-! ## The settlement of a fence command -/

def promoteUnlessAborted (record : RecoveryRecord) (engine : ManagedEngineCode)
    (source target : ManagedMemberRow) : Proc Unit := do
  let aborted ← abortSwitchoverWhenGtidMissing record engine
  if aborted then pure ()
  else do
    let _ ← enqueuePromoteOrRecover {
      recovery := record, source, target, haPresent := isSet record.metadata.haPresent }
    pure ()

def promoteMembers (record : RecoveryRecord) (engine : ManagedEngineCode) (members : List ManagedMemberRow) :
    Proc Unit :=
  match members.find? fun row => row.id == record.sourcePrimaryMemberId,
    members.find? fun row => some row.id == record.targetMemberId with
  | some source, some target => promoteUnlessAborted record engine source target
  | _, _ => pure ()

def followFenceAdvance (hasQueue : Bool) (record : RecoveryRecord) (engine : ManagedEngineCode) :
    Proc Unit :=
  if record.state = .blocked then ask (.stampManaged record.managedId .ready)
  else if !hasQueue || record.state != .promoting then pure ()
  else do
    let members ← ask (.listManagedMembers record.managedId)
    promoteMembers record engine members

structure FenceSettlement where
  recoveryId : RecoveryId
  commandId : CommandId
  applied : Option FencePhase := none
  engine : ManagedEngineCode

def settleFenceCommand (hasQueue : Bool) (settlement : FenceSettlement) : Proc Unit := do
  let updated ← ask (.updateRecoveryLocked settlement.recoveryId
    (.settleFence settlement.commandId settlement.applied))
  match updated with
  | none => pure ()
  | some record => followFenceAdvance hasQueue record settlement.engine

/-- `onFenceCommandSucceeded`, with the GTID set that a stop reports. -/
def onFenceCommandSucceeded (hasQueue : Bool) (recoveryId : RecoveryId) (commandId : CommandId)
    (fencePhase : FencePhase) (engine : ManagedEngineCode) (gtidSet : Option String) : Proc Unit := do
  match gtidSet with
  | none => pure ()
  | some gtidSet => do
    let _ ← ask (.updateRecoveryLocked recoveryId (.recordSwitchoverRequiredGtid gtidSet))
    pure ()
  settleFenceCommand hasQueue ⟨recoveryId, commandId, some fencePhase, engine⟩

def onFenceCommandFailed (hasQueue : Bool) (recoveryId : RecoveryId) (commandId : CommandId)
    (engine : ManagedEngineCode) : Proc Unit :=
  settleFenceCommand hasQueue ⟨recoveryId, commandId, none, engine⟩

/-! ## The beginning of a recovery -/

structure BeginParams where
  managedId : ManagedId
  kind : RecoveryKind
  engine : ManagedEngineCode
  source : ManagedMemberRow
  target : ManagedMemberRow
  members : List ManagedMemberRow
  /-- The incident of a whole-host loss; `hostLoss` is that there is one. -/
  hostLossIncident : Option String := none
  requireFence : Bool := false

def BeginParams.hostLoss (params : BeginParams) : Bool := params.hostLossIncident.isSome

def BeginParams.insert (params : BeginParams) (haPresent : Bool) : InsertRecoveryParams where
  managedId := params.managedId
  kind := params.kind
  sourcePrimaryMemberId := params.source.id
  targetMemberId := some params.target.id
  state := .fencing
  metadata := {
    haPresent := some haPresent
    sourceServerId := some params.source.serverId
    targetServerId := some params.target.serverId
    hostLossIncident := params.hostLossIncident }

def BeginParams.fenceSpec (params : BeginParams) (recovery : RecoveryRecord) (kind : CommandKind)
    (serverId : ServerId) : CommandSpec where
  serverId := serverId
  kind := kind
  managedId := recovery.managedId
  sourceMemberId := params.source.id
  targetMemberId := params.target.id
  recoveryId := some recovery.id

def prepareDrainCommand (params : BeginParams) (recovery : RecoveryRecord) (prepared : List CommandId)
    (serverId : ServerId) : Proc (List CommandId) := do
  let connected ← ask (.isServerConnected serverId)
  if !connected then pure prepared
  else do
    let commandId ← ask (.createCommandRecord (params.fenceSpec recovery .drain serverId))
    pure (prepared ++ [commandId])

def prepareDrainCommands (params : BeginParams) (recovery : RecoveryRecord) : Proc (List CommandId) :=
  Prog.foldEach (prepareDrainCommand params recovery) (params.members.map (·.serverId)).eraseDups []

def publishDrain (params : BeginParams) (recovery : RecoveryRecord) (_ : Unit) (drain : CommandId) :
    Proc Unit := do
  let queued ← publishCommand drain
  if queued then pure ()
  else settleFenceCommand true ⟨recovery.id, drain, none, params.engine⟩

def blockUnqueuedFenceStop (recoveryId : RecoveryId) (stopId : CommandId) : Proc Unit := do
  let blocked ← ask (.updateRecoveryLocked recoveryId (.blockUnqueuedFenceStop stopId))
  match blocked with
  | none => pure ()
  | some row => ask (.stampManaged row.managedId .ready)

/-- The stop is handed to the queue after the drains. -/
def publishStop (params : BeginParams) (recovery : RecoveryRecord) (stop : CommandId) :
    Proc RecoveryEnqueueResult := do
  let queued ← publishCommand stop
  if queued then pure (.ok stop params.source.serverId true recovery.id)
  else do
    blockUnqueuedFenceStop recovery.id stop
    pure (.err "Command queue unavailable" 503)

def publishFence (params : BeginParams) (recovery : RecoveryRecord) (drains : List CommandId)
    (stop : CommandId) : Proc RecoveryEnqueueResult := do
  ask (.stampManaged recovery.managedId .applying)
  Prog.foldEach (publishDrain params recovery) drains ()
  publishStop params recovery stop

def enqueueFenceCommands (params : BeginParams) (haPresent : Bool) (recovery : RecoveryRecord) :
    Proc RecoveryEnqueueResult := do
  let drains ← prepareDrainCommands params recovery
  let stop ← ask (.createCommandRecord (params.fenceSpec recovery .stop params.source.serverId))
  let recorded ← ask (.updateRecoveryLocked recovery.id (.recordFenceCommands (drains ++ [stop]) haPresent))
  match recorded with
  | none => pure managedBusy
  | some _ => publishFence params recovery drains stop

/-- The row ends before anything was changed. -/
def endBegun (params : BeginParams) (recovery : RecoveryRecord) (patch : RecoveryPatch)
    (result : RecoveryEnqueueResult) : Proc RecoveryEnqueueResult := do
  let _ ← ask (.updateRecovery recovery.id patch)
  ask (.stampManaged params.managedId .ready)
  pure result

/-- How a recovery goes on whose old primary is not connected. -/
def BeginParams.offlineAdvance (params : BeginParams) (recovery : RecoveryRecord) (now : Time) :
    RecoveryAdvance :=
  if params.hostLoss && params.kind == .automaticFailover then hostLossFenceAdvance recovery.metadata now
  else nextStateAfterFence params.kind ⟨false, false, false⟩ recovery.metadata now

def followOffline (params : BeginParams) (haPresent : Bool) (recovery : RecoveryRecord)
    (advance : RecoveryAdvance) : Proc RecoveryEnqueueResult := do
  let patch : RecoveryPatch := { state := some advance.state, metadata := some advance.metadata }
  if advance.state = .blocked then endBegun params recovery patch automaticFailoverBlocked
  else do
    let _ ← ask (.updateRecovery recovery.id patch)
    ask (.stampManaged params.managedId .applying)
    enqueuePromoteOrRecover {
      recovery := { recovery with state := .promoting, metadata := advance.metadata }
      source := params.source, target := params.target, haPresent }

def beginOffline (params : BeginParams) (haPresent : Bool) (recovery : RecoveryRecord) :
    Proc RecoveryEnqueueResult := do
  ask (.markNeedsResync params.source.id)
  let now ← ask .now
  followOffline params haPresent recovery (params.offlineAdvance recovery now)

def beginChecked (params : BeginParams) (haPresent : Bool) (recovery : RecoveryRecord)
    (sourceOnline : Bool) : Proc RecoveryEnqueueResult :=
  if params.hostLoss && sourceOnline then
    endBegun params recovery {
      state := some .blocked, targetMemberId := some none
      metadata := some { recovery.metadata with blockedReason := some hostLossHostReturnedMessage } }
      automaticFailoverBlocked
  else if !sourceOnline && params.requireFence then
    endBegun params recovery {
      state := some .blocked
      metadata := some { recovery.metadata with
        blockedReason := some switchoverPrimaryDidNotAnswerMessage } }
      (.err "managed_replica_not_fully_applied" 409)
  else if !sourceOnline then beginOffline params haPresent recovery
  else enqueueFenceCommands params haPresent recovery

def beginInserted (params : BeginParams) (haPresent : Bool) :
    Option RecoveryRecord → Proc RecoveryEnqueueResult
  | none => pure managedBusy
  | some recovery => do
    let sourceOnline ← ask (.isServerConnected params.source.serverId)
    beginChecked params haPresent recovery sourceOnline

def beginFree (params : BeginParams) : Proc RecoveryEnqueueResult := do
  let haPresent ← ask .detectHaPresent
  let recovery ← ask (.insertRecoveryIfFree (params.insert haPresent))
  beginInserted params haPresent recovery

def beginRecovery (params : BeginParams) : Proc RecoveryEnqueueResult := do
  let inflight ← ask (.findInFlightRecovery params.managedId)
  match inflight with
  | some _ => pure managedBusy
  | none => beginFree params

/-- A refusal that is recorded: the row that is there counts it, or a new one has it. -/
def recordRefusal (params : InsertRecoveryParams) (now : Time) (latest : Option RecoveryRecord) :
    Proc Unit :=
  match latest.filter fun latest => latest.kind == params.kind && latest.state == .blocked &&
    latest.targetMemberId.isNone && latest.sourcePrimaryMemberId == params.sourcePrimaryMemberId &&
    latest.metadata.blockedReason == params.metadata.blockedReason with
  | some latest => do
    let _ ← ask (.updateRecovery latest.id { metadata := some { latest.metadata with
      sourceServerId := params.metadata.sourceServerId
      targetServerId := params.metadata.targetServerId.or latest.metadata.targetServerId
      blockedCount := some (latest.metadata.blockedCount.getD 1 + 1)
      lastBlockedAt := some now } })
    pure ()
  | none => do
    let _ ← ask (.insertRecoveryIfFree { params with state := .blocked })
    pure ()

/-- `recordBlockedRecovery`, for a refused automatic failover of this primary. -/
def recordBlockedRecovery (managedId : ManagedId) (primary : ManagedMemberRow) (reason : String)
    (targetServerId : Option ServerId := none) : Proc Unit := do
  let latest ← findLatestRecovery managedId
  let now ← ask .now
  recordRefusal {
    managedId, kind := .automaticFailover, sourcePrimaryMemberId := primary.id, targetMemberId := none
    state := .blocked
    metadata := { blockedReason := some reason, sourceServerId := some primary.serverId, targetServerId } }
    now latest

def automaticFailoverCooldownMs : Time := 15 * 60000

def automaticFailoverCoolingDown (lastAccepted : Option RecoveryRecord) (nowMs : Time) : Bool :=
  lastAccepted.any fun row => decide (nowMs - row.startedAt < automaticFailoverCooldownMs)

structure AutomaticFailoverParams where
  managedId : ManagedId
  engine : ManagedEngineCode
  primary : ManagedMemberRow
  members : List ManagedMemberRow
  /-- What `pickAutomaticCandidate` finds, or why it finds none. -/
  candidate : Except String ManagedMemberRow
  hasQueue : Bool
  off : Bool
  hostLossIncident : Option String

/-- `beginAutomaticFailover` from the cooldown on. -/
def beginCooledDown (params : AutomaticFailoverParams) : Proc Unit :=
  match params.candidate with
  | .error reason => recordBlockedRecovery params.managedId params.primary reason
  | .ok target =>
    if !params.hasQueue then
      recordBlockedRecovery params.managedId params.primary automaticFailoverNoQueueMessage
        (some target.serverId)
    else do
      let _ ← beginRecovery {
        managedId := params.managedId, kind := .automaticFailover, engine := params.engine
        source := params.primary, target, members := params.members
        hostLossIncident := params.hostLossIncident }
      pure ()

def beginUnlessCooling (params : AutomaticFailoverParams) : Proc Unit := do
  let lastAccepted ← ask (.findLatestAcceptedAutomaticFailover params.managedId)
  let now ← ask .now
  if automaticFailoverCoolingDown lastAccepted now then
    recordBlockedRecovery params.managedId params.primary automaticFailoverCooldownMessage
  else beginCooledDown params

def beginAutomaticFailover (params : AutomaticFailoverParams) : Proc Unit := do
  let inflight ← ask (.findInFlightRecovery params.managedId)
  match inflight with
  | some _ => pure ()
  | none =>
    if params.off then
      recordBlockedRecovery params.managedId params.primary automaticFailoverDisabledMessage
    else beginUnlessCooling params

end TurboPanel.Recovery
