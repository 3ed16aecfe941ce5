import TurboPanel.Commands.StepPlan

/-!
# The recovery journal

A recovery of a database cluster (automatic failover, planned switchover, disaster recovery) is one
row of a journal: its kind, its state and its metadata. This module has the rows and the pure steps
over them (`ha-recovery-pure.ts`, `ha-fence-deadline.ts`, and what the functions of
`ha-recovery.ts`, `ha-ingress-gate.ts` and `recovery-records.ts` decide under the row lock).

What a function decides under the lock is a `Decision`: the source passes a function, here it is its
name and what it has captured.
-/

namespace TurboPanel.Recovery

open CommandRecords (CommandStatus)

/-- A time in milliseconds. -/
abbrev Time := ℤ
abbrev RecoveryId := ℕ
abbrev CommandId := ℕ
abbrev ManagedId := ℕ
abbrev MemberId := ℕ
abbrev ServerId := ℕ

/-! ## Rows -/

inductive RecoveryKind where
  | automaticFailover
  | switchover
  | disasterRecovery
  deriving DecidableEq

inductive RecoveryState where
  | detecting
  | fencing
  | promoting
  | repointing
  | reconcilingIngress
  | verifying
  | completed
  | failed
  | blocked
  deriving DecidableEq

/-- `TERMINAL_RECOVERY_STATES`. -/
def RecoveryState.terminal : RecoveryState → Bool
  | .completed => true
  | .failed => true
  | .blocked => true
  | _ => false

inductive FencePhase where
  | drain
  | stop
  deriving DecidableEq

inductive FenceBasis where
  | hostLossAttested
  deriving DecidableEq

/-- What is owed to bring the old primary back: `*`, `start` or `undrain:<serverId>`. -/
inductive RestartStep where
  | all
  | start
  | undrain (serverId : ServerId)
  deriving DecidableEq

inductive ManagedEngineCode where
  | postgres
  | mysql
  | mariadb
  | redis
  | clickhouse
  deriving DecidableEq

structure RecoveryMetadata where
  fencingEpoch : Option Time := none
  fenceCommandIds : Option (List CommandId) := none
  promoteCommandId : Option CommandId := none
  failoverCommandId : Option CommandId := none
  ingressCommandIds : Option (List CommandId) := none
  ingressServerIds : Option (List ServerId) := none
  ingressPendingServerIds : Option (List ServerId) := none
  ingressNotRepointed : Option (List ServerId) := none
  promoteResumes : Option ℕ := none
  fenceDeadline : Option Bool := none
  abortRestartTodo : Option (List RestartStep) := none
  abortRestartReactivate : Option Bool := none
  abortRestartAttempts : Option ℕ := none
  abortRestartClaimedAt : Option Time := none
  abortRestartStepIds : Option (List CommandId) := none
  haPresent : Option Bool := none
  fenced : Option Bool := none
  drainApplied : Option Bool := none
  stopApplied : Option Bool := none
  blockedReason : Option String := none
  blockedCount : Option ℕ := none
  lastBlockedAt : Option Time := none
  sourceServerId : Option ServerId := none
  targetServerId : Option ServerId := none
  fenceBasis : Option FenceBasis := none
  hostLossIncident : Option String := none
  needsOperator : Option Bool := none
  failedReason : Option String := none
  switchoverRequiredGtidSet : Option String := none

structure RecoveryRecord where
  id : RecoveryId
  managedId : ManagedId
  kind : RecoveryKind
  sourcePrimaryMemberId : MemberId
  targetMemberId : Option MemberId
  state : RecoveryState
  startedAt : Time
  updatedAt : Time
  metadata : RecoveryMetadata

structure RecoveryPatch where
  state : Option RecoveryState := none
  targetMemberId : Option (Option MemberId) := none
  metadata : Option RecoveryMetadata := none

/-- `recoveryPatchColumns`, applied to a row. -/
def RecoveryRecord.patch (row : RecoveryRecord) (patch : RecoveryPatch) (now : Time) : RecoveryRecord :=
  { row with
    state := patch.state.getD row.state
    targetMemberId := patch.targetMemberId.getD row.targetMemberId
    metadata := patch.metadata.getD row.metadata
    updatedAt := now }

/-! ## Texts -/

def automaticFailoverBlockedMessage : String :=
  "Automatic failover blocked: unable to verify previous primary is fenced"

def automaticFailoverCooldownMessage : String :=
  "Automatic failover refused: a previous automatic failover started less than 15 minutes ago (cooldown)"

def automaticFailoverDisabledMessage : String :=
  "Automatic failover not started: it is turned off on this control plane (auto_failover_disabled)"

def automaticFailoverNoQueueMessage : String :=
  "Automatic failover not started: this control plane cannot dispatch commands (no_command_queue)"

def hostLossHostReturnedMessage : String :=
  "Failover stopped: the primary's server came back before anything was changed, so the database was left as it was"

def promoteUnqueuedMessage : String :=
  "Recovery blocked: the promote command could not be queued (command queue unavailable)"

def fenceStopUnqueuedMessage : String :=
  "Recovery blocked: the fence stop command could not be queued (command queue unavailable)"

def switchoverPrimaryDidNotAnswerMessage : String :=
  "Planned switchover stopped: the current primary did not answer in time, so nothing was changed and it stays the primary"

def fenceTimedOutMessage : String :=
  "Planned switchover stopped: the current primary did not finish stopping in time, so nothing was promoted. Check the database page, then run the switchover again."

def fenceDeadlineRepeatedMessage : String :=
  "Automatic failover blocked: the current primary could not be stopped in time three times in a row. The cooldown applies again; check the primary and its server."

def fenceAbortNotQueuedMessage : String :=
  "Planned switchover stopped, but the old primary could not be told to start again: check that the current primary is running and writable, then run the switchover again."

def recoveryStalledMessage : String :=
  "Recovery stopped: nothing advanced it for 15 minutes (the control plane restarted or a server never answered). The cluster may be half way through a role change. Check which member is the writer before switching over again."

def recoveryCommandTimedOutMessage : String :=
  "Recovery stopped: a recovery command timed out or its result was lost. The cluster may be half way through a role change. Check which member is the writer before switching over again."

/-! ## The fence -/

structure FenceOutcome where
  oldPrimaryReachable : Bool
  drainApplied : Bool
  stopApplied : Bool

def verifyFenced (outcome : FenceOutcome) : Bool :=
  if !outcome.drainApplied then false
  else if outcome.stopApplied then true
  else false

def shouldBlockUnreachablePrimaryFence (kind : RecoveryKind) : Bool := kind == .automaticFailover

/-- The state that comes next and the metadata; a blocked one has its reason in the metadata. -/
structure RecoveryAdvance where
  state : RecoveryState
  metadata : RecoveryMetadata

def nextStateAfterFence (kind : RecoveryKind) (outcome : FenceOutcome) (metadata : RecoveryMetadata)
    (now : Time) : RecoveryAdvance :=
  let fenced := verifyFenced outcome
  let metadata := { metadata with
    fenced := some fenced
    fencingEpoch := some (metadata.fencingEpoch.getD now) }
  if fenced then ⟨.promoting, metadata⟩
  else if shouldBlockUnreachablePrimaryFence kind then
    ⟨.blocked, { metadata with blockedReason := some automaticFailoverBlockedMessage }⟩
  else ⟨.promoting, { metadata with fenced := some false }⟩

def hostLossFenceAdvance (metadata : RecoveryMetadata) (now : Time) : RecoveryAdvance :=
  ⟨.promoting, { metadata with
    fenced := some false
    fenceBasis := some .hostLossAttested
    fencingEpoch := some (metadata.fencingEpoch.getD now) }⟩

/-- `Boolean(flag)`. -/
def isSet (flag : Option Bool) : Bool := flag == some true

def fenceOutcomeFromMetadata (metadata : RecoveryMetadata) : FenceOutcome where
  oldPrimaryReachable := true
  drainApplied := isSet metadata.drainApplied
  stopApplied := isSet metadata.stopApplied

/-- The metadata of a row whose command `commandId` has settled. -/
def settledMetadata (metadata : RecoveryMetadata) (pending : List CommandId) :
    Option FencePhase → RecoveryMetadata
  | none => { metadata with fenceCommandIds := some pending }
  | some .drain => { metadata with fenceCommandIds := some pending, drainApplied := some true }
  | some .stop => { metadata with fenceCommandIds := some pending, stopApplied := some true }

def applyFenceSettlement (current : RecoveryRecord) (commandId : CommandId) (applied : Option FencePhase)
    (now : Time) : Option RecoveryPatch :=
  if current.state ≠ .fencing then none
  else
    let recorded := current.metadata.fenceCommandIds.getD []
    if commandId ∉ recorded then none
    else
      let pending := recorded.filter (· ≠ commandId)
      let metadata := settledMetadata current.metadata pending applied
      if 0 < pending.length then some { metadata := some metadata }
      else
        let advance := nextStateAfterFence current.kind (fenceOutcomeFromMetadata metadata) metadata now
        some { state := some advance.state, metadata := some advance.metadata }

/-! ## The fence deadline -/

def fenceDeadlineMs : Time := 150000

inductive StalledFencePlan where
  | wait
  | abandonDrains
  | abort (stopDelivered : Bool)

def fencingStartedAtMs (record : RecoveryRecord) : Time := record.metadata.fencingEpoch.getD record.startedAt

def planStalledFence (record : RecoveryRecord) (nowMs : Time) (stopDelivered : Bool) : StalledFencePlan :=
  if record.state ≠ .fencing then .wait
  else if (record.metadata.fenceCommandIds.getD []).length = 0 then .wait
  else if nowMs - fencingStartedAtMs record < fenceDeadlineMs then .wait
  else if isSet record.metadata.stopApplied then .abandonDrains
  else .abort stopDelivered

def fenceDeadlineStreakLimit : ℕ := 3

def fenceDeadlineStreakWindowMs : Time := 30 * 60000

/-- `deadlineBlockStreak`, over the other rows from the newest on. -/
def deadlineBlockStreak (recent : List RecoveryRecord) (row : RecoveryRecord) (nowMs : Time) : ℕ :=
  let earlier := (recent.filter (·.id ≠ row.id)).mergeSort fun a b => b.startedAt ≤ a.startedAt
  (earlier.takeWhile fun other => other.kind == .automaticFailover &&
    other.sourcePrimaryMemberId == row.sourcePrimaryMemberId && other.state == .blocked &&
    isSet other.metadata.fenceDeadline &&
    decide (nowMs - other.startedAt ≤ fenceDeadlineStreakWindowMs)).length

/-! ## Rows that nothing advances -/

def staleRecoveryStepMs : Time := 15 * 60000

def commandIdsOf (metadata : RecoveryMetadata) : List CommandId :=
  metadata.fenceCommandIds.getD [] ++ metadata.promoteCommandId.toList ++
    metadata.failoverCommandId.toList ++ metadata.ingressCommandIds.getD []

def hasQueuedCommands (metadata : RecoveryMetadata) : Bool :=
  decide (0 < (metadata.fenceCommandIds.getD []).length) || metadata.promoteCommandId.isSome ||
    metadata.failoverCommandId.isSome || decide (0 < (metadata.ingressCommandIds.getD []).length)

def failedNeedsOperator (current : RecoveryRecord) (reason : String) : RecoveryPatch where
  state := some .failed
  metadata := some { current.metadata with needsOperator := some true, failedReason := some reason }

def stalePatch (row : RecoveryRecord) (nowMs unadvancedMaxAgeMs : Time) (unadvancedReason : String) :
    Option RecoveryPatch :=
  let unadvanced := (row.state == .detecting || row.state == .fencing) && !hasQueuedCommands row.metadata
  if unadvanced && decide (unadvancedMaxAgeMs ≤ nowMs - row.startedAt) then
    some { state := some .blocked,
           metadata := some { row.metadata with blockedReason := some unadvancedReason } }
  else if staleRecoveryStepMs ≤ nowMs - row.updatedAt then
    some (failedNeedsOperator row recoveryStalledMessage)
  else none

/-! ## The ingress gate -/

structure IngressGateCommand where
  id : CommandId
  serverId : ServerId
  status : CommandStatus

inductive IngressGateDecision where
  | wait
  | complete
  | degraded (serverIds : List ServerId)

def decideIngressGate (requiredServerIds : List ServerId) (commands : List IngressGateCommand) :
    IngressGateDecision :=
  if commands.any fun entry => !entry.status.terminal then .wait
  else
    let confirmed := (commands.filter fun entry => entry.status == .succeeded).map (·.serverId)
    let missing := requiredServerIds.filter (· ∉ confirmed)
    if missing.length = 0 then .complete else .degraded missing

def nextStateAfterPromoteSuccess (metadata : RecoveryMetadata) : RecoveryAdvance := ⟨.repointing, metadata⟩

def nextStateAfterIngressReconcile (metadata : RecoveryMetadata) : RecoveryAdvance := ⟨.verifying, metadata⟩

def nextStateAfterVerify (writerCount : ℕ) (metadata : RecoveryMetadata) : RecoveryAdvance :=
  if writerCount = 1 then ⟨.completed, metadata⟩
  else ⟨.failed, { metadata with
    blockedReason := some ("expected exactly one writer, observed " ++ toString writerCount) }⟩

def degradedMetadata (current : RecoveryMetadata) (serverIds : List ServerId) (reason : String) :
    RecoveryMetadata :=
  { current with
    needsOperator := some true, failedReason := some reason, ingressNotRepointed := some serverIds }

def attestedLostServerIds (metadata : RecoveryMetadata) : List ServerId :=
  if metadata.fenceBasis = some .hostLossAttested then metadata.sourceServerId.toList else []

/-! ## The restart of the old primary -/

def abortRestartClaimMs : Time := 120000

def fenceAbortMaxAttempts : ℕ := 3

/-- The restart of the old primary is owed: `owed` of `finishAbortRestart`. -/
def owed (current : RecoveryRecord) : Bool :=
  current.state == .blocked && !isSet current.metadata.stopApplied &&
    decide (0 < (current.metadata.abortRestartTodo.getD []).length)

/-- The claim of another sweep holds still. -/
def claimHolds (row : RecoveryRecord) (nowMs : Time) : Bool :=
  match row.metadata.abortRestartClaimedAt with
  | some claimedAt => decide (nowMs - claimedAt < abortRestartClaimMs)
  | none => false

/-! ## Decisions under the row lock -/

/-- `options.extra` of `blockRecoveryNothingChanged`. -/
inductive BlockExtra where
  | nothing
  | deadline
  | restart (reactivate : Bool) (stepIds : List CommandId)
  deriving DecidableEq

def BlockExtra.spread (metadata : RecoveryMetadata) : BlockExtra → RecoveryMetadata
  | .nothing => metadata
  | .deadline => { metadata with fenceDeadline := some true }
  | .restart reactivate stepIds => { metadata with
    fenceDeadline := some true
    abortRestartTodo := some [.all]
    abortRestartReactivate := some reactivate
    abortRestartAttempts := some 0
    abortRestartStepIds := some stepIds }

inductive Decision where
  | recordFenceCommands (fenceCommandIds : List CommandId) (haPresent : Bool)
  | blockUnqueuedFenceStop (stopId : CommandId)
  | settleFence (commandId : CommandId) (applied : Option FencePhase)
  | recordSwitchoverRequiredGtid (gtidSet : String)
  | blockNothingChanged (reason : String) (unlessFenced clearTarget : Bool) (extra : BlockExtra)
  | failForOperator (reason : String)
  | claimPromoteResult
  | parkAtIngressGate (commandIds requiredServerIds pendingServerIds : List ℕ)
  | verifyIngress (writerCount : ℕ)
  | degradeIngress (serverIds : List ServerId) (reason : String)
  | ingressNotQueued (serverIds : List ServerId) (reason : String)
  | expire (live : List CommandId) (nowMs maxAgeMs : Time) (reason : String)
  | reactivateRestart
  | claimRestart (nowMs : Time)
  | clearRestart
  | settleRestart (missing : List RestartStep) (noWay : Bool)
  deriving DecidableEq

/-- `options.includeTerminal` of the call that makes the decision. -/
def Decision.includeTerminal : Decision → Bool
  | .reactivateRestart => true
  | .claimRestart _ => true
  | .clearRestart => true
  | .settleRestart _ _ => true
  | _ => false

/-- How the restart ends after its commands were queued, or not: the last decision of
`finishAbortRestart`. -/
def restartSettlement (missing : List RestartStep) (noWay : Bool) (row : RecoveryRecord) :
    Option RecoveryPatch :=
  if !owed row then none
  else if missing.length = 0 then
    some { metadata := some { row.metadata with abortRestartTodo := some [], abortRestartClaimedAt := none } }
  else
    let attempts := row.metadata.abortRestartAttempts.getD 0 + 1
    if noWay || decide (fenceAbortMaxAttempts ≤ attempts) then
      some (failedNeedsOperator row fenceAbortNotQueuedMessage)
    else some { metadata := some { row.metadata with
      abortRestartTodo := some missing
      abortRestartAttempts := some attempts
      abortRestartClaimedAt := none } }

/-- What a decision makes of the row that is locked. -/
def Decision.decide (current : RecoveryRecord) (now : Time) : Decision → Option RecoveryPatch
  | .recordFenceCommands fenceCommandIds haPresent =>
    if current.state = .fencing then some { metadata := some { current.metadata with
      haPresent := some haPresent
      fenceCommandIds := some fenceCommandIds
      fencingEpoch := some now
      drainApplied := some false
      stopApplied := some false } }
    else none
  | .blockUnqueuedFenceStop stopId =>
    if current.state = .fencing then some { state := some .blocked, metadata := some { current.metadata with
      fenceCommandIds := some ((current.metadata.fenceCommandIds.getD []).filter (· ≠ stopId))
      blockedReason := some fenceStopUnqueuedMessage } }
    else none
  | .settleFence commandId applied => applyFenceSettlement current commandId applied now
  | .recordSwitchoverRequiredGtid gtidSet =>
    some { metadata := some { current.metadata with switchoverRequiredGtidSet := some gtidSet } }
  | .blockNothingChanged reason unlessFenced clearTarget extra =>
    if current.state.terminal ∨
        (unlessFenced ∧ ¬(current.state = .fencing ∧ isSet current.metadata.stopApplied = false)) then none
    else some {
      state := some .blocked
      targetMemberId := if clearTarget then some none else none
      metadata := some (extra.spread { current.metadata with
        fenceCommandIds := some [], blockedReason := some reason }) }
  | .failForOperator reason => some (failedNeedsOperator current reason)
  | .claimPromoteResult =>
    if current.state = .detecting ∨ current.state = .fencing ∨ current.state = .promoting then
      let afterPromote := nextStateAfterPromoteSuccess current.metadata
      some { state := some afterPromote.state, metadata := some afterPromote.metadata }
    else none
  | .parkAtIngressGate commandIds requiredServerIds pendingServerIds =>
    some { state := some .reconcilingIngress, metadata := some { current.metadata with
      ingressCommandIds := some commandIds
      ingressServerIds := some requiredServerIds
      ingressPendingServerIds := if 0 < pendingServerIds.length then some pendingServerIds
        else current.metadata.ingressPendingServerIds } }
  | .verifyIngress writerCount =>
    if current.state = .reconcilingIngress then
      let afterIngress := nextStateAfterIngressReconcile current.metadata
      let verified := nextStateAfterVerify writerCount afterIngress.metadata
      some { state := some verified.state, metadata := some verified.metadata }
    else none
  | .degradeIngress serverIds reason =>
    if current.state = .reconcilingIngress then
      some { state := some .failed, metadata := some (degradedMetadata current.metadata serverIds reason) }
    else none
  | .ingressNotQueued serverIds reason =>
    some { state := some .failed, metadata := some (degradedMetadata current.metadata serverIds reason) }
  | .expire live nowMs maxAgeMs reason =>
    if (commandIdsOf current.metadata).any (· ∈ live) then none
    else stalePatch current nowMs maxAgeMs reason
  | .reactivateRestart =>
    if current.state = .blocked ∧ current.metadata.abortRestartTodo.isSome then
      some { metadata := some { current.metadata with abortRestartReactivate := some true } }
    else none
  | .claimRestart nowMs =>
    if !owed current || claimHolds current nowMs then none
    else some { metadata := some { current.metadata with abortRestartClaimedAt := some nowMs } }
  | .clearRestart =>
    if owed current then some { metadata := some { current.metadata with
      abortRestartTodo := some [], abortRestartClaimedAt := none } }
    else none
  | .settleRestart missing noWay => restartSettlement missing noWay current

end TurboPanel.Recovery
