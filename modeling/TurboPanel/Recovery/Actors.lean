import TurboPanel.Recovery.Calls

/-!
# The actors around a recovery

The consumer with the result of a command, the fence-deadline sweep, the stale sweep, the ingress
gate, and what changes the roles of the members. Each of them is a call; any number of calls run at
the same time.
-/

namespace TurboPanel.Recovery

open CommandRecords (CommandStatus)
open Interleaving

/-! ## The end of a recovery -/

def failRecoveryForOperator (recoveryId : RecoveryId) (reason : String) : Proc (Option RecoveryRecord) := do
  let failed ← ask (.updateRecoveryLocked recoveryId (.failForOperator reason))
  match failed with
  | none => pure none
  | some row => do
    ask (.stampManagedFailedIfApplying row.managedId)
    pure (some row)

def onRecoveryCommandFailed (recoveryId : RecoveryId) : Proc Unit := do
  let _ ← failRecoveryForOperator recoveryId recoveryCommandTimedOutMessage
  pure ()

def ingressNotRepointedMessage (serverNames : List String) : String :=
  "Degraded: the new primary is in place, but the database proxy on " ++
    (if 0 < serverNames.length then ", ".intercalate serverNames else "at least one server") ++
    " has not switched to it, so connections through that server may still reach the old primary. Apply the cluster again to retry."

/-- How the gate settles a row, once no command is live. -/
def settleIngressGate (record : RecoveryRecord) : IngressGateDecision → Proc Unit
  | .wait => pure ()
  | .complete => do
    let members ← ask (.listManagedMembers record.managedId)
    let _ ← ask (.updateRecoveryLocked record.id
      (.verifyIngress (members.filter fun row => row.role == .primary).length))
    pure ()
  | .degraded serverIds => do
    let names ← ask (.loadServerNames serverIds)
    let _ ← ask (.updateRecoveryLocked record.id
      (.degradeIngress serverIds (ingressNotRepointedMessage names)))
    pure ()

def judgeIngressGate (record : RecoveryRecord) : Proc Unit :=
  if record.state ≠ .reconcilingIngress then pure ()
  else do
    let commands ← ask (.loadGateCommands (record.metadata.ingressCommandIds.getD []))
    settleIngressGate record (decideIngressGate (record.metadata.ingressServerIds.getD []) commands)

def evaluateIngressGate (recoveryId : RecoveryId) : Proc Unit := do
  let record ← ask (.findRecoveryById recoveryId)
  match record with
  | none => pure ()
  | some record => judgeIngressGate record

def parkRecoveryAtIngressGate (recoveryId : RecoveryId) (fanOut : ManagedIngressFanOutOutcome)
    (pendingServerIds : List ServerId) : Proc Unit := do
  let _ ← ask (.updateRecoveryLocked recoveryId
    (.parkAtIngressGate fanOut.commandIds fanOut.requiredServerIds pendingServerIds))
  evaluateIngressGate recoveryId

def failRecoveryIngressNotQueued (recoveryId : RecoveryId) (serverIds : List ServerId) : Proc Unit := do
  let names ← ask (.loadServerNames serverIds)
  let _ ← ask (.updateRecoveryLocked recoveryId
    (.ingressNotQueued serverIds (ingressNotRepointedMessage names)))
  pure ()

/-- `onPromoteSucceeded` after the claim. -/
def followPromote (record : RecoveryRecord) : Proc Unit := do
  let ingress ← ask (.fanOutAfterPromote record.managedId)
  match ingress with
  | some fanOut => parkRecoveryAtIngressGate record.id fanOut (attestedLostServerIds record.metadata)
  | none => do
    let members ← ask (.listManagedMembers record.managedId)
    failRecoveryIngressNotQueued record.id (members.map (·.serverId)).eraseDups

def claimPromote (recoveryId : RecoveryId) : Proc Unit := do
  let claimed ← ask (.updateRecoveryLocked recoveryId .claimPromoteResult)
  match claimed with
  | none => pure ()
  | some record => followPromote record

def onPromoteSucceeded (recoveryId : RecoveryId) : Proc Unit := do
  let existing ← ask (.findRecoveryById recoveryId)
  match existing with
  | none => pure ()
  | some existing => if existing.state.terminal then pure () else claimPromote recoveryId

/-! ## A promote that failed -/

inductive SwitchoverPromoteFailureCode where
  | gtidWaitTimeout
  | gtidWaitError
  | promoteStarted
  | promoteUnconfirmed
  | targetNotRunning
  deriving DecidableEq

def switchoverPromoteFailureShouldReactivateOldPrimary (code : Option SwitchoverPromoteFailureCode) : Bool :=
  code == some .gtidWaitTimeout || code == some .gtidWaitError || code == some .targetNotRunning

def switchoverPromoteFailedMessage : Option SwitchoverPromoteFailureCode → String
  | some .gtidWaitTimeout => "Planned switchover aborted: the promotion target did not apply the old primary GTID position before the wait timed out"
  | some .targetNotRunning => "Planned switchover aborted: the promotion target was not running, so nothing was promoted and the old primary was started again"
  | some .gtidWaitError => "Planned switchover aborted: the promotion target could not run the GTID catch-up check"
  | some .promoteStarted => "Planned switchover aborted after promotion began on the target; the old primary was left read-only to avoid two writers — operator action required"
  | some .promoteUnconfirmed => "Planned switchover stopped: the new primary did not confirm in time whether it was promoted; the old primary was left stopped to avoid two writers — check which member is the writer"
  | none => "Planned switchover aborted before the role change finished"

/-- The failure of a promote that was queued again counts as not confirmed. -/
def promoteFailureCode (record : RecoveryRecord) (reported : Option SwitchoverPromoteFailureCode) :
    Option SwitchoverPromoteFailureCode :=
  if reported == some .targetNotRunning && decide (0 < record.metadata.promoteResumes.getD 0) then
    some .promoteUnconfirmed
  else reported

def failUnconfirmedPromote (recoveryId : RecoveryId) (code : Option SwitchoverPromoteFailureCode) :
    Proc Unit := do
  let failed ← failRecoveryForOperator recoveryId (switchoverPromoteFailedMessage code)
  match failed with
  | none => pure ()
  | some row => ask (.stampManaged row.managedId .ready)

def reactivateIfQueue (hasQueue : Bool) (record : RecoveryRecord) (members : List ManagedMemberRow) :
    Proc Unit :=
  if hasQueue then reactivateSource record members else pure ()

def undoSwitchover (hasQueue : Bool) (record : RecoveryRecord) (code : Option SwitchoverPromoteFailureCode)
    (members : List ManagedMemberRow) : Proc Unit := do
  reactivateIfQueue hasQueue record members
  let _ ← blockRecoveryNothingChanged record.id (switchoverPromoteFailedMessage code) false false .nothing
  pure ()

def settleFailedPromote (hasQueue : Bool) (record : RecoveryRecord)
    (code : Option SwitchoverPromoteFailureCode) : Proc Unit := do
  let members ← ask (.listManagedMembers record.managedId)
  if !switchoverPromoteFailureShouldReactivateOldPrimary code then failUnconfirmedPromote record.id code
  else undoSwitchover hasQueue record code members

def onSwitchoverPromoteFailed (hasQueue : Bool) (recoveryId : RecoveryId)
    (reported : Option SwitchoverPromoteFailureCode) : Proc Unit := do
  let record ← ask (.findRecoveryById recoveryId)
  match record with
  | none => onRecoveryCommandFailed recoveryId
  | some record =>
    let targetNeverRan := promoteFailureCode record reported == some .targetNotRunning &&
      record.kind == .switchover
    if record.metadata.switchoverRequiredGtidSet.isNone && !targetNeverRan then
      onRecoveryCommandFailed recoveryId
    else settleFailedPromote hasQueue record (promoteFailureCode record reported)

def maxPromoteResumes : ℕ := 2

/-- `promoteResumeRequeueRefusal` refuses. -/
def promoteResumeRefused (record : RecoveryRecord) (members : List ManagedMemberRow)
    (inflight : Option RecoveryRecord) : Bool :=
  match inflight with
  | none => true
  | some inflight => inflight.id != record.id || inflight.targetMemberId != record.targetMemberId ||
    members.any fun row => row.role == .primary && row.id != record.sourcePrimaryMemberId &&
      some row.id != record.targetMemberId

def resumeOnTarget (record : RecoveryRecord) (source target : ManagedMemberRow) : Proc Bool := do
  if target.role == .primary then do
    onPromoteSucceeded record.id
    pure true
  else do
    let connected ← ask (.isServerConnected target.serverId)
    if !connected then pure false
    else do
      let result ← enqueuePromoteOrRecover {
        recovery := { record with metadata := { record.metadata with
          promoteResumes := some (record.metadata.promoteResumes.getD 0 + 1) } }
        source, target, haPresent := isSet record.metadata.haPresent, resume := true }
      pure result.isOk

def resumeAmong (record : RecoveryRecord) (inflight : Option RecoveryRecord)
    (members : List ManagedMemberRow) : Proc Bool :=
  if promoteResumeRefused record members inflight then pure false
  else match members.find? fun row => row.id == record.sourcePrimaryMemberId,
    members.find? fun row => some row.id == record.targetMemberId with
  | some source, some target => resumeOnTarget record source target
  | _, _ => pure false

def resumeRecord (record : RecoveryRecord) : Proc Bool :=
  if record.state != .promoting || record.targetMemberId.isNone then pure false
  else do
    let inflight ← ask (.findInFlightRecovery record.managedId)
    if maxPromoteResumes ≤ record.metadata.promoteResumes.getD 0 then pure false
    else do
      let members ← ask (.listManagedMembers record.managedId)
      resumeAmong record inflight members

/-- `resumeInterruptedPromote`, with whether the error is that the daemon restarted. -/
def resumeInterruptedPromote (hasQueue : Bool) (recoveryId : RecoveryId) (interrupted : Bool) : Proc Bool :=
  if !hasQueue || !interrupted then pure false
  else do
    let record ← ask (.findRecoveryById recoveryId)
    match record with
    | none => pure false
    | some record => resumeRecord record

/-! ## The restart of the old primary -/

def cancelOpenFenceStep (_ : Unit) (step : FenceStepState) : Proc Unit :=
  if step.status.terminal then pure () else ask (.transitionCommand step.id .cancelled)

def cancelOpenFenceSteps (steps : List FenceStepState) : Proc Unit :=
  Prog.foldEach cancelOpenFenceStep steps ()

/-- After the last decision: a row that ends for the operator. -/
def followRestart (row : RecoveryRecord) : Proc Unit :=
  if row.state = .failed then do
    ask (.stampManaged row.managedId .ready)
    let steps ← ask (.loadFenceStepStates (row.metadata.abortRestartStepIds.getD []))
    cancelOpenFenceSteps steps
  else pure ()

def settleRestart (recoveryId : RecoveryId) (missing : List RestartStep) (noWay : Bool) : Proc Unit := do
  let settled ← ask (.updateRecoveryLocked recoveryId (.settleRestart missing noWay))
  match settled with
  | none => pure ()
  | some row => followRestart row

def finishReactivation (recoveryId : RecoveryId) (reactivation : Reactivation) : Proc Unit :=
  if reactivation.stale then do
    let _ ← ask (.updateRecoveryLocked recoveryId .clearRestart)
    pure ()
  else settleRestart recoveryId reactivation.missing false

/-- `finishAbortRestart` once the restart is claimed. -/
def restartClaimed (hasQueue : Bool) (locked : RecoveryRecord) : Proc Unit := do
  let members ← ask (.listManagedMembers locked.managedId)
  match members.find? fun row => row.id == locked.sourcePrimaryMemberId with
  | none => settleRestart locked.id [.all] true
  | some source =>
    if !hasQueue then settleRestart locked.id [.all] true
    else do
      let todo := locked.metadata.abortRestartTodo.getD []
      let reactivation ← enqueueSwitchoverAbortReactivation {
        record := locked, source, members, before := true
        reactivate := locked.metadata.abortRestartReactivate != some false
        only := if .all ∈ todo then none else some todo }
      finishReactivation locked.id reactivation

def claimRestart (hasQueue : Bool) (recoveryId : RecoveryId) (nowMs : Time) : Proc Unit := do
  let locked ← ask (.updateRecoveryLocked recoveryId (.claimRestart nowMs))
  match locked with
  | none => pure ()
  | some locked => restartClaimed hasQueue locked

/-- Without the `catch`, where an error while queueing leaves the whole todo missing. -/
def finishAbortRestart (hasQueue : Bool) (recoveryId : RecoveryId) : Proc Unit := do
  let nowMs ← ask .now
  let current ← ask (.findRecoveryById recoveryId)
  match current with
  | none => pure ()
  | some current => if !owed current then pure () else claimRestart hasQueue recoveryId nowMs

/-! ## The fence deadline -/

def abandonDrain (hasQueue : Bool) (row : RecoveryRecord) (engine : ManagedEngineCode) (_ : Unit)
    (step : FenceStepState) : Proc Unit :=
  onFenceCommandFailed hasQueue row.id step.id engine

/-- A stop that was sent meanwhile makes the start necessary. -/
def noteSentStop (row : RecoveryRecord) (stopDelivered : Bool) (after : List FenceStepState) : Proc Unit :=
  if !stopDelivered && after.any fun step => step.phase == some .stop && step.sentAt.isSome then do
    let _ ← ask (.updateRecoveryLocked row.id .reactivateRestart)
    pure ()
  else pure ()

def abortSwitchover (hasQueue : Bool) (row : RecoveryRecord) (steps : List FenceStepState)
    (stopDelivered : Bool) : Proc Unit := do
  let blocked ← blockRecoveryNothingChanged row.id fenceTimedOutMessage true false
    (.restart stopDelivered (steps.map (·.id)))
  match blocked with
  | none => pure ()
  | some _ => do
    cancelOpenFenceSteps steps
    let after ← ask (.loadFenceStepStates (row.metadata.fenceCommandIds.getD []))
    noteSentStop row stopDelivered after
    finishAbortRestart hasQueue row.id

def abortReason (kind : RecoveryKind) (repeated : Bool) : String :=
  if repeated then fenceDeadlineRepeatedMessage
  else if kind = .automaticFailover then automaticFailoverBlockedMessage
  else fenceTimedOutMessage

/-- Whether it is the third automatic failover in a row that ends at the deadline. -/
def repeatedDeadline (row : RecoveryRecord) (nowMs : Time) : Proc Bool :=
  if row.kind = .automaticFailover then do
    let recent ← ask (.listRecentRecoveries row.managedId)
    pure (decide (fenceDeadlineStreakLimit - 1 ≤ deadlineBlockStreak recent row nowMs))
  else pure false

def abortOther (row : RecoveryRecord) (steps : List FenceStepState) (nowMs : Time) : Proc Unit := do
  let repeated ← repeatedDeadline row nowMs
  let blocked ← blockRecoveryNothingChanged row.id (abortReason row.kind repeated) true (!repeated) .deadline
  match blocked with
  | none => pure ()
  | some _ => cancelOpenFenceSteps steps

def expirePlanned (hasQueue : Bool) (row : RecoveryRecord) (nowMs : Time) (steps : List FenceStepState) :
    StalledFencePlan → Proc Unit
  | .wait => pure ()
  | .abandonDrains => do
    let engine ← ask (.managedEngineOf row.managedId)
    cancelOpenFenceSteps steps
    Prog.foldEach (abandonDrain hasQueue row engine) steps ()
  | .abort stopDelivered =>
    if row.kind = .switchover then abortSwitchover hasQueue row steps stopDelivered
    else abortOther row steps nowMs

def expireStalledFence (hasQueue : Bool) (nowMs : Time) (_ : Unit) (row : RecoveryRecord) : Proc Unit := do
  let steps ← ask (.loadFenceStepStates (row.metadata.fenceCommandIds.getD []))
  let stop := steps.find? fun step => step.phase == some .stop
  expirePlanned hasQueue row nowMs steps
    (planStalledFence row nowMs (stop.any fun step => step.sentAt.isSome))

def finishPending (hasQueue : Bool) (_ : Unit) (row : RecoveryRecord) : Proc Unit :=
  finishAbortRestart hasQueue row.id

def sweepStalledFencing (hasQueue : Bool) : Proc Unit := do
  let nowMs ← ask .now
  let rows ← ask .listFencingRecoveries
  let pending ← ask .listPendingAbortRestarts
  Prog.foldEach (expireStalledFence hasQueue nowMs) rows ()
  Prog.foldEach (finishPending hasQueue) pending ()

/-! ## The stale sweep -/

def expireCandidate (live : List CommandId) (nowMs maxAgeMs : Time) (reason : String) (_ : Unit)
    (row : RecoveryRecord) : Proc Unit := do
  let updated ← ask (.updateRecoveryLocked row.id (.expire live nowMs maxAgeMs reason))
  match updated with
  | none => pure ()
  | some row =>
    if row.state = .failed then ask (.stampManagedFailedIfApplying row.managedId) else pure ()

def expireStaleRecoveries (maxAgeMs : Time) (reason : String) : Proc Unit := do
  let nowMs ← ask .now
  let rows ← ask .listInFlightRecoveries
  let candidates := rows.filter fun row => (stalePatch row nowMs maxAgeMs reason).isSome
  let live ← ask (.liveCommandIds (candidates.flatMap fun row => commandIdsOf row.metadata).eraseDups)
  Prog.foldEach (expireCandidate live nowMs maxAgeMs reason) candidates ()

/-! ## The results of commands -/

/-- What is known of a result besides its status. -/
structure Report where
  hasQueue : Bool
  engine : ManagedEngineCode
  /-- A stop reports the GTID set. -/
  gtidSet : Option String := none
  /-- The error is that the daemon restarted. -/
  interrupted : Bool := false
  failureCode : Option SwitchoverPromoteFailureCode := none

def roleFlip (spec : CommandSpec) : Proc Unit := do
  ask (.flipRoles spec.managedId spec.targetMemberId spec.sourceMemberId)
  match spec.recoveryId with
  | none => pure ()
  | some recoveryId => onPromoteSucceeded recoveryId

/-- What the consumer does with a command that succeeded. -/
def followSucceeded (report : Report) (commandId : CommandId) (spec : CommandSpec) : Proc Unit :=
  if spec.kind.promotes then roleFlip spec
  else match spec.recoveryId, spec.kind with
  | some recoveryId, .stop =>
    onFenceCommandSucceeded report.hasQueue recoveryId commandId .stop report.engine report.gtidSet
  | some recoveryId, .drain =>
    onFenceCommandSucceeded report.hasQueue recoveryId commandId .drain report.engine none
  | some recoveryId, .ingress => evaluateIngressGate recoveryId
  | _, _ => pure ()

/-- `handlePromoteOrFailoverRecoveryFailure`. -/
def promoteFailed (report : Report) (recoveryId : RecoveryId) : Proc Unit := do
  let resumed ← resumeInterruptedPromote report.hasQueue recoveryId report.interrupted
  if resumed then pure ()
  else onSwitchoverPromoteFailed report.hasQueue recoveryId report.failureCode

/-- What the consumer does with a command that failed. -/
def followFailed (report : Report) (commandId : CommandId) (spec : CommandSpec) : Proc Unit :=
  match spec.recoveryId with
  | none => pure ()
  | some recoveryId =>
    if spec.kind.fencePhase.isSome then
      onFenceCommandFailed report.hasQueue recoveryId commandId report.engine
    else if spec.kind = .ingress then evaluateIngressGate recoveryId
    else if spec.kind.promotes then promoteFailed report recoveryId
    else pure ()

def settleTimedOutPromote (hasQueue : Bool) (recoveryId : RecoveryId) : Proc Unit := do
  let record ← ask (.findRecoveryById recoveryId)
  if record.any fun record => record.metadata.switchoverRequiredGtidSet.isSome then
    onSwitchoverPromoteFailed hasQueue recoveryId (some .promoteUnconfirmed)
  else onRecoveryCommandFailed recoveryId

/-- `onRecoveryCommandTimedOut`: the fence of a command that is gone failed, and no queue is at
hand. -/
def followTimedOut (report : Report) (commandId : CommandId) (spec : CommandSpec) : Proc Unit :=
  match spec.recoveryId with
  | none => pure ()
  | some recoveryId =>
    if spec.kind.fencePhase.isSome then onFenceCommandFailed false recoveryId commandId .postgres
    else if spec.kind = .ingress then evaluateIngressGate recoveryId
    else if spec.kind.promotes then settleTimedOutPromote report.hasQueue recoveryId
    else pure ()

/-! ## Calls -/

inductive Call where
  | beginOperatorSwitchover (params : BeginParams) (h : params.kind = .switchover ∧ params.hostLossIncident = none)
  | beginDisasterRecovery (params : BeginParams)
    (h : params.kind = .disasterRecovery ∧ params.hostLossIncident = none)
  | beginAutomaticFailover (params : AutomaticFailoverParams)
  /-- `recordStaleDeadPrimaryReport`. -/
  | staleReport (managedId : ManagedId) (primary : ManagedMemberRow) (reason : String)
  /-- The consumer hands a command to its daemon. -/
  | sent (commandId : CommandId)
  | succeeded (commandId : CommandId) (report : Report)
  | failed (commandId : CommandId) (report : Report)
  | timedOut (commandId : CommandId) (report : Report)
  /-- As `onRecoveryStepFailed` calls it. -/
  | failRecoveryForOperator (recoveryId : RecoveryId) (reason : String)
  | sweepStalledFencing (hasQueue : Bool)
  | expireStaleRecoveries (maxAgeMs : Time) (reason : String)
  | evaluateIngressGate (recoveryId : RecoveryId)
  /-- The roles are changed by another way than a recovery. -/
  | flipRoles (managedId : ManagedId) (promotedMemberId demotedMemberId : MemberId)

def follow (commandId : CommandId) (status : CommandStatus)
    (next : CommandId → CommandSpec → Proc Unit) : Proc Unit := do
  let command ← ask (.reported commandId status)
  match command with
  | none => pure ()
  | some command => next commandId command.spec

def body : Call → Proc Unit
  | .beginOperatorSwitchover params _ => do
    let _ ← beginRecovery params
    pure ()
  | .beginDisasterRecovery params _ => do
    let _ ← beginRecovery params
    pure ()
  | .beginAutomaticFailover params => beginAutomaticFailover params
  | .staleReport managedId primary reason => recordBlockedRecovery managedId primary
    ("Ignored stale dead-primary report: " ++ reason)
  | .sent commandId => ask (.transitionCommand commandId .sent)
  | .succeeded commandId report => follow commandId .succeeded (followSucceeded report)
  | .failed commandId report => follow commandId .failed (followFailed report)
  | .timedOut commandId report => follow commandId .timedOut (followTimedOut report)
  | .failRecoveryForOperator recoveryId reason => do
    let _ ← failRecoveryForOperator recoveryId reason
    pure ()
  | .sweepStalledFencing hasQueue => sweepStalledFencing hasQueue
  | .expireStaleRecoveries maxAgeMs reason => expireStaleRecoveries maxAgeMs reason
  | .evaluateIngressGate recoveryId => evaluateIngressGate recoveryId
  | .flipRoles managedId promoted demoted => ask (.flipRoles managedId promoted demoted)

end TurboPanel.Recovery
