import TurboPanel.Upgrades.Transitions

/-!
# The rows of upgrade steps

A step has the columns its plan gave it, which no statement writes again, and those that a tick or a
report changes. Each change is a function of the row: what a tick does for an action (`actOn`), the
claim of a step for a dispatch (`claimRow`), a dispatch that failed (`dispatchFailedRow`), and what
a report of the daemon does (`noteProgressRow`, `noteOutcomeRow`).
-/

namespace TurboPanel.Upgrades

/-! ## Rows -/

/-- The columns that the plan gives a step. The id is the key of the row, so these are one step's.
-/
structure StepPlan where
  id : String
  upgradeId : String
  serverId : String
  unit : UpgradeStepUnit
  phase : UpgradePhase
  batchIndex : ℕ
  fromCommit : Option String
  toCommit : Option String
  deriving DecidableEq

/-- Diagnostics for a daemon restart that was reported as failed. -/
structure UpdateRestartReport where
  command : Option String
  exitCode : Option ℤ
  signal : Option String
  stderr : Option String
  attempts : ℤ
  elapsedMs : ℤ

structure RestartPending where
  reportedAt : Stamp
  message : String
  restart : Option UpdateRestartReport

structure StepDetail where
  progressDetail : Option String := none
  priorRequestIds : List String := []
  inProgressRefused : Bool := false
  uiRefresh : Bool := false
  restartPending : Option RestartPending := none
  restartNote : Option String := none

structure UpgradeStepRow where
  plan : StepPlan
  status : UpgradeStepStatus
  requestId : Option String
  attempts : ℕ
  nextAttemptAt : Option ℤ
  lastStageAt : Option ℤ
  errorCode : Option String
  errorMessage : Option String
  detail : StepDetail

/-! ## Builds -/

/-- One resolved build for one unit. -/
structure UpgradeUnitTarget where
  version : Option String := none
  commit : Option String := none
  manifestUrl : Option String := none

structure UpgradeTarget where
  daemon : Option UpgradeUnitTarget := none
  instance_ : Option UpgradeUnitTarget := none
  ui : Option UpgradeUnitTarget := none

def unitTarget (target : UpgradeTarget) : UpgradeStepUnit → Option UpgradeUnitTarget
  | .daemon => target.daemon
  | .instance_ => target.instance_

/-- True only when both commits are known and equal. -/
def isOnTarget (installedCommit : Option String) (target : Option UpgradeUnitTarget) : Bool :=
  match target.bind UpgradeUnitTarget.commit with
  | some want => decide (want.length > 0) && decide (installedCommit = some want)
  | none => false

structure FleetServerFact where
  serverId : String
  connected : Bool
  commit : Option String
  features : List String
  colocated : Bool

inductive UpgradeRuntime where
  | deno
  | workers
  deriving DecidableEq

/-- What the coordinator is created with, and the two functions of other features that it calls. -/
structure UpgradeDeps where
  runtime : UpgradeRuntime
  development : Bool
  channelHasInstancePackage : Bool
  colocatedServerId : Option String
  /-- The commit of the control plane that runs. -/
  instanceCommit : Option String
  verifyTimeoutMs : ℤ
  /-- `installScriptUrlForChannel`, for the channel. -/
  installScriptUrl : String
  redactUrlSecrets : String → String

def managedUpgradeFeature : String := "managed-upgrade-v1"

def admitsFeature (fact : Option FleetServerFact) : Bool :=
  fact.any fun fact => decide (managedUpgradeFeature ∈ fact.features)

/-! ## Texts -/

/-- The text, when there is one that is not empty. -/
def nonEmpty (text : Option String) : Option String := text.filter fun text => decide (text ≠ "")

def shortCommit : Option String → String
  | some commit => if commit = "" then "an unknown build" else (commit.take 7).toString
  | none => "an unknown build"

def daemonOnlyUpdateCommand (deps : UpgradeDeps) (manifestUrl : Option String) : String :=
  let pin := (nonEmpty (manifestUrl.map fun url => url.trimAscii.toString)).getD
    "<pinned daemon manifest url>"
  "curl -fsSL " ++ deps.installScriptUrl ++
    " | TURBOPANEL_DAEMON_ONLY=1 TURBOPANEL_MANIFEST_URL=" ++ pin ++ " sh"

/-- `Math.round` of a number of milliseconds, in minutes. -/
def roundedMinutes (ms : ℤ) : ℤ := (2 * ms + 60000) / 120000

def skippedOfflineAtStartMessage : String :=
  "Skipped: offline when the update started. It updates at the next automatic check after it " ++
    "reconnects (within the hour), unless updates are paused."

def skippedPausedMessage : String :=
  "Updates were paused before this server started. It updates after they are resumed."

def skipOfflineTimeoutMessage : String :=
  "Skipped: offline for " ++ toString (roundedMinutes upgradeOfflineDeadlineMs) ++
    " minutes during the update. It updates at the next automatic check after it reconnects " ++
    "(within the hour), unless updates are paused."

/-- What the operator needs when the daemon never confirmed the restarted control plane. -/
def verifyTimeoutMessage (deps : UpgradeDeps) (step : UpgradeStepRow) : String :=
  let want := shortCommit step.plan.toCommit
  let place :=
    if (nonEmpty deps.instanceCommit).isSome ∧ deps.instanceCommit = step.plan.toCommit then
      "This control plane is running the target build " ++ want
    else
      "This control plane is running " ++ shortCommit deps.instanceCommit ++
        ", not the target build " ++ want
  "The daemon did not confirm the new control plane within " ++
    toString (roundedMinutes deps.verifyTimeoutMs) ++ " minutes. " ++ place ++
    ". Check the daemon log on this host; a later automatic check tries again."

/-! ## Restart reports -/

def restartFailedCode : String := "restart_failed"

def restartRecoveredNote : String :=
  "The server restarted onto the new version after the first try was cut short."

def describeRestartPending (pending : RestartPending) : String :=
  match pending.restart with
  | none => pending.message
  | some restart =>
    if (pending.message.splitOn "(systemctl ").length > 1 then pending.message
    else
      let status :=
        match restart.signal with
        | some signal => "ended by " ++ signal
        | none => "exited " ++ (restart.exitCode.map toString).getD "without a status"
      let stderr := ((restart.stderr.map fun text => ", stderr: " ++ text)).getD ""
      pending.message ++ " (systemctl " ++ restart.command.getD "restart" ++ " " ++ status ++ stderr ++
        "; " ++ toString restart.attempts ++ (if restart.attempts = 1 then " try, " else " tries, ") ++
        toString restart.elapsedMs ++ " ms)"

/-- Hold a step for the reconnect window. A second report keeps the first one's time and facts. -/
def withRestartPending (detail : StepDetail) (reportedAt : Stamp) (message : String)
    (restart : Option UpdateRestartReport) : StepDetail :=
  { detail with
    restartPending := some
      { reportedAt := (detail.restartPending.map RestartPending.reportedAt).getD reportedAt
        message := (detail.restartPending.map RestartPending.message).getD message
        restart := restart <|> detail.restartPending.bind RestartPending.restart } }

/-- The host came back on the target: keep the facts and a plain note. -/
def withRestartRecovered (detail : StepDetail) : StepDetail :=
  { detail with restartNote := some restartRecoveredNote }

/-- A step settles `done`; one that was held after a reported restart error keeps a plain note. -/
def markStepDone (step : UpgradeStepRow) (at_ : ℤ) : UpgradeStepRow :=
  { step with
    detail := if step.detail.restartPending.isSome then withRestartRecovered step.detail else step.detail
    status := .done
    lastStageAt := some at_ }

/-- The window ended without the target build: fail with the exact reason. -/
def markRestartFailed (deps : UpgradeDeps) (step : UpgradeStepRow) (reason : RestartFailureReason)
    (currentCommit : Option String) (at_ : ℤ) : UpgradeStepRow :=
  let said := (step.detail.restartPending.map describeRestartPending).getD
    "daemon restart failed after reconcile"
  let want := shortCommit step.plan.toCommit
  let state :=
    match reason with
    | .neverBack =>
      "The host did not reconnect within " ++ toString (roundedMinutes upgradeRestartReconnectMs) ++
        " minutes."
    | .oldBuild =>
      "The host reconnected but still runs the old build " ++ shortCommit currentCommit ++
        ", not the target " ++ want ++ "."
    | .otherBuild =>
      "The host reconnected on " ++ shortCommit currentCommit ++
        ", which is neither the old build nor the target " ++ want ++ "."
  { step with
    status := .failed
    errorCode := some restartFailedCode
    errorMessage := some (deps.redactUrlSecrets (said ++ ". " ++ state))
    lastStageAt := some at_ }

def markStepSkippedOffline (step : UpgradeStepRow) (message : String) : UpgradeStepRow :=
  { step with
    status := .skipped
    errorCode := some UpgradeStepErrorCode.serverOffline.code
    errorMessage := some message }

/-! ## Dispatches -/

/-- Earlier dispatch ids a step remembers. -/
def maxPriorRequestIds : ℕ := 5

def lastIds (ids : List String) : List String := ids.drop (ids.length - maxPriorRequestIds)

/-- Record a superseded dispatch id before a step is dispatched again. -/
def withSupersededRequest (detail : StepDetail) (requestId : Option String) : StepDetail :=
  let prior := lastIds detail.priorRequestIds
  let ids :=
    match nonEmpty requestId with
    | some id => if id ∈ prior then prior else lastIds (prior ++ [id])
    | none => prior
  { detail with
    priorRequestIds := ids
    inProgressRefused := false
    restartPending := none
    restartNote := none }

/-- The row that claims a step for a dispatch. -/
def claimRow (step : UpgradeStepRow) (requestId : String) (now : ℤ) : UpgradeStepRow :=
  { step with
    detail := withSupersededRequest step.detail step.requestId
    status := .dispatched
    attempts := step.attempts + 1
    requestId := some requestId
    lastStageAt := some now
    nextAttemptAt := none
    errorMessage := none }

/-- The command never reached the server's cell: retry with the usual backoff, and after the last
allowed attempt hand the step to an operator. The clock is read twice. -/
def dispatchFailedRow (step : UpgradeStepRow) (error : String) (now now' : ℤ) : UpgradeStepRow :=
  let step :=
    { step with
      errorMessage := some ("The update command could not be delivered to the server: " ++ error)
      lastStageAt := some now }
  if step.attempts ≥ upgradeStepMaxAttempts then
    { step with
      status := .needsAttention
      errorCode := some UpgradeStepErrorCode.dispatchFailed.code }
  else
    { step with
      status := .pending
      nextAttemptAt :=
        some (now' + computeBackoffMs step.attempts upgradeBackoffBaseMs upgradeBackoffMaxMs) }

/-- The columns that decide whether a row is written. -/
def stepPersistKey (step : UpgradeStepRow) :=
  (step.status, step.requestId.getD "", step.attempts, step.nextAttemptAt, step.lastStageAt,
    step.errorCode.getD "", step.errorMessage.getD "")

/-! ## The action of a tick -/

def currentCommit (deps : UpgradeDeps) (step : UpgradeStepRow) (fact : Option FleetServerFact) :
    Option String :=
  match step.plan.unit with
  | .instance_ =>
    -- a step that was dispatched is done when the daemon says so, never on the commit alone
    if step.detail.uiRefresh = true ∨ step.attempts > 0 then none else deps.instanceCommit
  | .daemon => fact.bind FleetServerFact.commit

def stepView (step : UpgradeStepRow) : StepView where
  status := step.status
  phase := step.plan.phase
  unit := step.plan.unit
  attempts := step.attempts
  nextAttemptAt := step.nextAttemptAt
  lastStageAt := step.lastStageAt
  toCommit := step.plan.toCommit
  inProgressRefused := step.detail.inProgressRefused
  fromCommit := step.plan.fromCommit
  restartReportedAt := step.detail.restartPending.map RestartPending.reportedAt

def stepActionFor (deps : UpgradeDeps) (step : UpgradeStepRow) (fact : Option FleetServerFact)
    (now : ℤ) : StepAction :=
  planStepAction (stepView step)
    { serverConnected := fact.any FleetServerFact.connected
      currentCommit := currentCommit deps step fact }
    { now := now, verifyTimeoutMs := deps.verifyTimeoutMs }

/-- What a tick does with a step: nothing, write a row, or queue it for a dispatch. -/
inductive StepWork where
  | nothing
  | save (row : UpgradeStepRow)
  | dispatch

/-- The work for an action; `now` is the time when it is applied. -/
def actOn (deps : UpgradeDeps) (target : UpgradeTarget) (step : UpgradeStepRow)
    (fact : Option FleetServerFact) (now : ℤ) : StepAction → StepWork
  | .none => .nothing
  | .done => .save (markStepDone step now)
  | .restartFailed reason =>
    .save (markRestartFailed deps step reason (fact.bind FleetServerFact.commit) now)
  | .waitOffline =>
    .save { step with
      lastStageAt := if step.status ≠ .waiting then some now else step.lastStageAt
      status := .waiting }
  | .skipOffline => .save (markStepSkippedOffline step skipOfflineTimeoutMessage)
  | .needsAttention errorCode =>
    .save { step with
      status := .needsAttention
      errorCode := some errorCode.code
      errorMessage := if errorCode = .verifyTimeout then some (verifyTimeoutMessage deps step)
        else step.errorMessage }
  | .retry nextAttemptAt =>
    .save { step with status := .pending, nextAttemptAt := some nextAttemptAt }
  | .dispatch =>
    if step.plan.unit = .instance_ ∧ admitsFeature fact = false then
      .save { step with
        status := .needsAttention
        errorCode := some UpgradeStepErrorCode.managedUpgradeRequired.code
        errorMessage := some (daemonOnlyUpdateCommand deps
          (target.daemon.bind UpgradeUnitTarget.manifestUrl)) }
    else .dispatch

/-! ## Reports of the daemon -/

inductive UpdateProgressStage where
  | preparing
  | downloading
  | installing
  | restarting
  | verifying
  | done
  | failed
  | rolledBack
  deriving DecidableEq

def stepStatusForProgressStage : UpdateProgressStage → UpgradeStepStatus
  | .preparing => .preparing
  | .downloading => .downloading
  | .installing => .installing
  | .restarting => .restarting
  | .verifying => .verifying
  | .done => .done
  | .failed => .failed
  | .rolledBack => .rolledBack

/-- Position of an in-flight stage; every other status ranks by role. -/
def stageRank : UpgradeStepStatus → ℕ
  | .dispatched => 0
  | .preparing => 1
  | .downloading => 2
  | .installing => 3
  | .restarting => 4
  | .verifying => 5
  | .done | .failed | .rolledBack => 6
  | _ => 0

/-- The dispatch of a step that a report belongs to: the current one, or one it superseded. -/
inductive ReportKind where
  | current
  | prior
  deriving DecidableEq

def classifyReport (step : UpgradeStepRow) (requestId : String) : Option ReportKind :=
  if step.requestId = some requestId then some .current
  else if requestId ∈ lastIds step.detail.priorRequestIds then some .prior
  else none

/-- A failure from an earlier dispatch counts only once the current one was refused. -/
def priorFailureApplies (step : UpgradeStepRow) : ReportKind → Bool
  | .current => true
  | .prior => step.detail.inProgressRefused

def updateInProgressErrorCode : String := "preflight_in_progress"

def markInProgressRefused (step : UpgradeStepRow) (at_ : ℤ) : UpgradeStepRow :=
  { step with
    detail := { step.detail with inProgressRefused := true }
    lastStageAt := some at_ }

/-- The daemon step's own `restart_failed` report: a hint to hold on, not a verdict. -/
def isRestartFailure (step : UpgradeStepRow) (errorCode : Option String) : Bool :=
  decide (step.plan.unit = .daemon ∧ errorCode = some restartFailedCode)

def maxMessageChars : ℕ := 1000

/-- A text that is kept: on one line, cut and without secrets. -/
def keptText (deps : UpgradeDeps) (text : String) : String :=
  deps.redactUrlSecrets ((text.map fun c =>
    if c = '\r' ∨ c = '\n' ∨ c = '\t' then ' ' else c).take maxMessageChars).toString

/-- Keep the step in flight and start the reconnect window. -/
def holdForReconnect (deps : UpgradeDeps) (step : UpgradeStepRow) (at_ : ℤ) (message : Option String)
    (restart : Option UpdateRestartReport) : UpgradeStepRow :=
  let text := ((nonEmpty (some (message.getD restartFailedCode))).map (keptText deps)).getD
    restartFailedCode
  { step with
    detail := withRestartPending step.detail (some at_) text restart
    status := .restarting
    lastStageAt := some at_ }

structure ProgressReport where
  serverId : String
  upgradeId : Option String
  unit : UpgradeStepUnit
  stage : UpdateProgressStage
  at_ : ℤ
  detail : Option String
  errorCode : Option String
  restart : Option UpdateRestartReport
  requestId : String

structure OutcomeReport where
  serverId : String
  upgradeId : Option String
  unit : UpgradeStepUnit
  ok : Bool
  at_ : ℤ
  error : Option String
  errorCode : Option String
  requestId : String

/-- Fold a report's free text into the step; a failed or rolled-back one is also its error message.
-/
def recordProgressDetail (deps : UpgradeDeps) (step : UpgradeStepRow) (status : UpgradeStepStatus)
    (detail : String) : UpgradeStepRow :=
  { step with
    detail := { step.detail with progressDetail := some (deps.redactUrlSecrets detail) }
    errorMessage := if status = .failed ∨ status = .rolledBack then
      some (deps.redactUrlSecrets detail) else step.errorMessage }

/-- The row after a progress report, or `none` when it changes nothing. -/
def noteProgressRow (deps : UpgradeDeps) (input : ProgressReport) (now : ℤ) (step : UpgradeStepRow)
    (report : ReportKind) : Option UpgradeStepRow :=
  if input.stage = .failed ∧ input.errorCode = some updateInProgressErrorCode then
    if report = .current then some (markInProgressRefused step input.at_) else none
  else if (input.stage = .failed ∨ input.stage = .rolledBack) ∧
      priorFailureApplies step report = false then none
  else if input.stage = .failed ∧ isRestartFailure step input.errorCode = true then
    some (holdForReconnect deps step now input.detail input.restart)
  else
    let status := stepStatusForProgressStage input.stage
    -- an earlier stage never pulls a step back from a later one
    if stageRank status < stageRank step.status then none
    else
      let step :=
        { step with
          status := status
          lastStageAt := some input.at_
          errorCode := nonEmpty input.errorCode <|> step.errorCode }
      match nonEmpty input.detail with
      | some detail => some (recordProgressDetail deps step status detail)
      | none => some step

def isRollbackOutcome (step : UpgradeStepRow) (errorCode : Option String) : Bool :=
  decide (step.status = .rolledBack ∨ errorCode = some "rolled_back" ∨
    errorCode = some "update_rollback")

def applyOutcome (deps : UpgradeDeps) (step : UpgradeStepRow) (input : OutcomeReport) :
    UpgradeStepRow :=
  let message := (nonEmpty input.error).map deps.redactUrlSecrets
  if input.ok then
    { step with
      lastStageAt := some input.at_
      status := if step.plan.unit = .instance_ then .done else step.status }
  else if isRollbackOutcome step input.errorCode then
    { step with
      status := .rolledBack
      errorCode := input.errorCode <|> step.errorCode <|> some "rolled_back"
      errorMessage := message <|> step.errorMessage
      lastStageAt := some input.at_ }
  else
    { step with
      status := .failed
      errorCode := input.errorCode <|> some "update_failed"
      errorMessage := message
      lastStageAt := some input.at_ }

/-- The row after a result report, or `none` when it changes nothing. -/
def noteOutcomeRow (deps : UpgradeDeps) (input : OutcomeReport) (now : ℤ) (step : UpgradeStepRow)
    (report : ReportKind) : Option UpgradeStepRow :=
  if input.ok = false ∧ input.errorCode = some updateInProgressErrorCode then
    if report = .current then some (markInProgressRefused step input.at_) else none
  else if input.ok = false ∧ priorFailureApplies step report = false then none
  else if input.ok = false ∧ isRestartFailure step input.errorCode = true then
    some (holdForReconnect deps step now input.error none)
  else some (applyOutcome deps step input)

/-! ## How a row moves -/

/-- A step that may be claimed for a dispatch. -/
def IsDue (status : UpgradeStepStatus) : Prop :=
  status = .pending ∨ status = .waiting ∨ status = .rolledBack

/-- What may come after the restart of a control plane. -/
def AfterRestart (status : UpgradeStepStatus) : Prop :=
  status = .restarting ∨ status = .verifying ∨ status = .done ∨ status = .failed ∨
    status = .needsAttention

/-- **How a row that was read with a status is written**, by a tick or by a report: it was not
settled, it is claimed for a dispatch only when it is due, and a restarted control plane is not sent
back. -/
structure StepMove (status : UpgradeStepStatus) (row : UpgradeStepRow) : Prop where
  unsettled : isSettledStepStatus status = false
  due : row.status = .dispatched → status = .dispatched ∨ IsDue status
  verdict : row.plan.unit = .instance_ → status = .restarting ∨ status = .verifying →
    AfterRestart row.status ∨ row.status = .rolledBack

theorem IsDue.unsettled {status : UpgradeStepStatus} (h : IsDue status) :
    isSettledStepStatus status = false := by
  obtain rfl | rfl | rfl := h <;> rfl

theorem stepMove_of_settled {status : UpgradeStepStatus} {row : UpgradeStepRow}
    (hopen : isSettledStepStatus status = false) (hsettled : isSettledStepStatus row.status = true)
    (hskipped : row.status ≠ .skipped ∨ status = .waiting) : StepMove status row where
  unsettled := hopen
  due h := by
    rw [h] at hsettled
    cases hsettled
  verdict _ hstatus := by
    have hne : row.status ≠ .skipped := hskipped.resolve_right fun h => by
      subst h
      obtain h | h := hstatus <;> cases h
    left
    revert hsettled hne
    rw [AfterRestart]
    cases row.status <;> simp [isSettledStepStatus]

theorem stepMove_claimRow {step : UpgradeStepRow} (h : IsDue step.status) (requestId : String)
    (now : ℤ) : StepMove step.status (claimRow step requestId now) where
  unsettled := h.unsettled
  due _ := .inr h
  verdict _ hstatus := by
    obtain h | h | h := h <;> rw [h] at hstatus <;> obtain hstatus | hstatus := hstatus <;> cases hstatus

theorem stepMove_dispatchFailedRow (step : UpgradeStepRow) (error : String) (now now' : ℤ) :
    StepMove .dispatched (dispatchFailedRow step error now now') where
  unsettled := rfl
  due _ := .inl rfl
  verdict _ hstatus := by obtain h | h := hstatus <;> cases h

section

variable {deps : UpgradeDeps} {target : UpgradeTarget} {step : UpgradeStepRow}
  {fact : Option FleetServerFact} {now : ℤ}

variable {row : UpgradeStepRow}

theorem stepMove_of_notAwaiting (hopen : isSettledStepStatus step.status = false)
    (hverdict : isAwaitingVerdict (stepView step) = false) (hplan : row.plan = step.plan)
    (hrow : row.status ≠ .dispatched) : StepMove step.status row where
  unsettled := hopen
  due h := absurd h hrow
  verdict hunit hstatus := by
    rw [hplan] at hunit
    exact absurd (decide_eq_true (⟨hunit, hstatus⟩ : _ ∧ _)) (Bool.eq_false_iff.1 hverdict)

theorem stepMove_actOn {cfg : StepConfig} {action : StepAction}
    (hopen : isSettledStepStatus step.status = false) (h : action.Needs (stepView step) cfg)
    (hrow : actOn deps target step fact now action = .save row) : StepMove step.status row := by
  cases action with
  | none => cases hrow
  | done =>
    cases hrow
    exact stepMove_of_settled hopen rfl (.inl (by simp [markStepDone]))
  | restartFailed reason =>
    cases hrow
    exact stepMove_of_settled hopen rfl (.inl (by simp [markRestartFailed]))
  | waitOffline =>
    cases hrow
    exact stepMove_of_notAwaiting hopen h.1 rfl (by simp)
  | skipOffline =>
    cases hrow
    exact stepMove_of_settled hopen rfl (.inr h)
  | needsAttention errorCode =>
    cases hrow
    exact stepMove_of_settled hopen rfl (.inl (by simp))
  | retry nextAttemptAt =>
    cases hrow
    exact stepMove_of_notAwaiting hopen h.1 rfl (by simp)
  | dispatch =>
    rw [actOn] at hrow
    split at hrow
    · cases hrow
      exact stepMove_of_settled hopen rfl (.inl (by simp))
    · cases hrow

theorem isDue_of_actOn {cfg : StepConfig} {action : StepAction}
    (h : action.Needs (stepView step) cfg) (hrow : actOn deps target step fact now action = .dispatch) :
    IsDue step.status := by
  cases action with
  | dispatch => exact h.imp_right fun h => h.imp_right fun h => h.1
  | none => cases hrow
  | done => cases hrow
  | restartFailed reason => cases hrow
  | waitOffline => cases hrow
  | skipOffline => cases hrow
  | needsAttention errorCode => cases hrow
  | retry nextAttemptAt => cases hrow

section

variable (hopen : isSettledStepStatus step.status = false)
include hopen

theorem stepMove_same (hrow : row.status = step.status) : StepMove step.status row where
  unsettled := hopen
  due h := .inl (hrow ▸ h)
  verdict _ hstatus := .inl (hrow ▸ hstatus.imp_right .inl)

theorem stepMove_of_rank
    (hrow : row.status ≠ .dispatched) (hrank : stageRank step.status ≤ stageRank row.status) :
    StepMove step.status row where
  unsettled := hopen
  due h := absurd h hrow
  verdict _ hstatus := by
    have hfour : 4 ≤ stageRank row.status := by
      refine le_trans ?_ hrank
      obtain h | h := hstatus <;> rw [h] <;> simp [stageRank]
    revert hfour
    rw [AfterRestart]
    cases row.status <;> simp [stageRank]

theorem stepMove_holdForReconnect {message : Option String} {restart : Option UpdateRestartReport} :
    StepMove step.status (holdForReconnect deps step now message restart) where
  unsettled := hopen
  due h := by cases h
  verdict _ _ := .inl (.inl rfl)

theorem stepMove_noteProgressRow {input : ProgressReport} {report : ReportKind}
    (hrow : noteProgressRow deps input now step report = some row) : StepMove step.status row := by
  unfold noteProgressRow at hrow
  dsimp only at hrow
  split_ifs at hrow with _ _ _ hhold hrank
  · cases hrow
    exact stepMove_same hopen rfl
  · cases hrow
    exact stepMove_holdForReconnect hopen
  · have hstatus : row.status = stepStatusForProgressStage input.stage := by
      split at hrow
      · cases hrow
        rfl
      · cases hrow
        rfl
    refine stepMove_of_rank hopen ?_ (hstatus ▸ not_lt.1 hrank)
    rw [hstatus]
    cases input.stage <;> simp [stepStatusForProgressStage]

theorem stepMove_noteOutcomeRow {input : OutcomeReport} {report : ReportKind}
    (hrow : noteOutcomeRow deps input now step report = some row) : StepMove step.status row := by
  have hend : ∀ {row : UpgradeStepRow}, row.status = .rolledBack ∨ row.status = .failed ∨
      row.status = .done → StepMove step.status row := by
    intro row h
    refine stepMove_of_rank hopen ?_ ?_
    · obtain h | h | h := h <;> rw [h] <;> simp
    · have hsix : stageRank row.status = 6 := by obtain h | h | h := h <;> rw [h] <;> rfl
      rw [hsix]
      cases step.status <;> simp [stageRank]
  rw [noteOutcomeRow] at hrow
  split_ifs at hrow
  · cases hrow
    exact stepMove_same hopen rfl
  · cases hrow
    exact stepMove_holdForReconnect hopen
  · cases hrow
    rw [applyOutcome]
    split_ifs with _ hunit
    · exact hend (.inr (.inr rfl))
    · exact stepMove_same hopen rfl
    · exact hend (.inl rfl)
    · exact hend (.inr (.inl rfl))

end

end

end TurboPanel.Upgrades
