import Mathlib.Data.List.Basic
import Mathlib.Tactic

/-!
# The state machine of an upgrade step

From the row of a step, what is known of its server and the clock, `planStepAction` decides the next
action. Times are milliseconds. A time that is kept as text may not parse (`Stamp`).

What each action needs is said once (`planStepAction_needs`): only a step that is due, or was rolled
back once, is dispatched; a restarted control plane is neither sent back to wait nor tried again; a
stalled install is tried again only within its attempts.
-/

namespace TurboPanel.Upgrades

/-! ## Vocabulary -/

inductive UpgradePhase where
  | colocatedDaemon
  | controlPlane
  | fleet
  deriving DecidableEq

inductive UpgradeStepUnit where
  | daemon
  | instance_
  deriving DecidableEq

inductive UpgradeStepStatus where
  | pending
  | waiting
  | dispatched
  | preparing
  | downloading
  | installing
  | restarting
  | verifying
  | done
  | failed
  | rolledBack
  | needsAttention
  | skipped
  deriving DecidableEq

/-- Statuses that are settled: the tick leaves them alone. -/
def isSettledStepStatus : UpgradeStepStatus → Bool
  | .done | .skipped | .failed | .needsAttention => true
  | _ => false

/-- Stages that mean an install is in flight on the daemon. -/
def isInFlightStepStatus : UpgradeStepStatus → Bool
  | .dispatched | .preparing | .downloading | .installing | .restarting | .verifying => true
  | _ => false

/-- A time that is kept as text: `none` when it does not parse. -/
abbrev Stamp := Option ℤ

/-! ## Limits -/

/-- Total dispatches allowed for a step whose install stalls. -/
def upgradeStepMaxAttempts : ℕ := 3

/-- Total dispatches allowed for a step that keeps rolling back. -/
def upgradeRollbackMaxAttempts : ℕ := 2

def upgradeStepTimeoutMs : ℤ := 15 * 60 * 1000

def upgradeDispatchAckTimeoutMs : ℤ := 5 * 60 * 1000

def upgradeVerifyTimeoutMs : ℤ := 20 * 60 * 1000

def upgradeBackoffBaseMs : ℤ := 60 * 1000

def upgradeBackoffMaxMs : ℤ := 30 * 60 * 1000

def upgradeOfflineDeadlineMs : ℤ := 15 * 60 * 1000

def upgradeRestartReconnectMs : ℤ := 10 * 60 * 1000

/-! ## Views -/

structure StepView where
  status : UpgradeStepStatus
  phase : UpgradePhase
  unit : UpgradeStepUnit
  attempts : ℕ
  nextAttemptAt : Option ℤ
  lastStageAt : Option ℤ
  /-- The commit this step installs. -/
  toCommit : Option String
  /-- The daemon refused the current dispatch because it is busy with another install. -/
  inProgressRefused : Bool
  /-- The commit the host ran before the step. -/
  fromCommit : Option String
  /-- When the host reported a failed daemon restart. -/
  restartReportedAt : Option Stamp

structure StepFacts where
  serverConnected : Bool
  /-- The commit the host reports running now. -/
  currentCommit : Option String

structure StepConfig where
  now : ℤ
  maxAttempts : ℕ := upgradeStepMaxAttempts
  rollbackMaxAttempts : ℕ := upgradeRollbackMaxAttempts
  stepTimeoutMs : ℤ := upgradeStepTimeoutMs
  dispatchAckTimeoutMs : ℤ := upgradeDispatchAckTimeoutMs
  verifyTimeoutMs : ℤ := upgradeVerifyTimeoutMs
  backoffBaseMs : ℤ := upgradeBackoffBaseMs
  backoffMaxMs : ℤ := upgradeBackoffMaxMs
  offlineDeadlineMs : ℤ := upgradeOfflineDeadlineMs
  restartReconnectMs : ℤ := upgradeRestartReconnectMs

/-- Why a held restart ended as a failure. -/
inductive RestartFailureReason where
  | neverBack
  | oldBuild
  | otherBuild
  deriving DecidableEq

/-- The error codes that the control plane sets itself. -/
inductive UpgradeStepErrorCode where
  | rolledBack
  | serverOffline
  | stepTimeout
  | verifyTimeout
  | dispatchFailed
  | managedUpgradeRequired
  | downgradeRefused
  | updatesPaused
  | retryLater
  deriving DecidableEq

def UpgradeStepErrorCode.code : UpgradeStepErrorCode → String
  | .rolledBack => "rolled_back"
  | .serverOffline => "server_offline"
  | .stepTimeout => "step_timeout"
  | .verifyTimeout => "verify_timeout"
  | .dispatchFailed => "dispatch_failed"
  | .managedUpgradeRequired => "managed_upgrade_required"
  | .downgradeRefused => "downgrade_refused"
  | .updatesPaused => "updates_paused"
  | .retryLater => "retry_later"

inductive StepAction where
  | none
  | done
  | dispatch
  | waitOffline
  | skipOffline
  | retry (nextAttemptAt : ℤ)
  | needsAttention (errorCode : UpgradeStepErrorCode)
  | restartFailed (reason : RestartFailureReason)
  deriving DecidableEq

/-! ## Decisions -/

/-- Exponential backoff for the n-th retry, capped. -/
def computeBackoffMs (attempt : ℕ) (baseMs maxMs : ℤ) : ℤ :=
  min (baseMs * 2 ^ (attempt - 1)) maxMs

def backoffAt (cfg : StepConfig) (attempt : ℕ) : ℤ :=
  cfg.now + computeBackoffMs attempt cfg.backoffBaseMs cfg.backoffMaxMs

def reachedTarget (step : StepView) (facts : StepFacts) : Bool :=
  match step.toCommit with
  | some want => decide (want.length > 0) && decide (facts.currentCommit = some want)
  | none => false

def backoffElapsed (step : StepView) (cfg : StepConfig) : Bool :=
  match step.nextAttemptAt with
  | some due => decide (cfg.now ≥ due)
  | none => true

/-- More than the window has passed since the last stage, if there was one. -/
def quietFor (step : StepView) (cfg : StepConfig) (window : ℤ) : Bool :=
  match step.lastStageAt with
  | some last => decide (cfg.now - last > window)
  | none => false

def isStalled (step : StepView) (cfg : StepConfig) : Bool :=
  quietFor step cfg
    (if step.status = .dispatched ∧ step.inProgressRefused = false then cfg.dispatchAckTimeoutMs
      else cfg.stepTimeoutMs)

def offlineTooLong (step : StepView) (cfg : StepConfig) : Bool :=
  if step.status = .waiting then quietFor step cfg cfg.offlineDeadlineMs else false

def handleRolledBack (step : StepView) (facts : StepFacts) (cfg : StepConfig) : StepAction :=
  if step.attempts ≥ cfg.rollbackMaxAttempts then .needsAttention .rolledBack
  else if facts.serverConnected = false then .waitOffline
  else .dispatch

def handleDue (step : StepView) (facts : StepFacts) (cfg : StepConfig) : StepAction :=
  if facts.serverConnected = false then
    if offlineTooLong step cfg then
      if step.phase = .fleet ∧ step.attempts = 0 then .skipOffline else .needsAttention .serverOffline
    else .waitOffline
  else if backoffElapsed step cfg = false then .none
  else .dispatch

/-- A control-plane step whose new build already restarted and is under the daemon's check. -/
def isAwaitingVerdict (step : StepView) : Bool :=
  decide (step.unit = .instance_ ∧ (step.status = .restarting ∨ step.status = .verifying))

def verifyWindowPassed (step : StepView) (cfg : StepConfig) : Bool :=
  quietFor step cfg cfg.verifyTimeoutMs

/-- A step whose host reported a failed restart: wait out the window, then say why. -/
def handleRestartHeld (step : StepView) (facts : StepFacts) (cfg : StepConfig) : StepAction :=
  let reportedAt := step.restartReportedAt.join <|> step.lastStageAt
  if reportedAt.any fun reported => decide (cfg.now - reported ≤ cfg.restartReconnectMs) then .none
  else if facts.serverConnected = false then .restartFailed .neverBack
  else if facts.currentCommit.isSome ∧ facts.currentCommit = step.fromCommit then
    .restartFailed .oldBuild
  else .restartFailed .otherBuild

def handleInFlight (step : StepView) (facts : StepFacts) (cfg : StepConfig) : StepAction :=
  if isAwaitingVerdict step then
    if verifyWindowPassed step cfg then .needsAttention .verifyTimeout else .none
  else if facts.serverConnected = false then .waitOffline
  else if isStalled step cfg = false then .none
  else if step.inProgressRefused = true ∨ step.attempts ≥ cfg.maxAttempts then
    .needsAttention .stepTimeout
  else .retry (backoffAt cfg step.attempts)

/-- The next action for one step. -/
def planStepAction (step : StepView) (facts : StepFacts) (cfg : StepConfig) : StepAction :=
  if isSettledStepStatus step.status then .none
  else if reachedTarget step facts then .done
  else if step.restartReportedAt.isSome ∧ isInFlightStepStatus step.status = true then
    handleRestartHeld step facts cfg
  else if step.status = .rolledBack then handleRolledBack step facts cfg
  else if step.status = .pending ∨ step.status = .waiting then handleDue step facts cfg
  else handleInFlight step facts cfg

/-! ## What an action needs -/

/-- What holds of a step for which the action is planned. -/
def StepAction.Needs (step : StepView) (cfg : StepConfig) : StepAction → Prop
  | .none => True
  | .done => isSettledStepStatus step.status = false
  | .dispatch =>
    step.status = .pending ∨ step.status = .waiting ∨
      step.status = .rolledBack ∧ step.attempts < cfg.rollbackMaxAttempts
  | .waitOffline =>
    isAwaitingVerdict step = false ∧ (isInFlightStepStatus step.status = true ∨
      step.status = .pending ∨ step.status = .waiting ∨
        step.status = .rolledBack ∧ step.attempts < cfg.rollbackMaxAttempts)
  | .skipOffline => step.status = .waiting
  | .retry _ =>
    isAwaitingVerdict step = false ∧ isInFlightStepStatus step.status = true ∧
      step.attempts < cfg.maxAttempts
  | .needsAttention _ => isSettledStepStatus step.status = false
  | .restartFailed _ => isInFlightStepStatus step.status = true

variable (step : StepView) (facts : StepFacts) (cfg : StepConfig)

theorem handleRestartHeld_needs (h : isInFlightStepStatus step.status = true) :
    (handleRestartHeld step facts cfg).Needs step cfg := by
  unfold handleRestartHeld
  dsimp only
  split_ifs
  · trivial
  · exact h
  · exact h
  · exact h

theorem handleRolledBack_needs (h : step.status = .rolledBack) :
    (handleRolledBack step facts cfg).Needs step cfg := by
  have hverdict : isAwaitingVerdict step = false := by simp [isAwaitingVerdict, h]
  unfold handleRolledBack
  split_ifs with hattempts
  · exact congrArg isSettledStepStatus h
  · exact ⟨hverdict, .inr (.inr (.inr ⟨h, not_le.1 hattempts⟩))⟩
  · exact .inr (.inr ⟨h, not_le.1 hattempts⟩)

theorem handleDue_needs (h : step.status = .pending ∨ step.status = .waiting) :
    (handleDue step facts cfg).Needs step cfg := by
  have hverdict : isAwaitingVerdict step = false := by
    obtain h | h := h
    · simp [isAwaitingVerdict, h]
    · simp [isAwaitingVerdict, h]
  unfold handleDue
  split_ifs with _ hlong
  · rw [offlineTooLong] at hlong
    split_ifs at hlong with hwaiting
    exact hwaiting
  · obtain h | h := h
    · exact congrArg isSettledStepStatus h
    · exact congrArg isSettledStepStatus h
  · exact ⟨hverdict, .inr (h.imp_right .inl)⟩
  · trivial
  · exact h.imp_right .inl

theorem handleInFlight_needs (h : isInFlightStepStatus step.status = true) :
    (handleInFlight step facts cfg).Needs step cfg := by
  have hopen : isSettledStepStatus step.status = false := by
    revert h
    cases step.status <;> simp [isInFlightStepStatus, isSettledStepStatus]
  unfold handleInFlight
  split_ifs with hverdict _ _ _ hspent
  · exact hopen
  · trivial
  · exact ⟨Bool.eq_false_iff.2 hverdict, .inl h⟩
  · trivial
  · exact hopen
  · exact ⟨Bool.eq_false_iff.2 hverdict, h, not_le.1 (not_or.1 hspent).2⟩

/-- **What each planned action needs.** -/
theorem planStepAction_needs :
    (planStepAction step facts cfg).Needs step cfg := by
  unfold planStepAction
  split_ifs with hsettled _ hheld hrolled hdue
  · trivial
  · exact Bool.eq_false_iff.2 hsettled
  · exact handleRestartHeld_needs step facts cfg hheld.2
  · exact handleRolledBack_needs step facts cfg hrolled
  · exact handleDue_needs step facts cfg hdue
  · refine handleInFlight_needs step facts cfg ?_
    revert hsettled hrolled hdue
    cases step.status <;> simp [isSettledStepStatus, isInFlightStepStatus]

theorem serverConnected_of_waitOffline {step : StepView} {facts : StepFacts} {cfg : StepConfig}
    (h : planStepAction step facts cfg = .waitOffline) : facts.serverConnected = false := by
  by_contra hconnected
  have hheld : handleRestartHeld step facts cfg ≠ .waitOffline := by
    unfold handleRestartHeld
    dsimp only
    split_ifs <;> nofun
  have hrolledBack : handleRolledBack step facts cfg ≠ .waitOffline := by
    rw [handleRolledBack, if_neg hconnected]
    split_ifs <;> nofun
  have hdue : handleDue step facts cfg ≠ .waitOffline := by
    rw [handleDue, if_neg hconnected]
    split_ifs <;> nofun
  have hinFlight : handleInFlight step facts cfg ≠ .waitOffline := by
    rw [handleInFlight, if_neg hconnected]
    split_ifs <;> nofun
  unfold planStepAction at h
  split_ifs at h
  · exact hheld h
  · exact hrolledBack h
  · exact hdue h
  · exact hinFlight h

end TurboPanel.Upgrades
