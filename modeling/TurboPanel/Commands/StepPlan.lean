import Mathlib.Tactic

/-!
# The step plan of a command

The daemon sends the whole step plan with every frame, and the row of the command keeps the latest
one, with a mark that the panel adds while it has not heard from the server. When the command ends,
the steps that the daemon never got to report are settled by the outcome.
-/

namespace TurboPanel.CommandRecords

/-! ## Statuses -/

inductive CommandStatus where
  | queued
  | dispatching
  | sent
  | acked
  | running
  | succeeded
  | failed
  | timedOut
  | cancelled
  deriving DecidableEq

/-- `TERMINAL_COMMAND_STATUSES`. -/
def CommandStatus.terminal : CommandStatus → Bool
  | .succeeded => true
  | .failed => true
  | .timedOut => true
  | .cancelled => true
  | _ => false

/-! ## Plans -/

/-- A time as the text that carries it, and what the text reads as, in milliseconds. -/
structure Stamp where
  text : String
  time : ℤ
  deriving DecidableEq

inductive CommandProgressStepState where
  | pending
  | running
  | done
  | failed
  | skipped
  deriving DecidableEq

structure CommandProgressStep where
  id : String
  label : String
  state : CommandProgressStepState
  startedAt : Option String
  finishedAt : Option String
  detail : Option String
  deriving DecidableEq

/-- When the server began to run the command: not reported, reported as waiting, or a time. -/
inductive RunningSince where
  | absent
  | waiting
  | since (ms : ℤ)
  deriving DecidableEq

/-- A frame of the daemon, as it is once it was validated. -/
structure CommandProgress where
  steps : List CommandProgressStep
  current : Option String
  updatedAt : Stamp
  runningSince : RunningSince
  deriving DecidableEq

/-- The plan on the row: what the daemon sent, and when the server was last heard from while it is
quiet. -/
structure StoredCommandProgress extends CommandProgress where
  contactLostAt : Option ℤ
  deriving DecidableEq

/-! ## Settling -/

def settledState (state : CommandProgressStepState) (status : CommandStatus) :
    CommandProgressStepState :=
  if state ≠ .running ∧ state ≠ .pending then state
  else if status = .succeeded then .done
  else if state = .pending ∨ status = .cancelled then .skipped
  else .failed

def settleStep (status : CommandStatus) (at_ : Stamp) (step : CommandProgressStep) :
    CommandProgressStep :=
  if settledState step.state status = step.state then step
  else
    { step with
      state := settledState step.state status
      finishedAt :=
        if step.state = .running then step.finishedAt <|> some at_.text else step.finishedAt }

/-- The plan of a command that reached a status; `none` when nothing changes. -/
def finalizeCommandProgress (progress : StoredCommandProgress) (status : CommandStatus) (at_ : Stamp) :
    Option StoredCommandProgress :=
  if status.terminal = false then none
  else
    let steps := progress.steps.map (settleStep status at_)
    if progress.current = none ∧ progress.contactLostAt = none ∧ steps = progress.steps then none
    else
      some
        { progress with
          steps := steps
          current := none
          updatedAt := at_
          contactLostAt := none }

/-! ## Late notes -/

/-- The note that a late frame has for a step: that of a step which it reports as finished. -/
def lateNote (late : List CommandProgressStep) (step : CommandProgressStep) : CommandProgressStep :=
  match late.find? fun candidate => candidate.id = step.id with
  | none => step
  | some item =>
    if item.detail = none ∨ item.detail = step.detail then step
    else if item.state = .done ∨ item.state = .failed ∨ item.state = .skipped then
      { step with detail := item.detail }
    else step

/-- The stored steps with the notes of the frame, or `none` when it adds none. -/
def withLateNotes (stored late : List CommandProgressStep) : Option (List CommandProgressStep) :=
  if stored.map (lateNote late) = stored then none else some (stored.map (lateNote late))

/-- `LATE_NOTE_ATTEMPTS`. -/
def lateNoteAttempts : ℕ := 3

/-! ## The run clock -/

/-- `DEPLOY_RUN_SILENCE_MS`. -/
def deployRunSilenceMs : ℤ := 5 * 60000

/-- The run clock after a gap in the reports of the server, or `none` when there is nothing to move.
-/
def shiftedRunningSince (runningSince : RunningSince) (lastHeardMs nowMs : ℤ) : Option ℤ :=
  match runningSince with
  | .since ms =>
    if nowMs - lastHeardMs ≤ deployRunSilenceMs then none
    else some (min (ms + (nowMs - lastHeardMs)) nowMs)
  | _ => none

/-- The plan when the server says that it still carries the command. -/
def aliveProgress (stored : StoredCommandProgress) (lastHeardMs nowMs : ℤ) : StoredCommandProgress :=
  match shiftedRunningSince stored.runningSince lastHeardMs nowMs with
  | none => { stored with contactLostAt := none }
  | some ms => { stored with contactLostAt := none, runningSince := .since ms }

/-- The run clock of a frame is that of the control plane: the frame says only whether the command
runs. -/
def receivedRunningSince (progress : CommandProgress) (before : Option RunningSince)
    (lastHeardMs nowMs : ℤ) : RunningSince :=
  match progress.runningSince, before with
  | .since _, some (.since ms) => .since ((shiftedRunningSince (.since ms) lastHeardMs nowMs).getD ms)
  | .since _, _ => .since nowMs
  | reported, _ => reported

/-- The plan of a command that was given up on, put right for a success. -/
def succeededProgress (stored : StoredCommandProgress) : StoredCommandProgress :=
  { stored with
    steps := stored.steps.map fun step =>
      if step.state = .failed ∨ step.state = .skipped then { step with state := .done } else step }

/-- What the frames say: the steps, and the time of the frame. -/
def StoredCommandProgress.frame (stored : StoredCommandProgress) : List CommandProgressStep × Stamp :=
  (stored.steps, stored.updatedAt)

@[simp] theorem aliveProgress_frame (stored : StoredCommandProgress) (lastHeardMs nowMs : ℤ) :
    (aliveProgress stored lastHeardMs nowMs).frame = stored.frame := by
  unfold aliveProgress
  split <;> rfl

end TurboPanel.CommandRecords
