import TurboPanel.Upgrades.Store

/-!
# The upgrade coordinator

Each call of the coordinator is a program over the store: its reads and writes, one after the other,
with what it decides from the rows it read. A row that a call read is a copy: a call changes its
copies and saves them, and other calls may have changed the rows since.
-/

namespace TurboPanel.Upgrades

open Interleaving
open Interleaving.Prog (call foldEach)

/-- A program of the coordinator. -/
abbrev Proc := Prog Op Ans

abbrev ask (o : Op) : Proc (Ans o) := call o

/-! ## Runs -/

/-- The phase the tick should work on: the first one with an open step. -/
def earliestOpenPhase (steps : List UpgradeStepRow) : Option UpgradePhase :=
  let opened := steps.filter fun step => !isSettledStepStatus step.status
  if opened.any fun step => decide (step.plan.phase = .colocatedDaemon) then some .colocatedDaemon
  else if opened.any fun step => decide (step.plan.phase = .controlPlane) then some .controlPlane
  else if opened.any fun step => decide (step.plan.phase = .fleet) then some .fleet
  else none

def finalRunStatusFromSummary (summary : StepSummary) : UpgradeStatus :=
  if summary.failed + summary.needsAttention = 0 then .succeeded
  else if summary.done + summary.skipped = 0 then .failed
  else .partiallyFailed

/-- The run `error` that a pause leaves on the run it stopped. -/
def pausedRunError : String := "updates_paused"

def finishedRunStatus (summary : StepSummary) (error : Option String) : UpgradeStatus :=
  if error = some pausedRunError then .cancelled else finalRunStatusFromSummary summary

def platformFailureError : PlatformPhase → String
  | .colocatedDaemon => "colocated_daemon_failed"
  | .controlPlane => "control_plane_failed"

/-- Self-hosted, the fleet waits for the co-located daemon and the control plane. -/
def fleetGateOpen (deps : UpgradeDeps) (fleet : List FleetServerFact) (target : UpgradeTarget) : Bool :=
  let colocatedCommit := (fleet.find? FleetServerFact.colocated).bind FleetServerFact.commit
  if deps.development then true
  else if deps.runtime = .workers then true
  else if isOnTarget colocatedCommit target.daemon = false then false
  else if deps.channelHasInstancePackage && !isOnTarget deps.instanceCommit target.instance_ then false
  else true

def lowerBatch (current : Option ℕ) (candidate : ℕ) : Option ℕ :=
  some (current.elim candidate (min candidate))

/-- The batch to dispatch: that of an install in flight, else of a connected server, else the first.
-/
def activeBatchIndex (steps : List (ℕ × UpgradeStepStatus × Bool)) : Option ℕ :=
  let opened := steps.filter fun step => !isSettledStepStatus step.2.1
  let lowest := fun rows : List (ℕ × UpgradeStepStatus × Bool) =>
    rows.foldl (fun acc step => lowerBatch acc step.1) none
  lowest (opened.filter fun step => isInFlightStepStatus step.2.1) <|>
    lowest (opened.filter fun step => step.2.2) <|> lowest opened

def factOf (fleet : List FleetServerFact) (step : UpgradeStepRow) : Option FleetServerFact :=
  fleet.find? fun fact => decide (fact.serverId = step.plan.serverId)

def connectedServerIds (fleet : List FleetServerFact) : List String :=
  (fleet.filter FleetServerFact.connected).map FleetServerFact.serverId

/-- Every open step is one of the fleet that waits, never dispatched, for a host that is not
connected. -/
def runWaitsOnlyOnOfflineServers (steps : List UpgradeStepRow) (connectedIds : List String) : Bool :=
  let opened := steps.filter fun step => !isSettledStepStatus step.status
  (opened.all fun step => decide (step.plan.phase = .fleet ∧ step.status = .waiting ∧
    step.attempts = 0 ∧ step.plan.serverId ∉ connectedIds)) && !opened.isEmpty

def runBlocksStart (steps : List UpgradeStepRow) (fleet : List FleetServerFact) : Bool :=
  !runWaitsOnlyOnOfflineServers steps (connectedServerIds fleet)

def workersDispatchBudget : ℕ := 50

def fleetCellProbeBudget : ℕ := workersDispatchBudget + 1

def capWorkersDispatch (runtime : UpgradeRuntime) (items : List UpgradeStepRow) : List UpgradeStepRow :=
  if runtime = .workers then items.take workersDispatchBudget else items

/-- The servers whose cells may be probed: the co-located host, then those of the steps. -/
def fleetCellProbeIds (colocatedServerId : Option String) (candidateIds : List String) : List String :=
  candidateIds.foldl (fun ids id =>
      if ids.length ≥ fleetCellProbeBudget ∨ id.length = 0 ∨ id ∈ ids then ids else ids ++ [id])
    (nonEmpty colocatedServerId).toList

def overlayProbes (fleet : List FleetServerFact) (probes : List (String × FleetProbe)) :
    List FleetServerFact :=
  fleet.map fun fact =>
    match probes.lookup fact.serverId with
    | some probed =>
      { fact with connected := probed.connected, commit := probed.commit <|> fact.commit }
    | none => fact

/-! ## Steps -/

def envelopeFor (run : UpgradeRunRow) (step : UpgradeStepRow) (fact : Option FleetServerFact)
    (requestId : String) : UpdateEnvelope :=
  match step.plan.unit with
  | .instance_ =>
    let pin := unitTarget run.target .instance_
    { unit := .instance_
      requestId := requestId
      upgradeId := some run.id
      manifestUrl := nonEmpty (pin.bind UpgradeUnitTarget.manifestUrl)
      uiManifestUrl := nonEmpty (run.target.ui.bind UpgradeUnitTarget.manifestUrl)
      targetVersion := nonEmpty (pin.bind UpgradeUnitTarget.version)
      targetCommit := nonEmpty (pin.bind UpgradeUnitTarget.commit) }
  | .daemon =>
    let pin := unitTarget run.target .daemon
    let managed := admitsFeature fact
    { unit := .daemon
      requestId := requestId
      upgradeId := if managed then some run.id else none
      manifestUrl := if managed then nonEmpty (pin.bind UpgradeUnitTarget.manifestUrl) else none
      uiManifestUrl := none
      targetVersion := none
      targetCommit := if managed then nonEmpty (pin.bind UpgradeUnitTarget.commit) else none }

/-- Save a failed dispatch; only the step that was claimed is written. -/
def recordDispatchFailure (step : UpgradeStepRow) (error : String) : Proc UpgradeStepRow := do
  let now ← ask .clock
  let now' ← ask .clock
  let row := dispatchFailedRow step error now now'
  let _ ← ask (.saveStep row (some .dispatched))
  return row

/-- Claim the row first, and enqueue the command only if the claim applied. -/
def dispatchStep (run : UpgradeRunRow) (step : UpgradeStepRow) (fact : Option FleetServerFact) :
    Proc UpgradeStepRow := do
  let requestId ← ask .freshRequestId
  let now ← ask .clock
  let row := claimRow step requestId now
  let claimed ← ask (.saveStep row (some step.status))
  if claimed then
    let error ← ask (.enqueue step.plan (envelopeFor run step fact requestId))
    match error with
    | some error => recordDispatchFailure row error
    | none => return row
  else return row

/-- What came of the action of a step: the copy as it was changed, whether a row was written, and
whether the step is queued for a dispatch. -/
structure Applied where
  step : UpgradeStepRow
  written : Bool
  queued : Bool

def saveStepIfChanged (before row : UpgradeStepRow) : Proc Bool :=
  if stepPersistKey row = stepPersistKey before then return false
  else ask (.saveStep row (some before.status))

/-- Decide and apply the next action of a step. -/
def applyAction (deps : UpgradeDeps) (run : UpgradeRunRow) (step : UpgradeStepRow)
    (fact : Option FleetServerFact) : Proc Applied := do
  let now ← ask .clock
  let now' ← ask .clock
  match actOn deps run.target step fact now' (stepActionFor deps step fact now) with
  | .nothing => return ⟨step, false, false⟩
  | .dispatch => return ⟨step, false, true⟩
  | .save row => do
    let written ← saveStepIfChanged step row
    return ⟨row, written, false⟩

/-- The steps of a pass as they were changed, and whether any was written or dispatched. -/
structure Pass where
  applied : List Applied := []
  dispatched : List UpgradeStepRow := []

def Pass.steps (pass : Pass) : List UpgradeStepRow :=
  pass.applied.map fun applied =>
    (pass.dispatched.find? fun step => decide (step.plan = applied.step.plan)).getD applied.step

def Pass.dirty (pass : Pass) : Bool :=
  (pass.applied.any Applied.written) || !pass.dispatched.isEmpty

def Pass.queue (pass : Pass) : List UpgradeStepRow :=
  (pass.applied.filter Applied.queued).map Applied.step

/-- Decide and apply each step's next action, then dispatch what was queued. -/
def processSteps (deps : UpgradeDeps) (run : UpgradeRunRow) (steps : List UpgradeStepRow)
    (fleetView : List FleetServerFact) : Proc Pass := do
  let pass ← foldEach (fun (pass : Pass) step => do
    let applied ← applyAction deps run step (factOf fleetView step)
    return { pass with applied := pass.applied ++ [applied] }) steps {}
  foldEach (fun (pass : Pass) step => do
    let row ← dispatchStep run step (factOf fleetView step)
    return { pass with dispatched := pass.dispatched ++ [row] })
    (capWorkersDispatch deps.runtime pass.queue) pass

/-- The stored facts with the live probe of the steps this pass may act on laid over them. -/
def fleetViewFor (deps : UpgradeDeps) (fleet : List FleetServerFact) (steps : List UpgradeStepRow) :
    Proc (List FleetServerFact) :=
  match fleetCellProbeIds deps.colocatedServerId (steps.map fun step => step.plan.serverId) with
  | [] => return fleet
  | ids => do
    let probes ← ask (.probes ids)
    return overlayProbes fleet probes

/-! ## Saving a run -/

def failRun (run : UpgradeRunRow) (phase : PlatformPhase) (counts : StepSummary) : Proc Unit := do
  let now ← ask .clock
  ask (.saveRun { run with
    status := .failed
    error := some (platformFailureError phase)
    finishedAt := some now
    counts := some counts
    phase := none })

def finishRun (run : UpgradeRunRow) (counts : StepSummary) : Proc Unit := do
  let now ← ask .clock
  ask (.saveRun { run with
    status := finishedRunStatus counts run.error
    finishedAt := some now
    counts := some counts
    phase := none })
  ask (.writeTickCursor none)

/-- Save the status, phase and counts of a run only when the tick changed one of them. -/
def saveRunIfChanged (run : UpgradeRunRow) (phase : Option UpgradePhase) (counts : StepSummary) :
    Proc Unit :=
  if run.status = .running ∧ run.phase = phase ∧ run.counts = some counts then return ()
  else ask (.saveRun { run with status := .running, phase := phase, counts := some counts })

/-- A pause: settle every step that was never sent and mark the run. The run as it is then. -/
def stopPausedRun (run : UpgradeRunRow) : Proc UpgradeRunRow := do
  let now ← ask .clock
  let settled ← ask (.skipUndispatchedSteps run.id now)
  if settled = 0 ∨ run.error = some pausedRunError then return run
  else do
    let run := { run with error := some pausedRunError }
    ask (.saveRun run)
    return run

/-! ## A tick -/

structure UpgradeTickWindow where
  steps : List UpgradeStepRow
  counts : StepSummary
  phase : Option UpgradePhase
  batchIndex : Option ℕ
  failedPlatformPhase : Option PlatformPhase
  allTerminal : Bool

/-- One page of open steps in the open phase and batch, with the totals of the run. -/
def tickWindow (runId : String) (cursor : Option TickCursor) : Proc UpgradeTickWindow := do
  let counts ← ask (.countSteps runId)
  let failedPlatformPhase ← ask (.failedPlatformPhase runId)
  let head ← ask (.openHead runId)
  match head with
  | none => return ⟨[], counts, none, none, failedPlatformPhase, true⟩
  | some (phase, batchIndex) => do
    let cursor := cursor.filter fun cursor =>
      decide (cursor.phase = phase ∧ cursor.batchIndex = batchIndex)
    let steps ← ask (.stepPage runId phase batchIndex (cursor.bind TickCursor.afterId))
    return ⟨steps, counts, some phase, some batchIndex, failedPlatformPhase, false⟩

/-- Remember where this window stopped; a short window starts the batch over. -/
def writeWindowCursor (run : UpgradeRunRow) (window : UpgradeTickWindow) : Proc Unit :=
  match window.phase, window.batchIndex with
  | some phase, some batchIndex =>
    let wrapped := decide (window.steps.length < UpgradeStore.upgradeTickStepBudget)
    let afterId := if wrapped then none else window.steps.getLast?.map fun step => step.plan.id
    ask (.writeTickCursor (some ⟨run.id, phase, batchIndex, afterId⟩))
  | _, _ => return ()

/-- A step the tick may act on: still open, and not one of the fleet behind a closed gate. -/
def isOpenInWindow (gateOpen : Bool) (step : UpgradeStepRow) : Bool :=
  !isSettledStepStatus step.status && (decide (step.plan.phase ≠ .fleet) || gateOpen)

/-- A platform step that this tick moved to failed ends the run, when the store says so too. -/
def endedByPlatformFailure (run : UpgradeRunRow) : Proc Bool := do
  let settled ← tickWindow run.id none
  match settled.failedPlatformPhase with
  | none => return false
  | some phase => do
    failRun run phase settled.counts
    ask (.writeTickCursor none)
    return true

/-- Only a pass that moved a platform step to failed looks at the store again. -/
def endedByPass (run : UpgradeRunRow) (pass : Pass) : Proc Bool :=
  if (failedPlatformPhase pass.steps).isSome then endedByPlatformFailure run else return false

/-- The end of a tick: the run is finished when no step is open, and saved otherwise. -/
def closeWindow (run : UpgradeRunRow) (window : UpgradeTickWindow) (counts : StepSummary) :
    Proc Unit :=
  if counts.total > 0 ∧ counts.inProgress = 0 then finishRun run counts
  else do
    saveRunIfChanged run window.phase counts
    writeWindowCursor run window

/-- The window's servers, and the co-located host that the gate reads. -/
def factIds (deps : UpgradeDeps) (window : UpgradeTickWindow) : List String :=
  let ids := window.steps.map fun step => step.plan.serverId
  match nonEmpty deps.colocatedServerId with
  | some id => if id ∈ ids then ids else ids ++ [id]
  | none => ids

/-- Apply the steps of a window, then save the run. -/
def advanceOpenWindow (deps : UpgradeDeps) (run : UpgradeRunRow) (window : UpgradeTickWindow) :
    Proc Unit := do
  let fleet ← ask (.facts (factIds deps window))
  let opened := window.steps.filter (isOpenInWindow (fleetGateOpen deps fleet run.target))
  let fleetView ← fleetViewFor deps fleet opened
  let pass ← processSteps deps run opened fleetView
  if pass.dirty then do
    let ended ← endedByPass run pass
    if ended then return ()
    else do
      let counts ← ask (.countSteps run.id)
      closeWindow run window counts
  else closeWindow run window window.counts

def advanceWindow (deps : UpgradeDeps) (run : UpgradeRunRow) : Proc Unit := do
  let cursor ← ask (.readTickCursor run.id)
  let window ← tickWindow run.id cursor
  match window.failedPlatformPhase with
  | some phase => do
    failRun run phase window.counts
    ask (.writeTickCursor none)
  | none =>
    if window.allTerminal then finishRun run window.counts
    else advanceOpenWindow deps run window

/-! ## A start -/

def stepInCurrentWave (currentPhase : Option UpgradePhase) (gateOpen : Bool) (batch : Option ℕ)
    (step : UpgradeStepRow) : Bool :=
  if isSettledStepStatus step.status then false
  else if step.plan.phase = .fleet ∧ gateOpen = false then false
  else if currentPhase.isSome ∧ some step.plan.phase ≠ currentPhase then false
  else if batch.isSome ∧ some step.plan.batchIndex ≠ batch ∧ step.plan.phase = .fleet then false
  else true

/-- The copies of a run's steps, with those that a pass changed. -/
def withPass (steps : List UpgradeStepRow) (pass : Pass) : List UpgradeStepRow :=
  steps.map fun step =>
    (pass.steps.find? fun changed => decide (changed.plan = step.plan)).getD step

/-- Save a run after its first pass, by the copies of its steps. -/
def closeAdvance (run : UpgradeRunRow) (steps : List UpgradeStepRow) : Proc Unit :=
  match failedPlatformPhase steps with
  | some phase => failRun run phase (summarizeSteps steps)
  | none =>
    if steps.all fun step => isSettledStepStatus step.status then do
      let now ← ask .clock
      ask (.saveRun { run with
        status := finalRunStatusFromSummary (summarizeSteps steps)
        finishedAt := some now
        counts := some (summarizeSteps steps)
        phase := none })
    else
      ask (.saveRun { run with
        status := .running
        phase := earliestOpenPhase steps
        counts := some (summarizeSteps steps) })

/-- The first pass over a run that was just inserted. -/
def advance (deps : UpgradeDeps) (run : UpgradeRunRow) (steps : List UpgradeStepRow)
    (fleet : List FleetServerFact) : Proc Unit := do
  let batch := activeBatchIndex (steps.map fun step =>
    (step.plan.batchIndex, step.status,
      if step.plan.phase = .fleet then (factOf fleet step).any FleetServerFact.connected else true))
  let wave := steps.filter
    (stepInCurrentWave (earliestOpenPhase steps) (fleetGateOpen deps fleet run.target) batch)
  let fleetView ← fleetViewFor deps fleet wave
  let pass ← processSteps deps run wave fleetView
  closeAdvance run (withPass steps pass)

/-- Skip a step that only waits for an offline host, after a look at its server; the copy as it is
then, and whether it was idle and the write was not lost. -/
def settleOffline (step : UpgradeStepRow) : Proc (UpgradeStepRow × Bool) :=
  if isSettledStepStatus step.status then return (step, true)
  else do
    let facts ← ask (.facts [step.plan.serverId])
    if step.status = .waiting ∧ step.plan.phase = .fleet ∧ step.attempts = 0 ∧
        facts.head?.map FleetServerFact.connected = some false then do
      let row := markStepSkippedOffline step skippedOfflineAtStartMessage
      let saved ← ask (.saveStep row (some step.status))
      return (row, saved)
    else return (step, false)

/-- The copies so far, and whether every step was idle and no write was lost. -/
def settleNext (acc : List UpgradeStepRow × Bool) (step : UpgradeStepRow) :
    Proc (List UpgradeStepRow × Bool) := do
  let (row, saved) ← settleOffline step
  return (acc.1 ++ [row], acc.2 && saved)

/-- Skip the fleet steps that only wait on offline hosts, then finish the run; false when one is no
longer idle. -/
def settleRunWaitingOnOfflineServers (run : UpgradeRunRow) : Proc Bool := do
  let steps ← ask (.stepsFor run.id)
  let settled ← foldEach settleNext steps ([], true)
  if settled.2 then do
    finishRun run (summarizeSteps settled.1)
    return true
  else return false

/-- Plan a run and insert it, and make the first pass over it. -/
def startPlanned (deps : UpgradeDeps) : Proc Unit := do
  let planned ← ask .planRun
  match planned with
  | none => return ()
  | some planned => do
    let fleet ← ask (.facts [])
    let now ← ask .clock
    let steps := planned.steps.map fun step => stepFromPlan step now
    let run : UpgradeRunRow :=
      { id := planned.id
        status := .pending
        phase := earliestOpenPhase steps
        target := planned.target
        counts := none
        error := none
        finishedAt := none }
    let created ← ask (.insertRun run steps)
    if created then do
      let stored ← ask (.stepsFor run.id)
      advance deps { run with phase := earliestOpenPhase stored } stored fleet
    else return ()

/-- A start that no open run blocks. -/
def startUnblocked (deps : UpgradeDeps) : Proc Unit := do
  let paused ← ask .pause
  if paused then return () else startPlanned deps

def start (deps : UpgradeDeps) : Proc Unit := do
  let active ← ask .activeRun
  match active with
  | none => startUnblocked deps
  | some run => do
    let steps ← ask (.stepsFor run.id)
    let fleet ← ask (.facts [])
    if runBlocksStart steps fleet then return ()
    else do
      let settled ← settleRunWaitingOnOfflineServers run
      if settled then startUnblocked deps else return ()

/-- The hourly check: start an automatic run when something is behind. -/
def checkForUpdates (deps : UpgradeDeps) (paused : Bool) : Proc Unit := do
  let active ← ask .activeRun
  let targetDiffers ← ask .targetDiffers
  if deps.development = false ∧ paused = false ∧ active.isNone ∧ targetDiffers = true then start deps
  else return ()

/-- Update Now: the check at once, when no run is open, nothing is paused and the press is claimed.
-/
def updateNow (deps : UpgradeDeps) : Proc Unit :=
  if deps.development then return ()
  else do
    let active ← ask .activeRun
    if active.isSome then return ()
    else do
      let paused ← ask .pause
      if paused then return ()
      else do
        let pressed ← ask .claimPress
        if pressed then checkForUpdates deps false else return ()

/-- A tick on the run that is active. -/
def tickActive (deps : UpgradeDeps) (paused : Bool) : Proc Unit := do
  let active ← ask .activeRun
  match active with
  | none => return ()
  | some run =>
    if paused then do
      let run ← stopPausedRun run
      advanceWindow deps run
    else advanceWindow deps run

def tick (deps : UpgradeDeps) (resolveManifests : Bool) : Proc Unit := do
  let paused ← ask .pause
  if resolveManifests then do
    checkForUpdates deps paused
    tickActive deps paused
  else tickActive deps paused

/-! ## Reports -/

/-- A hello or heartbeat whose commit is the target of an open daemon step marks it done. -/
def noteDaemonCommit (serverId commit : String) (at_ : ℤ) : Proc Unit := do
  let active ← ask .activeRun
  match active with
  | none => return ()
  | some run => do
    let steps ← ask (.stepsFor run.id)
    match steps.find? fun step => decide (step.plan.serverId = serverId ∧ step.plan.unit = .daemon ∧
        step.plan.toCommit = some commit ∧ isSettledStepStatus step.status = false) with
    | none => return ()
    | some step => do
      let _ ← ask (.saveStep (markStepDone step at_) none)
      return ()

def findOpenStep (serverId : String) (unit : UpgradeStepUnit) (upgradeId : Option String) :
    Proc (Option UpgradeStepRow) := do
  let active ← ask .activeRun
  match active with
  | none => return none
  | some run =>
    if (nonEmpty upgradeId).isSome ∧ upgradeId ≠ some run.id then return none
    else do
      let steps ← ask (.stepsFor run.id)
      return steps.find? fun step => decide (step.plan.serverId = serverId ∧ step.plan.unit = unit ∧
        isSettledStepStatus step.status = false)

def reportWriteAttempts : ℕ := 5

/-- The open step that a report is about, and the row it makes of it. -/
def reportedRow (requestId : String) (mutate : UpgradeStepRow → ReportKind → Option UpgradeStepRow)
    (step : Option UpgradeStepRow) : Option (UpgradeStepRow × UpgradeStepRow) := do
  let step ← step
  let report ← classifyReport step requestId
  let row ← mutate step report
  return (step, row)

/-- Apply a report to its open step: a write that lost to another one is decided again on the new
row. -/
def applyReport (serverId : String) (unit : UpgradeStepUnit) (upgradeId : Option String)
    (requestId : String) (mutate : ℤ → UpgradeStepRow → ReportKind → Option UpgradeStepRow) :
    ℕ → Proc Unit
  | 0 => return ()
  | attempts + 1 => do
    let step ← findOpenStep serverId unit upgradeId
    let now ← ask .clock
    match reportedRow requestId (mutate now) step with
    | none => return ()
    | some (step, row) => do
      let saved ← ask (.saveStep row (some step.status))
      if saved then return ()
      else applyReport serverId unit upgradeId requestId mutate attempts

def noteProgress (deps : UpgradeDeps) (input : ProgressReport) : Proc Unit :=
  applyReport input.serverId input.unit input.upgradeId input.requestId
    (fun now => noteProgressRow deps input now) reportWriteAttempts

def noteOutcome (deps : UpgradeDeps) (input : OutcomeReport) : Proc Unit :=
  applyReport input.serverId input.unit input.upgradeId input.requestId
    (fun now => noteOutcomeRow deps input now) reportWriteAttempts

/-! ## Calls -/

inductive Call where
  | tick (resolveManifests : Bool)
  | start
  | updateNow
  | noteDaemonCommit (serverId commit : String) (at_ : ℤ)
  | noteProgress (input : ProgressReport)
  | noteOutcome (input : OutcomeReport)

def body (deps : UpgradeDeps) : Call → Proc Unit
  | .tick resolveManifests => tick deps resolveManifests
  | .start => start deps
  | .updateNow => updateNow deps
  | .noteDaemonCommit serverId commit at_ => noteDaemonCommit serverId commit at_
  | .noteProgress input => noteProgress deps input
  | .noteOutcome input => noteOutcome deps input

/-! ## One step on one host

The store from which the runs that go wrong start. -/

def oneHostDeps : UpgradeDeps where
  runtime := .deno
  development := false
  channelHasInstancePackage := false
  colocatedServerId := none
  instanceCommit := none
  verifyTimeoutMs := upgradeVerifyTimeoutMs
  installScriptUrl := "https://panel.test/install.sh"
  redactUrlSecrets := id

def oneHostRun : UpgradeRunRow where
  id := "run"
  status := .running
  phase := none
  target := { daemon := some { commit := some "new" } }
  counts := none
  error := none
  finishedAt := none

def oneHostStep (unit : UpgradeStepUnit) (status : UpgradeStepStatus) : UpgradeStepRow where
  plan :=
    { id := "step"
      upgradeId := "run"
      serverId := "host"
      unit := unit
      phase := match unit with
        | .daemon => .colocatedDaemon
        | .instance_ => .controlPlane
      batchIndex := 0
      fromCommit := some "old"
      toCommit := some "new" }
  status := status
  requestId := some "first"
  attempts := 1
  nextAttemptAt := none
  lastStageAt := some 0
  errorCode := none
  errorMessage := none
  detail := {}

def oneHostStore (step : UpgradeStepRow) : UpgradeStore where
  runs := [oneHostRun]
  steps := [step]
  cursor := none
  runs_nodup := List.nodup_singleton _
  one_active := le_refl 1
  steps_nodup := List.nodup_singleton _

/-- The host is connected, on its old build. -/
def hostOnline : Env where
  requestId := "second"
  facts :=
    [{ serverId := "host"
       connected := true
       commit := some "old"
       features := [managedUpgradeFeature]
       colocated := true }]

end TurboPanel.Upgrades
