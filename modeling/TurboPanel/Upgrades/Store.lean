import TurboPanel.Data.Interleaving
import TurboPanel.Upgrades.Steps

/-!
# The store of upgrade runs and steps

The tables of the runs and of the steps, and the statements on them, each of which is atomic. The
keys are unique, and at most one run is pending or running: an insert that would break this answers
that a run is active, and an update that would break it fails.

What the coordinator asks elsewhere (the clock, the fleet, the pause, what a start plans) is
answered by the environment, in any way.
-/

namespace TurboPanel.Upgrades

open List

/-! ## Runs -/

inductive UpgradeStatus where
  | pending
  | running
  | succeeded
  | partiallyFailed
  | failed
  | cancelled
  deriving DecidableEq

/-- Statuses that count as the single run in flight. -/
def isActiveStatus : UpgradeStatus → Bool
  | .pending | .running => true
  | _ => false

structure StepSummary where
  total : ℕ
  done : ℕ
  skipped : ℕ
  failed : ℕ
  needsAttention : ℕ
  inProgress : ℕ
  deriving DecidableEq

structure UpgradeRunRow where
  id : String
  status : UpgradeStatus
  phase : Option UpgradePhase
  target : UpgradeTarget
  counts : Option StepSummary
  error : Option String
  finishedAt : Option ℤ

/-- A phase before the fleet. -/
inductive PlatformPhase where
  | colocatedDaemon
  | controlPlane
  deriving DecidableEq

def upgradePhaseRank : UpgradePhase → ℕ
  | .colocatedDaemon => 0
  | .controlPlane => 1
  | .fleet => 2

/-! ## Queries -/

def summarizeSteps (steps : List UpgradeStepRow) : StepSummary where
  total := steps.length
  done := steps.countP fun step => decide (step.status = .done)
  skipped := steps.countP fun step => decide (step.status = .skipped)
  failed := steps.countP fun step => decide (step.status = .failed)
  needsAttention := steps.countP fun step => decide (step.status = .needsAttention)
  inProgress := steps.countP fun step => !isSettledStepStatus step.status

def failedIn (steps : List UpgradeStepRow) (phase : UpgradePhase) : Bool :=
  steps.any fun step =>
    decide (step.plan.phase = phase ∧ (step.status = .failed ∨ step.status = .needsAttention))

/-- The first platform phase with a step that failed or needs attention. -/
def failedPlatformPhase (steps : List UpgradeStepRow) : Option PlatformPhase :=
  if failedIn steps .colocatedDaemon then some .colocatedDaemon
  else if failedIn steps .controlPlane then some .controlPlane
  else none

/-- The order of the steps of a run: phase, batch, id. -/
def stepOrder (a b : UpgradeStepRow) : Prop :=
  upgradePhaseRank a.plan.phase < upgradePhaseRank b.plan.phase ∨
    upgradePhaseRank a.plan.phase = upgradePhaseRank b.plan.phase ∧
      (a.plan.batchIndex < b.plan.batchIndex ∨
        a.plan.batchIndex = b.plan.batchIndex ∧ a.plan.id ≤ b.plan.id)

instance : DecidableRel stepOrder := fun _ _ => inferInstanceAs (Decidable (_ ∨ _))

/-- In the fleet, an install in flight comes first, or else a server that is connected. -/
def headClass (steps : List UpgradeStepRow) (connected : List String) (step : UpgradeStepRow) : ℕ :=
  if step.plan.phase ≠ .fleet then 0
  else if steps.any fun other =>
      decide (other.plan.phase = step.plan.phase) && isInFlightStepStatus other.status then
    if isInFlightStepStatus step.status then 0 else 1
  else if step.plan.serverId ∈ connected then 0 else 1

/-- The open step that comes first gives the phase and the batch that are open. -/
def headBefore (steps : List UpgradeStepRow) (connected : List String) (a b : UpgradeStepRow) : Bool :=
  decide (upgradePhaseRank a.plan.phase < upgradePhaseRank b.plan.phase ∨
    upgradePhaseRank a.plan.phase = upgradePhaseRank b.plan.phase ∧
      (headClass steps connected a < headClass steps connected b ∨
        headClass steps connected a = headClass steps connected b ∧
          (a.plan.batchIndex < b.plan.batchIndex ∨
            a.plan.batchIndex = b.plan.batchIndex ∧ a.plan.id < b.plan.id)))

/-- The first of the elements, in an order. -/
def firstBy {α : Type} (before : α → α → Bool) : List α → Option α
  | [] => none
  | a :: l => some (l.foldl (fun best b => if before b best then b else best) a)

variable {id : String}

theorem find?_key_eq_some {α : Type} {key : α → String} {l : List α} (hl : (l.map key).Nodup)
    {a : α} : (l.find? fun b => decide (key b = id)) = some a ↔ a ∈ l ∧ key a = id := by
  have hkey : ∀ {b}, (l.find? fun b => decide (key b = id)) = some b → key b = id := fun h => by
    simpa using List.find?_some h
  refine ⟨fun h => ⟨mem_of_find?_eq_some h, hkey h⟩, ?_⟩
  intro ⟨ha, hid⟩
  cases hfind : l.find? fun b => decide (key b = id) with
  | none => exact absurd (decide_eq_true hid) (List.find?_eq_none.1 hfind a ha)
  | some b =>
    refine congrArg some (inj_on_of_nodup_map hl (mem_of_find?_eq_some hfind) ha ?_)
    exact (hkey hfind).trans hid.symm

structure TickCursor where
  runId : String
  phase : UpgradePhase
  batchIndex : ℕ
  afterId : Option String

/-! ## The store -/

structure UpgradeStore where
  runs : List UpgradeRunRow
  steps : List UpgradeStepRow
  cursor : Option TickCursor
  runs_nodup : (runs.map UpgradeRunRow.id).Nodup
  one_active : (runs.filter fun run => isActiveStatus run.status).length ≤ 1
  steps_nodup : (steps.map fun step => step.plan.id).Nodup

namespace UpgradeStore

def activeRun (s : UpgradeStore) : Option UpgradeRunRow := s.runs.find? fun run => isActiveStatus run.status

def rowsOf (s : UpgradeStore) (runId : String) : List UpgradeStepRow :=
  s.steps.filter fun step => decide (step.plan.upgradeId = runId)

def stepsFor (s : UpgradeStore) (runId : String) : List UpgradeStepRow :=
  (s.rowsOf runId).insertionSort stepOrder

/-- The row of a step, by its key. -/
def step? (s : UpgradeStore) (id : String) : Option UpgradeStepRow :=
  s.steps.find? fun step => decide (step.plan.id = id)

/-- The row of a run, by its key. -/
def run? (s : UpgradeStore) (id : String) : Option UpgradeRunRow :=
  s.runs.find? fun run => decide (run.id = id)

theorem step?_eq_some {s : UpgradeStore} {id : String} {row : UpgradeStepRow} :
    s.step? id = some row ↔ row ∈ s.steps ∧ row.plan.id = id :=
  find?_key_eq_some s.steps_nodup

theorem run?_eq_some {s : UpgradeStore} {id : String} {run : UpgradeRunRow} :
    s.run? id = some run ↔ run ∈ s.runs ∧ run.id = id :=
  find?_key_eq_some s.runs_nodup

theorem eq_of_isActiveStatus {s : UpgradeStore} {a b : UpgradeRunRow} (ha : a ∈ s.runs) (hb : b ∈ s.runs)
    (ha' : isActiveStatus a.status = true) (hb' : isActiveStatus b.status = true) : a = b := by
  have hmem : ∀ {run}, run ∈ s.runs → isActiveStatus run.status = true →
      run ∈ s.runs.filter fun run => isActiveStatus run.status :=
    fun hrun hactive => mem_filter.2 ⟨hrun, hactive⟩
  obtain ⟨i, hi, rfl⟩ := getElem_of_mem (hmem ha ha')
  obtain ⟨j, hj, rfl⟩ := getElem_of_mem (hmem hb hb')
  have hij : i = j := by
    have := s.one_active
    omega
  subst hij
  rfl

def openRows (s : UpgradeStore) (runId : String) : List UpgradeStepRow :=
  (s.rowsOf runId).filter fun step => !isSettledStepStatus step.status

def openHead (s : UpgradeStore) (runId : String) (connected : List String) :
    Option (UpgradePhase × ℕ) :=
  (firstBy (headBefore (s.rowsOf runId) connected) (s.openRows runId)).map fun step =>
    (step.plan.phase, step.plan.batchIndex)

/-- Active step rows that a tick may read. -/
def upgradeTickStepBudget : ℕ := 50

def stepPage (s : UpgradeStore) (runId : String) (phase : UpgradePhase) (batchIndex : ℕ)
    (afterId : Option String) : List UpgradeStepRow :=
  let rows := (s.openRows runId).filter fun step =>
    decide (step.plan.phase = phase ∧ step.plan.batchIndex = batchIndex) &&
      afterId.all fun after => decide (after < step.plan.id)
  (rows.insertionSort fun a b => a.plan.id ≤ b.plan.id).take upgradeTickStepBudget

/-- The store with each step row changed, where its plan is kept. -/
def mapSteps (s : UpgradeStore) (f : UpgradeStepRow → UpgradeStepRow)
    (hf : ∀ step, (f step).plan = step.plan) : UpgradeStore :=
  { s with
    steps := s.steps.map f
    steps_nodup := by
      rw [map_map]
      have : (fun step : UpgradeStepRow => step.plan.id) ∘ f = fun step => step.plan.id := by
        funext step
        exact congrArg StepPlan.id (hf step)
      rw [this]
      exact s.steps_nodup }

/-- The rows that a write of a step changes: that of its key, with the status that is expected, if
any. -/
def writes (row : UpgradeStepRow) (expectedStatus : Option UpgradeStepStatus)
    (stored : UpgradeStepRow) : Prop :=
  stored.plan = row.plan ∧ expectedStatus.all fun status => decide (stored.status = status)

instance (row : UpgradeStepRow) (expectedStatus : Option UpgradeStepStatus) :
    DecidablePred (writes row expectedStatus) := fun _ => inferInstanceAs (Decidable (_ ∧ _))

def savedRow (row : UpgradeStepRow) (expectedStatus : Option UpgradeStepStatus)
    (stored : UpgradeStepRow) : UpgradeStepRow :=
  if writes row expectedStatus stored then row else stored

/-- Write a step, and answer whether a row was written. -/
def saveStep (s : UpgradeStore) (row : UpgradeStepRow) (expectedStatus : Option UpgradeStepStatus) :
    Bool × UpgradeStore :=
  (s.steps.any fun stored => decide (writes row expectedStatus stored),
    s.mapSteps (savedRow row expectedStatus) (by
      intro stored
      rw [savedRow]
      split
      · rename_i h
        exact h.1.symm
      · rfl))

/-- A step that was never sent to its host. -/
def isUndispatchedStep (step : UpgradeStepRow) : Prop :=
  step.attempts = 0 ∧ (step.status = .pending ∨ step.status = .waiting)

instance : DecidablePred isUndispatchedStep := fun _ => inferInstanceAs (Decidable (_ ∧ _))

/-- A step of a paused run, settled when it was never sent. -/
def pausedRow (runId : String) (now : ℤ) (step : UpgradeStepRow) : UpgradeStepRow :=
  if step.plan.upgradeId = runId ∧ isUndispatchedStep step then
    { step with
      status := .skipped
      errorCode := some UpgradeStepErrorCode.updatesPaused.code
      errorMessage := some skippedPausedMessage
      lastStageAt := some now }
  else step

/-- Settle every step of a run that was never sent, and answer how many. -/
def skipUndispatchedSteps (s : UpgradeStore) (runId : String) (now : ℤ) : ℕ × UpgradeStore :=
  (s.steps.countP fun step => decide (step.plan.upgradeId = runId ∧ isUndispatchedStep step),
    s.mapSteps (pausedRow runId now) (by
      intro step
      rw [pausedRow]
      split
      · rfl
      · rfl))

def savedRun (run stored : UpgradeRunRow) : UpgradeRunRow := if stored.id = run.id then run else stored

/-- Write a run over the row with its id. It fails when two runs would be active. -/
def saveRun (s : UpgradeStore) (run : UpgradeRunRow) : Option UpgradeStore :=
  let runs := s.runs.map (savedRun run)
  if h : (runs.filter fun run => isActiveStatus run.status).length ≤ 1 then
    some { s with
      runs := runs
      runs_nodup := by
        rw [map_map]
        have : UpgradeRunRow.id ∘ savedRun run = UpgradeRunRow.id := by
          funext stored
          rw [Function.comp_apply, savedRun]
          split
          · rename_i heq
            exact heq.symm
          · rfl
        rw [this]
        exact s.runs_nodup
      one_active := h }
  else none

/-- Insert a run with its steps, and answer whether they were created: not while a run is active,
nor with a key that is taken. -/
def insertRun (s : UpgradeStore) (run : UpgradeRunRow) (steps : List UpgradeStepRow) :
    Bool × UpgradeStore :=
  if h : ((s.runs ++ [run]).map UpgradeRunRow.id).Nodup ∧
      ((s.runs ++ [run]).filter fun run => isActiveStatus run.status).length ≤ 1 ∧
      ((s.steps ++ steps).map fun step => step.plan.id).Nodup ∧ s.activeRun = none then
    (true, { s with
      runs := s.runs ++ [run]
      steps := s.steps ++ steps
      runs_nodup := h.1
      one_active := h.2.1
      steps_nodup := h.2.2.1 })
  else (false, s)

end UpgradeStore

/-! ## Operations -/

/-- A step as a start plans it: on its target, left out with a reason, or to be done. -/
inductive StepStart where
  | open_
  | satisfied
  | leftOut (errorCode : UpgradeStepErrorCode) (message : String)
  deriving DecidableEq

structure PlannedStep where
  plan : StepPlan
  start : StepStart
  uiRefresh : Bool

structure PlannedRun where
  id : String
  target : UpgradeTarget
  steps : List PlannedStep

def stepFromPlan (planned : PlannedStep) (now : ℤ) : UpgradeStepRow where
  plan := planned.plan
  status :=
    match planned.start with
    | .open_ => .pending
    | .satisfied => .done
    | .leftOut _ _ => .skipped
  requestId := none
  attempts := 0
  nextAttemptAt := none
  lastStageAt := some now
  errorCode :=
    match planned.start with
    | .leftOut errorCode _ => some errorCode.code
    | _ => none
  errorMessage :=
    match planned.start with
    | .leftOut _ message => some message
    | _ => none
  detail := { uiRefresh := planned.uiRefresh }

structure FleetProbe where
  connected : Bool
  commit : Option String

/-- The command that a dispatch sends to a server. -/
structure UpdateEnvelope where
  unit : UpgradeStepUnit
  requestId : String
  upgradeId : Option String
  manifestUrl : Option String
  uiManifestUrl : Option String
  targetVersion : Option String
  targetCommit : Option String

/-- What the coordinator asks of the store and of its environment. -/
inductive Op where
  | pause
  | clock
  | freshRequestId
  | facts (serverIds : List String)
  | probes (serverIds : List String)
  | targetDiffers
  | claimPress
  | planRun
  | activeRun
  | stepsFor (runId : String)
  | countSteps (runId : String)
  | failedPlatformPhase (runId : String)
  | openHead (runId : String)
  | stepPage (runId : String) (phase : UpgradePhase) (batchIndex : ℕ) (afterId : Option String)
  | readTickCursor (runId : String)
  | writeTickCursor (cursor : Option TickCursor)
  | insertRun (run : UpgradeRunRow) (steps : List UpgradeStepRow)
  | saveRun (run : UpgradeRunRow)
  | saveStep (row : UpgradeStepRow) (expectedStatus : Option UpgradeStepStatus)
  | skipUndispatchedSteps (runId : String) (now : ℤ)
  | enqueue (step : StepPlan) (envelope : UpdateEnvelope)

/-- The answers; that of `enqueue` is the reason why the command was not delivered, if so. -/
@[reducible] def Ans : Op → Type
  | .pause => Bool
  | .clock => ℤ
  | .freshRequestId => String
  | .facts _ => List FleetServerFact
  | .probes _ => List (String × FleetProbe)
  | .targetDiffers => Bool
  | .claimPress => Bool
  | .planRun => Option PlannedRun
  | .activeRun => Option UpgradeRunRow
  | .stepsFor _ => List UpgradeStepRow
  | .countSteps _ => StepSummary
  | .failedPlatformPhase _ => Option PlatformPhase
  | .openHead _ => Option (UpgradePhase × ℕ)
  | .stepPage _ _ _ _ => List UpgradeStepRow
  | .readTickCursor _ => Option TickCursor
  | .writeTickCursor _ => Unit
  | .insertRun _ _ => Bool
  | .saveRun _ => Unit
  | .saveStep _ _ => Bool
  | .skipUndispatchedSteps _ _ => ℕ
  | .enqueue _ _ => Option String

/-- What the environment answers at the time of an operation. -/
structure Env where
  paused : Bool := false
  now : ℤ := 0
  requestId : String := ""
  facts : List FleetServerFact := []
  probes : List (String × FleetProbe) := []
  connected : List String := []
  targetDiffers : Bool := false
  pressClaimed : Bool := false
  planned : Option PlannedRun := none
  deliveryError : Option String := none

def exec (e : Env) : (o : Op) → UpgradeStore → Option (Ans o × UpgradeStore)
  | .pause, s => some (e.paused, s)
  | .clock, s => some (e.now, s)
  | .freshRequestId, s => some (e.requestId, s)
  | .facts _, s => some (e.facts, s)
  | .probes _, s => some (e.probes, s)
  | .targetDiffers, s => some (e.targetDiffers, s)
  | .claimPress, s => some (e.pressClaimed, s)
  | .planRun, s => some (e.planned, s)
  | .activeRun, s => some (s.activeRun, s)
  | .stepsFor runId, s => some (s.stepsFor runId, s)
  | .countSteps runId, s => some (summarizeSteps (s.rowsOf runId), s)
  | .failedPlatformPhase runId, s => some (failedPlatformPhase (s.rowsOf runId), s)
  | .openHead runId, s => some (s.openHead runId e.connected, s)
  | .stepPage runId phase batchIndex afterId, s =>
    some (s.stepPage runId phase batchIndex afterId, s)
  | .readTickCursor runId, s =>
    some (s.cursor.filter fun cursor => decide (cursor.runId = runId), s)
  | .writeTickCursor cursor, s => some ((), { s with cursor := cursor })
  | .insertRun run steps, s => some (s.insertRun run steps)
  | .saveRun run, s => (s.saveRun run).map fun s => ((), s)
  | .saveStep row expectedStatus, s => some (s.saveStep row expectedStatus)
  | .skipUndispatchedSteps runId now, s => some (s.skipUndispatchedSteps runId now)
  | .enqueue _ _, s => some (e.deliveryError, s)

/-- The store as a machine: a thread that dies leaves it as it is. -/
def machine : Interleaving.Machine Op Ans UpgradeStore Env where
  exec _ e o s := exec e o s
  drop _ s := s

/-! ## What an operation does to a row -/

def Op.onRow : Op → UpgradeStepRow → UpgradeStepRow
  | .saveStep row expectedStatus, stored => UpgradeStore.savedRow row expectedStatus stored
  | .skipUndispatchedSteps runId now, stored => UpgradeStore.pausedRow runId now stored
  | _, stored => stored

def Op.onRun : Op → UpgradeRunRow → UpgradeRunRow
  | .saveRun run, stored => UpgradeStore.savedRun run stored
  | _, stored => stored

theorem Op.onRow_plan (o : Op) (stored : UpgradeStepRow) : (o.onRow stored).plan = stored.plan := by
  cases o with
  | saveStep row expectedStatus =>
    rw [Op.onRow, UpgradeStore.savedRow]
    split
    · rename_i h
      exact h.1.symm
    · rfl
  | skipUndispatchedSteps runId now =>
    rw [Op.onRow, UpgradeStore.pausedRow]
    split
    · rfl
    · rfl
  | _ => rfl

theorem Op.onRun_id (o : Op) (stored : UpgradeRunRow) : (o.onRun stored).id = stored.id := by
  cases o with
  | saveRun run =>
    rw [Op.onRun, UpgradeStore.savedRun]
    split
    · rename_i h
      exact h.symm
    · rfl
  | _ => rfl

variable {s s' : UpgradeStore} {e : Env} {o : Op}

variable {ans : Ans o}

section

variable (h : exec e o s = some (ans, s'))
include h

theorem exec_steps : ∃ new, s'.steps = s.steps.map o.onRow ++ new ∧
      (new = [] ∨ ∃ run, o = .insertRun run new) := by
  cases o with
  | insertRun run steps =>
    obtain hins := Option.some.inj h
    rw [UpgradeStore.insertRun] at hins
    split at hins
    · cases hins
      exact ⟨steps, congrArg (· ++ steps) (map_id' s.steps).symm, .inr ⟨run, rfl⟩⟩
    · cases hins
      exact ⟨[], (map_id' s.steps).symm.trans (append_nil _).symm, .inl rfl⟩
  | saveRun run =>
    obtain ⟨s'', hsave, heq⟩ := Option.map_eq_some_iff.1 h
    cases heq
    rw [UpgradeStore.saveRun] at hsave
    split at hsave
    · cases hsave
      exact ⟨[], (map_id' s.steps).symm.trans (append_nil _).symm, .inl rfl⟩
    · cases hsave
  | saveStep row expectedStatus =>
    cases h
    exact ⟨[], (append_nil _).symm, .inl rfl⟩
  | skipUndispatchedSteps runId now =>
    cases h
    exact ⟨[], (append_nil _).symm, .inl rfl⟩
  | _ =>
    cases h
    exact ⟨[], (map_id' s.steps).symm.trans (append_nil _).symm, .inl rfl⟩

theorem exec_runs : ∃ new, s'.runs = s.runs.map o.onRun ++ new ∧
      (new = [] ∨ ∃ run steps, o = .insertRun run steps ∧ new = [run]) := by
  cases o with
  | insertRun run steps =>
    obtain hins := Option.some.inj h
    rw [UpgradeStore.insertRun] at hins
    split at hins
    · cases hins
      exact ⟨[run], congrArg (· ++ [run]) (map_id' s.runs).symm, .inr ⟨run, steps, rfl, rfl⟩⟩
    · cases hins
      exact ⟨[], (map_id' s.runs).symm.trans (append_nil _).symm, .inl rfl⟩
  | saveRun run =>
    obtain ⟨s'', hsave, heq⟩ := Option.map_eq_some_iff.1 h
    cases heq
    rw [UpgradeStore.saveRun] at hsave
    split at hsave
    · cases hsave
      exact ⟨[], (append_nil _).symm, .inl rfl⟩
    · cases hsave
  | _ =>
    cases h
    exact ⟨[], (map_id' s.runs).symm.trans (append_nil _).symm, .inl rfl⟩

theorem mem_steps_of_exec {row : UpgradeStepRow} (hrow : row ∈ s.steps) : o.onRow row ∈ s'.steps := by
  obtain ⟨new, hsteps, -⟩ := exec_steps h
  rw [hsteps]
  exact mem_append_left new (mem_map_of_mem hrow)

theorem step?_of_exec {row : UpgradeStepRow}
    (hrow : s.step? id = some row) : s'.step? id = some (o.onRow row) := by
  obtain ⟨hmem, hid⟩ := UpgradeStore.step?_eq_some.1 hrow
  exact UpgradeStore.step?_eq_some.2
    ⟨mem_steps_of_exec h hmem, (congrArg StepPlan.id (o.onRow_plan row)).trans hid⟩

theorem mem_runs_of_exec {run : UpgradeRunRow} (hrun : run ∈ s.runs) : o.onRun run ∈ s'.runs := by
  obtain ⟨new, hruns, -⟩ := exec_runs h
  rw [hruns]
  exact mem_append_left new (mem_map_of_mem hrun)

theorem run?_of_exec {run : UpgradeRunRow}
    (hrun : s.run? id = some run) : s'.run? id = some (o.onRun run) := by
  obtain ⟨hmem, hid⟩ := UpgradeStore.run?_eq_some.1 hrun
  exact UpgradeStore.run?_eq_some.2 ⟨mem_runs_of_exec h hmem, (o.onRun_id run).trans hid⟩

end

end TurboPanel.Upgrades
