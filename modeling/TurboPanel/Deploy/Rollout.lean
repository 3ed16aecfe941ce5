import TurboPanel.Data.Interleaving

/-!
# Rolling deploys

The targets of a deploy are rows, one for each server, in batches. The first batch is delivered when
the deploy is made; each later one waits as `pending` until the whole batch before it has been
applied, and is then claimed by one conditional update and delivered (`advanceRollout`). The first
server that failed stops the rollout (`haltRollout`). The result of a command moves its target to
applied or failed.

Each statement on the table is atomic. What the command queue answers, and what happens to the rows
of the commands, is left to the environment.
-/

namespace TurboPanel.Rollout

open Interleaving
open Interleaving.Prog (call foldEach)

/-! ## Targets -/

inductive DeploymentStatus where
  | pending
  | applying
  | applied
  | failed
  | draining
  deriving DecidableEq

/-- The value under `rollout` of the options of a row. -/
inductive RolloutValue where
  | pair (batch batches : ℤ)
  | other
  deriving DecidableEq

structure RolloutOptions where
  batch : ℕ
  batches : ℕ

/-- The columns that no statement below writes; a server has one row in an environment. -/
structure DeploymentTarget where
  id : String
  environmentId : String
  serverId : String
  desiredGeneration : ℤ
  rollout : Option RolloutValue

structure DeploymentRow where
  target : DeploymentTarget
  status : DeploymentStatus
  lastCommandId : Option String

/-- The batch of a target, or `none` when it is not part of a rollout. -/
def readRolloutOptions : Option RolloutValue → Option RolloutOptions
  | some (.pair batch batches) =>
    if batch < 0 ∨ batches < 1 then none else some ⟨batch.toNat, batches.toNat⟩
  | _ => none

def DeploymentTarget.batch? (target : DeploymentTarget) : Option ℕ :=
  (readRolloutOptions target.rollout).map RolloutOptions.batch

/-- A target as a call reads it. -/
structure GenerationTarget where
  target : DeploymentTarget
  status : DeploymentStatus
  batch : ℕ
  lastCommandId : Option String

inductive RolloutStep where
  | wait
  | done
  | halted
  | start (batch : ℕ)
  deriving DecidableEq

/-- What a rollout does next: a failed target halts it, a batch with a server still applying is
waited on, and otherwise the lowest batch that has not started is next. -/
def nextRolloutStep (targets : List GenerationTarget) : RolloutStep :=
  if targets.any fun target => decide (target.status = .failed) then .halted
  else if targets.any fun target => decide (target.status = .applying) then .wait
  else
    match (targets.filter fun target => decide (target.status = .pending)).map
        GenerationTarget.batch with
    | [] => .done
    | batch :: batches => .start (batches.foldl min batch)

/-! ## The table -/

structure DeploymentTable where
  rows : List DeploymentRow
  ids_nodup : (rows.map fun row => row.target.id).Nodup
  /-- `uniq_deployment_environment_server`. -/
  servers_nodup : (rows.map fun row => (row.target.environmentId, row.target.serverId)).Nodup

/-- What a write of an outcome expects and sets. -/
structure DeploymentTransition where
  environmentId : String
  serverId : String
  status : DeploymentStatus
  commandId : Option String
  expectedCommandId : Option String
  expectedStatus : Option DeploymentStatus

structure ClaimedTarget where
  serverId : String
  commandId : String

/-- The rows of one generation. -/
def inGeneration (environmentId : String) (generation : ℤ) (row : DeploymentRow) : Prop :=
  row.target.environmentId = environmentId ∧ row.target.desiredGeneration = generation

instance (environmentId : String) (generation : ℤ) :
    DecidablePred (inGeneration environmentId generation) := fun _ => inferInstanceAs (Decidable (_ ∧ _))

/-- The row that a claim of a batch changes. -/
def claims (environmentId : String) (generation : ℤ) (ids : List String) (row : DeploymentRow) : Prop :=
  inGeneration environmentId generation row ∧ row.status = .pending ∧ row.target.id ∈ ids

instance (environmentId : String) (generation : ℤ) (ids : List String) :
    DecidablePred (claims environmentId generation ids) := fun _ => inferInstanceAs (Decidable (_ ∧ _))

def claimedRow (environmentId : String) (generation : ℤ) (ids : List String) (row : DeploymentRow) :
    DeploymentRow :=
  if claims environmentId generation ids row then { row with status := .applying } else row

/-- The row that a halt changes; without a generation it covers every one. -/
def halts (environmentId : String) (generation : Option ℤ) (row : DeploymentRow) : Prop :=
  row.target.environmentId = environmentId ∧ (∀ g ∈ generation, row.target.desiredGeneration = g) ∧
    row.status = .pending ∧ row.target.rollout.isSome

instance (environmentId : String) (generation : Option ℤ) :
    DecidablePred (halts environmentId generation) := fun _ => inferInstanceAs (Decidable (_ ∧ _))

def haltedRow (environmentId : String) (generation : Option ℤ) (row : DeploymentRow) : DeploymentRow :=
  if halts environmentId generation row then { row with status := .failed } else row

/-- A row belongs to the command that is expected, or tracks none and is not draining. -/
def belongsTo (commandId : String) (row : DeploymentRow) : Prop :=
  row.lastCommandId = none ∧ row.status ≠ .draining ∨ row.lastCommandId = some commandId

instance (commandId : String) : DecidablePred (belongsTo commandId) :=
  fun _ => inferInstanceAs (Decidable (_ ∨ _))

/-- The row that a write of an outcome changes. -/
def transitions (params : DeploymentTransition) (row : DeploymentRow) : Prop :=
  row.target.environmentId = params.environmentId ∧ row.target.serverId = params.serverId ∧
    (∀ commandId ∈ params.expectedCommandId, belongsTo commandId row) ∧
      ∀ status ∈ params.expectedStatus, row.status = status

instance (params : DeploymentTransition) : DecidablePred (transitions params) :=
  fun _ => inferInstanceAs (Decidable (_ ∧ _))

def transitionedRow (params : DeploymentTransition) (row : DeploymentRow) : DeploymentRow :=
  if transitions params row then
    { row with
      status := params.status
      lastCommandId := params.commandId <|> row.lastCommandId }
  else row

def generationTarget (row : DeploymentRow) : Option GenerationTarget :=
  row.target.batch?.map fun batch => ⟨row.target, row.status, batch, row.lastCommandId⟩

namespace DeploymentTable

/-- The table with each row changed, where its fixed columns are kept. -/
def mapRows (s : DeploymentTable) (f : DeploymentRow → DeploymentRow)
    (hf : ∀ row, (f row).target = row.target) : DeploymentTable where
  rows := s.rows.map f
  ids_nodup := by
    rw [List.map_map]
    have : (fun row : DeploymentRow => row.target.id) ∘ f = fun row => row.target.id := by
      funext row
      exact congrArg DeploymentTarget.id (hf row)
    rw [this]
    exact s.ids_nodup
  servers_nodup := by
    rw [List.map_map]
    have : (fun row : DeploymentRow => (row.target.environmentId, row.target.serverId)) ∘ f =
        fun row => (row.target.environmentId, row.target.serverId) := by
      funext row
      simp only [Function.comp_apply, hf]
    rw [this]
    exact s.servers_nodup

def loadGenerationTargets (s : DeploymentTable) (environmentId : String) (generation : ℤ) :
    List GenerationTarget :=
  (s.rows.filter fun row => decide (inGeneration environmentId generation row)).filterMap
    generationTarget

/-- The servers and commands of rows that were written, where a row has a command. -/
def claimedTargets (rows : List DeploymentRow) : List ClaimedTarget :=
  rows.filterMap fun row => row.lastCommandId.map fun commandId => ⟨row.target.serverId, commandId⟩

end DeploymentTable

/-! ## Operations -/

inductive CommandOutcome where
  | failed
  | cancelled
  deriving DecidableEq

/-- The statements of the calls, and what they ask of the clock, the command queue and the commands.
-/
inductive Op where
  | clock
  | loadGenerationTargets (environmentId : String) (generation : ℤ)
  | refreshCommandClocks (commandIds : List String) (queuedAt : ℤ)
  | claimBatch (environmentId : String) (generation : ℤ) (ids : List String)
  | enqueue (environmentId : String) (claimed : ClaimedTarget) (queuedAt : ℤ)
  | markCommandEnqueued (commandId : String)
  | transitionCommand (commandId : String) (status : CommandOutcome)
  | transitionDeployment (params : DeploymentTransition)
  | halt (environmentId : String) (generation : Option ℤ)

/-- The answers; those of `enqueue` and `markCommandEnqueued` say whether they succeeded, that of
`transitionDeployment` whether a row was written. -/
@[reducible] def Ans : Op → Type
  | .clock => ℤ
  | .loadGenerationTargets _ _ => List GenerationTarget
  | .refreshCommandClocks _ _ => Unit
  | .claimBatch _ _ _ => List ClaimedTarget
  | .enqueue _ _ _ => Bool
  | .markCommandEnqueued _ => Bool
  | .transitionCommand _ _ => Unit
  | .transitionDeployment _ => Bool
  | .halt _ _ => List ClaimedTarget

structure Env where
  now : ℤ := 0
  delivered : Bool := true

def Op.onRow : Op → DeploymentRow → DeploymentRow
  | .claimBatch environmentId generation ids, row => claimedRow environmentId generation ids row
  | .transitionDeployment params, row => transitionedRow params row
  | .halt environmentId generation, row => haltedRow environmentId generation row
  | _, row => row

theorem Op.onRow_target (o : Op) (row : DeploymentRow) : (o.onRow row).target = row.target := by
  cases o with
  | claimBatch environmentId generation ids =>
    rw [Op.onRow, claimedRow]
    split <;> rfl
  | transitionDeployment params =>
    rw [Op.onRow, transitionedRow]
    split <;> rfl
  | halt environmentId generation =>
    rw [Op.onRow, haltedRow]
    split <;> rfl
  | _ => rfl

def answer (e : Env) (s : DeploymentTable) : (o : Op) → Ans o
  | .clock => e.now
  | .loadGenerationTargets environmentId generation => s.loadGenerationTargets environmentId generation
  | .refreshCommandClocks _ _ => ()
  | .claimBatch environmentId generation ids =>
    DeploymentTable.claimedTargets
      (s.rows.filter fun row => decide (claims environmentId generation ids row))
  | .enqueue _ _ _ => e.delivered
  | .markCommandEnqueued _ => e.delivered
  | .transitionCommand _ _ => ()
  | .transitionDeployment params => s.rows.any fun row => decide (transitions params row)
  | .halt environmentId generation =>
    DeploymentTable.claimedTargets (s.rows.filter fun row => decide (halts environmentId generation row))

def exec (e : Env) (o : Op) (s : DeploymentTable) : Option (Ans o × DeploymentTable) :=
  some (answer e s o, s.mapRows o.onRow o.onRow_target)

/-- The table as a machine: a thread that dies leaves it as it is. -/
def machine : Machine Op Ans DeploymentTable Env where
  exec _ e o s := exec e o s
  drop _ s := s

/-! ## Calls -/

abbrev Proc := Prog Op Ans

abbrev ask (o : Op) : Proc (Ans o) := call o

/-- Stop a rollout: every target that has not started is failed, and its command cancelled. -/
def haltRollout (environmentId : String) (generation : Option ℤ) : Proc Unit := do
  let rows ← ask (.halt environmentId generation)
  foldEach (fun _ row => ask (.transitionCommand row.commandId .cancelled)) rows ()

/-- Deliver the command of a target that was claimed, or fail both; whether it was delivered. -/
def deliverClaimed (environmentId : String) (claimed : ClaimedTarget) (queuedAt : ℤ) : Proc Bool := do
  let sent ← ask (.enqueue environmentId claimed queuedAt)
  let marked ← if sent then ask (.markCommandEnqueued claimed.commandId) else pure false
  if marked then return true
  else do
    ask (.transitionCommand claimed.commandId .failed)
    let _ ← ask (.transitionDeployment
      { environmentId := environmentId
        serverId := claimed.serverId
        status := .failed
        commandId := some claimed.commandId
        expectedCommandId := none
        expectedStatus := none })
    return false

/-- The targets of a batch that have not started. -/
def batchOf (targets : List GenerationTarget) (batch : ℕ) : List GenerationTarget :=
  targets.filter fun target => decide (target.status = .pending ∧ target.batch = batch)

/-- Deliver the next batch once the current one is fully applied. -/
def advanceRollout (environmentId : String) (generation : ℤ) : Proc Unit := do
  let targets ← ask (.loadGenerationTargets environmentId generation)
  match nextRolloutStep targets with
  | .halted => haltRollout environmentId (some generation)
  | .wait => return ()
  | .done => return ()
  | .start batch => do
    let rows := batchOf targets batch
    let queuedAt ← ask .clock
    ask (.refreshCommandClocks (rows.filterMap GenerationTarget.lastCommandId) queuedAt)
    let claimed ← ask (.claimBatch environmentId generation (rows.map fun row => row.target.id))
    let delivered ← foldEach (fun all row => do
      let sent ← deliverClaimed environmentId row queuedAt
      return all && sent) claimed true
    if delivered then return () else haltRollout environmentId (some generation)

/-- A result that is recorded for the command of a target. -/
def outcome (environmentId serverId commandId : String) (status : DeploymentStatus)
    (expectedStatus : Option DeploymentStatus) : DeploymentTransition where
  environmentId := environmentId
  serverId := serverId
  status := status
  commandId := some commandId
  expectedCommandId := some commandId
  expectedStatus := expectedStatus

/-- The command succeeded: the target is applied, and the rollout goes on. -/
def applyDeploySideEffect (environmentId serverId : String) (generation : ℤ) (commandId : String) :
    Proc Unit := do
  let marked ← ask (.transitionDeployment (outcome environmentId serverId commandId .applied none))
  if marked then advanceRollout environmentId generation else return ()

/-- The command failed: the target is failed, and the rollout stops. -/
def applyDeployFailedSideEffect (environmentId serverId : String) (generation : Option ℤ)
    (commandId : String) : Proc Unit := do
  let marked ← ask (.transitionDeployment (outcome environmentId serverId commandId .failed none))
  match marked, generation with
  | true, some generation => haltRollout environmentId (some generation)
  | _, _ => return ()

/-- A command that ended without reaching its result: only while the target is applying. -/
def failDeployByContext (environmentId serverId : String) (generation : ℤ) (commandId : String) :
    Proc Unit := do
  let marked ← ask (.transitionDeployment
    (outcome environmentId serverId commandId .failed (some .applying)))
  if marked then haltRollout environmentId (some generation) else return ()

/-- A success that is reported after the command was given up on. -/
def markAppliedIfCurrent (environmentId serverId commandId : String) : Proc Unit := do
  let _ ← ask (.transitionDeployment (outcome environmentId serverId commandId .applied none))
  return ()

/-- A deploy that is cancelled before it started. -/
def cancelTarget (environmentId serverId commandId : String) : Proc Unit := do
  let _ ← ask (.transitionDeployment (outcome environmentId serverId commandId .failed (some .applying)))
  return ()

inductive Call where
  | advance (environmentId : String) (generation : ℤ)
  | halt (environmentId : String) (generation : Option ℤ)
  | succeeded (environmentId serverId : String) (generation : ℤ) (commandId : String)
  | failed (environmentId serverId : String) (generation : Option ℤ) (commandId : String)
  | lost (environmentId serverId : String) (generation : ℤ) (commandId : String)
  | late (environmentId serverId commandId : String)
  | cancelled (environmentId serverId commandId : String)

def body : Call → Proc Unit
  | .advance environmentId generation => advanceRollout environmentId generation
  | .halt environmentId generation => haltRollout environmentId generation
  | .succeeded environmentId serverId generation commandId =>
    applyDeploySideEffect environmentId serverId generation commandId
  | .failed environmentId serverId generation commandId =>
    applyDeployFailedSideEffect environmentId serverId generation commandId
  | .lost environmentId serverId generation commandId =>
    failDeployByContext environmentId serverId generation commandId
  | .late environmentId serverId commandId => markAppliedIfCurrent environmentId serverId commandId
  | .cancelled environmentId serverId commandId => cancelTarget environmentId serverId commandId

end TurboPanel.Rollout
