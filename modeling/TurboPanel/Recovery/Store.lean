import TurboPanel.Data.Interleaving
import TurboPanel.Recovery.Journal

/-!
# The tables behind a recovery

The journal, the commands and the members of the clusters. Every statement is an operation of its
own; a read, a decision and a write under the row lock (`updateRecoveryLocked`) are one. What lies
outside is answered by the environment: the clock, which servers are connected, whether the queue
takes a message, and in which order a query without one returns its rows. A statement that throws
has no answer, and its call goes no further.
-/

namespace TurboPanel.Recovery

open CommandRecords (CommandStatus)
open Interleaving

/-! ## Tables -/

/-- What a command of a recovery does: its type, with the action or the phase of its payload. -/
inductive CommandKind where
  /-- `managed.lifecycle`, action `stop`. -/
  | stop
  /-- `managed.lifecycle`, action `start`. -/
  | start
  /-- `managed.ha.failover`, phase `drain`. -/
  | drain
  /-- `managed.ha.failover`, phase `undrain`. -/
  | undrain
  /-- `managed.ha.failover`, phase `recover`. -/
  | recover
  /-- `managed.promote`. -/
  | promote (resume : Bool)
  /-- `managed.ingress.reconcile`. -/
  | ingress
  deriving DecidableEq

/-- A promote of the target: `managed.promote`, or `managed.ha.failover` with phase `recover`. -/
def CommandKind.promotes : CommandKind → Bool
  | .recover => true
  | .promote _ => true
  | _ => false

structure CommandSpec where
  serverId : ServerId
  kind : CommandKind
  managedId : ManagedId
  sourceMemberId : MemberId
  targetMemberId : MemberId
  /-- `metadata.recoveryId`. -/
  recoveryId : Option RecoveryId := none
  /-- The recovery whose restart the command is part of. The source does not store it: it is here to
  tell the commands of `finishAbortRestart` from others. -/
  restartOf : Option RecoveryId := none

structure CommandRecord where
  spec : CommandSpec
  status : CommandStatus
  sentAt : Option Time

inductive MemberRole where
  | primary
  | replica
  deriving DecidableEq

structure ManagedMemberRow where
  id : MemberId
  managedId : ManagedId
  serverId : ServerId
  role : MemberRole

/-- `managed.status`, as far as a recovery stamps it. -/
inductive ManagedStatus where
  | applying
  | ready
  | failed
  deriving DecidableEq

structure Db where
  /-- The row with the id `n` is the `n`-th. -/
  recoveries : List RecoveryRecord
  commands : List CommandRecord
  /-- By ordinal. -/
  members : List ManagedMemberRow
  status : ManagedId → Option ManagedStatus
  /-- The members whose data has to be copied again. -/
  needsResync : List MemberId

structure InsertRecoveryParams where
  managedId : ManagedId
  kind : RecoveryKind
  sourcePrimaryMemberId : MemberId
  targetMemberId : Option MemberId
  state : RecoveryState
  metadata : RecoveryMetadata

structure FenceStepState where
  id : CommandId
  status : CommandStatus
  sentAt : Option Time
  phase : Option FencePhase

/-- What the ingress fan-out has queued. -/
structure ManagedIngressFanOutOutcome where
  requiredServerIds : List ServerId
  commandIds : List CommandId

/-! ## Operations -/

inductive Op where
  | now
  | findRecoveryById (recoveryId : RecoveryId)
  | findInFlightRecovery (managedId : ManagedId)
  /-- The second query of `findLatestRecovery`. -/
  | newestRecovery (managedId : ManagedId)
  | findLatestAcceptedAutomaticFailover (managedId : ManagedId)
  | insertRecoveryIfFree (params : InsertRecoveryParams)
  | updateRecovery (recoveryId : RecoveryId) (patch : RecoveryPatch)
  | updateRecoveryLocked (recoveryId : RecoveryId) (decision : Decision)
  | listFencingRecoveries
  | listPendingAbortRestarts
  | listInFlightRecoveries
  | listRecentRecoveries (managedId : ManagedId)
  | liveCommandIds (ids : List CommandId)
  | loadFenceStepStates (ids : List CommandId)
  | loadGateCommands (ids : List CommandId)
  | createCommandRecord (spec : CommandSpec)
  | enqueue (commandId : CommandId)
  | transitionCommand (commandId : CommandId) (status : CommandStatus)
  /-- The result of a command is stored, and the command is read for what follows from it. -/
  | reported (commandId : CommandId) (status : CommandStatus)
  | isServerConnected (serverId : ServerId)
  | detectHaPresent
  | managedEngineOf (managedId : ManagedId)
  | listManagedMembers (managedId : ManagedId)
  /-- `applyManagedRoleFlip`. -/
  | flipRoles (managedId : ManagedId) (promotedMemberId demotedMemberId : MemberId)
  | fanOutAfterPromote (managedId : ManagedId)
  | loadServerNames (serverIds : List ServerId)
  | stampManaged (managedId : ManagedId) (status : ManagedStatus)
  | stampManagedFailedIfApplying (managedId : ManagedId)
  | markNeedsResync (memberId : MemberId)

@[reducible] def Ans : Op → Type
  | .now => Time
  | .findRecoveryById _ => Option RecoveryRecord
  | .findInFlightRecovery _ => Option RecoveryRecord
  | .newestRecovery _ => Option RecoveryRecord
  | .findLatestAcceptedAutomaticFailover _ => Option RecoveryRecord
  | .insertRecoveryIfFree _ => Option RecoveryRecord
  | .updateRecovery _ _ => Option RecoveryRecord
  | .updateRecoveryLocked _ _ => Option RecoveryRecord
  | .listFencingRecoveries => List RecoveryRecord
  | .listPendingAbortRestarts => List RecoveryRecord
  | .listInFlightRecoveries => List RecoveryRecord
  | .listRecentRecoveries _ => List RecoveryRecord
  | .liveCommandIds _ => List CommandId
  | .loadFenceStepStates _ => List FenceStepState
  | .loadGateCommands _ => List IngressGateCommand
  | .createCommandRecord _ => CommandId
  | .enqueue _ => Bool
  | .transitionCommand _ _ => Unit
  | .reported _ _ => Option CommandRecord
  | .isServerConnected _ => Bool
  | .detectHaPresent => Bool
  | .managedEngineOf _ => ManagedEngineCode
  | .listManagedMembers _ => List ManagedMemberRow
  | .flipRoles _ _ _ => Unit
  | .fanOutAfterPromote _ => Option ManagedIngressFanOutOutcome
  | .loadServerNames _ => List String
  | .stampManaged _ _ => Unit
  | .stampManagedFailedIfApplying _ => Unit
  | .markNeedsResync _ => Unit

structure Env where
  now : Time := 0
  connected : Bool := true
  haPresent : Bool := false
  /-- The queue takes the message. -/
  queued : Bool := true
  engine : ManagedEngineCode := .postgres
  /-- The rows that a query returns, in this order. -/
  order : List ℕ := []
  fanOut : Option ManagedIngressFanOutOutcome := none
  names : List String := []

abbrev Proc := Prog Op Ans

/-- The program that makes one statement. -/
abbrev ask (o : Op) : Proc (Ans o) := Prog.call o

/-! ## Statements -/

def CommandKind.fencePhase : CommandKind → Option FencePhase
  | .stop => some .stop
  | .start => some .stop
  | .drain => some .drain
  | _ => none

/-- The rows of a table that a condition selects, in the order that is asked for. -/
def Db.select (db : Db) (order : List ℕ) (p : RecoveryRecord → Bool) : List RecoveryRecord :=
  order.filterMap fun id => (db.recoveries[id]?).filter p

/-- The first of the rows in a descending order of their start; where it is a tie, the environment
says which. -/
def Db.newest (db : Db) (order : List ℕ) (p : RecoveryRecord → Bool) : Option (Option RecoveryRecord) :=
  let rows := db.recoveries.filter p
  match rows.filter fun row => rows.all fun other => decide (other.startedAt ≤ row.startedAt) with
  | [] => some none
  | top => (top[order.headD 0]?).map some

/-- Rows of a cluster that are not terminal. -/
def inFlight (managedId : ManagedId) (row : RecoveryRecord) : Bool :=
  row.managedId == managedId && !row.state.terminal

/-- `insertRecoveryIfFree`: the partial unique index takes one row that is not terminal for a
cluster. -/
def Db.insert (db : Db) (params : InsertRecoveryParams) (now : Time) : Option RecoveryRecord × Db :=
  if !params.state.terminal && db.recoveries.any (inFlight params.managedId) then (none, db)
  else
    let row : RecoveryRecord := {
      id := db.recoveries.length
      managedId := params.managedId
      kind := params.kind
      sourcePrimaryMemberId := params.sourcePrimaryMemberId
      targetMemberId := params.targetMemberId
      state := params.state
      startedAt := now
      updatedAt := now
      metadata := params.metadata }
    (some row, { db with recoveries := db.recoveries ++ [row] })

/-- The update of a row, with the row that it returns. It throws where it would give the cluster a
second row that is not terminal. -/
def Db.update (db : Db) (id : RecoveryId) (patch : RecoveryPatch) (now : Time) :
    Option (Option RecoveryRecord × Db) :=
  match db.recoveries[id]? with
  | none => some (none, db)
  | some row =>
    if !(row.patch patch now).state.terminal &&
        db.recoveries.any (fun other => other.id != id && inFlight row.managedId other) then none
    else some (some (row.patch patch now),
      { db with recoveries := db.recoveries.set id (row.patch patch now) })

/-- What a decision makes of a row, or `none`. -/
def Decision.apply (decision : Decision) (row : RecoveryRecord) (now : Time) : Option RecoveryPatch :=
  if !decision.includeTerminal && row.state.terminal then none else decision.decide row now

/-- `updateRecoveryLocked`. -/
def Db.updateLocked (db : Db) (id : RecoveryId) (decision : Decision) (now : Time) :
    Option (Option RecoveryRecord × Db) :=
  match (db.recoveries[id]?).bind (decision.apply · now) with
  | none => some (none, db)
  | some patch => db.update id patch now

/-- `transitionCommand`: a command that is over does not come back. -/
def CommandRecord.transition (status : CommandStatus) (now : Time) (command : CommandRecord) :
    CommandRecord :=
  if status.terminal || !command.status.terminal then { command with
    status := status
    sentAt := if status = .sent then some now else command.sentAt }
  else command

def fenceStepState (db : Db) (id : CommandId) : Option FenceStepState :=
  (db.commands[id]?).map fun command =>
    ⟨id, command.status, command.sentAt, command.spec.kind.fencePhase⟩

def flipRole (managedId : ManagedId) (promotedMemberId demotedMemberId : MemberId) (row : ManagedMemberRow) :
    ManagedMemberRow :=
  if row.managedId ≠ managedId then row
  else if row.id = promotedMemberId then { row with role := .primary }
  else if row.id = demotedMemberId then { row with role := .replica }
  else row

def exec (e : Env) : (o : Op) → Db → Option (Ans o × Db)
  | .now, db => some (e.now, db)
  | .findRecoveryById id, db => some (db.recoveries[id]?, db)
  | .findInFlightRecovery managedId, db =>
    (db.newest e.order (inFlight managedId)).map fun row => (row, db)
  | .newestRecovery managedId, db =>
    (db.newest e.order fun row => row.managedId == managedId).map fun row => (row, db)
  | .findLatestAcceptedAutomaticFailover managedId, db =>
    (db.newest e.order fun row => row.managedId == managedId && row.kind == .automaticFailover &&
      row.targetMemberId.isSome).map fun row => (row, db)
  | .insertRecoveryIfFree params, db => some (db.insert params e.now)
  | .updateRecovery id patch, db => db.update id patch e.now
  | .updateRecoveryLocked id decision, db => db.updateLocked id decision e.now
  | .listFencingRecoveries, db => some (db.select e.order fun row => row.state == .fencing, db)
  | .listPendingAbortRestarts, db => some (db.select e.order fun row => row.state == .blocked &&
      decide (0 < (row.metadata.abortRestartTodo.getD []).length), db)
  | .listInFlightRecoveries, db => some (db.select e.order fun row => !row.state.terminal, db)
  | .listRecentRecoveries managedId, db =>
    some (db.select e.order fun row => row.managedId == managedId, db)
  | .liveCommandIds ids, db => some (ids.filter fun id =>
      (db.commands[id]?).any fun command => !command.status.terminal, db)
  | .loadFenceStepStates ids, db => some (ids.filterMap (fenceStepState db), db)
  | .loadGateCommands ids, db => some (ids.filterMap fun id =>
      (db.commands[id]?).map fun command => ⟨id, command.spec.serverId, command.status⟩, db)
  | .createCommandRecord spec, db =>
    some (db.commands.length, { db with commands := db.commands ++ [⟨spec, .queued, none⟩] })
  | .enqueue _, db => some (e.queued, db)
  | .transitionCommand id status, db =>
    some ((), { db with commands := db.commands.modify id (CommandRecord.transition status e.now) })
  | .reported id status, db => some (db.commands[id]?, { db with
      commands := db.commands.modify id (CommandRecord.transition status e.now) })
  | .isServerConnected _, db => some (e.connected, db)
  | .detectHaPresent, db => some (e.haPresent, db)
  | .managedEngineOf _, db => some (e.engine, db)
  | .listManagedMembers managedId, db => some (db.members.filter (·.managedId == managedId), db)
  | .flipRoles managedId promoted demoted, db =>
    some ((), { db with members := db.members.map (flipRole managedId promoted demoted) })
  | .fanOutAfterPromote _, db => some (e.fanOut, db)
  | .loadServerNames _, db => some (e.names, db)
  | .stampManaged managedId status, db =>
    some ((), { db with status := Function.update db.status managedId (some status) })
  | .stampManagedFailedIfApplying managedId, db => some ((), { db with
      status := Function.update db.status managedId
        (if db.status managedId = some .applying then some .failed else db.status managedId) })
  | .markNeedsResync memberId, db => some ((), { db with needsResync := memberId :: db.needsResync })

/-- The death of a process leaves the tables as they are. -/
def machine : Machine Op Ans Db Env where
  exec _ := exec
  drop _ db := db

/-- No recovery has begun. -/
def Db.fresh (members : List ManagedMemberRow) : Db := ⟨[], [], members, fun _ => none, []⟩

end TurboPanel.Recovery
