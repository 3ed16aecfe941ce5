import TurboPanel.Commands.Records

/-!
# The calls on commands

The consumer takes a command from the queue, claims the turn of its server, sends it and waits for
what the server reports. The sweep gives up on commands that nobody reports on any more. A command
may be cancelled, and a deploy that was given up on is put right when its server reports a success
after all. The frames of the daemon and its signs of life are kept on the row.

The dispatch payloads, the transcripts and what follows from an outcome are not on the row of the
command, and are left out. So are the columns that no call decides by: the texts and codes of the
errors, and the result.
-/

namespace TurboPanel.CommandRecords

open Interleaving
open Interleaving.Prog (call foldEach)

abbrev Proc := Prog Op Ans

abbrev ask (o : Op) : Proc (Ans o) := call o

/-! ## Transitions -/

/-- Settle the stored plan of a command that just ended. -/
def finalizeStoredCommandProgress (id : String) (status : CommandStatus)
    (progress : Option StoredCommandProgress) (at_ : Stamp) : Proc Unit :=
  match progress with
  | none => return ()
  | some stored =>
    match finalizeCommandProgress stored status at_ with
    | none => return ()
    | some finalized => do
      let written ← ask (.settleProgress id stored.updatedAt.text finalized at_.time)
      if written then return ()
      else do
        let _ ← ask (.storedProgressOf id)
        return ()

def transitionCommand (id : String) (patch : CommandTransitionPatch) : Proc (Option CommandRow) := do
  let now ← ask .clock
  let row? ← ask (.transitionCommand id patch now.time)
  match row? with
  | none => return none
  | some row =>
    if patch.status.terminal then do
      finalizeStoredCommandProgress id patch.status row.progress now
      return some row
    else return some row

def cancelCommandWhen (id : String) (when_ : CancelWhen) : Proc Bool := do
  let now ← ask .clock
  let row? ← ask (.cancelCommandWhen id when_ now.time)
  match row? with
  | none => return false
  | some row => do
    finalizeStoredCommandProgress id .cancelled row.progress now
    return true

/-- Cancel a command that nothing has picked up yet. -/
def cancelQueuedCommand (id : String) : Proc Bool := cancelCommandWhen id .queued

/-- Cancel a command that has not finished yet. -/
def cancelNonTerminalCommand (id : String) : Proc Bool := cancelCommandWhen id .nonTerminal

/-- Give a command up with a status. -/
def giveUp (id : String) (status : CommandStatus) : Proc Unit := do
  let _ ← transitionCommand id { status := status }
  return ()

/-! ## The turn of a server -/

inductive ServerTurn where
  | claimed
  | busy
  | finished
  deriving DecidableEq

/-- The transaction that looks at the server under the lock of its row, and claims when it is free.
-/
def claimUnderLock (input : ServerTurnInput) : Proc ServerTurn := do
  let txNow ← ask .beginTurn
  let locked ← ask (.lockServer input.serverId)
  if locked then do
    let blocked ← ask (.turnBlocked txNow input)
    if blocked then do
      ask (.endTurn input.serverId)
      return .busy
    else do
      let now ← ask .clock
      let claimed ← ask (.commitClaim input now.time)
      return if claimed then .claimed else .finished
  else return .busy

/-- Take the turn of the server for a command, or say why not. -/
def claimServerTurn (input : ServerTurnInput) : Proc ServerTurn :=
  if input.type.quick then do
    let now ← ask .clock
    let claimed ← ask (.markClaimed input now.time)
    return if claimed then .claimed else .finished
  else do
    let now ← ask .clock
    let blocked ← ask (.blockedAndStamped input now.time)
    if blocked then return .busy
    else do
      let turn ← claimUnderLock input
      if turn = .busy then do
        let now ← ask .clock
        ask (.stampWaiting input.commandId now.time)
        return .busy
      else return turn

/-! ## The consumer -/

structure CommandEnvelope where
  commandId : String
  serverId : String

/-- A command past its valid time is not sent. -/
def commandIsExpired (expiresAt : Option ℤ) (nowMs : ℤ) : Bool :=
  expiresAt.any fun expiresAt => expiresAt < nowMs

/-- The row of the command, when it is still open, not expired and for the server of the envelope.
-/
def loadOpenCommand (envelope : CommandEnvelope) : Proc (Option CommandRow) := do
  let record? ← ask (.getCommandRecord envelope.commandId)
  match record? with
  | none => return none
  | some record =>
    if record.status.terminal then return none
    else do
      let now ← ask .clock
      if commandIsExpired record.expiresAt now.time then do
        let gone ← if record.key.type = .managedApply then ask (.clusterGone record.key.id) else pure false
        giveUp record.key.id (if gone then .failed else .timedOut)
        return none
      else if record.key.serverId ≠ envelope.serverId then return none
      else return some record

/-- Read the dispatch payload; a missing one fails the command. -/
def attachDispatchPayload (record : CommandRow) : Proc Bool := do
  let found ← ask (.hasDispatchPayload record.key.id)
  if found then return true
  else do
    giveUp record.key.id .failed
    return false

/-- What the server reported of a command that was sent. -/
def applyPendingOutcome (record : CommandRow) (pending : PendingRequest) : Proc Unit :=
  let times : CommandTransitionPatch :=
    { status := .succeeded
      ackedAt := pending.ackAt <|> pending.finishedAt
      startedAt := pending.ackAt <|> pending.finishedAt
      finishedAt := pending.finishedAt }
  match pending.status with
  | .done => do
    let _ ← transitionCommand record.key.id times
    return ()
  | .failed =>
    if record.key.type = .managedPromote ∧ pending.alreadyWritable = true then do
      let _ ← transitionCommand record.key.id times
      return ()
    else
      giveUp record.key.id
        (if record.key.type = .environmentDeploy ∧ pending.cancelled = true then .cancelled else .failed)
  | .expired =>
    if record.key.type = .environmentDeploy then do
      let _ ← ask (.getCommandRecord record.key.id)
      giveUp record.key.id .timedOut
    else giveUp record.key.id .timedOut
  | _ => giveUp record.key.id .failed

/-- Wait for what the server reports; a wait that ended without a result gives the command up,
unless it was handed on or someone else finished the command. -/
def awaitCommandOutcome (record : CommandRow) : Proc Unit := do
  let result ← ask (.awaitOutcome record.key.id)
  match result with
  | .pending pending => applyPendingOutcome record pending
  | .handedOff => return ()
  | .settled => return ()
  | .timedOut => giveUp record.key.id .timedOut

/-- The command was sent before. -/
def wasSent (record : CommandRow) : Bool :=
  record.sentAt.isSome && (record.status = .sent || record.status = .acked || record.status = .running)

inductive ResumeResult where
  | done
  /-- The payload was read, and the command is sent again. -/
  | loaded
  | notSent
  deriving DecidableEq

/-- Wait again for a command that was sent. One whose request is gone is sent again, but a deploy is
given up: it may be running on the server. -/
def resumeIfSent (record : CommandRow) : Proc ResumeResult :=
  if wasSent record then do
    let found ← attachDispatchPayload record
    if found then do
      let request ← ask (.getRequest record.key.id)
      if request = none ∨ request = some .expired then
        if record.key.type = .environmentDeploy then do
          giveUp record.key.id .timedOut
          return .done
        else return .loaded
      else do
        awaitCommandOutcome record
        return .done
    else return .done
  else return .notSent

def turnInput (record : CommandRow) (envelope : CommandEnvelope) : ServerTurnInput where
  commandId := record.key.id
  serverId := envelope.serverId
  type := record.key.type
  attempts := record.attempts
  status := record.status
  dispatchStartedAt := record.dispatchStartedAt

/-- A re-seed that was overtaken by a later switchover is refused before it is sent. -/
def failSupersededReseed (record : CommandRow) : Proc Bool :=
  if record.key.type = .managedApply then do
    let superseded ← ask (.reseedSuperseded record.key.id)
    if superseded then do
      giveUp record.key.id .failed
      return true
    else return false
  else return false

/-- Send a command to its server, when that is online, and wait for the result. -/
def enqueueAndAwaitOutcome (record : CommandRow) : Proc Unit := do
  let online ← ask (.serverOnline record.key.serverId)
  if online then do
    ask (.enqueueRequest record.key.id)
    let _ ← transitionCommand record.key.id { status := .sent }
    awaitCommandOutcome record
  else giveUp record.key.id .failed

/-- Send a command whose turn it is; its payload may have been read before. -/
def dispatchCommand (record : CommandRow) (loaded : Bool) : Proc Unit := do
  let refused ← failSupersededReseed record
  if refused then return ()
  else if loaded then enqueueAndAwaitOutcome record
  else do
    let found ← attachDispatchPayload record
    if found then enqueueAndAwaitOutcome record else return ()

/-- One delivery of a command. -/
def processCommandEnvelope (envelope : CommandEnvelope) : Proc Unit := do
  let open? ← loadOpenCommand envelope
  match open? with
  | none => return ()
  | some record => do
    let resumed ← resumeIfSent record
    if resumed = .done then return ()
    else do
      let turn ← claimServerTurn (turnInput record envelope)
      if turn = .claimed then dispatchCommand record (resumed = .loaded) else return ()

/-- The queue gave a command up: it is failed, unless it was sent. -/
def failCommandAfterRetries (envelope : CommandEnvelope) : Proc Unit := do
  let open? ← loadOpenCommand envelope
  match open? with
  | none => return ()
  | some record => do
    let found ← attachDispatchPayload record
    if found then
      if record.sentAt.isSome then return ()
      else do
        let taken ← ask (.expireRequest record.key.id)
        if taken then giveUp record.key.id .failed else return ()
    else return ()

/-! ## The sweep -/

/-- `COMMAND_TIMEOUT_MS`. -/
def commandTimeoutMs : CommandType → ℤ
  | .daemonPing => 30000
  | .serverHostnameSet => 120000
  | .serverNtpSet => 300000
  | .serverReboot => 120000
  | .serverTimezoneSet => 300000
  | .serverFabricReconcile => 300000
  | .serverTlsTrustReconcile => 300000
  | .serverPrincipalsReconcile => 120000
  | .serverFirewallReconcile => 120000
  | .serverFirewallConfirm => 60000
  | .serverBackupsReconcile => 120000
  | .serverBackupsTestTarget => 120000
  | .serverFoldersRemove => 600000
  | .serverTunnelRoutes => 120000
  | .serverTunnelConnectors => 300000
  | .serverTunnelStatus => 30000
  | .environmentDeploy => 600000
  | .environmentLifecycle => 120000
  | .environmentStop => 120000
  | .managedApply => 600000
  | .managedLifecycle => 120000
  | .managedDestroy => 300000
  | .managedBackup => 1800000
  | .managedRestore => 1800000
  | .managedPromote => 600000
  | .managedIngressReconcile => 300000
  | .managedHaReconcile => 300000
  | .managedHaFailover => 600000
  | .storageBackup => 1800000
  | .storageRestore => 1800000
  | .systemReconcile => 300000

/-- `DEPLOY_RUN_CAP_MS`. -/
def deployRunCapMs : ℤ := 600000

/-- `DEPLOY_RECONCILE_WINDOW_MS`. -/
def deployReconcileWindowMs : ℤ := 6 * 60 * 60000

/-- `DEPLOY_QUEUE_LIMIT_MS`. -/
def deployQueueLimitMs : ℤ := 6 * 60 * 60000

/-- `DEPLOY_WAIT_LIMIT_MS`. -/
def deployWaitLimitMs : ℤ := deployQueueLimitMs + 240 * 60000 + deployReconcileWindowMs

/-- Since when a command that was not started waits: a check of its turn stamps the row. -/
def waitingSinceMs (row : CommandRow) : ℤ :=
  let queued := row.queuedAt.getD row.key.createdAt
  if row.status = .queued then max queued row.updatedAt else queued

/-- Since when a deploy that was delivered runs; one whose server says nothing runs once the grace
is over. -/
def deployRunState (row : CommandRow) (sentAt nowMs : ℤ) : Option ℤ :=
  match (row.progress.map fun stored => stored.runningSince : Option RunningSince) with
  | some (.since ms) => some ms
  | some .waiting => none
  | _ => if sentAt + deploySignalGraceMs ≤ nowMs then some sentAt else none

/-- A deploy is stale when the clock that it is on has run out. -/
def isStaleDeploy (row : CommandRow) (recovery : Bool) (runCapMs nowMs graceMs : ℤ) : Bool :=
  let queueLimit := deployQueueLimitMs + graceMs
  let waitingSince :=
    (row.sentAt <|> row.dispatchStartedAt <|> row.queuedAt).getD row.key.createdAt
  if row.status = .queued ∨ row.status = .dispatching then
    waitingSince + (if row.enqueued then queueLimit else commandTimeoutMs row.key.type + graceMs) ≤ nowMs
  else
    match deployRunState row waitingSince nowMs with
    | some since =>
      if recovery then
        (nowMs - row.updatedAt < deployRunSilenceMs && since + runCapMs + graceMs ≤ nowMs) ||
          row.updatedAt + deployReconcileWindowMs + graceMs ≤ nowMs ||
            waitingSince + deployWaitLimitMs + graceMs ≤ nowMs
      else since + deployRunCapMs + graceMs ≤ nowMs
    | none => waitingSince + queueLimit ≤ nowMs

/-- The row is stale when its latest lifecycle time is older than the budget of its type. -/
def isStaleCommand (row : CommandRow) (recovery : Bool) (runCapMs nowMs graceMs : ℤ) : Bool :=
  if row.key.type = .environmentDeploy then isStaleDeploy row recovery runCapMs nowMs graceMs
  else
    (row.startedAt <|> row.ackedAt <|> row.sentAt <|> row.dispatchStartedAt).getD (waitingSinceMs row) +
      commandTimeoutMs row.key.type + graceMs ≤ nowMs

/-- Look at one candidate of a sweep, and give it up when it is stale. -/
def sweepCandidate (nowMs graceMs : ℤ) (row : CommandRow) : Proc Unit := do
  let deploy := row.key.type = .environmentDeploy
  let recovery ← if deploy then ask (.serverHasCommandRecovery row.key.serverId) else pure false
  let runCapMs ← if deploy then ask (.loadDeployRunCapMs row.key.serverId) else pure 0
  if isStaleCommand row recovery runCapMs nowMs graceMs then giveUp row.key.id .timedOut else return ()

def sweepStaleCommands (limit : ℕ) (nowMs graceMs : ℤ) : Proc Unit := do
  let candidates ← ask (.selectCandidates (nowMs - graceMs) (min (max limit 1) 200))
  foldEach (fun _ row => sweepCandidate nowMs graceMs row) candidates ()

/-! ## Late corrections -/

/-- The deploy was given up on, and its server says that it succeeded. -/
def correctTimedOutDeploy (id : String) (outcome : LateOutcome) : Proc Unit := do
  let now ← ask .clock
  let full ← ask (.flipTimedOut id (some outcome) now.time)
  let flipped ← if full = .refused then ask (.flipTimedOut id none now.time) else pure full
  match flipped with
  | .flipped progress => ask (.correctProgress id (progress.map succeededProgress))
  | _ => return ()

/-- Handle a final outcome that the server reports again. -/
def settleReportedOutcome (serverId id : String) (ok : Bool) (outcome : LateOutcome) : Proc Unit := do
  let record? ← ask (.getCommandRecord id)
  match record? with
  | none => return ()
  | some record =>
    if record.key.serverId = serverId ∧ record.status = .timedOut ∧
        record.key.type = .environmentDeploy ∧ ok = true then correctTimedOutDeploy id outcome
    else return ()

/-! ## Progress -/

/-- Copy the notes of a late frame to the plan of a command that already ended. -/
def keepLateStepNotes (serverId id : String) (progress : CommandProgress) (receivedAt : Stamp) :
    ℕ → Proc Unit
  | 0 => return ()
  | attempts + 1 => do
    let row? ← ask (.readProgress id serverId)
    match row? with
    | none => return ()
    | some row =>
      if row.status.terminal then
        match row.progress with
        | none => return ()
        | some stored =>
          match withLateNotes stored.steps progress.steps with
          | none => return ()
          | some steps => do
            let noted := { stored with steps := steps, updatedAt := receivedAt }
            let merged := (finalizeCommandProgress noted row.status receivedAt).getD noted
            let written ← ask (.storeLateNotes id serverId stored.updatedAt.text merged)
            if written then return () else keepLateStepNotes serverId id progress receivedAt attempts
      else return ()

/-- Store a frame of the daemon. -/
def recordCommandProgress (serverId id : String) (frame : CommandProgress) : Proc Unit := do
  let receivedAt ← ask .clock
  let previous ← match frame.runningSince with
    | .since _ => ask (.readProgress id serverId)
    | _ => pure none
  let before := previous.bind fun row => row.progress.map fun stored => stored.runningSince
  let lastHeardMs := (previous.map CommandRow.updatedAt).getD receivedAt.time
  let progress :=
    { frame with runningSince := receivedRunningSince frame before lastHeardMs receivedAt.time }
  let stored ← ask (.storeFrame id serverId progress receivedAt.time)
  if stored then return () else keepLateStepNotes serverId id progress receivedAt lateNoteAttempts

/-- The server says that it still carries the command. -/
def noteCommandAlive (serverId id : String) : Proc Unit := do
  let receivedAt ← ask .clock
  let row? ← ask (.readAlive id serverId)
  match row? with
  | none => return ()
  | some row => do
    let progress := row.progress.map fun stored => aliveProgress stored row.updatedAt receivedAt.time
    let _ ← ask (.storeAlive id serverId progress receivedAt.time)
    return ()

/-- The control plane has not heard from the server for a while. -/
def markCommandContactLost (id : String) (lastHeardAt : ℤ) : Proc Unit := do
  let _ ← ask (.markContactLost id lastHeardAt)
  return ()

/-! ## Calls -/

/-- A command as it is recorded, before its message is on the queue. -/
def newCommand (key : CommandKey) (expiresAt : Option ℤ) : CommandRow where
  key := key
  status := .queued
  attempts := 0
  updatedAt := key.createdAt
  queuedAt := some key.createdAt
  dispatchStartedAt := none
  sentAt := none
  ackedAt := none
  startedAt := none
  finishedAt := none
  expiresAt := expiresAt
  enqueued := false
  progress := none

inductive Call where
  | create (key : CommandKey) (expiresAt : Option ℤ)
  | deliver (envelope : CommandEnvelope)
  | giveUp (envelope : CommandEnvelope)
  | sweep (limit : ℕ) (nowMs graceMs : ℤ)
  | cancelQueued (id : String)
  | cancelNonTerminal (id : String)
  | settle (serverId id : String) (ok : Bool) (outcome : LateOutcome)
  | progress (serverId id : String) (frame : CommandProgress)
  | alive (serverId id : String)
  | contactLost (id : String) (lastHeardAt : ℤ)

def body : Call → Proc Unit
  | .create key expiresAt => ask (.createCommand (newCommand key expiresAt))
  | .deliver envelope => processCommandEnvelope envelope
  | .giveUp envelope => failCommandAfterRetries envelope
  | .sweep limit nowMs graceMs => sweepStaleCommands limit nowMs graceMs
  | .cancelQueued id => do
    let _ ← cancelQueuedCommand id
    return ()
  | .cancelNonTerminal id => do
    let _ ← cancelNonTerminalCommand id
    return ()
  | .settle serverId id ok outcome => settleReportedOutcome serverId id ok outcome
  | .progress serverId id frame => recordCommandProgress serverId id frame
  | .alive serverId id => noteCommandAlive serverId id
  | .contactLost id lastHeardAt => markCommandContactLost id lastHeardAt

end TurboPanel.CommandRecords
