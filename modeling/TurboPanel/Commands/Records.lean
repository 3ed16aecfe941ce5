import TurboPanel.Commands.StepPlan
import TurboPanel.Data.Interleaving

/-!
# Commands and the statements on them

A command is a row, and everything that happens to it is a statement with a condition: the
transitions of the consumer and of the sweep, cancels, late corrections, the frames of the daemon,
and the claim of the turn of its server. The claim is made in a transaction that holds the row of
the server, so that one call at a time looks whether the server is free and claims.

Each statement is atomic. The claim is one with the commit of its transaction: nobody sees it
before, and nobody changes the row in between. The queue, the daemon and the other tables answer
through the environment.
-/

namespace TurboPanel.CommandRecords

open List Interleaving

/-! ## Commands -/

inductive CommandType where
  | daemonPing
  | serverHostnameSet
  | serverNtpSet
  | serverReboot
  | serverTimezoneSet
  | serverFabricReconcile
  | serverTlsTrustReconcile
  | serverPrincipalsReconcile
  | serverFirewallReconcile
  | serverFirewallConfirm
  | serverBackupsReconcile
  | serverBackupsTestTarget
  | serverFoldersRemove
  | serverTunnelRoutes
  | serverTunnelConnectors
  | serverTunnelStatus
  | environmentDeploy
  | environmentLifecycle
  | environmentStop
  | managedApply
  | managedLifecycle
  | managedDestroy
  | managedBackup
  | managedRestore
  | managedPromote
  | managedIngressReconcile
  | managedHaReconcile
  | managedHaFailover
  | storageBackup
  | storageRestore
  | systemReconcile
  deriving DecidableEq

/-- `QUICK_COMMAND_TYPES`: they never wait for the turn of their server and never hold it. -/
def CommandType.quick : CommandType → Bool
  | .daemonPing => true
  | .serverFirewallConfirm => true
  | .serverTunnelStatus => true
  | _ => false

/-- The columns that no statement below writes. -/
structure CommandKey where
  id : String
  serverId : String
  type : CommandType
  createdAt : ℤ
  deriving DecidableEq

structure CommandRow where
  key : CommandKey
  status : CommandStatus
  attempts : ℕ
  updatedAt : ℤ
  queuedAt : Option ℤ
  dispatchStartedAt : Option ℤ
  sentAt : Option ℤ
  ackedAt : Option ℤ
  startedAt : Option ℤ
  finishedAt : Option ℤ
  expiresAt : Option ℤ
  /-- The metadata say that the message reached the queue. -/
  enqueued : Bool
  progress : Option StoredCommandProgress
  deriving DecidableEq

structure CommandStore where
  rows : List CommandRow
  ids_nodup : (rows.map fun row => row.key.id).Nodup
  /-- The thread whose transaction holds the row of a server. -/
  lock : String → Option ℕ
  /-- The clock of the database. -/
  clock : ℤ

/-! ## The turn of a server -/

/-- `DEPLOY_SIGNAL_GRACE_MS`. -/
def deploySignalGraceMs : ℤ := 2 * 60000

/-- `OLDER_QUEUED_WAIT_MS`. -/
def olderQueuedWaitMs : ℤ := 15 * 60000

/-- `WAITING_STAMP_INTERVAL_MS`. -/
def waitingStampIntervalMs : ℤ := 30000

/-- `WAITING_EXPIRY_FLOOR_MS`. -/
def waitingExpiryFloorMs : ℤ := (30 + 60) * 1000

/-- What the consumer read of the command, so that a claim only wins against that row. -/
structure ServerTurnInput where
  commandId : String
  serverId : String
  type : CommandType
  attempts : ℕ
  status : CommandStatus
  dispatchStartedAt : Option ℤ

/-- The statuses in which a command is under way. -/
def CommandStatus.underWay : CommandStatus → Bool
  | .dispatching => true
  | .sent => true
  | .acked => true
  | .running => true
  | _ => false

/-- The plan on the row says something of the run. -/
def CommandRow.reports (row : CommandRow) : Bool :=
  row.progress.any fun progress => progress.runningSince ≠ .absent

/-- The command was sent long enough ago. A row that was sent has its time; without one the test is
null in SQL, and the row blocks nobody. -/
def CommandRow.sentBefore (now : ℤ) (row : CommandRow) : Bool :=
  row.sentAt.any fun sentAt => sentAt ≤ now - deploySignalGraceMs

/-- A command that holds the turn of its server: one under way, and not a deploy that the server
took over. -/
def CommandRow.holdsTurn (now : ℤ) (row : CommandRow) : Bool :=
  row.status.underWay && !(row.key.type = .environmentDeploy && row.status ≠ .dispatching &&
    (row.reports || row.sentBefore now))

/-- The order of the commands of a server. -/
def CommandKey.before (key key' : CommandKey) : Bool :=
  key.createdAt < key'.createdAt || (key.createdAt = key'.createdAt && key.id < key'.id)

namespace CommandStore

def row? (s : CommandStore) (id : String) : Option CommandRow :=
  s.rows.find? fun row => row.key.id = id

/-- Another command of the server that holds the turn or comes before this one. -/
def blockingCommandExists (s : CommandStore) (now : ℤ) (input : ServerTurnInput) : Bool :=
  s.rows.any fun other =>
    other.key.serverId = input.serverId && other.key.id ≠ input.commandId && !other.key.type.quick &&
      (other.holdsTurn now ||
        (other.status = .queued && now - olderQueuedWaitMs < other.updatedAt &&
          (s.row? input.commandId).any fun mine => other.key.before mine.key))

end CommandStore

/-! ## Patches -/

/-- What a transition sets; a time that is not given is left, but for that of the status. -/
structure CommandTransitionPatch where
  status : CommandStatus
  attempts : Option ℕ := none
  queuedAt : Option ℤ := none
  dispatchStartedAt : Option ℤ := none
  sentAt : Option ℤ := none
  ackedAt : Option ℤ := none
  startedAt : Option ℤ := none
  finishedAt : Option ℤ := none

/-- A lifecycle time after a transition: the one that is given, or else now when it is that of the
status. -/
def lifecycleTimestamp (given : Option ℤ) (ofStatus : Bool) (now : ℤ) (stored : Option ℤ) : Option ℤ :=
  given <|> if ofStatus then some now else stored

def CommandTransitionPatch.apply (patch : CommandTransitionPatch) (now : ℤ) (row : CommandRow) :
    CommandRow :=
  { row with
    status := patch.status
    updatedAt := now
    attempts := patch.attempts.getD row.attempts
    queuedAt := lifecycleTimestamp patch.queuedAt (patch.status = .queued) now row.queuedAt
    dispatchStartedAt :=
      lifecycleTimestamp patch.dispatchStartedAt (patch.status = .dispatching) now row.dispatchStartedAt
    sentAt := lifecycleTimestamp patch.sentAt (patch.status = .sent) now row.sentAt
    ackedAt := lifecycleTimestamp patch.ackedAt (patch.status = .acked) now row.ackedAt
    startedAt := lifecycleTimestamp patch.startedAt (patch.status = .running) now row.startedAt
    finishedAt := lifecycleTimestamp patch.finishedAt patch.status.terminal now row.finishedAt }

/-- The times that a late success reports. -/
structure LateOutcome where
  finishedAt : ℤ
  receivedAt : ℤ

/-- The row put right with everything the server reported, or with the status alone. -/
def lateCorrection (outcome : Option LateOutcome) (now : ℤ) (row : CommandRow) : CommandRow :=
  match outcome with
  | some outcome =>
    { row with
      status := .succeeded
      updatedAt := now
      finishedAt := some outcome.finishedAt
      ackedAt := row.ackedAt <|> some outcome.receivedAt
      startedAt := row.startedAt <|> some outcome.receivedAt }
  | none => { row with status := .succeeded, updatedAt := now }

/-! ## Operations -/

inductive CancelWhen where
  | queued
  | nonTerminal
  deriving DecidableEq

inductive RequestStatus where
  | queued
  | sent
  | acked
  | done
  | failed
  | expired
  deriving DecidableEq

/-- What the cell holds of a request that ended, and what the text of its error says. -/
structure PendingRequest where
  status : RequestStatus
  ackAt : Option ℤ
  finishedAt : Option ℤ
  /-- The daemon stopped the deploy on request. -/
  cancelled : Bool
  /-- The promotion that was resumed had been done before. -/
  alreadyWritable : Bool

/-- How the wait for the result of a command ended. -/
inductive WaitResult where
  | pending (request : PendingRequest)
  | handedOff
  | settled
  | timedOut

inductive FlipResult where
  | flipped (progress : Option StoredCommandProgress)
  | notTimedOut
  | refused
  deriving DecidableEq

inductive Op where
  | clock
  | getCommandRecord (id : String)
  | selectCandidates (cutoff : ℤ) (limit : ℕ)
  | transitionCommand (id : String) (patch : CommandTransitionPatch) (now : ℤ)
  | cancelCommandWhen (id : String) (when_ : CancelWhen) (now : ℤ)
  | flipTimedOut (id : String) (outcome : Option LateOutcome) (now : ℤ)
  | settleProgress (id : String) (expected : String) (progress : StoredCommandProgress) (at_ : ℤ)
  | storedProgressOf (id : String)
  | correctProgress (id : String) (progress : Option StoredCommandProgress)
  | readProgress (id serverId : String)
  | storeFrame (id serverId : String) (progress : CommandProgress) (receivedAt : ℤ)
  | storeLateNotes (id serverId : String) (expected : String) (progress : StoredCommandProgress)
  | readAlive (id serverId : String)
  | storeAlive (id serverId : String) (progress : Option StoredCommandProgress) (receivedAt : ℤ)
  | markContactLost (id : String) (lastHeardAt : ℤ)
  | markClaimed (input : ServerTurnInput) (now : ℤ)
  | blockedAndStamped (input : ServerTurnInput) (now : ℤ)
  | beginTurn
  | lockServer (serverId : String)
  | turnBlocked (txNow : ℤ) (input : ServerTurnInput)
  | commitClaim (input : ServerTurnInput) (now : ℤ)
  | endTurn (serverId : String)
  | stampWaiting (id : String) (now : ℤ)
  | createCommand (row : CommandRow)
  | clusterGone (id : String)
  | reseedSuperseded (id : String)
  | hasDispatchPayload (id : String)
  | serverOnline (serverId : String)
  | serverHasCommandRecovery (serverId : String)
  | loadDeployRunCapMs (serverId : String)
  | getRequest (id : String)
  | enqueueRequest (id : String)
  | awaitOutcome (id : String)
  | expireRequest (id : String)

@[reducible] def Ans : Op → Type
  | .clock => Stamp
  | .getCommandRecord _ => Option CommandRow
  | .selectCandidates _ _ => List CommandRow
  | .transitionCommand _ _ _ => Option CommandRow
  | .cancelCommandWhen _ _ _ => Option CommandRow
  | .flipTimedOut _ _ _ => FlipResult
  | .settleProgress _ _ _ _ => Bool
  | .storedProgressOf _ => Option StoredCommandProgress
  | .correctProgress _ _ => Unit
  | .readProgress _ _ => Option CommandRow
  | .storeFrame _ _ _ _ => Bool
  | .storeLateNotes _ _ _ _ => Bool
  | .readAlive _ _ => Option CommandRow
  | .storeAlive _ _ _ _ => Bool
  | .markContactLost _ _ => Bool
  | .markClaimed _ _ => Bool
  | .blockedAndStamped _ _ => Bool
  | .beginTurn => ℤ
  | .lockServer _ => Bool
  | .turnBlocked _ _ => Bool
  | .commitClaim _ _ => Bool
  | .endTurn _ => Unit
  | .stampWaiting _ _ => Unit
  | .createCommand _ => Unit
  | .clusterGone _ => Bool
  | .reseedSuperseded _ => Bool
  | .hasDispatchPayload _ => Bool
  | .serverOnline _ => Bool
  | .serverHasCommandRecovery _ => Bool
  | .loadDeployRunCapMs _ => ℤ
  | .getRequest _ => Option RequestStatus
  | .enqueueRequest _ => Unit
  | .awaitOutcome _ => WaitResult
  | .expireRequest _ => Bool

/-- What the environment answers. -/
structure Env where
  /-- The time that passed on the clock of the database. -/
  elapsed : ℕ := 0
  /-- The clock of the call. -/
  now : Stamp := ⟨"", 0⟩
  /-- The candidates of a sweep, in the order in which the database gives them. -/
  picked : List String := []
  /-- The answer to a question that is answered with yes or no; for a statement that may be refused
  or time out, whether it is made. -/
  yes : Bool := true
  runCapMs : ℤ := 0
  request : Option RequestStatus := none
  wait : WaitResult := .handedOff

/-! ## Statements -/

/-- The rows that a statement changes. -/
def Op.guard (e : Env) (s : CommandStore) : Op → CommandRow → Bool
  | .transitionCommand id patch _, row =>
    row.key.id = id && (patch.status.terminal || !row.status.terminal)
  | .cancelCommandWhen id .queued _, row => row.key.id = id && row.status = .queued
  | .cancelCommandWhen id .nonTerminal _, row => row.key.id = id && !row.status.terminal
  | .flipTimedOut id outcome _, row =>
    row.key.id = id && row.status = .timedOut && (outcome.isNone || e.yes)
  | .settleProgress id expected _ _, row =>
    row.key.id = id && (row.progress.any fun stored => stored.updatedAt.text = expected) && e.yes
  | .correctProgress id _, row => row.key.id = id
  | .storeFrame id serverId progress _, row =>
    row.key.id = id && row.key.serverId = serverId && !row.status.terminal &&
      row.progress.all fun stored => stored.updatedAt.time ≤ progress.updatedAt.time
  | .storeLateNotes id serverId expected _, row =>
    row.key.id = id && row.key.serverId = serverId && row.status.terminal &&
      row.progress.any fun stored => stored.updatedAt.text = expected
  | .storeAlive id serverId _ _, row =>
    row.key.id = id && row.key.serverId = serverId && !row.status.terminal
  | .markContactLost id _, row =>
    row.key.id = id && !row.status.terminal &&
      row.progress.any fun stored => stored.contactLostAt = none
  | .markClaimed input _, row | .commitClaim input _, row =>
    row.key.id = input.commandId && row.status = input.status && !row.status.terminal &&
      row.dispatchStartedAt = input.dispatchStartedAt
  | .blockedAndStamped input now, row =>
    row.key.id = input.commandId && row.status = .queued &&
      row.updatedAt < now - waitingStampIntervalMs && s.blockingCommandExists s.clock input
  | .stampWaiting id now, row =>
    row.key.id = id && row.status = .queued && row.updatedAt < now - waitingStampIntervalMs
  | _, _ => false

/-- The row of a command that waits its turn, with the time that it waited given back. -/
def stampedRow (now : ℤ) (row : CommandRow) : CommandRow :=
  { row with
    updatedAt := now
    expiresAt := row.expiresAt.map fun expiresAt =>
      max (expiresAt + (now - row.updatedAt)) (now + waitingExpiryFloorMs) }

/-- What a statement makes of a row that it changes. -/
def Op.write (s : CommandStore) : Op → CommandRow → CommandRow
  | .transitionCommand _ patch now, row => patch.apply now row
  | .cancelCommandWhen _ _ now, row =>
    { row with status := .cancelled, updatedAt := now, finishedAt := some now }
  | .flipTimedOut _ outcome now, row => lateCorrection outcome now row
  | .settleProgress _ _ progress at_, row => { row with progress := some progress, updatedAt := at_ }
  | .correctProgress _ progress, row => { row with progress := progress, updatedAt := s.clock }
  | .storeFrame _ _ progress receivedAt, row =>
    { row with
      progress := some ⟨progress, none⟩
      updatedAt := receivedAt
      startedAt :=
        match progress.runningSince with
        | .since ms => row.startedAt <|> some ms
        | _ => row.startedAt }
  | .storeLateNotes _ _ _ progress, row => { row with progress := some progress, updatedAt := s.clock }
  | .storeAlive _ _ progress receivedAt, row =>
    { row with progress := progress, updatedAt := receivedAt }
  | .markContactLost _ lastHeardAt, row =>
    { row with
      progress := row.progress.map fun stored => { stored with contactLostAt := some lastHeardAt } }
  | .markClaimed input now, row | .commitClaim input now, row =>
    { row with
      status := .dispatching
      dispatchStartedAt := some now
      updatedAt := now
      attempts := input.attempts + 1 }
  | .blockedAndStamped _ now, row | .stampWaiting _ now, row => stampedRow now row
  | _, row => row

def Op.onRow (e : Env) (s : CommandStore) (o : Op) (row : CommandRow) : CommandRow :=
  if o.guard e s row then o.write s row else row

theorem lateCorrection_key (outcome : Option LateOutcome) (now : ℤ) (row : CommandRow) :
    (lateCorrection outcome now row).key = row.key := by
  cases outcome <;> rfl

@[simp] theorem Op.onRow_key (e : Env) (s : CommandStore) (o : Op) (row : CommandRow) :
    (o.onRow e s row).key = row.key := by
  unfold Op.onRow
  split
  · cases o with
    | flipTimedOut id outcome now => exact lateCorrection_key outcome now row
    | _ => rfl
  · rfl

/-- A row as a statement returns it. -/
def Op.returning (e : Env) (s : CommandStore) (o : Op) : Option CommandRow :=
  (s.rows.find? (o.guard e s)).map (o.write s)

def Op.changes (e : Env) (s : CommandStore) (o : Op) : Bool := s.rows.any (o.guard e s)

/-- The open commands that a sweep looks at. -/
def CommandStore.candidate? (s : CommandStore) (cutoff : ℤ) (id : String) : Option CommandRow :=
  (s.row? id).filter fun row => !row.status.terminal && row.updatedAt < cutoff

def answer (e : Env) (s : CommandStore) : (o : Op) → Ans o
  | .clock => e.now
  | .getCommandRecord id => s.row? id
  | .selectCandidates cutoff limit => (e.picked.filterMap (s.candidate? cutoff)).take limit
  | .transitionCommand id patch now => (Op.transitionCommand id patch now).returning e s
  | .cancelCommandWhen id when_ now => (Op.cancelCommandWhen id when_ now).returning e s
  | .flipTimedOut id outcome now =>
    if outcome.isSome && !e.yes then .refused
    else
      match (Op.flipTimedOut id outcome now).returning e s with
      | some row => .flipped row.progress
      | none => .notTimedOut
  | .settleProgress id expected progress at_ => (Op.settleProgress id expected progress at_).changes e s
  | .storedProgressOf id => (s.row? id).bind CommandRow.progress
  | .correctProgress _ _ => ()
  | .readProgress id serverId => (s.row? id).filter fun row => row.key.serverId = serverId
  | .storeFrame id serverId progress receivedAt =>
    (Op.storeFrame id serverId progress receivedAt).changes e s
  | .storeLateNotes id serverId expected progress =>
    (Op.storeLateNotes id serverId expected progress).changes e s
  | .readAlive id serverId =>
    (s.row? id).filter fun row => row.key.serverId = serverId && !row.status.terminal
  | .storeAlive id serverId progress receivedAt =>
    (Op.storeAlive id serverId progress receivedAt).changes e s
  | .markContactLost id lastHeardAt => (Op.markContactLost id lastHeardAt).changes e s
  | .markClaimed input now => (Op.markClaimed input now).changes e s
  | .blockedAndStamped input _ => s.blockingCommandExists s.clock input
  | .beginTurn => s.clock
  | .lockServer _ => e.yes
  | .turnBlocked txNow input => s.blockingCommandExists txNow input
  | .commitClaim input now => (Op.commitClaim input now).changes e s
  | .endTurn _ => ()
  | .stampWaiting _ _ => ()
  | .createCommand _ => ()
  | .clusterGone _ => e.yes
  | .reseedSuperseded _ => e.yes
  | .hasDispatchPayload _ => e.yes
  | .serverOnline _ => e.yes
  | .serverHasCommandRecovery _ => e.yes
  | .loadDeployRunCapMs _ => e.runCapMs
  | .getRequest _ => e.request
  | .enqueueRequest _ => ()
  | .awaitOutcome _ => e.wait
  | .expireRequest _ => e.yes

/-- The operation can be made: a lock that another transaction holds is waited for, the statements
of a transaction are made while it holds its lock, and an id is given once. -/
def enabled (i : ℕ) (e : Env) (s : CommandStore) : Op → Bool
  | .lockServer serverId => !e.yes || s.lock serverId = none
  | .turnBlocked _ input | .commitClaim input _ => s.lock input.serverId = some i
  | .endTurn serverId => s.lock serverId = some i
  | .createCommand row => (s.row? row.key.id).isNone
  | _ => true

/-- Who holds the rows of the servers after an operation; the end of a transaction lets its row go.
-/
def Op.onLock (i : ℕ) (e : Env) (lock : String → Option ℕ) : Op → String → Option ℕ
  | .lockServer serverId => if e.yes then Function.update lock serverId (some i) else lock
  | .commitClaim input _ => Function.update lock input.serverId none
  | .endTurn serverId => Function.update lock serverId none
  | _ => lock

def Op.created : Op → List CommandRow
  | .createCommand row => [row]
  | _ => []

namespace CommandStore

/-- The store once time has passed. -/
def elapse (s : CommandStore) (ms : ℕ) : CommandStore := { s with clock := s.clock + ms }

theorem row?_eq_some {s : CommandStore} {id : String} {row : CommandRow} :
    s.row? id = some row ↔ row ∈ s.rows ∧ row.key.id = id := by
  constructor
  · intro h
    exact ⟨mem_of_find?_eq_some h, by simpa using List.find?_some h⟩
  · rintro ⟨hrow, rfl⟩
    obtain ⟨found, hfound⟩ : ∃ found, s.row? row.key.id = some found :=
      Option.isSome_iff_exists.1 (List.find?_isSome.2 ⟨row, hrow, by simp⟩)
    have hid : found.key.id = row.key.id := by simpa using List.find?_some hfound
    rwa [inj_on_of_nodup_map s.ids_nodup (mem_of_find?_eq_some hfound) hrow hid] at hfound

theorem row?_eq_none {s : CommandStore} {id : String} :
    s.row? id = none ↔ ∀ row ∈ s.rows, row.key.id ≠ id := by
  rw [row?, List.find?_eq_none]
  simp

theorem map_onRow_id (s : CommandStore) (e : Env) (o : Op) :
    (s.rows.map (o.onRow e s)).map (fun row => row.key.id) = s.rows.map fun row => row.key.id := by
  rw [map_map]
  exact map_congr_left fun row _ => congrArg CommandKey.id (o.onRow_key e s row)

/-- The store after an operation. -/
def after (s : CommandStore) (i : ℕ) (e : Env) (o : Op) (h : enabled i e s o = true) : CommandStore where
  rows := s.rows.map (o.onRow e s) ++ o.created
  ids_nodup := by
    rw [map_append, map_onRow_id]
    cases o with
    | createCommand row =>
      refine nodup_append.2 ⟨s.ids_nodup, nodup_singleton _, ?_⟩
      intro id hid id' hid'
      obtain ⟨stored, hstored, rfl⟩ := mem_map.1 hid
      obtain rfl := mem_singleton.1 hid'
      exact row?_eq_none.1 (Option.isNone_iff_eq_none.1 h) stored hstored
    | _ => exact (append_nil _).symm ▸ s.ids_nodup
  lock := o.onLock i e s.lock
  clock := s.clock

end CommandStore

def exec (i : ℕ) (e : Env) (o : Op) (s : CommandStore) : Option (Ans o × CommandStore) :=
  if h : enabled i e (s.elapse e.elapsed) o = true then
    some (answer e (s.elapse e.elapsed) o, (s.elapse e.elapsed).after i e o h)
  else none

/-- The store as a machine: the transactions of a thread that dies let go of what they hold. -/
def machine : Machine Op Ans CommandStore Env where
  exec := exec
  drop i s := { s with lock := fun serverId => if s.lock serverId = some i then none else s.lock serverId }

/-! ## What an operation does to the rows -/

section

variable {i : ℕ} {e : Env} {o : Op} {s s' : CommandStore} {ans : Ans o}

theorem exec_eq_some (h : exec i e o s = some (ans, s')) : enabled i e (s.elapse e.elapsed) o = true ∧
    ans = answer e (s.elapse e.elapsed) o ∧
      s'.rows = s.rows.map (o.onRow e (s.elapse e.elapsed)) ++ o.created ∧
        s'.lock = o.onLock i e s.lock ∧ s'.clock = s.clock + e.elapsed := by
  unfold exec at h
  split at h
  · rename_i henabled
    cases h
    exact ⟨henabled, rfl, rfl, rfl, rfl⟩
  · cases h

theorem mem_rows_of_exec (h : exec i e o s = some (ans, s')) {row' : CommandRow} (hrow' : row' ∈ s'.rows) :
    (∃ row ∈ s.rows, row' = o.onRow e (s.elapse e.elapsed) row) ∨
      o = .createCommand row' ∧ ∀ row ∈ s.rows, row.key.id ≠ row'.key.id := by
  obtain ⟨henabled, -, hrows, -⟩ := exec_eq_some h
  rw [hrows] at hrow'
  obtain hold | hnew := mem_append.1 hrow'
  · obtain ⟨row, hrow, rfl⟩ := mem_map.1 hold
    exact .inl ⟨row, hrow, rfl⟩
  · cases o with
    | createCommand row =>
      obtain rfl := mem_singleton.1 hnew
      exact .inr ⟨rfl, CommandStore.row?_eq_none.1 (Option.isNone_iff_eq_none.1 henabled)⟩
    | _ => cases hnew

theorem onRow_mem_rows_of_exec (h : exec i e o s = some (ans, s')) {row : CommandRow}
    (hrow : row ∈ s.rows) : o.onRow e (s.elapse e.elapsed) row ∈ s'.rows := by
  rw [(exec_eq_some h).2.2.1]
  exact mem_append_left _ (mem_map_of_mem hrow)

end

end TurboPanel.CommandRecords
