import TurboPanel.Recovery.Actors

/-!
# What a call does

Each statement of a call is tied to what the call has seen before: where the metadata that it writes
comes from, that it holds a live row when it writes a state without the lock, that a fence command
has succeeded when it says so, and that the restart was asked for before each command of it.
-/

namespace TurboPanel.Recovery

open CommandRecords (CommandStatus)
open Interleaving

/-! ## What a statement shows -/

/-- The rows of the journal that a statement returns. -/
def records : (o : Op) × Ans o → List RecoveryRecord
  | ⟨.findRecoveryById _, row⟩ => row.toList
  | ⟨.findInFlightRecovery _, row⟩ => row.toList
  | ⟨.newestRecovery _, row⟩ => row.toList
  | ⟨.findLatestAcceptedAutomaticFailover _, row⟩ => row.toList
  | ⟨.insertRecoveryIfFree _, row⟩ => row.toList
  | ⟨.updateRecovery _ _, row⟩ => row.toList
  | ⟨.updateRecoveryLocked _ _, row⟩ => row.toList
  | ⟨.listFencingRecoveries, rows⟩ => rows
  | ⟨.listPendingAbortRestarts, rows⟩ => rows
  | ⟨.listInFlightRecoveries, rows⟩ => rows
  | ⟨.listRecentRecoveries _, rows⟩ => rows
  | _ => []

/-- The row that a statement has written. -/
def written : (o : Op) × Ans o → Option RecoveryRecord
  | ⟨.updateRecovery _ _, row⟩ => row
  | ⟨.updateRecoveryLocked _ _, row⟩ => row
  | _ => none

/-- The call has seen the row. -/
def Saw (row : RecoveryRecord) (h : Trace Op Ans) : Prop := ∃ ev ∈ h, row ∈ records ev

/-- The statement shows that the recovery is live. -/
def Holds (r : RecoveryId) (ev : (o : Op) × Ans o) : Prop :=
  ∃ row ∈ records ev, row.id = r ∧ row.state.terminal = false

/-- The statement ends the recovery. -/
def Ends (r : RecoveryId) (ev : (o : Op) × Ans o) : Prop :=
  ∃ row ∈ written ev, row.id = r ∧ row.state.terminal = true

instance (r : RecoveryId) : DecidablePred (Holds r) := fun ev =>
  inferInstanceAs (Decidable (∃ row ∈ records ev, row.id = r ∧ row.state.terminal = false))

instance (r : RecoveryId) : DecidablePred (Ends r) := fun ev =>
  inferInstanceAs (Decidable (∃ row ∈ written ev, row.id = r ∧ row.state.terminal = true))

/-- The call has seen that the recovery is live, and it has not ended it since. -/
def Held (r : RecoveryId) (h : Trace Op Ans) : Prop := Since (Holds r) (fun ev => ¬Ends r ev) h

/-- The call has begun the recovery. -/
def Began (row : RecoveryRecord) (h : Trace Op Ans) : Prop :=
  ∃ params, ⟨.insertRecoveryIfFree params, some row⟩ ∈ h ∧ params.state = .fencing

/-- The statement writes the row of a recovery without the lock, or records its fence. -/
def Touches (r : RecoveryId) : Op → Prop
  | .updateRecovery id _ => id = r
  | .updateRecoveryLocked id (.recordFenceCommands _ _) => id = r
  | _ => False

def Untouched (r : RecoveryId) (h : Trace Op Ans) : Prop := ∀ ev ∈ h, ¬Touches r ev.1

/-! ## What is written -/

/-- The metadata says the same of the fence and of the restart. -/
structure SameFence (m m' : RecoveryMetadata) : Prop where
  fenceCommandIds : m.fenceCommandIds = m'.fenceCommandIds
  drainApplied : m.drainApplied = m'.drainApplied
  stopApplied : m.stopApplied = m'.stopApplied
  fenceBasis : m.fenceBasis = m'.fenceBasis
  abortRestartTodo : m.abortRestartTodo = m'.abortRestartTodo

/-- The metadata says nothing of the fence and of the restart. -/
def Unfenced (m : RecoveryMetadata) : Prop := SameFence m {}

/-- The fence of a whole-host loss is attested: the call has begun the recovery for an incident, and
the server of the old primary was not connected after. -/
def Attests (row : RecoveryRecord) (m : RecoveryMetadata) (h : Trace Op Ans) : Prop :=
  SameFence m { row.metadata with fenceBasis := some .hostLossAttested } ∧
    row.metadata.hostLossIncident.isSome ∧
    ∃ serverId, row.metadata.sourceServerId = some serverId ∧ ⟨.isServerConnected serverId, false⟩ ∈ h

/-- A write of a row without the lock. -/
inductive Writes (row : RecoveryRecord) (h : Trace Op Ans) : RecoveryPatch → Prop where
  /-- A note on a row that is promoted, or that has no target. -/
  | note {m : RecoveryMetadata} (hsaw : Saw row h) (hsame : SameFence m row.metadata)
      (hmarked : row.state = .promoting ∨ row.targetMemberId = none) : Writes row h { metadata := some m }
  /-- A note of a call that has written the row as promoted. -/
  | queued {m m' : RecoveryMetadata} {ans : Option RecoveryRecord}
      (hwrote : ⟨.updateRecovery row.id { state := some .promoting, metadata := some m' }, ans⟩ ∈ h)
      (hsame : SameFence m m') : Writes row h { metadata := some m }
  | unqueued {m m' : RecoveryMetadata} {ans : Option RecoveryRecord}
      (hwrote : ⟨.updateRecovery row.id { state := some .promoting, metadata := some m' }, ans⟩ ∈ h)
      (hsame : SameFence m m') (hheld : Held row.id h) :
      Writes row h { state := some .blocked, metadata := some m }
  | promote {m : RecoveryMetadata} (hsaw : Saw row h) (hstate : row.state = .promoting)
      (hsame : SameFence m row.metadata) (hheld : Held row.id h) :
      Writes row h { state := some .promoting, metadata := some m }
  /-- A call that has begun the recovery and found the old primary offline writes the row a second
  time. -/
  | promoteAgain {m m' : RecoveryMetadata} {ans : Option RecoveryRecord}
      (hwrote : ⟨.updateRecovery row.id { state := some .promoting, metadata := some m' }, ans⟩ ∈ h)
      (hsame : SameFence m m') (hheld : Held row.id h) :
      Writes row h { state := some .promoting, metadata := some m }
  | promoteOffline {m : RecoveryMetadata} (hbegan : Began row h) (huntouched : Untouched row.id h)
      (hattests : Attests row m h ∨ row.kind ≠ .automaticFailover ∧ SameFence m row.metadata)
      (hheld : Held row.id h) : Writes row h { state := some .promoting, metadata := some m }
  | endBegun {m : RecoveryMetadata} {target : Option (Option MemberId)} (hbegan : Began row h)
      (huntouched : Untouched row.id h) (hsame : SameFence m row.metadata) (hheld : Held row.id h) :
      Writes row h { state := some .blocked, targetMemberId := target, metadata := some m }

/-! ## The restart -/

/-- The statement shows that there is no newer recovery of the cluster. -/
def ShowsLatest (managedId : ManagedId) (r : RecoveryId) (ev : (o : Op) × Ans o) : Prop :=
  (∃ row, ev = ⟨.findInFlightRecovery managedId, some row⟩ ∧ row.id = r ∧ row.state.terminal = false) ∨
    ∃ row : Option RecoveryRecord, ev = ⟨.newestRecovery managedId, row⟩ ∧ ∀ row' ∈ row, row'.id = r

/-- Neither a query for the newest recovery, nor a new one. -/
def KeepsLatest : Op → Prop
  | .newestRecovery _ => False
  | .findInFlightRecovery _ => False
  | .insertRecoveryIfFree _ => False
  | _ => True

/-- The statement shows the primary of the cluster. -/
def ShowsPrimary (managedId : ManagedId) (memberId : MemberId) (ev : (o : Op) × Ans o) : Prop :=
  ∃ members : List ManagedMemberRow, ev = ⟨.listManagedMembers managedId, members⟩ ∧
    (primaryOf members).map (·.id) = some memberId

/-- Neither a query for the members, nor a change of their roles. -/
def KeepsPrimary : Op → Prop
  | .listManagedMembers _ => False
  | .flipRoles _ _ _ => False
  | _ => True

/-- The call has claimed the restart of the recovery, and asked for it after. -/
structure Checked (r : RecoveryId) (h : Trace Op Ans) : Prop where
  claimed : ∃ locked nowMs recoveryId before after, locked.id = r ∧ locked.metadata.abortRestartTodo ≠ none ∧
    h = before ++ after ∧ ⟨.updateRecoveryLocked recoveryId (.claimRestart nowMs), some locked⟩ ∈ before ∧
    Since (ShowsLatest locked.managedId r) (fun ev => KeepsLatest ev.1) after ∧
    Since (ShowsPrimary locked.managedId locked.sourcePrimaryMemberId) (fun ev => KeepsPrimary ev.1) after

/-! ## The contract -/

/-- A command may be handed to the queue. -/
structure Ready (spec : CommandSpec) (h : Trace Op Ans) : Prop where
  promotes : spec.kind.promotes = true → ∃ r m ans, spec.recoveryId = some r ∧
    ⟨.updateRecovery r { state := some .promoting, metadata := some m }, ans⟩ ∈ h ∧ Held r h
  restarts : ∀ r, spec.restartOf = some r → Checked r h

def FencePhase.kind : FencePhase → CommandKind
  | .drain => .drain
  | .stop => .stop

/-- What each statement of a call is, after those that the call made before. -/
def Contract (h : Trace Op Ans) : Op → Prop
  | .insertRecoveryIfFree params => Unfenced params.metadata ∧
    (params.state = .fencing ∧ params.targetMemberId ≠ none ∨ params.state = .blocked)
  | .updateRecovery r patch => ∃ row, row.id = r ∧ Writes row h patch
  | .updateRecoveryLocked r (.recordFenceCommands _ _) => ∃ row, row.id = r ∧ Began row h ∧ Untouched r h
  | .updateRecoveryLocked _ (.settleFence commandId (some phase)) =>
    ∃ command, ⟨.reported commandId .succeeded, some command⟩ ∈ h ∧ command.spec.kind = phase.kind
  | .updateRecoveryLocked r (.blockNothingChanged _ unlessFenced clearTarget extra) =>
    (clearTarget = true ∨ extra ≠ .nothing) → unlessFenced = true ∧
      ∃ row, row.id = r ∧ Saw row h ∧ row.metadata.fenceCommandIds.getD [] ≠ []
  | .enqueue commandId => ∃ spec, ⟨.createCommandRecord spec, commandId⟩ ∈ h ∧ Ready spec h
  | _ => True

/-- What a statement answers, whatever the tables hold. -/
def Answers : (o : Op) → Ans o → Prop
  | .findInFlightRecovery _, row => ∀ row' ∈ row, row'.state.terminal = false
  | .insertRecoveryIfFree params, row => ∀ row' ∈ row, row'.managedId = params.managedId ∧
    row'.kind = params.kind ∧ row'.targetMemberId = params.targetMemberId ∧ row'.state = params.state ∧
    row'.metadata = params.metadata
  | .updateRecovery _ patch, row => ∀ row' ∈ row, ∀ state, patch.state = some state → row'.state = state
  | .updateRecoveryLocked _ decision, row => ∀ row' ∈ row, ∃ current now patch,
    decision.apply current now = some patch ∧ row' = current.patch patch now
  | _, _ => True

variable {db db' : Db}

theorem Db.update_eq_some {id : RecoveryId} {patch : RecoveryPatch} {now : Time}
    {row' : Option RecoveryRecord} (h : db.update id patch now = some (row', db')) :
    (db.recoveries[id]? = none ∧ row' = none ∧ db' = db) ∨
      ∃ row, db.recoveries[id]? = some row ∧ row' = some (row.patch patch now) ∧
        db' = { db with recoveries := db.recoveries.set id (row.patch patch now) } := by
  rw [Db.update] at h
  split at h
  · rename_i hnone
    cases h
    exact .inl ⟨hnone, rfl, rfl⟩
  · rename_i row hrow
    split at h
    · cases h
    · cases h
      exact .inr ⟨row, hrow, rfl, rfl⟩

theorem Db.updateLocked_eq_some {id : RecoveryId} {decision : Decision} {now : Time}
    {row' : Option RecoveryRecord} (h : db.updateLocked id decision now = some (row', db')) :
    (row' = none ∧ db' = db) ∨ ∃ row patch, db.recoveries[id]? = some row ∧
      decision.apply row now = some patch ∧ row' = some (row.patch patch now) ∧
      db' = { db with recoveries := db.recoveries.set id (row.patch patch now) } := by
  rw [Db.updateLocked] at h
  split at h
  · cases h
    exact .inl ⟨rfl, rfl⟩
  · rename_i patch hpatch
    obtain ⟨row, hrow, happly⟩ := Option.bind_eq_some_iff.1 hpatch
    obtain ⟨hnone, -⟩ | ⟨row₂, hrow₂, hans, hdb⟩ := Db.update_eq_some h
    · rw [hrow] at hnone
      cases hnone
    · cases hrow.symm.trans hrow₂
      exact .inr ⟨row, patch, hrow, happly, hans, hdb⟩

variable {row : RecoveryRecord}

theorem mem_of_newest {order : List ℕ} {p : RecoveryRecord → Bool} {found : Option RecoveryRecord}
    (h : db.newest order p = some found) (hrow : row ∈ found) :
    row ∈ db.recoveries ∧ p row = true ∧ ∀ other ∈ db.recoveries, p other = true →
      other.startedAt ≤ row.startedAt := by
  rw [Db.newest] at h
  split at h
  · cases h
    cases hrow
  · obtain ⟨row', hget, rfl⟩ := Option.map_eq_some_iff.1 h
    cases hrow
    obtain ⟨hmem, hall⟩ := List.mem_filter.1 (List.mem_of_getElem? hget)
    obtain ⟨hmem, hp⟩ := List.mem_filter.1 hmem
    refine ⟨hmem, hp, fun other hother hp' => ?_⟩
    exact of_decide_eq_true (List.all_eq_true.1 hall other (List.mem_filter.2 ⟨hother, hp'⟩))

theorem owed_iff : owed row = true ↔ row.state = .blocked ∧ isSet row.metadata.stopApplied = false ∧
    0 < (row.metadata.abortRestartTodo.getD []).length := by
  rw [owed, Bool.and_eq_true, Bool.and_eq_true, beq_iff_eq, Bool.not_eq_true', decide_eq_true_iff, and_assoc]

theorem todo_of_owed (h : owed row = true) : row.metadata.abortRestartTodo ≠ none := by
  intro hnone
  have hlength := (owed_iff.1 h).2.2
  rw [hnone] at hlength
  exact absurd hlength (Nat.lt_irrefl 0)

theorem answers_of_exec {i : ℕ} {e : Env} {o : Op} {ans : Ans o}
    (h : machine.exec i e o db = some (ans, db')) : Answers o ans := by
  cases o with
  | findInFlightRecovery managedId =>
    intro row hrow
    obtain ⟨found, hfound, heq⟩ := Option.map_eq_some_iff.1 h
    cases heq
    obtain ⟨-, hlive, -⟩ := mem_of_newest hfound hrow
    rw [inFlight, Bool.and_eq_true, Bool.not_eq_true'] at hlive
    exact hlive.2
  | insertRecoveryIfFree params =>
    intro row hrow
    have hans : (db.insert params e.now).1 = ans := (Prod.mk.inj (Option.some.inj h)).1 ▸ rfl
    rw [Db.insert] at hans
    split at hans
    · rw [← hans] at hrow
      cases hrow
    · cases hans.trans hrow
      exact ⟨rfl, rfl, rfl, rfl, rfl⟩
  | updateRecovery id patch =>
    intro row hrow state hstate
    obtain ⟨-, hnone, -⟩ | ⟨row₀, -, hsome, -⟩ := Db.update_eq_some h
    · rw [hnone] at hrow
      cases hrow
    · cases hsome.symm.trans hrow
      rw [RecoveryRecord.patch, hstate]
      rfl
  | updateRecoveryLocked id decision =>
    intro row hrow
    obtain ⟨hnone, -⟩ | ⟨row₀, patch, -, happly, hsome, -⟩ := Db.updateLocked_eq_some h
    · rw [hnone] at hrow
      cases hrow
    · cases hsome.symm.trans hrow
      exact ⟨row₀, e.now, patch, happly, rfl⟩
  | _ => trivial

end TurboPanel.Recovery
