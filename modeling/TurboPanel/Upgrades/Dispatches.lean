import TurboPanel.Upgrades.Coordinator

/-!
# How often a step is dispatched

Ticks and reports are applied to one step, one after the other. A stalled install, a rollback and a
command that could not be delivered are each tried again within the attempts of the step. A host
that drops while an install is in flight cannot finish it: its step waits, and is dispatched when
the host is back, whatever its attempts are.

So a step is dispatched three times, and once more for each tick that finds it in flight on a host
that is not connected.
-/

namespace TurboPanel.Upgrades

/-! ## One step -/

/-- What a tick reads for a step, in the order in which it reads it. -/
structure TickReads where
  fact : Option FleetServerFact
  now : ℤ
  appliedAt : ℤ
  requestId : String
  claimedAt : ℤ
  undelivered : Option String
  failedAt : ℤ
  failedAt' : ℤ

/-- What happens to a step: a tick, a report, a hello of its host, or a pause of its run. -/
inductive StepInput where
  | tick (reads : TickReads)
  | progress (input : ProgressReport) (now : ℤ)
  | outcome (input : OutcomeReport) (now : ℤ)
  | hello (serverId commit : String) (at_ : ℤ)
  | pause (now : ℤ)

section

variable (deps : UpgradeDeps) (target : UpgradeTarget)

def tickWork (row : UpgradeStepRow) (reads : TickReads) : StepWork :=
  actOn deps target row reads.fact reads.appliedAt (stepActionFor deps row reads.fact reads.now)

/-- The step after a tick. -/
def tickRow (row : UpgradeStepRow) (reads : TickReads) : UpgradeStepRow :=
  match tickWork deps target row reads with
  | .nothing => row
  | .save row' => if stepPersistKey row' = stepPersistKey row then row else row'
  | .dispatch =>
    let claimed := claimRow row reads.requestId reads.claimedAt
    match reads.undelivered with
    | none => claimed
    | some error => dispatchFailedRow claimed error reads.failedAt reads.failedAt'

/-- A report is about the open step of its server and unit, in the run it names, if it names one. -/
def isReportedOn (row : UpgradeStepRow) (serverId : String) (unit : UpgradeStepUnit)
    (upgradeId : Option String) : Prop :=
  row.plan.serverId = serverId ∧ row.plan.unit = unit ∧ isSettledStepStatus row.status = false ∧
    ((nonEmpty upgradeId).isSome → upgradeId = some row.plan.upgradeId)

instance (row : UpgradeStepRow) (serverId : String) (unit : UpgradeStepUnit)
    (upgradeId : Option String) : Decidable (isReportedOn row serverId unit upgradeId) :=
  inferInstanceAs (Decidable (_ ∧ _))

/-- The step after a report. -/
def reportRow (row : UpgradeStepRow) (requestId : String)
    (mutate : UpgradeStepRow → ReportKind → Option UpgradeStepRow) : UpgradeStepRow :=
  match reportedRow requestId mutate (some row) with
  | none => row
  | some (_, row') => row'

/-- The step after what happens to it. -/
def nextRow (row : UpgradeStepRow) : StepInput → UpgradeStepRow
  | .tick reads => tickRow deps target row reads
  | .progress input now =>
    if isReportedOn row input.serverId input.unit input.upgradeId then
      reportRow row input.requestId (noteProgressRow deps input now)
    else row
  | .outcome input now =>
    if isReportedOn row input.serverId input.unit input.upgradeId then
      reportRow row input.requestId (noteOutcomeRow deps input now)
    else row
  | .hello serverId commit at_ =>
    if row.plan.serverId = serverId ∧ row.plan.unit = .daemon ∧ row.plan.toCommit = some commit ∧
        isSettledStepStatus row.status = false then
      markStepDone row at_
    else row
  | .pause now => UpgradeStore.pausedRow row.plan.upgradeId now row

/-- The tick dispatches the step. -/
def Dispatches (row : UpgradeStepRow) : StepInput → Bool
  | .tick reads =>
    match tickWork deps target row reads with
    | .dispatch => true
    | _ => false
  | _ => false

/-- The tick finds an install in flight on a host that is not connected. -/
def FindsDropped (row : UpgradeStepRow) : StepInput → Bool
  | .tick reads =>
    isInFlightStepStatus row.status && !reads.fact.any FleetServerFact.connected
  | _ => false

/-- The step after a sequence of inputs. -/
def runRow (row : UpgradeStepRow) (inputs : List StepInput) : UpgradeStepRow :=
  inputs.foldl (nextRow deps target) row

/-- How many of the inputs meet `p`, each with the step as it is then. -/
def countInputs (p : UpgradeStepRow → StepInput → Bool) (row : UpgradeStepRow) : List StepInput → ℕ
  | [] => 0
  | input :: inputs => (p row input).toNat + countInputs p (nextRow deps target row input) inputs

end

/-! ## Attempts -/

/-- A step that is dispatched when its host is connected, whatever its attempts are. -/
def IsIdle (status : UpgradeStepStatus) : Prop := status = .pending ∨ status = .waiting

theorem not_isIdle_of_settled {status : UpgradeStepStatus} (h : isSettledStepStatus status = true) :
    ¬IsIdle status := by
  rintro (rfl | rfl) <;> cases h

/-- The attempts of a step whose host dropped `drops` times. -/
structure Bounded (drops : ℕ) (row : UpgradeStepRow) : Prop where
  attempts_le : row.attempts ≤ upgradeStepMaxAttempts + drops
  idle : IsIdle row.status → row.attempts < upgradeStepMaxAttempts + drops

variable {drops : ℕ} {row : UpgradeStepRow}

theorem Bounded.of_notIdle {row' : UpgradeStepRow} (h : Bounded drops row)
    (hattempts : row'.attempts = row.attempts) (hidle : ¬IsIdle row'.status) : Bounded drops row' :=
  ⟨hattempts ▸ h.attempts_le, fun hidle' => absurd hidle' hidle⟩

theorem Bounded.of_status {row' : UpgradeStepRow} (h : Bounded drops row)
    (hattempts : row'.attempts = row.attempts) (hstatus : row'.status = row.status) : Bounded drops row' :=
  ⟨hattempts ▸ h.attempts_le, fun hidle => hattempts ▸ h.idle (hstatus ▸ hidle)⟩

theorem Bounded.mono {drops' : ℕ} (h : Bounded drops row)
    (hle : drops ≤ drops') : Bounded drops' row :=
  ⟨h.attempts_le.trans (by omega), fun hidle => (h.idle hidle).trans_le (by omega)⟩

section

variable {deps : UpgradeDeps} {target : UpgradeTarget} {row row' : UpgradeStepRow}
  {fact : Option FleetServerFact} {now : ℤ} {drops : ℕ}

theorem actOn_attempts {action : StepAction} (h : actOn deps target row fact now action = .save row') :
    row'.attempts = row.attempts := by
  cases action with
  | none => cases h
  | dispatch =>
    rw [actOn] at h
    split at h
    · cases h
      rfl
    · cases h
  | _ =>
    cases h
    rfl

theorem bounded_save {reads : TickReads} (hrow : Bounded drops row)
    (h : tickWork deps target row reads = .save row') :
    Bounded (drops + (FindsDropped row (.tick reads)).toNat) row' := by
  have hneeds := planStepAction_needs (stepView row)
    { serverConnected := reads.fact.any FleetServerFact.connected
      currentCommit := currentCommit deps row reads.fact }
    { now := reads.now, verifyTimeoutMs := deps.verifyTimeoutMs }
  have hle := hrow.mono (Nat.le_add_right drops (FindsDropped row (.tick reads)).toNat)
  rw [tickWork, stepActionFor] at h
  generalize haction : planStepAction _ _ _ = action at h hneeds
  cases action with
  | none => cases h
  | done =>
    cases h
    exact hle.of_notIdle rfl (not_isIdle_of_settled rfl)
  | restartFailed reason =>
    cases h
    exact hle.of_notIdle rfl (not_isIdle_of_settled rfl)
  | skipOffline =>
    cases h
    exact hle.of_notIdle rfl (not_isIdle_of_settled rfl)
  | needsAttention errorCode =>
    cases h
    exact hle.of_notIdle rfl (not_isIdle_of_settled rfl)
  | dispatch =>
    rw [actOn] at h
    split at h
    · cases h
      exact hle.of_notIdle rfl (not_isIdle_of_settled rfl)
    · cases h
  | retry nextAttemptAt =>
    cases h
    have hlt : row.attempts < upgradeStepMaxAttempts := hneeds.2.2
    exact ⟨hle.attempts_le, fun _ => hlt.trans_le (Nat.le_add_right _ _)⟩
  | waitOffline =>
    cases h
    refine ⟨hle.attempts_le, fun _ => ?_⟩
    change row.attempts < _
    obtain hflight | hidle | hidle | ⟨-, hlt⟩ := hneeds.2
    · -- the host dropped while its install was in flight
      have hdropped : FindsDropped row (.tick reads) = true := by
        rw [FindsDropped, Bool.and_eq_true, Bool.not_eq_true']
        exact ⟨hflight, serverConnected_of_waitOffline haction⟩
      have hbound := hrow.attempts_le
      rw [hdropped, Bool.toNat_true]
      omega
    · exact hle.idle (.inl hidle)
    · exact hle.idle (.inr hidle)
    · have hlt' : row.attempts < upgradeRollbackMaxAttempts := hlt
      have hmax : upgradeRollbackMaxAttempts ≤ upgradeStepMaxAttempts := Nat.le_succ 2
      omega

theorem attempts_lt_of_dispatch {reads : TickReads} (hrow : Bounded drops row)
    (h : tickWork deps target row reads = .dispatch) : row.attempts < upgradeStepMaxAttempts + drops := by
  have hneeds := planStepAction_needs (stepView row)
    { serverConnected := reads.fact.any FleetServerFact.connected
      currentCommit := currentCommit deps row reads.fact }
    { now := reads.now, verifyTimeoutMs := deps.verifyTimeoutMs }
  rw [tickWork, stepActionFor] at h
  generalize planStepAction _ _ _ = action at h hneeds
  cases action with
  | dispatch =>
    obtain hidle | hidle | ⟨-, hlt⟩ := hneeds
    · exact hrow.idle (.inl hidle)
    · exact hrow.idle (.inr hidle)
    · have hlt' : row.attempts < upgradeRollbackMaxAttempts := hlt
      have hmax : upgradeRollbackMaxAttempts ≤ upgradeStepMaxAttempts := Nat.le_succ 2
      omega
  | _ => cases h

theorem bounded_dispatch (h : row.attempts < upgradeStepMaxAttempts + drops) (requestId : String)
    (claimedAt : ℤ) : Bounded drops (claimRow row requestId claimedAt) ∧
      ∀ error failedAt failedAt', Bounded drops
        (dispatchFailedRow (claimRow row requestId claimedAt) error failedAt failedAt') := by
  refine ⟨⟨h, fun hidle => ?_⟩, fun error failedAt failedAt' => ?_⟩
  · obtain hidle | hidle := hidle <;> cases hidle
  · unfold dispatchFailedRow
    dsimp only
    split
    · exact ⟨h, fun hidle => absurd hidle (not_isIdle_of_settled rfl)⟩
    · rename_i hattempts
      refine ⟨h, fun _ => (not_le.1 hattempts).trans_le (Nat.le_add_right _ _)⟩

theorem tickRow_attempts (reads : TickReads) : (tickRow deps target row reads).attempts =
    row.attempts + (Dispatches deps target row (.tick reads)).toNat := by
  simp only [tickRow, Dispatches]
  cases hwork : tickWork deps target row reads with
  | nothing => rfl
  | save row' =>
    dsimp only
    split
    · rfl
    · exact actOn_attempts hwork
  | dispatch =>
    dsimp only
    cases reads.undelivered with
    | none => rfl
    | some error =>
      unfold dispatchFailedRow
      dsimp only
      split
      · rfl
      · rfl

theorem bounded_tickRow (hrow : Bounded drops row) (reads : TickReads) :
    Bounded (drops + (FindsDropped row (.tick reads)).toNat) (tickRow deps target row reads) := by
  have hle := hrow.mono (Nat.le_add_right drops (FindsDropped row (.tick reads)).toNat)
  unfold tickRow
  cases hwork : tickWork deps target row reads with
  | nothing => exact hle
  | save row' =>
    dsimp only
    split
    · exact hle
    · exact bounded_save hrow hwork
  | dispatch =>
    have hlt := attempts_lt_of_dispatch hle hwork
    dsimp only
    cases reads.undelivered with
    | none => exact (bounded_dispatch hlt _ _).1
    | some error => exact (bounded_dispatch hlt _ _).2 error _ _

/-- A row that a report makes of a step: its attempts are the same, and it is not idle, or as it
was. -/
structure Reported (row row' : UpgradeStepRow) : Prop where
  attempts : row'.attempts = row.attempts
  status : row'.status = row.status ∨ ¬IsIdle row'.status

theorem reported_noteProgressRow {input : ProgressReport} {report : ReportKind}
    (h : noteProgressRow deps input now row report = some row') : Reported row row' := by
  unfold noteProgressRow at h
  dsimp only at h
  split_ifs at h
  · cases h
    exact ⟨rfl, .inl rfl⟩
  · cases h
    exact ⟨rfl, .inr (by rintro (h | h) <;> cases h)⟩
  · have hstatus : ¬IsIdle (stepStatusForProgressStage input.stage) := by
      cases input.stage <;> rintro (h | h) <;> cases h
    split at h
    · cases h
      exact ⟨rfl, .inr hstatus⟩
    · cases h
      exact ⟨rfl, .inr hstatus⟩

theorem reported_noteOutcomeRow {input : OutcomeReport} {report : ReportKind}
    (h : noteOutcomeRow deps input now row report = some row') : Reported row row' := by
  rw [noteOutcomeRow] at h
  split_ifs at h
  · cases h
    exact ⟨rfl, .inl rfl⟩
  · cases h
    exact ⟨rfl, .inr (by rintro (h | h) <;> cases h)⟩
  · cases h
    rw [applyOutcome]
    split_ifs
    · exact ⟨rfl, .inr (not_isIdle_of_settled rfl)⟩
    · exact ⟨rfl, .inl rfl⟩
    · exact ⟨rfl, .inr (by rintro (h | h) <;> cases h)⟩
    · exact ⟨rfl, .inr (not_isIdle_of_settled rfl)⟩

theorem reported_reportRow {requestId : String}
    {mutate : UpgradeStepRow → ReportKind → Option UpgradeStepRow}
    (hmutate : ∀ report row', mutate row report = some row' → Reported row row') :
    Reported row (reportRow row requestId mutate) := by
  unfold reportRow
  split
  · exact ⟨rfl, .inl rfl⟩
  · rename_i old row' hfound
    obtain ⟨report, -, hfound⟩ := Option.bind_eq_some_iff.1 hfound
    obtain ⟨row'', hrow'', heq⟩ := Option.bind_eq_some_iff.1 hfound
    cases heq
    exact hmutate report _ hrow''

theorem reported_nextRow {input : StepInput} (hinput : ∀ reads, input ≠ .tick reads) :
    Reported row (nextRow deps target row input) := by
  cases input with
  | tick reads => exact absurd rfl (hinput reads)
  | progress input now =>
    rw [nextRow]
    split
    · exact reported_reportRow fun _ _ => reported_noteProgressRow
    · exact ⟨rfl, .inl rfl⟩
  | outcome input now =>
    rw [nextRow]
    split
    · exact reported_reportRow fun _ _ => reported_noteOutcomeRow
    · exact ⟨rfl, .inl rfl⟩
  | hello serverId commit time =>
    rw [nextRow]
    split
    · exact ⟨rfl, .inr (not_isIdle_of_settled rfl)⟩
    · exact ⟨rfl, .inl rfl⟩
  | pause now =>
    rw [nextRow, UpgradeStore.pausedRow]
    split
    · exact ⟨rfl, .inr (not_isIdle_of_settled rfl)⟩
    · exact ⟨rfl, .inl rfl⟩

theorem Bounded.reported (hrow : Bounded drops row) (h : Reported row row') : Bounded drops row' :=
  h.status.elim (hrow.of_status h.attempts) (hrow.of_notIdle h.attempts)

variable (deps target) in
theorem bounded_nextRow (hrow : Bounded drops row) (input : StepInput) :
    Bounded (drops + (FindsDropped row input).toNat) (nextRow deps target row input) ∧
      (nextRow deps target row input).attempts =
        row.attempts + (Dispatches deps target row input).toNat := by
  cases input with
  | tick reads => exact ⟨bounded_tickRow hrow reads, tickRow_attempts reads⟩
  | _ =>
    refine ⟨hrow.reported (reported_nextRow (by simp)), ?_⟩
    exact (reported_nextRow (by simp)).attempts

end

theorem bounded_runRow (deps : UpgradeDeps) (target : UpgradeTarget)
    (hrow : Bounded drops row) (inputs : List StepInput) :
    Bounded (drops + countInputs deps target FindsDropped row inputs) (runRow deps target row inputs) ∧
      (runRow deps target row inputs).attempts =
        row.attempts + countInputs deps target (Dispatches deps target) row inputs := by
  induction inputs generalizing row drops with
  | nil => exact ⟨hrow, rfl⟩
  | cons input inputs ih =>
    obtain ⟨hnext, hattempts⟩ := bounded_nextRow deps target hrow input
    obtain ⟨hrun, hattempts'⟩ := ih hnext
    rw [countInputs, countInputs, ← Nat.add_assoc, ← Nat.add_assoc, ← hattempts]
    exact ⟨hrun, hattempts'⟩

/-- **A step is dispatched at most three times, and once more for each tick that finds it in flight
on a host that is not connected**, for every sequence of ticks and reports. -/
theorem dispatches_le (deps : UpgradeDeps) (target : UpgradeTarget) (planned : PlannedStep) (plannedAt : ℤ)
    (inputs : List StepInput) :
    countInputs deps target (Dispatches deps target) (stepFromPlan planned plannedAt) inputs ≤
      upgradeStepMaxAttempts +
        countInputs deps target FindsDropped (stepFromPlan planned plannedAt) inputs := by
  have hplanned : Bounded 0 (stepFromPlan planned plannedAt) := ⟨Nat.zero_le _, fun _ => Nat.succ_pos 2⟩
  obtain ⟨hrun, hattempts⟩ := bounded_runRow deps target hplanned inputs
  have hle := hrun.attempts_le
  rw [hattempts, Nat.zero_add] at hle
  exact (Nat.le_add_left _ _).trans hle

/-! ## A host that drops again and again -/

def hostFact (connected : Bool) : Option FleetServerFact :=
  some
    { serverId := "host"
      connected := connected
      commit := some "old"
      features := []
      colocated := true }

/-- A tick that finds the host connected or not. -/
def tickAt (now : ℤ) (connected : Bool) : StepInput :=
  .tick
    { fact := hostFact connected
      now := now
      appliedAt := now
      requestId := "request"
      claimedAt := now
      undelivered := none
      failedAt := now
      failedAt' := now }

/-- The host drops after each of three dispatches, and comes back. -/
def droppingTicks : List StepInput :=
  [tickAt 0 true, tickAt 1 false, tickAt 2 true, tickAt 3 false, tickAt 4 true, tickAt 5 false,
    tickAt 6 true]

/-- A host that drops in flight is dispatched a fourth time. -/
theorem dropping_host_dispatched_four_times :
    ¬countInputs oneHostDeps {} (Dispatches oneHostDeps {})
        (stepFromPlan ⟨(oneHostStep .daemon .pending).plan, .open_, false⟩ 0) droppingTicks ≤
          upgradeStepMaxAttempts ∧
      (runRow oneHostDeps {} (stepFromPlan ⟨(oneHostStep .daemon .pending).plan, .open_, false⟩ 0)
        droppingTicks).status = .dispatched := by
  decide

end TurboPanel.Upgrades
