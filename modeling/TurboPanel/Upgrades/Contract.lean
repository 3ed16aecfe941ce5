import TurboPanel.Upgrades.Coordinator

/-!
# What the calls of the coordinator write

One contract covers every call (`body_obeys`). A step that was read is written as `StepMove` says,
with the status it was read with; only a hello writes without one, a daemon step as done. A command
is enqueued right after the write that claimed its step. A run is saved as open only by a call that
read it as open, or inserted it, and did not finish it since.
-/

namespace TurboPanel.Upgrades

open Interleaving List
open Interleaving.Prog (call foldEach only_foldEach sat_foldEach)

/-! ## The contract -/

/-- The operation shows its call an open run with this id. -/
def Opens (id : String) : (o : Op) × Ans o → Prop
  | ⟨.activeRun, some run⟩ => run.id = id
  | ⟨.insertRun run _, true⟩ => run.id = id
  | _ => False

/-- The operation saves the run with this id as finished. -/
def Finishes (id : String) : (o : Op) × Ans o → Prop
  | ⟨.saveRun run, _⟩ => run.id = id ∧ isActiveStatus run.status = false
  | _ => False

/-- The operation claims the step for a dispatch. -/
def Claims (plan : StepPlan) : (o : Op) × Ans o → Prop
  | ⟨.saveStep row (some status), true⟩ =>
    row.plan = plan ∧ row.status = .dispatched ∧ IsDue status
  | _ => False

/-- The call has seen the run open, and did not finish it since. -/
def SawOpen (id : String) (h : Trace Op Ans) : Prop := Since (Opens id) (fun x => ¬Finishes id x) h

/-- What a call makes, after what it made before. -/
def Contract (h : Trace Op Ans) : Op → Prop
  | .saveStep row (some status) => StepMove status row
  | .saveStep row none => row.status = .done ∧ row.plan.unit = .daemon
  | .enqueue plan _ => ∃ x, h.getLast? = some x ∧ Claims plan x
  | .insertRun run steps =>
    run.status = .pending ∧ ∀ step ∈ steps, isInFlightStepStatus step.status = false
  | .saveRun run => isActiveStatus run.status = true → SawOpen run.id h
  | _ => True

/-- What the store answers. -/
def Answers : (o : Op) → Ans o → Prop
  | .activeRun, some run => isActiveStatus run.status = true
  | _, _ => True

theorem answers_of_exec {e : Env} {o : Op} {s s' : UpgradeStore} {ans : Ans o}
    (h : exec e o s = some (ans, s')) : Answers o ans := by
  cases o with
  | activeRun =>
    cases h
    cases hactive : s.activeRun with
    | none => trivial
    | some run =>
      exact find?_some (p := fun run : UpgradeRunRow => isActiveStatus run.status) hactive
  | _ => trivial

theorem SawOpen.append {id : String} {h : Trace Op Ans} (hsaw : SawOpen id h) {x : (o : Op) × Ans o}
    (hx : ¬Finishes id x) : SawOpen id (h ++ [x]) :=
  since_concat.2 (.inr ⟨hsaw, hx⟩)

theorem sawOpen_of_opens {id : String} (h : Trace Op Ans) {x : (o : Op) × Ans o} (hx : Opens id x) :
    SawOpen id (h ++ [x]) :=
  since_concat.2 (.inl hx)

/-! ## Operations that keep what is known of a run -/

/-- An operation that the contract allows at any time, and that saves no run. -/
def Plain : Op → Prop
  | .saveStep row (some status) => StepMove status row
  | .saveStep row none => row.status = .done ∧ row.plan.unit = .daemon
  | .enqueue _ _ => False
  | .insertRun _ _ => False
  | .saveRun _ => False
  | _ => True

/-- A fact about the trace that only a save of a run can end. -/
def KeptByPlain (K : Trace Op Ans → Prop) : Prop :=
  ∀ h (x : (o : Op) × Ans o), (∀ run, x.1 ≠ .saveRun run) → K h → K (h ++ [x])

theorem keptByPlain_sawOpen (runId : String) : KeptByPlain (SawOpen runId) := by
  intro h x hx hsaw
  refine hsaw.append ?_
  obtain ⟨o, ans⟩ := x
  cases o with
  | saveRun run => exact absurd rfl (hx run)
  | _ => exact not_false

theorem Plain.contract {o : Op} (h : Plain o) (trace : Trace Op Ans) : Contract trace o := by
  cases o with
  | saveStep row status => cases status <;> exact h
  | enqueue => exact h.elim
  | insertRun => exact h.elim
  | saveRun => exact h.elim
  | _ => trivial

theorem Plain.ne_saveRun {o : Op} (h : Plain o) (run : UpgradeRunRow) : o ≠ .saveRun run := by
  rintro rfl
  exact h

/-- The judgement of the contract. -/
abbrev Proc.Sat {α : Type} (p : Proc α) (Q : Trace Op Ans → α → Prop) (h : Trace Op Ans) : Prop :=
  Prog.Sat Answers Contract Q p h

section

variable {K : Trace Op Ans → Prop} (hK : KeptByPlain K) {h : Trace Op Ans}

theorem recordDispatchFailure_only (step : UpgradeStepRow) (error : String) :
    (recordDispatchFailure step error).Only Plain fun _ => True :=
  ⟨trivial, fun _ => ⟨trivial, fun _ =>
    ⟨stepMove_dispatchFailedRow step error _ _, fun _ => trivial⟩⟩⟩

include hK

theorem KeptByPlain.sat {α : Type} {Q : α → Prop} {p : Proc α} (hp : p.Only Plain Q) (hh : K h) :
    Proc.Sat p (fun h a => K h ∧ Q a) h :=
  hp.sat (fun h _ ho _ => ho.contract h) (fun h o ans ho hh => hK h ⟨o, ans⟩ ho.ne_saveRun hh) hh

/-! ## Steps -/

theorem dispatchStep_sat (run : UpgradeRunRow) {step : UpgradeStepRow} (hstep : IsDue step.status)
    (fact : Option FleetServerFact) (hh : K h) :
    Proc.Sat (dispatchStep run step fact) (fun h _ => K h) h := by
  have hask : ∀ {h : Trace Op Ans} (o : Op) (ans : Ans o), (∀ run, o ≠ .saveRun run) → K h →
      K (h ++ [⟨o, ans⟩]) := fun o ans ho hh => hK _ ⟨o, ans⟩ ho hh
  refine ⟨trivial, fun requestId _ => ⟨trivial, fun now _ => ?_⟩⟩
  refine ⟨stepMove_claimRow hstep requestId now, fun claimed _ => ?_⟩
  have hclaimed := hask (.saveStep (claimRow step requestId now) (some step.status)) claimed
    (by simp) (hask .clock now (by simp) (hask .freshRequestId requestId (by simp) hh))
  cases claimed with
  | false => exact hclaimed
  | true =>
    refine ⟨⟨_, getLast?_concat, rfl, rfl, hstep⟩, fun error _ => ?_⟩
    have henqueued := hask (.enqueue step.plan (envelopeFor run step fact requestId)) error (by simp)
      hclaimed
    cases error with
    | none => exact henqueued
    | some error =>
      exact (hK.sat (recordDispatchFailure_only _ error) henqueued).mono fun _ _ hh => hh.1

omit hK in
theorem applyAction_only (deps : UpgradeDeps) (run : UpgradeRunRow) {step : UpgradeStepRow}
    (hstep : isSettledStepStatus step.status = false) (fact : Option FleetServerFact) :
    (applyAction deps run step fact).Only Plain
      fun applied => applied.queued = true → IsDue applied.step.status := by
  refine ⟨trivial, fun now => ⟨trivial, fun now' => ?_⟩⟩
  have hneeds := planStepAction_needs (stepView step)
    { serverConnected := fact.any FleetServerFact.connected
      currentCommit := currentCommit deps step fact }
    { now := now, verifyTimeoutMs := deps.verifyTimeoutMs }
  dsimp only [Prog.bind]
  cases hwork : actOn deps run.target step fact now' (stepActionFor deps step fact now) with
  | nothing => exact fun hqueued => by cases hqueued
  | dispatch => exact fun _ => isDue_of_actOn hneeds hwork
  | save row =>
    refine Prog.Only.bind (Q := fun _ => True) ?_ fun written _ hqueued => by cases hqueued
    rw [saveStepIfChanged]
    split
    · trivial
    · exact ⟨stepMove_actOn hstep hneeds hwork, fun _ => trivial⟩

theorem processSteps_sat (deps : UpgradeDeps) (run : UpgradeRunRow) {steps : List UpgradeStepRow}
    (hsteps : ∀ step ∈ steps, isSettledStepStatus step.status = false)
    (fleetView : List FleetServerFact) (hh : K h) :
    Proc.Sat (processSteps deps run steps fleetView) (fun h _ => K h) h := by
  refine Prog.Sat.bind (Q := fun h (pass : Pass) => K h ∧ ∀ step ∈ pass.queue, IsDue step.status) ?_ ?_
  · refine sat_foldEach ⟨hh, fun _ hstep => by cases hstep⟩ ?_
    intro h pass step hmem ⟨hh, hqueue⟩
    refine Prog.Sat.bind (hK.sat (applyAction_only deps run (hsteps step hmem) _) hh) ?_
    intro h applied ⟨hh, hdue⟩
    refine ⟨hh, fun step hstep => ?_⟩
    simp only [Pass.queue, filter_append, map_append, mem_append] at hstep
    obtain hstep | hstep := hstep
    · exact hqueue step hstep
    · obtain ⟨applied', happlied, rfl⟩ := mem_map.1 hstep
      obtain ⟨hmem, hqueued⟩ := mem_filter.1 happlied
      rw [mem_singleton.1 hmem] at hqueued ⊢
      exact hdue hqueued
  · intro h pass ⟨hh, hqueue⟩
    refine sat_foldEach hh ?_
    intro h acc step hmem hh
    refine Prog.Sat.bind (dispatchStep_sat hK run (hqueue step ?_) _ hh) fun h _ hh => hh
    rw [capWorkersDispatch] at hmem
    split at hmem
    · exact mem_of_mem_take hmem
    · exact hmem

omit hK in
theorem fleetViewFor_only (deps : UpgradeDeps) (fleet : List FleetServerFact)
    (steps : List UpgradeStepRow) : (fleetViewFor deps fleet steps).Only Plain fun _ => True := by
  rw [fleetViewFor]
  split
  · trivial
  · exact ⟨trivial, fun _ => trivial⟩

omit hK in
theorem tickWindow_only (runId : String) (cursor : Option TickCursor) :
    (tickWindow runId cursor).Only Plain fun _ => True := by
  refine ⟨trivial, fun counts => ⟨trivial, fun failed => ⟨trivial, fun head => ?_⟩⟩⟩
  cases head with
  | none => trivial
  | some head => exact ⟨trivial, fun _ => trivial⟩

omit hK in
theorem writeWindowCursor_only (run : UpgradeRunRow) (window : UpgradeTickWindow) :
    (writeWindowCursor run window).Only Plain fun _ => True := by
  rw [writeWindowCursor]
  split
  · exact ⟨trivial, fun _ => trivial⟩
  · trivial

end

/-! ## Saving a run -/

section

variable {h : Trace Op Ans}

theorem isActiveStatus_finishedRunStatus (counts : StepSummary) (error : Option String) :
    isActiveStatus (finishedRunStatus counts error) = false := by
  rw [finishedRunStatus, finalRunStatusFromSummary]
  split_ifs <;> rfl

theorem contract_saveRun_finished {run : UpgradeRunRow} (hrun : isActiveStatus run.status = false) :
    Contract h (.saveRun run) := by
  intro hactive
  rw [hrun] at hactive
  cases hactive

theorem failRun_sat (run : UpgradeRunRow) (phase : PlatformPhase) (counts : StepSummary) :
    Proc.Sat (failRun run phase counts) (fun _ _ => True) h :=
  ⟨trivial, fun _ _ => ⟨contract_saveRun_finished rfl, fun _ _ => trivial⟩⟩

theorem finishRun_sat (run : UpgradeRunRow) (counts : StepSummary) :
    Proc.Sat (finishRun run counts) (fun _ _ => True) h := by
  refine ⟨trivial, fun _ _ => ⟨contract_saveRun_finished ?_, fun _ _ => ⟨trivial, fun _ _ => trivial⟩⟩⟩
  exact isActiveStatus_finishedRunStatus counts run.error

theorem Prog.Sat.thenCursor {p : Proc Unit} (hp : Proc.Sat p (fun _ _ => True) h) :
    Proc.Sat (do p; ask (.writeTickCursor none)) (fun _ _ => True) h :=
  Prog.Sat.bind hp fun _ _ _ => ⟨trivial, fun _ _ => trivial⟩

variable {run : UpgradeRunRow} (hh : SawOpen run.id h)

include hh

theorem saveRunIfChanged_sat (phase : Option UpgradePhase) (counts : StepSummary) :
    Proc.Sat (saveRunIfChanged run phase counts) (fun _ _ => True) h := by
  rw [saveRunIfChanged]
  split
  · trivial
  · exact ⟨fun _ => hh, fun _ _ => trivial⟩

theorem stopPausedRun_sat (hrun : isActiveStatus run.status = true) :
    Proc.Sat (stopPausedRun run) (fun h run' => SawOpen run.id h ∧ run'.id = run.id) h := by
  have hK := keptByPlain_sawOpen run.id
  refine ⟨trivial, fun now _ => ⟨trivial, fun settled _ => ?_⟩⟩
  have hsaw := hK _ ⟨.skipUndispatchedSteps run.id now, settled⟩ (by simp)
    (hK h ⟨.clock, now⟩ (by simp) hh)
  change Proc.Sat (if settled = 0 ∨ run.error = some pausedRunError then _ else _) _ _
  split
  · exact ⟨hsaw, rfl⟩
  · refine ⟨fun _ => hsaw, fun _ _ => ⟨hsaw.append ?_, rfl⟩⟩
    intro hfin
    exact Bool.false_ne_true (hfin.2.symm.trans hrun)

theorem endedByPlatformFailure_sat :
    Proc.Sat (endedByPlatformFailure run) (fun h ended => ended = false → SawOpen run.id h) h := by
  refine Prog.Sat.bind ((keptByPlain_sawOpen run.id).sat (tickWindow_only run.id none) hh) ?_
  intro h window ⟨hh, _⟩
  cases hphase : window.failedPlatformPhase with
  | none =>
    simp only
    exact fun _ => hh
  | some phase =>
    simp only
    refine Prog.Sat.bind (failRun_sat run phase window.counts) fun h _ _ => ?_
    exact ⟨trivial, fun _ _ hended => by cases hended⟩

variable (deps : UpgradeDeps) (steps : List UpgradeStepRow) (window : UpgradeTickWindow)

theorem closeWindow_sat (counts : StepSummary) :
    Proc.Sat (closeWindow run window counts) (fun _ _ => True) h := by
  rw [closeWindow]
  split
  · exact finishRun_sat run counts
  · refine Prog.Sat.bind (saveRunIfChanged_sat hh window.phase counts) fun h _ _ => ?_
    exact ((writeWindowCursor_only run window).sat (K := fun _ => True)
      (fun h _ ho _ => ho.contract h) (fun _ _ _ _ _ => trivial) trivial).mono fun _ _ _ => trivial

theorem advanceOpenWindow_sat :
    Proc.Sat (advanceOpenWindow deps run window) (fun _ _ => True) h := by
  have hK := keptByPlain_sawOpen run.id
  refine ⟨trivial, fun fleet _ => ?_⟩
  have hsaw := hK h ⟨.facts (factIds deps window), fleet⟩ (by simp) hh
  refine Prog.Sat.bind (hK.sat (fleetViewFor_only deps fleet _) hsaw) fun h view ⟨hh, _⟩ => ?_
  refine Prog.Sat.bind (processSteps_sat hK deps run ?_ view hh) fun h pass hh => ?_
  · intro step hstep
    have hopen := (mem_filter.1 hstep).2
    rw [isOpenInWindow, Bool.and_eq_true, Bool.not_eq_true'] at hopen
    exact hopen.1
  split
  · refine Prog.Sat.bind (Q := fun h ended => ended = false → SawOpen run.id h) ?_ ?_
    · rw [endedByPass]
      split
      · exact endedByPlatformFailure_sat hh
      · exact fun _ => hh
    · intro h ended hended
      cases ended with
      | true => trivial
      | false =>
        refine ⟨trivial, fun counts _ => ?_⟩
        exact closeWindow_sat (hK _ ⟨.countSteps run.id, counts⟩ (by simp) (hended rfl)) window counts
  · exact closeWindow_sat hh window window.counts

theorem advanceWindow_sat :
    Proc.Sat (advanceWindow deps run) (fun _ _ => True) h := by
  have hK := keptByPlain_sawOpen run.id
  refine ⟨trivial, fun cursor _ => ?_⟩
  have hsaw := hK h ⟨.readTickCursor run.id, cursor⟩ (by simp) hh
  refine Prog.Sat.bind (hK.sat (tickWindow_only run.id cursor) hsaw) fun h window ⟨hh, _⟩ => ?_
  cases window.failedPlatformPhase with
  | some phase => exact Prog.Sat.thenCursor (failRun_sat run phase window.counts)
  | none =>
    simp only
    split
    · exact finishRun_sat run window.counts
    · exact advanceOpenWindow_sat hh deps window

theorem closeAdvance_sat :
    Proc.Sat (closeAdvance run steps) (fun _ _ => True) h := by
  rw [closeAdvance]
  split
  · exact failRun_sat run _ _
  · split
    · refine ⟨trivial, fun _ _ => ⟨contract_saveRun_finished ?_, fun _ _ => trivial⟩⟩
      exact isActiveStatus_finishedRunStatus _ none
    · exact ⟨fun _ => hh, fun _ _ => trivial⟩

theorem advance_sat (fleet : List FleetServerFact) : Proc.Sat (advance deps run steps fleet) (fun _ _ => True) h := by
  have hK := keptByPlain_sawOpen run.id
  refine Prog.Sat.bind (hK.sat (fleetViewFor_only deps fleet _) hh) fun h view ⟨hh, _⟩ => ?_
  refine Prog.Sat.bind (processSteps_sat hK deps run ?_ view hh) fun h pass hh => ?_
  · intro step hstep
    have hwave := (mem_filter.1 hstep).2
    rw [stepInCurrentWave] at hwave
    split at hwave
    · cases hwave
    · rename_i hopen
      exact Bool.eq_false_iff.2 hopen
  exact closeAdvance_sat hh _

end

/-! ## Calls -/

theorem sat_of_only {α : Type} {p : Proc α} (hp : p.Only Plain fun _ => True) (h : Trace Op Ans) :
    Proc.Sat p (fun _ _ => True) h :=
  (hp.sat (K := fun _ => True) (fun h _ ho _ => ho.contract h) (fun _ _ _ _ _ => trivial)
    trivial).mono fun _ _ _ => trivial

theorem settleOffline_only (step : UpgradeStepRow) :
    (settleOffline step).Only Plain fun _ => True := by
  rw [settleOffline]
  split
  · trivial
  · rename_i hopen
    refine ⟨trivial, fun facts => ?_⟩
    change Prog.Only Plain (fun _ => True) (if _ then _ else _)
    split
    · rename_i hidle
      refine ⟨?_, fun _ => trivial⟩
      exact stepMove_of_settled (Bool.eq_false_iff.2 hopen) rfl (.inr hidle.1)
    · trivial

theorem settleRunWaitingOnOfflineServers_sat (run : UpgradeRunRow) (h : Trace Op Ans) :
    Proc.Sat (settleRunWaitingOnOfflineServers run) (fun _ _ => True) h := by
  refine Prog.sat_call_bind.2 ⟨trivial, fun steps _ => ?_⟩
  refine Prog.Sat.bind (Q := fun _ _ => True) (sat_of_only ?_ _) fun h settled _ => ?_
  · exact only_foldEach trivial fun acc step _ _ =>
      Prog.Only.bind (settleOffline_only step) fun _ _ => trivial
  · change Proc.Sat (if settled.2 = true then _ else _) _ _
    split
    · exact Prog.Sat.bind (finishRun_sat run _) fun _ _ _ => trivial
    · trivial

theorem isInFlightStepStatus_stepFromPlan (planned : PlannedStep) (now : ℤ) :
    isInFlightStepStatus (stepFromPlan planned now).status = false := by
  rw [stepFromPlan]
  cases planned.start <;> rfl

variable (deps : UpgradeDeps)

theorem startPlanned_sat (h : Trace Op Ans) :
    Proc.Sat (startPlanned deps) (fun _ _ => True) h := by
  refine ⟨trivial, fun planned _ => ?_⟩
  cases planned with
  | none => trivial
  | some planned =>
    refine ⟨trivial, fun fleet _ => ⟨trivial, fun now _ => ⟨⟨rfl, ?_⟩, fun created _ => ?_⟩⟩⟩
    · intro step hstep
      obtain ⟨planned', -, rfl⟩ := mem_map.1 hstep
      exact isInFlightStepStatus_stepFromPlan planned' now
    cases created with
    | false => trivial
    | true =>
      refine ⟨trivial, fun stored _ => advance_sat ?_ deps stored fleet⟩
      exact keptByPlain_sawOpen planned.id _ _ (by simp) (sawOpen_of_opens _ rfl)

theorem startUnblocked_sat (h : Trace Op Ans) :
    Proc.Sat (startUnblocked deps) (fun _ _ => True) h := by
  refine ⟨trivial, fun paused _ => ?_⟩
  cases paused with
  | true => trivial
  | false => exact startPlanned_sat deps _

theorem start_sat (h : Trace Op Ans) :
    Proc.Sat (start deps) (fun _ _ => True) h := by
  refine ⟨trivial, fun active _ => ?_⟩
  cases active with
  | none => exact startUnblocked_sat deps _
  | some run =>
    refine ⟨trivial, fun steps _ => ⟨trivial, fun fleet _ => ?_⟩⟩
    change Proc.Sat (if runBlocksStart steps fleet = true then _ else _) _ _
    split
    · trivial
    · refine Prog.Sat.bind (settleRunWaitingOnOfflineServers_sat run _) fun h settled _ => ?_
      cases settled with
      | true => exact startUnblocked_sat deps h
      | false => trivial

theorem checkForUpdates_sat (paused : Bool) (h : Trace Op Ans) :
    Proc.Sat (checkForUpdates deps paused) (fun _ _ => True) h := by
  refine ⟨trivial, fun active _ => ⟨trivial, fun targetDiffers _ => ?_⟩⟩
  change Proc.Sat (if _ then _ else _) _ _
  split
  · exact start_sat deps _
  · trivial

theorem updateNow_sat (h : Trace Op Ans) :
    Proc.Sat (updateNow deps) (fun _ _ => True) h := by
  rw [updateNow]
  split
  · trivial
  · refine ⟨trivial, fun active _ => ?_⟩
    cases active with
    | some run => trivial
    | none =>
      refine ⟨trivial, fun paused _ => ?_⟩
      cases paused with
      | true => trivial
      | false =>
        refine ⟨trivial, fun pressed _ => ?_⟩
        cases pressed with
        | true => exact checkForUpdates_sat deps false _
        | false => trivial

theorem tickActive_sat (paused : Bool) (h : Trace Op Ans) :
    Proc.Sat (tickActive deps paused) (fun _ _ => True) h := by
  refine ⟨trivial, fun active hactive => ?_⟩
  cases active with
  | none => trivial
  | some run =>
    have hsaw : SawOpen run.id (h ++ [⟨.activeRun, some run⟩]) := sawOpen_of_opens h rfl
    cases paused with
    | false => exact advanceWindow_sat hsaw deps
    | true =>
      refine Prog.Sat.bind (stopPausedRun_sat hsaw hactive) fun h run' ⟨hh, hid⟩ => ?_
      exact advanceWindow_sat (hid ▸ hh) deps

theorem tick_sat (resolveManifests : Bool) (h : Trace Op Ans) :
    Proc.Sat (tick deps resolveManifests) (fun _ _ => True) h := by
  refine ⟨trivial, fun paused _ => ?_⟩
  cases resolveManifests with
  | true => exact Prog.Sat.bind (checkForUpdates_sat deps paused _) fun h _ _ => tickActive_sat deps paused h
  | false => exact tickActive_sat deps paused _

theorem noteDaemonCommit_only (serverId commit : String) (time : ℤ) :
    (noteDaemonCommit serverId commit time).Only Plain fun _ => True := by
  refine ⟨trivial, fun active => ?_⟩
  cases active with
  | none => trivial
  | some run =>
    refine ⟨trivial, fun steps => ?_⟩
    dsimp only [Prog.bind]
    split
    · trivial
    · rename_i step hfind
      have hstep := find?_some hfind
      exact ⟨⟨rfl, (of_decide_eq_true hstep).2.1⟩, fun _ => trivial⟩

theorem findOpenStep_only (serverId : String) (unit : UpgradeStepUnit) (upgradeId : Option String) :
    (findOpenStep serverId unit upgradeId).Only Plain
      fun step => ∀ row ∈ step, isSettledStepStatus row.status = false := by
  refine ⟨trivial, fun active => ?_⟩
  cases active with
  | none => exact fun row hrow => nomatch hrow
  | some run =>
    change Prog.Only Plain _ (if _ then _ else _)
    split
    · exact fun row hrow => nomatch hrow
    · refine ⟨trivial, fun steps row hrow => ?_⟩
      have hstep := find?_some hrow
      exact (of_decide_eq_true hstep).2.2

theorem applyReport_only (serverId : String) (unit : UpgradeStepUnit) (upgradeId : Option String)
    (requestId : String) {mutate : ℤ → UpgradeStepRow → ReportKind → Option UpgradeStepRow}
    (hmutate : ∀ now step report row, isSettledStepStatus step.status = false →
      mutate now step report = some row → StepMove step.status row) (attempts : ℕ) :
    (applyReport serverId unit upgradeId requestId mutate attempts).Only Plain fun _ => True := by
  induction attempts with
  | zero => trivial
  | succ attempts ih =>
    refine (findOpenStep_only serverId unit upgradeId).bind fun step hstep => ⟨trivial, fun now => ?_⟩
    dsimp only [Prog.bind]
    split
    · trivial
    · rename_i old row hfound
      obtain ⟨step', hmem, hfound⟩ := Option.bind_eq_some_iff.1 hfound
      obtain ⟨report, -, hfound⟩ := Option.bind_eq_some_iff.1 hfound
      obtain ⟨row', hrow, heq⟩ := Option.bind_eq_some_iff.1 hfound
      cases heq
      refine ⟨hmutate now _ report _ (hstep _ hmem) hrow, fun saved => ?_⟩
      cases saved with
      | true => trivial
      | false => exact ih

/-- **Every call of the coordinator meets the contract.** -/
theorem body_obeys (x : Call) :
    Proc.Sat (body deps x) (fun _ _ => True) [] := by
  cases x with
  | tick resolveManifests => exact tick_sat deps resolveManifests []
  | start => exact start_sat deps []
  | updateNow => exact updateNow_sat deps []
  | noteDaemonCommit serverId commit time =>
    exact sat_of_only (noteDaemonCommit_only serverId commit time) []
  | noteProgress input =>
    exact sat_of_only (applyReport_only _ _ _ _ (fun now step report row hopen hrow =>
      stepMove_noteProgressRow hopen hrow) _) []
  | noteOutcome input =>
    exact sat_of_only (applyReport_only _ _ _ _ (fun now step report row hopen hrow =>
      stepMove_noteOutcomeRow hopen hrow) _) []

end TurboPanel.Upgrades
