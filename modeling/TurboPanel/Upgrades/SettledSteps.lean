import TurboPanel.Upgrades.Contract

/-!
# Settled steps stay settled

Every write of a step but one is made only where the row still has the status it was read with, and
that one was not settled. A hello writes its step as done whatever the row has become since it was
read: a step that a tick or a report settled in between, as failed, skipped or in need of attention,
is done then.
-/

namespace TurboPanel.Upgrades

open Interleaving

/-- The settled steps keep their statuses. -/
def SettledKept (w w' : World Op Ans UpgradeStore) : Prop :=
  ∀ id row, w.state.step? id = some row → isSettledStepStatus row.status = true →
    ∃ row', w'.state.step? id = some row' ∧ row'.status = row.status

/-- A hello does not write a step that is settled by now, unless it is done. -/
def HelloFindsUnsettled (_ : ℕ) (w : World Op Ans UpgradeStore) : Op → Prop
  | .saveStep row none => ∀ stored ∈ w.state.steps, stored.plan = row.plan →
    isSettledStepStatus stored.status = true → stored.status = .done
  | _ => True

theorem settledKept_refl (w : World Op Ans UpgradeStore) : SettledKept w w :=
  fun _ row hrow _ => ⟨row, hrow, rfl⟩

theorem SettledKept.trans {w₁ w₂ w₃ : World Op Ans UpgradeStore} (h : SettledKept w₁ w₂)
    (h' : SettledKept w₂ w₃) : SettledKept w₁ w₃ := by
  intro id row hrow hsettled
  obtain ⟨row', hrow', hstatus⟩ := h id row hrow hsettled
  obtain ⟨row'', hrow'', hstatus'⟩ := h' id row' hrow' (hstatus ▸ hsettled)
  exact ⟨row'', hrow'', hstatus'.trans hstatus⟩

theorem onRow_status_of_settled {i : ℕ} {w : World Op Ans UpgradeStore} {o : Op} {h : Trace Op Ans}
    (hcontract : Contract h o) (hok : HelloFindsUnsettled i w o) {row : UpgradeStepRow}
    (hrow : row ∈ w.state.steps) (hsettled : isSettledStepStatus row.status = true) :
    (o.onRow row).status = row.status := by
  cases o with
  | saveStep new expectedStatus =>
    rw [Op.onRow, UpgradeStore.savedRow]
    split
    · rename_i hwrites
      cases expectedStatus with
      | none => exact hcontract.1.trans (hok row hrow hwrites.1 hsettled).symm
      | some status =>
        -- the row was read with this status, which is not settled
        have hread : row.status = status := of_decide_eq_true hwrites.2
        rw [hread, StepMove.unsettled hcontract] at hsettled
        cases hsettled
    · rfl
  | skipUndispatchedSteps runId now =>
    rw [Op.onRow, UpgradeStore.pausedRow]
    split
    · rename_i hidle
      obtain hidle | hidle := hidle.2.2 <;> rw [hidle] at hsettled <;> cases hsettled
    · rfl
  | _ => rfl

/-- **A settled step stays settled** in every run of ticks, starts and reports, in which no hello
writes a step that was settled, otherwise than as done, since it was read. -/
theorem settled_steps_stay (deps : UpgradeDeps) (s : UpgradeStore)
    (before after : List (Choice Env Call))
    (hmeets : Meets machine (body deps) HelloFindsUnsettled (Config.init s) (before ++ after)) :
    SettledKept ((Config.init s).run machine (body deps) before).world
      ((Config.init s).run machine (body deps) (before ++ after)).world := by
  have hstep : ∀ {i e o w ans s'}, True → HelloFindsUnsettled i w o → Contract (own i w.log) o →
      machine.exec i e o w.state = some (ans, s') → True ∧ SettledKept w (w.push i o ans s') := by
    intro i e o w ans s' _ hok hcontract hexec
    refine ⟨trivial, fun id row hrow hsettled => ⟨o.onRow row, step?_of_exec hexec hrow, ?_⟩⟩
    exact onRow_status_of_settled hcontract hok (UpgradeStore.step?_eq_some.1 hrow).1 hsettled
  exact Config.run_keeps_between hstep (fun _ => ⟨trivial, settledKept_refl _⟩) settledKept_refl
    (body_obeys deps) answers_of_exec SettledKept.trans (obeys_init s) trivial hmeets

/-! ## A hello that races a report -/

/-- A hello on the target build reads the run and its step. -/
def helloReads : List (Choice Env Call) :=
  [.call (.noteDaemonCommit "host" "new" 2), .step 0 {}, .step 0 {}]

/-- The result of the update is reported as failed. -/
def failureLands : List (Choice Env Call) :=
  [.call (.noteOutcome
    { serverId := "host"
      upgradeId := some "run"
      unit := .daemon
      ok := false
      at_ := 1
      error := none
      errorCode := some "install_failed"
      requestId := "first" }), .step 1 {}, .step 1 {}, .step 1 {}, .step 1 {}]

theorem hello_revives_failed_step : ¬SettledKept
    ((Config.init (oneHostStore (oneHostStep .daemon .restarting))).run machine (body oneHostDeps)
      (helloReads ++ failureLands)).world
    ((Config.init (oneHostStore (oneHostStep .daemon .restarting))).run machine (body oneHostDeps)
      ((helloReads ++ failureLands) ++ [.step 0 {}])).world := by
  intro hkept
  obtain ⟨row', hrow', hstatus⟩ := hkept "step" _ rfl rfl
  cases hrow'
  cases hstatus

/-- Another hello, after the first one settled the step. -/
def helloAgain : List (Choice Env Call) :=
  [.call (.noteDaemonCommit "host" "new" 3), .step 1 {}, .step 1 {}]

theorem settled_steps_stay_hello :
    (((Config.init (oneHostStore (oneHostStep .daemon .restarting))).run machine (body oneHostDeps)
      (helloReads ++ [.step 0 {}])).world.state.step? "step").map UpgradeStepRow.status = some .done ∧
    SettledKept
      ((Config.init (oneHostStore (oneHostStep .daemon .restarting))).run machine (body oneHostDeps)
        (helloReads ++ [.step 0 {}])).world
      ((Config.init (oneHostStore (oneHostStep .daemon .restarting))).run machine (body oneHostDeps)
        ((helloReads ++ [.step 0 {}]) ++ helloAgain)).world := by
  refine ⟨rfl, settled_steps_stay oneHostDeps _ _ _ ?_⟩
  refine meets_call _ _ (meets_step _ _ rfl trivial (meets_step _ _ rfl trivial ?_))
  refine meets_step _ _ rfl ?_ (meets_call _ _ (meets_step _ _ rfl trivial
    (meets_step _ _ rfl trivial trivial)))
  intro stored hstored _ hsettled
  rw [List.mem_singleton.1 hstored] at hsettled
  cases hsettled

end TurboPanel.Upgrades
