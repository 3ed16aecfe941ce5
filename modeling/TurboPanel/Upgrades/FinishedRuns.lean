import TurboPanel.Upgrades.Contract

/-!
# Finished runs stay finished

A run is saved whole, from the copy that the call read, and with no condition on the row. A call
saves a run as open only when it saw it open and did not finish it since. What it cannot see is that
another call finished the run in between: the save then opens the run again.

When no call finishes a run between the read and the save of another, a finished run is never opened
again.
-/

namespace TurboPanel.Upgrades

open List Interleaving

/-- The runs that are finished stay so. -/
def FinishedKept (w w' : World Op Ans UpgradeStore) : Prop :=
  ∀ id run, w.state.run? id = some run → isActiveStatus run.status = false →
    ∃ run', w'.state.run? id = some run' ∧ isActiveStatus run'.status = false

/-- No other call finished a run that is saved as open, since the call that saves it saw it open; or
else another run is open by now, and the save fails. -/
def SavesWhatItSaw (i : ℕ) (w : World Op Ans UpgradeStore) : Op → Prop
  | .saveRun run => isActiveStatus run.status = true →
    Since (fun ev => ev.thread = i ∧ Opens run.id ⟨ev.op, ev.ans⟩)
      (fun ev => ev.thread ≠ i → ¬Finishes run.id ⟨ev.op, ev.ans⟩) w.log ∨
    ∃ other ∈ w.state.runs, other.id ≠ run.id ∧ isActiveStatus other.status = true
  | _ => True

theorem finishedKept_refl (w : World Op Ans UpgradeStore) : FinishedKept w w :=
  fun _ run hrun hfinished => ⟨run, hrun, hfinished⟩

theorem FinishedKept.trans {w₁ w₂ w₃ : World Op Ans UpgradeStore} (h : FinishedKept w₁ w₂)
    (h' : FinishedKept w₂ w₃) : FinishedKept w₁ w₃ := by
  intro id run hrun hfinished
  obtain ⟨run', hrun', hfinished'⟩ := h id run hrun hfinished
  exact h' id run' hrun' hfinished'

/-! ## The invariant -/

/-- A run that someone saw open, and nobody finished since, is open. -/
def OpenSince (w : World Op Ans UpgradeStore) : Prop :=
  ∀ id run, Since (fun ev => Opens id ⟨ev.op, ev.ans⟩) (fun ev => ¬Finishes id ⟨ev.op, ev.ans⟩) w.log →
    w.state.run? id = some run → isActiveStatus run.status = true

variable {e : Env} {o : Op} {s s' : UpgradeStore} {run : UpgradeRunRow}

theorem isActiveStatus_of_opens {ans : Ans o} {h : Trace Op Ans}
    (hexec : exec e o s = some (ans, s')) (hcontract : Contract h o)
    (hopens : Opens run.id ⟨o, ans⟩) (hrun : run ∈ s'.runs) : isActiveStatus run.status = true := by
  have hsame : ∀ {other : UpgradeRunRow}, other ∈ s'.runs → other.id = run.id → other = run :=
    fun hother hid => inj_on_of_nodup_map s'.runs_nodup hother hrun hid
  cases o with
  | activeRun =>
    cases ans with
    | none => exact hopens.elim
    | some active =>
      obtain ⟨hactive, rfl⟩ := Prod.mk.inj (Option.some.inj hexec)
      rw [← hsame (mem_of_find?_eq_some hactive) hopens]
      exact List.find?_some (p := fun run : UpgradeRunRow => isActiveStatus run.status) hactive
  | insertRun new steps =>
    cases ans with
    | false => exact hopens.elim
    | true =>
      have hins := Option.some.inj hexec
      rw [UpgradeStore.insertRun] at hins
      split at hins
      · cases hins
        rw [← hsame (mem_append_right _ mem_cons_self) hopens, hcontract.1]
        rfl
      · cases (Prod.mk.inj hins).1
  | _ => exact hopens.elim

theorem isActiveStatus_of_not_finishes {ans : Ans o}
    {h : Trace Op Ans} (hexec : exec e o s = some (ans, s')) (hcontract : Contract h o) {id : String}
    (hfin : ¬Finishes id ⟨o, ans⟩)
    (hopen : ∀ run, s.run? id = some run → isActiveStatus run.status = true)
    (hrun : s'.run? id = some run) : isActiveStatus run.status = true := by
  obtain ⟨hmem, hid⟩ := UpgradeStore.run?_eq_some.1 hrun
  obtain ⟨new, hruns, hnew⟩ := exec_runs hexec
  rw [hruns] at hmem
  obtain hold | hadded := mem_append.1 hmem
  · obtain ⟨stored, hstored, rfl⟩ := mem_map.1 hold
    rw [Op.onRun_id] at hid
    have hactive := hopen stored (UpgradeStore.run?_eq_some.2 ⟨hstored, hid⟩)
    cases o with
    | saveRun saved =>
      rw [Op.onRun, UpgradeStore.savedRun]
      split
      · rename_i heq
        by_contra hinactive
        exact hfin ⟨heq.symm.trans hid, Bool.eq_false_iff.2 hinactive⟩
      · exact hactive
    | _ => exact hactive
  · obtain rfl | ⟨run', steps, rfl, rfl⟩ := hnew
    · cases hadded
    · rw [mem_singleton.1 hadded, hcontract.1]
      rfl

theorem openSince_push {i : ℕ} {w : World Op Ans UpgradeStore} {ans : Ans o}
    (hinv : OpenSince w) (hcontract : Contract (own i w.log) o)
    (hexec : exec e o w.state = some (ans, s')) : OpenSince (w.push i o ans s') := by
  intro id run hsince hrun
  obtain hopens | ⟨hsince, hfin⟩ := since_concat.1 hsince
  · obtain ⟨hmem, rfl⟩ := UpgradeStore.run?_eq_some.1 hrun
    exact isActiveStatus_of_opens hexec hcontract hopens hmem
  · exact isActiveStatus_of_not_finishes hexec hcontract hfin (fun run => hinv id run hsince) hrun

/-! ## Saves -/

theorem saveRun_eq_none {stored other : UpgradeRunRow} (hstored : stored ∈ s.runs)
    (hid : stored.id = run.id) (hrun : isActiveStatus run.status = true) (hother : other ∈ s.runs)
    (hne : other.id ≠ run.id) (hactive : isActiveStatus other.status = true) : s.saveRun run = none := by
  rw [Option.eq_none_iff_forall_ne_some]
  intro s' hsave
  have hexec : exec {} (.saveRun run) s = some ((), s') := by rw [exec, hsave, Option.map_some]
  have hmem := mem_runs_of_exec hexec hstored
  have hmem' := mem_runs_of_exec hexec hother
  rw [Op.onRun, UpgradeStore.savedRun, if_pos hid] at hmem
  rw [Op.onRun, UpgradeStore.savedRun, if_neg hne] at hmem'
  exact hne (congrArg UpgradeRunRow.id (UpgradeStore.eq_of_isActiveStatus hmem' hmem hactive hrun))

theorem onRun_finished {i : ℕ} {w : World Op Ans UpgradeStore} {ans : Ans o}
    (hinv : OpenSince w) (hok : SavesWhatItSaw i w o)
    (hcontract : Contract (own i w.log) o) (hexec : exec e o w.state = some (ans, s')) {id : String}
    (hrun : w.state.run? id = some run) (hfinished : isActiveStatus run.status = false) :
    isActiveStatus (o.onRun run).status = false := by
  cases o with
  | saveRun saved =>
    rw [Op.onRun, UpgradeStore.savedRun]
    split
    · rename_i heq
      by_contra hopen
      rw [Bool.not_eq_false] at hopen
      obtain hsince | ⟨other, hother, hne, hactive⟩ := hok hopen
      · -- neither the call itself nor another one finished the run since it was seen open
        have hnever : Since (fun ev => Opens saved.id ⟨ev.op, ev.ans⟩)
            (fun ev => ¬Finishes saved.id ⟨ev.op, ev.ans⟩) w.log := by
          refine ((since_of_own (hcontract hopen)).and hsince).mono (fun ev hev => hev.2) ?_
          exact fun ev hev => (em (ev.thread = i)).elim hev.1 hev.2
        have hid := (UpgradeStore.run?_eq_some.1 hrun).2
        rw [hinv saved.id run hnever (heq ▸ hid ▸ hrun)] at hfinished
        cases hfinished
      · have hnone := saveRun_eq_none (UpgradeStore.run?_eq_some.1 hrun).1 heq hopen hother hne hactive
        rw [exec, hnone] at hexec
        cases hexec
    · exact hfinished
  | _ => exact hfinished

/-- **A finished run is never opened again** in a run of ticks and starts in which no call finishes
it between the time when another one saw it open and the time when that one saves it. -/
theorem finished_runs_stay (deps : UpgradeDeps) (s : UpgradeStore)
    (before after : List (Choice Env Call))
    (hmeets : Meets machine (body deps) SavesWhatItSaw (Config.init s) (before ++ after)) :
    FinishedKept ((Config.init s).run machine (body deps) before).world
      ((Config.init s).run machine (body deps) (before ++ after)).world := by
  have hstep : ∀ {i e o w ans s'}, OpenSince w → SavesWhatItSaw i w o → Contract (own i w.log) o →
      machine.exec i e o w.state = some (ans, s') →
        OpenSince (w.push i o ans s') ∧ FinishedKept w (w.push i o ans s') := by
    intro i e o w ans s' hinv hok hcontract hexec
    refine ⟨openSince_push hinv hcontract hexec, fun id run hrun hfinished => ?_⟩
    exact ⟨o.onRun run, run?_of_exec hexec hrun,
      onRun_finished hinv hok hcontract hexec hrun hfinished⟩
  have hinit : OpenSince (Config.init s : Interleaving.Config Op Ans UpgradeStore).world :=
    fun _ _ hsince => absurd hsince not_since_nil
  exact Config.run_keeps_between hstep (fun hinv => ⟨hinv, finishedKept_refl _⟩) finishedKept_refl
    (body_obeys deps) answers_of_exec FinishedKept.trans (obeys_init s) hinit hmeets

/-! ## A tick that finishes the run of another -/

/-- A tick reads the run, and leaves its step, which is in flight, as it is. -/
def slowTickReads : List (Choice Env Call) :=
  .call (.tick false) :: List.replicate 11 (.step 0 hostOnline)

/-- The step is done, and another tick finishes the run. -/
def runFinishes : List (Choice Env Call) :=
  .call (.noteDaemonCommit "host" "new" 2) :: List.replicate 3 (.step 1 {}) ++
    .call (.tick false) :: List.replicate 9 (.step 2 {})

/-- A slow tick saves as open a run that was finished since it read it. -/
theorem slow_tick_reopens_finished_run : ¬FinishedKept
    ((Config.init (oneHostStore (oneHostStep .daemon .restarting))).run machine (body oneHostDeps)
      (slowTickReads ++ runFinishes)).world
    ((Config.init (oneHostStore (oneHostStep .daemon .restarting))).run machine (body oneHostDeps)
      ((slowTickReads ++ runFinishes) ++ [.step 0 hostOnline])).world := by
  intro hkept
  obtain ⟨run', hrun', hfinished⟩ := hkept "run" _ rfl rfl
  cases hrun'
  cases hfinished

instance (id : String) (ev : (o : Op) × Ans o) : Decidable (Opens id ev) := by
  unfold Opens
  split <;> infer_instance

instance (id : String) (ev : (o : Op) × Ans o) : Decidable (Finishes id ev) := by
  unfold Finishes
  split <;> infer_instance

/-- A test of `SavesWhatItSaw`. -/
def savesCheck (i : ℕ) (w : World Op Ans UpgradeStore) : Op → Bool
  | .saveRun run => !isActiveStatus run.status ||
    decide (Since (fun ev => ev.thread = i ∧ Opens run.id ⟨ev.op, ev.ans⟩)
      (fun ev => ev.thread ≠ i → ¬Finishes run.id ⟨ev.op, ev.ans⟩) w.log)
  | _ => true

theorem savesWhatItSaw_of_check (i : ℕ) (w : World Op Ans UpgradeStore) (o : Op) (h : savesCheck i w o = true) :
    SavesWhatItSaw i w o := by
  cases o with
  | saveRun run =>
    intro hopen
    rw [savesCheck, hopen] at h
    exact .inl (of_decide_eq_true h)
  | _ => trivial

/-- The slow tick saves the run as open before the other one finishes it, and a third tick comes. -/
def tickSavesInTime : List (Choice Env Call) := slowTickReads ++ .step 0 hostOnline :: runFinishes

def tickAgain : List (Choice Env Call) := .call (.tick false) :: List.replicate 2 (.step 3 {})

theorem finished_runs_stay_tick :
    (((Config.init (oneHostStore (oneHostStep .daemon .restarting))).run machine (body oneHostDeps)
      tickSavesInTime).world.state.run? "run").map UpgradeRunRow.status = some .succeeded ∧
    FinishedKept
      ((Config.init (oneHostStore (oneHostStep .daemon .restarting))).run machine (body oneHostDeps)
        tickSavesInTime).world
      ((Config.init (oneHostStore (oneHostStep .daemon .restarting))).run machine (body oneHostDeps)
        (tickSavesInTime ++ tickAgain)).world :=
  ⟨by decide +kernel, finished_runs_stay oneHostDeps _ _ _
    (meets_of_checks machine (body oneHostDeps) savesWhatItSaw_of_check (by decide +kernel))⟩

end TurboPanel.Upgrades
