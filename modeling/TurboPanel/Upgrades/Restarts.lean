import TurboPanel.Upgrades.Contract

/-!
# A restarted control plane is not installed over

A control plane that restarted is under the daemon's check. From there no tick sends its step back,
and only a report that it was rolled back makes it due again. A tick that claimed the step before it
restarted may still hold its command: the report of an earlier dispatch can say that the control
plane restarted between the claim and the enqueue.

When no step restarts between its claim and the enqueue, no command is enqueued for a control plane
that restarted.
-/

namespace TurboPanel.Upgrades

open Interleaving List

/-! ## Moves -/

/-- The operation wrote the step with a status that meets `P`. -/
def Moves (plan : StepPlan) (P : UpgradeStepStatus → Prop) : (o : Op) × Ans o → Prop
  | ⟨.saveStep row _, true⟩ => row.plan = plan ∧ P row.status
  | _ => False

/-- The operation enqueues a command for the step. -/
def Enqueues (plan : StepPlan) : (o : Op) × Ans o → Prop
  | ⟨.enqueue plan' _, _⟩ => plan' = plan
  | _ => False

def IsRestarted (status : UpgradeStepStatus) : Prop := status = .restarting ∨ status = .verifying

/-- The operation wrote the step as rolled back, which only a report does. -/
def RollsBack (plan : StepPlan) (ev : Event Op Ans) : Prop := Moves plan (· = .rolledBack) ⟨ev.op, ev.ans⟩

/-- The step restarted, and was not rolled back since. -/
def RestartedIn (plan : StepPlan) (log : List (Event Op Ans)) : Prop :=
  Since (fun ev => Moves plan IsRestarted ⟨ev.op, ev.ans⟩) (fun ev => ¬RollsBack plan ev) log

/-- The control plane for which a command is enqueued did not restart since the claim, which is what
the thread made last. -/
def EnqueuesUnrestarted (i : ℕ) (w : World Op Ans UpgradeStore) : Op → Prop
  | .enqueue plan _ => plan.unit = .instance_ → ∃ before claim after, w.log = before ++ claim :: after ∧
    claim.thread = i ∧ (∀ ev ∈ after, ev.thread ≠ i) ∧ ¬RestartedIn plan after
  | _ => True

section

variable {e : Env} {o : Op} {s s' : UpgradeStore} {ans : Ans o} {h : Trace Op Ans}

theorem step_eq_of_plan {row row' : UpgradeStepRow} (hrow : row ∈ s.steps) (hrow' : row' ∈ s.steps)
    (hplan : row.plan = row'.plan) : row = row' :=
  inj_on_of_nodup_map s.steps_nodup hrow hrow' (congrArg StepPlan.id hplan)

variable {row : UpgradeStepRow} {plan : StepPlan} {expectedStatus : Option UpgradeStepStatus}

theorem writes_of_saveStep (hexec : exec e (.saveStep row expectedStatus) s = some (true, s')) :
    ∃ stored ∈ s.steps, UpgradeStore.writes row expectedStatus stored ∧ row ∈ s'.steps := by
  obtain ⟨hany, -⟩ := Prod.mk.inj (Option.some.inj hexec)
  obtain ⟨stored, hstored, hwrites⟩ := any_eq_true.1 hany
  have hmem := mem_steps_of_exec hexec hstored
  rw [Op.onRow, UpgradeStore.savedRow, if_pos (of_decide_eq_true hwrites)] at hmem
  exact ⟨stored, hstored, of_decide_eq_true hwrites, hmem⟩

theorem saveStep_of_writes {row stored : UpgradeStepRow} {written : Bool}
    (hexec : exec e (.saveStep row expectedStatus) s = some (written, s')) (hstored : stored ∈ s.steps)
    (hwrites : UpgradeStore.writes row expectedStatus stored) :
    written = true := by
  obtain ⟨hwritten, -⟩ := Prod.mk.inj (Option.some.inj hexec)
  exact hwritten.symm.trans (any_eq_true.2 ⟨stored, hstored, decide_eq_true hwrites⟩)

theorem Moves.mono {P Q : UpgradeStepStatus → Prop} (hPQ : ∀ status, P status → Q status) {x : (o : Op) × Ans o}
    (h : Moves plan P x) : Moves plan Q x := by
  obtain ⟨o, ans⟩ := x
  cases o with
  | saveStep row expectedStatus =>
    cases ans with
    | false => exact h.elim
    | true => exact ⟨h.1, hPQ _ h.2⟩
  | _ => exact h.elim

theorem Moves.status {P : UpgradeStepStatus → Prop} (hmoves : Moves plan P ⟨o, ans⟩)
    (hexec : exec e o s = some (ans, s')) (hrow : row ∈ s'.steps) (hplan : row.plan = plan) : P row.status := by
  cases o with
  | saveStep new expectedStatus =>
    cases ans with
    | false => exact hmoves.elim
    | true =>
      obtain ⟨stored, -, -, hmem⟩ := writes_of_saveStep hexec
      rw [step_eq_of_plan hrow hmem (hplan.trans hmoves.1.symm)]
      exact hmoves.2
  | _ => exact hmoves.elim

theorem Claims.moves (hclaims : Claims plan ⟨o, ans⟩) :
    Moves plan (· = .dispatched) ⟨o, ans⟩ := by
  cases o with
  | saveStep new expectedStatus =>
    cases expectedStatus with
    | none => exact hclaims.elim
    | some status =>
      cases ans with
      | false => exact hclaims.elim
      | true => exact ⟨hclaims.1, hclaims.2.1⟩
  | _ => exact hclaims.elim

theorem Claims.due (hclaims : Claims plan ⟨o, ans⟩) (hexec : exec e o s = some (ans, s')) (hrow : row ∈ s.steps)
    (hplan : row.plan = plan) : IsDue row.status := by
  cases o with
  | saveStep new expectedStatus =>
    cases expectedStatus with
    | none => exact hclaims.elim
    | some status =>
      cases ans with
      | false => exact hclaims.elim
      | true =>
        obtain ⟨stored, hstored, hwrites, -⟩ := writes_of_saveStep hexec
        have heq := step_eq_of_plan hrow hstored (hplan.trans (hwrites.1.trans hclaims.1).symm)
        have hread : stored.status = status := of_decide_eq_true hwrites.2
        rw [heq, hread]
        exact hclaims.2.2
  | _ => exact hclaims.elim

theorem status_of_exec (hexec : exec e o s = some (ans, s')) (hcontract : Contract h o) (hrow : row ∈ s'.steps) :
    (∃ stored ∈ s.steps, stored.plan = row.plan ∧ stored.status = row.status) ∨
      Moves row.plan (· = row.status) ⟨o, ans⟩ ∨ isInFlightStepStatus row.status = false := by
  obtain ⟨new, hsteps, hnew⟩ := exec_steps hexec
  rw [hsteps] at hrow
  obtain hold | hadded := mem_append.1 hrow
  · obtain ⟨stored, hstored, rfl⟩ := mem_map.1 hold
    cases o with
    | saveStep row expectedStatus =>
      rw [Op.onRow, UpgradeStore.savedRow]
      split
      · rename_i hwrites
        obtain rfl := saveStep_of_writes hexec hstored hwrites
        exact .inr (.inl ⟨rfl, rfl⟩)
      · exact .inl ⟨stored, hstored, rfl, rfl⟩
    | skipUndispatchedSteps runId now =>
      rw [Op.onRow, UpgradeStore.pausedRow]
      split
      · exact .inr (.inr rfl)
      · exact .inl ⟨stored, hstored, rfl, rfl⟩
    | _ => exact .inl ⟨stored, hstored, rfl, rfl⟩
  · obtain rfl | ⟨run, rfl⟩ := hnew
    · cases hadded
    · exact .inr (.inr (hcontract.2 row hadded))

theorem afterRestart_onRow (hexec : exec e o s = some (ans, s')) (hcontract : Contract h o) (hrow : row ∈ s.steps)
    (hunit : row.plan.unit = .instance_) (hrestarted : AfterRestart row.status)
    (hback : ¬Moves row.plan (· = .rolledBack) ⟨o, ans⟩) : AfterRestart (o.onRow row).status := by
  cases o with
  | saveStep new expectedStatus =>
    rw [Op.onRow, UpgradeStore.savedRow]
    split
    · rename_i hwrites
      obtain rfl := saveStep_of_writes hexec hrow hwrites
      cases expectedStatus with
      | none =>
        rw [hwrites.1, hcontract.2] at hunit
        cases hunit
      | some status =>
        have hread : row.status = status := of_decide_eq_true hwrites.2
        rw [hread] at hrestarted
        have hmove : StepMove status new := hcontract
        have hunsettled := hmove.unsettled
        obtain hstatus | hstatus | rfl | rfl | rfl := hrestarted
        · exact (hmove.verdict (hwrites.1 ▸ hunit) (.inl hstatus)).resolve_right
            fun hrolled => hback ⟨hwrites.1.symm, hrolled⟩
        · exact (hmove.verdict (hwrites.1 ▸ hunit) (.inr hstatus)).resolve_right
            fun hrolled => hback ⟨hwrites.1.symm, hrolled⟩
        · cases hunsettled
        · cases hunsettled
        · cases hunsettled
    · exact hrestarted
  | skipUndispatchedSteps runId now =>
    rw [Op.onRow, UpgradeStore.pausedRow]
    split
    · rename_i hidle
      obtain hidle | hidle := hidle.2.2 <;> rw [hidle] at hrestarted <;>
        exact absurd hrestarted (by simp [AfterRestart])
    · exact hrestarted
  | _ => exact hrestarted

end

/-! ## The invariant -/

/-- A step that was claimed, and is restarted, restarted since the claim. -/
def RestartsTraced (w : World Op Ans UpgradeStore) : Prop :=
  ∀ before claim after, w.log = before ++ claim :: after → ∀ row ∈ w.state.steps,
    Claims row.plan ⟨claim.op, claim.ans⟩ → IsRestarted row.status → RestartedIn row.plan after

variable {i : ℕ} {w : World Op Ans UpgradeStore}

theorem restartsTraced_push {e : Env} {o : Op} {ans : Ans o}
    {s' : UpgradeStore} (hinv : RestartsTraced w) (hcontract : Contract (own i w.log) o)
    (hexec : exec e o w.state = some (ans, s')) : RestartsTraced (w.push i o ans s') := by
  intro before claim after hpushed row hrow hclaim hrestarted
  obtain ⟨-, -, rfl⟩ | ⟨after', rfl, hlog⟩ := concat_eq_append_cons hpushed
  · -- the claim itself dispatches the step
    have hdispatched := hclaim.moves.status hexec hrow rfl
    rw [hdispatched] at hrestarted
    obtain hrestarted | hrestarted := hrestarted <;> cases hrestarted
  · refine since_concat.2 ?_
    obtain ⟨stored, hstored, hplan, hstatus⟩ | hmoves | hidle := status_of_exec hexec hcontract hrow
    · refine .inr ⟨?_, fun hback => ?_⟩
      · rw [← hplan] at hclaim ⊢
        exact hinv before claim after' hlog stored hstored hclaim (hstatus ▸ hrestarted)
      · have hrolled := Moves.status hback hexec hrow rfl
        rw [hrolled] at hrestarted
        obtain hrestarted | hrestarted := hrestarted <;> cases hrestarted
    · exact .inl (hmoves.mono fun status hstatus => hstatus ▸ hrestarted)
    · obtain hrestarted | hrestarted := hrestarted <;> rw [hrestarted] at hidle <;> cases hidle

/-- What did not happen to a restarted control plane, in the part of the log since then, and where
it is. -/
structure LeftAlone (plan : StepPlan) (log : List (Event Op Ans)) (s : UpgradeStore) : Prop where
  enqueued : ∀ ev ∈ log, ¬Enqueues plan ⟨ev.op, ev.ans⟩
  claimed : ∀ ev ∈ log, ¬Claims plan ⟨ev.op, ev.ans⟩
  status : ∃ row ∈ s.steps, row.plan = plan ∧ AfterRestart row.status

/-- Since the world `w₀`, the step was left alone, unless it was rolled back. -/
def LeftAloneSince (w₀ : World Op Ans UpgradeStore) (plan : StepPlan) (w : World Op Ans UpgradeStore) :
    Prop :=
  ∃ log, w.log = w₀.log ++ log ∧ ((∀ ev ∈ log, ¬RollsBack plan ev) → LeftAlone plan log w.state)

theorem not_enqueues {o : Op} {ans : Ans o} {w₀ : World Op Ans UpgradeStore}
    {row₀ : UpgradeStepRow} (htraced : RestartsTraced w₀) (hrow₀ : row₀ ∈ w₀.state.steps)
    (hunit : row₀.plan.unit = .instance_) (hrestarted : IsRestarted row₀.status)
    {log : List (Event Op Ans)} (hlog : w.log = w₀.log ++ log)
    (hback : ∀ ev ∈ log, ¬RollsBack row₀.plan ev)
    (hclaimed : ∀ ev ∈ log, ¬Claims row₀.plan ⟨ev.op, ev.ans⟩) (hok : EnqueuesUnrestarted i w o)
    (hcontract : Contract (own i w.log) o) : ¬Enqueues row₀.plan ⟨o, ans⟩ := by
  intro henqueues
  cases o with
  | enqueue plan envelope =>
    obtain rfl : plan = row₀.plan := henqueues
    obtain ⟨before, claim, after, hsplit, rfl, hafter, hunrestarted⟩ := hok hunit
    obtain ⟨x, hlast, hclaims⟩ := hcontract
    rw [hsplit, own_getLast? hafter] at hlast
    cases hlast
    -- the claim is not in the later part of the log, so that it came before the restart
    rw [hsplit] at hlog
    obtain ⟨log₀, -, rfl⟩ | ⟨log₀, hlog₀, hcons⟩ := append_eq_append_iff.1 hlog.symm
    · exact hclaimed claim (mem_append_right _ mem_cons_self) hclaims
    · cases log₀ with
      | nil =>
        rw [nil_append] at hcons
        exact hclaimed claim (hcons ▸ mem_cons_self) hclaims
      | cons x log₀ =>
        cases hcons
        have htrace := htraced before claim log₀ hlog₀ row₀ hrow₀ hclaims hrestarted
        exact hunrestarted (htrace.append hback)
  | _ => exact henqueues.elim

theorem leftAloneSince_push {e : Env} {o : Op} {ans : Ans o} {s' : UpgradeStore}
    {w₀ : World Op Ans UpgradeStore} {row₀ : UpgradeStepRow} (htraced : RestartsTraced w₀)
    (hrow₀ : row₀ ∈ w₀.state.steps) (hunit : row₀.plan.unit = .instance_)
    (hrestarted : IsRestarted row₀.status) (hinv : LeftAloneSince w₀ row₀.plan w)
    (hok : EnqueuesUnrestarted i w o) (hcontract : Contract (own i w.log) o)
    (hexec : exec e o w.state = some (ans, s')) : LeftAloneSince w₀ row₀.plan (w.push i o ans s') := by
  obtain ⟨log, hlog, hleft⟩ := hinv
  refine ⟨log ++ [⟨i, o, ans⟩], ?_, fun hback => ?_⟩
  · rw [World.push, hlog, append_assoc]
  · have hback' : ∀ ev ∈ log, ¬RollsBack row₀.plan ev :=
      fun ev hev => hback ev (mem_append_left _ hev)
    have hlast := hback ⟨i, o, ans⟩ (mem_append_right _ mem_cons_self)
    obtain ⟨henqueued, hclaimed, row, hrow, hplan, hstatus⟩ := hleft hback'
    refine ⟨fun ev hev => ?_, fun ev hev => ?_, ⟨o.onRow row, ?_, ?_, ?_⟩⟩
    · obtain hev | hev := mem_append.1 hev
      · exact henqueued ev hev
      · obtain rfl := mem_singleton.1 hev
        exact not_enqueues htraced hrow₀ hunit hrestarted hlog hback' hclaimed hok hcontract
    · obtain hev | hev := mem_append.1 hev
      · exact hclaimed ev hev
      · obtain rfl := mem_singleton.1 hev
        intro hclaims
        have hdue := hclaims.due hexec hrow hplan
        obtain hdue | hdue | hdue := hdue <;> rw [hdue] at hstatus <;>
          exact absurd hstatus (by simp [AfterRestart])
    · exact mem_steps_of_exec hexec hrow
    · exact (o.onRow_plan row).trans hplan
    · exact afterRestart_onRow hexec hcontract hrow (hplan ▸ hunit) hstatus (hplan ▸ hlast)

theorem leftAloneSince_self {row : UpgradeStepRow}
    (hrow : row ∈ w.state.steps) (hrestarted : IsRestarted row.status) : LeftAloneSince w row.plan w := by
  refine ⟨[], (append_nil _).symm, fun _ => ⟨?_, ?_, row, hrow, rfl, ?_⟩⟩
  · exact fun _ hev => nomatch hev
  · exact fun _ hev => nomatch hev
  · exact hrestarted.imp_right .inl

/-- A control plane that restarted is left alone until it is rolled back: no command is enqueued for
it, and it is restarting, verifying, done, failed or needs attention. -/
def RestartsKept (w w' : World Op Ans UpgradeStore) : Prop :=
  ∀ id row, w.state.step? id = some row → row.plan.unit = .instance_ → IsRestarted row.status →
    ∃ log, w'.log = w.log ++ log ∧ ((∀ ev ∈ log, ¬RollsBack row.plan ev) →
      (∀ ev ∈ log, ¬Enqueues row.plan ⟨ev.op, ev.ans⟩) ∧
        ∃ row', w'.state.step? id = some row' ∧ AfterRestart row'.status)

/-- **A restarted control plane is not installed over**, in a run in which no control plane restarts
between the claim of its step and the enqueue of the command. -/
theorem restarted_steps_left_alone (deps : UpgradeDeps) (s : UpgradeStore)
    (before after : List (Choice Env Call))
    (hmeets : Meets machine (body deps) EnqueuesUnrestarted (Config.init s) (before ++ after)) :
    RestartsKept ((Config.init s).run machine (body deps) before).world
      ((Config.init s).run machine (body deps) (before ++ after)).world := by
  intro key row hrow hunit hrestarted
  obtain ⟨hbefore, hafter⟩ := (meets_append machine (body deps)).1 hmeets
  have hstep : ∀ {i e o w ans s'}, RestartsTraced w → EnqueuesUnrestarted i w o →
      Contract (own i w.log) o → machine.exec i e o w.state = some (ans, s') →
        RestartsTraced (w.push i o ans s') :=
    fun hinv _ hcontract hexec => restartsTraced_push hinv hcontract hexec
  have hinit : RestartsTraced (Config.init s : Interleaving.Config Op Ans UpgradeStore).world :=
    fun before _ _ hlog => absurd hlog.symm (append_ne_nil_of_right_ne_nil _ (cons_ne_nil _ _))
  obtain ⟨hobeys, htraced⟩ := Config.run_inv hstep (fun h => h) (body_obeys deps) answers_of_exec
    (obeys_init s) hinit hbefore
  obtain ⟨hmem, hkey⟩ := UpgradeStore.step?_eq_some.1 hrow
  have hinit₀ := leftAloneSince_self hmem hrestarted
  obtain ⟨-, log, hlog, hleft⟩ := Config.run_inv
    (leftAloneSince_push htraced hmem hunit hrestarted) (fun h => h) (body_obeys deps) answers_of_exec
    hobeys hinit₀ hafter
  rw [Config.run_append]
  refine ⟨log, hlog, fun hback => ⟨(hleft hback).enqueued, ?_⟩⟩
  obtain ⟨row', hrow', hplan, hstatus⟩ := (hleft hback).status
  exact ⟨row', UpgradeStore.step?_eq_some.2 ⟨hrow', hplan ▸ hkey⟩, hstatus⟩

/-! ## A restart between the claim and the enqueue -/

/-- A tick claims the step of a control plane that dropped during its first dispatch and is back. -/
def tickClaims : List (Choice Env Call) :=
  .call (.tick false) :: List.replicate 14 (.step 0 hostOnline)

/-- The first dispatch reports that the control plane restarts. -/
def restartLands : List (Choice Env Call) :=
  .call (.noteProgress
    { serverId := "host"
      upgradeId := some "run"
      unit := .instance_
      stage := .restarting
      at_ := 1
      detail := none
      errorCode := none
      restart := none
      requestId := "first" }) :: List.replicate 4 (.step 1 {})

/-- The command of a dispatch of the step. -/
def secondCommand : UpdateEnvelope where
  unit := .instance_
  requestId := "second"
  upgradeId := some "run"
  manifestUrl := none
  uiManifestUrl := none
  targetVersion := none
  targetCommit := none

theorem restarted_step_installed_over : ¬RestartsKept
    ((Config.init (oneHostStore (oneHostStep .instance_ .waiting))).run machine (body oneHostDeps)
      (tickClaims ++ restartLands)).world
    ((Config.init (oneHostStore (oneHostStep .instance_ .waiting))).run machine (body oneHostDeps)
      ((tickClaims ++ restartLands) ++ [.step 0 hostOnline])).world := by
  intro hkept
  obtain ⟨log, hlog, hleft⟩ := hkept "step" _ rfl rfl (.inl rfl)
  have henqueued : log =
      [⟨0, .enqueue (oneHostStep .instance_ .waiting).plan secondCommand, none⟩] :=
    append_cancel_left (hlog.symm.trans rfl)
  subst henqueued
  refine (hleft fun ev hev => ?_).1 _ mem_cons_self rfl
  rw [mem_singleton.1 hev]
  exact not_false

/-- A tick on a control plane that restarted. -/
def tickLooks : List (Choice Env Call) := .call (.tick false) :: List.replicate 11 (.step 0 hostOnline)

theorem restarted_steps_left_alone_tick : RestartsKept
    ((Config.init (oneHostStore (oneHostStep .instance_ .restarting))).run machine (body oneHostDeps)
      []).world
    ((Config.init (oneHostStore (oneHostStep .instance_ .restarting))).run machine (body oneHostDeps)
      ([] ++ tickLooks)).world := by
  refine restarted_steps_left_alone oneHostDeps _ _ _ (meets_call _ _ ?_)
  refine meets_step _ _ rfl trivial (meets_step _ _ rfl trivial (meets_step _ _ rfl trivial ?_))
  refine meets_step _ _ rfl trivial (meets_step _ _ rfl trivial (meets_step _ _ rfl trivial ?_))
  refine meets_step _ _ rfl trivial (meets_step _ _ rfl trivial (meets_step _ _ rfl trivial ?_))
  exact meets_step _ _ rfl trivial (meets_step _ _ rfl trivial trivial)

end TurboPanel.Upgrades
