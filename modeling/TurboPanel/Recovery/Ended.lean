import TurboPanel.Recovery.Fenced

/-!
# A recovery that is over stays over, unless a call writes over its end

A write under the lock leaves a row that is terminal as it is, but for the end of a restart. The
other writes, and the promote that follows them, rest on what the call saw before: that the recovery
was live. Where no other call has ended it since, it still is. Nothing in the code makes sure of
that: a sweep or an operator between the advance of the fence and the write that follows it ends a
recovery that this write makes live again.
-/

namespace TurboPanel.Recovery

open CommandRecords (CommandStatus)
open Interleaving List

/-! ## A recovery that is live -/

/-- The recovery was seen live, and no call has ended it since. -/
def LiveSince (r : RecoveryId) (log : Log) : Prop :=
  Since (fun ev => Holds r ⟨ev.op, ev.ans⟩) (fun ev => ¬Ends r ⟨ev.op, ev.ans⟩) log

/-- A recovery that was seen live is live until a call ends it. -/
def LiveUntilEnded (w : World Op Ans Db) : Prop :=
  ∀ r, LiveSince r w.log → ∃ row, w.state.recoveries[r]? = some row ∧ row.state.terminal = false

section

variable {i : ℕ} {e : Env} {o : Op} {w : World Op Ans Db} {ans : Ans o} {s' : Db}

theorem Journal.getElem_of_mem (hw : Journal w) {row : RecoveryRecord} (hrow : row ∈ w.state.recoveries) :
    w.state.recoveries[row.id]? = some row := by
  obtain ⟨n, hn⟩ := getElem?_of_mem hrow
  rw [hw.ids n row hn]
  exact hn

theorem records_subset (hmove : RowMove o ans w.state.recoveries s'.recoveries) {row : RecoveryRecord}
    (hrow : row ∈ records ⟨o, ans⟩) : row ∈ s'.recoveries := by
  cases hmove with
  | same heq hseen => exact heq ▸ hseen row hrow
  | insert params now hev heq =>
    rw [hev] at hrow
    rw [heq, mem_singleton.1 hrow]
    exact mem_append_right _ mem_cons_self
  | write r patch now current hcurrent hop hrecords hwritten heq =>
    rw [hrecords] at hrow
    rw [heq, mem_singleton.1 hrow]
    exact mem_set (List.getElem?_eq_some_iff.1 hcurrent).1 _

theorem LiveUntilEnded.push (hw : Journal w) (hw' : Journal (w.push i o ans s')) (hlive : LiveUntilEnded w)
    (hmove : RowMove o ans w.state.recoveries s'.recoveries) : LiveUntilEnded (w.push i o ans s') := by
  intro r hsince
  obtain ⟨row, hrow, rfl, hterminal⟩ | ⟨hsince, hends⟩ := since_concat.1 hsince
  · exact ⟨row, hw'.getElem_of_mem (records_subset hmove hrow), hterminal⟩
  · obtain ⟨row, hrow, hterminal⟩ := hlive r hsince
    cases hmove with
    | same heq => exact ⟨row, heq ▸ hrow, hterminal⟩
    | insert params now hev heq =>
      refine ⟨row, ?_, hterminal⟩
      change s'.recoveries[r]? = some row
      rw [heq, getElem?_append_left (List.getElem?_eq_some_iff.1 hrow).1]
      exact hrow
    | write r' patch now current hcurrent hop hrecords hwritten heq =>
      change ∃ row, s'.recoveries[r]? = some row ∧ _
      rw [heq, getElem?_set]
      split
      · rename_i hr
        subst hr
        rw [if_pos (List.getElem?_eq_some_iff.1 hrow).1]
        refine ⟨_, rfl, ?_⟩
        by_contra hended
        rw [Bool.not_eq_false] at hended
        exact hends ⟨_, hwritten, hw.ids r' current hcurrent, hended⟩
      · exact ⟨row, hrow, hterminal⟩

end

/-! ## What a statement may not do -/

/-- What a statement may do to a recovery that is over: end its restart, and else leave its state as
it is. A promote that it hands to the queue is one of a recovery that is live. -/
structure KeepsEnd (db : Db) (o : Op) (db' : Db) : Prop where
  rows : ∀ (r : RecoveryId) (row : RecoveryRecord), db.recoveries[r]? = some row → row.state.terminal = true →
    ∃ row', db'.recoveries[r]? = some row' ∧ (row'.state = row.state ∨ row.state = .blocked ∧
      row'.state = .failed ∧ ∃ missing noWay, o = .updateRecoveryLocked r (.settleRestart missing noWay))
  promotes : ∀ (c : CommandId) (command : CommandRecord) (r : RecoveryId), o = .enqueue c →
    db.commands[c]? = some command → command.spec.kind.promotes = true → command.spec.recoveryId = some r →
      ∃ row, db.recoveries[r]? = some row ∧ row.state.terminal = false

/-- Since the call saw the recovery live, no other has ended it. -/
def NotEndedBehind (i : ℕ) (r : RecoveryId) (log : Log) : Prop :=
  Since (fun ev => ev.thread = i ∧ Holds r ⟨ev.op, ev.ans⟩) (fun ev => ev.thread ≠ i → ¬Ends r ⟨ev.op, ev.ans⟩) log

/-- No other call has ended the recovery behind a call that writes its state without the lock, or
that hands a promote of it to the queue. -/
def Undisturbed (i : ℕ) (w : World Op Ans Db) : Op → Prop
  | .updateRecovery r patch => patch.state ≠ none → NotEndedBehind i r w.log
  | .enqueue c => ∀ command r, w.state.commands[c]? = some command → command.spec.kind.promotes = true →
    command.spec.recoveryId = some r → NotEndedBehind i r w.log
  | _ => True

theorem Writes.held {row : RecoveryRecord} {h : Trace Op Ans} {patch : RecoveryPatch}
    (hwrites : Writes row h patch) (hstate : patch.state ≠ none) : Held row.id h := by
  cases hwrites with
  | note => exact absurd rfl hstate
  | queued => exact absurd rfl hstate
  | unqueued _ _ hheld => exact hheld
  | promote _ _ _ hheld => exact hheld
  | promoteAgain _ _ hheld => exact hheld
  | promoteOffline _ _ _ hheld => exact hheld
  | endBegun _ _ _ hheld => exact hheld

section

variable {i : ℕ} {e : Env} {o : Op} {w : World Op Ans Db} {ans : Ans o} {s' : Db}

theorem LiveUntilEnded.of_held (hlive : LiveUntilEnded w) {r : RecoveryId} (hheld : Held r (own i w.log))
    (hbehind : NotEndedBehind i r w.log) :
    ∃ row, w.state.recoveries[r]? = some row ∧ row.state.terminal = false := by
  refine hlive r ((since_of_own hheld).and hbehind |>.mono (fun _ hev => hev.2) fun ev hev hends => ?_)
  by_cases hi : ev.thread = i
  · exact hev.1 hi hends
  · exact hev.2 hi hends

/-- **One statement** of a call that is not disturbed keeps the end of every recovery. -/
theorem keepsEnd_of_undisturbed (hw : Journal w) (hlive : LiveUntilEnded w)
    (hcontract : Contract (own i w.log) o) (hundisturbed : Undisturbed i w o)
    (hexec : machine.exec i e o w.state = some (ans, s')) : KeepsEnd w.state o s' where
  rows r row hrow hterminal := by
    cases rowMove_of_exec hexec with
    | same heq => exact ⟨row, heq ▸ hrow, .inl rfl⟩
    | insert params now hev heq =>
      refine ⟨row, ?_, .inl rfl⟩
      rw [heq, getElem?_append_left (List.getElem?_eq_some_iff.1 hrow).1]
      exact hrow
    | write r' patch now current hcurrent hop hrecords hwritten heq =>
      rw [heq, getElem?_set]
      split
      · rename_i hr
        subst hr
        rw [if_pos (List.getElem?_eq_some_iff.1 hrow).1]
        cases hcurrent.symm.trans hrow
        refine ⟨_, rfl, ?_⟩
        obtain ⟨hid, ⟨row₂, hrow₂, rfl, hwrites⟩ | ⟨decision, rfl, -, hmoved⟩⟩ :=
          hw.written_cases hcurrent hop hcontract
        · have hnone : patch.state = none := by
            by_contra hsome
            obtain ⟨live, hlive', hnot⟩ := hlive.of_held (hrow₂ ▸ hwrites.held hsome) (hundisturbed hsome)
            cases hcurrent.symm.trans hlive'
            rw [hterminal] at hnot
            cases hnot
          rw [RecoveryRecord.patch, hnone]
          exact .inl rfl
        · obtain hnone | ⟨hblocked, hfailed, hsettle⟩ := hmoved.ended hterminal
          · rw [RecoveryRecord.patch, hnone]
            exact .inl rfl
          · obtain ⟨missing, noWay, rfl⟩ := hsettle
            rw [RecoveryRecord.patch, hfailed]
            exact .inr ⟨hblocked, rfl, missing, noWay, rfl⟩
      · exact ⟨row, hrow, .inl rfl⟩
  promotes c command r ho hcommand hpromotes hr := by
    subst ho
    obtain ⟨spec, hcreated, hready⟩ := hcontract
    obtain ⟨command', hcommand', rfl⟩ := hw.commands i spec c (mem_own.1 hcreated)
    cases hcommand.symm.trans hcommand'
    obtain ⟨r', -, -, hr', -, hheld⟩ := hready.promotes hpromotes
    cases hr.symm.trans hr'
    exact hlive.of_held hheld (hundisturbed command r hcommand hpromotes hr)

end

/-! ## Runs -/

theorem reached_live (members : List ManagedMemberRow) (choices : Choices) :
    LiveUntilEnded (reached members choices).world := by
  have hstep : ∀ {i : ℕ} {e : Env} {o : Op} {w : World Op Ans Db} {ans : Ans o} {s' : Db},
      Journal w ∧ LiveUntilEnded w → True → Contract (own i w.log) o →
        machine.exec i e o w.state = some (ans, s') →
          Journal (w.push i o ans s') ∧ LiveUntilEnded (w.push i o ans s') := by
    intro i e o w ans s' hw _ hcontract hexec
    have hw' := hw.1.push hcontract hexec
    exact ⟨hw', hw.2.push hw.1 hw' (rowMove_of_exec hexec)⟩
  have hinit : LiveUntilEnded (Config.init (Db.fresh members) : Config Op Ans Db).world :=
    fun _ hsince => absurd hsince not_since_nil
  exact (Config.run_inv hstep (fun hw => hw) body_obeys answers_of_exec (obeys_init _)
    ⟨journal_init members, hinit⟩ (meets_true machine body _ choices)).2.2

/-- **A recovery that is over stays over where no call is disturbed.** In a run whose statements all
meet `Undisturbed`, no statement writes over the end of a recovery, but for the end of its restart,
and no promote of it is handed to the queue. -/
theorem undisturbed_keepsEnd (members : List ManagedMemberRow) {before after : Choices} {i : ℕ} {e : Env}
    (hmeets : Meets machine body Undisturbed (Config.init (Db.fresh members)) (before ++ .step i e :: after))
    {o : Op} {next : Ans o → Proc Unit} (hthread : (reached members before).threads[i]? = some (.op o next))
    {ans : Ans o} {s' : Db}
    (hexec : machine.exec i e o (reached members before).world.state = some (ans, s')) :
    KeepsEnd (reached members before).world.state o s' := by
  obtain ⟨hobeys, hw⟩ := reached_keeps members before
  have hundisturbed := ((meets_append machine body).1 hmeets).2.1 i e o next rfl hthread
  exact keepsEnd_of_undisturbed hw (reached_live members before) (hobeys.threads i _ hthread).1 hundisturbed hexec

instance (i : ℕ) (r : RecoveryId) (log : Log) : Decidable (NotEndedBehind i r log) :=
  inferInstanceAs (Decidable (Since (fun ev => ev.thread = i ∧ Holds r ⟨ev.op, ev.ans⟩)
    (fun ev => ev.thread ≠ i → ¬Ends r ⟨ev.op, ev.ans⟩) log))

/-- A test of `Undisturbed`. -/
def undisturbedCheck (i : ℕ) (w : World Op Ans Db) : Op → Bool
  | .updateRecovery r patch => patch.state.isNone || decide (NotEndedBehind i r w.log)
  | .enqueue c => (w.state.commands[c]?).all fun command => !command.spec.kind.promotes ||
    command.spec.recoveryId.all fun r => decide (NotEndedBehind i r w.log)
  | _ => true

theorem undisturbed_of_check (i : ℕ) (w : World Op Ans Db) (o : Op) (h : undisturbedCheck i w o = true) :
    Undisturbed i w o := by
  cases o with
  | updateRecovery r patch =>
    intro hstate
    obtain hnone | hbehind := Bool.or_eq_true_iff.1 h
    · exact absurd (Option.isNone_iff_eq_none.1 hnone) hstate
    · exact of_decide_eq_true hbehind
  | enqueue c =>
    intro command r hcommand hpromotes hr
    simp only [undisturbedCheck, hcommand, Option.all_some, hpromotes, hr, Bool.not_true, Bool.false_or] at h
    exact of_decide_eq_true h
  | _ => trivial

/-- The failover of `deadPrimary` begins, and an operator ends it before its fence is recorded.
After the cooldown another begins, and its drain and its stop are reported succeeded. -/
def secondFailover : Choices :=
  .call (.beginAutomaticFailover deadPrimary) :: steps 0 6 ++
    .call (.failRecoveryForOperator 0 "stopped") :: steps 1 2 ++
    .call (.beginAutomaticFailover deadPrimary) :: List.replicate 14 (.step 2 { now := 16 * 60000 }) ++
    .call (.succeeded 0 ⟨true, .postgres, none, false, none⟩) :: steps 3 2 ++
    .call (.succeeded 1 ⟨true, .postgres, none, false, none⟩) :: steps 4 3

theorem secondFailover_meets : Meets machine body Undisturbed (Config.init (Db.fresh [oldPrimary, newPrimary]))
    (secondFailover ++ steps 4 3) :=
  meets_of_checks machine body undisturbed_of_check (by decide +kernel)

/-- The write that makes the second failover promoting and the promote that follows it leave the
first one ended. -/
theorem secondFailover_keepsEnd :
    (∃ patch s' ans, machine.exec 4 {} (.updateRecovery 1 patch)
        (reached [oldPrimary, newPrimary] secondFailover).world.state = some (ans, s') ∧ patch.state = some .promoting ∧
      KeepsEnd (reached [oldPrimary, newPrimary] secondFailover).world.state (.updateRecovery 1 patch) s') ∧
    ∃ s' ans, machine.exec 4 {} (.enqueue 2)
        (reached [oldPrimary, newPrimary] (secondFailover ++ steps 4 2)).world.state = some (ans, s') ∧
      KeepsEnd (reached [oldPrimary, newPrimary] (secondFailover ++ steps 4 2)).world.state (.enqueue 2) s' :=
  ⟨⟨_, _, _, rfl, rfl, @undisturbed_keepsEnd _ _ (steps 4 2) 4 {} secondFailover_meets _ _ rfl _ _ rfl⟩,
    _, _, rfl, @undisturbed_keepsEnd _ _ [] 4 {} secondFailover_meets _ _ rfl _ _ rfl⟩

/-! ## A promote over the end of a recovery -/

/-- The fence of the failover is settled, which makes it promoting; before the call writes this a
second time and queues the promote, the stale sweep ends the recovery. -/
def overtakenFailover : Choices :=
  .call (.beginAutomaticFailover deadPrimary) :: steps 0 14 ++
    .call (.succeeded 0 ⟨true, .postgres, none, false, none⟩) :: steps 1 2 ++
    .call (.succeeded 1 ⟨true, .postgres, none, false, none⟩) :: steps 2 3 ++
    .call (.expireStaleRecoveries (10 * 60000) "stale") ::
      List.replicate 4 (.step 3 { now := 16 * 60000, order := [0] })

/-- **A settlement makes a recovery live again** that the sweep has ended. -/
theorem settlement_writes_over_end : ¬∀ (members : List ManagedMemberRow) (before : Choices) (i : ℕ) (e : Env)
    (o : Op) (next : Ans o → Proc Unit) (ans : Ans o) (s' : Db),
    (reached members before).threads[i]? = some (.op o next) →
      machine.exec i e o (reached members before).world.state = some (ans, s') →
        KeepsEnd (reached members before).world.state o s' := by
  intro h
  have hkeeps := h [oldPrimary, newPrimary] overtakenFailover 2 {} _ _ _ _ rfl rfl
  obtain ⟨row, hrow, hstate⟩ := hkeeps.rows 0 _ rfl rfl
  cases hrow
  obtain hstate | ⟨-, hstate, -⟩ := hstate <;> cases hstate

end TurboPanel.Recovery
