import TurboPanel.Commands.Duties

/-!
# Recorded outcomes

A live transition has a condition on the row: a command that ended is not moved. A transition that
ends a command has none. The call that makes it saw the command open before, but another call may
have recorded a success since: a timeout or a failure then overwrites it.

When no call records the success of a command between the time when another one saw it open and the
time when that one gives it up, a command that succeeded stays so. In every run, a command that
ended stays ended.
-/

namespace TurboPanel.CommandRecords

open Interleaving List

/-! ## What an operation does to a status -/

/-- How an operation moves the status of a row. -/
inductive StatusMove (e : Env) (row : CommandRow) : Op → CommandStatus → Prop where
  | stays {o : Op} : StatusMove e row o row.status
  | transition {patch : CommandTransitionPatch} {now : ℤ}
    (hguard : patch.status.terminal = true ∨ row.status.terminal = false) :
    StatusMove e row (.transitionCommand row.key.id patch now) patch.status
  | cancel {when_ : CancelWhen} {now : ℤ} (hopen : row.status.terminal = false) :
    StatusMove e row (.cancelCommandWhen row.key.id when_ now) .cancelled
  | flip {outcome : Option LateOutcome} {now : ℤ} (htimedOut : row.status = .timedOut)
    (hmade : outcome.isNone = true ∨ e.yes = true) :
    StatusMove e row (.flipTimedOut row.key.id outcome now) .succeeded
  | claim {input : ServerTurnInput} {o : Op} {now : ℤ}
    (ho : o = .markClaimed input now ∨ o = .commitClaim input now) (hid : row.key.id = input.commandId)
    (hopen : row.status.terminal = false) (hstarted : row.dispatchStartedAt = input.dispatchStartedAt) :
    StatusMove e row o .dispatching

theorem statusMove_onRow (e : Env) (s : CommandStore) (o : Op) (row : CommandRow) :
    StatusMove e row o (o.onRow e s row).status := by
  unfold Op.onRow
  split
  · rename_i hguard
    cases o with
    | transitionCommand id patch now =>
      simp only [Op.guard, Bool.and_eq_true, Bool.or_eq_true, Bool.not_eq_true', decide_eq_true_eq] at hguard
      obtain ⟨rfl, hguard⟩ := hguard
      exact .transition hguard
    | cancelCommandWhen id when_ now =>
      cases when_ with
      | queued =>
        simp only [Op.guard, Bool.and_eq_true, decide_eq_true_eq] at hguard
        obtain ⟨rfl, hqueued⟩ := hguard
        exact .cancel (by rw [hqueued]; rfl)
      | nonTerminal =>
        simp only [Op.guard, Bool.and_eq_true, Bool.not_eq_true', decide_eq_true_eq] at hguard
        obtain ⟨rfl, hopen⟩ := hguard
        exact .cancel hopen
    | flipTimedOut id outcome now =>
      simp only [Op.guard, Bool.and_eq_true, Bool.or_eq_true, decide_eq_true_eq] at hguard
      obtain ⟨⟨rfl, htimedOut⟩, hmade⟩ := hguard
      have hstatus : (lateCorrection outcome now row).status = .succeeded := by cases outcome <;> rfl
      exact hstatus ▸ StatusMove.flip htimedOut hmade
    | markClaimed input now =>
      simp only [Op.guard, Bool.and_eq_true, Bool.not_eq_true', decide_eq_true_eq] at hguard
      exact .claim (.inl rfl) hguard.1.1.1 hguard.1.2 hguard.2
    | commitClaim input now =>
      simp only [Op.guard, Bool.and_eq_true, Bool.not_eq_true', decide_eq_true_eq] at hguard
      exact .claim (.inr rfl) hguard.1.1.1 hguard.1.2 hguard.2
    | _ => exact .stays
  · exact .stays

variable {row : CommandRow} {w : World Op Ans CommandStore} {e : Env} {o : Op} {i : ℕ} {s s' : CommandStore}

theorem terminal_onRow (e : Env) (s : CommandStore) (o : Op) (hterminal : row.status.terminal = true) :
    (o.onRow e s row).status.terminal = true := by
  have hclosed : row.status.terminal ≠ false := by rw [hterminal]; exact fun h => (nomatch h)
  generalize hstatus : (o.onRow e s row).status = status
  have hmove := statusMove_onRow e s o row
  rw [hstatus] at hmove
  cases hmove with
  | stays => exact hterminal
  | transition hguard => exact hguard.resolve_right hclosed
  | cancel hopen => rfl
  | flip htimedOut hmade => rfl
  | claim ho hid hopen hstarted => exact absurd hopen hclosed

/-! ## Ends -/

theorem live_of_onRow {s : CommandStore} (hlive : (o.onRow e s row).status.terminal = false) :
    row.status.terminal = false := by
  by_contra hterminal
  have := terminal_onRow e s o (Bool.not_eq_false _ ▸ hterminal)
  rw [hlive] at this
  cases this

variable {ans : Ans o}

theorem terminal_of_ends (hexec : exec i e o s = some (ans, s')) {id : String}
    (hends : Ends id ⟨o, ans⟩) : ∃ row ∈ s'.rows, row.key.id = id ∧ row.status.terminal = true := by
  obtain ⟨-, hans, -⟩ := exec_eq_some hexec
  -- The row that the statement returned is the one that it changed.
  have hchanged : ∀ {written : CommandRow},
      o.returning e (s.elapse e.elapsed) = some written →
        (∀ row, o.guard e (s.elapse e.elapsed) row = true → row.key.id = id ∧
          (o.onRow e (s.elapse e.elapsed) row).status.terminal = true) →
        ∃ row ∈ s'.rows, row.key.id = id ∧ row.status.terminal = true := by
    intro written hreturning hguard
    obtain ⟨found, hfound, -⟩ := Option.map_eq_some_iff.1 hreturning
    obtain ⟨hid, hterminal⟩ := hguard found (find?_some hfound)
    exact ⟨_, onRow_mem_rows_of_exec hexec (mem_of_find?_eq_some hfound),
      (congrArg CommandKey.id (Op.onRow_key _ _ _ _)).trans hid, hterminal⟩
  cases o with
  | transitionCommand id' patch now =>
    cases ans with
    | none => exact hends.elim
    | some written =>
      obtain ⟨rfl, hterminal⟩ := hends
      refine hchanged hans.symm fun row hguard => ?_
      rw [Op.onRow, if_pos hguard]
      simp only [Op.guard, Bool.and_eq_true, decide_eq_true_eq] at hguard
      exact ⟨hguard.1, hterminal⟩
  | cancelCommandWhen id' when_ now =>
    cases ans with
    | none => exact hends.elim
    | some written =>
      obtain rfl : id' = id := hends
      refine hchanged hans.symm fun row hguard => ?_
      rw [Op.onRow, if_pos hguard]
      refine ⟨?_, rfl⟩
      cases when_ with
      | queued =>
        simp only [Op.guard, Bool.and_eq_true, decide_eq_true_eq] at hguard
        exact hguard.1
      | nonTerminal =>
        simp only [Op.guard, Bool.and_eq_true, decide_eq_true_eq] at hguard
        exact hguard.1
  | flipTimedOut id' outcome now =>
    cases ans with
    | flipped progress =>
      obtain rfl : id' = id := hends
      rw [answer] at hans
      split at hans
      · cases hans
      · split at hans
        · rename_i hreturning
          refine hchanged hreturning fun row hguard => ?_
          simp only [Op.guard, Bool.and_eq_true, decide_eq_true_eq] at hguard
          refine ⟨hguard.1.1, terminal_onRow _ _ _ ?_⟩
          rw [hguard.1.2]
          rfl
        · cases hans
    | notTimedOut => exact hends.elim
    | refused => exact hends.elim
  | _ => exact hends.elim

/-- A command that was ended is. -/
def EndedStay (w : World Op Ans CommandStore) : Prop :=
  ∀ ev ∈ w.log, ∀ id, Ends id ⟨ev.op, ev.ans⟩ →
    ∃ row ∈ w.state.rows, row.key.id = id ∧ row.status.terminal = true

theorem EndedStay.push {s' : CommandStore} (hw : EndedStay w)
    (hexec : exec i e o w.state = some (ans, s')) : EndedStay (w.push i o ans s') := by
  intro ev hev id hends
  obtain hev | hev := mem_append.1 hev
  · obtain ⟨row, hrow, hid, hterminal⟩ := hw ev hev id hends
    exact ⟨_, onRow_mem_rows_of_exec hexec hrow, (congrArg CommandKey.id (Op.onRow_key _ _ _ _)).trans hid,
      terminal_onRow _ _ _ hterminal⟩
  · obtain rfl := mem_singleton.1 hev
    exact terminal_of_ends hexec hends

theorem mem_log_of_once {log : List (Event Op Ans)} {p : (o : Op) × Ans o → Prop} (h : Once p (own i log)) :
    ∃ ev ∈ log, ev.thread = i ∧ p ⟨ev.op, ev.ans⟩ := by
  obtain ⟨before, ev, after, hlog, hev, -⟩ := since_of_own h
  refine ⟨ev, ?_, hev⟩
  rw [hlog]
  exact mem_append_right _ mem_cons_self

theorem EndedStay.not_once (hw : EndedStay w) (hrow : row ∈ w.state.rows) (hlive : row.status.terminal = false) :
    ¬Once (Ends row.key.id) (own i w.log) := by
  intro hends
  obtain ⟨ev, hev, -, hends⟩ := mem_log_of_once hends
  obtain ⟨row', hrow', hid, hterminal⟩ := hw ev hev _ hends
  rw [inj_on_of_nodup_map w.state.ids_nodup hrow' hrow hid, hlive] at hterminal
  cases hterminal

/-! ## Success -/

theorem returning_isSome {s : CommandStore} (hrow : row ∈ s.rows) (hguard : o.guard e s row = true) :
    ∃ written, o.returning e s = some written := by
  obtain ⟨found, hfound⟩ : ∃ found, s.rows.find? (o.guard e s) = some found :=
    Option.isSome_iff_exists.1 (find?_isSome.2 ⟨row, hrow, hguard⟩)
  exact ⟨o.write s found, by rw [Op.returning, hfound, Option.map_some]⟩

theorem answer_flipTimedOut {s : CommandStore} (hrow : row ∈ s.rows) {outcome : Option LateOutcome} (now : ℤ)
    (htimedOut : row.status = .timedOut) (hmade : outcome.isNone = true ∨ e.yes = true) :
    ∃ progress, answer e s (.flipTimedOut row.key.id outcome now) = .flipped progress := by
  have hguard : (Op.flipTimedOut row.key.id outcome now).guard e s row = true := by
    simp only [Op.guard, Bool.and_eq_true, Bool.or_eq_true, decide_eq_true_eq]
    exact ⟨⟨trivial, htimedOut⟩, hmade⟩
  obtain ⟨written, hwritten⟩ := returning_isSome hrow hguard
  have hnot : ¬(outcome.isSome && !e.yes) = true := by
    rw [Bool.and_eq_true, Bool.not_eq_true', not_and]
    intro hsome hno
    obtain hnone | hyes := hmade
    · rw [Option.isNone_iff_eq_none.1 hnone] at hsome
      cases hsome
    · exact absurd (hyes.symm.trans hno) (fun h => (nomatch h))
  rw [answer, if_neg hnot, hwritten]
  exact ⟨_, rfl⟩

theorem succeeded_onRow (hexec : exec i e o s = some (ans, s')) (hrow : row ∈ s.rows)
    (hsucceeded : (o.onRow e (s.elapse e.elapsed) row).status = .succeeded) :
    row.status = .succeeded ∨ RecordsSuccess row.key.id ⟨o, ans⟩ := by
  have hmove := statusMove_onRow e (s.elapse e.elapsed) o row
  generalize hstatus : (o.onRow e (s.elapse e.elapsed) row).status = status at hmove hsucceeded
  cases hmove with
  | stays => exact .inl hsucceeded
  | transition hguard => exact .inr ⟨rfl, hsucceeded⟩
  | cancel hopen => cases hsucceeded
  | @flip outcome now htimedOut hmade =>
    obtain ⟨-, hans, -⟩ := exec_eq_some hexec
    obtain ⟨progress, hflipped⟩ := answer_flipTimedOut (s := s.elapse e.elapsed) hrow now htimedOut hmade
    obtain rfl := hans.trans hflipped
    exact .inr rfl
  | claim ho hid hopen hstarted => cases hsucceeded

/-- A command that someone saw open, and nobody recorded as a success since, is not one. -/
def NotSucceededSince (w : World Op Ans CommandStore) : Prop :=
  ∀ id, Since (fun ev => SeesOpen id ⟨ev.op, ev.ans⟩) (fun ev => ¬RecordsSuccess id ⟨ev.op, ev.ans⟩) w.log →
    ∀ row ∈ w.state.rows, row.key.id = id → row.status ≠ .succeeded

theorem open_of_seesOpen (hexec : exec i e o s = some (ans, s')) (hrow : row ∈ s'.rows)
    (hsees : SeesOpen row.key.id ⟨o, ans⟩) : row.status.terminal = false := by
  obtain ⟨-, hans, hrows, -⟩ := exec_eq_some hexec
  -- A read changes no row, so that what it answered is what is there.
  have hsame : ∀ {o : Op}, (∀ row, o.guard e (s.elapse e.elapsed) row = false) → o.created = [] →
      s'.rows = s.rows.map (o.onRow e (s.elapse e.elapsed)) ++ o.created → s'.rows = s.rows := by
    intro o hguard hcreated hrows
    rw [hrows, hcreated, append_nil]
    exact map_id'' (fun row => if_neg (by rw [hguard row]; exact Bool.false_ne_true)) _
  have hfound : ∀ {stored : CommandRow}, s'.rows = s.rows → stored ∈ s.rows →
      stored.key.id = row.key.id → stored.status.terminal = false → row.status.terminal = false := by
    intro stored hrows hstored hid hopen
    rw [inj_on_of_nodup_map s'.ids_nodup hrow (hrows ▸ hstored) hid.symm]
    exact hopen
  cases o with
  | getCommandRecord id =>
    cases ans with
    | none => exact hsees.elim
    | some stored =>
      obtain ⟨hstored, -⟩ := CommandStore.row?_eq_some.1 hans.symm
      exact hfound (hsame (fun _ => rfl) rfl hrows) hstored hsees.1 hsees.2
  | selectCandidates cutoff limit =>
    obtain ⟨stored, hstored, hid⟩ := hsees
    rw [hans] at hstored
    obtain ⟨hmem, hopen⟩ := mem_candidates hstored
    exact hfound (hsame (fun _ => rfl) rfl hrows) hmem hid hopen
  | _ => exact hsees.elim

theorem notSucceededSince_push {s' : CommandStore} (hinv : NotSucceededSince w)
    (hcontract : Contract (own i w.log) o) (hexec : exec i e o w.state = some (ans, s')) :
    NotSucceededSince (w.push i o ans s') := by
  intro id hsince row' hrow' hid hsucceeded
  obtain hsees | ⟨hsince, hrecords⟩ := since_concat.1 hsince
  · have hopen := open_of_seesOpen hexec hrow' (hid.symm ▸ hsees)
    rw [hsucceeded] at hopen
    cases hopen
  · obtain ⟨row, hrow, rfl⟩ | ⟨rfl, -⟩ := mem_rows_of_exec hexec hrow'
    · rw [Op.onRow_key] at hid
      obtain hbefore | hrecorded := succeeded_onRow hexec hrow hsucceeded
      · exact hinv id hsince row hrow hid hbefore
      · exact hrecords (hid ▸ hrecorded)
    · obtain ⟨key, expiresAt, rfl⟩ := hcontract
      cases hsucceeded

/-! ## Every run -/

/-- The commands that ended stay ended, and those that succeeded stay so. -/
def OutcomesKept (w w' : World Op Ans CommandStore) : Prop :=
  ∀ row ∈ w.state.rows, row.status.terminal = true → ∃ row' ∈ w'.state.rows, row'.key = row.key ∧
    row'.status.terminal = true ∧ (row.status = .succeeded → row'.status = .succeeded)

/-- No other call recorded the success of a command that is given up, since the call that gives it
up saw it open. -/
def GivesUpWhatItSaw (i : ℕ) (w : World Op Ans CommandStore) : Op → Prop
  | .transitionCommand id patch _ => patch.status.terminal = true → patch.status ≠ .succeeded →
    Since (fun ev => ev.thread = i ∧ SeesOpen id ⟨ev.op, ev.ans⟩)
      (fun ev => ev.thread ≠ i → ¬RecordsSuccess id ⟨ev.op, ev.ans⟩) w.log
  | _ => True

theorem outcomesKept_refl (w : World Op Ans CommandStore) : OutcomesKept w w :=
  fun row hrow hterminal => ⟨row, hrow, rfl, hterminal, fun h => h⟩

theorem OutcomesKept.trans {w₁ w₂ w₃ : World Op Ans CommandStore} (h : OutcomesKept w₁ w₂)
    (h' : OutcomesKept w₂ w₃) : OutcomesKept w₁ w₃ := by
  intro row hrow hterminal
  obtain ⟨row', hrow', hkey, hterminal', hsucceeded⟩ := h row hrow hterminal
  obtain ⟨row'', hrow'', hkey', hterminal'', hsucceeded'⟩ := h' row' hrow' hterminal'
  exact ⟨row'', hrow'', hkey'.trans hkey, hterminal'', fun h => hsucceeded' (hsucceeded h)⟩

theorem succeeded_stays (hinv : NotSucceededSince w) (hok : GivesUpWhatItSaw i w o)
    (hcontract : Contract (own i w.log) o) (hrow : row ∈ w.state.rows) (hsucceeded : row.status = .succeeded) :
    (o.onRow e (w.state.elapse e.elapsed) row).status = .succeeded := by
  have hclosed : row.status.terminal ≠ false := by rw [hsucceeded]; exact fun h => (nomatch h)
  have hmove := statusMove_onRow e (w.state.elapse e.elapsed) o row
  generalize (o.onRow e (w.state.elapse e.elapsed) row).status = status at hmove
  cases hmove with
  | stays => exact hsucceeded
  | @transition patch now hguard =>
    by_contra hother
    have hterminal := hguard.resolve_right hclosed
    obtain ⟨-, -, ⟨hsent, -⟩ | hsuccess | ⟨-, hsaw⟩⟩ := hcontract
    · rw [hsent] at hterminal
      cases hterminal
    · exact hother hsuccess
    · have hsince := ((since_of_own hsaw).and (hok hterminal hother)).mono (fun _ hev => hev.2)
        fun ev hev => by
          by_cases hthread : ev.thread = i
          · exact hev.1 hthread
          · exact hev.2 hthread
      exact hinv row.key.id hsince row hrow rfl hsucceeded
  | cancel hopen => exact absurd hopen hclosed
  | flip htimedOut hmade => rfl
  | claim ho hid hopen hstarted => exact absurd hopen hclosed

/-- **A recorded outcome is final** in a run in which no call records the success of a command
between the time when another one saw it open and the time when that one gives it up. -/
theorem outcomes_are_final (s : CommandStore) (before after : List (Choice Env Call))
    (hmeets : Meets machine body GivesUpWhatItSaw (Config.init s) (before ++ after)) :
    OutcomesKept ((Config.init s).run machine body before).world
      ((Config.init s).run machine body (before ++ after)).world := by
  have hstep : ∀ {i e o w ans s'}, NotSucceededSince w → GivesUpWhatItSaw i w o →
      Contract (own i w.log) o → machine.exec i e o w.state = some (ans, s') →
        NotSucceededSince (w.push i o ans s') ∧ OutcomesKept w (w.push i o ans s') := by
    intro i e o w ans s' hinv hok hcontract hexec
    refine ⟨notSucceededSince_push hinv hcontract hexec, fun row hrow hterminal => ?_⟩
    exact ⟨_, onRow_mem_rows_of_exec hexec hrow, Op.onRow_key _ _ _ _, terminal_onRow _ _ _ hterminal,
      succeeded_stays hinv hok hcontract hrow⟩
  have hinit : NotSucceededSince (Config.init s : Interleaving.Config Op Ans CommandStore).world :=
    fun _ hsince => absurd hsince not_since_nil
  have hdrop : ∀ {i : ℕ} {w : World Op Ans CommandStore}, NotSucceededSince w →
      NotSucceededSince { w with state := machine.drop i w.state } ∧
        OutcomesKept w { w with state := machine.drop i w.state } :=
    fun hinv => ⟨hinv, fun row hrow hterminal => ⟨row, hrow, rfl, hterminal, fun h => h⟩⟩
  exact Config.run_keeps_between hstep hdrop outcomesKept_refl body_obeys answers_of_exec
    OutcomesKept.trans (obeys_init s) hinit hmeets

/-! ## A sweep that overwrites a success -/

/-- A command that was sent to its server a while ago. -/
def sentCommand (type : CommandType) : CommandRow where
  key := ⟨"command", "server", type, 0⟩
  status := .sent
  attempts := 1
  updatedAt := 0
  queuedAt := some 0
  dispatchStartedAt := some 0
  sentAt := some 0
  ackedAt := none
  startedAt := none
  finishedAt := none
  expiresAt := none
  enqueued := true
  progress := none

/-- A store with one command. -/
def oneCommand (row : CommandRow) : CommandStore where
  rows := [row]
  ids_nodup := nodup_singleton _
  lock _ := none
  clock := 0

/-- The server did what the command asked for. -/
def serverDone : PendingRequest where
  status := .done
  ackAt := some 0
  finishedAt := some 1
  cancelled := false
  alreadyWritable := false

/-- A sweep finds the command stale. -/
def sweepSelects : List (Choice Env Call) :=
  [.call (.sweep 50 1000000 300000), .step 0 { picked := ["command"] }]

/-- The command comes round again, and its result is there. -/
def successRecorded : List (Choice Env Call) :=
  [.call (.deliver ⟨"command", "server"⟩), .step 1 {}, .step 1 {}, .step 1 {},
    .step 1 { request := some .done }, .step 1 { wait := .pending serverDone }, .step 1 {}, .step 1 {}]

/-- The sweep that saw the command open writes over its success. -/
theorem sweep_overwrites_success : ¬OutcomesKept
    ((Config.init (oneCommand (sentCommand .serverReboot))).run machine body
      (sweepSelects ++ successRecorded)).world
    ((Config.init (oneCommand (sentCommand .serverReboot))).run machine body
      ((sweepSelects ++ successRecorded) ++ [.step 0 {}, .step 0 {}])).world := by
  intro hkept
  obtain ⟨row', hrow', -, -, hsucceeded⟩ := hkept _ (List.Mem.head _) rfl
  obtain rfl := mem_singleton.1 hrow'
  cases hsucceeded rfl

/-- The command succeeds, and then a sweep comes. -/
def successThenSweep : List (Choice Env Call) × List (Choice Env Call) :=
  ([.call (.deliver ⟨"command", "server"⟩), .step 0 {}, .step 0 {}, .step 0 {},
    .step 0 { request := some .done }, .step 0 { wait := .pending serverDone }, .step 0 {}, .step 0 {}],
    [.call (.sweep 50 1000000 300000), .step 1 { picked := ["command"] }])

theorem outcomes_are_final_deliver :
    ((Config.init (oneCommand (sentCommand .serverReboot))).run machine body
      successThenSweep.1).world.state.rows.map CommandRow.status = [.succeeded] ∧
    OutcomesKept
      ((Config.init (oneCommand (sentCommand .serverReboot))).run machine body successThenSweep.1).world
      ((Config.init (oneCommand (sentCommand .serverReboot))).run machine body
        (successThenSweep.1 ++ successThenSweep.2)).world := by
  refine ⟨rfl, outcomes_are_final _ _ _ (meets_call _ _ ?_)⟩
  refine meets_step _ _ rfl trivial (meets_step _ _ rfl trivial (meets_step _ _ rfl trivial ?_))
  refine meets_step _ _ rfl trivial (meets_step _ _ rfl trivial (meets_step _ _ rfl trivial ?_))
  refine meets_step _ _ rfl (fun _ hother => absurd rfl hother) (meets_call _ _ ?_)
  exact meets_step _ _ rfl trivial trivial

end TurboPanel.CommandRecords
