import TurboPanel.Commands.Outcomes

/-!
# Stored frames

A frame is stored only over an older one, by a condition of its update. A sign of life reads the
plan and writes it back in two statements, with a condition on the status alone: a frame that is
stored in between is lost.

When no frame is stored between the read and the write of a sign of life, the steps on the row of a
live command come from the latest frame that was stored.
-/

namespace TurboPanel.CommandRecords

open Bool Interleaving List

/-- The operation stored a frame of a command. -/
def StoresFrame (id : String) (frame : CommandProgress) : (o : Op) × Ans o → Prop
  | ⟨.storeFrame id' _ progress _, true⟩ => id' = id ∧ progress = frame
  | _ => False

/-! ## What an operation does to a plan -/

/-- The steps on the row, and the time of their frame. -/
def CommandRow.frame (row : CommandRow) : Option (List CommandProgressStep × Stamp) :=
  row.progress.map StoredCommandProgress.frame

/-- How an operation moves the plan of a live command. -/
inductive FrameMove (row : CommandRow) :
    Op → Option (List CommandProgressStep × Stamp) → Prop where
  | stays {o : Op} : FrameMove row o row.frame
  | frame {progress : CommandProgress} {receivedAt : ℤ}
    (hnewer : ∀ stored ∈ row.progress, stored.updatedAt.time ≤ progress.updatedAt.time) :
    FrameMove row (.storeFrame row.key.id row.key.serverId progress receivedAt)
      (some (progress.steps, progress.updatedAt))
  | alive {serverId : String} {progress : Option StoredCommandProgress} {receivedAt : ℤ} :
    FrameMove row (.storeAlive row.key.id serverId progress receivedAt)
      (progress.map StoredCommandProgress.frame)
  | settle {expected : String} {progress : StoredCommandProgress} {at_ : ℤ}
    {frame : Option (List CommandProgressStep × Stamp)} :
    FrameMove row (.settleProgress row.key.id expected progress at_) frame
  | correct {progress : Option StoredCommandProgress}
    {frame : Option (List CommandProgressStep × Stamp)} :
    FrameMove row (.correctProgress row.key.id progress) frame

theorem frameMove_onRow (e : Env) (s : CommandStore) (o : Op) {row : CommandRow}
    (hlive : row.status.terminal = false) : FrameMove row o (o.onRow e s row).frame := by
  unfold Op.onRow
  split
  · rename_i hguard
    cases o with
    | flipTimedOut id outcome now =>
      have hprogress : (lateCorrection outcome now row).progress = row.progress := by cases outcome <;> rfl
      have hsame : (lateCorrection outcome now row).frame = row.frame :=
        congrArg (Option.map StoredCommandProgress.frame) hprogress
      exact hsame ▸ FrameMove.stays
    | settleProgress id expected progress at_ =>
      simp only [Op.guard, and_eq_true, decide_eq_true_eq] at hguard
      obtain ⟨⟨rfl, -⟩, -⟩ := hguard
      exact .settle
    | correctProgress id progress =>
      obtain rfl := of_decide_eq_true hguard
      exact .correct
    | storeFrame id serverId progress receivedAt =>
      simp only [Op.guard, and_eq_true, decide_eq_true_eq] at hguard
      obtain ⟨⟨⟨rfl, rfl⟩, -⟩, hnewer⟩ := hguard
      refine .frame fun stored hstored => ?_
      rw [hstored] at hnewer
      exact of_decide_eq_true hnewer
    | storeLateNotes id serverId expected progress =>
      simp only [Op.guard, and_eq_true] at hguard
      rw [hlive] at hguard
      exact absurd hguard.1.2 false_ne_true
    | storeAlive id serverId progress receivedAt =>
      simp only [Op.guard, and_eq_true, decide_eq_true_eq] at hguard
      obtain ⟨⟨rfl, -⟩, -⟩ := hguard
      exact .alive
    | markContactLost id lastHeardAt =>
      have hsame : ((Op.markContactLost id lastHeardAt).write s row).frame = row.frame := by
        change (row.progress.map _).map StoredCommandProgress.frame = row.progress.map _
        rw [Option.map_map]
        rfl
      exact hsame ▸ FrameMove.stays
    | _ => exact .stays
  · exact .stays

/-! ## The invariant -/

/-- There was no frame of the command. -/
def NoFrame (id : String) (ev : Event Op Ans) : Prop := ∀ frame, ¬StoresFrame id frame ⟨ev.op, ev.ans⟩

/-- What holds of the plans in every world of a run. -/
structure PlansKept (w : World Op Ans CommandStore) : Prop where
  ended : EndedStay w
  /-- A plan that was read for a sign of life is there until a frame is stored. -/
  read : ∀ row, Since (fun ev => ReadsAlive row ⟨ev.op, ev.ans⟩) (NoFrame row.key.id) w.log →
    ∃ row' ∈ w.state.rows, row'.key.id = row.key.id ∧
      (row'.status.terminal = false → row'.frame = row.frame)
  /-- The plan of a live command is that of the latest frame. -/
  latest : ∀ ev ∈ w.log, ∀ id frame, StoresFrame id frame ⟨ev.op, ev.ans⟩ →
    ∃ row ∈ w.state.rows, row.key.id = id ∧ (row.status.terminal = false → ∃ ev' ∈ w.log, ∃ latest,
      StoresFrame id latest ⟨ev'.op, ev'.ans⟩ ∧ row.frame = some (latest.steps, latest.updatedAt) ∧
        frame.updatedAt.time ≤ latest.updatedAt.time)
  /-- Frames of one time have the same steps. -/
  distinct : ∀ ev ∈ w.log, ∀ ev' ∈ w.log, ∀ id frame frame', StoresFrame id frame ⟨ev.op, ev.ans⟩ →
    StoresFrame id frame' ⟨ev'.op, ev'.ans⟩ → frame.updatedAt.time = frame'.updatedAt.time →
      frame.steps = frame'.steps

theorem plansKept_init (s : CommandStore) : PlansKept ⟨s, []⟩ where
  ended _ hev := nomatch hev
  read _ hsince := absurd hsince not_since_nil
  latest _ hev := nomatch hev
  distinct _ hev := nomatch hev

/-- The frames of a command come with increasing times: one of the same time is the same. And no
frame is stored between the read and the write of a sign of life. -/
def WritesWhatItRead (i : ℕ) (w : World Op Ans CommandStore) : Op → Prop
  | .storeFrame id _ progress _ => ∀ ev ∈ w.log, ∀ frame, StoresFrame id frame ⟨ev.op, ev.ans⟩ →
    frame.updatedAt.time = progress.updatedAt.time → frame.steps = progress.steps
  | .storeAlive id _ _ _ =>
    Since (fun ev => ev.thread = i ∧ IsAliveRead ⟨ev.op, ev.ans⟩) (NoFrame id) w.log
  | _ => True

section

variable {i : ℕ} {e : Env} {o : Op} {w : World Op Ans CommandStore} {ans : Ans o} {s' : CommandStore}

theorem PlansKept.alive_frame (hw : PlansKept w) {id serverId : String}
    {progress : Option StoredCommandProgress} {receivedAt : ℤ}
    (hok : WritesWhatItRead i w (.storeAlive id serverId progress receivedAt))
    (hcontract : Contract (own i w.log) (.storeAlive id serverId progress receivedAt)) {row : CommandRow}
    (hrow : row ∈ w.state.rows) (hid : row.key.id = id) (hlive : row.status.terminal = false) :
    progress.map StoredCommandProgress.frame = row.frame := by
  obtain ⟨read, hread, hsince, hprogress⟩ := hcontract
  have hsince := ((since_of_own hsince).and_of_last hok fun ev hnot hread => hnot hread.1 hread.2).mono
    (fun _ hev => hev.2) fun _ hev => hev.2
  rw [← hread] at hsince
  obtain ⟨row', hrow', hid', hframe⟩ := hw.read read hsince
  obtain rfl := inj_on_of_nodup_map w.state.ids_nodup hrow' hrow
    (hid'.trans (hread.trans hid.symm))
  rw [hprogress]
  exact (hframe hlive).symm

section

variable (hw : PlansKept w) (hok : WritesWhatItRead i w o) (hcontract : Contract (own i w.log) o)
  (hexec : exec i e o w.state = some (ans, s'))
include hw hok hcontract hexec

theorem PlansKept.frame_step
    {row : CommandRow} (hrow : row ∈ w.state.rows) (hlive : row.status.terminal = false) :
    (o.onRow e (w.state.elapse e.elapsed) row).frame = row.frame ∨
      ∃ progress, StoresFrame row.key.id progress ⟨o, ans⟩ ∧
        (o.onRow e (w.state.elapse e.elapsed) row).frame = some (progress.steps, progress.updatedAt) ∧
          ∀ stored ∈ row.progress, stored.updatedAt.time ≤ progress.updatedAt.time := by
  have hmove := frameMove_onRow e (w.state.elapse e.elapsed) o hlive
  generalize (o.onRow e (w.state.elapse e.elapsed) row).frame = frame at hmove ⊢
  cases hmove with
  | stays => exact .inl rfl
  | @frame progress receivedAt hnewer =>
    have hguard : (Op.storeFrame row.key.id row.key.serverId progress receivedAt).guard e
        (w.state.elapse e.elapsed) row = true := by
      simp only [Op.guard, and_eq_true, not_eq_true', decide_eq_true_eq]
      refine ⟨⟨⟨trivial, trivial⟩, hlive⟩, ?_⟩
      cases hprogress : row.progress with
      | none => rfl
      | some stored => exact decide_eq_true (hnewer stored hprogress)
    have hans : ans = true := (exec_eq_some hexec).2.1.trans (any_eq_true.2 ⟨row, hrow, hguard⟩)
    subst hans
    exact .inr ⟨progress, ⟨rfl, rfl⟩, rfl, hnewer⟩
  | alive => exact .inl (hw.alive_frame hok hcontract hrow rfl hlive)
  | settle => exact absurd hcontract (hw.ended.not_once hrow hlive)
  | correct => exact absurd hcontract (hw.ended.not_once hrow hlive)

theorem PlansKept.push_read : ∀ row,
      Since (fun ev => ReadsAlive row ⟨ev.op, ev.ans⟩) (NoFrame row.key.id) (w.log ++ [⟨i, o, ans⟩]) →
        ∃ row' ∈ s'.rows, row'.key.id = row.key.id ∧
          (row'.status.terminal = false → row'.frame = row.frame) := by
  intro row hsince
  obtain hreads | ⟨hsince, hnoFrame⟩ := since_concat.1 hsince
  · obtain ⟨-, hans, -⟩ := exec_eq_some hexec
    cases o with
    | readAlive id serverId =>
      cases ans with
      | none => exact hreads.elim
      | some found =>
        obtain rfl : found = row := hreads
        have hfound := (CommandStore.row?_eq_some.1 (row?_of_filter hans.symm).1).1
        exact ⟨_, onRow_mem_rows_of_exec hexec hfound, rfl, fun _ => rfl⟩
    | _ => exact hreads.elim
  · obtain ⟨row', hrow', hid, hframe⟩ := hw.read row hsince
    refine ⟨_, onRow_mem_rows_of_exec hexec hrow', (congrArg CommandKey.id (Op.onRow_key _ _ _ _)).trans hid,
      fun hlive => ?_⟩
    have hlive' := live_of_onRow hlive
    obtain hsame | ⟨progress, hstores, -⟩ := hw.frame_step hok hcontract hexec hrow' hlive'
    · exact hsame.trans (hframe hlive')
    · exact absurd (hid ▸ hstores) (hnoFrame progress)

end

theorem row_of_storesFrame (hexec : exec i e o w.state = some (ans, s')) {id : String}
    {frame : CommandProgress} (hstores : StoresFrame id frame ⟨o, ans⟩) : ∃ row ∈ w.state.rows,
      row.key.id = id ∧
        (o.onRow e (w.state.elapse e.elapsed) row).frame = some (frame.steps, frame.updatedAt) := by
  obtain ⟨-, hans, -⟩ := exec_eq_some hexec
  cases o with
  | storeFrame id' serverId progress receivedAt =>
    cases ans with
    | false => exact hstores.elim
    | true =>
      obtain ⟨rfl, rfl⟩ := hstores
      obtain ⟨row, hrow, hguard⟩ := any_eq_true.1 hans.symm
      refine ⟨row, hrow, ?_, ?_⟩
      · simp only [Op.guard, and_eq_true, decide_eq_true_eq] at hguard
        exact hguard.1.1.1
      · rw [Op.onRow, if_pos hguard]
        rfl
  | _ => exact hstores.elim

section

variable (hw : PlansKept w) (hok : WritesWhatItRead i w o)
include hw hok

theorem PlansKept.push_latest
    (hcontract : Contract (own i w.log) o) (hexec : exec i e o w.state = some (ans, s')) :
    ∀ ev ∈ w.log ++ [⟨i, o, ans⟩], ∀ id frame, StoresFrame id frame ⟨ev.op, ev.ans⟩ →
      ∃ row ∈ s'.rows, row.key.id = id ∧ (row.status.terminal = false →
        ∃ ev' ∈ w.log ++ [⟨i, o, ans⟩], ∃ latest, StoresFrame id latest ⟨ev'.op, ev'.ans⟩ ∧
          row.frame = some (latest.steps, latest.updatedAt) ∧
            frame.updatedAt.time ≤ latest.updatedAt.time) := by
  intro ev hev id frame hstores
  obtain hev | hev := mem_append.1 hev
  · obtain ⟨row, hrow, hid, hlatest⟩ := hw.latest ev hev id frame hstores
    refine ⟨_, onRow_mem_rows_of_exec hexec hrow, (congrArg CommandKey.id (Op.onRow_key _ _ _ _)).trans hid,
      fun hlive => ?_⟩
    have hlive' := live_of_onRow hlive
    obtain ⟨ev', hev', latest, hstored, hframe, hle⟩ := hlatest hlive'
    obtain hsame | ⟨progress, hstores', hframe', hnewer⟩ :=
      hw.frame_step hok hcontract hexec hrow hlive'
    · exact ⟨ev', mem_append_left _ hev', latest, hstored, hsame.trans hframe, hle⟩
    · refine ⟨_, mem_append_right _ mem_cons_self, progress, hid ▸ hstores', hframe', ?_⟩
      obtain ⟨stored, hstored, heq⟩ := Option.map_eq_some_iff.1 hframe
      have := hnewer stored hstored
      have htime : stored.updatedAt = latest.updatedAt := congrArg Prod.snd heq
      rw [htime] at this
      omega
  · obtain rfl := mem_singleton.1 hev
    obtain ⟨row, hrow, hid, hframe⟩ := row_of_storesFrame hexec hstores
    refine ⟨_, onRow_mem_rows_of_exec hexec hrow, (congrArg CommandKey.id (Op.onRow_key _ _ _ _)).trans hid,
      fun _ => ⟨_, mem_append_right _ mem_cons_self, frame, hstores, hframe, le_rfl⟩⟩

theorem PlansKept.push_distinct :
    ∀ ev ∈ w.log ++ [⟨i, o, ans⟩], ∀ ev' ∈ w.log ++ [⟨i, o, ans⟩], ∀ id frame frame',
      StoresFrame id frame ⟨ev.op, ev.ans⟩ → StoresFrame id frame' ⟨ev'.op, ev'.ans⟩ →
        frame.updatedAt.time = frame'.updatedAt.time → frame.steps = frame'.steps := by
  -- A frame that is stored now, against one that was stored before.
  have hnew : ∀ ev ∈ w.log, ∀ id frame frame', StoresFrame id frame ⟨ev.op, ev.ans⟩ →
      StoresFrame id frame' ⟨o, ans⟩ → frame.updatedAt.time = frame'.updatedAt.time →
        frame.steps = frame'.steps := by
    intro ev hev id frame frame' hstores hstores' htime
    cases o with
    | storeFrame id' serverId progress receivedAt =>
      cases ans with
      | false => exact hstores'.elim
      | true =>
        obtain ⟨rfl, rfl⟩ := hstores'
        exact hok ev hev frame hstores htime
    | _ => exact hstores'.elim
  intro ev hev ev' hev' id frame frame' hstores hstores' htime
  obtain hev | hev := mem_append.1 hev
  · obtain hev' | hev' := mem_append.1 hev'
    · exact hw.distinct ev hev ev' hev' id frame frame' hstores hstores' htime
    · obtain rfl := mem_singleton.1 hev'
      exact hnew ev hev id frame frame' hstores hstores' htime
  · obtain rfl := mem_singleton.1 hev
    obtain hev' | hev' := mem_append.1 hev'
    · exact (hnew ev' hev' id frame' frame hstores' hstores htime.symm).symm
    · obtain rfl := mem_singleton.1 hev'
      cases o with
      | storeFrame id' serverId progress receivedAt =>
        cases ans with
        | false => exact hstores.elim
        | true => rw [← hstores.2, ← hstores'.2]
      | _ => exact hstores.elim

theorem PlansKept.push
    (hcontract : Contract (own i w.log) o) (hexec : exec i e o w.state = some (ans, s')) :
    PlansKept (w.push i o ans s') where
  ended := hw.ended.push hexec
  read := hw.push_read hok hcontract hexec
  latest := hw.push_latest hok hcontract hexec
  distinct := hw.push_distinct hok

end

end

/-! ## Every run -/

/-- The steps of a live command for which a frame was stored are those of the frame, or of one that
was stored with a later time. -/
def FramesStay (w : World Op Ans CommandStore) : Prop :=
  ∀ ev ∈ w.log, ∀ id frame, StoresFrame id frame ⟨ev.op, ev.ans⟩ →
    ∀ row ∈ w.state.rows, row.key.id = id → row.status.terminal = false →
      ∃ stored, row.progress = some stored ∧ (stored.steps = frame.steps ∨
        ∃ ev' ∈ w.log, ∃ later, StoresFrame id later ⟨ev'.op, ev'.ans⟩ ∧
          frame.updatedAt.time < later.updatedAt.time ∧ stored.steps = later.steps)

/-- **A stored frame is never undone** in a run in which no frame is stored between the read and the
write of a sign of life: for as long as the command did not end, the steps on the row are those of
the frame, or of one that was stored with a later time. -/
theorem stored_frames_stay (s : CommandStore) {choices : List (Choice Env Call)}
    (hmeets : Meets machine body WritesWhatItRead (Config.init s) choices) :
    FramesStay ((Config.init s).run machine body choices).world := by
  have hstep : ∀ {i e o w ans s'}, PlansKept w → WritesWhatItRead i w o → Contract (own i w.log) o →
      machine.exec i e o w.state = some (ans, s') → PlansKept (w.push i o ans s') :=
    fun hw hok hcontract hexec => hw.push hok hcontract hexec
  have hdrop : ∀ {i : ℕ} {w : World Op Ans CommandStore}, PlansKept w →
      PlansKept { w with state := machine.drop i w.state } :=
    fun hw => ⟨hw.ended, hw.read, hw.latest, hw.distinct⟩
  have hw := (Config.run_inv hstep hdrop body_obeys answers_of_exec (obeys_init s) (plansKept_init s)
    hmeets).2
  intro ev hev id frame hstores row hrow hid hlive
  obtain ⟨row', hrow', hid', hlatest⟩ := hw.latest ev hev id frame hstores
  obtain rfl := inj_on_of_nodup_map (CommandStore.ids_nodup _) hrow' hrow (hid'.trans hid.symm)
  obtain ⟨ev', hev', latest, hstored, hframe, hle⟩ := hlatest hlive
  obtain ⟨stored, hstored', heq⟩ := Option.map_eq_some_iff.1 hframe
  have hsteps : stored.steps = latest.steps := congrArg Prod.fst heq
  refine ⟨stored, hstored', ?_⟩
  obtain hlt | htime := lt_or_eq_of_le hle
  · exact .inr ⟨ev', hev', latest, hstored, hlt, hsteps⟩
  · exact .inl (hsteps.trans (hw.distinct ev hev ev' hev' id frame latest hstores hstored htime).symm)

/-! ## A frame that is lost -/

/-- A frame of a plan with one step. -/
def buildFrame (state : CommandProgressStepState) (updatedAt : ℤ) : CommandProgress where
  steps := [⟨"build", "Build", state, none, none, none⟩]
  current := if state = .running then some "build" else none
  updatedAt := ⟨"", updatedAt⟩
  runningSince := .absent

/-- A sign of life reads the row, which has no plan yet. -/
def aliveReads : List (Choice Env Call) := [.call (.alive "server" "command"), .step 0 {}, .step 0 {}]

/-- The first frame is stored. -/
def frameStored : List (Choice Env Call) :=
  [.call (.progress "server" "command" (buildFrame .running 1)), .step 1 {}, .step 1 {}]

theorem sign_of_life_undoes_frame : ¬FramesStay
    ((Config.init (oneCommand (sentCommand .environmentDeploy))).run machine body
      (aliveReads ++ frameStored ++ [.step 0 {}])).world := by
  intro hstay
  obtain ⟨stored, hstored, -⟩ := hstay
    ⟨1, .storeFrame "command" "server" (buildFrame .running 1) 0, true⟩
    (.tail _ (.tail _ (.tail _ (.head _)))) "command" (buildFrame .running 1) ⟨rfl, rfl⟩ _ (.head _) rfl rfl
  cases hstored

theorem stored_frames_stay_alive : FramesStay
    ((Config.init (oneCommand (sentCommand .environmentDeploy))).run machine body
      [.call (.progress "server" "command" (buildFrame .running 1)), .step 0 {}, .step 0 {},
        .call (.alive "server" "command"), .step 1 {}, .step 1 {}, .step 1 {}]).world := by
  refine stored_frames_stay _ (meets_call _ _ (meets_step _ _ rfl trivial (meets_step _ _ rfl ?_ ?_)))
  · intro ev hev frame hstores
    obtain rfl := mem_singleton.1 hev
    exact hstores.elim
  · refine meets_call _ _ (meets_step _ _ rfl trivial (meets_step _ _ rfl trivial ?_))
    exact meets_step _ _ rfl ⟨[_, _, _], _, [], rfl, ⟨rfl, trivial⟩, fun _ h => (nomatch h)⟩ trivial

end TurboPanel.CommandRecords
