import TurboPanel.Deploy.Rollout

/-!
# A rollout starts its batches in order and once

An advance decides from the targets as it loaded them, and claims its batch later. What it saw as
pending may be claimed by another call by then, and what it saw as applied stays so, unless a
failure is recorded for it: the failure of a command is recorded whatever the status of its target
is, where the other paths that give a command up do so only while the target is applying. A second
result for the command of a server that was applied can so fail an earlier batch between the load
and the claim.

When no failure is recorded for an earlier batch between the load and the claim, no target starts
before every earlier batch is applied. In every run, each target is delivered once at most, and
after a halt no target is pending.
-/

namespace TurboPanel.Rollout

open Option Interleaving List
open Interleaving.Prog (call foldEach)

/-! ## Events -/

/-- The operation read the targets of a generation. -/
def Loads (environmentId : String) (generation : ℤ) (targets : List GenerationTarget) :
    (o : Op) × Ans o → Prop
  | ⟨.loadGenerationTargets environmentId' generation', targets'⟩ =>
    environmentId' = environmentId ∧ generation' = generation ∧ targets' = targets
  | _ => False

def IsLoad : (o : Op) × Ans o → Prop
  | ⟨.loadGenerationTargets _ _, _⟩ => True
  | _ => False

/-- The operation claimed the target of a server. -/
def ClaimsTarget (environmentId serverId : String) : (o : Op) × Ans o → Prop
  | ⟨.claimBatch environmentId' _ _, claimed⟩ =>
    environmentId' = environmentId ∧ ∃ row ∈ claimed, row.serverId = serverId
  | _ => False

/-- The operation enqueued the command of the target of a server. -/
def EnqueuesTarget (environmentId serverId : String) : (o : Op) × Ans o → Prop
  | ⟨.enqueue environmentId' claimed _, _⟩ =>
    environmentId' = environmentId ∧ claimed.serverId = serverId
  | _ => False

/-- The operation recorded a failure for the target of a server. -/
def RecordsFailure (environmentId serverId : String) : (o : Op) × Ans o → Prop
  | ⟨.transitionDeployment params, true⟩ =>
    params.environmentId = environmentId ∧ params.serverId = serverId ∧ params.status = .failed
  | _ => False

/-- The operation halted the rollout of a generation. -/
def HaltsGeneration (environmentId : String) (generation : ℤ) : (o : Op) × Ans o → Prop
  | ⟨.halt environmentId' generation', _⟩ =>
    environmentId' = environmentId ∧ ∀ g ∈ generation', generation = g
  | _ => False

/-! ## The contract -/

/-- An operation that is neither a load nor a record of an outcome. -/
def Quiet : (o : Op) × Ans o → Prop
  | ⟨.loadGenerationTargets _ _, _⟩ => False
  | ⟨.transitionDeployment _, _⟩ => False
  | _ => True

/-- What a call makes, after what it made before. -/
def Contract (h : Trace Op Ans) : Op → Prop
  | .claimBatch environmentId generation ids => ∃ targets batch,
    nextRolloutStep targets = .start batch ∧
      ids = (batchOf targets batch).map (fun row => row.target.id) ∧
        Since (Loads environmentId generation targets) Quiet h
  | .enqueue environmentId claimed _ =>
    Since (ClaimsTarget environmentId claimed.serverId)
      (fun x => ¬EnqueuesTarget environmentId claimed.serverId x) h
  | .transitionDeployment params => params.status = .applied ∨ params.status = .failed
  | _ => True

/-- What the table answers: a claim has a server once. -/
def Answers : (o : Op) → Ans o → Prop
  | .claimBatch _ _ _, claimed => (claimed.map ClaimedTarget.serverId).Nodup
  | _, _ => True

variable {h : Trace Op Ans} {row : DeploymentRow} {rows : List ClaimedTarget} {targets : List GenerationTarget}
  (s : DeploymentTable) (environmentId : String) (generation : ℤ)

theorem nodup_claimedTargets (ids : List String) : ((DeploymentTable.claimedTargets (s.rows.filter fun row =>
      decide (claims environmentId generation ids row))).map ClaimedTarget.serverId).Nodup := by
  have hrows := (pairwise_map.1 s.servers_nodup).filter
    (fun row => decide (claims environmentId generation ids row))
  rw [List.Nodup, pairwise_map, DeploymentTable.claimedTargets, pairwise_filterMap]
  refine hrows.imp_of_mem fun {a b} ha hb hne c hc c' hc' heq => hne ?_
  obtain ⟨_, -, rfl⟩ := map_eq_some_iff.1 hc
  obtain ⟨_, -, rfl⟩ := map_eq_some_iff.1 hc'
  have hclaims := of_decide_eq_true (mem_filter.1 ha).2
  have hclaims' := of_decide_eq_true (mem_filter.1 hb).2
  exact Prod.ext (hclaims.1.1.trans hclaims'.1.1.symm) heq

variable {e : Env} {o : Op} {s' : DeploymentTable}

theorem answers_of_exec {s : DeploymentTable} {ans : Ans o}
    (h : exec e o s = some (ans, s')) : Answers o ans := by
  cases h
  cases o with
  | claimBatch environmentId generation ids => exact nodup_claimedTargets s environmentId generation ids
  | _ => trivial

/-! ## The calls keep the contract -/

/-- The operations that a call may make at any time. -/
def Free (o : Op) : Prop := ∀ h, Contract h o

theorem haltRollout_only (generation : Option ℤ) :
    (haltRollout environmentId generation).Only Free (fun _ => True) := by
  refine ⟨fun _ => trivial, fun rows => ?_⟩
  refine Prog.only_foldEach trivial fun _ row _ _ => ⟨fun _ => trivial, fun _ => trivial⟩

theorem sat_of_only {α : Type} {p : Proc α} (hp : p.Only Free (fun _ => True)) (h : Trace Op Ans) :
    p.Sat Answers Contract (fun _ _ => True) h := by
  refine (hp.sat (K := fun _ => True) ?_ ?_ trivial).mono fun _ _ _ => trivial
  · exact fun h o hfree _ => hfree h
  · exact fun _ _ _ _ _ => trivial

/-- The targets are claimed, and not enqueued since. -/
def Undelivered (environmentId : String) (rows : List ClaimedTarget) (h : Trace Op Ans) : Prop :=
  ∀ row ∈ rows, Since (ClaimsTarget environmentId row.serverId)
    (fun x => ¬EnqueuesTarget environmentId row.serverId x) h

theorem Undelivered.concat {environmentId : String} (hrows : Undelivered environmentId rows h) {x : (o : Op) × Ans o}
    (hx : ∀ row ∈ rows, ¬EnqueuesTarget environmentId row.serverId x) :
    Undelivered environmentId rows (h ++ [x]) :=
  fun row hrow => since_concat.2 (.inr ⟨hrows row hrow, hx row hrow⟩)

theorem deliverClaimed_sat {environmentId : String} {row : ClaimedTarget} (queuedAt : ℤ)
    (hrow : row.serverId ∉ rows.map ClaimedTarget.serverId) (hrows : Undelivered environmentId (row :: rows) h) :
    (deliverClaimed environmentId row queuedAt).Sat Answers Contract
      (fun h _ => Undelivered environmentId rows h) h := by
  have hrest : ∀ sent, Undelivered environmentId rows
      (h ++ [⟨.enqueue environmentId row queuedAt, sent⟩]) := by
    intro sent
    refine Undelivered.concat (fun row hrow => hrows row (mem_cons_of_mem _ hrow)) ?_
    rintro other hother ⟨-, heq⟩
    exact hrow (heq ▸ mem_map_of_mem hother)
  have hfailed : ∀ {h}, Undelivered environmentId rows h → Prog.Sat Answers Contract
      (fun h _ => Undelivered environmentId rows h) (do
        ask (.transitionCommand row.commandId .failed)
        let _ ← ask (.transitionDeployment ⟨environmentId, row.serverId, .failed, some row.commandId,
          none, none⟩)
        return false) h := by
    intro h hh
    refine ⟨trivial, fun _ _ => ⟨.inr rfl, fun _ _ => ?_⟩⟩
    exact (hh.concat fun _ _ => id).concat fun _ _ => id
  refine ⟨hrows row mem_cons_self, fun sent _ => ?_⟩
  cases sent with
  | false => exact hfailed (hrest false)
  | true =>
    refine ⟨trivial, fun marked _ => ?_⟩
    have hmarked := (hrest true).concat (x := ⟨.markCommandEnqueued row.commandId, marked⟩) fun _ _ => id
    cases marked with
    | false => exact hfailed hmarked
    | true => exact hmarked

theorem deliverEach_sat {environmentId : String} (queuedAt : ℤ) (hnodup : (rows.map ClaimedTarget.serverId).Nodup)
    (hrows : Undelivered environmentId rows h) (all : Bool) :
    (foldEach (fun all row => do
      let sent ← deliverClaimed environmentId row queuedAt
      return all && sent) rows all).Sat Answers Contract (fun _ _ => True) h := by
  induction rows generalizing h all with
  | nil => trivial
  | cons row rows ih =>
    rw [map_cons, nodup_cons] at hnodup
    refine Prog.Sat.bind (Prog.Sat.bind (deliverClaimed_sat queuedAt hnodup.1 hrows)
      fun h sent hh => ?_) fun h all hh => ih hnodup.2 hh all
    exact hh

theorem advanceRollout_sat (h : Trace Op Ans) :
    (advanceRollout environmentId generation).Sat Answers Contract (fun _ _ => True) h := by
  refine ⟨trivial, fun targets _ => ?_⟩
  simp only [Prog.bind]
  split
  · exact sat_of_only (haltRollout_only environmentId (some generation)) _
  · trivial
  · trivial
  · rename_i batch hstep
    refine ⟨trivial, fun queuedAt _ => ⟨trivial, fun _ _ => ⟨⟨targets, batch, hstep, rfl, ?_⟩,
      fun claimed hclaimed => ?_⟩⟩⟩
    · rw [since_concat, since_concat, since_concat]
      exact .inr ⟨.inr ⟨.inl ⟨rfl, rfl, rfl⟩, trivial⟩, trivial⟩
    · refine Prog.Sat.bind (deliverEach_sat queuedAt hclaimed (fun row hrow => ?_) true)
        fun h delivered _ => ?_
      · exact since_concat.2 (.inl ⟨rfl, row, hrow, rfl⟩)
      · cases delivered with
        | true => trivial
        | false => exact sat_of_only (haltRollout_only environmentId (some generation)) h

/-- **Every call keeps the contract.** -/
theorem body_obeys (x : Call) : (body x).Sat Answers Contract (fun _ _ => True) [] := by
  cases x with
  | advance environmentId generation => exact advanceRollout_sat environmentId generation []
  | halt environmentId generation => exact sat_of_only (haltRollout_only environmentId generation) []
  | succeeded environmentId serverId generation commandId =>
    refine ⟨.inl rfl, fun marked _ => ?_⟩
    cases marked with
    | true => exact advanceRollout_sat environmentId generation _
    | false => trivial
  | failed environmentId serverId generation commandId =>
    refine ⟨.inr rfl, fun marked _ => ?_⟩
    cases marked with
    | true =>
      cases generation with
      | some generation => exact sat_of_only (haltRollout_only environmentId (some generation)) _
      | none => trivial
    | false => cases generation <;> trivial
  | lost environmentId serverId generation commandId =>
    refine ⟨.inr rfl, fun marked _ => ?_⟩
    cases marked with
    | true => exact sat_of_only (haltRollout_only environmentId (some generation)) _
    | false => trivial
  | late environmentId serverId commandId => exact ⟨.inl rfl, fun _ _ => trivial⟩
  | cancelled environmentId serverId commandId => exact ⟨.inr rfl, fun _ _ => trivial⟩

/-! ## Rows -/

/-- The target is neither waiting nor in flight nor failed. -/
def Settled (status : DeploymentStatus) : Prop := status = .applied ∨ status = .draining

theorem mem_rows_of_exec {s : DeploymentTable} {ans : Ans o}
    (hexec : exec e o s = some (ans, s')) {row' : DeploymentRow} (hrow' : row' ∈ s'.rows) :
    ∃ row ∈ s.rows, o.onRow row = row' ∧ row'.target = row.target := by
  cases hexec
  obtain ⟨row, hrow, rfl⟩ := mem_map.1 hrow'
  exact ⟨row, hrow, rfl, o.onRow_target row⟩

theorem onRow_mem_rows_of_exec {s : DeploymentTable} {ans : Ans o}
    (hexec : exec e o s = some (ans, s')) (hrow : row ∈ s.rows) : o.onRow row ∈ s'.rows := by
  cases hexec
  exact mem_map_of_mem hrow

theorem pending_of_onRow (hcontract : Contract h o) (hpending : (o.onRow row).status = .pending) :
    o.onRow row = row ∧ row.status = .pending := by
  cases o with
  | claimBatch environmentId generation ids =>
    rw [Op.onRow, claimedRow] at hpending ⊢
    split at hpending
    · cases hpending
    · rename_i hnot
      exact ⟨if_neg hnot, hpending⟩
  | transitionDeployment params =>
    rw [Op.onRow, transitionedRow] at hpending ⊢
    split at hpending
    · obtain hstatus | hstatus := hcontract
      · cases hstatus.symm.trans hpending
      · cases hstatus.symm.trans hpending
    · rename_i hnot
      exact ⟨if_neg hnot, hpending⟩
  | halt environmentId generation =>
    rw [Op.onRow, haltedRow] at hpending ⊢
    split at hpending
    · cases hpending
    · rename_i hnot
      exact ⟨if_neg hnot, hpending⟩
  | _ => exact ⟨rfl, hpending⟩

theorem claims_of_applying (hcontract : Contract h o) (hrow : row.status ≠ .applying)
    (happlying : (o.onRow row).status = .applying) :
    ∃ environmentId generation ids, o = .claimBatch environmentId generation ids ∧
      claims environmentId generation ids row := by
  cases o with
  | claimBatch environmentId generation ids =>
    rw [Op.onRow, claimedRow] at happlying
    split at happlying
    · exact ⟨environmentId, generation, ids, rfl, ‹_›⟩
    · exact absurd happlying hrow
  | transitionDeployment params =>
    rw [Op.onRow, transitionedRow] at happlying
    split at happlying
    · obtain hstatus | hstatus := hcontract
      · cases hstatus.symm.trans happlying
      · cases hstatus.symm.trans happlying
    · exact absurd happlying hrow
  | halt environmentId generation =>
    rw [Op.onRow, haltedRow] at happlying
    split at happlying
    · cases happlying
    · exact absurd happlying hrow
  | _ => exact absurd happlying hrow

theorem settled_onRow {s : DeploymentTable} {ans : Ans o} (hexec : exec e o s = some (ans, s'))
    (hcontract : Contract h o) (hrow : row ∈ s.rows) (hsettled : Settled row.status) : Settled (o.onRow row).status ∨
      RecordsFailure row.target.environmentId row.target.serverId ⟨o, ans⟩ := by
  have hpending : row.status ≠ .pending := by
    rintro heq
    rw [Settled, heq] at hsettled
    obtain h | h := hsettled <;> cases h
  cases o with
  | claimBatch environmentId generation ids =>
    rw [Op.onRow, claimedRow, if_neg fun hclaims => hpending hclaims.2.1]
    exact .inl hsettled
  | transitionDeployment params =>
    rw [Op.onRow, transitionedRow]
    split
    · rename_i htransitions
      obtain hstatus | hstatus := hcontract
      · exact .inl (.inl hstatus)
      · have hans : ans = true := by
          cases hexec
          exact any_eq_true.2 ⟨row, hrow, decide_eq_true htransitions⟩
        subst hans
        exact .inr ⟨htransitions.1.symm, htransitions.2.1.symm, hstatus⟩
    · exact .inl hsettled
  | halt environmentId generation =>
    rw [Op.onRow, haltedRow, if_neg fun hhalts => hpending hhalts.2.2.1]
    exact .inl hsettled
  | _ => exact .inl hsettled

/-! ## What a load saw -/

/-- What is left of what a call loaded: the targets are those of the generation, and one that was
settled is so still, unless its failure was recorded since. -/
structure LoadKept (environmentId : String) (generation : ℤ) (targets : List GenerationTarget)
    (since : List (Event Op Ans)) (s : DeploymentTable) : Prop where
  known : ∀ target ∈ targets, target.target.batch? = some target.batch ∧
    ∃ row ∈ s.rows, row.target = target.target
  kept : ∀ row ∈ s.rows, inGeneration environmentId generation row → ∀ batch,
    row.target.batch? = some batch → ∃ target ∈ targets, target.target = row.target ∧
      target.batch = batch ∧ (Settled target.status → Settled row.status ∨
        ∃ ev ∈ since, RecordsFailure environmentId row.target.serverId ⟨ev.op, ev.ans⟩)

theorem loadKept_load (s : DeploymentTable) :
    LoadKept environmentId generation (s.loadGenerationTargets environmentId generation) [] s := by
  constructor
  · intro target htarget
    obtain ⟨row, hrow, htarget⟩ := mem_filterMap.1 htarget
    obtain ⟨batch, hbatch, rfl⟩ := map_eq_some_iff.1 htarget
    exact ⟨hbatch, row, (mem_filter.1 hrow).1, rfl⟩
  · intro row hrow hgeneration batch hbatch
    refine ⟨⟨row.target, row.status, batch, row.lastCommandId⟩, ?_, rfl, rfl, .inl⟩
    refine mem_filterMap.2 ⟨row, mem_filter.2 ⟨hrow, decide_eq_true hgeneration⟩, ?_⟩
    rw [generationTarget, hbatch, map_some]

theorem mapRows_onRow_load (s : DeploymentTable) :
    s.mapRows (Op.loadGenerationTargets environmentId generation).onRow (Op.onRow_target _) = s := by
  obtain ⟨rows, hids, hservers⟩ := s
  rw [DeploymentTable.mapRows, DeploymentTable.mk.injEq]
  exact map_id rows

theorem LoadKept.step {environmentId : String} {generation : ℤ} {targets : List GenerationTarget}
    {since : List (Event Op Ans)} {i : ℕ} {e : Env} {o : Op} {s s' : DeploymentTable} {ans : Ans o}
    {h : Trace Op Ans} (hkept : LoadKept environmentId generation targets since s)
    (hexec : exec e o s = some (ans, s')) (hcontract : Contract h o) :
    LoadKept environmentId generation targets (since ++ [⟨i, o, ans⟩]) s' := by
  constructor
  · intro target htarget
    obtain ⟨hbatch, row, hrow, heq⟩ := hkept.known target htarget
    exact ⟨hbatch, o.onRow row, onRow_mem_rows_of_exec hexec hrow, (o.onRow_target row).trans heq⟩
  · intro row' hrow' hgeneration batch hbatch
    obtain ⟨row, hrow, rfl, htarget⟩ := mem_rows_of_exec hexec hrow'
    rw [inGeneration, htarget] at hgeneration
    rw [htarget] at hbatch ⊢
    obtain ⟨target, hmem, heq, hbatch, hsettled⟩ := hkept.kept row hrow hgeneration batch hbatch
    refine ⟨target, hmem, heq, hbatch, fun hstatus => ?_⟩
    obtain hsettled | ⟨ev, hev, hfailure⟩ := hsettled hstatus
    · obtain hsettled | hfailure := settled_onRow hexec hcontract hrow hsettled
      · exact .inl hsettled
      · refine .inr ⟨_, mem_append_right _ mem_cons_self, ?_⟩
        exact hgeneration.1 ▸ hfailure
    · exact .inr ⟨ev, mem_append_left _ hev, hfailure⟩

/-! ## A claim comes in order -/

theorem settled_of_start {batch : ℕ} (hstep : nextRolloutStep targets = .start batch) {target : GenerationTarget}
    (htarget : target ∈ targets) (hlt : target.batch < batch) : Settled target.status := by
  rw [nextRolloutStep] at hstep
  split at hstep
  · cases hstep
  rename_i hfailed
  split at hstep
  · cases hstep
  rename_i happlying
  have hnever : ∀ status, ¬(targets.any fun target => decide (target.status = status)) = true →
      target.status ≠ status :=
    fun status hnone heq => hnone (any_eq_true.2 ⟨target, htarget, decide_eq_true heq⟩)
  have hpending : target.status ≠ .pending := by
    intro hpending
    have hmem : target.batch ∈ (targets.filter fun target => decide (target.status = .pending)).map
        GenerationTarget.batch :=
      mem_map_of_mem (mem_filter.2 ⟨htarget, decide_eq_true hpending⟩)
    split at hstep
    · rename_i hnil
      rw [hnil] at hmem
      cases hmem
    · rename_i first rest hcons
      rw [hcons] at hmem
      have hle : rest.foldl min first ≤ target.batch :=
        (min?_eq_some_iff.1 min?_cons').2 _ hmem
      have := RolloutStep.start.inj hstep
      omega
  cases hstatus : target.status with
  | pending => exact absurd hstatus hpending
  | applying => exact absurd hstatus (hnever .applying happlying)
  | applied => exact .inl rfl
  | failed => exact absurd hstatus (hnever .failed hfailed)
  | draining => exact .inr rfl

/-- The target of a row is of an earlier batch of the same generation. -/
def Earlier (target target' : DeploymentTarget) : Prop :=
  target.environmentId = target'.environmentId ∧ target.desiredGeneration = target'.desiredGeneration ∧
    ∃ batch batch', target.batch? = some batch ∧ target'.batch? = some batch' ∧ batch < batch'

theorem LoadKept.settled {environmentId : String} {generation : ℤ} {since : List (Event Op Ans)} {s : DeploymentTable}
    (hkept : LoadKept environmentId generation targets since s) {batch : ℕ}
    (hstep : nextRolloutStep targets = .start batch) {row row' : DeploymentRow} (hrow : row ∈ s.rows)
    (hrow' : row' ∈ s.rows)
    (hclaims : claims environmentId generation ((batchOf targets batch).map fun row => row.target.id) row')
    (hearlier : Earlier row.target row'.target)
    (hfailure : ∀ ev ∈ since, ¬RecordsFailure environmentId row.target.serverId ⟨ev.op, ev.ans⟩) :
    Settled row.status := by
  obtain ⟨hgeneration, -, hids⟩ := hclaims
  obtain ⟨claimed, hbatchOf, hid⟩ := mem_map.1 hids
  obtain ⟨hclaimed, hbatch⟩ := mem_filter.1 hbatchOf
  obtain ⟨-, rfl⟩ := of_decide_eq_true hbatch
  -- An id is that of one row, so what was loaded under it is the target that is claimed.
  have hsame : row'.target = claimed.target := by
    obtain ⟨-, row, hrow, heq⟩ := hkept.known claimed hclaimed
    rw [← heq, inj_on_of_nodup_map s.ids_nodup hrow' hrow (by rw [← hid, heq])]
  obtain ⟨henv, hgen, small, large, hsmall, hlarge, hlt⟩ := hearlier
  obtain ⟨target, htarget, -, rfl, hsettled⟩ := hkept.kept row hrow
    ⟨henv.trans hgeneration.1, hgen.trans hgeneration.2⟩ small hsmall
  have hlarge' : claimed.batch = large := by
    rw [hsame, (hkept.known claimed hclaimed).1] at hlarge
    exact Option.some.inj hlarge
  obtain hsettled | ⟨ev, hev, hrecorded⟩ :=
    hsettled (settled_of_start hstep htarget (hlarge' ▸ hlt))
  · exact hsettled
  · exact absurd hrecorded (hfailure ev hev)

/-- Since an advance loaded the targets, no failure was recorded for one of an earlier batch than a
target that it claims. -/
def ClaimsUnfailed (i : ℕ) (w : World Op Ans DeploymentTable) : Op → Prop
  | .claimBatch environmentId generation ids => ∀ row ∈ w.state.rows, ∀ row' ∈ w.state.rows,
    claims environmentId generation ids row' → Earlier row.target row'.target →
      Since (fun ev => ev.thread = i ∧ IsLoad ⟨ev.op, ev.ans⟩)
        (fun ev => ¬RecordsFailure environmentId row.target.serverId ⟨ev.op, ev.ans⟩) w.log
  | _ => True


/-! ## The invariant -/

/-- What holds in every world that a run from `initial` reaches. -/
structure Reached (initial : DeploymentTable) (w : World Op Ans DeploymentTable) : Prop where
  /-- What a call loaded is kept. -/
  loaded : ∀ before ev after environmentId generation targets, w.log = before ++ ev :: after →
    Loads environmentId generation targets ⟨ev.op, ev.ans⟩ →
      LoadKept environmentId generation targets after w.state
  /-- A target that is pending was so from the start. -/
  waited : ∀ row ∈ w.state.rows, row.status = .pending → row ∈ initial.rows
  /-- A target that was claimed waited before, and does so no more. -/
  claimed : ∀ ev ∈ w.log, ∀ environmentId serverId,
    ClaimsTarget environmentId serverId ⟨ev.op, ev.ans⟩ →
      (∃ row ∈ initial.rows, row.target.environmentId = environmentId ∧
        row.target.serverId = serverId ∧ row.status = .pending) ∧
      ∀ row ∈ w.state.rows, row.target.environmentId = environmentId → row.target.serverId = serverId →
        row.status ≠ .pending
  /-- A target is enqueued by the call that claimed it. -/
  enqueued : ∀ ev ∈ w.log, ∀ environmentId serverId,
    EnqueuesTarget environmentId serverId ⟨ev.op, ev.ans⟩ →
      ∃ ev' ∈ w.log, ev'.thread = ev.thread ∧ ClaimsTarget environmentId serverId ⟨ev'.op, ev'.ans⟩
  /-- A target is claimed once, and not after it was enqueued. -/
  claimedOnce : w.log.Pairwise fun ev ev' => ∀ environmentId serverId,
    ClaimsTarget environmentId serverId ⟨ev.op, ev.ans⟩ ∨
      EnqueuesTarget environmentId serverId ⟨ev.op, ev.ans⟩ →
        ¬ClaimsTarget environmentId serverId ⟨ev'.op, ev'.ans⟩
  enqueuedOnce : w.log.Pairwise fun ev ev' => ∀ environmentId serverId,
    EnqueuesTarget environmentId serverId ⟨ev.op, ev.ans⟩ →
      ¬EnqueuesTarget environmentId serverId ⟨ev'.op, ev'.ans⟩
  /-- A generation that was halted has no target that waits. -/
  halted : ∀ ev ∈ w.log, ∀ environmentId generation,
    HaltsGeneration environmentId generation ⟨ev.op, ev.ans⟩ → ∀ row ∈ w.state.rows,
      inGeneration environmentId generation row → row.target.rollout.isSome → row.status ≠ .pending

theorem reached_init : Reached s ⟨s, []⟩ where
  loaded before _ _ _ _ _ heq := absurd heq.symm (by simp)
  waited _ hrow _ := hrow
  claimed _ hev := nomatch hev
  enqueued _ hev := nomatch hev
  claimedOnce := List.Pairwise.nil
  enqueuedOnce := List.Pairwise.nil
  halted _ hev := nomatch hev

section

variable {initial : DeploymentTable} {i : ℕ} {e : Env} {o : Op} {w : World Op Ans DeploymentTable}
  {ans : Ans o} {s' : DeploymentTable}

variable {environmentId serverId : String}

theorem pending_of_claimsTarget (hexec : exec e o w.state = some (ans, s'))
    (hclaims : ClaimsTarget environmentId serverId ⟨o, ans⟩) : ∃ row ∈ w.state.rows,
      row.target.environmentId = environmentId ∧ row.target.serverId = serverId ∧
        row.status = .pending ∧ (o.onRow row).status ≠ .pending := by
  cases o with
  | claimBatch environmentId' generation ids =>
    cases hexec
    obtain ⟨rfl, claimed, hclaimed, rfl⟩ := hclaims
    obtain ⟨row, hrow, hcommand⟩ := mem_filterMap.1 hclaimed
    obtain ⟨commandId, -, rfl⟩ := map_eq_some_iff.1 hcommand
    obtain ⟨hrow, hclaims⟩ := mem_filter.1 hrow
    have hclaims := of_decide_eq_true hclaims
    refine ⟨row, hrow, hclaims.1.1, rfl, hclaims.2.1, ?_⟩
    rw [Op.onRow, claimedRow, if_pos hclaims]
    exact fun h => by cases h
  | _ => exact hclaims.elim

theorem not_pending_of_haltsGeneration (hexec : exec e o w.state = some (ans, s')) {environmentId : String}
    {generation : ℤ} (hhalts : HaltsGeneration environmentId generation ⟨o, ans⟩) {row : DeploymentRow}
    (hgeneration : inGeneration environmentId generation row) (hrollout : row.target.rollout.isSome) :
    (o.onRow row).status ≠ .pending := by
  cases o with
  | halt environmentId' generation' =>
    obtain ⟨rfl, hall⟩ := hhalts
    rw [Op.onRow, haltedRow]
    split
    · exact fun h => by cases h
    · rename_i hnot
      intro hpending
      refine hnot ⟨hgeneration.1, fun g hg => hgeneration.2.trans (hall g hg), hpending, hrollout⟩
  | _ => exact hhalts.elim

section

variable (hw : Reached initial w)
include hw

theorem Reached.push_loaded (hcontract : Contract (own i w.log) o)
    (hexec : exec e o w.state = some (ans, s')) : ∀ before ev after environmentId generation targets,
      w.log ++ [⟨i, o, ans⟩] = before ++ ev :: after →
        Loads environmentId generation targets ⟨ev.op, ev.ans⟩ →
          LoadKept environmentId generation targets after s' := by
  intro before ev after environmentId generation targets heq hloads
  obtain ⟨rfl, -, rfl⟩ | ⟨after', rfl, hlog⟩ := concat_eq_append_cons heq
  · cases o with
    | loadGenerationTargets environmentId' generation' =>
      obtain ⟨rfl, hsame⟩ := Prod.mk.inj (Option.some.inj hexec)
      obtain ⟨rfl, rfl, rfl⟩ := hloads
      rw [mapRows_onRow_load] at hsame
      exact hsame ▸ loadKept_load environmentId' generation' w.state
    | _ => exact hloads.elim
  · exact (hw.loaded before ev after' environmentId generation targets hlog hloads).step hexec hcontract

theorem Reached.push_waited (hcontract : Contract (own i w.log) o)
    (hexec : exec e o w.state = some (ans, s')) : ∀ row ∈ s'.rows, row.status = .pending →
      row ∈ w.state.rows ∧ row ∈ initial.rows := by
  intro row' hrow' hpending
  obtain ⟨row, hrow, rfl, -⟩ := mem_rows_of_exec hexec hrow'
  obtain ⟨hsame, hpending⟩ := pending_of_onRow hcontract hpending
  rw [hsame]
  exact ⟨hrow, hw.waited row hrow hpending⟩

theorem Reached.not_claimsTarget (hexec : exec e o w.state = some (ans, s'))
    {ev : Event Op Ans} (hev : ev ∈ w.log)
    (htarget : ClaimsTarget environmentId serverId ⟨ev.op, ev.ans⟩ ∨
      EnqueuesTarget environmentId serverId ⟨ev.op, ev.ans⟩) :
    ¬ClaimsTarget environmentId serverId ⟨o, ans⟩ := by
  have hclaimed : ∃ ev' ∈ w.log, ClaimsTarget environmentId serverId ⟨ev'.op, ev'.ans⟩ := by
    obtain hclaims | henqueues := htarget
    · exact ⟨ev, hev, hclaims⟩
    · obtain ⟨ev', hev', -, hclaims⟩ := hw.enqueued ev hev environmentId serverId henqueues
      exact ⟨ev', hev', hclaims⟩
  obtain ⟨ev', hev', hclaims⟩ := hclaimed
  intro hagain
  obtain ⟨row, hrow, henv, hserver, hpending, -⟩ := pending_of_claimsTarget hexec hagain
  exact (hw.claimed ev' hev' environmentId serverId hclaims).2 row hrow henv hserver hpending

theorem Reached.not_enqueuesTarget (hcontract : Contract (own i w.log) o) {ev : Event Op Ans}
    (hev : ev ∈ w.log) (henqueues : EnqueuesTarget environmentId serverId ⟨ev.op, ev.ans⟩) :
    ¬EnqueuesTarget environmentId serverId ⟨o, ans⟩ := by
  cases o with
  | enqueue environmentId' claimed queuedAt =>
    rintro ⟨rfl, rfl⟩
    obtain ⟨before, ev₁, after, hlog, ⟨hthread, hclaims⟩, hafter⟩ := since_of_own hcontract
    obtain ⟨ev₂, hev₂, hthread₂, hclaims₂⟩ := hw.enqueued ev hev _ _ henqueues
    have honce := hw.claimedOnce
    rw [hlog, pairwise_append, pairwise_cons] at honce
    rw [hlog, mem_append, mem_cons] at hev hev₂
    -- Both claims are the same event, so that both enqueues are of one call.
    have hsame : ev₂ = ev₁ := by
      obtain hbefore | rfl | hmem := hev₂
      · exact absurd hclaims (honce.2.2 ev₂ hbefore ev₁ mem_cons_self _ _ (.inl hclaims₂))
      · rfl
      · exact absurd hclaims₂ (honce.2.1.1 ev₂ hmem _ _ (.inl hclaims))
    subst hsame
    obtain hbefore | rfl | hmem := hev
    · exact honce.2.2 ev hbefore ev₂ mem_cons_self _ _ (.inr henqueues) hclaims
    · obtain ⟨j, o', ans'⟩ := ev
      cases o' with
      | claimBatch => exact henqueues
      | _ => exact hclaims
    · exact hafter ev hmem (hthread₂.symm.trans hthread) henqueues
  | _ => exact id

theorem Reached.push (hcontract : Contract (own i w.log) o)
    (hexec : exec e o w.state = some (ans, s')) : Reached initial (w.push i o ans s') where
  loaded := hw.push_loaded hcontract hexec
  waited row hrow hpending := (hw.push_waited hcontract hexec row hrow hpending).2
  claimed ev hev environmentId serverId hclaims := by
    obtain hev | hev := mem_append.1 hev
    · obtain ⟨hwaited, hgone⟩ := hw.claimed ev hev environmentId serverId hclaims
      refine ⟨hwaited, fun row hrow henv hserver hpending => ?_⟩
      exact hgone row (hw.push_waited hcontract hexec row hrow hpending).1 henv hserver hpending
    · obtain rfl := mem_singleton.1 hev
      obtain ⟨row, hrow, henv, hserver, hpending, hgone⟩ := pending_of_claimsTarget hexec hclaims
      refine ⟨⟨row, hw.waited row hrow hpending, henv, hserver, hpending⟩, ?_⟩
      intro row' hrow' henv' hserver'
      obtain ⟨row₀, hrow₀, rfl, htarget⟩ := mem_rows_of_exec hexec hrow'
      rw [htarget] at henv' hserver'
      obtain rfl : row₀ = row := inj_on_of_nodup_map w.state.servers_nodup hrow₀ hrow
        (Prod.ext (henv'.trans henv.symm) (hserver'.trans hserver.symm))
      exact hgone
  enqueued ev hev environmentId serverId henqueues := by
    obtain hev | hev := mem_append.1 hev
    · obtain ⟨ev', hev', h⟩ := hw.enqueued ev hev environmentId serverId henqueues
      exact ⟨ev', mem_append_left _ hev', h⟩
    · obtain rfl := mem_singleton.1 hev
      cases o with
      | enqueue environmentId' claimed queuedAt =>
        obtain ⟨rfl, rfl⟩ := henqueues
        obtain ⟨before, ev', after, hlog, hclaims, -⟩ := since_of_own hcontract
        refine ⟨ev', mem_append_left _ ?_, hclaims⟩
        rw [hlog]
        exact mem_append_right _ mem_cons_self
      | _ => exact henqueues.elim
  claimedOnce := by
    refine pairwise_append.2 ⟨hw.claimedOnce, pairwise_singleton _ _, ?_⟩
    intro ev hev ev' hev' environmentId serverId htarget
    obtain rfl := mem_singleton.1 hev'
    exact hw.not_claimsTarget hexec hev htarget
  enqueuedOnce := by
    refine pairwise_append.2 ⟨hw.enqueuedOnce, pairwise_singleton _ _, ?_⟩
    intro ev hev ev' hev' environmentId serverId henqueues
    obtain rfl := mem_singleton.1 hev'
    exact hw.not_enqueuesTarget hcontract hev henqueues
  halted ev hev environmentId generation hhalts row hrow hgeneration hrollout := by
    obtain hev | hev := mem_append.1 hev
    · intro hpending
      exact hw.halted ev hev environmentId generation hhalts row
        (hw.push_waited hcontract hexec row hrow hpending).1 hgeneration hrollout hpending
    · obtain rfl := mem_singleton.1 hev
      obtain ⟨row, hrow, rfl, htarget⟩ := mem_rows_of_exec hexec hrow
      rw [inGeneration, htarget] at hgeneration
      rw [htarget] at hrollout
      exact not_pending_of_haltsGeneration hexec hhalts hgeneration hrollout

end

end

/-! ## Every run -/

/-- A target that starts has no target of an earlier batch that is pending, applying or failed,
before and after it started. -/
def StartsInOrder (w w' : World Op Ans DeploymentTable) : Prop :=
  ∀ row ∈ w.state.rows, ∀ row' ∈ w'.state.rows, row'.target = row.target → row.status ≠ .applying →
    row'.status = .applying → (∀ other ∈ w.state.rows, Earlier other.target row.target →
      Settled other.status) ∧ ∀ other ∈ w'.state.rows, Earlier other.target row.target →
        Settled other.status

theorem startsInOrder_refl (w : World Op Ans DeploymentTable) : StartsInOrder w w := by
  intro row hrow row' hrow' htarget happlying happlying'
  obtain rfl := inj_on_of_nodup_map w.state.ids_nodup hrow' hrow (congrArg _ htarget)
  exact absurd happlying' happlying

theorem startsInOrder_push {initial : DeploymentTable} {i : ℕ}
    {w : World Op Ans DeploymentTable} {ans : Ans o} (hw : Reached initial w)
    (hok : ClaimsUnfailed i w o) (hcontract : Contract (own i w.log) o)
    (hexec : exec e o w.state = some (ans, s')) : StartsInOrder w (w.push i o ans s') := by
  intro row hrow row' hrow' htarget happlying happlying'
  obtain ⟨row₀, hrow₀, rfl, htarget₀⟩ := mem_rows_of_exec hexec hrow'
  obtain rfl := inj_on_of_nodup_map w.state.ids_nodup hrow₀ hrow
    (congrArg _ (htarget₀.symm.trans htarget))
  obtain ⟨environmentId, generation, ids, rfl, hclaims⟩ :=
    claims_of_applying hcontract happlying happlying'
  have hsettled : ∀ other ∈ w.state.rows, Earlier other.target row₀.target → Settled other.status := by
    intro other hother hearlier
    obtain ⟨targets, batch, hstep, rfl, hsince⟩ := hcontract
    have hloaded := (since_of_own hsince).and_of_last (hok other hother row₀ hrow hclaims hearlier) (by
      rintro ⟨j, o, ans⟩ hquiet ⟨hthread, hload⟩
      cases o with
      | loadGenerationTargets => exact hquiet hthread
      | _ => exact hload)
    obtain ⟨before, ev, after, hlog, ⟨-, hloads⟩, hafter⟩ := hloaded
    exact (hw.loaded before ev after environmentId generation targets hlog hloads).settled hstep hother
      hrow hclaims hearlier fun ev hev => (hafter ev hev).2
  refine ⟨hsettled, fun other hother hearlier => ?_⟩
  obtain ⟨other₀, hother₀, rfl, htarget₁⟩ := mem_rows_of_exec hexec hother
  rw [htarget₁] at hearlier
  obtain hstill | hfailure := settled_onRow hexec hcontract hother₀ (hsettled other₀ hother₀ hearlier)
  · exact hstill
  · exact hfailure.elim

/-- **A rollout starts its batches in order and once.** In a run in which no failure is recorded for
a target of an earlier batch between the load and the claim of an advance, no target becomes
applying while one of an earlier batch is pending, applying or failed. No target is enqueued twice,
nor one that did not wait at the start. After a halt of a generation none of its targets is pending.
-/
theorem rollout_in_order (initial : DeploymentTable) {before : List (Choice Env Call)}
    {choice : Choice Env Call}
    (hmeets : Meets machine body ClaimsUnfailed (Config.init initial) (before ++ [choice])) :
    let w := ((Config.init initial).run machine body before).world
    let w' := ((Config.init initial).run machine body (before ++ [choice])).world
    StartsInOrder w w' ∧
      (w'.log.Pairwise fun ev ev' => ∀ environmentId serverId,
        EnqueuesTarget environmentId serverId ⟨ev.op, ev.ans⟩ →
          ¬EnqueuesTarget environmentId serverId ⟨ev'.op, ev'.ans⟩) ∧
      (∀ ev ∈ w'.log, ∀ row ∈ initial.rows, row.status ≠ .pending →
        ¬EnqueuesTarget row.target.environmentId row.target.serverId ⟨ev.op, ev.ans⟩) ∧
      ∀ ev ∈ w'.log, ∀ environmentId generation,
        HaltsGeneration environmentId generation ⟨ev.op, ev.ans⟩ → ∀ row ∈ w'.state.rows,
          inGeneration environmentId generation row → row.target.batch?.isSome →
            row.status ≠ .pending := by
  intro w w'
  have hstep : ∀ {i e o w ans s'}, Reached initial w → ClaimsUnfailed i w o → Contract (own i w.log) o →
      machine.exec i e o w.state = some (ans, s') →
        Reached initial (w.push i o ans s') ∧ StartsInOrder w (w.push i o ans s') :=
    fun hw hok hcontract hexec => ⟨hw.push hcontract hexec, startsInOrder_push hw hok hcontract hexec⟩
  obtain ⟨hbefore, hafter⟩ := (meets_append machine body).1 hmeets
  obtain ⟨hobeys, hw⟩ := Config.run_inv (fun hw hok hcontract hexec => (hstep hw hok hcontract hexec).1)
    (fun h => h) body_obeys answers_of_exec (obeys_init initial) (reached_init initial) hbefore
  obtain ⟨hw', horder⟩ := Config.next_keeps hstep (fun h => ⟨h, startsInOrder_refl _⟩)
    startsInOrder_refl hobeys hw hafter.1
  have hrun : w' = (((Config.init initial).run machine body before).next machine body choice).world :=
    congrArg Config.world (Config.run_append machine body _ before [choice])
  rw [hrun]
  refine ⟨horder, hw'.enqueuedOnce, fun ev hev row hrow hwaits henqueues => ?_,
    fun ev hev environmentId generation hhalts row hrow hgeneration hbatch => ?_⟩
  · obtain ⟨ev', hev', -, hclaims⟩ := hw'.enqueued ev hev _ _ henqueues
    obtain ⟨⟨row', hrow', henv, hserver, hpending⟩, -⟩ := hw'.claimed ev' hev' _ _ hclaims
    obtain rfl := inj_on_of_nodup_map initial.servers_nodup hrow' hrow (Prod.ext henv hserver)
    exact hwaits hpending
  · refine hw'.halted ev hev environmentId generation hhalts row hrow hgeneration ?_
    cases hrollout : row.target.rollout with
    | none =>
      rw [DeploymentTarget.batch?, hrollout] at hbatch
      cases hbatch
    | some value => rfl

/-! ## A second result -/

/-- Two servers, one after the other. -/
def twoServers : DeploymentTable where
  rows := [⟨⟨"first", "env", "a", 1, some (.pair 0 2)⟩, .applying, some "deploy-a"⟩,
    ⟨⟨"second", "env", "b", 1, some (.pair 1 2)⟩, .pending, some "deploy-b"⟩]
  ids_nodup := by decide
  servers_nodup := by decide

/-- The first server is applied, and the advance is about to claim the second. -/
def firstApplied : List (Choice Env Call) :=
  .call (.succeeded "env" "a" 1 "deploy-a") :: List.replicate 4 (.step 0 {})

/-- A second result of the first server's command says that it failed. -/
def firstFails : List (Choice Env Call) := [.call (.failed "env" "a" (some 1) "deploy-a"), .step 1 {}]

/-- A failure written after the rows were read does not stop the next batch. -/
theorem second_result_then_batch_starts : ¬StartsInOrder
    ((Config.init twoServers).run machine body (firstApplied ++ firstFails)).world
    ((Config.init twoServers).run machine body ((firstApplied ++ firstFails) ++ [.step 0 {}])).world := by
  intro horder
  obtain ⟨-, hsettled⟩ := horder
    ⟨⟨"second", "env", "b", 1, some (.pair 1 2)⟩, .pending, some "deploy-b"⟩ (List.Mem.tail _ (.head _))
    ⟨⟨"second", "env", "b", 1, some (.pair 1 2)⟩, .applying, some "deploy-b"⟩ (List.Mem.tail _ (.head _))
    rfl (fun h => (nomatch h)) rfl
  obtain h | h := hsettled ⟨⟨"first", "env", "a", 1, some (.pair 0 2)⟩, .failed, some "deploy-a"⟩
    (List.Mem.head _) ⟨rfl, rfl, 0, 1, rfl, rfl, Nat.one_pos⟩
  · cases h
  · cases h

theorem rollout_in_order_two_servers : StartsInOrder
    ((Config.init twoServers).run machine body firstApplied).world
    ((Config.init twoServers).run machine body (firstApplied ++ [.step 0 {}])).world := by
  refine (rollout_in_order twoServers (meets_call _ _ ?_)).1
  refine meets_step _ _ rfl trivial (meets_step _ _ rfl trivial (meets_step _ _ rfl trivial ?_))
  refine meets_step _ _ rfl trivial (meets_step _ _ rfl ?_ trivial)
  intro row hrow row' hrow' hclaims hearlier
  refine ⟨[_], _, [_, _], rfl, ⟨rfl, trivial⟩, fun ev hev => ?_⟩
  obtain rfl | hev := mem_cons.1 hev
  · exact id
  · rw [mem_singleton.1 hev]
    exact id

end TurboPanel.Rollout
