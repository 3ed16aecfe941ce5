import TurboPanel.Recovery.Obeys

/-!
# What a statement does to the journal

One inversion for the decisions under the lock (`Move`), and one for the statements (`RowMove`). The
invariants of the runs are derived from them.
-/

namespace TurboPanel.Recovery

open CommandRecords (CommandStatus)
open Interleaving

/-! ## Decisions -/

/-- The metadata says that the old primary is fenced: attested, or both drained and stopped. -/
def Secured (m : RecoveryMetadata) : Prop :=
  m.fenceBasis = some .hostLossAttested ∨ m.drainApplied = some true ∧ m.stopApplied = some true

theorem SameFence.secured {m m' : RecoveryMetadata} (hsame : SameFence m m') (hsecured : Secured m') :
    Secured m := by
  rw [Secured, hsame.fenceBasis, hsame.drainApplied, hsame.stopApplied]
  exact hsecured

/-- What a decision makes of a row. -/
structure Move (row : RecoveryRecord) (decision : Decision) (patch : RecoveryPatch) : Prop where
  basis : ∀ m, patch.metadata = some m → m.fenceBasis = row.metadata.fenceBasis
  ids : ∀ m, patch.metadata = some m →
    (∀ c ∈ m.fenceCommandIds.getD [], c ∈ row.metadata.fenceCommandIds.getD []) ∨
      ∃ ids haPresent, decision = .recordFenceCommands ids haPresent ∧ m.fenceCommandIds = some ids
  drained : ∀ m, patch.metadata = some m → m.drainApplied = some true →
    row.metadata.drainApplied = some true ∨ ∃ c, decision = .settleFence c (some .drain) ∧
      c ∈ row.metadata.fenceCommandIds.getD []
  stopped : ∀ m, patch.metadata = some m → m.stopApplied = some true →
    row.metadata.stopApplied = some true ∨ ∃ c, decision = .settleFence c (some .stop) ∧
      c ∈ row.metadata.fenceCommandIds.getD []
  secured : ∀ m, patch.metadata = some m → Secured row.metadata → row.state ≠ .fencing → Secured m
  promoting : patch.state = some .promoting →
    row.state = .fencing ∧ (∃ c, c ∈ row.metadata.fenceCommandIds.getD []) ∧ ∃ m, patch.metadata = some m ∧
      (row.kind = .automaticFailover → m.drainApplied = some true ∧ m.stopApplied = some true)
  fencing : patch.state ≠ some .fencing
  target : patch.targetMemberId = none ∨ ∃ reason unlessFenced extra,
    decision = .blockNothingChanged reason unlessFenced true extra ∧ patch.state = some .blocked ∧
      (unlessFenced = true → row.state = .fencing)
  todo : ∀ m, patch.metadata = some m → m.abortRestartTodo ≠ none →
    row.metadata.abortRestartTodo ≠ none ∨ ∃ reason unlessFenced clearTarget reactivate stepIds,
      decision = .blockNothingChanged reason unlessFenced clearTarget (.restart reactivate stepIds) ∧
        (unlessFenced = true → row.state = .fencing) ∧ patch.state = some .blocked
  ended : row.state.terminal = true → patch.state = none ∨ row.state = .blocked ∧
    patch.state = some .failed ∧ ∃ missing noWay, decision = .settleRestart missing noWay

section

variable {row : RecoveryRecord} {decision : Decision} {patch : RecoveryPatch} {now : Time}

variable {m : RecoveryMetadata}

theorem Move.of_same (hm : patch.metadata = some m)
    (hids : m.fenceCommandIds = row.metadata.fenceCommandIds)
    (hdrain : m.drainApplied = row.metadata.drainApplied) (hstop : m.stopApplied = row.metadata.stopApplied)
    (hbasis : m.fenceBasis = row.metadata.fenceBasis)
    (htodo : m.abortRestartTodo ≠ none → row.metadata.abortRestartTodo ≠ none)
    (hpromoting : patch.state ≠ some .promoting) (hfencing : patch.state ≠ some .fencing)
    (htarget : patch.targetMemberId = none)
    (hended : row.state.terminal = true → patch.state = none ∨ row.state = .blocked ∧
      patch.state = some .failed ∧ ∃ missing noWay, decision = .settleRestart missing noWay) :
    Move row decision patch := by
  have hmeta : ∀ m', patch.metadata = some m' → m' = m := fun m' hm' => Option.some.inj (hm'.symm.trans hm)
  refine ⟨?_, ?_, ?_, ?_, ?_, fun hstate => absurd hstate hpromoting, hfencing, .inl htarget, ?_, hended⟩
  · intro m' hm'
    rw [hmeta m' hm', hbasis]
  · intro m' hm'
    rw [hmeta m' hm', hids]
    exact .inl fun _ hc => hc
  · intro m' hm' hdrained
    rw [hmeta m' hm', hdrain] at hdrained
    exact .inl hdrained
  · intro m' hm' hstopped
    rw [hmeta m' hm', hstop] at hstopped
    exact .inl hstopped
  · intro m' hm' hsecured _
    rw [hmeta m' hm', Secured, hbasis, hdrain, hstop]
    exact hsecured
  · intro m' hm' htodo'
    rw [hmeta m' hm'] at htodo'
    exact .inl (htodo htodo')

theorem settledMetadata_basis (m : RecoveryMetadata) (pending : List CommandId) (applied : Option FencePhase) :
    (settledMetadata m pending applied).fenceBasis = m.fenceBasis ∧
      (settledMetadata m pending applied).fenceCommandIds = some pending ∧
      (settledMetadata m pending applied).abortRestartTodo = m.abortRestartTodo := by
  obtain _ | _ | _ := applied <;> exact ⟨rfl, rfl, rfl⟩

theorem settledMetadata_flags (m : RecoveryMetadata) (pending : List CommandId) (applied : Option FencePhase) :
    ((settledMetadata m pending applied).drainApplied = some true → m.drainApplied = some true ∨
      applied = some .drain) ∧
    ((settledMetadata m pending applied).stopApplied = some true → m.stopApplied = some true ∨
      applied = some .stop) := by
  obtain _ | _ | _ := applied
  · exact ⟨.inl, .inl⟩
  · exact ⟨fun _ => .inr rfl, .inl⟩
  · exact ⟨.inl, fun _ => .inr rfl⟩

theorem nextStateAfterFence_cases (now : Time) (kind : RecoveryKind) (outcome : FenceOutcome) (m : RecoveryMetadata) :
    SameFence (nextStateAfterFence kind outcome m now).metadata m ∧
      ((nextStateAfterFence kind outcome m now).state = .blocked ∨
        (nextStateAfterFence kind outcome m now).state = .promoting ∧
          (kind = .automaticFailover → outcome.drainApplied = true ∧ outcome.stopApplied = true)) := by
  obtain ⟨reachable, drain, stop⟩ := outcome
  cases kind <;> cases drain <;> cases stop
  all_goals refine ⟨⟨rfl, rfl, rfl, rfl, rfl⟩, ?_⟩
  all_goals first
    | exact .inl rfl
    | exact .inr ⟨rfl, fun _ => ⟨rfl, rfl⟩⟩
    | exact .inr ⟨rfl, fun hkind => RecoveryKind.noConfusion hkind⟩

theorem isSet_iff {flag : Option Bool} : isSet flag = true ↔ flag = some true := by
  rw [isSet, beq_iff_eq]

/-- **A settlement** takes a command from the list of a row that is fencing; the last one ends the
fence. -/
theorem applyFenceSettlement_cases {c : CommandId} {applied : Option FencePhase}
    (h : applyFenceSettlement row c applied now = some patch) :
    row.state = .fencing ∧ c ∈ row.metadata.fenceCommandIds.getD [] ∧ patch.targetMemberId = none ∧
      ∃ m pending, patch.metadata = some m ∧
        SameFence m (settledMetadata row.metadata pending applied) ∧
        (∀ d ∈ pending, d ∈ row.metadata.fenceCommandIds.getD []) ∧
        (patch.state = none ∨ patch.state = some .blocked ∨ patch.state = some .promoting ∧
          (row.kind = .automaticFailover → m.drainApplied = some true ∧ m.stopApplied = some true)) := by
  rw [applyFenceSettlement] at h
  split at h
  · cases h
  · rename_i hstate
    simp only at h
    split at h
    · cases h
    · rename_i hmem
      refine ⟨not_not.1 hstate, not_not.1 hmem, ?_⟩
      have hpending : ∀ d ∈ (row.metadata.fenceCommandIds.getD []).filter (· ≠ c),
          d ∈ row.metadata.fenceCommandIds.getD [] := fun d hd => (List.mem_filter.1 hd).1
      split at h
      · cases h
        exact ⟨rfl, _, _, rfl, ⟨rfl, rfl, rfl, rfl, rfl⟩, hpending, .inl rfl⟩
      · cases h
        obtain ⟨hsame, hstate'⟩ := nextStateAfterFence_cases now row.kind
          (fenceOutcomeFromMetadata (settledMetadata row.metadata
            ((row.metadata.fenceCommandIds.getD []).filter (· ≠ c)) applied))
          (settledMetadata row.metadata ((row.metadata.fenceCommandIds.getD []).filter (· ≠ c)) applied)
        refine ⟨rfl, _, _, rfl, hsame, hpending, .inr (hstate'.imp (congrArg some) fun hpromote => ?_)⟩
        refine ⟨congrArg some hpromote.1, fun hkind => ?_⟩
        obtain ⟨hdrain, hstop⟩ := hpromote.2 hkind
        rw [hsame.drainApplied, hsame.stopApplied]
        exact ⟨isSet_iff.1 hdrain, isSet_iff.1 hstop⟩

theorem move_settleFence {c : CommandId} {applied : Option FencePhase}
    (h : applyFenceSettlement row c applied now = some patch) : Move row (.settleFence c applied) patch := by
  obtain ⟨hfencing, hmem, htarget, m, pending, hm, hsame, hpending, hstate⟩ := applyFenceSettlement_cases h
  obtain ⟨hbasis, hids, htodo⟩ := settledMetadata_basis row.metadata pending applied
  obtain ⟨hdrain, hstop⟩ := settledMetadata_flags row.metadata pending applied
  have hmeta : ∀ m', patch.metadata = some m' → m' = m := fun m' hm' => Option.some.inj (hm'.symm.trans hm)
  refine ⟨?_, ?_, ?_, ?_, ?_, ?_, ?_, .inl htarget, ?_, ?_⟩
  · intro m' hm'
    rw [hmeta m' hm', hsame.fenceBasis, hbasis]
  · intro m' hm'
    refine .inl fun d hd => hpending d ?_
    rw [hmeta m' hm', hsame.fenceCommandIds, hids] at hd
    exact hd
  · intro m' hm' hdrained
    rw [hmeta m' hm', hsame.drainApplied] at hdrained
    refine (hdrain hdrained).imp_right fun happlied => ⟨c, ?_, hmem⟩
    rw [happlied]
  · intro m' hm' hstopped
    rw [hmeta m' hm', hsame.stopApplied] at hstopped
    refine (hstop hstopped).imp_right fun happlied => ⟨c, ?_, hmem⟩
    rw [happlied]
  · exact fun _ _ _ hnot => absurd hfencing hnot
  · intro hpromoting
    refine ⟨hfencing, ⟨c, hmem⟩, m, hm, ?_⟩
    obtain hnone | hblocked | ⟨-, hfenced⟩ := hstate
    · rw [hnone] at hpromoting
      cases hpromoting
    · rw [hblocked] at hpromoting
      cases hpromoting
    · exact hfenced
  · obtain hnone | hblocked | ⟨hpromoting, -⟩ := hstate
    · rw [hnone]
      exact (Option.some_ne_none _).symm
    · rw [hblocked]
      exact fun heq => RecoveryState.noConfusion (Option.some.inj heq)
    · rw [hpromoting]
      exact fun heq => RecoveryState.noConfusion (Option.some.inj heq)
  · intro m' hm' hsome
    rw [hmeta m' hm', hsame.abortRestartTodo, htodo] at hsome
    exact .inl hsome
  · intro hterminal
    rw [hfencing] at hterminal
    cases hterminal

theorem spread_fence (m : RecoveryMetadata) (extra : BlockExtra) :
    (extra.spread m).fenceBasis = m.fenceBasis ∧ (extra.spread m).fenceCommandIds = m.fenceCommandIds ∧
      (extra.spread m).drainApplied = m.drainApplied ∧ (extra.spread m).stopApplied = m.stopApplied ∧
      ((extra.spread m).abortRestartTodo = m.abortRestartTodo ∨ ∃ reactivate stepIds,
        extra = .restart reactivate stepIds) := by
  cases extra with
  | nothing => exact ⟨rfl, rfl, rfl, rfl, .inl rfl⟩
  | deadline => exact ⟨rfl, rfl, rfl, rfl, .inl rfl⟩
  | restart reactivate stepIds => exact ⟨rfl, rfl, rfl, rfl, .inr ⟨reactivate, stepIds, rfl⟩⟩

theorem move_blockNothingChanged {reason : String} {unlessFenced clearTarget : Bool} {extra : BlockExtra}
    (h : (Decision.blockNothingChanged reason unlessFenced clearTarget extra).decide row now = some patch) :
    Move row (.blockNothingChanged reason unlessFenced clearTarget extra) patch := by
  rw [Decision.decide] at h
  split at h
  · cases h
  · rename_i happlies
    cases h
    obtain ⟨hbasis, hids, hdrain, hstop, htodo⟩ := spread_fence
      { row.metadata with fenceCommandIds := some [], blockedReason := some reason } extra
    rw [not_or] at happlies
    have hfencing : unlessFenced = true → row.state = .fencing := fun hunless => by
      by_contra hfencing
      exact happlies.2 ⟨hunless, fun hand => hfencing hand.1⟩
    refine ⟨?_, ?_, ?_, ?_, ?_, fun hstate => (by cases hstate), fun hstate => (by cases hstate), ?_, ?_, ?_⟩
    · intro m hm
      rw [← Option.some.inj hm, hbasis]
    · intro m hm
      refine .inl fun c hc => ?_
      rw [← Option.some.inj hm, hids] at hc
      cases hc
    · intro m hm hdrained
      rw [← Option.some.inj hm, hdrain] at hdrained
      exact .inl hdrained
    · intro m hm hstopped
      rw [← Option.some.inj hm, hstop] at hstopped
      exact .inl hstopped
    · intro m hm hsecured _
      rw [← Option.some.inj hm, Secured, hbasis, hdrain, hstop]
      exact hsecured
    · cases clearTarget with
      | false => exact .inl rfl
      | true => exact .inr ⟨reason, unlessFenced, extra, rfl, rfl, hfencing⟩
    · intro m hm hsome
      obtain hkept | ⟨reactivate, stepIds, rfl⟩ := htodo
      · rw [← Option.some.inj hm, hkept] at hsome
        exact .inl hsome
      · exact .inr ⟨reason, unlessFenced, clearTarget, reactivate, stepIds, rfl, hfencing, rfl⟩
    · exact fun hterminal => absurd hterminal happlies.1

theorem move_settleRestart {missing : List RestartStep} {noWay : Bool}
    (h : restartSettlement missing noWay row = some patch) : Move row (.settleRestart missing noWay) patch := by
  rw [restartSettlement] at h
  split at h
  · cases h
  · rename_i howed
    rw [Bool.not_eq_true', Bool.not_eq_false] at howed
    have htodo := todo_of_owed howed
    split at h
    · cases h
      refine Move.of_same rfl rfl rfl rfl rfl (fun _ => htodo) ?_ ?_ rfl fun _ => .inl rfl
      · exact (Option.some_ne_none _).symm
      · exact (Option.some_ne_none _).symm
    · simp only at h
      split at h
      · cases h
        refine Move.of_same rfl rfl rfl rfl rfl id ?_ ?_ rfl fun _ =>
          .inr ⟨(owed_iff.1 howed).1, rfl, missing, noWay, rfl⟩
        · exact fun heq => RecoveryState.noConfusion (Option.some.inj heq)
        · exact fun heq => RecoveryState.noConfusion (Option.some.inj heq)
      · cases h
        refine Move.of_same rfl rfl rfl rfl rfl (fun _ => htodo) ?_ ?_ rfl fun _ => .inl rfl
        · exact (Option.some_ne_none _).symm
        · exact (Option.some_ne_none _).symm

theorem Move.of_state {state : RecoveryState} (hlive : row.state.terminal = false)
    (hsame : SameFence m row.metadata) (hpromoting : state ≠ .promoting) (hfencing : state ≠ .fencing) :
    Move row decision { state := some state, metadata := some m } := by
  refine Move.of_same rfl hsame.fenceCommandIds hsame.drainApplied hsame.stopApplied hsame.fenceBasis
    (fun htodo => hsame.abortRestartTodo ▸ htodo) (fun heq => hpromoting (Option.some.inj heq))
    (fun heq => hfencing (Option.some.inj heq)) rfl fun hterminal => ?_
  rw [hlive] at hterminal
  cases hterminal

theorem Move.of_note (hids : m.fenceCommandIds = row.metadata.fenceCommandIds)
    (hdrain : m.drainApplied = row.metadata.drainApplied) (hstop : m.stopApplied = row.metadata.stopApplied)
    (hbasis : m.fenceBasis = row.metadata.fenceBasis)
    (htodo : m.abortRestartTodo ≠ none → row.metadata.abortRestartTodo ≠ none) :
    Move row decision { metadata := some m } :=
  Move.of_same rfl hids hdrain hstop hbasis htodo (Option.some_ne_none _).symm
      (Option.some_ne_none _).symm rfl fun _ => .inl rfl

theorem move_recordFenceCommands {ids : List CommandId} {haPresent : Bool}
    (h : (Decision.recordFenceCommands ids haPresent).decide row now = some patch) :
    Move row (.recordFenceCommands ids haPresent) patch ∧ row.state = .fencing ∧ patch.state = none := by
  rw [Decision.decide] at h
  split at h
  · rename_i hfencing
    cases h
    refine ⟨⟨?_, ?_, ?_, ?_, ?_, ?_, ?_, .inl rfl, ?_, fun _ => .inl rfl⟩, hfencing, rfl⟩
    · exact fun m hm => Option.some.inj hm ▸ rfl
    · exact fun m hm => .inr ⟨ids, haPresent, rfl, Option.some.inj hm ▸ rfl⟩
    · rintro m hm hdrained
      rw [← Option.some.inj hm] at hdrained
      cases hdrained
    · rintro m hm hstopped
      rw [← Option.some.inj hm] at hstopped
      cases hstopped
    · exact fun _ _ _ hnot => absurd hfencing hnot
    · exact fun hstate => by cases hstate
    · exact (Option.some_ne_none _).symm
    · intro m hm hsome
      rw [← Option.some.inj hm] at hsome
      exact .inl hsome
  · cases h

theorem move_blockUnqueuedFenceStop {stopId : CommandId}
    (h : (Decision.blockUnqueuedFenceStop stopId).decide row now = some patch) :
    Move row (.blockUnqueuedFenceStop stopId) patch := by
  rw [Decision.decide] at h
  split at h
  · rename_i hfencing
    cases h
    refine ⟨?_, ?_, ?_, ?_, ?_, fun hstate => (by cases hstate), fun hstate => (by cases hstate), .inl rfl, ?_,
      fun hterminal => ?_⟩
    · exact fun m hm => Option.some.inj hm ▸ rfl
    · intro m hm
      refine .inl fun c hc => ?_
      rw [← Option.some.inj hm] at hc
      exact (List.mem_filter.1 hc).1
    · intro m hm hdrained
      rw [← Option.some.inj hm] at hdrained
      exact .inl hdrained
    · intro m hm hstopped
      rw [← Option.some.inj hm] at hstopped
      exact .inl hstopped
    · exact fun _ _ _ hnot => absurd hfencing hnot
    · intro m hm hsome
      rw [← Option.some.inj hm] at hsome
      exact .inl hsome
    · rw [hfencing] at hterminal
      cases hterminal
  · cases h

theorem move_expire {live : List CommandId} {nowMs maxAgeMs : Time} {reason : String}
    (hlive : row.state.terminal = false)
    (h : (Decision.expire live nowMs maxAgeMs reason).decide row now = some patch) :
    Move row (.expire live nowMs maxAgeMs reason) patch := by
  rw [Decision.decide] at h
  split at h
  · cases h
  · rw [stalePatch] at h
    simp only at h
    split at h
    · cases h
      exact Move.of_state hlive ⟨rfl, rfl, rfl, rfl, rfl⟩ RecoveryState.noConfusion RecoveryState.noConfusion
    · split at h
      · cases h
        exact Move.of_state hlive ⟨rfl, rfl, rfl, rfl, rfl⟩ RecoveryState.noConfusion RecoveryState.noConfusion
      · cases h

theorem move_verifyIngress {writerCount : ℕ} (hlive : row.state.terminal = false)
    (h : (Decision.verifyIngress writerCount).decide row now = some patch) :
    Move row (.verifyIngress writerCount) patch := by
  rw [Decision.decide] at h
  split at h
  · simp only [nextStateAfterVerify, nextStateAfterIngressReconcile] at h
    split at h
    · cases h
      exact Move.of_state hlive ⟨rfl, rfl, rfl, rfl, rfl⟩ RecoveryState.noConfusion RecoveryState.noConfusion
    · cases h
      exact Move.of_state hlive ⟨rfl, rfl, rfl, rfl, rfl⟩ RecoveryState.noConfusion RecoveryState.noConfusion
  · cases h

/-- **Every decision** is such a move. -/
theorem move_of_apply (h : decision.apply row now = some patch) : Move row decision patch := by
  rw [Decision.apply] at h
  split at h
  · cases h
  · rename_i hlive
    rw [Bool.and_eq_true, not_and, Bool.not_eq_true] at hlive
    cases decision with
    | recordFenceCommands ids haPresent => exact (move_recordFenceCommands h).1
    | blockUnqueuedFenceStop stopId => exact move_blockUnqueuedFenceStop h
    | settleFence c applied => exact move_settleFence h
    | recordSwitchoverRequiredGtid gtidSet =>
      cases h
      exact Move.of_note rfl rfl rfl rfl id
    | blockNothingChanged reason unlessFenced clearTarget extra => exact move_blockNothingChanged h
    | failForOperator reason =>
      cases h
      exact Move.of_state (hlive rfl) ⟨rfl, rfl, rfl, rfl, rfl⟩ RecoveryState.noConfusion
        RecoveryState.noConfusion
    | claimPromoteResult =>
      rw [Decision.decide] at h
      split at h
      · cases h
        exact Move.of_state (hlive rfl) ⟨rfl, rfl, rfl, rfl, rfl⟩ RecoveryState.noConfusion
          RecoveryState.noConfusion
      · cases h
    | parkAtIngressGate commandIds requiredServerIds pendingServerIds =>
      cases h
      exact Move.of_state (hlive rfl) ⟨rfl, rfl, rfl, rfl, rfl⟩ RecoveryState.noConfusion
        RecoveryState.noConfusion
    | verifyIngress writerCount => exact move_verifyIngress (hlive rfl) h
    | degradeIngress serverIds reason =>
      rw [Decision.decide] at h
      split at h
      · cases h
        exact Move.of_state (hlive rfl) ⟨rfl, rfl, rfl, rfl, rfl⟩ RecoveryState.noConfusion
          RecoveryState.noConfusion
      · cases h
    | ingressNotQueued serverIds reason =>
      cases h
      exact Move.of_state (hlive rfl) ⟨rfl, rfl, rfl, rfl, rfl⟩ RecoveryState.noConfusion
        RecoveryState.noConfusion
    | expire live nowMs maxAgeMs reason => exact move_expire (hlive rfl) h
    | reactivateRestart =>
      rw [Decision.decide] at h
      split at h
      · cases h
        exact Move.of_note rfl rfl rfl rfl id
      · cases h
    | claimRestart nowMs =>
      rw [Decision.decide] at h
      split at h
      · cases h
      · cases h
        exact Move.of_note rfl rfl rfl rfl id
    | clearRestart =>
      rw [Decision.decide] at h
      split at h
      · rename_i howed
        cases h
        exact Move.of_note rfl rfl rfl rfl fun _ => todo_of_owed howed
      · cases h
    | settleRestart missing noWay => exact move_settleRestart h

end

/-! ## Statements -/

/-- The row that an insert makes. -/
def InsertRecoveryParams.row (params : InsertRecoveryParams) (id : RecoveryId) (now : Time) :
    RecoveryRecord where
  id := id
  managedId := params.managedId
  kind := params.kind
  sourcePrimaryMemberId := params.sourcePrimaryMemberId
  targetMemberId := params.targetMemberId
  state := params.state
  startedAt := now
  updatedAt := now
  metadata := params.metadata

/-- What a statement does to the rows: it reads them, adds one, or writes one. -/
inductive RowMove (o : Op) (ans : Ans o) (rows rows' : List RecoveryRecord) : Prop where
  | same (heq : rows' = rows) (hseen : ∀ row ∈ records ⟨o, ans⟩, row ∈ rows)
      (hwritten : written ⟨o, ans⟩ = none)
      (hinsert : ∀ params row, (⟨o, ans⟩ : (o : Op) × Ans o) ≠ ⟨.insertRecoveryIfFree params, some row⟩)
  | insert (params : InsertRecoveryParams) (now : Time)
      (hev : (⟨o, ans⟩ : (o : Op) × Ans o) =
        ⟨.insertRecoveryIfFree params, some (params.row rows.length now)⟩)
      (heq : rows' = rows ++ [params.row rows.length now])
  | write (r : RecoveryId) (patch : RecoveryPatch) (now : Time) (row : RecoveryRecord)
      (hrow : rows[r]? = some row)
      (hop : o = .updateRecovery r patch ∨
        ∃ decision, o = .updateRecoveryLocked r decision ∧ decision.apply row now = some patch)
      (hrecords : records ⟨o, ans⟩ = [row.patch patch now])
      (hwritten : written ⟨o, ans⟩ = some (row.patch patch now))
      (heq : rows' = rows.set r (row.patch patch now))

variable {db : Db}

theorem mem_of_select {order : List ℕ} {p : RecoveryRecord → Bool} {row : RecoveryRecord}
    (h : row ∈ db.select order p) : row ∈ db.recoveries := by
  obtain ⟨id, -, hrow⟩ := List.mem_filterMap.1 h
  exact List.mem_of_getElem? (Option.filter_eq_some_iff.1 hrow).1

variable {db' : Db}

theorem mem_of_query {order : List ℕ} {p : RecoveryRecord → Bool}
    {ans : Option RecoveryRecord} (h : (db.newest order p).map (fun row => (row, db)) = some (ans, db')) :
    db' = db ∧ ∀ row ∈ ans.toList, row ∈ db.recoveries := by
  obtain ⟨found, hfound, heq⟩ := Option.map_eq_some_iff.1 h
  cases heq
  exact ⟨rfl, fun row hrow => (mem_of_newest hfound (Option.mem_toList.1 hrow)).1⟩

/-- **Every statement** is such a move. -/
theorem rowMove_of_exec {i : ℕ} {e : Env} {o : Op} {ans : Ans o}
    (h : machine.exec i e o db = some (ans, db')) : RowMove o ans db.recoveries db'.recoveries := by
  cases o with
  | findRecoveryById id =>
    cases h
    refine .same rfl (fun row hrow => ?_) rfl fun _ _ heq => (by cases heq)
    exact List.mem_of_getElem? (Option.mem_toList.1 hrow)
  | findInFlightRecovery managedId =>
    obtain ⟨rfl, hseen⟩ := mem_of_query h
    exact .same rfl hseen rfl fun _ _ heq => (by cases heq)
  | newestRecovery managedId =>
    obtain ⟨rfl, hseen⟩ := mem_of_query h
    exact .same rfl hseen rfl fun _ _ heq => (by cases heq)
  | findLatestAcceptedAutomaticFailover managedId =>
    obtain ⟨rfl, hseen⟩ := mem_of_query h
    exact .same rfl hseen rfl fun _ _ heq => (by cases heq)
  | insertRecoveryIfFree params =>
    have hinsert : db.insert params e.now = (ans, db') := Option.some.inj h
    rw [Db.insert] at hinsert
    split at hinsert
    · cases hinsert
      refine .same rfl (fun row hrow => (by cases hrow)) rfl fun params' row heq => ?_
      cases heq
    · cases hinsert
      exact .insert params e.now rfl rfl
  | updateRecovery r patch =>
    obtain ⟨-, rfl, rfl⟩ | ⟨row, hrow, rfl, rfl⟩ := Db.update_eq_some h
    · exact .same rfl (fun row hrow => (by cases hrow)) rfl fun _ _ heq => (by cases heq)
    · exact .write r patch e.now row hrow (.inl rfl) rfl rfl rfl
  | updateRecoveryLocked r decision =>
    obtain ⟨rfl, rfl⟩ | ⟨row, patch, hrow, happly, rfl, rfl⟩ := Db.updateLocked_eq_some h
    · exact .same rfl (fun row hrow => (by cases hrow)) rfl fun _ _ heq => (by cases heq)
    · exact .write r patch e.now row hrow (.inr ⟨decision, rfl, happly⟩) rfl rfl rfl
  | listFencingRecoveries =>
    cases h
    exact .same rfl (fun row hrow => mem_of_select hrow) rfl fun _ _ heq => (by cases heq)
  | listPendingAbortRestarts =>
    cases h
    exact .same rfl (fun row hrow => mem_of_select hrow) rfl fun _ _ heq => (by cases heq)
  | listInFlightRecoveries =>
    cases h
    exact .same rfl (fun row hrow => mem_of_select hrow) rfl fun _ _ heq => (by cases heq)
  | listRecentRecoveries managedId =>
    cases h
    exact .same rfl (fun row hrow => mem_of_select hrow) rfl fun _ _ heq => (by cases heq)
  | _ =>
    cases h
    exact .same rfl (fun row hrow => (by cases hrow)) rfl fun _ _ heq => (by cases heq)

theorem exec_commands {i : ℕ} {e : Env} {o : Op} {ans : Ans o}
    (h : machine.exec i e o db = some (ans, db')) {c : CommandId} {command : CommandRecord}
    (hcommand : db.commands[c]? = some command) :
    ∃ command', db'.commands[c]? = some command' ∧ command'.spec = command.spec := by
  have htransition : ∀ (id : CommandId) (status : CommandStatus) (now : Time), ∃ command',
      (db.commands.modify id (CommandRecord.transition status now))[c]? = some command' ∧
        command'.spec = command.spec := by
    intro id status now
    rw [List.getElem?_modify, hcommand]
    split
    · refine ⟨command.transition status now, rfl, ?_⟩
      rw [CommandRecord.transition]
      split <;> rfl
    · exact ⟨command, rfl, rfl⟩
  cases o with
  | createCommandRecord spec =>
    cases h
    refine ⟨command, ?_, rfl⟩
    rw [List.getElem?_append_left (List.getElem?_eq_some_iff.1 hcommand).1]
    exact hcommand
  | transitionCommand id status =>
    cases h
    exact htransition id status e.now
  | reported id status =>
    cases h
    exact htransition id status e.now
  | findInFlightRecovery managedId =>
    obtain ⟨rfl, -⟩ := mem_of_query h
    exact ⟨command, hcommand, rfl⟩
  | newestRecovery managedId =>
    obtain ⟨rfl, -⟩ := mem_of_query h
    exact ⟨command, hcommand, rfl⟩
  | findLatestAcceptedAutomaticFailover managedId =>
    obtain ⟨rfl, -⟩ := mem_of_query h
    exact ⟨command, hcommand, rfl⟩
  | insertRecoveryIfFree params =>
    have hinsert : db.insert params e.now = (ans, db') := Option.some.inj h
    rw [Db.insert] at hinsert
    split at hinsert <;> (obtain ⟨-, rfl⟩ := Prod.mk.inj hinsert; exact ⟨command, hcommand, rfl⟩)
  | updateRecovery r patch =>
    obtain ⟨-, -, rfl⟩ | ⟨row, -, -, rfl⟩ := Db.update_eq_some h <;> exact ⟨command, hcommand, rfl⟩
  | updateRecoveryLocked r decision =>
    obtain ⟨-, rfl⟩ | ⟨row, patch, -, -, -, rfl⟩ := Db.updateLocked_eq_some h <;>
      exact ⟨command, hcommand, rfl⟩
  | _ =>
    cases h
    exact ⟨command, hcommand, rfl⟩

end TurboPanel.Recovery
