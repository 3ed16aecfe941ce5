import TurboPanel.Recovery.Contract

/-!
# Every call keeps its contract

One lemma for each function of the source, in the order of `Calls` and `Actors`. Most statements of
a call are free: the contract says nothing of them, whatever the call has seen.
-/

namespace TurboPanel.Recovery

open CommandRecords (CommandStatus)
open Interleaving List

/-- The program keeps the contract, after what was made before. -/
abbrev Obeying {α : Type} (p : Proc α) (h : Trace Op Ans) : Prop :=
  p.Sat Answers Contract (fun _ _ => True) h

/-! ## Free statements -/

/-- The contract says nothing of the statement. -/
def Free : Op → Prop
  | .insertRecoveryIfFree _ => False
  | .updateRecovery _ _ => False
  | .updateRecoveryLocked _ (.recordFenceCommands _ _) => False
  | .updateRecoveryLocked _ (.settleFence _ (some _)) => False
  | .updateRecoveryLocked _ (.blockNothingChanged _ _ clearTarget extra) =>
    clearTarget = false ∧ extra = .nothing
  | .enqueue _ => False
  | _ => True

theorem contract_of_free {o : Op} (ho : Free o) (h : Trace Op Ans) : Contract h o := by
  cases o with
  | insertRecoveryIfFree params => exact ho.elim
  | updateRecovery r patch => exact ho.elim
  | enqueue commandId => exact ho.elim
  | updateRecoveryLocked r decision =>
    cases decision with
    | recordFenceCommands ids haPresent => exact ho.elim
    | settleFence commandId applied =>
      cases applied with
      | none => trivial
      | some phase => exact ho.elim
    | blockNothingChanged reason unlessFenced clearTarget extra =>
      obtain ⟨rfl, rfl⟩ := ho
      rintro (hclear | hextra)
      · cases hclear
      · exact absurd rfl hextra
    | _ => trivial
  | _ => trivial

abbrev OnlyFree {α : Type} (p : Proc α) : Prop := p.Only Free fun _ => True

theorem OnlyFree.obeying {α : Type} {p : Proc α} (hp : OnlyFree p) (h : Trace Op Ans) : Obeying p h :=
  Prog.Sat.mono (fun _ _ _ => trivial)
    (hp.sat (K := fun _ => True) (fun h _ ho _ => contract_of_free ho h) (fun _ _ _ _ _ => trivial) trivial)

theorem Obeying.bind {α β : Type} {p : Proc α} {h : Trace Op Ans} (hp : Obeying p h) {f : α → Proc β}
    (hf : ∀ h' a, h <+: h' → Obeying (f a) h') : Obeying (p >>= f) h :=
  (Prog.Sat.grows hp).bind fun h' a hh' => hf h' a hh'.2

theorem obeying_foldEach {β σ : Type} {f : σ → β → Proc σ} {l : List β} {acc : σ} {h : Trace Op Ans}
    (hf : ∀ h' acc b, b ∈ l → h <+: h' → Obeying (f acc b) h') : Obeying (Prog.foldEach f l acc) h := by
  have hfold : (Prog.foldEach f l acc).Sat Answers Contract (fun h' _ => h <+: h') h :=
    Prog.sat_foldEach prefix_rfl fun h' acc b hb hh' =>
      (Prog.Sat.grows (hf h' acc b hb hh')).mono fun h'' _ hh'' => hh'.trans hh''.2
  exact hfold.mono fun _ _ _ => trivial

/-! ## What was seen stays seen -/

section

variable {h h' : Trace Op Ans} {r : RecoveryId} {row : RecoveryRecord}

theorem Saw.mono (hsaw : Saw row h) (hh' : h <+: h') : Saw row h' := by
  obtain ⟨ev, hev, hrow⟩ := hsaw
  exact ⟨ev, hh'.subset hev, hrow⟩

theorem saw_concat {v : (o : Op) × Ans o} (hrow : row ∈ records v) : Saw row (h ++ [v]) :=
  ⟨v, mem_append_right _ mem_cons_self, hrow⟩

theorem held_concat {v : (o : Op) × Ans o} (hrow : row ∈ records v) (hlive : row.state.terminal = false) :
    Held row.id (h ++ [v]) :=
  since_concat.2 (.inl ⟨row, hrow, rfl, hlive⟩)

theorem Held.concat {v : (o : Op) × Ans o} (hheld : Held r h) (hev : ¬Ends r v) : Held r (h ++ [v]) :=
  since_concat.2 (.inr ⟨hheld, hev⟩)

theorem not_ends {v : (o : Op) × Ans o} (hev : written v = none) : ¬Ends r v := by
  rintro ⟨row, hrow, -⟩
  rw [hev] at hrow
  cases hrow

theorem not_ends_promoting {id : RecoveryId} {m : RecoveryMetadata} {ans : Option RecoveryRecord}
    (hans : Answers (.updateRecovery id { state := some .promoting, metadata := some m }) ans) :
    ¬Ends r ⟨.updateRecovery id { state := some .promoting, metadata := some m }, ans⟩ := by
  rintro ⟨row, hrow, -, hterminal⟩
  rw [hans row hrow .promoting rfl] at hterminal
  cases hterminal

theorem mem_concat {ev : (o : Op) × Ans o} : ev ∈ h ++ [ev] := mem_append_right _ mem_cons_self

end

/-! ## Commands -/

section

variable {h : Trace Op Ans} {spec : CommandSpec}

theorem obeying_publishCommand {commandId : CommandId}
    (hcreated : ⟨.createCommandRecord spec, commandId⟩ ∈ h) (hready : Ready spec h) :
    Obeying (publishCommand commandId) h := by
  refine ⟨⟨spec, hcreated, hready⟩, fun queued _ => ?_⟩
  cases queued with
  | true => trivial
  | false => exact ⟨trivial, fun _ _ => trivial⟩

theorem Ready.created {spec' : CommandSpec} {commandId : CommandId} (hready : Ready spec h) :
    Ready spec (h ++ [⟨.createCommandRecord spec', commandId⟩]) where
  promotes hkind := by
    obtain ⟨r, m, ans, hr, hwrote, hheld⟩ := hready.promotes hkind
    exact ⟨r, m, ans, hr, mem_append_left _ hwrote, hheld.concat (not_ends rfl)⟩
  restarts r hr := by
    obtain ⟨⟨locked, nowMs, recoveryId, before, after, hid, htodo, rfl, hclaim, hlatest, hprimary⟩⟩ :=
      hready.restarts r hr
    refine ⟨⟨locked, nowMs, recoveryId, before, _, hid, htodo, append_assoc _ _ _, hclaim, ?_, ?_⟩⟩
    · exact since_concat.2 (.inr ⟨hlatest, trivial⟩)
    · exact since_concat.2 (.inr ⟨hprimary, trivial⟩)

theorem obeying_enqueueCommand (hready : Ready spec h) : Obeying (enqueueCommand spec) h := by
  refine ⟨trivial, fun commandId _ => ?_⟩
  exact (obeying_publishCommand mem_concat hready.created).bind fun _ _ _ => trivial

theorem ready_plain (hkind : spec.kind.promotes = false) (hrestart : spec.restartOf = none) :
    Ready spec h where
  promotes hpromotes := by
    rw [hkind] at hpromotes
    cases hpromotes
  restarts r hr := by
    rw [hrestart] at hr
    cases hr

end

/-! ## The promote -/

section

variable {h : Trace Op Ans} {params : PromoteParams}

theorem PromoteParams.queuedMetadata_same (params : PromoteParams) (commandId : CommandId) :
    SameFence (params.queuedMetadata commandId) params.metadata := by
  rw [PromoteParams.queuedMetadata]
  split <;> exact ⟨rfl, rfl, rfl, rfl, rfl⟩

theorem obeying_promoteQueued {ans : Option RecoveryRecord} {queued : Option CommandId}
    (hwrote : ⟨.updateRecovery params.recovery.id {
      state := some .promoting, metadata := some params.metadata }, ans⟩ ∈ h)
    (hheld : queued = none → Held params.recovery.id h) : Obeying (promoteQueued params queued) h := by
  cases queued with
  | none =>
    refine ⟨⟨params.recovery, rfl, .unqueued hwrote ⟨rfl, rfl, rfl, rfl, rfl⟩ (hheld rfl)⟩, fun _ _ => ?_⟩
    trivial
  | some commandId =>
    refine ⟨⟨params.recovery, rfl, .queued hwrote (params.queuedMetadata_same commandId)⟩, fun _ _ => ?_⟩
    trivial

theorem sat_enqueueCommand {spec : CommandSpec} (hready : Ready spec h) {r : RecoveryId} (hheld : Held r h) :
    (enqueueCommand spec).Sat Answers Contract (fun h' _ => Held r h' ∧ h <+: h') h := by
  refine ⟨trivial, fun commandId _ => ⟨⟨spec, mem_concat, hready.created⟩, fun queued _ => ?_⟩⟩
  have hheld' := (hheld.concat (not_ends (v := ⟨.createCommandRecord spec, commandId⟩) rfl)).concat
    (not_ends (v := ⟨.enqueue commandId, queued⟩) rfl)
  have hgrows : h <+: h ++ [⟨.createCommandRecord spec, commandId⟩] ++ [⟨.enqueue commandId, queued⟩] :=
    (prefix_append _ _).trans (prefix_append _ _)
  cases queued with
  | true => exact ⟨hheld', hgrows⟩
  | false =>
    refine ⟨trivial, fun _ _ => ⟨hheld'.concat (not_ends rfl), ?_⟩⟩
    exact hgrows.trans (prefix_append _ _)

/-- **`enqueuePromoteOrRecover`**: of a row that may be written as promoted, and is held. -/
theorem obeying_enqueuePromoteOrRecover
    (hwrites : ∃ row, row.id = params.recovery.id ∧
      Writes row h { state := some .promoting, metadata := some params.metadata })
    (hheld : Held params.recovery.id h) : Obeying (enqueuePromoteOrRecover params) h := by
  refine ⟨hwrites, fun ans hans => ?_⟩
  have hheld' := hheld.concat (not_ends_promoting hans)
  have hready : Ready params.spec _ :=
    ⟨fun _ => ⟨params.recovery.id, params.metadata, ans, rfl, mem_concat, hheld'⟩, fun r hr => by cases hr⟩
  refine (sat_enqueueCommand hready hheld').bind fun h' queued hh' => ?_
  exact obeying_promoteQueued (hh'.2.subset mem_concat) fun _ => hh'.1

end

/-! ## The restart -/

section

variable {h : Trace Op Ans}

theorem sat_abortRestartStaleReason (row : RecoveryRecord) :
    (abortRestartStaleReason row).Sat Answers Contract (fun h' reason => ∃ after, h' = h ++ after ∧
      (reason = none → Since (ShowsLatest row.managedId row.id) (fun ev => KeepsLatest ev.1) after ∧
        Since (ShowsPrimary row.managedId row.sourcePrimaryMemberId) (fun ev => KeepsPrimary ev.1) after)) h := by
  have hlatest : (findLatestRecovery row.managedId).Sat Answers Contract (fun h' latest => ∃ after,
      h' = h ++ after ∧ ((∀ latest' ∈ latest, latest'.id = row.id) →
        Since (ShowsLatest row.managedId row.id) (fun ev => KeepsLatest ev.1) after)) h := by
    refine ⟨trivial, fun inflight hinflight => ?_⟩
    cases inflight with
    | none =>
      refine ⟨trivial, fun newest _ => ⟨_, append_assoc _ _ _, fun hnewest => ?_⟩⟩
      exact since_concat.2 (.inl (.inr ⟨newest, rfl, hnewest⟩))
    | some latest =>
      refine ⟨_, rfl, fun hid => ?_⟩
      exact ⟨[], _, [], rfl, .inl ⟨latest, rfl, hid latest rfl, hinflight latest rfl⟩,
        fun _ hev => absurd hev not_mem_nil⟩
  refine hlatest.bind fun h' latest hh' => ?_
  obtain ⟨after, rfl, hsince⟩ := hh'
  split
  · exact ⟨after, rfl, fun hnone => by cases hnone⟩
  · rename_i hsame
    have hid : ∀ latest' ∈ latest, latest'.id = row.id := by
      intro latest' hmem
      by_contra hne
      rw [Option.mem_def] at hmem
      rw [hmem] at hsame
      exact hsame (by simpa using hne)
    refine ⟨trivial, fun members _ => ?_⟩
    change Prog.Sat _ _ _ (ite _ _ _) _
    split
    · exact ⟨_, append_assoc _ _ _, fun hnone => by cases hnone⟩
    · rename_i hprimary
      refine ⟨_, append_assoc _ _ _, fun _ => ⟨?_, ?_⟩⟩
      · exact since_concat.2 (.inr ⟨hsince hid, trivial⟩)
      · exact since_concat.2 (.inl ⟨members, rfl, not_not.1 hprimary⟩)

variable {params : ReactivationParams}

/-- The call has claimed the restart that it was asked for. -/
def Claimed (params : ReactivationParams) (h : Trace Op Ans) : Prop :=
  params.before = true → params.record.metadata.abortRestartTodo ≠ none ∧ ∃ nowMs recoveryId,
    ⟨.updateRecoveryLocked recoveryId (.claimRestart nowMs), some params.record⟩ ∈ h

section

variable (hclaimed : Claimed params h)
include hclaimed

theorem Claimed.mono {h' : Trace Op Ans} (hh' : h <+: h') : Claimed params h' := fun hbefore => by
  obtain ⟨htodo, nowMs, recoveryId, hclaim⟩ := hclaimed hbefore
  exact ⟨htodo, nowMs, recoveryId, hh'.subset hclaim⟩

theorem sat_askStale (stale : Bool) :
    (askStale params stale).Sat Answers Contract (fun h' stale' => stale' = false →
      ∀ kind serverId, kind.promotes = false → Ready (params.spec kind serverId) h') h := by
  rw [askStale]
  split
  · rename_i hbefore
    refine fun _ kind serverId hkind => ready_plain hkind ?_
    rw [ReactivationParams.spec, if_neg (by simpa using hbefore)]
  · rename_i hbefore
    split
    · exact fun hfalse => by cases hfalse
    · refine (sat_abortRestartStaleReason params.record).bind fun h' reason hh' hfresh => ?_
      obtain ⟨after, rfl, hsince⟩ := hh'
      intro kind serverId hkind
      have hnone : reason = none := Option.isNone_iff_eq_none.1 (by simpa using hfresh)
      refine ⟨fun hpromotes => ?_, fun r hr => ?_⟩
      · rw [show (params.spec kind serverId).kind = kind from rfl, hkind] at hpromotes
        cases hpromotes
      · rw [ReactivationParams.spec, if_pos (by simpa using hbefore)] at hr
        cases hr
        obtain ⟨htodo, nowMs, recoveryId, hclaim⟩ := hclaimed (by simpa using hbefore)
        obtain ⟨hlatest, hprimary⟩ := hsince hnone
        exact ⟨⟨params.record, nowMs, recoveryId, h, after, rfl, htodo, rfl, hclaim, hlatest, hprimary⟩⟩

theorem obeying_reactivationCommand (key : RestartStep) {kind : CommandKind}
    (hkind : kind.promotes = false) (serverId : ServerId) (acc : Reactivation) :
    Obeying (reactivationCommand params key (params.spec kind serverId) acc) h := by
  refine (sat_askStale hclaimed acc.stale).bind fun h' stale hready => ?_
  cases stale with
  | true => trivial
  | false =>
    exact (obeying_enqueueCommand (hready rfl kind serverId hkind)).bind fun _ _ _ => trivial

theorem obeying_undrainCommand (acc : Reactivation) (serverId : ServerId) :
    Obeying (undrainCommand params acc serverId) h := by
  rw [undrainCommand]
  split
  · trivial
  · refine ⟨trivial, fun connected _ => ?_⟩
    cases connected with
    | false => trivial
    | true =>
      exact obeying_reactivationCommand (hclaimed.mono (prefix_append _ _)) _ rfl serverId acc

theorem obeying_enqueueSwitchoverAbortReactivation :
    Obeying (enqueueSwitchoverAbortReactivation params) h := by
  have hstart : Obeying (startCommand params) h := by
    rw [startCommand]
    split
    · exact obeying_reactivationCommand hclaimed _ rfl _ _
    · trivial
  refine hstart.bind fun h' started hh' => ?_
  exact obeying_foldEach fun h'' acc serverId _ hh'' =>
    obeying_undrainCommand (hclaimed.mono (hh'.trans hh'')) acc serverId

end

theorem obeying_reactivateSource (record : RecoveryRecord) (members : List ManagedMemberRow) :
    Obeying (reactivateSource record members) h := by
  rw [reactivateSource]
  split
  · trivial
  · refine (obeying_enqueueSwitchoverAbortReactivation ?_).bind fun _ _ _ => trivial
    intro hbefore
    cases hbefore

theorem onlyFree_blockRecoveryNothingChanged (recoveryId : RecoveryId) (reason : String) :
    OnlyFree (blockRecoveryNothingChanged recoveryId reason false false .nothing) := by
  refine ⟨⟨rfl, rfl⟩, fun blocked => ?_⟩
  cases blocked with
  | none => trivial
  | some row => exact ⟨trivial, fun _ => trivial⟩

end

/-! ## Settlements -/

section

variable {h : Trace Op Ans}

theorem sat_abortSwitchoverWhenGtidMissing (record : RecoveryRecord) (engine : ManagedEngineCode) :
    (abortSwitchoverWhenGtidMissing record engine).Sat Answers Contract
      (fun h' aborted => aborted = false → h' = h) h := by
  rw [abortSwitchoverWhenGtidMissing]
  split
  · exact fun _ => rfl
  · refine ⟨trivial, fun members _ => ?_⟩
    refine Prog.Sat.bind (obeying_reactivateSource record members) fun h' _ _ => ?_
    exact Prog.Sat.bind ((onlyFree_blockRecoveryNothingChanged _ _).obeying h')
      fun _ _ _ => fun hfalse => by cases hfalse

theorem obeying_promoteMembers {record : RecoveryRecord} (hsaw : Saw record h)
    (hstate : record.state = .promoting) (hheld : Held record.id h) (engine : ManagedEngineCode)
    (members : List ManagedMemberRow) : Obeying (promoteMembers record engine members) h := by
  rw [promoteMembers]
  split
  · refine (sat_abortSwitchoverWhenGtidMissing record engine).bind fun h' aborted hh' => ?_
    cases aborted with
    | true => trivial
    | false =>
      rw [hh' rfl]
      refine (obeying_enqueuePromoteOrRecover ?_ hheld).bind fun _ _ _ => trivial
      exact ⟨record, rfl, .promote hsaw hstate ⟨rfl, rfl, rfl, rfl, rfl⟩ hheld⟩
  · trivial

variable (hasQueue : Bool) (recoveryId : RecoveryId)

theorem obeying_followFenceAdvance {record : RecoveryRecord} (hsaw : Saw record h)
    (hheld : record.state = .promoting → Held record.id h) (engine : ManagedEngineCode) :
    Obeying (followFenceAdvance hasQueue record engine) h := by
  rw [followFenceAdvance]
  split
  · exact ⟨trivial, fun _ _ => trivial⟩
  · split
    · trivial
    · rename_i hpromoting
      have hstate : record.state = .promoting := by
        by_contra hne
        exact hpromoting (by simp [hne])
      refine ⟨trivial, fun members _ => ?_⟩
      exact obeying_promoteMembers (hsaw.mono (prefix_append _ _)) hstate
        ((hheld hstate).concat (not_ends rfl)) engine members

theorem obeying_settleFenceCommand (settlement : FenceSettlement)
    (happlied : ∀ phase, settlement.applied = some phase → ∃ command, ⟨.reported settlement.commandId .succeeded,
      some command⟩ ∈ h ∧ command.spec.kind = phase.kind) :
    Obeying (settleFenceCommand hasQueue settlement) h := by
  obtain ⟨recoveryId, commandId, applied, engine⟩ := settlement
  refine ⟨?_, fun updated _ => ?_⟩
  · cases applied with
    | none => trivial
    | some phase => exact happlied phase rfl
  · cases updated with
    | none => trivial
    | some record =>
      have hmem : record ∈ records ⟨.updateRecoveryLocked recoveryId (.settleFence commandId applied),
          some record⟩ := mem_singleton.2 rfl
      refine obeying_followFenceAdvance hasQueue (saw_concat hmem) (fun hstate => held_concat hmem ?_) engine
      rw [hstate]
      rfl

theorem obeying_onFenceCommandFailed (commandId : CommandId) (engine : ManagedEngineCode) :
    Obeying (onFenceCommandFailed hasQueue recoveryId commandId engine) h :=
  obeying_settleFenceCommand hasQueue _ fun _ happlied => by cases happlied

theorem obeying_onFenceCommandSucceeded {commandId : CommandId} {phase : FencePhase} {command : CommandRecord}
    (hreported : ⟨.reported commandId .succeeded, some command⟩ ∈ h) (hkind : command.spec.kind = phase.kind)
    (engine : ManagedEngineCode) (gtidSet : Option String) :
    Obeying (onFenceCommandSucceeded hasQueue recoveryId commandId phase engine gtidSet) h := by
  have hsettle : ∀ h', h <+: h' →
      Obeying (settleFenceCommand hasQueue ⟨recoveryId, commandId, some phase, engine⟩) h' := by
    refine fun h' hh' => obeying_settleFenceCommand hasQueue _ fun phase' happlied => ?_
    cases happlied
    exact ⟨command, hh'.subset hreported, hkind⟩
  cases gtidSet with
  | none => exact hsettle h prefix_rfl
  | some gtidSet => exact ⟨trivial, fun _ _ => hsettle _ (prefix_append _ _)⟩

end

/-! ## The beginning -/

section

variable {h : Trace Op Ans} {params : BeginParams} {recovery : RecoveryRecord}

/-- The call has begun the recovery, and it has done nothing with its row. -/
structure Begins (params : BeginParams) (recovery : RecoveryRecord) (h : Trace Op Ans) : Prop where
  began : Began recovery h
  untouched : Untouched recovery.id h
  held : Held recovery.id h
  kind : recovery.kind = params.kind
  incident : recovery.metadata.hostLossIncident = params.hostLossIncident
  server : recovery.metadata.sourceServerId = some params.source.serverId

theorem Begins.concat (hbegins : Begins params recovery h) {v : (o : Op) × Ans o} (hev : written v = none)
    (htouches : ¬Touches recovery.id v.1) : Begins params recovery (h ++ [v]) where
  began := by
    obtain ⟨insert, hinsert, hstate⟩ := hbegins.began
    exact ⟨insert, mem_append_left _ hinsert, hstate⟩
  untouched ev' hev' := by
    obtain hev' | hev' := mem_append.1 hev'
    · exact hbegins.untouched ev' hev'
    · rw [mem_singleton.1 hev']
      exact htouches
  held := hbegins.held.concat (not_ends hev)
  kind := hbegins.kind
  incident := hbegins.incident
  server := hbegins.server

theorem sat_prepareDrainCommands (hbegins : Begins params recovery h) :
    (prepareDrainCommands params recovery).Sat Answers Contract (fun h' drains => Begins params recovery h' ∧
      ∀ drain ∈ drains, ∃ serverId,
        ⟨.createCommandRecord (params.fenceSpec recovery .drain serverId), drain⟩ ∈ h') h := by
  refine Prog.sat_foldEach (I := fun h' drains => Begins params recovery h' ∧ ∀ drain ∈ drains, ∃ serverId,
    ⟨.createCommandRecord (params.fenceSpec recovery .drain serverId), drain⟩ ∈ h')
    ⟨hbegins, fun _ hdrain => absurd hdrain not_mem_nil⟩ ?_
  rintro h' drains serverId - ⟨hbegins', hdrains⟩
  refine ⟨trivial, fun connected _ => ?_⟩
  have hdrains' : ∀ drain ∈ drains, ∃ serverId', ⟨.createCommandRecord (params.fenceSpec recovery .drain
      serverId'), drain⟩ ∈ h' ++ [⟨.isServerConnected serverId, connected⟩] := fun drain hdrain => by
    obtain ⟨serverId', hcreated⟩ := hdrains drain hdrain
    exact ⟨serverId', mem_append_left _ hcreated⟩
  have hasked := hbegins'.concat (v := ⟨.isServerConnected serverId, connected⟩) rfl id
  cases connected with
  | false => exact ⟨hasked, hdrains'⟩
  | true =>
    refine ⟨trivial, fun commandId _ => ⟨hasked.concat rfl id, fun drain hdrain => ?_⟩⟩
    obtain hdrain | hdrain := mem_append.1 hdrain
    · obtain ⟨serverId', hcreated⟩ := hdrains' drain hdrain
      exact ⟨serverId', mem_append_left _ hcreated⟩
    · rw [mem_singleton.1 hdrain]
      exact ⟨serverId, mem_concat⟩

theorem obeying_publishFence {drains : List CommandId} {stop : CommandId}
    (hdrains : ∀ drain ∈ drains, ∃ serverId,
      ⟨.createCommandRecord (params.fenceSpec recovery .drain serverId), drain⟩ ∈ h)
    (hstop : ⟨.createCommandRecord (params.fenceSpec recovery .stop params.source.serverId), stop⟩ ∈ h) :
    Obeying (publishFence params recovery drains stop) h := by
  refine ⟨trivial, fun _ _ => ?_⟩
  refine (obeying_foldEach fun h' _ drain hdrain hh' => ?_).bind fun h' _ hh' => ?_
  · obtain ⟨serverId, hcreated⟩ := hdrains drain hdrain
    have hmem := hh'.subset (mem_append_left _ hcreated)
    refine (obeying_publishCommand hmem (ready_plain rfl rfl)).bind fun h'' queued _ => ?_
    cases queued with
    | true => trivial
    | false =>
      refine obeying_settleFenceCommand true _ fun phase happlied => ?_
      cases happlied
  · have hmem := hh'.subset (mem_append_left _ hstop)
    refine (obeying_publishCommand hmem (ready_plain rfl rfl)).bind fun h'' queued _ => ?_
    cases queued with
    | true => trivial
    | false =>
      refine ⟨trivial, fun blocked _ => ?_⟩
      cases blocked with
      | none => trivial
      | some row => exact ⟨trivial, fun _ _ => trivial⟩

theorem obeying_enqueueFenceCommands (hbegins : Begins params recovery h) (haPresent : Bool) :
    Obeying (enqueueFenceCommands params haPresent recovery) h := by
  refine (sat_prepareDrainCommands hbegins).bind fun h' drains hh' => ?_
  refine ⟨trivial, fun stop _ => ?_⟩
  have hstopped := hh'.1.concat
    (v := ⟨.createCommandRecord (params.fenceSpec recovery .stop params.source.serverId), stop⟩) rfl id
  refine ⟨⟨recovery, rfl, hstopped.began, hstopped.untouched⟩, fun recorded _ => ?_⟩
  cases recorded with
  | none => trivial
  | some row =>
    refine obeying_publishFence (fun drain hdrain => ?_) (mem_append_left _ mem_concat)
    obtain ⟨serverId, hcreated⟩ := hh'.2 drain hdrain
    exact ⟨serverId, mem_append_left _ (mem_append_left _ hcreated)⟩

theorem obeying_endBegun (hbegins : Begins params recovery h) {m : RecoveryMetadata}
    (hsame : SameFence m recovery.metadata) (target : Option (Option MemberId))
    (result : RecoveryEnqueueResult) : Obeying (endBegun params recovery {
      state := some .blocked, targetMemberId := target, metadata := some m } result) h :=
  ⟨⟨recovery, rfl, .endBegun hbegins.began hbegins.untouched hsame hbegins.held⟩,
    fun _ _ => ⟨trivial, fun _ _ => trivial⟩⟩

theorem nextStateAfterFence_offline (kind : RecoveryKind) (metadata : RecoveryMetadata) (now : Time) :
    SameFence (nextStateAfterFence kind ⟨false, false, false⟩ metadata now).metadata metadata ∧
      ((nextStateAfterFence kind ⟨false, false, false⟩ metadata now).state = .blocked ∨
        kind ≠ .automaticFailover ∧
          (nextStateAfterFence kind ⟨false, false, false⟩ metadata now).state = .promoting) := by
  cases kind with
  | automaticFailover => exact ⟨⟨rfl, rfl, rfl, rfl, rfl⟩, .inl rfl⟩
  | switchover =>
    exact ⟨⟨rfl, rfl, rfl, rfl, rfl⟩, .inr ⟨fun hkind => RecoveryKind.noConfusion hkind, rfl⟩⟩
  | disasterRecovery =>
    exact ⟨⟨rfl, rfl, rfl, rfl, rfl⟩, .inr ⟨fun hkind => RecoveryKind.noConfusion hkind, rfl⟩⟩

theorem obeying_promoteOffline (hbegins : Begins params recovery h) {m : RecoveryMetadata}
    (hattests : Attests recovery m h ∨ recovery.kind ≠ .automaticFailover ∧ SameFence m recovery.metadata)
    (haPresent : Bool) :
    Obeying (followOffline params haPresent recovery ⟨.promoting, m⟩) h := by
  refine ⟨⟨recovery, rfl, .promoteOffline hbegins.began hbegins.untouched hattests hbegins.held⟩,
    fun ans hans => ⟨trivial, fun _ _ => ?_⟩⟩
  have hheld := (hbegins.held.concat (not_ends_promoting hans)).concat
    (not_ends (v := ⟨.stampManaged params.managedId .applying, ()⟩) rfl)
  refine obeying_enqueuePromoteOrRecover ⟨recovery, rfl, ?_⟩ hheld
  exact .promoteAgain (mem_append_left _ mem_concat) ⟨rfl, rfl, rfl, rfl, rfl⟩ hheld

theorem obeying_beginOffline (hbegins : Begins params recovery h)
    (hoffline : ⟨.isServerConnected params.source.serverId, false⟩ ∈ h) (haPresent : Bool) :
    Obeying (beginOffline params haPresent recovery) h := by
  refine ⟨trivial, fun _ _ => ⟨trivial, fun now _ => ?_⟩⟩
  have hbegins' := (hbegins.concat (v := ⟨.markNeedsResync params.source.id, ()⟩) rfl id).concat
    (v := ⟨.now, now⟩) rfl id
  change Obeying (followOffline params haPresent recovery (params.offlineAdvance recovery now)) _
  rw [BeginParams.offlineAdvance]
  split
  · rename_i hloss
    rw [Bool.and_eq_true] at hloss
    refine obeying_promoteOffline (m := (hostLossFenceAdvance recovery.metadata now).metadata) hbegins'
      (.inl ⟨?_, ?_, ?_⟩) haPresent
    · exact ⟨rfl, rfl, rfl, rfl, rfl⟩
    · rw [hbegins.incident]
      exact hloss.1
    · exact ⟨_, hbegins.server, mem_append_left _ (mem_append_left _ hoffline)⟩
  · obtain ⟨hsame, hblocked | ⟨hkind, hpromoting⟩⟩ :=
      nextStateAfterFence_offline params.kind recovery.metadata now
    · rw [followOffline, if_pos hblocked, hblocked]
      exact obeying_endBegun hbegins' hsame none _
    · have hadvance : nextStateAfterFence params.kind ⟨false, false, false⟩ recovery.metadata now =
          ⟨.promoting, (nextStateAfterFence params.kind ⟨false, false, false⟩ recovery.metadata
            now).metadata⟩ := by
        rw [← hpromoting]
      rw [hadvance]
      refine obeying_promoteOffline hbegins' (.inr ⟨?_, hsame⟩) haPresent
      rw [hbegins.kind]
      exact hkind

theorem obeying_beginChecked (hbegins : Begins params recovery h) (haPresent : Bool) {sourceOnline : Bool}
    (hasked : ⟨.isServerConnected params.source.serverId, sourceOnline⟩ ∈ h) :
    Obeying (beginChecked params haPresent recovery sourceOnline) h := by
  rw [beginChecked]
  split
  · refine obeying_endBegun hbegins ?_ _ _
    exact ⟨rfl, rfl, rfl, rfl, rfl⟩
  · split
    · refine obeying_endBegun hbegins ?_ _ _
      exact ⟨rfl, rfl, rfl, rfl, rfl⟩
    · split
      · rename_i hoffline
        rw [Bool.not_eq_true'] at hoffline
        rw [hoffline] at hasked
        exact obeying_beginOffline hbegins hasked haPresent
      · exact obeying_enqueueFenceCommands hbegins haPresent

/-- A call that begins a recovery has not written a row before. -/
def Reads (h : Trace Op Ans) : Prop := ∀ ev ∈ h, written ev = none ∧ ∀ r, ¬Touches r ev.1

theorem Reads.concat (hreads : Reads h) {v : (o : Op) × Ans o} (hev : written v = none)
    (htouches : ∀ r, ¬Touches r v.1) : Reads (h ++ [v]) := by
  intro ev' hev'
  obtain hev' | hev' := mem_append.1 hev'
  · exact hreads ev' hev'
  · rw [mem_singleton.1 hev']
    exact ⟨hev, htouches⟩

theorem obeying_beginFree (hreads : Reads h) (params : BeginParams) : Obeying (beginFree params) h := by
  refine ⟨trivial, fun haPresent _ => ⟨⟨⟨rfl, rfl, rfl, rfl, rfl⟩, .inl ⟨rfl, Option.some_ne_none _⟩⟩,
    fun inserted hinserted => ?_⟩⟩
  have hreads' := (hreads.concat (v := ⟨.detectHaPresent, haPresent⟩) rfl fun _ => id).concat
    (v := ⟨.insertRecoveryIfFree (params.insert haPresent), inserted⟩) rfl fun _ => id
  cases inserted with
  | none => trivial
  | some recovery =>
    obtain ⟨-, hkind, -, hstate, hmetadata⟩ := hinserted recovery rfl
    have hlive : recovery.state.terminal = false := by
      rw [hstate]
      rfl
    have hbegins : Begins params recovery _ := {
      began := ⟨params.insert haPresent, mem_concat, rfl⟩
      untouched := fun ev hev => (hreads' ev hev).2 recovery.id
      held := held_concat (v := ⟨.insertRecoveryIfFree (params.insert haPresent),
        some recovery⟩) (mem_singleton.2 rfl) hlive
      kind := hkind
      incident := by
        rw [hmetadata]
        rfl
      server := by
        rw [hmetadata]
        rfl }
    refine ⟨trivial, fun sourceOnline _ => ?_⟩
    exact obeying_beginChecked (hbegins.concat rfl id) haPresent mem_concat

theorem obeying_beginRecovery (hreads : Reads h) (params : BeginParams) :
    Obeying (beginRecovery params) h := by
  refine ⟨trivial, fun inflight _ => ?_⟩
  cases inflight with
  | some row => trivial
  | none => exact obeying_beginFree (hreads.concat rfl fun _ => id) params

/-! ## Refusals -/

theorem sat_findLatestRecovery (managedId : ManagedId) : (findLatestRecovery managedId).Sat Answers Contract
    (fun h' latest => ∀ row ∈ latest, Saw row h') h := by
  refine ⟨trivial, fun inflight _ => ?_⟩
  cases inflight with
  | some latest =>
    intro row hrow
    cases hrow
    exact saw_concat (mem_singleton.2 rfl)
  | none =>
    refine ⟨trivial, fun newest _ row hrow => saw_concat ?_⟩
    exact Option.mem_toList.2 hrow

theorem obeying_recordBlockedRecovery (managedId : ManagedId) (primary : ManagedMemberRow) (reason : String)
    (targetServerId : Option ServerId) :
    Obeying (recordBlockedRecovery managedId primary reason targetServerId) h := by
  refine (sat_findLatestRecovery managedId).bind fun h' latest hsaw => ⟨trivial, fun now _ => ?_⟩
  change Obeying (recordRefusal _ now latest) _
  rw [recordRefusal]
  split
  · rename_i row hrow
    obtain ⟨hlatest, hmatches⟩ := Option.filter_eq_some_iff.1 hrow
    have htarget : row.targetMemberId = none := by
      simp only [Bool.and_eq_true] at hmatches
      exact Option.isNone_iff_eq_none.1 hmatches.1.1.2
    refine ⟨⟨row, rfl, .note ?_ ⟨rfl, rfl, rfl, rfl, rfl⟩ (.inr htarget)⟩, fun _ _ => trivial⟩
    exact (hsaw row hlatest).mono (prefix_append _ _)
  · exact ⟨⟨⟨rfl, rfl, rfl, rfl, rfl⟩, .inr rfl⟩, fun _ _ => trivial⟩

theorem obeying_beginAutomaticFailover (params : AutomaticFailoverParams) :
    Obeying (beginAutomaticFailover params) [] := by
  refine ⟨trivial, fun inflight _ => ?_⟩
  cases inflight with
  | some row => trivial
  | none =>
    change Obeying (ite _ _ _) _
    split
    · exact obeying_recordBlockedRecovery _ _ _ _
    · refine ⟨trivial, fun lastAccepted _ => ⟨trivial, fun now _ => ?_⟩⟩
      change Obeying (ite _ _ _) _
      split
      · exact obeying_recordBlockedRecovery _ _ _ _
      · rw [beginCooledDown]
        split
        · exact obeying_recordBlockedRecovery _ _ _ _
        · split
          · exact obeying_recordBlockedRecovery _ _ _ _
          · refine (obeying_beginRecovery (fun ev hev => ?_) _).bind fun _ _ _ => trivial
            simp only [nil_append, cons_append, mem_cons, not_mem_nil, or_false] at hev
            obtain rfl | rfl | rfl := hev <;> exact ⟨rfl, fun _ => id⟩

end

/-! ## The end of a recovery -/

section

variable (recoveryId : RecoveryId)

theorem onlyFree_failRecoveryForOperator (reason : String) :
    OnlyFree (failRecoveryForOperator recoveryId reason) := by
  refine ⟨trivial, fun failed => ?_⟩
  cases failed with
  | none => trivial
  | some row => exact ⟨trivial, fun _ => trivial⟩

theorem onlyFree_onRecoveryCommandFailed :
    OnlyFree (onRecoveryCommandFailed recoveryId) :=
  (onlyFree_failRecoveryForOperator _ _).bind fun _ _ => trivial

theorem onlyFree_evaluateIngressGate :
    OnlyFree (evaluateIngressGate recoveryId) := by
  refine ⟨trivial, fun record => ?_⟩
  cases record with
  | none => trivial
  | some record =>
    change OnlyFree (judgeIngressGate record)
    rw [judgeIngressGate]
    split
    · trivial
    · refine ⟨trivial, fun commands => ?_⟩
      change OnlyFree (settleIngressGate record
        (decideIngressGate (record.metadata.ingressServerIds.getD []) commands))
      cases decideIngressGate (record.metadata.ingressServerIds.getD []) commands with
      | wait => trivial
      | complete => exact ⟨trivial, fun _ => ⟨trivial, fun _ => trivial⟩⟩
      | degraded serverIds => exact ⟨trivial, fun _ => ⟨trivial, fun _ => trivial⟩⟩

theorem onlyFree_onPromoteSucceeded : OnlyFree (onPromoteSucceeded recoveryId) := by
  refine ⟨trivial, fun existing => ?_⟩
  cases existing with
  | none => trivial
  | some existing =>
    change OnlyFree (ite _ _ _)
    split
    · trivial
    · refine ⟨trivial, fun claimed => ?_⟩
      cases claimed with
      | none => trivial
      | some record =>
        refine ⟨trivial, fun ingress => ?_⟩
        cases ingress with
        | none => exact ⟨trivial, fun _ => ⟨trivial, fun _ => ⟨trivial, fun _ => trivial⟩⟩⟩
        | some fanOut => exact ⟨trivial, fun _ => onlyFree_evaluateIngressGate _⟩

end

/-! ## A promote that failed -/

section

variable {h : Trace Op Ans}

theorem obeying_onSwitchoverPromoteFailed (hasQueue : Bool) (recoveryId : RecoveryId)
    (reported : Option SwitchoverPromoteFailureCode) :
    Obeying (onSwitchoverPromoteFailed hasQueue recoveryId reported) h := by
  refine ⟨trivial, fun record _ => ?_⟩
  cases record with
  | none => exact (onlyFree_onRecoveryCommandFailed _).obeying _
  | some record =>
    change Obeying (ite _ _ _) _
    split
    · exact (onlyFree_onRecoveryCommandFailed _).obeying _
    · refine ⟨trivial, fun members _ => ?_⟩
      change Obeying (ite _ _ _) _
      split
      · refine ((onlyFree_failRecoveryForOperator _ _).obeying _).bind fun h' failed _ => ?_
        cases failed with
        | none => trivial
        | some row => exact ⟨trivial, fun _ _ => trivial⟩
      · have hreactivate : ∀ h', Obeying (reactivateIfQueue hasQueue record members) h' := by
          intro h'
          rw [reactivateIfQueue]
          split
          · exact obeying_reactivateSource record members
          · trivial
        refine (hreactivate _).bind fun h' _ _ => ?_
        exact ((onlyFree_blockRecoveryNothingChanged _ _).obeying h').bind fun _ _ _ => trivial

theorem obeying_resumeOnTarget {record : RecoveryRecord} (hsaw : Saw record h)
    (hstate : record.state = .promoting) (hheld : Held record.id h) (source target : ManagedMemberRow) :
    Obeying (resumeOnTarget record source target) h := by
  rw [resumeOnTarget]
  split
  · exact ((onlyFree_onPromoteSucceeded _).obeying _).bind fun _ _ _ => trivial
  · refine ⟨trivial, fun connected _ => ?_⟩
    have hheld' : Held record.id (h ++ [⟨.isServerConnected target.serverId, connected⟩]) :=
      hheld.concat (not_ends rfl)
    cases connected with
    | false => trivial
    | true =>
      refine (obeying_enqueuePromoteOrRecover ⟨record, rfl, ?_⟩ hheld').bind fun _ _ _ => trivial
      refine .promote (hsaw.mono (prefix_append _ _)) hstate ?_ hheld'
      exact ⟨rfl, rfl, rfl, rfl, rfl⟩

theorem obeying_resumeInterruptedPromote (hasQueue : Bool) (recoveryId : RecoveryId) (interrupted : Bool) :
    Obeying (resumeInterruptedPromote hasQueue recoveryId interrupted) h := by
  rw [resumeInterruptedPromote]
  split
  · trivial
  · refine ⟨trivial, fun found _ => ?_⟩
    cases found with
    | none => trivial
    | some record =>
      have hmem : record ∈ records ⟨.findRecoveryById recoveryId, some record⟩ := mem_singleton.2 rfl
      change Obeying (resumeRecord record) _
      rw [resumeRecord]
      split
      · trivial
      · rename_i hpromoting
        have hstate : record.state = .promoting := by
          by_contra hne
          exact hpromoting (by simp [hne])
        have hlive : record.state.terminal = false := by
          rw [hstate]
          rfl
        refine ⟨trivial, fun inflight _ => ?_⟩
        change Obeying (ite _ _ _) _
        split
        · trivial
        · refine ⟨trivial, fun members _ => ?_⟩
          change Obeying (resumeAmong record inflight members) _
          rw [resumeAmong]
          split
          · trivial
          · split
            · refine obeying_resumeOnTarget ?_ hstate ?_ _ _
              · exact (saw_concat hmem).mono ((prefix_append _ _).trans (prefix_append _ _))
              · exact ((held_concat hmem hlive).concat (not_ends rfl)).concat (not_ends rfl)
            · trivial

end

/-! ## The sweeps -/

section

variable {h : Trace Op Ans}

theorem onlyFree_cancelOpenFenceSteps (steps : List FenceStepState) :
    OnlyFree (cancelOpenFenceSteps steps) := by
  refine Prog.only_foldEach trivial fun _ step _ _ => ?_
  rw [cancelOpenFenceStep]
  split
  · trivial
  · exact ⟨trivial, fun _ => trivial⟩

variable (hasQueue : Bool) (recoveryId : RecoveryId)

theorem onlyFree_settleRestart (missing : List RestartStep) (noWay : Bool) :
    OnlyFree (settleRestart recoveryId missing noWay) := by
  refine ⟨trivial, fun settled => ?_⟩
  cases settled with
  | none => trivial
  | some row =>
    change OnlyFree (followRestart row)
    rw [followRestart]
    split
    · exact ⟨trivial, fun _ => ⟨trivial, fun steps => onlyFree_cancelOpenFenceSteps steps⟩⟩
    · trivial

theorem claimed_todo {locked : RecoveryRecord} {recoveryId : RecoveryId} {nowMs : Time}
    (hans : Answers (.updateRecoveryLocked recoveryId (.claimRestart nowMs)) (some locked)) :
    locked.metadata.abortRestartTodo ≠ none := by
  obtain ⟨current, now, patch, happly, rfl⟩ := hans locked rfl
  rw [Decision.apply, if_neg (by exact Bool.false_ne_true), Decision.decide] at happly
  split at happly
  · cases happly
  · rename_i hclaim
    rw [Bool.or_eq_true, not_or, Bool.not_eq_true', Bool.not_eq_false] at hclaim
    cases happly
    exact todo_of_owed hclaim.1

theorem obeying_finishAbortRestart :
    Obeying (finishAbortRestart hasQueue recoveryId) h := by
  refine ⟨trivial, fun nowMs _ => ⟨trivial, fun current _ => ?_⟩⟩
  cases current with
  | none => trivial
  | some current =>
    change Obeying (ite _ _ _) _
    split
    · trivial
    · refine ⟨trivial, fun locked hlocked => ?_⟩
      cases locked with
      | none => trivial
      | some locked =>
        refine ⟨trivial, fun members _ => ?_⟩
        dsimp only [Prog.bind]
        split
        · exact (onlyFree_settleRestart _ _ _).obeying _
        · split
          · exact (onlyFree_settleRestart _ _ _).obeying _
          · refine (obeying_enqueueSwitchoverAbortReactivation fun _ => ?_).bind fun h' reactivation _ => ?_
            · exact ⟨claimed_todo hlocked, nowMs, recoveryId, mem_append_left _ mem_concat⟩
            · rw [finishReactivation]
              split
              · exact ⟨trivial, fun _ _ => trivial⟩
              · exact (onlyFree_settleRestart _ _ _).obeying _

theorem planStalledFence_ids {record : RecoveryRecord} {nowMs : Time} {delivered : Bool}
    (hplan : planStalledFence record nowMs delivered ≠ .wait) :
    record.metadata.fenceCommandIds.getD [] ≠ [] := by
  intro hnil
  rw [planStalledFence] at hplan
  split at hplan
  · exact hplan rfl
  · rw [if_pos (by rw [hnil]; rfl)] at hplan
    exact hplan rfl

variable {row : RecoveryRecord}

section

variable (hsaw : Saw row h) (hids : row.metadata.fenceCommandIds.getD [] ≠ [])
include hsaw hids

theorem sat_blockStalled (reason : String) (clearTarget : Bool)
    (extra : BlockExtra) : Obeying (blockRecoveryNothingChanged row.id reason true clearTarget extra) h := by
  refine ⟨fun _ => ⟨rfl, row, rfl, hsaw, hids⟩, fun blocked _ => ?_⟩
  cases blocked with
  | none => trivial
  | some row => exact ⟨trivial, fun _ _ => trivial⟩

theorem obeying_abortSwitchover (steps : List FenceStepState) (stopDelivered : Bool) :
    Obeying (abortSwitchover hasQueue row steps stopDelivered) h := by
  refine (sat_blockStalled hsaw hids _ _ _).bind fun h' blocked _ => ?_
  cases blocked with
  | none => trivial
  | some blocked =>
    refine ((onlyFree_cancelOpenFenceSteps steps).obeying h').bind fun h'' _ _ => ⟨trivial, fun after _ => ?_⟩
    have hnote : ∀ h₁, Obeying (noteSentStop row stopDelivered after) h₁ := by
      intro h₁
      rw [noteSentStop]
      split
      · exact ⟨trivial, fun _ _ => trivial⟩
      · trivial
    exact (hnote _).bind fun h₁ _ _ => obeying_finishAbortRestart hasQueue row.id

theorem obeying_abortOther (steps : List FenceStepState) (nowMs : Time) :
    Obeying (abortOther row steps nowMs) h := by
  have hrepeated : OnlyFree (repeatedDeadline row nowMs) := by
    rw [repeatedDeadline]
    split
    · exact ⟨trivial, fun _ => trivial⟩
    · trivial
  refine (hrepeated.obeying h).bind fun h' repeated hh' => ?_
  refine (sat_blockStalled (hsaw.mono hh') hids _ _ _).bind fun h'' blocked _ => ?_
  cases blocked with
  | none => trivial
  | some blocked => exact (onlyFree_cancelOpenFenceSteps steps).obeying h''

end

theorem obeying_expireStalledFence (nowMs : Time) (hsaw : Saw row h) :
    Obeying (expireStalledFence hasQueue nowMs () row) h := by
  refine ⟨trivial, fun steps _ => ?_⟩
  have hsaw' : Saw row (h ++ [⟨.loadFenceStepStates (row.metadata.fenceCommandIds.getD []), steps⟩]) :=
    hsaw.mono (prefix_append _ _)
  change Obeying (expirePlanned hasQueue row nowMs steps _) _
  cases hplan : planStalledFence row nowMs ((steps.find? fun step => step.phase == some .stop).any
    fun step => step.sentAt.isSome) with
  | wait => trivial
  | abandonDrains =>
    refine ⟨trivial, fun engine _ => ?_⟩
    refine ((onlyFree_cancelOpenFenceSteps steps).obeying _).bind fun h' _ _ => ?_
    exact obeying_foldEach fun h'' _ step _ _ => obeying_onFenceCommandFailed hasQueue row.id step.id engine
  | abort stopDelivered =>
    have hids := planStalledFence_ids (by rw [hplan]; exact StalledFencePlan.noConfusion)
    rw [expirePlanned]
    split
    · exact obeying_abortSwitchover hasQueue hsaw' hids steps stopDelivered
    · exact obeying_abortOther hsaw' hids steps nowMs

theorem obeying_sweepStalledFencing : Obeying (sweepStalledFencing hasQueue) h := by
  refine ⟨trivial, fun nowMs _ => ⟨trivial, fun rows _ => ⟨trivial, fun pending _ => ?_⟩⟩⟩
  refine (obeying_foldEach fun h' _ row hrow hh' => ?_).bind fun h' _ _ => ?_
  · refine obeying_expireStalledFence hasQueue nowMs (Saw.mono ?_ hh')
    exact (saw_concat (v := ⟨.listFencingRecoveries, rows⟩) hrow).mono (prefix_append _ _)
  · exact obeying_foldEach fun h'' _ row _ _ => obeying_finishAbortRestart hasQueue row.id

theorem onlyFree_expireStaleRecoveries (maxAgeMs : Time) (reason : String) :
    OnlyFree (expireStaleRecoveries maxAgeMs reason) := by
  refine ⟨trivial, fun nowMs => ⟨trivial, fun rows => ⟨trivial, fun live => ?_⟩⟩⟩
  refine Prog.only_foldEach trivial fun _ row _ _ => ⟨trivial, fun updated => ?_⟩
  cases updated with
  | none => trivial
  | some row =>
    change OnlyFree (ite _ _ _)
    split
    · exact ⟨trivial, fun _ => trivial⟩
    · trivial

end

/-! ## All calls -/

section

variable {h : Trace Op Ans}

theorem obeying_followSucceeded (report : Report) {commandId : CommandId} {command : CommandRecord}
    (hreported : ⟨.reported commandId .succeeded, some command⟩ ∈ h) :
    Obeying (followSucceeded report commandId command.spec) h := by
  rw [followSucceeded]
  split
  · refine ⟨trivial, fun _ _ => ?_⟩
    dsimp only [Prog.bind]
    split
    · trivial
    · exact (onlyFree_onPromoteSucceeded _).obeying _
  · split
    · rename_i hkind
      have hphase : command.spec.kind = FencePhase.stop.kind := hkind
      exact obeying_onFenceCommandSucceeded report.hasQueue _ hreported hphase _ _
    · rename_i hkind
      have hphase : command.spec.kind = FencePhase.drain.kind := hkind
      exact obeying_onFenceCommandSucceeded report.hasQueue _ hreported hphase _ _
    · exact (onlyFree_evaluateIngressGate _).obeying _
    · trivial

theorem obeying_followFailed (report : Report) (commandId : CommandId) (spec : CommandSpec) :
    Obeying (followFailed report commandId spec) h := by
  rw [followFailed]
  split
  · trivial
  · split
    · exact obeying_onFenceCommandFailed _ _ _ _
    · split
      · exact (onlyFree_evaluateIngressGate _).obeying _
      · split
        · refine (obeying_resumeInterruptedPromote _ _ _).bind fun h' resumed _ => ?_
          cases resumed with
          | true => trivial
          | false => exact obeying_onSwitchoverPromoteFailed _ _ _
        · trivial

theorem obeying_followTimedOut (report : Report) (commandId : CommandId) (spec : CommandSpec) :
    Obeying (followTimedOut report commandId spec) h := by
  rw [followTimedOut]
  split
  · trivial
  · split
    · exact obeying_onFenceCommandFailed _ _ _ _
    · split
      · exact (onlyFree_evaluateIngressGate _).obeying _
      · split
        · refine ⟨trivial, fun record _ => ?_⟩
          change Obeying (ite _ _ _) _
          split
          · exact obeying_onSwitchoverPromoteFailed _ _ _
          · exact (onlyFree_onRecoveryCommandFailed _).obeying _
        · trivial

/-- **Every call keeps the contract.** -/
theorem body_obeys (x : Call) : Obeying (body x) [] := by
  cases x with
  | beginOperatorSwitchover params hkind =>
    exact (obeying_beginRecovery (fun _ hev => absurd hev not_mem_nil) params).bind fun _ _ _ => trivial
  | beginDisasterRecovery params hkind =>
    exact (obeying_beginRecovery (fun _ hev => absurd hev not_mem_nil) params).bind fun _ _ _ => trivial
  | beginAutomaticFailover params => exact obeying_beginAutomaticFailover params
  | staleReport managedId primary reason => exact obeying_recordBlockedRecovery _ _ _ _
  | sent commandId => exact ⟨trivial, fun _ _ => trivial⟩
  | succeeded commandId report =>
    refine ⟨trivial, fun command _ => ?_⟩
    cases command with
    | none => trivial
    | some command => exact obeying_followSucceeded report (mem_singleton.2 rfl)
  | failed commandId report =>
    refine ⟨trivial, fun command _ => ?_⟩
    cases command with
    | none => trivial
    | some command => exact obeying_followFailed report commandId command.spec
  | timedOut commandId report =>
    refine ⟨trivial, fun command _ => ?_⟩
    cases command with
    | none => trivial
    | some command => exact obeying_followTimedOut report commandId command.spec
  | failRecoveryForOperator recoveryId reason =>
    exact ((onlyFree_failRecoveryForOperator _ _).obeying _).bind fun _ _ _ => trivial
  | sweepStalledFencing hasQueue => exact obeying_sweepStalledFencing hasQueue
  | expireStaleRecoveries maxAgeMs reason => exact (onlyFree_expireStaleRecoveries _ _).obeying _
  | evaluateIngressGate recoveryId => exact (onlyFree_evaluateIngressGate _).obeying _
  | flipRoles managedId promoted demoted => exact ⟨trivial, fun _ _ => trivial⟩

end

end TurboPanel.Recovery
