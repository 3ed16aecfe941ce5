import TurboPanel.Recovery.Calls

/-!
# The settlement of a fence

`applyFenceSettlement` over a sequence of results. Each result is applied under the row lock, and
what follows it (`followFenceAdvance`) happens after. As long as one of the recorded commands has
not been heard of, the row waits (`settleAll_waiting`); the first result of the last of them
decides, and what it decides depends on the outcomes only, not on the order, the repeats or the
results of other commands (`fence_settles_once`).
-/

namespace TurboPanel.Recovery

open Interleaving List

/-! ## Results in a sequence -/

/-- The result of a command: its phase when it succeeded, and when it is applied. -/
structure FenceResult where
  commandId : CommandId
  applied : Option FencePhase
  now : Time

/-- The row that the locked update answers. -/
def FenceResult.answer (result : FenceResult) (row : RecoveryRecord) : Option RecoveryRecord :=
  (applyFenceSettlement row result.commandId result.applied result.now).map fun patch =>
    row.patch patch result.now

def settleAll (row : RecoveryRecord) (results : List FenceResult) : RecoveryRecord :=
  results.foldl (fun row result => (result.answer row).getD row) row

/-- What `settleFenceCommand` does once the lock is released. -/
def followSettlement (hasQueue : Bool) (engine : ManagedEngineCode) : Option RecoveryRecord → Proc Unit
  | none => pure ()
  | some record => followFenceAdvance hasQueue record engine

variable {h : Trace Op Ans} (params : ReactivationParams) (hasQueue : Bool) (record : RecoveryRecord)
  (engine : ManagedEngineCode)

/-! ## What is decided -/

/-- One of the commands succeeded in this phase. -/
def Succeeded (outcome : CommandId → Option FencePhase) (phase : FencePhase) (ids : List CommandId) :
    Bool :=
  ids.any fun id => outcome id = some phase

/-- The metadata once `ids` have been heard of and `pending` have not. -/
def heardMetadata (metadata : RecoveryMetadata) (outcome : CommandId → Option FencePhase)
    (ids pending : List CommandId) : RecoveryMetadata :=
  { metadata with
    fenceCommandIds := some pending
    drainApplied := if Succeeded outcome .drain ids then some true else metadata.drainApplied
    stopApplied := if Succeeded outcome .stop ids then some true else metadata.stopApplied }

/-- The row while it waits for `pending`. -/
def waitingRow (row : RecoveryRecord) (outcome : CommandId → Option FencePhase)
    (ids pending : List CommandId) (updatedAt : Time) : RecoveryRecord :=
  { row with updatedAt, metadata := heardMetadata row.metadata outcome ids pending }

/-- The state that the outcomes of the recorded commands decide, and the metadata. -/
def decidedFence (row : RecoveryRecord) (outcome : CommandId → Option FencePhase)
    (ids : List CommandId) (now : Time) : RecoveryAdvance :=
  let metadata := heardMetadata row.metadata outcome ids []
  nextStateAfterFence row.kind (fenceOutcomeFromMetadata metadata) metadata now

/-- The recorded commands that the results have not named. -/
def pendingAfter (ids : List CommandId) (results : List FenceResult) : List CommandId :=
  ids.filter (· ∉ results.map (·.commandId))

section

variable {row : RecoveryRecord} {ids : List CommandId} {outcome : CommandId → Option FencePhase}

theorem settleAll_concat (row : RecoveryRecord) (results : List FenceResult) (result : FenceResult) :
    settleAll row (results ++ [result]) =
      (result.answer (settleAll row results)).getD (settleAll row results) := by
  rw [settleAll, foldl_append]
  rfl

theorem settleAll_append (row : RecoveryRecord) (results later : List FenceResult) :
    settleAll row (results ++ later) = settleAll (settleAll row results) later :=
  foldl_append

theorem answer_of_ne_fencing (h : row.state ≠ .fencing) (result : FenceResult) :
    result.answer row = none := by
  rw [FenceResult.answer, applyFenceSettlement, if_pos h, Option.map_none]

theorem settleAll_of_ne_fencing (h : row.state ≠ .fencing) (results : List FenceResult) :
    settleAll row results = row := by
  induction results using List.reverseRecOn with
  | nil => rfl
  | append_singleton results result ih =>
    rw [settleAll_concat, ih, answer_of_ne_fencing h, Option.getD_none]

theorem applyFenceSettlement_recorded {pending : List CommandId} {commandId : CommandId}
    (hstate : row.state = .fencing) (hids : row.metadata.fenceCommandIds = some pending)
    (hmem : commandId ∈ pending) (applied : Option FencePhase) (now : Time) :
    applyFenceSettlement row commandId applied now =
      let left := pending.filter (· ≠ commandId)
      let metadata := settledMetadata row.metadata left applied
      let advance := nextStateAfterFence row.kind (fenceOutcomeFromMetadata metadata) metadata now
      if left ≠ [] then some { metadata := some metadata }
      else some { state := some advance.state, metadata := some advance.metadata } := by
  rw [applyFenceSettlement, if_neg (not_not.2 hstate), hids, Option.getD_some]
  dsimp only
  rw [if_neg (not_not.2 hmem)]
  simp only [length_pos_iff]

theorem answer_of_not_recorded {result : FenceResult}
    (h : result.commandId ∉ row.metadata.fenceCommandIds.getD []) : result.answer row = none := by
  rw [FenceResult.answer, applyFenceSettlement]
  split_ifs
  · rfl
  · simp [h]

theorem succeeded_append (phase : FencePhase) (heard more : List CommandId) :
    Succeeded outcome phase (heard ++ more) =
      (Succeeded outcome phase heard || Succeeded outcome phase more) :=
  any_append

theorem succeeded_congr {phase : FencePhase} {heard heard' : List CommandId}
    (h : ∀ id, id ∈ heard ↔ id ∈ heard') :
    Succeeded outcome phase heard = Succeeded outcome phase heard' := by
  rw [Succeeded, Succeeded, Bool.eq_iff_iff, any_eq_true, any_eq_true]
  simp only [h]

theorem heardMetadata_congr {metadata : RecoveryMetadata} {heard heard' pending : List CommandId}
    (h : ∀ id, id ∈ heard ↔ id ∈ heard') :
    heardMetadata metadata outcome heard pending = heardMetadata metadata outcome heard' pending := by
  rw [heardMetadata, heardMetadata, succeeded_congr h, succeeded_congr h]

theorem settledMetadata_heard (metadata : RecoveryMetadata) (heard pending pending' : List CommandId)
    (id : CommandId) :
    settledMetadata (heardMetadata metadata outcome heard pending) pending' (outcome id) =
      heardMetadata metadata outcome (heard ++ [id]) pending' := by
  have hone : ∀ phase, Succeeded outcome phase [id] = decide (outcome id = some phase) := by
    intro phase
    simp [Succeeded]
  cases houtcome : outcome id with
  | none => simp [settledMetadata, heardMetadata, succeeded_append, hone, houtcome]
  | some phase =>
    cases phase <;> simp [settledMetadata, heardMetadata, succeeded_append, hone, houtcome]

section

variable {heard pending : List CommandId} {updatedAt : Time} {result : FenceResult}
  (hstate : row.state = .fencing) (hpending : result.commandId ∈ pending)
  (houtcome : result.applied = outcome result.commandId)

include hstate hpending houtcome

theorem answer_waiting (hmore : pending.filter (· ≠ result.commandId) ≠ []) :
    result.answer (waitingRow row outcome heard pending updatedAt) =
      some (waitingRow row outcome (heard ++ [result.commandId])
        (pending.filter (· ≠ result.commandId)) result.now) := by
  have hpatch := @applyFenceSettlement_recorded (waitingRow row outcome heard pending updatedAt)
    pending result.commandId hstate rfl hpending result.applied result.now
  dsimp only at hpatch
  rw [if_pos hmore, houtcome, waitingRow, settledMetadata_heard] at hpatch
  rw [FenceResult.answer, houtcome, waitingRow, hpatch]
  rfl

theorem answer_last (hlast : pending.filter (· ≠ result.commandId) = []) :
    result.answer (waitingRow row outcome heard pending updatedAt) =
      some (row.patch
        { state := some (decidedFence row outcome (heard ++ [result.commandId]) result.now).state
          metadata := some (decidedFence row outcome (heard ++ [result.commandId]) result.now).metadata }
        result.now) := by
  have hpatch := @applyFenceSettlement_recorded (waitingRow row outcome heard pending updatedAt)
    pending result.commandId hstate rfl hpending result.applied result.now
  dsimp only at hpatch
  rw [if_neg (not_not.2 hlast), houtcome, waitingRow, hlast, settledMetadata_heard] at hpatch
  rw [FenceResult.answer, houtcome, waitingRow, hpatch]
  rfl

end

theorem pendingAfter_concat (ids : List CommandId) (results : List FenceResult) (result : FenceResult) :
    pendingAfter ids (results ++ [result]) =
      (pendingAfter ids results).filter (· ≠ result.commandId) := by
  rw [pendingAfter, pendingAfter, filter_filter]
  refine filter_congr fun id _ => ?_
  rw [Bool.eq_iff_iff]
  simp [map_append, and_comm]

theorem mem_pendingAfter {id : CommandId} {results : List FenceResult} :
    id ∈ pendingAfter ids results ↔ id ∈ ids ∧ id ∉ results.map (·.commandId) := by
  simp [pendingAfter]

theorem exists_last {results : List FenceResult} (hne : ids ≠ []) (hall : pendingAfter ids results = []) :
    ∃ before last after, results = before ++ last :: after ∧ pendingAfter ids before ≠ [] ∧
      pendingAfter ids (before ++ [last]) = [] := by
  induction results using List.reverseRecOn with
  | nil =>
    refine absurd ?_ hne
    rwa [pendingAfter, filter_eq_self.2 (by simp)] at hall
  | append_singleton results result ih =>
    by_cases hbefore : pendingAfter ids results = []
    · obtain ⟨before, last, after, rfl, hpending, hlast⟩ := ih hbefore
      exact ⟨before, last, after ++ [result], by simp, hpending, hlast⟩
    · exact ⟨results, result, [], by simp, hbefore, hall⟩

variable {results : List FenceResult} (hstate : row.state = .fencing)
  (hids : row.metadata.fenceCommandIds = some ids)

include hstate hids

theorem settleAll_waiting
    (houtcome : ∀ result ∈ results, result.commandId ∈ ids → result.applied = outcome result.commandId)
    (hpending : pendingAfter ids results ≠ []) :
    ∃ heard updatedAt, (∀ id, id ∈ heard ↔ id ∈ ids ∧ id ∈ results.map (·.commandId)) ∧
      settleAll row results = waitingRow row outcome heard (pendingAfter ids results) updatedAt := by
  induction results using List.reverseRecOn with
  | nil =>
    have hall : pendingAfter ids [] = ids := by simp [pendingAfter]
    refine ⟨[], row.updatedAt, by simp, ?_⟩
    rw [hall]
    change row = { row with metadata := { row.metadata with fenceCommandIds := some ids } }
    rw [← hids]
  | append_singleton results result ih =>
    rw [pendingAfter_concat] at hpending
    obtain ⟨heard, updatedAt, hheard, hrow⟩ := ih
      (fun r hr => houtcome r (mem_append_left _ hr)) fun h => hpending (by rw [h]; rfl)
    rw [settleAll_concat, hrow, pendingAfter_concat]
    by_cases hmem : result.commandId ∈ pendingAfter ids results
    · have hrecorded := (mem_pendingAfter.1 hmem).1
      refine ⟨heard ++ [result.commandId], result.now, fun id => ?_, ?_⟩
      · rw [mem_append, hheard, map_append, mem_append]
        constructor
        · rintro (⟨hid, hin⟩ | hid)
          · exact ⟨hid, .inl hin⟩
          · rw [mem_singleton.1 hid]
            exact ⟨hrecorded, .inr mem_cons_self⟩
        · rintro ⟨hid, hin | hin⟩
          · exact .inl ⟨hid, hin⟩
          · exact .inr hin
      · rw [answer_waiting hstate hmem (houtcome result (by simp) hrecorded) hpending, Option.getD_some]
    · have hsame : (pendingAfter ids results).filter (· ≠ result.commandId) = pendingAfter ids results := by
        refine filter_eq_self.2 fun id hid => ?_
        rw [decide_eq_true_eq]
        rintro rfl
        exact hmem hid
      refine ⟨heard, updatedAt, fun id => ?_, ?_⟩
      · rw [hheard, map_append, mem_append]
        constructor
        · exact fun ⟨hid, hin⟩ => ⟨hid, .inl hin⟩
        · rintro ⟨hid, hin | hin⟩
          · exact ⟨hid, hin⟩
          · rw [map_singleton, mem_singleton] at hin
            subst hin
            exact ⟨hid, not_not.1 fun hnot => hmem (mem_pendingAfter.2 ⟨hid, hnot⟩)⟩
      · rw [answer_of_not_recorded hmem, Option.getD_none, hsame]

end

/-! ## The promote -/

/-- The statement queues a promote. -/
def QueuesPromote : Op → Prop
  | .createCommandRecord spec => spec.kind.promotes = true
  | _ => False

/-- A promote is queued only where none was. -/
def AtMostOnce (h : Trace Op Ans) (o : Op) : Prop := QueuesPromote o → ∀ ev ∈ h, ¬QueuesPromote ev.1

/-- The program queues no promote. -/
abbrev Idle {α : Type} (p : Proc α) : Prop := p.Only (fun o => ¬QueuesPromote o) fun _ => True

theorem Idle.bind {α β : Type} {p : Proc α} (hp : Idle p) {f : α → Proc β} (hf : ∀ a, Idle (f a)) :
    Idle (p >>= f) :=
  Prog.Only.bind hp fun a _ => hf a

theorem idle_pure {α : Type} (a : α) : Idle (pure a : Proc α) := trivial

theorem idle_ask {o : Op} (h : ¬QueuesPromote o) : Idle (ask o) := ⟨h, fun _ => trivial⟩

theorem idle_publishCommand (commandId : CommandId) : Idle (publishCommand commandId) := by
  refine (idle_ask (by exact not_false)).bind fun queued => ?_
  cases queued with
  | true => exact idle_pure _
  | false => exact (idle_ask (by exact not_false)).bind fun _ => idle_pure _

theorem idle_enqueueCommand {spec : CommandSpec} (h : spec.kind.promotes = false) :
    Idle (enqueueCommand spec) := by
  have hcreate : ¬QueuesPromote (.createCommandRecord spec) := by
    change ¬spec.kind.promotes = true
    rw [h]
    exact Bool.false_ne_true
  exact (idle_ask hcreate).bind fun commandId =>
    (idle_publishCommand commandId).bind fun _ => idle_pure _

theorem idle_abortRestartStaleReason (row : RecoveryRecord) : Idle (abortRestartStaleReason row) := by
  refine Idle.bind ?_ fun latest => ?_
  · refine (idle_ask (by exact not_false)).bind fun inflight => ?_
    cases inflight with
    | none => exact idle_ask (by exact not_false)
    | some row => exact idle_pure _
  · split
    · exact idle_pure _
    · refine (idle_ask (by exact not_false)).bind fun members => ?_
      split <;> exact idle_pure _

theorem idle_reactivationCommand (key : RestartStep) {spec : CommandSpec} (h : spec.kind.promotes = false)
    (acc : Reactivation) :
    Idle (reactivationCommand params key spec acc) := by
  refine Idle.bind ?_ fun stale => ?_
  · rw [askStale]
    split
    · exact idle_pure _
    · split
      · exact idle_pure _
      · exact (idle_abortRestartStaleReason _).bind fun _ => idle_pure _
  · split
    · exact idle_pure _
    · exact (idle_enqueueCommand h).bind fun _ => idle_pure _

theorem idle_undrainCommand (acc : Reactivation) (serverId : ServerId) :
    Idle (undrainCommand params acc serverId) := by
  rw [undrainCommand]
  split
  · exact idle_pure _
  · refine (idle_ask (by exact not_false)).bind fun connected => ?_
    split
    · exact idle_pure _
    · exact idle_reactivationCommand _ _ rfl _

theorem idle_reactivateSource (members : List ManagedMemberRow) :
    Idle (reactivateSource record members) := by
  rw [reactivateSource]
  split
  · exact idle_pure _
  · refine Idle.bind (Idle.bind ?_ fun started => ?_) fun _ => idle_pure _
    · rw [startCommand]
      split
      · exact idle_reactivationCommand _ _ rfl _
      · exact idle_pure _
    · exact Prog.only_foldEach trivial fun acc serverId _ _ => idle_undrainCommand _ acc serverId

theorem idle_abortSwitchoverWhenGtidMissing :
    Idle (abortSwitchoverWhenGtidMissing record engine) := by
  rw [abortSwitchoverWhenGtidMissing]
  split
  · exact idle_pure _
  · refine (idle_ask (by exact not_false)).bind fun members => ?_
    refine (idle_reactivateSource record members).bind fun _ => Idle.bind ?_ fun _ => idle_pure _
    refine (idle_ask (by exact not_false)).bind fun blocked => ?_
    cases blocked with
    | none => exact idle_pure _
    | some row => exact (idle_ask (by exact not_false)).bind fun _ => idle_pure _

theorem idle_promoteQueued (params : PromoteParams) (queued : Option CommandId) :
    Idle (promoteQueued params queued) := by
  cases queued with
  | none => exact ((idle_ask (by exact not_false)).bind fun _ => idle_pure _).bind fun _ => idle_pure _
  | some commandId => exact (idle_ask (by exact not_false)).bind fun _ => idle_pure _

/-- No promote was queued. -/
def Unpromoted (h : Trace Op Ans) : Prop := ∀ ev ∈ h, ¬QueuesPromote ev.1

theorem Unpromoted.concat (hh : Unpromoted h) {o : Op} (ho : ¬QueuesPromote o) (ans : Ans o) :
    Unpromoted (h ++ [⟨o, ans⟩]) := by
  intro ev hev
  rcases mem_append.1 hev with hev | hev
  · exact hh ev hev
  · rw [mem_singleton.1 hev]
    exact ho

theorem Idle.sat {α : Type} {p : Proc α} (hp : Idle p) (hh : Unpromoted h) :
    p.Sat (fun _ _ => True) AtMostOnce (fun h' _ => Unpromoted h') h :=
  (Prog.Only.sat (K := Unpromoted) (fun _ _ ho _ hpromotes => absurd hpromotes ho)
    (fun _ _ ans ho hh => hh.concat ho ans) hp hh).mono fun _ _ hh' => hh'.1

theorem Idle.sat_after {α : Type} {p : Proc α} (hp : Idle p) (h : Trace Op Ans) :
    p.Sat (fun _ _ => True) AtMostOnce (fun _ _ => True) h :=
  (Prog.Only.sat (K := fun _ => True) (fun _ _ ho _ hpromotes => absurd hpromotes ho)
    (fun _ _ _ _ _ => trivial) hp trivial).mono fun _ _ _ => trivial

theorem atMostOnce_enqueuePromoteOrRecover (params : PromoteParams) (hh : Unpromoted h) :
    (enqueuePromoteOrRecover params).Sat (fun _ _ => True) AtMostOnce
      (fun _ _ => True) h := by
  refine (Idle.sat (idle_ask (by exact not_false)) hh).bind fun h' _ hh' => ?_
  have hcreate : (enqueueCommand params.spec).Sat (fun _ _ => True) AtMostOnce (fun _ _ => True) h' :=
    ⟨fun _ => hh', fun commandId _ =>
      ((idle_publishCommand commandId).bind fun _ => idle_pure _).sat_after _⟩
  exact hcreate.bind fun h'' queued _ => (idle_promoteQueued params queued).sat_after h''

theorem atMostOnce_followFenceAdvance : (followFenceAdvance hasQueue record engine).Sat (fun _ _ => True)
      AtMostOnce (fun _ _ => True) [] := by
  have hnone : Unpromoted [] := fun _ hev => absurd hev not_mem_nil
  unfold followFenceAdvance
  split
  · exact (idle_ask (by exact not_false)).sat_after []
  · split
    · trivial
    · refine (Idle.sat (idle_ask (by exact not_false)) hnone).bind fun h members hh => ?_
      unfold promoteMembers
      split
      · refine ((idle_abortSwitchoverWhenGtidMissing record engine).sat hh).bind
          fun h' aborted hh' => ?_
        cases aborted with
        | true => trivial
        | false => exact (atMostOnce_enqueuePromoteOrRecover _ hh').bind fun _ _ _ => trivial
      · trivial

/-! ## The fence settles once -/

/-- The results settle the fence at `last`, and nothing else happens at the others. -/
structure SettlesAt (row : RecoveryRecord) (ids : List CommandId) (before : List FenceResult)
    (last : FenceResult) (after : List FenceResult) : Prop where
  recorded : last.commandId ∈ ids
  first : ∀ result ∈ before, result.commandId ≠ last.commandId
  outstanding : ∀ id ∈ ids, id ≠ last.commandId → ∃ result ∈ before, result.commandId = id
  waits : ∀ results, results <+: before → (settleAll row results).state = .fencing
  decides : (settleAll row (before ++ [last])).state ≠ .fencing
  stays : ∀ results, settleAll row (before ++ last :: results) = settleAll row (before ++ [last])
  idle : ∀ results result, results ++ [result] <+: before ++ last :: after → results ≠ before →
    ∀ hasQueue engine, followSettlement hasQueue engine (result.answer (settleAll row results)) = pure ()
  promotes : ∀ hasQueue engine, (followSettlement hasQueue engine (last.answer (settleAll row before))).Sat
    (fun _ _ => True) AtMostOnce (fun _ _ => True) []

section

variable {row : RecoveryRecord} {ids : List CommandId} {outcome : CommandId → Option FencePhase}
  {results : List FenceResult}

variable {last : FenceResult} {before after : List FenceResult}

theorem forall_mem_concat {p : FenceResult → Prop} (h : ∀ result ∈ before ++ last :: after, p result) :
    ∀ result ∈ before ++ [last], p result := by
  rw [append_cons] at h
  exact fun result hresult => h result (mem_append_left _ hresult)

theorem pendingAfter_of_initial {before : List FenceResult} (h : results <+: before)
    (hpending : pendingAfter ids before ≠ []) : pendingAfter ids results ≠ [] := by
  obtain ⟨id, hid⟩ := exists_mem_of_ne_nil _ hpending
  obtain ⟨hrecorded, hnot⟩ := mem_pendingAfter.1 hid
  refine ne_nil_of_mem (mem_pendingAfter.2 ⟨hrecorded, fun hin => hnot ?_⟩)
  exact (h.map _).subset hin

theorem decidedFence_state_ne (now : Time) : (decidedFence row outcome ids now).state ≠ .fencing := by
  rw [decidedFence, nextStateAfterFence]
  dsimp only
  split_ifs <;> exact RecoveryState.noConfusion

theorem decidedFence_now (now now' : Time) :
    (decidedFence row outcome ids now).state = (decidedFence row outcome ids now').state ∧
      { (decidedFence row outcome ids now).metadata with fencingEpoch := none } =
        { (decidedFence row outcome ids now').metadata with fencingEpoch := none } := by
  rw [decidedFence, decidedFence, nextStateAfterFence, nextStateAfterFence]
  dsimp only
  split_ifs <;> exact ⟨rfl, rfl⟩

theorem decidedFence_congr {heard : List CommandId} (h : ∀ id, id ∈ heard ↔ id ∈ ids) (now : Time) :
    decidedFence row outcome heard now = decidedFence row outcome ids now := by
  rw [decidedFence, decidedFence, heardMetadata_congr h]

theorem decidedFence_fenceCommandIds (now : Time) :
    (decidedFence row outcome ids now).metadata.fenceCommandIds = some [] := by
  rw [decidedFence, nextStateAfterFence]
  dsimp only
  split_ifs <;> rfl

variable (hstate : row.state = .fencing) (hids : row.metadata.fenceCommandIds = some ids)

include hstate hids

theorem state_waiting
    (houtcome : ∀ result ∈ results, result.commandId ∈ ids → result.applied = outcome result.commandId)
    (hpending : pendingAfter ids results ≠ []) : (settleAll row results).state = .fencing := by
  obtain ⟨heard, updatedAt, -, hrow⟩ := settleAll_waiting hstate hids houtcome hpending
  rw [hrow]
  exact hstate

theorem settleAll_last {before : List FenceResult}
    (houtcome : ∀ result ∈ before ++ [last], result.commandId ∈ ids → result.applied = outcome result.commandId)
    (hpending : pendingAfter ids before ≠ []) (hlast : pendingAfter ids (before ++ [last]) = []) :
    last.commandId ∈ pendingAfter ids before ∧
      settleAll row (before ++ [last]) = row.patch
        { state := some (decidedFence row outcome ids last.now).state
          metadata := some (decidedFence row outcome ids last.now).metadata } last.now := by
  rw [pendingAfter_concat] at hlast
  have hmem : last.commandId ∈ pendingAfter ids before := by
    obtain ⟨id, hid⟩ := exists_mem_of_ne_nil _ hpending
    have hsame := filter_eq_nil_iff.1 hlast id hid
    rw [decide_eq_true_eq, not_not] at hsame
    exact hsame ▸ hid
  obtain ⟨heard, updatedAt, hheard, hrow⟩ := settleAll_waiting hstate hids
    (fun result hresult => houtcome result (mem_append_left _ hresult)) hpending
  have hall : ∀ id, id ∈ heard ++ [last.commandId] ↔ id ∈ ids := by
    intro id
    rw [mem_append, hheard, mem_singleton]
    constructor
    · rintro (⟨hid, -⟩ | rfl)
      · exact hid
      · exact (mem_pendingAfter.1 hmem).1
    · intro hid
      by_cases hnamed : id ∈ before.map (·.commandId)
      · exact .inl ⟨hid, hnamed⟩
      · have hsame := filter_eq_nil_iff.1 hlast id (mem_pendingAfter.2 ⟨hid, hnamed⟩)
        rw [decide_eq_true_eq, not_not] at hsame
        exact .inr hsame
  refine ⟨hmem, ?_⟩
  rw [settleAll_concat, hrow, answer_last hstate hmem
    (houtcome last (by simp) (mem_pendingAfter.1 hmem).1) hlast, Option.getD_some,
    decidedFence_congr hall]

theorem settlesAt_last
    (houtcome : ∀ result ∈ before ++ last :: after, result.commandId ∈ ids →
      result.applied = outcome result.commandId)
    (hpending : pendingAfter ids before ≠ []) (hlast : pendingAfter ids (before ++ [last]) = []) :
    SettlesAt row ids before last after := by
  have hbefore : ∀ results, results <+: before → (settleAll row results).state = .fencing :=
    fun results h => state_waiting hstate hids
      (fun result hresult => houtcome result (mem_append_left _ (h.subset hresult)))
      (pendingAfter_of_initial h hpending)
  obtain ⟨hmem, hrow⟩ := settleAll_last hstate hids (forall_mem_concat houtcome) hpending hlast
  have hdecides : (settleAll row (before ++ [last])).state ≠ .fencing := by
    rw [hrow]
    exact decidedFence_state_ne last.now
  have hstays : ∀ results, settleAll row (before ++ last :: results) =
      settleAll row (before ++ [last]) := by
    intro results
    rw [append_cons, settleAll_append, settleAll_of_ne_fencing hdecides]
  have hnamed : ∀ {id : CommandId} {results : List FenceResult},
      id ∈ results.map (·.commandId) ↔ ∃ result ∈ results, result.commandId = id := mem_map
  refine ⟨(mem_pendingAfter.1 hmem).1, fun result hresult heq => ?_, fun id hid hne => ?_, hbefore,
    hdecides, hstays, fun results result hprefix hne hasQueue engine => ?_, fun hasQueue engine => ?_⟩
  · exact (mem_pendingAfter.1 hmem).2 (hnamed.2 ⟨result, hresult, heq⟩)
  · rw [pendingAfter_concat] at hlast
    by_contra hnot
    have hsame := filter_eq_nil_iff.1 hlast id (mem_pendingAfter.2 ⟨hid, fun h => hnot (hnamed.1 h)⟩)
    rw [decide_eq_true_eq, not_not] at hsame
    exact hne hsame
  · have hresults : results <+: before ++ last :: after := (prefix_append _ _).trans hprefix
    rcases prefix_or_prefix_of_prefix hresults (prefix_append before (last :: after)) with h | h
    · -- a result before the last: the row still waits, so nothing follows
      have hlt : results.length < before.length :=
        lt_of_le_of_ne h.length_le fun heq => hne (h.eq_of_length heq)
      have hconcat : results ++ [result] <+: before :=
        prefix_of_prefix_length_le hprefix (prefix_append _ _) (by simpa using hlt)
      have hwaits := hbefore _ hconcat
      rw [settleAll_concat] at hwaits
      cases hanswer : result.answer (settleAll row results) with
      | none => rfl
      | some record =>
        rw [hanswer, Option.getD_some] at hwaits
        rw [followSettlement, followFenceAdvance, if_neg (by rw [hwaits]; exact RecoveryState.noConfusion),
          if_pos (by rw [hwaits]; cases hasQueue <;> rfl)]
    · -- a result after it: nothing settles
      obtain ⟨rest, rfl⟩ := h
      cases rest with
      | nil => exact absurd (append_nil before) hne
      | cons head rest =>
        have hhead : head = last := by
          obtain ⟨tail, htail⟩ := hresults
          rw [append_assoc, append_cancel_left_eq, cons_append] at htail
          exact (List.cons.inj htail).1
        subst hhead
        rw [answer_of_ne_fencing (by rw [hstays]; exact hdecides)]
        rfl
  · cases last.answer (settleAll row before) with
    | none => trivial
    | some record => exact atMostOnce_followFenceAdvance hasQueue record engine

/-- **A fence settles once, whatever the order.** Where the results name every recorded command,
with one outcome for each, the row ends in what the outcomes decide; the first result of the last
command that is outstanding decides it, and it alone may be followed by a promote. -/
theorem fence_settles_once (hne : ids ≠ [])
    (houtcome : ∀ result ∈ results, result.commandId ∈ ids → result.applied = outcome result.commandId)
    (hall : ∀ id ∈ ids, ∃ result ∈ results, result.commandId = id) :
    (settleAll row results).state = (decidedFence row outcome ids 0).state ∧
      { (settleAll row results).metadata with fencingEpoch := none } =
        { (decidedFence row outcome ids 0).metadata with fencingEpoch := none } ∧
      (settleAll row results).metadata.fenceCommandIds = some [] ∧
      ∃ before last after, results = before ++ last :: after ∧ SettlesAt row ids before last after := by
  have hempty : pendingAfter ids results = [] := by
    refine filter_eq_nil_iff.2 fun id hid => ?_
    obtain ⟨result, hresult, rfl⟩ := hall id hid
    simpa using ⟨result, hresult, rfl⟩
  obtain ⟨before, last, after, rfl, hpending, hlast⟩ := exists_last hne hempty
  have hsettles := settlesAt_last hstate hids houtcome hpending hlast
  have hrow := (settleAll_last hstate hids (forall_mem_concat houtcome) hpending hlast).2
  obtain ⟨hstateNow, hmetadataNow⟩ := @decidedFence_now row ids outcome last.now 0
  rw [hsettles.stays after, hrow]
  exact ⟨hstateNow, hmetadataNow, decidedFence_fenceCommandIds last.now, before, last, after, rfl,
    hsettles⟩

end

/-- A failover that waits for a drain and a stop. -/
def fencingFailover : RecoveryRecord where
  id := 0
  managedId := 0
  kind := .automaticFailover
  sourcePrimaryMemberId := 0
  targetMemberId := some 1
  state := .fencing
  startedAt := 0
  updatedAt := 0
  metadata := { fenceCommandIds := some [3, 4], drainApplied := some false, stopApplied := some false }

theorem fencingFailover_settles_once :
    (settleAll fencingFailover [⟨4, some .stop, 1⟩, ⟨9, some .drain, 2⟩, ⟨4, some .stop, 3⟩,
      ⟨3, some .drain, 4⟩]).state = .promoting := by
  have h := (@fence_settles_once fencingFailover [3, 4]
    (fun id => if id = 4 then some .stop else some .drain)
    [⟨4, some .stop, 1⟩, ⟨9, some .drain, 2⟩, ⟨4, some .stop, 3⟩, ⟨3, some .drain, 4⟩] rfl rfl
    (by simp) (by simp) (by simp)).1
  rw [h]
  rfl

end TurboPanel.Recovery
