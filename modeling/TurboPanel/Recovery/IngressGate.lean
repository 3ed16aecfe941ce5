import TurboPanel.Recovery.Actors
import TurboPanel.Recovery.Contract

/-!
# The ingress gate

`evaluateIngressGate` of `ha-ingress-gate.ts` reads the row, the listed commands and the members one
after the other, and only the state of the row again under the lock. Any number of judgements run at
the same time as the recovery is parked, commands are reported and members change roles. What a
judgement has read does not age (`Sound`): the lists of a parked row stay, and where all commands
were over, they are as they were read. So the first judgement that settles the row gives the verdict
on the commands as they are (`ingress_gate_settles_once`).
-/

namespace TurboPanel.Recovery.IngressGate

open CommandRecords (CommandStatus)
open Interleaving List

/-! ## The calls -/

/-- What happens around the gate of one recovery. -/
inductive GateCall where
  | evaluate
  | park
  /-- A command moves to a status. -/
  | report (commandId : CommandId) (status : CommandStatus)
  | flipRoles (managedId : ManagedId) (promotedMemberId demotedMemberId : MemberId)

section

variable (r : RecoveryId) (fanOut : ManagedIngressFanOutOutcome) (pending : List ServerId)

def gateCall : GateCall → Proc Unit
  | .evaluate => evaluateIngressGate r
  | .park => parkRecoveryAtIngressGate r fanOut pending
  | .report commandId status => do
    let _ ← ask (.reported commandId status)
    pure ()
  | .flipRoles managedId promoted demoted => ask (.flipRoles managedId promoted demoted)

/-- A status that ends a command does not change. -/
def KeepsEnded (_ : ℕ) (w : World Op Ans Db) (o : Op) : Prop :=
  ∀ commandId status, o = .reported commandId status →
    ∀ command, w.state.commands[commandId]? = some command → command.status.terminal = true →
      status = command.status

abbrev GateConfig := Config Op Ans Db

/-- The configuration after a run of these calls. -/
def gateRun (db : Db) (choices : List (Choice Env GateCall)) : GateConfig :=
  (Config.init db).run machine (gateCall r fanOut pending) choices

/-- The run changes no status that ends a command. -/
def EndedStay (db : Db) (choices : List (Choice Env GateCall)) : Prop :=
  Meets machine (gateCall r fanOut pending) KeepsEnded (Config.init db) choices

end

/-! ## The verdict -/

/-- The listed commands as they are. -/
def gateCommands (db : Db) (ids : List CommandId) : List IngressGateCommand :=
  ids.filterMap fun id =>
    (db.commands[id]?).map fun command => ⟨id, command.spec.serverId, command.status⟩

/-- All of them are over. -/
def AllOver (commands : List IngressGateCommand) : Prop :=
  ∀ entry ∈ commands, entry.status.terminal = true

/-- The servers that must confirm, and of which no listed command succeeded. -/
def notRepointed (required : List ServerId) (commands : List IngressGateCommand) : List ServerId :=
  required.filter fun serverId =>
    !commands.any fun entry => entry.status == .succeeded && entry.serverId == serverId

/-- Members that are primary. -/
def writers (members : List ManagedMemberRow) : ℕ :=
  (members.filter fun row => row.role == .primary).length

theorem decideIngressGate_eq (required : List ServerId) (commands : List IngressGateCommand) :
    decideIngressGate required commands =
      if commands.any fun entry => !entry.status.terminal then .wait
      else if notRepointed required commands = [] then .complete
      else .degraded (notRepointed required commands) := by
  have hmissing : required.filter (· ∉ (commands.filter fun entry => entry.status == .succeeded).map
      (·.serverId)) = notRepointed required commands := by
    refine filter_congr fun serverId _ => ?_
    rw [Bool.eq_iff_iff]
    simp
  rw [decideIngressGate]
  simp only [hmissing, length_eq_zero_iff]

theorem not_any_live {commands : List IngressGateCommand} :
    (commands.any fun entry => !entry.status.terminal) = false ↔ AllOver commands := by
  simp [AllOver]

/-! ## What a judgement does -/

section

variable (r : RecoveryId) (fanOut : ManagedIngressFanOutOutcome) (pending : List ServerId)

/-- What a call may decide under the lock, after what it has read. -/
inductive GateDecides (h : Trace Op Ans) : RecoveryId → Decision → Prop where
  | park : GateDecides h r (.parkAtIngressGate fanOut.commandIds fanOut.requiredServerIds pending)
  | verify {row : RecoveryRecord} {commands : List IngressGateCommand} {members : List ManagedMemberRow}
      (read : ⟨.findRecoveryById r, some row⟩ ∈ h) (parked : row.state = .reconcilingIngress)
      (loaded : ⟨.loadGateCommands (row.metadata.ingressCommandIds.getD []), commands⟩ ∈ h)
      (complete : decideIngressGate (row.metadata.ingressServerIds.getD []) commands = .complete)
      (counted : ⟨.listManagedMembers row.managedId, members⟩ ∈ h) :
      GateDecides h row.id (.verifyIngress (writers members))
  | degrade {row : RecoveryRecord} {commands : List IngressGateCommand} {serverIds : List ServerId}
      {reason : String} (read : ⟨.findRecoveryById r, some row⟩ ∈ h)
      (parked : row.state = .reconcilingIngress)
      (loaded : ⟨.loadGateCommands (row.metadata.ingressCommandIds.getD []), commands⟩ ∈ h)
      (degraded : decideIngressGate (row.metadata.ingressServerIds.getD []) commands =
        .degraded serverIds) : GateDecides h row.id (.degradeIngress serverIds reason)

/-- The statements of these calls. -/
def GateContract (h : Trace Op Ans) : Op → Prop
  | .updateRecoveryLocked id decision => GateDecides r fanOut pending h id decision
  | .findRecoveryById _ => True
  | .loadGateCommands _ => True
  | .listManagedMembers _ => True
  | .loadServerNames _ => True
  | .reported _ _ => True
  | .flipRoles _ _ _ => True
  | _ => False

abbrev Judges {α : Type} (p : Proc α) (h : Trace Op Ans) : Prop :=
  p.Sat (fun _ _ => True) (GateContract r fanOut pending) (fun _ _ => True) h

theorem judges_evaluateIngressGate (h : Trace Op Ans) :
    Judges r fanOut pending (evaluateIngressGate r) h := by
  refine ⟨trivial, fun found _ => ?_⟩
  cases found with
  | none => trivial
  | some row =>
    change Judges r fanOut pending (judgeIngressGate row) _
    unfold judgeIngressGate
    split
    · trivial
    · rename_i hparked
      refine ⟨trivial, fun commands _ => ?_⟩
      change Judges r fanOut pending (settleIngressGate row _) _
      cases hdecision : decideIngressGate (row.metadata.ingressServerIds.getD []) commands with
      | wait => trivial
      | complete =>
        refine ⟨trivial, fun members _ => ⟨@GateDecides.verify r fanOut pending _ row commands members
          ?_ (not_not.1 hparked) ?_ hdecision ?_, fun _ _ => trivial⟩⟩ <;> simp
      | degraded serverIds =>
        refine ⟨trivial, fun names _ => ⟨@GateDecides.degrade r fanOut pending _ row commands serverIds _
          ?_ (not_not.1 hparked) ?_ hdecision, fun _ _ => trivial⟩⟩ <;> simp

theorem judges_gateCall (x : GateCall) : Judges r fanOut pending (gateCall r fanOut pending x) [] := by
  cases x with
  | evaluate => exact judges_evaluateIngressGate r fanOut pending []
  | park => exact ⟨.park, fun _ _ => judges_evaluateIngressGate r fanOut pending _⟩
  | report commandId status => exact ⟨trivial, fun _ _ => trivial⟩
  | flipRoles managedId promoted demoted => exact ⟨trivial, fun _ _ => trivial⟩

end

/-! ## What has been read -/

theorem transition_same {command : CommandRecord} {status : CommandStatus} (now : Time)
    (hover : command.status.terminal = true) (hsame : status = command.status) :
    (command.transition status now).status = command.status ∧
      (command.transition status now).spec = command.spec := by
  rw [CommandRecord.transition, hsame, hover]
  exact ⟨rfl, rfl⟩

theorem gateCommands_reported {db : Db} {ids : List CommandId} {commandId : CommandId}
    {status : CommandStatus} (now : Time) (hkeep : ∀ command, db.commands[commandId]? = some command →
      command.status.terminal = true → status = command.status)
    (hover : AllOver (gateCommands db ids)) :
    gateCommands { db with
      commands := db.commands.modify commandId (CommandRecord.transition status now) } ids =
      gateCommands db ids := by
  refine filterMap_congr fun id hid => ?_
  rw [getElem?_modify]
  cases hcommand : db.commands[id]? with
  | none => rfl
  | some command =>
    by_cases hsame : commandId = id
    · subst hsame
      have hentry : (⟨commandId, command.spec.serverId, command.status⟩ : IngressGateCommand) ∈
          gateCommands db ids := mem_filterMap.2 ⟨commandId, hid, by rw [hcommand]; rfl⟩
      obtain ⟨hstatus, hspec⟩ := transition_same now (hover _ hentry)
        (hkeep command hcommand (hover _ hentry))
      simp [hstatus, hspec]
    · simp [hsame]

section

variable (r : RecoveryId) (fanOut : ManagedIngressFanOutOutcome) (pending : List ServerId)
  (managedId : ManagedId)

/-- The row lists the commands and the servers of the fan-out. -/
def Lists (row : RecoveryRecord) : Prop :=
  row.metadata.ingressCommandIds = some fanOut.commandIds ∧
    row.metadata.ingressServerIds = some fanOut.requiredServerIds

/-- The servers whose ingress is not repointed, by the commands as they are. -/
def missing (db : Db) : List ServerId :=
  notRepointed fanOut.requiredServerIds (gateCommands db fanOut.commandIds)

/-- An answer that has not aged. -/
def Fresh (db : Db) : (o : Op) → Ans o → Prop
  | .findRecoveryById id, found => id = r → ∀ row, found = some row → row.state = .reconcilingIngress →
      Lists fanOut row ∧ row.id = r ∧ row.managedId = managedId
  | .loadGateCommands ids, commands => ids = fanOut.commandIds → AllOver commands →
      commands = gateCommands db fanOut.commandIds
  | _, _ => True

/-- A judgement counted `n` primaries, and decided with that under the lock. -/
def Counted (n : ℕ) (w : World Op Ans Db) : Prop :=
  ∃ i before ans after members, w.log = before ++ ⟨i, .updateRecoveryLocked r (.verifyIngress n), ans⟩ ::
    after ∧ ⟨.listManagedMembers managedId, members⟩ ∈ own i before ∧ writers members = n

/-- A row that was settled, by the commands as they are. -/
inductive Verdict (w : World Op Ans Db) (row : RecoveryRecord) : Prop where
  | verified {n : ℕ} (all : missing fanOut w.state = []) (counted : Counted r managedId n w)
      (completed : n = 1 → row.state = .completed) (failed : n ≠ 1 → row.state = .failed)
  | degraded (left : missing fanOut w.state ≠ []) (failed : row.state = .failed)
      (named : row.metadata.ingressNotRepointed = some (missing fanOut w.state))

/-- The row waits, with the lists of the fan-out where it is parked; or the verdict has been given.
-/
def Judged (w : World Op Ans Db) (row : RecoveryRecord) : Prop :=
  (row.state.terminal = false ∧ (row.state = .reconcilingIngress → Lists fanOut row)) ∨
    row.state.terminal = true ∧ AllOver (gateCommands w.state fanOut.commandIds) ∧
      Verdict r fanOut managedId w row

structure Sound (w : World Op Ans Db) : Prop where
  row : ∃ row, w.state.recoveries[r]? = some row ∧ row.id = r ∧ row.managedId = managedId ∧
    Judged r fanOut managedId w row
  fresh : ∀ ev ∈ w.log, Fresh r fanOut managedId w.state ev.op ev.ans

variable {r fanOut pending managedId} {w : World Op Ans Db}

theorem Counted.push {n : ℕ} (h : Counted r managedId n w) (i : ℕ) (o : Op) (ans : Ans o) (s : Db) :
    Counted r managedId n (w.push i o ans s) := by
  obtain ⟨j, before, ans', after, members, hlog, hmem, hn⟩ := h
  refine ⟨j, before, ans', after ++ [⟨i, o, ans⟩], members, ?_, hmem, hn⟩
  rw [World.push, hlog, append_assoc, cons_append]

variable {o : Op}

theorem Fresh.mono {db db' : Db} (hsame : AllOver (gateCommands db fanOut.commandIds) →
      gateCommands db' fanOut.commandIds = gateCommands db fanOut.commandIds) {ans : Ans o}
    (h : Fresh r fanOut managedId db o ans) : Fresh r fanOut managedId db' o ans := by
  cases o with
  | loadGateCommands ids =>
    intro hids hover
    have heq := h hids hover
    rw [hsame (heq ▸ hover)]
    exact heq
  | _ => exact h

variable {row : RecoveryRecord} {patch : RecoveryPatch} {commands : List IngressGateCommand} {now : Time}

variable {i : ℕ} {s : Db}

theorem Judged.push {ans : Ans o} (h : Judged r fanOut managedId w row)
    (hsame : AllOver (gateCommands w.state fanOut.commandIds) →
      gateCommands s fanOut.commandIds = gateCommands w.state fanOut.commandIds) :
    Judged r fanOut managedId (w.push i o ans s) row := by
  obtain hwaits | ⟨hterminal, hover, hverdict⟩ := h
  · exact .inl hwaits
  · have heq := hsame hover
    have hmissing : missing fanOut s = missing fanOut w.state := by rw [missing, missing, heq]
    refine .inr ⟨hterminal, ?_, ?_⟩
    · rw [World.push, heq]
      exact hover
    · cases hverdict with
      | verified all counted completed failed =>
        exact .verified (hmissing.trans all) (counted.push i o ans s) completed failed
      | degraded left failed named =>
        exact .degraded (hmissing ▸ left) failed (by rw [named, World.push, hmissing])

theorem Sound.push (h : Sound r fanOut managedId w) {ans : Ans o}
    (hrow : s.recoveries = w.state.recoveries)
    (hsame : AllOver (gateCommands w.state fanOut.commandIds) →
      gateCommands s fanOut.commandIds = gateCommands w.state fanOut.commandIds)
    (hfresh : Fresh r fanOut managedId s o ans) : Sound r fanOut managedId (w.push i o ans s) := by
  obtain ⟨row, hget, hid, hmanaged, hjudged⟩ := h.row
  refine ⟨⟨row, ?_, hid, hmanaged, hjudged.push hsame⟩, fun ev hev => ?_⟩
  · rw [World.push, hrow]
    exact hget
  · rcases mem_append.1 hev with hev | hev
    · exact (h.fresh ev hev).mono hsame
    · rw [mem_singleton.1 hev]
      exact hfresh

theorem Sound.write (h : Sound r fanOut managedId w) {i : ℕ} {decision : Decision} {now : Time}
    {ans : Option RecoveryRecord} {s : Db} (hexec : w.state.updateLocked r decision now = some (ans, s))
    (hjudged : ∀ row patch, w.state.recoveries[r]? = some row → Judged r fanOut managedId w row →
      decision.apply row now = some patch → s.commands = w.state.commands →
      Judged r fanOut managedId (w.push i (.updateRecoveryLocked r decision) ans s)
        (row.patch patch now)) :
    Sound r fanOut managedId (w.push i (.updateRecoveryLocked r decision) ans s) := by
  obtain ⟨-, rfl⟩ | ⟨row, patch, hget, happly, -, rfl⟩ := Db.updateLocked_eq_some hexec
  · exact h.push rfl (fun _ => rfl) trivial
  · obtain ⟨row', hget', hid, hmanaged, hrow⟩ := h.row
    cases hget.symm.trans hget'
    refine ⟨⟨row.patch patch now, ?_, hid, hmanaged, hjudged row patch hget hrow happly rfl⟩,
      fun ev hev => ?_⟩
    · have hlt := (List.getElem?_eq_some_iff.1 hget).1
      exact getElem?_set_self hlt
    · rcases mem_append.1 hev with hev | hev
      · exact (h.fresh ev hev).mono fun _ => rfl
      · rw [mem_singleton.1 hev]
        trivial

theorem Sound.loaded (h : Sound r fanOut managedId w) (hread : ⟨.findRecoveryById r, some row⟩ ∈ own i w.log)
    (hparked : row.state = .reconcilingIngress)
    (hloaded : ⟨.loadGateCommands (row.metadata.ingressCommandIds.getD []), commands⟩ ∈ own i w.log)
    (hover : AllOver commands) : row.id = r ∧ row.managedId = managedId ∧
      row.metadata.ingressServerIds.getD [] = fanOut.requiredServerIds ∧
        commands = gateCommands w.state fanOut.commandIds := by
  obtain ⟨⟨hcommands, hservers⟩, hid, hmanaged⟩ :=
    h.fresh _ (mem_own.1 hread) rfl row rfl hparked
  rw [hcommands, Option.getD_some] at hloaded
  exact ⟨hid, hmanaged, by rw [hservers, Option.getD_some],
    h.fresh _ (mem_own.1 hloaded) rfl hover⟩

theorem decideIngressGate_complete {required : List ServerId} (h : decideIngressGate required commands = .complete) :
    AllOver commands ∧ notRepointed required commands = [] := by
  rw [decideIngressGate_eq] at h
  split_ifs at h with hlive hnone
  exact ⟨not_any_live.1 (by simpa using hlive), hnone⟩

variable {serverIds : List ServerId}

theorem decideIngressGate_degraded {required : List ServerId}
    (h : decideIngressGate required commands = .degraded serverIds) :
    AllOver commands ∧ notRepointed required commands ≠ [] ∧
      serverIds = notRepointed required commands := by
  rw [decideIngressGate_eq] at h
  split_ifs at h with hlive hnone
  exact ⟨not_any_live.1 (by simpa using hlive), hnone, (IngressGateDecision.degraded.inj h).symm⟩

theorem apply_eq_some {decision : Decision} (hkind : decision.includeTerminal = false)
    (h : decision.apply row now = some patch) :
    row.state.terminal = false ∧ decision.decide row now = some patch := by
  rw [Decision.apply, hkind] at h
  split_ifs at h with hterminal
  exact ⟨by simpa using hterminal, h⟩

theorem decide_verifyIngress {n : ℕ} (h : (Decision.verifyIngress n).decide row now = some patch) :
    (n = 1 → patch.state = some .completed) ∧ (n ≠ 1 → patch.state = some .failed) := by
  change (if row.state = .reconcilingIngress then some _ else none) = some patch at h
  split_ifs at h
  rw [← Option.some.inj h]
  change (n = 1 → some (nextStateAfterVerify n row.metadata).state = _) ∧
    (n ≠ 1 → some (nextStateAfterVerify n row.metadata).state = _)
  rw [nextStateAfterVerify]
  split_ifs with hn <;> simp [hn]

theorem decide_degradeIngress {reason : String}
    (h : (Decision.degradeIngress serverIds reason).decide row now = some patch) :
    patch.state = some .failed ∧ patch.metadata.bind (·.ingressNotRepointed) = some serverIds := by
  change (if row.state = .reconcilingIngress then some _ else none) = some patch at h
  split_ifs at h
  rw [← Option.some.inj h]
  exact ⟨rfl, rfl⟩

theorem patch_ingressNotRepointed
    (h : patch.metadata.bind (·.ingressNotRepointed) = some serverIds) :
    (row.patch patch now).metadata.ingressNotRepointed = some serverIds := by
  obtain ⟨metadata, hmetadata, hservers⟩ := Option.bind_eq_some_iff.1 h
  rw [RecoveryRecord.patch, hmetadata]
  exact hservers

theorem patch_to_state {state : RecoveryState} (h : patch.state = some state) :
    (row.patch patch now).state = state := by
  rw [RecoveryRecord.patch, h]
  rfl

theorem Sound.locked (h : Sound r fanOut managedId w) {id : RecoveryId} {decision : Decision}
    {ans : Option RecoveryRecord} (hdecides : GateDecides r fanOut pending (own i w.log) id decision)
    (hexec : w.state.updateLocked id decision now = some (ans, s)) :
    Sound r fanOut managedId (w.push i (.updateRecoveryLocked id decision) ans s) := by
  cases hdecides with
  | park =>
    refine h.write hexec fun row patch _ _ happly _ => .inl ?_
    have hpatch := Option.some.inj (apply_eq_some rfl happly).2
    rw [← hpatch]
    exact ⟨rfl, fun _ => ⟨rfl, rfl⟩⟩
  | @verify found commands members read parked loaded complete counted =>
    obtain ⟨hover, hnone⟩ := decideIngressGate_complete complete
    obtain ⟨hid, hmanaged, hservers, rfl⟩ := h.loaded read parked loaded hover
    rw [hservers] at hnone
    rw [hid] at hexec ⊢
    rw [hmanaged] at counted
    refine h.write hexec fun row patch _ _ happly hcommands => .inr ?_
    obtain ⟨hone, hother⟩ := decide_verifyIngress (apply_eq_some rfl happly).2
    have hsame : gateCommands s fanOut.commandIds = gateCommands w.state fanOut.commandIds := by
      rw [gateCommands, gateCommands, hcommands]
    refine ⟨?_, by rw [World.push, hsame]; exact hover, .verified (n := writers members) ?_ ?_
      (fun hn => patch_to_state (hone hn)) fun hn => patch_to_state (hother hn)⟩
    · by_cases hn : writers members = 1
      · rw [patch_to_state (hone hn)]
        rfl
      · rw [patch_to_state (hother hn)]
        rfl
    · rw [missing, World.push, hsame]
      exact hnone
    · exact ⟨i, w.log, ans, [], members, rfl, counted, rfl⟩
  | degrade read parked loaded degraded =>
    obtain ⟨hover, hleft, rfl⟩ := decideIngressGate_degraded degraded
    obtain ⟨hid, hmanaged, hservers, rfl⟩ := h.loaded read parked loaded hover
    rw [hservers] at hleft hexec ⊢
    rw [hid] at hexec ⊢
    refine h.write hexec fun row patch _ _ happly hcommands => .inr ?_
    obtain ⟨hfailed, hnamed⟩ := decide_degradeIngress (apply_eq_some rfl happly).2
    have hsame : gateCommands s fanOut.commandIds = gateCommands w.state fanOut.commandIds := by
      rw [gateCommands, gateCommands, hcommands]
    refine ⟨by rw [patch_to_state hfailed]; rfl, by rw [World.push, hsame]; exact hover,
      .degraded ?_ (patch_to_state hfailed) ?_⟩
    · rw [missing, World.push, hsame]
      exact hleft
    · rw [missing, World.push, hsame]
      exact patch_ingressNotRepointed hnamed

/-- **Every statement of these calls keeps the gate sound.** -/
theorem Sound.exec (h : Sound r fanOut managedId w) {e : Env} {ans : Ans o}
    (hkeep : KeepsEnded i w o) (hcontract : GateContract r fanOut pending (own i w.log) o)
    (hexec : machine.exec i e o w.state = some (ans, s)) :
    Sound r fanOut managedId (w.push i o ans s) := by
  cases o with
  | findRecoveryById id =>
    cases hexec
    refine h.push rfl (fun _ => rfl) ?_
    rintro rfl row hfound hparked
    obtain ⟨row', hget, hid, hmanaged, hjudged⟩ := h.row
    cases hget.symm.trans hfound
    obtain ⟨-, hlists⟩ | ⟨hterminal, -⟩ := hjudged
    · exact ⟨hlists hparked, hid, hmanaged⟩
    · rw [hparked] at hterminal
      cases hterminal
  | loadGateCommands ids =>
    cases hexec
    refine h.push rfl (fun _ => rfl) ?_
    rintro rfl _
    rfl
  | listManagedMembers id =>
    cases hexec
    exact h.push rfl (fun _ => rfl) trivial
  | loadServerNames serverIds =>
    cases hexec
    exact h.push rfl (fun _ => rfl) trivial
  | reported commandId status =>
    cases hexec
    exact h.push rfl (gateCommands_reported e.now (hkeep commandId status rfl)) trivial
  | flipRoles id promoted demoted =>
    cases hexec
    exact h.push rfl (fun _ => rfl) trivial
  | updateRecoveryLocked id decision => exact h.locked hcontract hexec
  | _ => exact absurd hcontract not_false

end

/-! ## Later worlds -/

section

variable (r : RecoveryId) (fanOut : ManagedIngressFanOutOutcome)

/-- What stays from a world on: a row that is settled, and one that is parked until it is; and
commands that are all over. -/
structure Later (w w' : World Op Ans Db) : Prop where
  row : ∀ row, w.state.recoveries[r]? = some row → ∃ row', w'.state.recoveries[r]? = some row' ∧
    (row.state.terminal = true → row' = row) ∧ (row.state = .reconcilingIngress →
      row'.state = .reconcilingIngress ∨ row'.state.terminal = true)
  commands : AllOver (gateCommands w.state fanOut.commandIds) →
    gateCommands w'.state fanOut.commandIds = gateCommands w.state fanOut.commandIds

variable {r fanOut} {pending : List ServerId} {managedId : ManagedId} {w w' w'' : World Op Ans Db}

theorem Later.refl (w : World Op Ans Db) : Later r fanOut w w :=
  ⟨fun row hget => ⟨row, hget, fun _ => rfl, .inl⟩, fun _ => rfl⟩

theorem Later.trans (h : Later r fanOut w w') (h' : Later r fanOut w' w'') : Later r fanOut w w'' := by
  refine ⟨fun row hget => ?_, fun hover => ?_⟩
  · obtain ⟨row', hget', hterminal, hparked⟩ := h.row row hget
    obtain ⟨row'', hget'', hterminal', hparked'⟩ := h'.row row' hget'
    refine ⟨row'', hget'', fun hend => ?_, fun hwait => ?_⟩
    · obtain rfl := hterminal hend
      exact hterminal' hend
    · rcases hparked hwait with hwait' | hend
      · exact hparked' hwait'
      · rw [hterminal' hend]
        exact .inr hend
  · have heq := h.commands hover
    rw [h'.commands (heq ▸ hover), heq]

theorem GateDecides.state {h : Trace Op Ans} {id : RecoveryId} {decision : Decision}
    (hdecides : GateDecides r fanOut pending h id decision) {row : RecoveryRecord} {now : Time}
    {patch : RecoveryPatch} (happly : decision.apply row now = some patch) :
    row.state.terminal = false ∧ ((row.patch patch now).state = .reconcilingIngress ∨
      (row.patch patch now).state.terminal = true) := by
  cases hdecides with
  | park =>
    obtain ⟨hlive, hdecide⟩ := apply_eq_some rfl happly
    refine ⟨hlive, .inl ?_⟩
    rw [← Option.some.inj hdecide]
    rfl
  | @verify _ _ members =>
    obtain ⟨hlive, hdecide⟩ := apply_eq_some rfl happly
    obtain ⟨hone, hother⟩ := decide_verifyIngress hdecide
    refine ⟨hlive, .inr ?_⟩
    by_cases hn : writers members = 1
    · rw [patch_to_state (hone hn)]
      rfl
    · rw [patch_to_state (hother hn)]
      rfl
  | degrade =>
    obtain ⟨hlive, hdecide⟩ := apply_eq_some rfl happly
    refine ⟨hlive, .inr ?_⟩
    rw [patch_to_state (decide_degradeIngress hdecide).1]
    rfl

theorem later_exec {i : ℕ} {e : Env} {o : Op} {ans : Ans o} {s : Db} (hkeep : KeepsEnded i w o)
    (hcontract : GateContract r fanOut pending (own i w.log) o)
    (hexec : machine.exec i e o w.state = some (ans, s)) : Later r fanOut w (w.push i o ans s) := by
  have hsame : s = w.state → Later r fanOut w (w.push i o ans s) := by
    rintro rfl
    exact ⟨fun row hget => ⟨row, hget, fun _ => rfl, .inl⟩, fun _ => rfl⟩
  cases o with
  | findRecoveryById id => exact hsame (Prod.mk.inj (Option.some.inj hexec)).2.symm
  | loadGateCommands ids => exact hsame (Prod.mk.inj (Option.some.inj hexec)).2.symm
  | listManagedMembers id => exact hsame (Prod.mk.inj (Option.some.inj hexec)).2.symm
  | loadServerNames serverIds => exact hsame (Prod.mk.inj (Option.some.inj hexec)).2.symm
  | reported commandId status =>
    cases hexec
    exact ⟨fun row hget => ⟨row, hget, fun _ => rfl, .inl⟩,
      gateCommands_reported e.now (hkeep commandId status rfl)⟩
  | flipRoles id promoted demoted =>
    cases hexec
    exact ⟨fun row hget => ⟨row, hget, fun _ => rfl, .inl⟩, fun _ => rfl⟩
  | updateRecoveryLocked id decision =>
    obtain ⟨-, rfl⟩ | ⟨row, patch, hget, happly, -, rfl⟩ := Db.updateLocked_eq_some hexec
    · exact hsame rfl
    · obtain ⟨hlive, hstate⟩ := hcontract.state happly
      refine ⟨fun row' hget' => ?_, fun _ => rfl⟩
      by_cases hid : id = r
      · subst hid
        cases hget.symm.trans hget'
        refine ⟨row.patch patch e.now, ?_, fun hend => ?_, fun _ => hstate⟩
        · exact getElem?_set_self (List.getElem?_eq_some_iff.1 hget).1
        · rw [hlive] at hend
          cases hend
      · refine ⟨row', ?_, fun _ => rfl, .inl⟩
        rw [World.push]
        dsimp only
        rw [getElem?_set_ne hid]
        exact hget'
  | _ => exact absurd hcontract not_false

end

/-! ## A judgement that runs to its end -/

section

variable (r : RecoveryId) (fanOut : ManagedIngressFanOutOutcome)

/-- A judgement that has found the row parked and no command live is on its way to the lock. -/
inductive GateStage : Proc Unit → Prop
  | find : GateStage (evaluateIngressGate r)
  | load {row : RecoveryRecord} (parked : row.state = .reconcilingIngress) (lists : Lists fanOut row)
      (id : row.id = r) : GateStage (judgeIngressGate row)
  | settle {row : RecoveryRecord} {decision : IngressGateDecision} (judged : decision ≠ .wait)
      (id : row.id = r) : GateStage (settleIngressGate row decision)
  | write {decision : Decision} (ends : ∀ current now, current.state = .reconcilingIngress →
      ∃ patch, decision.apply current now = some patch ∧ (current.patch patch now).state.terminal = true) :
      GateStage (ask (.updateRecoveryLocked r decision) >>= fun _ => pure ())

/-- The row is settled. -/
def Settled (db : Db) : Prop :=
  ∃ row, db.recoveries[r]? = some row ∧ row.state.terminal = true

variable {r fanOut} {managedId : ManagedId} {w : World Op Ans Db}

theorem gateStage_ne_pure (h : GateStage r fanOut (.pure ())) : False := by
  generalize hp : (.pure () : Proc Unit) = p at h
  cases h with
  | find => cases hp
  | load parked lists id =>
    rw [judgeIngressGate, if_neg (not_not.2 parked)] at hp
    cases hp
  | @settle row decision judged id =>
    cases decision with
    | wait => exact judged rfl
    | complete => cases hp
    | degraded serverIds => cases hp
  | write ends => cases hp

theorem verifyIngress_ends (n : ℕ) {current : RecoveryRecord} (now : Time)
    (hparked : current.state = .reconcilingIngress) : ∃ patch,
      (Decision.verifyIngress n).apply current now = some patch ∧
        (current.patch patch now).state.terminal = true := by
  have happly : (Decision.verifyIngress n).apply current now =
      (Decision.verifyIngress n).decide current now := by
    rw [Decision.apply, hparked]
    rfl
  have hdecide : ∃ patch, (Decision.verifyIngress n).decide current now = some patch := by
    rw [Decision.decide, if_pos hparked]
    exact ⟨_, rfl⟩
  obtain ⟨patch, hpatch⟩ := hdecide
  refine ⟨patch, happly.trans hpatch, ?_⟩
  obtain ⟨hone, hother⟩ := decide_verifyIngress hpatch
  by_cases hn : n = 1
  · rw [patch_to_state (hone hn)]
    rfl
  · rw [patch_to_state (hother hn)]
    rfl

theorem degradeIngress_ends (serverIds : List ServerId) (reason : String) {current : RecoveryRecord}
    (now : Time) (hparked : current.state = .reconcilingIngress) : ∃ patch,
      (Decision.degradeIngress serverIds reason).apply current now = some patch ∧
        (current.patch patch now).state.terminal = true := by
  have happly : (Decision.degradeIngress serverIds reason).apply current now =
      (Decision.degradeIngress serverIds reason).decide current now := by
    rw [Decision.apply, hparked]
    rfl
  have hdecide : ∃ patch, (Decision.degradeIngress serverIds reason).decide current now = some patch := by
    rw [Decision.decide, if_pos hparked]
    exact ⟨_, rfl⟩
  obtain ⟨patch, hpatch⟩ := hdecide
  refine ⟨patch, happly.trans hpatch, ?_⟩
  rw [patch_to_state (decide_degradeIngress hpatch).1]
  rfl

theorem decideIngressGate_ne_wait {required : List ServerId} {commands : List IngressGateCommand}
    (hover : AllOver commands) : decideIngressGate required commands ≠ .wait := by
  rw [decideIngressGate_eq, if_neg (by rw [not_any_live.2 hover]; exact Bool.false_ne_true)]
  split_ifs <;> exact nofun

/-- **Each statement of such a judgement leads to the next**, or the row is settled. -/
theorem GateStage.exec {p : Proc Unit} (h : GateStage r fanOut p) (hsound : Sound r fanOut managedId w)
    (hover : AllOver (gateCommands w.state fanOut.commandIds)) {o : Op} {next : Ans o → Proc Unit}
    (hp : p = .op o next) {i : ℕ} {e : Env} {ans : Ans o} {s : Db}
    (hparked : ∃ row, w.state.recoveries[r]? = some row ∧ row.state = .reconcilingIngress)
    (hexec : machine.exec i e o w.state = some (ans, s)) : Settled r s ∨ GateStage r fanOut (next ans) := by
  obtain ⟨row, hget, hstate⟩ := hparked
  cases h with
  | find =>
    cases hp
    cases hexec
    obtain ⟨row', hget', hid, -, hjudged⟩ := hsound.row
    cases hget.symm.trans hget'
    obtain ⟨-, hlists⟩ | ⟨hterminal, -⟩ := hjudged
    · rw [hget]
      exact .inr (.load hstate (hlists hstate) hid)
    · rw [hstate] at hterminal
      cases hterminal
  | @load found parked lists id =>
    rw [judgeIngressGate, if_neg (not_not.2 parked)] at hp
    cases hp
    cases hexec
    refine .inr (.settle (decideIngressGate_ne_wait ?_) id)
    rw [lists.1]
    exact hover
  | @settle found decision judged id =>
    cases decision with
    | wait => exact absurd rfl judged
    | complete =>
      cases hp
      refine .inr ?_
      rw [← id]
      exact .write fun current now => verifyIngress_ends _ now
    | degraded serverIds =>
      cases hp
      refine .inr ?_
      rw [← id]
      exact .write fun current now => degradeIngress_ends serverIds _ now
  | @write decision ends =>
    cases hp
    refine .inl ?_
    change w.state.updateLocked r decision e.now = some (ans, s) at hexec
    obtain ⟨patch, happly, hterminal⟩ := ends row e.now hstate
    rw [Db.updateLocked, hget, Option.bind_some, happly] at hexec
    obtain ⟨hnone, -⟩ | ⟨row', hget', -, rfl⟩ := Db.update_eq_some hexec
    · rw [hget] at hnone
      cases hnone
    · cases hget.symm.trans hget'
      exact ⟨_, getElem?_set_self (List.getElem?_eq_some_iff.1 hget).1, hterminal⟩

end

/-! ## Runs -/

/-- The recovery before the run: it waits, and where it is parked, it lists the fan-out. -/
structure Waits (r : RecoveryId) (fanOut : ManagedIngressFanOutOutcome) (db : Db) (row : RecoveryRecord) :
    Prop where
  found : db.recoveries[r]? = some row
  id : row.id = r
  live : row.state.terminal = false
  lists : row.state = .reconcilingIngress → Lists fanOut row

/-- The row is parked. -/
def Parked (r : RecoveryId) (db : Db) : Prop :=
  ∃ row, db.recoveries[r]? = some row ∧ row.state = .reconcilingIngress

section

variable {r : RecoveryId} {fanOut : ManagedIngressFanOutOutcome} {pending : List ServerId} {db : Db}
  {row₀ : RecoveryRecord} (hwaits : Waits r fanOut db row₀)

include hwaits

theorem sound_init : Sound r fanOut row₀.managedId (Config.init db : GateConfig).world where
  row := ⟨row₀, hwaits.found, hwaits.id, rfl, .inl ⟨hwaits.live, hwaits.lists⟩⟩
  fresh _ hev := nomatch hev

theorem gateRun_keeps {choices : List (Choice Env GateCall)}
    (hended : EndedStay r fanOut pending db choices) :
    Obeys (fun _ _ => True) (GateContract r fanOut pending) (gateRun r fanOut pending db choices) ∧
      Sound r fanOut row₀.managedId (gateRun r fanOut pending db choices).world ∧
      Later r fanOut (Config.init db : GateConfig).world (gateRun r fanOut pending db choices).world :=
  Config.run_keeps (fun hsound hkeep hcontract hexec =>
      ⟨hsound.exec hkeep hcontract hexec, later_exec hkeep hcontract hexec⟩)
    (fun hsound => ⟨hsound, Later.refl _⟩) Later.refl (judges_gateCall r fanOut pending)
    (fun _ => trivial) Later.trans (obeys_init db) (sound_init hwaits) hended

theorem gateRun_later {before after : List (Choice Env GateCall)}
    (hended : EndedStay r fanOut pending db (before ++ after)) :
    Later r fanOut (gateRun r fanOut pending db before).world
      (gateRun r fanOut pending db (before ++ after)).world :=
  Config.run_keeps_between (fun hsound hkeep hcontract hexec =>
      ⟨hsound.exec hkeep hcontract hexec, later_exec hkeep hcontract hexec⟩)
    (fun hsound => ⟨hsound, Later.refl _⟩) Later.refl (judges_gateCall r fanOut pending)
    (fun _ => trivial) Later.trans (obeys_init db) (sound_init hwaits) hended

end

/-- The row is settled, or a judgement is on its way to settle it. -/
def OnItsWay (r : RecoveryId) (fanOut : ManagedIngressFanOutOutcome) (i : ℕ) (c : GateConfig) : Prop :=
  Settled r c.world.state ∨
    Parked r c.world.state ∧ ∃ p, c.threads[i]? = some p ∧ GateStage r fanOut p

section

variable {r : RecoveryId} {fanOut : ManagedIngressFanOutOutcome} {pending : List ServerId}
  {managedId : ManagedId} {i : ℕ} {c : GateConfig}

theorem Settled.later {w w' : World Op Ans Db} (h : Settled r w.state) (hlater : Later r fanOut w w') :
    Settled r w'.state := by
  obtain ⟨row, hget, hterminal⟩ := h
  obtain ⟨row', hget', hsame, -⟩ := hlater.row row hget
  exact ⟨row', hget', (hsame hterminal).symm ▸ hterminal⟩

theorem Parked.later {w w' : World Op Ans Db} (h : Parked r w.state) (hlater : Later r fanOut w w') :
    Parked r w'.state ∨ Settled r w'.state := by
  obtain ⟨row, hget, hparked⟩ := h
  obtain ⟨row', hget', -, hnext⟩ := hlater.row row hget
  exact (hnext hparked).imp (fun h => ⟨row', hget', h⟩) fun h => ⟨row', hget', h⟩

theorem OnItsWay.next (h : OnItsWay r fanOut i c)
    (hsound : Sound r fanOut managedId c.world)
    (hover : AllOver (gateCommands c.world.state fanOut.commandIds)) {choice : Choice Env GateCall}
    (hcrash : choice ≠ .crash i)
    (hlater : Later r fanOut c.world (c.next machine (gateCall r fanOut pending) choice).world) :
    OnItsWay r fanOut i (c.next machine (gateCall r fanOut pending) choice) := by
  obtain hsettled | ⟨hparked, p, hthread, hstage⟩ := h
  · exact .inl (hsettled.later hlater)
  rcases hparked.later hlater with hparked' | hsettled
  swap
  · exact .inl hsettled
  have hlt := (List.getElem?_eq_some_iff.1 hthread).1
  cases choice with
  | call x => exact .inr ⟨hparked', p, (getElem?_append_left hlt).trans hthread, hstage⟩
  | crash j =>
    have hji : j ≠ i := fun h => hcrash (h ▸ rfl)
    exact .inr ⟨hparked', p, (getElem?_set_ne hji).trans hthread, hstage⟩
  | step j e =>
    have hstay : OnItsWay r fanOut i c := .inr ⟨hparked, p, hthread, hstage⟩
    rw [Config.next] at hparked' ⊢
    split at hparked'
    · rename_i o next hj
      split at hparked'
      · rename_i ans s hexec
        by_cases hji : j = i
        · subst hji
          have hp := Option.some.inj (hthread.symm.trans hj)
          rcases hstage.exec hsound hover hp hparked hexec with hsettled | hnext
          · exact .inl hsettled
          · exact .inr ⟨hparked', next ans, getElem?_set_self hlt, hnext⟩
        · exact .inr ⟨hparked', p, (getElem?_set_ne hji).trans hthread, hstage⟩
      · exact hstay
    · exact hstay

/-- **A judgement that begins when the row is parked and no command is live settles the row**,
unless it has been settled before. -/
theorem OnItsWay.run (h : OnItsWay r fanOut i c)
    (hobeys : Obeys (fun _ _ => True) (GateContract r fanOut pending) c)
    (hsound : Sound r fanOut managedId c.world)
    (hover : AllOver (gateCommands c.world.state fanOut.commandIds)) {choices : List (Choice Env GateCall)}
    (hcrash : Choice.crash i ∉ choices)
    (hmeets : Meets machine (gateCall r fanOut pending) KeepsEnded c choices) :
    OnItsWay r fanOut i (c.run machine (gateCall r fanOut pending) choices) := by
  induction choices generalizing c with
  | nil => exact h
  | cons choice rest ih =>
    obtain ⟨hsound', hlater⟩ := Config.next_keeps (fun hsound hkeep hcontract hexec =>
        ⟨hsound.exec hkeep hcontract hexec, later_exec hkeep hcontract hexec⟩)
      (fun hsound => ⟨hsound, Later.refl _⟩) Later.refl hobeys hsound hmeets.1
    have hover' := hover
    rw [← hlater.commands hover] at hover'
    have hne : choice ≠ .crash i := fun heq => hcrash (heq ▸ mem_cons_self)
    exact ih (h.next hsound hover hne hlater)
      (hobeys.next (judges_gateCall r fanOut pending) (fun _ => trivial) choice) hsound' hover'
      (fun hmem => hcrash (mem_cons_of_mem _ hmem)) hmeets.2

end

/-- The members of a cluster that are primary. -/
def writersOf (db : Db) (managedId : ManagedId) : ℕ :=
  writers (db.members.filter (·.managedId == managedId))

theorem notRepointed_eq_nil {required : List ServerId} {commands : List IngressGateCommand}
    (h : notRepointed required commands = []) {serverId : ServerId} (hrequired : serverId ∈ required) :
    ∃ entry ∈ commands, entry.status = .succeeded ∧ entry.serverId = serverId := by
  have hsome := filter_eq_nil_iff.1 h serverId hrequired
  simpa using hsome

section

variable {r : RecoveryId} {fanOut : ManagedIngressFanOutOutcome} {pending : List ServerId} {db : Db}
  {managedId : ManagedId} {choices : List (Choice Env GateCall)}

theorem Counted.before {n : ℕ} (h : Counted r managedId n (gateRun r fanOut pending db choices).world) :
    ∃ before after, choices = before ++ after ∧
      writersOf (gateRun r fanOut pending db before).world.state managedId = n := by
  obtain ⟨i, earlier, ans, later, members, hlog, hmem, hn⟩ := h
  have hev := mem_own.1 hmem
  have hrun : ⟨i, .listManagedMembers managedId, members⟩ ∈
      (gateRun r fanOut pending db choices).world.log := by
    rw [hlog]
    exact mem_append_left _ hev
  obtain hinit | ⟨before, j, e, after, s, hchoices, hexec⟩ := Config.run_event _ _ hrun
  · cases hinit
  · refine ⟨before, _, hchoices, ?_⟩
    obtain ⟨hmembers, -⟩ := Prod.mk.inj (Option.some.inj hexec)
    rw [← hn]
    exact congrArg writers hmembers

variable {row₀ : RecoveryRecord}

/-- **The ingress gate is safe and settles once**, in every run of judgements, parkings, results and
role changes in which no status that ends a command changes. A completed row has, for each required
server, a listed command that succeeded, and the call that completed it had counted one primary. A
settled row was judged on commands that were all over, and names the servers that are not repointed.
Once it has left the gate, it stays as it is. A judgement that begins when it is parked and no
command is live settles it. -/
theorem ingress_gate_settles_once (hwaits : Waits r fanOut db row₀)
    (hended : EndedStay r fanOut pending db choices) :
    let run := gateRun r fanOut pending db
    let final := (run choices).world.state
    ∃ row, final.recoveries[r]? = some row ∧
      (row.state = .completed →
        (∀ serverId ∈ fanOut.requiredServerIds, ∃ entry ∈ gateCommands final fanOut.commandIds,
          entry.status = .succeeded ∧ entry.serverId = serverId) ∧
        Counted r row₀.managedId 1 (run choices).world ∧
        ∃ before after, choices = before ++ after ∧
          writersOf (run before).world.state row₀.managedId = 1) ∧
      (row.state.terminal = true → AllOver (gateCommands final fanOut.commandIds) ∧
        (missing fanOut final ≠ [] → row.state = .failed ∧
          row.metadata.ingressNotRepointed = some (missing fanOut final))) ∧
      (∀ before mid after, choices = before ++ mid ++ after → Parked r (run before).world.state →
        ¬Parked r (run (before ++ mid)).world.state →
          (run (before ++ mid)).world.state.recoveries[r]? = some row) ∧
      ∀ before after i, choices = before ++ after → Parked r (run before).world.state →
        AllOver (gateCommands (run before).world.state fanOut.commandIds) →
        (run before).threads[i]? = some (evaluateIngressGate r) → Choice.crash i ∉ after →
        (run choices).threads[i]? = some (.pure ()) → row.state.terminal = true := by
  intro run final
  obtain ⟨-, hsound, -⟩ := gateRun_keeps hwaits hended
  obtain ⟨row, hget, -, -, hjudged⟩ := hsound.row
  refine ⟨row, hget, fun hcompleted => ?_, fun hterminal => ?_, ?_, ?_⟩
  · obtain ⟨hlive, -⟩ | ⟨-, -, hverdict⟩ := hjudged
    · rw [hcompleted] at hlive
      cases hlive
    · cases hverdict with
      | @verified n all counted completed failed =>
        obtain rfl : n = 1 := by
          by_contra hn
          have hfailed := failed hn
          rw [hcompleted] at hfailed
          cases hfailed
        exact ⟨fun serverId hrequired => notRepointed_eq_nil all hrequired, counted, counted.before⟩
      | degraded left failed named =>
        rw [hcompleted] at failed
        cases failed
  · obtain ⟨hlive, -⟩ | ⟨-, hover, hverdict⟩ := hjudged
    · rw [hterminal] at hlive
      cases hlive
    · refine ⟨hover, fun hmissing => ?_⟩
      cases hverdict with
      | verified all => exact absurd all hmissing
      | degraded left failed named => exact ⟨failed, named⟩
  · rintro before mid after rfl hparked hleft
    obtain ⟨hmid, -⟩ := (meets_append machine _).1 hended
    obtain ⟨row', hget', hterminal⟩ :=
      (hparked.later (gateRun_later hwaits hmid)).resolve_left hleft
    obtain ⟨row'', hget'', hsame, -⟩ := (gateRun_later hwaits hended).row row' hget'
    cases hget.symm.trans hget''
    rw [hsame hterminal]
    exact hget'
  · rintro before after i rfl hparked hover hthread hcrash hend
    obtain ⟨hbefore, hafter⟩ := (meets_append machine _).1 hended
    obtain ⟨hobeys, hsoundBefore, -⟩ := gateRun_keeps hwaits hbefore
    have hway : OnItsWay r fanOut i (run before) := .inr ⟨hparked, _, hthread, .find⟩
    have hrun : OnItsWay r fanOut i (run (before ++ after)) := by
      change OnItsWay r fanOut i (Config.run machine (gateCall r fanOut pending) _ (before ++ after))
      rw [Config.run_append]
      exact hway.run hobeys hsoundBefore hover hcrash hafter
    obtain ⟨row', hget', hterminal⟩ | ⟨-, p, hp, hstage⟩ := hrun
    · cases hget.symm.trans hget'
      exact hterminal
    · cases hend.symm.trans hp
      exact (gateStage_ne_pure hstage).elim

end

/-- A recovery whose promote is done. -/
def promotedRow : RecoveryRecord where
  id := 0
  managedId := 0
  kind := .automaticFailover
  sourcePrimaryMemberId := 0
  targetMemberId := some 1
  state := .promoting
  startedAt := 0
  updatedAt := 0
  metadata := {}

/-- The proxy on one server has yet to be told. -/
def promotedDb : Db where
  recoveries := [promotedRow]
  commands := [⟨⟨5, .ingress, 0, 0, 1, some 0, none⟩, .sent, some 0⟩]
  members := [⟨0, 0, 4, .replica⟩, ⟨1, 0, 5, .primary⟩]
  status _ := none
  needsResync := []

/-- The result lands before the row is parked. -/
def promotedRun : List (Choice Env GateCall) :=
  [.call (.report 0 .succeeded), .step 0 {}, .call .park, .step 1 {}, .step 1 {}, .step 1 {}, .step 1 {},
    .step 1 {}]

theorem promoted_settles_once : ∃ row,
    (gateRun 0 ⟨[5], [0]⟩ [] promotedDb promotedRun).world.state.recoveries[0]? = some row ∧
      row.state = .completed ∧ ∃ before after, promotedRun = before ++ after ∧
        writersOf (gateRun 0 ⟨[5], [0]⟩ [] promotedDb before).world.state 0 = 1 := by
  have hwaits : Waits 0 ⟨[5], [0]⟩ promotedDb promotedRow := by
    refine ⟨rfl, rfl, rfl, fun h => ?_⟩
    cases h
  have hended : EndedStay 0 ⟨[5], [0]⟩ [] promotedDb promotedRun := by
    refine meets_call _ _ (meets_step _ _ rfl (fun id status ho command hcommand hover => ?_) ?_)
    · cases ho
      cases hcommand
      cases hover
    · refine meets_call _ _ ?_
      iterate 5 refine meets_step _ _ rfl (fun _ _ ho => nomatch ho) ?_
      trivial
  obtain ⟨row, hget, hcompleted, -⟩ := ingress_gate_settles_once hwaits hended
  have hstate : row.state = .completed := by
    cases hget
    rfl
  exact ⟨row, hget, hstate, (hcompleted hstate).2.2⟩

end TurboPanel.Recovery.IngressGate
