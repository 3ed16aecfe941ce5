import TurboPanel.Recovery.Ended
import Mathlib.Data.List.MinMax

/-!
# The restart of the old primary, and a cluster that has moved on

A restart is asked for before each command: whether the recovery is still the newest of the cluster,
and its source still the primary. The answer holds until another call begins a recovery or changes
the roles. Nothing in the code makes sure that none does between the answer and the command.
-/

namespace TurboPanel.Recovery

open CommandRecords (CommandStatus)
open Interleaving List

/-! ## A recovery whose restart is owed -/

/-- The recovery was fenced, it was never promoted, and it is over. -/
structure Aborted (w : World Op Ans Db) (r : RecoveryId) : Prop where
  never : ∀ row, Known w row → row.id = r → row.state ≠ .promoting
  ended : ∀ current ∈ w.state.recoveries, current.id = r → current.state.terminal = true
  fenced : ∃ row, Seen w.log row ∧ row.id = r ∧ row.metadata.fenceCommandIds.getD [] ≠ []

/-- What holds of the restarts in every world of a run. -/
structure Restarts (w : World Op Ans Db) : Prop where
  aborted : ∀ row, Known w row → row.metadata.abortRestartTodo ≠ none → Aborted w row.id
  promoted : ∀ i r m, Promotes w.log i r m → m.abortRestartTodo = none
  /-- Once a restart was seen, the recovery was not seen live. -/
  ended : ∀ before after, w.log = before ++ after → ∀ row, Seen before row → row.metadata.abortRestartTodo ≠ none →
    ∀ ev ∈ after, ¬Holds row.id ⟨ev.op, ev.ans⟩

theorem restarts_init (members : List ManagedMemberRow) :
    Restarts (Config.init (Db.fresh members) : Config Op Ans Db).world where
  aborted _ hknown := by
    obtain hmem | ⟨_, hev, _⟩ := hknown
    · cases hmem
    · cases hev
  promoted _ _ _ hp := by
    obtain ⟨_, hev⟩ := hp
    cases hev
  ended before after hlog _ _ _ ev hev := by
    rw [(append_eq_nil_iff.1 hlog.symm).2] at hev
    cases hev

section

variable {i : ℕ} {e : Env} {o : Op} {w : World Op Ans Db} {ans : Ans o} {s' : Db}

variable {row : RecoveryRecord} {patch : RecoveryPatch}

theorem Journal.write_aborted (hw : Journal w)
    (hwrites : Writes row (own i w.log) patch) (haborted : Aborted w row.id) : patch.state = none := by
  obtain ⟨hbegan, huntouched⟩ | ⟨-, -, hnone, -⟩ := hw.write_begun hwrites haborted.never
  · obtain ⟨row', hseen, hid, hids⟩ := haborted.fenced
    exact absurd (hw.untouched i row hbegan huntouched row' (.inr hseen) hid).ids hids
  · exact hnone

variable {r : RecoveryId}

theorem Aborted.push (hw : Journal w) (haborted : Aborted w r)
    (hmove : RowMove o ans w.state.recoveries s'.recoveries) (hcontract : Contract (own i w.log) o) :
    Aborted (w.push i o ans s') r := by
  have hlt : r < w.state.recoveries.length := by
    obtain ⟨row, hseen, rfl, -⟩ := haborted.fenced
    exact known_lt hw (.inr hseen)
  have hfenced : ∃ row, Seen (w.push i o ans s').log row ∧ row.id = r ∧
      row.metadata.fenceCommandIds.getD [] ≠ [] := by
    obtain ⟨row, hseen, hrow⟩ := haborted.fenced
    exact ⟨row, hseen.mono push_grows, hrow⟩
  cases hmove with
  | same heq hseen =>
    exact ⟨fun row hknown => haborted.never row (known_same heq hseen hknown),
      fun current hcurrent => haborted.ended current (heq ▸ hcurrent), hfenced⟩
  | insert params now hev heq =>
    refine ⟨fun row hknown hid => ?_, fun current hcurrent hid => ?_, hfenced⟩
    · obtain hold | rfl := known_insert hev heq hknown
      · exact haborted.never row hold hid
      · exact absurd hid hlt.ne'
    · change current ∈ s'.recoveries at hcurrent
      rw [heq, mem_append, mem_singleton] at hcurrent
      obtain hmem | rfl := hcurrent
      · exact haborted.ended current hmem hid
      · exact absurd hid hlt.ne'
  | write r' patch now current hcurrent hop hrecords hwritten heq =>
    obtain ⟨hid, hcases⟩ := hw.written_cases hcurrent hop hcontract
    have hnew : current.id = r → (current.patch patch now).state ≠ .promoting ∧
        (current.patch patch now).state.terminal = true := by
      intro hr
      have hterminal := haborted.ended current (mem_of_getElem? hcurrent) hr
      have hkept : patch.state = none → (current.patch patch now).state ≠ .promoting ∧
          (current.patch patch now).state.terminal = true := fun hnone => by
        rw [RecoveryRecord.patch, hnone]
        exact ⟨haborted.never current (known_current hcurrent) hr, hterminal⟩
      obtain ⟨row, rfl, -, hwrites⟩ | ⟨decision, -, -, hmoved⟩ := hcases
      · exact hkept (hw.write_aborted hwrites (hid.symm.trans hr ▸ haborted))
      · obtain hnone | ⟨-, hfailed, -⟩ := hmoved.ended hterminal
        · exact hkept hnone
        · rw [RecoveryRecord.patch, hfailed]
          exact ⟨RecoveryState.noConfusion, rfl⟩
    refine ⟨fun row hknown hrow => ?_, fun current' hcurrent' hrow => ?_, hfenced⟩
    · obtain hold | rfl := known_write hrecords heq hknown
      · exact haborted.never row hold hrow
      · exact (hnew hrow).1
    · change current' ∈ s'.recoveries at hcurrent'
      rw [heq] at hcurrent'
      obtain hmem | rfl := mem_or_eq_of_mem_set hcurrent'
      · exact haborted.ended current' hmem hrow
      · exact (hnew hrow).2

theorem Restarts.write_todo (hrestarts : Restarts w)
    (hwrites : Writes row (own i w.log) patch) {m : RecoveryMetadata} (hm : patch.metadata = some m)
    (htodo : m.abortRestartTodo ≠ none) : Aborted w row.id := by
  have hsaw : ∀ {m'}, SameFence m' row.metadata → m'.abortRestartTodo ≠ none → Saw row (own i w.log) →
      Aborted w row.id := fun hsame htodo hsaw =>
    hrestarts.aborted row (known_of_saw hsaw) (hsame.abortRestartTodo ▸ htodo)
  have hwrote : ∀ {m' m'' ans}, SameFence m' m'' → m'.abortRestartTodo ≠ none →
      ⟨.updateRecovery row.id { state := some .promoting, metadata := some m'' }, ans⟩ ∈ own i w.log →
        Aborted w row.id := fun hsame htodo hev => by
    rw [hsame.abortRestartTodo, hrestarts.promoted i row.id _ ⟨_, mem_own.1 hev⟩] at htodo
    exact absurd rfl htodo
  cases hwrites with
  | note hrow hsame =>
    cases hm
    exact hsaw hsame htodo hrow
  | queued hev hsame =>
    cases hm
    exact hwrote hsame htodo hev
  | unqueued hev hsame =>
    cases hm
    exact hwrote hsame htodo hev
  | promote hrow hstate hsame =>
    cases hm
    exact hsaw hsame htodo hrow
  | promoteAgain hev hsame =>
    cases hm
    exact hwrote hsame htodo hev
  | promoteOffline hbegan huntouched hattests =>
    cases hm
    obtain hattests | ⟨-, hsame⟩ := hattests
    · exact hrestarts.aborted row (known_of_saw (saw_of_began hbegan)) (hattests.1.abortRestartTodo ▸ htodo)
    · exact hsaw hsame htodo (saw_of_began hbegan)
  | endBegun hbegan huntouched hsame =>
    cases hm
    exact hsaw hsame htodo (saw_of_began hbegan)

theorem Journal.aborted_of_restart (hw : Journal w) {now : Time}
    {current : RecoveryRecord} (hcurrent : w.state.recoveries[r]? = some current) (hid : current.id = r)
    (hfencing : current.state = .fencing) (hstate : patch.state = some .blocked)
    (hrecords : records ⟨o, ans⟩ = [current.patch patch now])
    (heq : s'.recoveries = w.state.recoveries.set r (current.patch patch now))
    (hsaw : Saw row (own i w.log)) (hrow : row.id = r) (hids : row.metadata.fenceCommandIds.getD [] ≠ []) :
    Aborted (w.push i o ans s') r := by
  have hnew : (current.patch patch now).state = .blocked := by rw [RecoveryRecord.patch, hstate]; rfl
  have hnewId : (current.patch patch now).id = r := hid
  have hseen : Seen w.log row := by
    obtain ⟨⟨o, ans⟩, hev, hrow⟩ := hsaw
    exact ⟨_, mem_own.1 hev, hrow⟩
  refine ⟨fun row' hknown hrow' => ?_, fun current' hcurrent' hrow' => ?_, row, hseen.mono push_grows, hrow, hids⟩
  · obtain hold | rfl := known_write hrecords heq hknown
    · exact hw.fencing current (mem_of_getElem? hcurrent) hfencing row' hold (hrow'.trans hid.symm)
    · rw [hnew]
      exact RecoveryState.noConfusion
  · change current' ∈ s'.recoveries at hcurrent'
    rw [heq] at hcurrent'
    obtain rfl | ⟨-, hne⟩ := hw.mem_write hcurrent'
    · rw [hnew]
      rfl
    · exact absurd hrow' hne

theorem Restarts.push_aborted (hw : Journal w) (hrestarts : Restarts w)
    (hmove : RowMove o ans w.state.recoveries s'.recoveries) (hcontract : Contract (own i w.log) o)
    (hknown : Known (w.push i o ans s') row) (htodo : row.metadata.abortRestartTodo ≠ none) :
    Aborted (w.push i o ans s') row.id := by
  have hkept : ∀ row, Known w row → row.metadata.abortRestartTodo ≠ none → Aborted (w.push i o ans s') row.id :=
    fun row hold htodo => (hrestarts.aborted row hold htodo).push hw hmove hcontract
  cases hmove with
  | same heq hseen => exact hkept row (known_same heq hseen hknown) htodo
  | insert params now hev heq =>
    obtain hold | rfl := known_insert hev heq hknown
    · exact hkept row hold htodo
    · cases hev
      exact absurd hcontract.1.abortRestartTodo htodo
  | write r patch now current hcurrent hop hrecords hwritten heq =>
    obtain hold | rfl := known_write hrecords heq hknown
    · exact hkept row hold htodo
    · obtain ⟨m, hm, hmetadata⟩ | ⟨-, hmetadata⟩ := patch_metadata current patch now
      · rw [hmetadata] at htodo
        have hmoves := RowMove.write r patch now current hcurrent hop hrecords hwritten heq
        obtain ⟨hid, ⟨row₂, hrow₂, -, hwrites⟩ | ⟨decision, rfl, -, hmoved⟩⟩ :=
          hw.written_cases hcurrent hop hcontract
        · have haborted := hrestarts.write_todo hwrites hm htodo
          rw [hrow₂, ← hid] at haborted
          exact haborted.push hw hmoves hcontract
        · obtain hbefore | ⟨reason, unlessFenced, clearTarget, reactivate, stepIds, rfl, hfencing, hstate⟩ :=
            hmoved.todo m hm htodo
          · exact hkept current (known_current hcurrent) hbefore
          · obtain ⟨hunless, row₂, hrow₂, hsaw, hids⟩ := hcontract (.inr BlockExtra.noConfusion)
            change Aborted _ current.id
            rw [hid]
            exact hw.aborted_of_restart hcurrent hid (hfencing hunless) hstate hrecords heq hsaw hrow₂ hids
      · rw [hmetadata] at htodo
        exact hkept current (known_current hcurrent) htodo

theorem Restarts.push_promoted (hw : Journal w) (hrestarts : Restarts w) (hcontract : Contract (own i w.log) o)
    {j : ℕ} {m : RecoveryMetadata} (hpromotes : Promotes (w.push i o ans s').log j r m) :
    m.abortRestartTodo = none := by
  obtain ⟨updated, hev⟩ := hpromotes
  obtain hev | hev := mem_push.1 hev
  · exact hrestarts.promoted j r m ⟨updated, hev⟩
  · cases hev
    obtain ⟨row, rfl, hwrites⟩ := hcontract
    by_contra htodo
    have hnone := hw.write_aborted hwrites (hrestarts.write_todo hwrites rfl htodo)
    cases hnone

/-- **Each statement keeps what holds of the restarts.** -/
theorem Restarts.push (hw : Journal w) (hrestarts : Restarts w)
    (hcontract : Contract (own i w.log) o) (hexec : machine.exec i e o w.state = some (ans, s')) :
    Restarts (w.push i o ans s') where
  aborted _ hknown htodo := hrestarts.push_aborted hw (rowMove_of_exec hexec) hcontract hknown htodo
  promoted _ _ _ hpromotes := hrestarts.push_promoted hw hcontract hpromotes
  ended before after hlog row hseen htodo ev hev hholds := by
    obtain rfl | ⟨after', last, rfl⟩ := eq_nil_or_concat after
    · cases hev
    · rw [concat_eq_append, ← append_assoc] at hlog
      obtain ⟨hlog, hlast⟩ := append_inj' hlog rfl
      rw [concat_eq_append, mem_append] at hev
      obtain hev | hev := hev
      · exact hrestarts.ended before after' hlog row hseen htodo ev hev hholds
      · obtain rfl : ev = ⟨i, o, ans⟩ := by
          rw [mem_singleton.1 hev]
          exact (head_eq_of_cons_eq hlast).symm
        have hbefore : Seen w.log row := hseen.mono (hlog ▸ prefix_append _ _)
        have haborted := hrestarts.push_aborted hw (rowMove_of_exec hexec) hcontract
          (.inr (hbefore.mono push_grows)) htodo
        obtain ⟨row', hrow', hid, hlive⟩ := hholds
        rw [haborted.ended row' (records_subset (rowMove_of_exec hexec) hrow') hid] at hlive
        cases hlive

end

/-! ## A cluster that has moved on -/

/-- A newer recovery of the cluster is there, or its primary is not the member that the recovery
started from. -/
def MovedOn (db : Db) (row : RecoveryRecord) : Prop :=
  (∃ row' ∈ db.recoveries, row'.managedId = row.managedId ∧ row.startedAt < row'.startedAt) ∨
    (primaryOf (db.members.filter (·.managedId == row.managedId))).map (·.id) ≠ some row.sourcePrimaryMemberId

/-- The statement begins a recovery of the cluster. -/
def Inserts (managedId : ManagedId) (ev : (o : Op) × Ans o) : Prop :=
  ∃ params row, ev = ⟨.insertRecoveryIfFree params, some row⟩ ∧ params.managedId = managedId

/-- The statement changes the roles of the cluster. -/
def Flips (managedId : ManagedId) (ev : (o : Op) × Ans o) : Prop :=
  ∃ promoted demoted, ev.1 = .flipRoles managedId promoted demoted

/-- The statement shows that no recovery of the cluster is newer. -/
def ShowsNewest (managedId : ManagedId) (r : RecoveryId) (ev : (o : Op) × Ans o) : Prop :=
  ∃ row : Option RecoveryRecord, ev = ⟨.newestRecovery managedId, row⟩ ∧ ∀ row' ∈ row, row'.id = r

/-- What was shown of the cluster holds until it moves on. -/
structure Shown (w : World Op Ans Db) : Prop where
  newest : ∀ managedId r, Since (fun ev => ShowsNewest managedId r ⟨ev.op, ev.ans⟩)
    (fun ev => ¬Inserts managedId ⟨ev.op, ev.ans⟩) w.log → ∀ current, w.state.recoveries[r]? = some current →
      current.managedId = managedId → ∀ row ∈ w.state.recoveries, row.managedId = managedId →
        row.startedAt ≤ current.startedAt
  primary : ∀ managedId memberId, Since (fun ev => ShowsPrimary managedId memberId ⟨ev.op, ev.ans⟩)
    (fun ev => ¬Flips managedId ⟨ev.op, ev.ans⟩) w.log →
      (primaryOf (w.state.members.filter (·.managedId == managedId))).map (·.id) = some memberId

theorem newest_eq_none {db : Db} {order : List ℕ} {p : RecoveryRecord → Bool}
    (h : db.newest order p = some none) {row : RecoveryRecord} (hrow : row ∈ db.recoveries) : p row = false := by
  by_contra hp
  rw [Bool.not_eq_false] at hp
  have hmem : row ∈ db.recoveries.filter p := mem_filter.2 ⟨hrow, hp⟩
  obtain ⟨top, htop⟩ : ∃ top, top ∈ (db.recoveries.filter p).argmax (·.startedAt) := by
    refine Option.ne_none_iff_exists'.1 fun hnone => ?_
    rw [argmax_eq_none.1 hnone] at hmem
    cases hmem
  rw [Db.newest] at h
  split at h
  · rename_i hnil
    refine filter_eq_nil_iff.1 hnil top (argmax_mem htop) (all_eq_true.2 fun other hother => ?_)
    exact decide_eq_true (le_of_mem_argmax hother htop)
  · obtain ⟨_, -, hsome⟩ := Option.map_eq_some_iff.1 h
    cases hsome

theorem filter_flipRole {managedId managedId' : ManagedId} (hne : managedId' ≠ managedId)
    (promoted demoted : MemberId) (members : List ManagedMemberRow) :
    (members.map (flipRole managedId' promoted demoted)).filter (·.managedId == managedId) =
      members.filter (·.managedId == managedId) := by
  induction members with
  | nil => rfl
  | cons row members ih =>
    rw [map_cons, filter_cons, filter_cons, ih]
    by_cases hrow : row.managedId = managedId'
    · have hflip : (flipRole managedId' promoted demoted row).managedId = managedId' := by
        rw [flipRole, if_neg (not_not.2 hrow)]
        split
        · exact hrow
        · split <;> exact hrow
      rw [if_neg (by simpa [hflip] using hne), if_neg (by simpa [hrow] using hne)]
    · rw [flipRole, if_pos hrow]

theorem exec_members {i : ℕ} {e : Env} {o : Op} {db : Db} {ans : Ans o} {db' : Db}
    (h : machine.exec i e o db = some (ans, db')) {managedId : ManagedId} (hflips : ¬Flips managedId ⟨o, ans⟩) :
    db'.members.filter (·.managedId == managedId) = db.members.filter (·.managedId == managedId) := by
  cases o with
  | flipRoles managedId' promoted demoted =>
    cases h
    refine filter_flipRole (fun heq => hflips ?_) promoted demoted db.members
    exact ⟨promoted, demoted, heq ▸ rfl⟩
  | findInFlightRecovery managedId =>
    obtain ⟨rfl, -⟩ := mem_of_query h
    rfl
  | newestRecovery managedId =>
    obtain ⟨rfl, -⟩ := mem_of_query h
    rfl
  | findLatestAcceptedAutomaticFailover managedId =>
    obtain ⟨rfl, -⟩ := mem_of_query h
    rfl
  | insertRecoveryIfFree params =>
    have hinsert : db.insert params e.now = (ans, db') := Option.some.inj h
    rw [Db.insert] at hinsert
    split at hinsert <;> (obtain ⟨-, rfl⟩ := Prod.mk.inj hinsert; rfl)
  | updateRecovery r patch =>
    obtain ⟨-, -, rfl⟩ | ⟨row, -, -, rfl⟩ := Db.update_eq_some h <;> rfl
  | updateRecoveryLocked r decision =>
    obtain ⟨-, rfl⟩ | ⟨row, patch, -, -, -, rfl⟩ := Db.updateLocked_eq_some h <;> rfl
  | _ =>
    cases h
    rfl

section

variable {i : ℕ} {e : Env} {o : Op} {w : World Op Ans Db} {ans : Ans o} {s' : Db}

theorem Shown.push_newest (hw : Journal w) (hshown : Shown w) (hexec : machine.exec i e o w.state = some (ans, s'))
    {managedId : ManagedId} {r : RecoveryId}
    (hsince : Since (fun ev => ShowsNewest managedId r ⟨ev.op, ev.ans⟩)
      (fun ev => ¬Inserts managedId ⟨ev.op, ev.ans⟩) (w.push i o ans s').log) {current : RecoveryRecord}
    (hcurrent : s'.recoveries[r]? = some current) (hmanaged : current.managedId = managedId) {row : RecoveryRecord}
    (hrow : row ∈ s'.recoveries) (hrowManaged : row.managedId = managedId) : row.startedAt ≤ current.startedAt := by
  obtain ⟨newest, hev, hid⟩ | ⟨hsince, hinserts⟩ := since_concat.1 hsince
  · cases hev
    obtain ⟨found, hfound, heq⟩ := Option.map_eq_some_iff.1 hexec
    obtain ⟨rfl, rfl⟩ := Prod.mk.inj heq
    cases found with
    | none =>
      have hnone := newest_eq_none hfound hrow
      rw [hrowManaged, beq_self_eq_true] at hnone
      cases hnone
    | some top =>
      obtain ⟨hmem, -, hall⟩ := mem_of_newest hfound rfl
      have htop := hw.getElem_of_mem hmem
      rw [hid top rfl] at htop
      cases hcurrent.symm.trans htop
      exact hall row hrow (beq_iff_eq.2 hrowManaged)
  · have hbefore := hshown.newest managedId r hsince
    cases rowMove_of_exec hexec with
    | same heq => exact hbefore current (heq ▸ hcurrent) hmanaged row (heq ▸ hrow) hrowManaged
    | insert params now hev heq =>
      have hother : params.managedId ≠ managedId := fun heq => hinserts ⟨params, _, hev, heq⟩
      have hold : ∀ row' ∈ s'.recoveries, row'.managedId = managedId → row' ∈ w.state.recoveries := by
        intro row' hrow' hmanaged'
        rw [heq, mem_append, mem_singleton] at hrow'
        obtain hmem | rfl := hrow'
        · exact hmem
        · exact absurd hmanaged' hother
      have hcurrent' : w.state.recoveries[r]? = some current := by
        have hmem := hold current (mem_of_getElem? hcurrent) hmanaged
        rw [heq, getElem?_append] at hcurrent
        split at hcurrent
        · exact hcurrent
        · rw [getElem?_singleton] at hcurrent
          split at hcurrent
          · exact absurd ((congrArg (·.managedId) (Option.some.inj hcurrent)).trans hmanaged) hother
          · cases hcurrent
      exact hbefore current hcurrent' hmanaged row (hold row hrow hrowManaged) hrowManaged
    | write r' patch now written hwas hop hrecords hwritten heq =>
      -- The write changes neither the cluster of a row nor its start.
      have hold : ∀ (n : ℕ) (row' : RecoveryRecord), s'.recoveries[n]? = some row' →
          ∃ row'', w.state.recoveries[n]? = some row'' ∧ row''.managedId = row'.managedId ∧
            row''.startedAt = row'.startedAt := by
        intro n row' hrow'
        rw [heq, getElem?_set] at hrow'
        split at hrow'
        · rename_i hr
          subst hr
          split at hrow'
          · rw [← Option.some.inj hrow']
            exact ⟨written, hwas, rfl, rfl⟩
          · cases hrow'
        · exact ⟨row', hrow', rfl, rfl⟩
      obtain ⟨current', hcurrent', hmanaged', hstart⟩ := hold r current hcurrent
      obtain ⟨n, hn⟩ := getElem?_of_mem hrow
      obtain ⟨row', hrow', hrowManaged', hrowStart⟩ := hold n row hn
      rw [← hstart, ← hrowStart]
      exact hbefore current' hcurrent' (hmanaged'.trans hmanaged) row' (mem_of_getElem? hrow')
        (hrowManaged'.trans hrowManaged)

theorem Shown.push (hw : Journal w) (hshown : Shown w) (hexec : machine.exec i e o w.state = some (ans, s')) :
    Shown (w.push i o ans s') where
  newest _ _ hsince _ hcurrent hmanaged _ hrow hrowManaged :=
    hshown.push_newest hw hexec hsince hcurrent hmanaged hrow hrowManaged
  primary managedId memberId hsince := by
    obtain ⟨members, hev, hprimary⟩ | ⟨hsince, hflips⟩ := since_concat.1 hsince
    · cases hev
      cases hexec
      exact hprimary
    · change (primaryOf (s'.members.filter (·.managedId == managedId))).map (·.id) = some memberId
      rw [exec_members hexec hflips]
      exact hshown.primary managedId memberId hsince

end

theorem reached_shown (members : List ManagedMemberRow) (choices : Choices) :
    Restarts (reached members choices).world ∧ Shown (reached members choices).world := by
  have hstep : ∀ {i : ℕ} {e : Env} {o : Op} {w : World Op Ans Db} {ans : Ans o} {s' : Db},
      Journal w ∧ Restarts w ∧ Shown w → True → Contract (own i w.log) o →
        machine.exec i e o w.state = some (ans, s') →
          Journal (w.push i o ans s') ∧ Restarts (w.push i o ans s') ∧ Shown (w.push i o ans s') :=
    fun hw _ hcontract hexec =>
      ⟨hw.1.push hcontract hexec, hw.2.1.push hw.1 hcontract hexec, hw.2.2.push hw.1 hexec⟩
  have hshown : Shown (Config.init (Db.fresh members) : Config Op Ans Db).world :=
    ⟨fun _ _ hsince => absurd hsince not_since_nil, fun _ _ hsince => absurd hsince not_since_nil⟩
  exact (Config.run_inv hstep (fun hw => hw) body_obeys answers_of_exec (obeys_init _)
    ⟨journal_init members, restarts_init members, hshown⟩ (meets_true machine body _ choices)).2.2

/-! ## No call gets in between -/

/-- A query for the newest recovery of the cluster, or for the one that is live. -/
def AsksLatest (managedId : ManagedId) : Op → Prop
  | .findInFlightRecovery managedId' => managedId' = managedId
  | .newestRecovery managedId' => managedId' = managedId
  | _ => False

/-- Since the call asked for the newest recovery of the cluster, no other has begun one, and since
it asked for the primary, no other has changed it. -/
structure NotMovedBehind (i : ℕ) (managedId : ManagedId) (log : Log) : Prop where
  newest : Since (fun ev => ev.thread = i ∧ AsksLatest managedId ev.op)
    (fun ev => ev.thread ≠ i → ¬Inserts managedId ⟨ev.op, ev.ans⟩) log
  primary : Since (fun ev => ev.thread = i ∧ ev.op = .listManagedMembers managedId)
    (fun ev => ev.thread ≠ i → ¬Flips managedId ⟨ev.op, ev.ans⟩) log

/-- No other call gets between the question whether the cluster has moved on and a command of a
restart. -/
def RestartUndisturbed (i : ℕ) (w : World Op Ans Db) : Op → Prop
  | .enqueue c => ∀ command r row, w.state.commands[c]? = some command → command.spec.restartOf = some r →
    w.state.recoveries[r]? = some row → NotMovedBehind i row.managedId w.log
  | _ => True

section

variable {i : ℕ} {w : World Op Ans Db} {before after : Log} {managedId : ManagedId}

theorem Restarts.shows_newest (hrestarts : Restarts w) (hlog : w.log = before ++ after) {locked : RecoveryRecord}
    (hseen : Seen before locked) (htodo : locked.metadata.abortRestartTodo ≠ none)
    (hshows : Since (ShowsLatest managedId locked.id) (fun ev => KeepsLatest ev.1) (own i after))
    (hbehind : NotMovedBehind i managedId w.log) :
    Since (fun ev => ShowsNewest managedId locked.id ⟨ev.op, ev.ans⟩)
      (fun ev => ¬Inserts managedId ⟨ev.op, ev.ans⟩) w.log := by
  have hown : Since (fun ev : Event Op Ans => ev.thread = i ∧ ShowsNewest managedId locked.id ⟨ev.op, ev.ans⟩)
      (fun ev => ev.thread = i → KeepsLatest ev.op) w.log := by
    rw [hlog]
    refine ((since_of_own hshows).mem_mono fun ev hev hshow => ⟨hshow.1, ?_⟩).prepend
    obtain ⟨row, hrow, hid, hlive⟩ | hnewest := hshow.2
    · -- The recovery is over, so that it is not the one that is live.
      refine absurd ⟨row, ?_, hid, hlive⟩ (hrestarts.ended before after hlog locked hseen htodo ev hev)
      rw [hrow]
      exact mem_singleton.2 rfl
    · exact hnewest
  have hlast : ∀ ev : Event Op Ans, (ev.thread = i → KeepsLatest ev.op) →
      ¬(ev.thread = i ∧ AsksLatest managedId ev.op) := by
    rintro ⟨j, o, ans⟩ hkeeps ⟨hi, hasks⟩
    cases o with
    | findInFlightRecovery => exact hkeeps hi
    | newestRecovery => exact hkeeps hi
    | _ => exact hasks
  refine (hown.and_of_last hbehind.newest hlast).mono (fun _ hev => hev.2) fun ev hev hinserts => ?_
  by_cases hi : ev.thread = i
  · obtain ⟨params, row, heq, -⟩ := hinserts
    have hop : ev.op = .insertRecoveryIfFree params := congrArg Sigma.fst heq
    have hkeeps := hev.1 hi
    rw [hop] at hkeeps
    exact hkeeps
  · exact hev.2 hi hinserts

theorem shows_primary (hlog : w.log = before ++ after) {memberId : MemberId}
    (hshows : Since (ShowsPrimary managedId memberId) (fun ev => KeepsPrimary ev.1) (own i after))
    (hbehind : NotMovedBehind i managedId w.log) :
    Since (fun ev => ShowsPrimary managedId memberId ⟨ev.op, ev.ans⟩)
      (fun ev => ¬Flips managedId ⟨ev.op, ev.ans⟩) w.log := by
  have hown : Since (fun ev : Event Op Ans => ev.thread = i ∧ ShowsPrimary managedId memberId ⟨ev.op, ev.ans⟩)
      (fun ev => ev.thread = i → KeepsPrimary ev.op) w.log := by
    rw [hlog]
    exact (since_of_own hshows).prepend
  have hlast : ∀ ev : Event Op Ans, (ev.thread = i → KeepsPrimary ev.op) →
      ¬(ev.thread = i ∧ ev.op = .listManagedMembers managedId) := by
    rintro ev hkeeps ⟨hi, hasks⟩
    have hkept := hkeeps hi
    rw [hasks] at hkept
    exact hkept
  refine (hown.and_of_last hbehind.primary hlast).mono (fun _ hev => hev.2) fun ev hev hflips => ?_
  by_cases hi : ev.thread = i
  · obtain ⟨promoted, demoted, heq⟩ := hflips
    have hop : ev.op = .flipRoles managedId promoted demoted := heq
    have hkeeps := hev.1 hi
    rw [hop] at hkeeps
    exact hkeeps
  · exact hev.2 hi hflips

end

/-- **The restart does not act on a cluster that has moved on where no call gets in between.** In a
run whose statements all meet `RestartUndisturbed`, the cluster has not moved on whenever a command
of a restart is about to be handed to the queue. -/
theorem undisturbed_restart (members : List ManagedMemberRow) {before after : Choices} {i : ℕ} {e : Env}
    (hmeets : Meets machine body RestartUndisturbed (Config.init (Db.fresh members)) (before ++ .step i e :: after))
    {c : CommandId} {next : Bool → Proc Unit}
    (hthread : (reached members before).threads[i]? = some (.op (.enqueue c) next))
    {command : CommandRecord} (hcommand : (reached members before).world.state.commands[c]? = some command)
    {r : RecoveryId} (hrestart : command.spec.restartOf = some r) {row : RecoveryRecord}
    (hrow : (reached members before).world.state.recoveries[r]? = some row) :
    ¬MovedOn (reached members before).world.state row := by
  obtain ⟨hobeys, hw⟩ := reached_keeps members before
  obtain ⟨hrestarts, hshown⟩ := reached_shown members before
  have hundisturbed : RestartUndisturbed i (reached members before).world (.enqueue c) :=
    ((meets_append machine body).1 hmeets).2.1 i e (.enqueue c) next rfl hthread
  have hbehind := hundisturbed command r row hcommand hrestart hrow
  obtain ⟨spec, hcreated, hready⟩ := (hobeys.threads i _ hthread).1
  obtain ⟨command', hcommand', rfl⟩ := hw.commands i spec c (mem_own.1 hcreated)
  cases hcommand.symm.trans hcommand'
  obtain ⟨⟨locked, nowMs, recoveryId, own₁, own₂, rfl, htodo, hown, hclaim, hlatest, hprimary⟩⟩ :=
    hready.restarts r hrestart
  obtain ⟨log₁, log₂, hlog, rfl, rfl⟩ := own_eq_append hown
  have hseen : Seen log₁ locked := ⟨_, mem_own.1 hclaim, mem_singleton.2 rfl⟩
  obtain ⟨current, hcurrent, hsame⟩ := hw.stable locked (.inr (hseen.mono (hlog ▸ prefix_append _ _)))
  cases hrow.symm.trans hcurrent
  rw [← hsame.managedId] at hlatest hprimary
  rw [← hsame.source] at hprimary
  rintro (⟨row', hrow', hmanaged, hlt⟩ | hmoved)
  · have hle := hshown.newest row.managedId locked.id (hrestarts.shows_newest hlog hseen htodo hlatest hbehind)
      row hrow rfl row' hrow' hmanaged
    exact absurd hlt (not_lt.2 hle)
  · exact hmoved (hshown.primary row.managedId _ (shows_primary hlog hprimary hbehind))

def plannedSwitchover : BeginParams where
  managedId := 0
  kind := .switchover
  engine := .postgres
  source := oldPrimary
  target := newPrimary
  members := [oldPrimary]

/-- Past the fence deadline. -/
def pastDeadline : Env := { now := 11 * 60000, order := [0] }

/-- A switchover records its fence, which nobody answers; the sweep aborts it, and is about to queue
a command of the restart. -/
def abortedSwitchover : Choices :=
  .call (.beginOperatorSwitchover plannedSwitchover ⟨rfl, rfl⟩) :: steps 0 8 ++
    .call (.sweepStalledFencing true) :: List.replicate 18 (.step 1 pastDeadline)

def abortedLog : Log := (reached [oldPrimary, newPrimary] abortedSwitchover).world.log

theorem since_of_last {i : ℕ} {p q : Event Op Ans → Prop} {log before after : Log} {ev : Event Op Ans}
    (hlog : log = before ++ ev :: after) (hev : p ev)
    (hafter : after.all (fun ev => ev.thread == i) = true) : Since p (fun ev => ev.thread ≠ i → q ev) log :=
  ⟨before, ev, after, hlog, hev, fun ev' hev' hne =>
    absurd (beq_iff_eq.1 (all_eq_true.1 hafter ev' hev')) hne⟩

theorem abortedSwitchover_behind : NotMovedBehind 1 0 abortedLog where
  newest := by
    have hlog : abortedLog = abortedLog.take 23 ++ ⟨1, .newestRecovery 0, _⟩ :: abortedLog.drop 24 := rfl
    exact since_of_last hlog ⟨rfl, rfl⟩ rfl
  primary := by
    have hlog : abortedLog = abortedLog.take 24 ++ ⟨1, .listManagedMembers 0, _⟩ :: abortedLog.drop 25 := rfl
    exact since_of_last hlog ⟨rfl, rfl⟩ rfl

theorem abortedSwitchover_meets : Meets machine body RestartUndisturbed
    (Config.init (Db.fresh [oldPrimary, newPrimary])) (abortedSwitchover ++ [.step 1 {}]) := by
  refine meets_call _ _ ?_
  iterate 8 refine meets_step _ _ rfl trivial ?_
  refine meets_call _ _ ?_
  iterate 18 refine meets_step _ _ rfl trivial ?_
  refine meets_step _ _ rfl (fun command r row hcommand hrestart hrow => ?_) trivial
  cases hcommand
  cases hrestart
  cases hrow
  exact abortedSwitchover_behind

theorem abortedSwitchover_restarts : ∃ row,
    (reached [oldPrimary, newPrimary] abortedSwitchover).world.state.recoveries[0]? = some row ∧
      ¬MovedOn (reached [oldPrimary, newPrimary] abortedSwitchover).world.state row :=
  ⟨_, rfl, @undisturbed_restart _ _ [] _ {} abortedSwitchover_meets _ _ rfl _ rfl 0 rfl _ rfl⟩

/-! ## A recovery that begins before the command -/

/-- Between the question and the command of the restart, another recovery of the cluster begins. -/
def overtakenRestart : Choices :=
  abortedSwitchover ++
    .call (.beginDisasterRecovery { plannedSwitchover with kind := .disasterRecovery } ⟨rfl, rfl⟩) ::
      List.replicate 3 (.step 2 pastDeadline)

/-- **A restart acts on a cluster that has moved on**, where a recovery begins between its question
and its command. -/
theorem restart_acts_on_moved_cluster : ¬∀ (members : List ManagedMemberRow) (choices : Choices) (i : ℕ)
    (c : CommandId) (next : Bool → Proc Unit) (command : CommandRecord) (r : RecoveryId) (row : RecoveryRecord),
    (reached members choices).threads[i]? = some (.op (.enqueue c) next) →
      (reached members choices).world.state.commands[c]? = some command → command.spec.restartOf = some r →
        (reached members choices).world.state.recoveries[r]? = some row →
          ¬MovedOn (reached members choices).world.state row := by
  intro h
  have hnew : (reached [oldPrimary, newPrimary] overtakenRestart).world.state.recoveries[1]? = some _ := rfl
  refine h [oldPrimary, newPrimary] overtakenRestart 1 2 _ _ 0 _ rfl rfl rfl rfl ?_
  exact .inl ⟨_, mem_of_getElem? hnew, rfl, by decide⟩

end TurboPanel.Recovery
