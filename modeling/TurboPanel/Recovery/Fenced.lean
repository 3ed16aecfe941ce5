import TurboPanel.Recovery.Moves

/-!
# An automatic failover never promotes an unfenced primary

What the metadata of a row says of its fence is backed by the log: a command that it lists was
recorded for it, a flag that it has set stands for a recorded command that succeeded, and an
attested fence for a whole-host loss that the call began with. This holds of the rows that are
there, and of every row that a call has seen and may write back later.
-/

namespace TurboPanel.Recovery

open CommandRecords (CommandStatus)
open Interleaving List

/-! ## What the log shows -/

abbrev Log := List (Event Op Ans)

/-- The command was recorded as one of the fence of the recovery. -/
def Recorded (log : Log) (r : RecoveryId) (c : CommandId) : Prop :=
  ∃ i ids haPresent row, ⟨i, .updateRecoveryLocked r (.recordFenceCommands ids haPresent),
    some row⟩ ∈ log ∧
    c ∈ ids

/-- The command was reported succeeded, as a drain or as a stop. -/
def Reported (log : Log) (c : CommandId) (phase : FencePhase) : Prop :=
  ∃ i command, ⟨i, .reported c .succeeded, some command⟩ ∈ log ∧ command.spec.kind = phase.kind

/-- A call has written the row as promoted, with this metadata. -/
def Promotes (log : Log) (i : ℕ) (r : RecoveryId) (m : RecoveryMetadata) : Prop :=
  ∃ ans, ⟨i, .updateRecovery r { state := some .promoting, metadata := some m }, ans⟩ ∈ log

/-- The recovery was begun for a whole-host loss, the server of the old primary was not connected
after, and the row was written as promoted with an attested fence. -/
def Lost (log : Log) (r : RecoveryId) : Prop :=
  ∃ i row m, Began row (own i log) ∧ row.id = r ∧ Attests row m (own i log) ∧ Promotes log i r m

/-- What the metadata says of the fence is what happened. -/
structure Justified (log : Log) (r : RecoveryId) (m : RecoveryMetadata) : Prop where
  recorded : ∀ c ∈ m.fenceCommandIds.getD [], Recorded log r c
  drained : m.drainApplied = some true → ∃ c, Recorded log r c ∧ Reported log c .drain
  stopped : m.stopApplied = some true → ∃ c, Recorded log r c ∧ Reported log c .stop
  lost : m.fenceBasis = some .hostLossAttested → Lost log r

section

variable {log log' : Log} {r : RecoveryId} {c : CommandId} {m m' : RecoveryMetadata}

theorem own_mono (h : log <+: log') (i : ℕ) : own i log <+: own i log' := by
  obtain ⟨rest, rfl⟩ := h
  rw [own_append]
  exact prefix_append _ _

theorem Recorded.mono (h : log <+: log') (hc : Recorded log r c) : Recorded log' r c := by
  obtain ⟨i, ids, haPresent, row, hev, hmem⟩ := hc
  exact ⟨i, ids, haPresent, row, h.subset hev, hmem⟩

theorem Reported.mono (h : log <+: log') {phase : FencePhase} (hc : Reported log c phase) :
    Reported log' c phase := by
  obtain ⟨i, command, hev, hkind⟩ := hc
  exact ⟨i, command, h.subset hev, hkind⟩

theorem Promotes.mono (h : log <+: log') {i : ℕ} (hp : Promotes log i r m) :
    Promotes log' i r m := by
  obtain ⟨ans, hev⟩ := hp
  exact ⟨ans, h.subset hev⟩

theorem Began.mono {h h' : Trace Op Ans} (hh' : h <+: h') {row : RecoveryRecord}
    (hb : Began row h) :
    Began row h' := by
  obtain ⟨params, hev, hstate⟩ := hb
  exact ⟨params, hh'.subset hev, hstate⟩

theorem Attests.mono {h h' : Trace Op Ans} (hh' : h <+: h') {row : RecoveryRecord}
    (ha : Attests row m h) :
    Attests row m h' := by
  obtain ⟨hsame, hincident, serverId, hserver, hev⟩ := ha
  exact ⟨hsame, hincident, serverId, hserver, hh'.subset hev⟩

theorem Lost.mono (h : log <+: log') (hl : Lost log r) : Lost log' r := by
  obtain ⟨i, row, m, hbegan, hid, hattests, hp⟩ := hl
  exact ⟨i, row, m, hbegan.mono (own_mono h i), hid, hattests.mono (own_mono h i), hp.mono h⟩

theorem Justified.mono (h : log <+: log') (hm : Justified log r m) : Justified log' r m where
  recorded c hc := (hm.recorded c hc).mono h
  drained hdrained := by
    obtain ⟨c, hc, hreported⟩ := hm.drained hdrained
    exact ⟨c, hc.mono h, hreported.mono h⟩
  stopped hstopped := by
    obtain ⟨c, hc, hreported⟩ := hm.stopped hstopped
    exact ⟨c, hc.mono h, hreported.mono h⟩
  lost hbasis := (hm.lost hbasis).mono h

theorem Justified.of_same (hsame : SameFence m m') (hm : Justified log r m') :
    Justified log r m where
  recorded c hc := hm.recorded c (hsame.fenceCommandIds ▸ hc)
  drained hdrained := hm.drained (hsame.drainApplied ▸ hdrained)
  stopped hstopped := hm.stopped (hsame.stopApplied ▸ hstopped)
  lost hbasis := hm.lost (hsame.fenceBasis ▸ hbasis)

theorem justified_unfenced (hm : Unfenced m) : Justified log r m where
  recorded c hc := by
    rw [hm.fenceCommandIds] at hc
    cases hc
  drained hdrained := by
    rw [hm.drainApplied] at hdrained
    cases hdrained
  stopped hstopped := by
    rw [hm.stopApplied] at hstopped
    cases hstopped
  lost hbasis := by
    rw [hm.fenceBasis] at hbasis
    cases hbasis

end

/-! ## The journal -/

/-- A call has seen the row. -/
def Seen (log : Log) (row : RecoveryRecord) : Prop := ∃ ev ∈ log, row ∈ records ⟨ev.op, ev.ans⟩

/-- The row is there, or a call has seen it. -/
def Known (w : World Op Ans Db) (row : RecoveryRecord) : Prop :=
    row ∈ w.state.recoveries ∨ Seen w.log row

/-- What never changes in a row. -/
structure SameRow (row row' : RecoveryRecord) : Prop where
  kind : row.kind = row'.kind
  managedId : row.managedId = row'.managedId
  source : row.sourcePrimaryMemberId = row'.sourcePrimaryMemberId
  startedAt : row.startedAt = row'.startedAt

/-- Nothing has happened to the row that only its call does. -/
structure Fresh (row : RecoveryRecord) : Prop where
  state : row.state ≠ .promoting
  ids : row.metadata.fenceCommandIds.getD [] = []
  target : row.targetMemberId ≠ none

/-- What holds of the journal in every world of a run. -/
structure Journal (w : World Op Ans Db) : Prop where
  ids : ∀ (n : ℕ) (row : RecoveryRecord), w.state.recoveries[n]? = some row → row.id = n
  stable : ∀ row, Known w row → ∃ current,
    w.state.recoveries[row.id]? = some current ∧ SameRow current row
  justified : ∀ row, Known w row → Justified w.log row.id row.metadata
  secured : ∀ row, Known w row → row.kind = .automaticFailover → row.state = .promoting →
    Secured row.metadata
  /-- What was written as promoted. -/
  wrote : ∀ i r m, Promotes w.log i r m → Justified w.log r m ∧
    ∃ row, Seen w.log row ∧ row.id = r ∧ row.state = .promoting ∧
      (row.kind = .automaticFailover → Secured m)
  unique : ∀ (i j : ℕ) (row row' : RecoveryRecord), Began row (own i w.log) →
    Began row' (own j w.log) →
    row.id = row'.id → i = j
  untouched : ∀ (i : ℕ) (row : RecoveryRecord), Began row (own i w.log) →
    Untouched row.id (own i w.log) →
    ∀ row', Known w row' → row'.id = row.id → Fresh row'
  /-- A recovery that is fencing was not promoted before. -/
  fencing : ∀ current ∈ w.state.recoveries, current.state = .fencing →
    ∀ row, Known w row → row.id = current.id → row.state ≠ .promoting
  /-- A recovery without a target was not promoted, and will not be. -/
  refused : ∀ row, Known w row → row.targetMemberId = none →
    (∀ row', Known w row' → row'.id = row.id → row'.state ≠ .promoting) ∧
    ∀ current ∈ w.state.recoveries, current.id = row.id → current.state ≠ .fencing
  /-- An attested fence stays attested. -/
  lost : ∀ r, Lost w.log r → (∀ row ∈ w.state.recoveries, row.id = r →
      row.metadata.fenceBasis = some .hostLossAttested) ∧
    (∀ row, Known w row → row.id = r → row.state = .promoting →
      row.metadata.fenceBasis = some .hostLossAttested) ∧
    ∀ i m, Promotes w.log i r m → m.fenceBasis = some .hostLossAttested
  commands : ∀ i spec c, ⟨i, .createCommandRecord spec, c⟩ ∈ w.log →
    ∃ command, w.state.commands[c]? = some command ∧ command.spec = spec

theorem journal_init (members : List ManagedMemberRow) :
    Journal (Config.init (Db.fresh members) : Config Op Ans Db).world where
  ids _ _ hrow := nomatch hrow
  stable _ hknown := by
    obtain hmem | ⟨_, hev, _⟩ := hknown
    · cases hmem
    · cases hev
  justified _ hknown := by
    obtain hmem | ⟨_, hev, _⟩ := hknown
    · cases hmem
    · cases hev
  secured _ hknown := by
    obtain hmem | ⟨_, hev, _⟩ := hknown
    · cases hmem
    · cases hev
  wrote _ _ _ hp := by
    obtain ⟨_, hev⟩ := hp
    cases hev
  unique _ _ _ _ hb := by
    obtain ⟨_, hev, _⟩ := hb
    cases hev
  untouched _ _ hb := by
    obtain ⟨_, hev, _⟩ := hb
    cases hev
  fencing _ hcurrent := nomatch hcurrent
  refused _ hknown := by
    obtain hmem | ⟨_, hev, _⟩ := hknown
    · cases hmem
    · cases hev
  lost _ hl := by
    obtain ⟨_, _, _, ⟨_, hev, _⟩, _⟩ := hl
    cases hev
  commands _ _ _ hev := nomatch hev

section

variable {i : ℕ} {e : Env} {o : Op} {w : World Op Ans Db} {ans : Ans o} {s' : Db}

theorem mem_push {ev : Event Op Ans} : ev ∈ (w.push i o ans s').log ↔
    ev ∈ w.log ∨ ev = ⟨i, o, ans⟩ := by
  rw [World.push, mem_append, mem_singleton]

theorem push_grows : w.log <+: (w.push i o ans s').log := prefix_append _ _

variable {row : RecoveryRecord} {patch : RecoveryPatch} {current : RecoveryRecord} {now : Time}
  {updated : Option RecoveryRecord} {h : Trace Op Ans} {params : InsertRecoveryParams}

theorem known_of_saw (hsaw : Saw row (own i w.log)) : Known w row := by
  obtain ⟨⟨o, ans⟩, hev, hrow⟩ := hsaw
  exact .inr ⟨_, mem_own.1 hev, hrow⟩

theorem saw_of_began (hb : Began row h) : Saw row h := by
  obtain ⟨params, hev, -⟩ := hb
  exact ⟨_, hev, mem_singleton.2 rfl⟩

theorem known_push (hknown : Known (w.push i o ans s') row) :
    (row ∈ s'.recoveries ∨ row ∈ records ⟨o, ans⟩) ∨ Known w row := by
  obtain hmem | ⟨ev, hev, hrow⟩ := hknown
  · exact .inl (.inl hmem)
  · obtain hev | rfl := mem_push.1 hev
    · exact .inr (.inr ⟨ev, hev, hrow⟩)
    · exact .inl (.inr hrow)

theorem known_same (heq : s'.recoveries = w.state.recoveries)
    (hseen : ∀ row ∈ records ⟨o, ans⟩, row ∈ w.state.recoveries)
    (hknown : Known (w.push i o ans s') row) :
    Known w row := by
  obtain (hmem | hrow) | hold := known_push hknown
  · exact .inl (heq ▸ hmem)
  · exact .inl (hseen row hrow)
  · exact hold

theorem known_insert
    (hev : (⟨o, ans⟩ : (o : Op) × Ans o) = ⟨.insertRecoveryIfFree params,
      some (params.row w.state.recoveries.length now)⟩)
    (heq : s'.recoveries = w.state.recoveries ++ [params.row w.state.recoveries.length now])
    (hknown : Known (w.push i o ans s') row) :
    Known w row ∨ row = params.row w.state.recoveries.length now := by
  obtain (hmem | hrow) | hold := known_push hknown
  · rw [heq, mem_append, mem_singleton] at hmem
    exact hmem.imp_left .inl
  · rw [hev] at hrow
    exact .inr (mem_singleton.1 hrow)
  · exact .inl hold

variable {r : RecoveryId}

theorem known_write (hrecords : records ⟨o, ans⟩ = [current.patch patch now])
    (heq : s'.recoveries = w.state.recoveries.set r (current.patch patch now))
    (hknown : Known (w.push i o ans s') row) : Known w row ∨ row = current.patch patch now := by
  obtain (hmem | hrow) | hold := known_push hknown
  · rw [heq] at hmem
    exact (mem_or_eq_of_mem_set hmem).imp_left .inl
  · rw [hrecords] at hrow
    exact .inr (mem_singleton.1 hrow)
  · exact .inl hold

theorem known_current (hrow : w.state.recoveries[r]? = some row) : Known w row :=
    .inl (mem_of_getElem? hrow)

theorem current_push (hmove : RowMove o ans w.state.recoveries s'.recoveries) {n : ℕ}
    (hcurrent : w.state.recoveries[n]? = some current) :
    ∃ current', s'.recoveries[n]? = some current' ∧ SameRow current' current ∧
      current'.id = current.id := by
  cases hmove with
  | same heq => exact ⟨current, heq ▸ hcurrent, ⟨rfl, rfl, rfl, rfl⟩, rfl⟩
  | insert params now hev heq =>
    refine ⟨current, ?_, ⟨rfl, rfl, rfl, rfl⟩, rfl⟩
    rw [heq, getElem?_append_left (List.getElem?_eq_some_iff.1 hcurrent).1]
    exact hcurrent
  | write r patch now row hrow hop hrecords hwritten heq =>
    rw [heq, getElem?_set]
    split
    · rename_i hr
      subst hr
      cases hrow.symm.trans hcurrent
      rw [if_pos (List.getElem?_eq_some_iff.1 hcurrent).1]
      exact ⟨_, rfl, ⟨rfl, rfl, rfl, rfl⟩, rfl⟩
    · exact ⟨current, hcurrent, ⟨rfl, rfl, rfl, rfl⟩, rfl⟩

/-! ## What the unlocked writes write -/

variable {m : RecoveryMetadata}

section

variable (hw : Journal w)
include hw

theorem Journal.write_cases (hwrites : Writes row (own i w.log) patch)
    (hm : patch.metadata = some m) :
    (Began row (own i w.log) ∧ Attests row m (own i w.log) ∧ patch = {
      state := some .promoting, metadata := some m }) ∨ Justified w.log row.id m := by
  cases hwrites with
  | note hsaw hsame =>
    cases hm
    exact .inr ((hw.justified row (known_of_saw hsaw)).of_same hsame)
  | queued hwrote hsame =>
    cases hm
    exact .inr ((hw.wrote i row.id _ ⟨_, mem_own.1 hwrote⟩).1.of_same hsame)
  | unqueued hwrote hsame =>
    cases hm
    exact .inr ((hw.wrote i row.id _ ⟨_, mem_own.1 hwrote⟩).1.of_same hsame)
  | promote hsaw hstate hsame =>
    cases hm
    exact .inr ((hw.justified row (known_of_saw hsaw)).of_same hsame)
  | promoteAgain hwrote hsame =>
    cases hm
    exact .inr ((hw.wrote i row.id _ ⟨_, mem_own.1 hwrote⟩).1.of_same hsame)
  | promoteOffline hbegan huntouched hattests =>
    cases hm
    obtain hattests | ⟨-, hsame⟩ := hattests
    · exact .inl ⟨hbegan, hattests, rfl⟩
    · exact .inr ((hw.justified row (known_of_saw (saw_of_began hbegan))).of_same hsame)
  | endBegun hbegan huntouched hsame =>
    cases hm
    exact .inr ((hw.justified row (known_of_saw (saw_of_began hbegan))).of_same hsame)

theorem Journal.kind_eq (hcurrent : w.state.recoveries[r]? = some current)
    (hknown : Known w row) (hid : row.id = r) : row.kind = current.kind := by
  obtain ⟨current', hcurrent', hsame⟩ := hw.stable row hknown
  rw [hid] at hcurrent'
  cases hcurrent.symm.trans hcurrent'
  exact hsame.kind.symm

theorem Journal.write_secured
    (hwrites : Writes row (own i w.log) { state := some .promoting, metadata := some m })
    (hcurrent : w.state.recoveries[row.id]? = some current)
      (hkind : current.kind = .automaticFailover) :
    Secured m := by
  have hkind' : ∀ row', Known w row' → row'.id = row.id → row'.kind = .automaticFailover :=
    fun row' hknown hid => (hw.kind_eq hcurrent hknown hid).trans hkind
  cases hwrites with
  | promote hsaw hstate hsame =>
    exact hsame.secured (hw.secured row (known_of_saw hsaw)
      (hkind' row (known_of_saw hsaw) rfl) hstate)
  | promoteAgain hwrote hsame =>
    obtain ⟨-, row', hseen, hid, -, hsecured⟩ := hw.wrote i row.id _ ⟨_, mem_own.1 hwrote⟩
    exact hsame.secured (hsecured (hkind' row' (.inr hseen) hid))
  | promoteOffline hbegan huntouched hattests =>
    obtain hattests | ⟨hother, -⟩ := hattests
    · exact .inl hattests.1.fenceBasis
    · exact absurd (hkind' row (known_of_saw (saw_of_began hbegan)) rfl) hother

theorem Journal.write_begun (hwrites : Writes row (own i w.log) patch)
    (hnever : ∀ row', Known w row' → row'.id = row.id → row'.state ≠ .promoting) :
    (Began row (own i w.log) ∧ Untouched row.id (own i w.log)) ∨
      Saw row (own i w.log) ∧ row.targetMemberId = none ∧ patch.state = none ∧
      patch.targetMemberId = none := by
  have hwrote : ∀ {m ans}, ¬⟨.updateRecovery row.id
    { state := some .promoting, metadata := some m }, ans⟩ ∈
      own i w.log := fun hev => by
    obtain ⟨-, row', hseen, hid, hstate, -⟩ := hw.wrote i row.id _ ⟨_, mem_own.1 hev⟩
    exact hnever row' (.inr hseen) hid hstate
  cases hwrites with
  | note hsaw hsame hmarked =>
    obtain hstate | htarget := hmarked
    · exact absurd hstate (hnever row (known_of_saw hsaw) rfl)
    · exact .inr ⟨hsaw, htarget, rfl, rfl⟩
  | queued hev => exact absurd hev hwrote
  | unqueued hev => exact absurd hev hwrote
  | promote hsaw hstate => exact absurd hstate (hnever row (known_of_saw hsaw) rfl)
  | promoteAgain hev => exact absurd hev hwrote
  | promoteOffline hbegan huntouched => exact .inl ⟨hbegan, huntouched⟩
  | endBegun hbegan huntouched => exact .inl ⟨hbegan, huntouched⟩

theorem Journal.write_fresh (hwrites : Writes row (own i w.log) patch)
    (hfresh : ∀ row', Known w row' → row'.id = row.id → Fresh row') :
    Began row (own i w.log) ∧ Untouched row.id (own i w.log) := by
  obtain hbegun | ⟨hsaw, htarget, -⟩ := hw.write_begun hwrites fun row' hknown hid =>
    (hfresh row' hknown hid).state
  · exact hbegun
  · exact absurd htarget (hfresh row (known_of_saw hsaw) rfl).target

theorem Journal.write_lost (hwrites : Writes row (own i w.log) patch)
    (hm : patch.metadata = some m) (hlost : Lost w.log row.id) :
    m.fenceBasis = some .hostLossAttested := by
  obtain ⟨-, hmarked, hpromotes⟩ := hw.lost row.id hlost
  obtain ⟨j, row₀, m₀, hbegan₀, hid₀, -, ans₀, hev₀⟩ := hlost
  have huntouched : ∀ {i'}, i' = j → ¬Untouched row.id (own i' w.log) := by
    rintro i' rfl hun
    exact hun _ (mem_own.2 hev₀) rfl
  cases hwrites with
  | note hsaw hsame hmark =>
    cases hm
    obtain hstate | htarget := hmark
    · exact hsame.fenceBasis.trans (hmarked row (known_of_saw hsaw) rfl hstate)
    · obtain ⟨-, row', hseen, hid, hstate, -⟩ := hw.wrote j row.id m₀ ⟨ans₀, hev₀⟩
      exact absurd hstate ((hw.refused row (known_of_saw hsaw) htarget).1 row' (.inr hseen) hid)
  | queued hev hsame =>
    cases hm
    exact hsame.fenceBasis.trans (hpromotes i _ ⟨_, mem_own.1 hev⟩)
  | unqueued hev hsame =>
    cases hm
    exact hsame.fenceBasis.trans (hpromotes i _ ⟨_, mem_own.1 hev⟩)
  | promote hsaw hstate hsame =>
    cases hm
    exact hsame.fenceBasis.trans (hmarked row (known_of_saw hsaw) rfl hstate)
  | promoteAgain hev hsame =>
    cases hm
    exact hsame.fenceBasis.trans (hpromotes i _ ⟨_, mem_own.1 hev⟩)
  | promoteOffline hbegan hun =>
    exact absurd hun (huntouched (hw.unique i j row row₀ hbegan hbegan₀ hid₀.symm))
  | endBegun hbegan hun =>
    exact absurd hun (huntouched (hw.unique i j row row₀ hbegan hbegan₀ hid₀.symm))

end

/-! ## One statement -/

theorem Writes.metadata (hwrites : Writes row h patch) : ∃ m, patch.metadata = some m := by
  cases hwrites <;> exact ⟨_, rfl⟩

theorem Journal.locked_justified (hw : Journal w) (hcurrent : w.state.recoveries[r]? = some current)
    {decision : Decision} (happly : decision.apply current now = some patch)
    (hm : patch.metadata = some m) (hans : updated.isSome)
    (hcontract : Contract (own i w.log) (.updateRecoveryLocked r decision)) :
    Justified (w.push i (.updateRecoveryLocked r decision) updated s').log r m := by
  have hmove := move_of_apply happly
  have hid := hw.ids r current hcurrent
  have hold : Justified w.log r current.metadata :=
    hid ▸ hw.justified current (known_current hcurrent)
  obtain ⟨row', rfl⟩ := Option.isSome_iff_exists.1 hans
  refine ⟨fun c hc => ?_, fun hdrained => ?_, fun hstopped => ?_, fun hbasis => ?_⟩
  · obtain hkept | ⟨ids, haPresent, rfl, hids⟩ := hmove.ids m hm
    · exact (hold.recorded c (hkept c hc)).mono push_grows
    · rw [hids] at hc
      exact ⟨i, ids, haPresent, row', mem_push.2 (.inr rfl), hc⟩
  · obtain hkept | ⟨c, rfl, hc⟩ := hmove.drained m hm hdrained
    · obtain ⟨c, hc, hreported⟩ := hold.drained hkept
      exact ⟨c, hc.mono push_grows, hreported.mono push_grows⟩
    · obtain ⟨command, hev, hkind⟩ := hcontract
      refine ⟨c, (hold.recorded c hc).mono push_grows, i, command, ?_, hkind⟩
      exact mem_push.2 (.inl (mem_own.1 hev))
  · obtain hkept | ⟨c, rfl, hc⟩ := hmove.stopped m hm hstopped
    · obtain ⟨c, hc, hreported⟩ := hold.stopped hkept
      exact ⟨c, hc.mono push_grows, hreported.mono push_grows⟩
    · obtain ⟨command, hev, hkind⟩ := hcontract
      refine ⟨c, (hold.recorded c hc).mono push_grows, i, command, ?_, hkind⟩
      exact mem_push.2 (.inl (mem_own.1 hev))
  · rw [hmove.basis m hm] at hbasis
    exact (hold.lost hbasis).mono push_grows

theorem lost_push (hbegan : Began row (own i w.log)) (hattests : Attests row m (own i w.log)) :
    Lost (w.push i (.updateRecovery row.id { state := some .promoting, metadata := some m })
    updated s').log
      row.id :=
  ⟨i, row, m, hbegan.mono (own_mono push_grows i), rfl,
    hattests.mono (own_mono push_grows i), updated,
    mem_push.2 (.inr rfl)⟩

theorem Journal.updated_justified (hw : Journal w) (hwrites : Writes row (own i w.log) patch)
    (hm : patch.metadata = some m) :
    Justified (w.push i (.updateRecovery row.id patch) updated s').log row.id m := by
  obtain ⟨hbegan, hattests, rfl⟩ | hjustified := hw.write_cases hwrites hm
  · have hold : Justified (w.push i
      (.updateRecovery row.id { state := some .promoting, metadata := some m })
        updated s').log row.id row.metadata :=
      (hw.justified row (known_of_saw (saw_of_began hbegan))).mono push_grows
    have hsame := hattests.1
    refine ⟨fun c hc => ?_, fun hdrained => ?_, fun hstopped => ?_,
      fun _ => lost_push hbegan hattests⟩
    · exact hold.recorded c (hsame.fenceCommandIds ▸ hc)
    · exact hold.drained (hsame.drainApplied ▸ hdrained)
    · exact hold.stopped (hsame.stopApplied ▸ hstopped)
  · exact hjustified.mono push_grows

/-! ## The row that is written -/

theorem patch_state {state : RecoveryState} (h : (row.patch patch now).state = state) :
    patch.state = some state ∨ patch.state = none ∧ row.state = state := by
  cases hstate : patch.state with
  | none =>
    rw [RecoveryRecord.patch, hstate] at h
    exact .inr ⟨rfl, h⟩
  | some state' =>
    rw [RecoveryRecord.patch, hstate] at h
    exact .inl (congrArg some h)

theorem patch_metadata (row : RecoveryRecord) (patch : RecoveryPatch) (now : Time) :
    (∃ m, patch.metadata = some m ∧ (row.patch patch now).metadata = m) ∨
      patch.metadata = none ∧ (row.patch patch now).metadata = row.metadata := by
  cases hm : patch.metadata with
  | none => exact .inr ⟨rfl, by rw [RecoveryRecord.patch, hm]; rfl⟩
  | some m => exact .inl ⟨m, rfl, by rw [RecoveryRecord.patch, hm]; rfl⟩

theorem patch_target {target : Option MemberId}
    (h : (row.patch patch now).targetMemberId = target) :
    patch.targetMemberId ≠ none ∨ patch.targetMemberId = none ∧ row.targetMemberId = target := by
  cases htarget : patch.targetMemberId with
  | none =>
    rw [RecoveryRecord.patch, htarget] at h
    exact .inr ⟨rfl, h⟩
  | some target' => exact .inl (Option.some_ne_none _)

theorem Writes.not_fencing (hwrites : Writes row h patch) : patch.state ≠ some .fencing := by
  cases hwrites <;> exact fun hstate => (nomatch hstate)

theorem Writes.eq_of_promoting (hwrites : Writes row h patch)
    (hstate : patch.state = some .promoting) :
    ∃ m, patch = { state := some .promoting, metadata := some m } := by
  cases hwrites with
  | note => cases hstate
  | queued => cases hstate
  | unqueued => cases hstate
  | promote => exact ⟨_, rfl⟩
  | promoteAgain => exact ⟨_, rfl⟩
  | promoteOffline => exact ⟨_, rfl⟩
  | endBegun => cases hstate

section

variable (hw : Journal w)
include hw

theorem Journal.note_secured (hwrites : Writes row (own i w.log) patch) (hnone : patch.state = none)
    (hm : patch.metadata = some m) (hcurrent : w.state.recoveries[row.id]? = some current)
    (hkind : current.kind = .automaticFailover) (hstate : current.state = .promoting) :
    Secured m := by
  have hkind' : ∀ row', Known w row' → row'.id = row.id → row'.kind = .automaticFailover :=
    fun row' hknown hid => (hw.kind_eq hcurrent hknown hid).trans hkind
  cases hwrites with
  | note hsaw hsame hmarked =>
    cases hm
    have hknown := known_of_saw hsaw
    obtain hpromoting | htarget := hmarked
    · exact hsame.secured (hw.secured row hknown (hkind' row hknown rfl) hpromoting)
    · have hid := hw.ids row.id current hcurrent
      exact absurd hstate ((hw.refused row hknown htarget).1 current (known_current hcurrent) hid)
  | queued hwrote hsame =>
    cases hm
    obtain ⟨-, row', hseen, hid, -, hsecured⟩ := hw.wrote i row.id _ ⟨_, mem_own.1 hwrote⟩
    exact hsame.secured (hsecured (hkind' row' (.inr hseen) hid))
  | unqueued => cases hnone
  | promote => cases hnone
  | promoteAgain => cases hnone
  | promoteOffline => cases hnone
  | endBegun => cases hnone

/-! ## The journal is kept -/

theorem known_lt (hknown : Known w row) : row.id < w.state.recoveries.length := by
  obtain ⟨current, hcurrent, -⟩ := hw.stable row hknown
  exact (List.getElem?_eq_some_iff.1 hcurrent).1

theorem Journal.written_cases (hcurrent : w.state.recoveries[r]? = some current)
    (hop : o = .updateRecovery r patch ∨ ∃ decision, o = .updateRecoveryLocked r decision ∧
        decision.apply current now = some patch) (hcontract : Contract (own i w.log) o) :
    current.id = r ∧ ((∃ row, row.id = r ∧ o = .updateRecovery r patch ∧
    Writes row (own i w.log) patch) ∨
      ∃ decision, o = .updateRecoveryLocked r decision ∧ decision.apply current now = some patch ∧
        Move current decision patch) := by
  refine ⟨hw.ids r current hcurrent, ?_⟩
  obtain rfl | ⟨decision, rfl, happly⟩ := hop
  · obtain ⟨row, hid, hwrites⟩ := hcontract
    exact .inl ⟨row, hid, rfl, hwrites⟩
  · exact .inr ⟨decision, rfl, happly, move_of_apply happly⟩

theorem Journal.push_ids (hmove : RowMove o ans w.state.recoveries s'.recoveries) (n : ℕ)
    (row : RecoveryRecord) (hrow : s'.recoveries[n]? = some row) : row.id = n := by
  cases hmove with
  | same heq => exact hw.ids n row (heq ▸ hrow)
  | insert params now hev heq =>
    rw [heq, getElem?_append] at hrow
    split at hrow
    · exact hw.ids n row hrow
    · rename_i hlt
      rw [getElem?_singleton] at hrow
      split at hrow
      · cases hrow
        change w.state.recoveries.length = n
        omega
      · cases hrow
  | write r patch now current hcurrent hop hrecords hwritten heq =>
    rw [heq, getElem?_set] at hrow
    split at hrow
    · rename_i hr
      subst hr
      split at hrow
      · rw [← Option.some.inj hrow]
        exact hw.ids r current hcurrent
      · cases hrow
    · exact hw.ids n row hrow

theorem Journal.push_stable (hmove : RowMove o ans w.state.recoveries s'.recoveries)
    (hknown : Known (w.push i o ans s') row) :
    ∃ current, s'.recoveries[row.id]? = some current ∧ SameRow current row := by
  have hkept : ∀ row, Known w row → ∃ current,
    s'.recoveries[row.id]? = some current ∧ SameRow current row := by
    intro row hold
    obtain ⟨current, hcurrent, hsame⟩ := hw.stable row hold
    obtain ⟨current', hcurrent', hsame', -⟩ := current_push hmove hcurrent
    exact ⟨current', hcurrent', hsame'.kind.trans hsame.kind,
      hsame'.managedId.trans hsame.managedId,
      hsame'.source.trans hsame.source, hsame'.startedAt.trans hsame.startedAt⟩
  cases hmove with
  | same heq hseen => exact hkept row (known_same heq hseen hknown)
  | insert params now hev heq =>
    obtain hold | rfl := known_insert hev heq hknown
    · exact hkept row hold
    · refine ⟨_, ?_, rfl, rfl, rfl, rfl⟩
      rw [heq]
      exact getElem?_concat_length
  | write r patch now current hcurrent hop hrecords hwritten heq =>
    obtain hold | rfl := known_write hrecords heq hknown
    · exact hkept row hold
    · obtain ⟨current', hcurrent', hsame⟩ := hkept current (known_current hcurrent)
      exact ⟨current', hcurrent', hsame.kind, hsame.managedId, hsame.source, hsame.startedAt⟩

theorem Journal.push_justified (hmove : RowMove o ans w.state.recoveries s'.recoveries)
    (hcontract : Contract (own i w.log) o) (hknown : Known (w.push i o ans s') row) :
    Justified (w.push i o ans s').log row.id row.metadata := by
  cases hmove with
  | same heq hseen => exact (hw.justified row (known_same heq hseen hknown)).mono push_grows
  | insert params now hev heq =>
    obtain hold | rfl := known_insert hev heq hknown
    · exact (hw.justified row hold).mono push_grows
    · cases hev
      exact justified_unfenced hcontract.1
  | write r patch now current hcurrent hop hrecords hwritten heq =>
    obtain hold | rfl := known_write hrecords heq hknown
    · exact (hw.justified row hold).mono push_grows
    · obtain ⟨hid, hcases⟩ := hw.written_cases hcurrent hop hcontract
      obtain ⟨m, hm, hmetadata⟩ | ⟨-, hmetadata⟩ := patch_metadata current patch now
      · rw [hmetadata]
        change Justified _ current.id m
        rw [hid]
        obtain ⟨row, rfl, rfl, hwrites⟩ | ⟨decision, rfl, happly, -⟩ := hcases
        · exact hw.updated_justified hwrites hm
        · exact hw.locked_justified hcurrent happly hm (Option.isSome_iff_exists.2 ⟨_,
            hwritten⟩) hcontract
      · rw [hmetadata]
        exact (hw.justified current (known_current hcurrent)).mono push_grows

theorem Journal.push_secured (hmove : RowMove o ans w.state.recoveries s'.recoveries)
    (hcontract : Contract (own i w.log) o) (hknown : Known (w.push i o ans s') row)
    (hkind : row.kind = .automaticFailover) (hstate : row.state = .promoting) :
    Secured row.metadata := by
  cases hmove with
  | same heq hseen => exact hw.secured row (known_same heq hseen hknown) hkind hstate
  | insert params now hev heq =>
    obtain hold | rfl := known_insert hev heq hknown
    · exact hw.secured row hold hkind hstate
    · cases hev
      have hstate : params.state = .promoting := hstate
      obtain ⟨hfencing, -⟩ | hblocked := hcontract.2
      · rw [hfencing] at hstate
        cases hstate
      · rw [hblocked] at hstate
        cases hstate
  | write r patch now current hcurrent hop hrecords hwritten heq =>
    obtain hold | rfl := known_write hrecords heq hknown
    · exact hw.secured row hold hkind hstate
    · have hkind : current.kind = .automaticFailover := hkind
      obtain ⟨hid, hcases⟩ := hw.written_cases hcurrent hop hcontract
      obtain ⟨row, rfl, rfl, hwrites⟩ | ⟨decision, rfl, happly, hmoved⟩ := hcases
      · obtain ⟨m, hm⟩ := hwrites.metadata
        have hmetadata : (current.patch patch now).metadata = m := by
          rw [RecoveryRecord.patch, hm]; rfl
        rw [hmetadata]
        obtain hpromoting | ⟨hnone, hpromoting⟩ := patch_state hstate
        · obtain ⟨m', rfl⟩ := hwrites.eq_of_promoting hpromoting
          cases hm
          exact hw.write_secured hwrites hcurrent hkind
        · exact hw.note_secured hwrites hnone hm hcurrent hkind hpromoting
      · obtain hpromoting | ⟨-, hpromoting⟩ := patch_state hstate
        · obtain ⟨-, -, m, hm, hfenced⟩ := hmoved.promoting hpromoting
          have hmetadata : (current.patch patch now).metadata = m := by
            rw [RecoveryRecord.patch, hm]; rfl
          rw [hmetadata]
          exact .inr (hfenced hkind)
        · have hsecured := hw.secured current (known_current hcurrent) hkind hpromoting
          obtain ⟨m, hm, hmetadata⟩ | ⟨-, hmetadata⟩ := patch_metadata current patch now
          · rw [hmetadata]
            refine hmoved.secured m hm hsecured ?_
            rw [hpromoting]
            exact RecoveryState.noConfusion
          · rw [hmetadata]
            exact hsecured

end

theorem Seen.mono {log log' : Log} (h : log <+: log') (hseen : Seen log row) :
    Seen log' row := by
  obtain ⟨ev, hev, hrow⟩ := hseen
  exact ⟨ev, h.subset hev, hrow⟩

theorem Journal.writes_current (hw : Journal w) (hwrites : Writes row (own i w.log) patch) :
    ∃ current, w.state.recoveries[row.id]? = some current := by
  have hwrote : ∀ {m ans}, ⟨.updateRecovery row.id { state := some .promoting, metadata := some m },
    ans⟩ ∈
      own i w.log → ∃ current, w.state.recoveries[row.id]? = some current := fun hev => by
    obtain ⟨-, row', hseen, hid, -⟩ := hw.wrote i row.id _ ⟨_, mem_own.1 hev⟩
    obtain ⟨current, hcurrent, -⟩ := hw.stable row' (.inr hseen)
    exact ⟨current, hid ▸ hcurrent⟩
  have hsaw : Saw row (own i w.log) → ∃ current, w.state.recoveries[row.id]? = some current :=
    fun hsaw => by
    obtain ⟨current, hcurrent, -⟩ := hw.stable row (known_of_saw hsaw)
    exact ⟨current, hcurrent⟩
  cases hwrites with
  | note hrow => exact hsaw hrow
  | queued hev => exact hwrote hev
  | unqueued hev => exact hwrote hev
  | promote hrow => exact hsaw hrow
  | promoteAgain hev => exact hwrote hev
  | promoteOffline hbegan => exact hsaw (saw_of_began hbegan)
  | endBegun hbegan => exact hsaw (saw_of_began hbegan)

theorem Journal.push_wrote (hw : Journal w) (hexec : machine.exec i e o w.state = some (ans, s'))
    (hcontract : Contract (own i w.log) o) (j : ℕ) (r : RecoveryId) (m : RecoveryMetadata)
    (hpromotes : Promotes (w.push i o ans s').log j r m) : Justified (w.push i o ans s').log r m ∧
      ∃ row, Seen (w.push i o ans s').log row ∧ row.id = r ∧ row.state = .promoting ∧
        (row.kind = .automaticFailover → Secured m) := by
  obtain ⟨updated, hev⟩ := hpromotes
  obtain hev | hev := mem_push.1 hev
  · obtain ⟨hjustified, row, hseen, hrow⟩ := hw.wrote j r m ⟨updated, hev⟩
    exact ⟨hjustified.mono push_grows, row, hseen.mono push_grows, hrow⟩
  · cases hev
    obtain ⟨row, rfl, hwrites⟩ := hcontract
    refine ⟨hw.updated_justified hwrites rfl, ?_⟩
    obtain ⟨current, hcurrent⟩ := hw.writes_current hwrites
    obtain ⟨hnone, -⟩ | ⟨current', hcurrent', rfl, -⟩ := Db.update_eq_some hexec
    · rw [hcurrent] at hnone
      cases hnone
    · cases hcurrent.symm.trans hcurrent'
      refine ⟨_, ⟨_, mem_push.2 (.inr rfl), mem_singleton.2 rfl⟩,
        hw.ids _ current hcurrent, rfl, ?_⟩
      exact fun hkind => hw.write_secured hwrites hcurrent hkind

variable {j : ℕ}

theorem began_push (hbegan : Began row (own j (w.push i o ans s').log)) :
    Began row (own j w.log) ∨ j = i ∧ ∃ params, params.state = .fencing ∧
      (⟨o, ans⟩ : (o : Op) × Ans o) = ⟨.insertRecoveryIfFree params, some row⟩ := by
  obtain ⟨params, hev, hstate⟩ := hbegan
  obtain hev | hev := mem_push.1 (mem_own.1 hev)
  · exact .inl ⟨params, mem_own.2 hev, hstate⟩
  · cases hev
    exact .inr ⟨rfl, params, hstate, rfl⟩

theorem insert_id (hmove : RowMove o ans w.state.recoveries s'.recoveries)
    (hev : (⟨o, ans⟩ : (o : Op) × Ans o) = ⟨.insertRecoveryIfFree params, some row⟩) :
    row.id = w.state.recoveries.length := by
  cases hmove with
  | same heq hseen hwritten hinsert => exact absurd hev (hinsert params row)
  | insert params' now hev' heq =>
    rw [hev'] at hev
    cases hev
    rfl
  | write r patch now current hcurrent hop =>
    obtain rfl | ⟨decision, rfl, -⟩ := hop <;> cases hev

section

variable (hw : Journal w)
include hw

theorem Journal.push_unique (hmove : RowMove o ans w.state.recoveries s'.recoveries)
    {k : ℕ} {row row' : RecoveryRecord} (hbegan : Began row (own j (w.push i o ans s').log))
    (hbegan' : Began row' (own k (w.push i o ans s').log)) (hid : row.id = row'.id) : j = k := by
  have hnew : ∀ {j row row'}, Began row (own j w.log) → (∃ params, params.state = .fencing ∧
      (⟨o, ans⟩ : (o : Op) × Ans o) = ⟨.insertRecoveryIfFree params, some row'⟩) →
        row.id ≠ row'.id := by
    rintro j row row' hold ⟨params, -, hev⟩ heq
    have hlt := known_lt hw (known_of_saw (saw_of_began hold))
    rw [heq, insert_id hmove hev] at hlt
    exact lt_irrefl _ hlt
  obtain hold | ⟨rfl, hev⟩ := began_push hbegan
  · obtain hold' | ⟨rfl, hev'⟩ := began_push hbegan'
    · exact hw.unique j k row row' hold hold' hid
    · exact absurd hid (hnew hold hev')
  · obtain hold' | ⟨rfl, -⟩ := began_push hbegan'
    · exact absurd hid.symm (hnew hold' hev)
    · rfl

theorem Journal.fresh_write (hcurrent : w.state.recoveries[r]? = some current)
    (hop : o = .updateRecovery r patch ∨ ∃ decision, o = .updateRecoveryLocked r decision ∧
        decision.apply current now = some patch)
    (hcontract : Contract (own i w.log) o) (hfresh : ∀ row, Known w row → row.id = r → Fresh row)
    (htouches : ∀ row, Began row (own i w.log) → row.id = r → ¬Touches r o) :
    Fresh (current.patch patch now) := by
  obtain ⟨hid, hcases⟩ := hw.written_cases hcurrent hop hcontract
  have hold := hfresh current (known_current hcurrent) hid
  obtain ⟨row, rfl, rfl, hwrites⟩ | ⟨decision, rfl, -, hmoved⟩ := hcases
  · obtain ⟨hbegan, -⟩ := hw.write_fresh hwrites hfresh
    exact absurd rfl (htouches row hbegan rfl)
  · have htarget : patch.targetMemberId = none := by
      obtain hnone | ⟨reason, unlessFenced, extra, rfl, -⟩ := hmoved.target
      · exact hnone
      · obtain ⟨-, row, hrow, hsaw, hids⟩ := hcontract (.inl rfl)
        exact absurd (hfresh row (known_of_saw hsaw) hrow).ids hids
    refine ⟨fun hstate => ?_, ?_, fun hnone => ?_⟩
    · obtain hpromoting | ⟨-, hpromoting⟩ := patch_state hstate
      · obtain ⟨-, ⟨c, hc⟩, -⟩ := hmoved.promoting hpromoting
        rw [hold.ids] at hc
        cases hc
      · exact hold.state hpromoting
    · obtain ⟨m, hm, hmetadata⟩ | ⟨-, hmetadata⟩ := patch_metadata current patch now
      · rw [hmetadata]
        obtain hkept | ⟨ids, haPresent, rfl, -⟩ := hmoved.ids m hm
        · rw [hold.ids] at hkept
          exact eq_nil_iff_forall_not_mem.2 fun c hc => absurd (hkept c hc) not_mem_nil
        · obtain ⟨row, hrow, hbegan, -⟩ := hcontract
          exact absurd rfl (htouches row hbegan hrow)
      · rw [hmetadata]
        exact hold.ids
    · obtain hsome | ⟨-, hnone⟩ := patch_target hnone
      · exact hsome htarget
      · exact hold.target hnone

theorem Journal.push_untouched (hmove : RowMove o ans w.state.recoveries s'.recoveries)
    (hcontract : Contract (own i w.log) o) (hbegan : Began row (own j (w.push i o ans s').log))
    (huntouched : Untouched row.id (own j (w.push i o ans s').log)) {row' : RecoveryRecord}
    (hknown : Known (w.push i o ans s') row') (hid : row'.id = row.id) : Fresh row' := by
  obtain hold | ⟨rfl, params, hfencing, hev⟩ := began_push hbegan
  · have hbefore : Untouched row.id (own j w.log) :=
      fun ev hev => huntouched ev ((own_mono push_grows j).subset hev)
    have hfresh := hw.untouched j row hold hbefore
    cases hmove with
    | same heq hseen => exact hfresh row' (known_same heq hseen hknown) hid
    | insert params now hev heq =>
      obtain hknown | rfl := known_insert hev heq hknown
      · exact hfresh row' hknown hid
      · have hlt := known_lt hw (known_of_saw (saw_of_began hold))
        exact absurd hid.symm hlt.ne
    | write r patch now current hcurrent hop hrecords hwritten heq =>
      obtain hknown | rfl := known_write hrecords heq hknown
      · exact hfresh row' hknown hid
      · have hr : row.id = r := hid.symm.trans (hw.ids r current hcurrent)
        rw [hr] at hfresh huntouched
        refine hw.fresh_write hcurrent hop hcontract hfresh fun row₂ hbegan₂ hid₂ htouches => ?_
        obtain rfl := hw.unique i j row₂ row hbegan₂ hold (hid₂.trans hr.symm)
        exact huntouched ⟨o, ans⟩ (mem_own.2 (mem_push.2 (.inr rfl))) htouches
  · have hlength := insert_id hmove hev
    have hnot : ∀ {row'}, Known w row' → row'.id ≠ row.id := fun hknown heq => by
      have hlt := known_lt hw hknown
      rw [heq, hlength] at hlt
      exact lt_irrefl _ hlt
    cases hmove with
    | same heq hseen => exact absurd hid (hnot (known_same heq hseen hknown))
    | insert params' now hev' heq =>
      obtain hknown | rfl := known_insert hev' heq hknown
      · exact absurd hid (hnot hknown)
      · rw [hev'] at hev
        cases hev
        cases hev'
        obtain ⟨hunfenced, ⟨-, htarget⟩ | hblocked⟩ := hcontract
        · refine ⟨fun hstate => ?_, ?_, htarget⟩
          · have hstate : params.state = .promoting := hstate
            rw [hfencing] at hstate
            cases hstate
          · change params.metadata.fenceCommandIds.getD [] = []
            rw [hunfenced.fenceCommandIds]
            rfl
        · rw [hblocked] at hfencing
          cases hfencing
    | write r patch now current hcurrent hop =>
      obtain rfl | ⟨decision, rfl, -⟩ := hop <;> cases hev

theorem Journal.mem_write {row current' : RecoveryRecord}
    (hmem : current' ∈ w.state.recoveries.set r row) :
    current' = row ∨ current' ∈ w.state.recoveries ∧ current'.id ≠ r := by
  obtain ⟨n, hn⟩ := getElem?_of_mem hmem
  rw [getElem?_set] at hn
  split at hn
  · split at hn
    · exact .inl (Option.some.inj hn).symm
    · cases hn
  · rename_i hne
    refine .inr ⟨mem_of_getElem? hn, fun hid => hne ?_⟩
    rw [← hw.ids n current' hn, hid]

theorem Journal.push_fencing (hmove : RowMove o ans w.state.recoveries s'.recoveries)
    (hcontract : Contract (own i w.log) o) {current' : RecoveryRecord}
    (hcurrent' : current' ∈ s'.recoveries)
    (hfencing : current'.state = .fencing) (hknown : Known (w.push i o ans s') row)
    (hid : row.id = current'.id) :
    row.state ≠ .promoting := by
  cases hmove with
  | same heq hseen =>
    exact hw.fencing current' (heq ▸ hcurrent') hfencing row (known_same heq hseen hknown) hid
  | insert params now hev heq =>
    have hcurrent : Known w current' ∨ current' = params.row w.state.recoveries.length now := by
      rw [heq, mem_append, mem_singleton] at hcurrent'
      exact hcurrent'.imp_left .inl
    obtain hold | rfl := known_insert hev heq hknown
    · obtain hcurrent | rfl := hcurrent
      · rw [heq, mem_append, mem_singleton] at hcurrent'
        obtain hmem | rfl := hcurrent'
        · exact hw.fencing current' hmem hfencing row hold hid
        · exact absurd hid (known_lt hw hold).ne
      · exact absurd hid (known_lt hw hold).ne
    · obtain hcurrent | rfl := hcurrent
      · exact absurd hid.symm (known_lt hw hcurrent).ne
      · rw [hfencing]
        exact RecoveryState.noConfusion
  | write r patch now current hcurrent hop hrecords hwritten heq =>
    obtain ⟨hr, hcases⟩ := hw.written_cases hcurrent hop hcontract
    have hnew : (current.patch patch now).id = r := hr
    rw [heq] at hcurrent'
    obtain rfl | ⟨hmem, hne⟩ := hw.mem_write hcurrent'
    · obtain hold | rfl := known_write hrecords heq hknown
      · have hwas : current.state = .fencing := by
          obtain hwrote | ⟨-, hwas⟩ := patch_state hfencing
          · obtain ⟨_, -, -, hwrites⟩ | ⟨decision, -, -, hmoved⟩ := hcases
            · exact absurd hwrote hwrites.not_fencing
            · exact absurd hwrote hmoved.fencing
          · exact hwas
        exact hw.fencing current (mem_of_getElem? hcurrent) hwas row hold hid
      · rw [hfencing]
        exact RecoveryState.noConfusion
    · obtain hold | rfl := known_write hrecords heq hknown
      · exact hw.fencing current' hmem hfencing row hold hid
      · exact absurd (hid.symm.trans hnew) hne

theorem Journal.refused_write (hcurrent : w.state.recoveries[r]? = some current)
    (hop : o = .updateRecovery r patch ∨ ∃ decision, o = .updateRecoveryLocked r decision ∧
        decision.apply current now = some patch) (hcontract : Contract (own i w.log) o)
    (hrefused : (∃ row, Known w row ∧ row.id = r ∧ row.targetMemberId = none) ∨
    patch.targetMemberId ≠ none) :
    (∀ row, Known w row → row.id = r → row.state ≠ .promoting) ∧
      (current.patch patch now).state ≠ .promoting ∧
      (current.patch patch now).state ≠ .fencing := by
  obtain ⟨hid, hcases⟩ := hw.written_cases hcurrent hop hcontract
  have hblocked : patch.state = some .blocked →
      (current.patch patch now).state ≠ .promoting ∧
        (current.patch patch now).state ≠ .fencing := by
    intro hstate
    rw [RecoveryRecord.patch, hstate]
    exact ⟨RecoveryState.noConfusion, RecoveryState.noConfusion⟩
  obtain ⟨row, hknown, hrow, htarget⟩ | htarget := hrefused
  · obtain ⟨hnever, hnot⟩ := hw.refused row hknown htarget
    rw [hrow] at hnever hnot
    have hcurrentNot := hnot current (mem_of_getElem? hcurrent) hid
    refine ⟨hnever, fun hstate => ?_, fun hstate => ?_⟩
    · obtain hwrote | ⟨-, hwas⟩ := patch_state hstate
      · obtain ⟨row₂, rfl, -, hwrites⟩ | ⟨decision, -, -, hmoved⟩ := hcases
        · obtain ⟨hbegan, huntouched⟩ | ⟨-, -, hnone, -⟩ := hw.write_begun hwrites hnever
          · exact (hw.untouched i row₂ hbegan huntouched row hknown hrow).target htarget
          · rw [hnone] at hwrote
            cases hwrote
        · exact hcurrentNot (hmoved.promoting hwrote).1
      · exact hnever current (known_current hcurrent) hid hwas
    · obtain hwrote | ⟨-, hwas⟩ := patch_state hstate
      · obtain ⟨row₂, -, -, hwrites⟩ | ⟨decision, -, -, hmoved⟩ := hcases
        · exact hwrites.not_fencing hwrote
        · exact hmoved.fencing hwrote
      · exact hcurrentNot hwas
  · obtain ⟨row₂, rfl, -, hwrites⟩ | ⟨decision, rfl, -, hmoved⟩ := hcases
    · cases hwrites with
      | endBegun hbegan huntouched =>
        refine ⟨fun row hknown hrow => ?_, hblocked rfl⟩
        exact (hw.untouched i row₂ hbegan huntouched row hknown hrow).state
      | note => exact absurd rfl htarget
      | queued => exact absurd rfl htarget
      | unqueued => exact absurd rfl htarget
      | promote => exact absurd rfl htarget
      | promoteAgain => exact absurd rfl htarget
      | promoteOffline => exact absurd rfl htarget
    · obtain hnone | ⟨reason, unlessFenced, extra, rfl, hstate, hfencing⟩ := hmoved.target
      · exact absurd hnone htarget
      · obtain ⟨hunless, -⟩ := hcontract (.inl rfl)
        refine ⟨fun row hknown hrow => ?_, hblocked hstate⟩
        exact hw.fencing current (mem_of_getElem? hcurrent)
          (hfencing hunless) row hknown (hrow.trans hid.symm)

theorem Journal.push_refused (hmove : RowMove o ans w.state.recoveries s'.recoveries)
    (hcontract : Contract (own i w.log) o) (hknown : Known (w.push i o ans s') row)
    (htarget : row.targetMemberId = none) :
    (∀ row', Known (w.push i o ans s') row' → row'.id = row.id → row'.state ≠ .promoting) ∧
      ∀ current ∈ s'.recoveries, current.id = row.id → current.state ≠ .fencing := by
  cases hmove with
  | same heq hseen =>
    obtain ⟨hnever, hnot⟩ := hw.refused row (known_same heq hseen hknown) htarget
    exact ⟨fun row' hknown' => hnever row' (known_same heq hseen hknown'),
      fun current hcurrent => hnot current (heq ▸ hcurrent)⟩
  | insert params now hev heq =>
    obtain hold | rfl := known_insert hev heq hknown
    · obtain ⟨hnever, hnot⟩ := hw.refused row hold htarget
      refine ⟨fun row' hknown' hid => ?_, fun current hcurrent hid => ?_⟩
      · obtain hold' | rfl := known_insert hev heq hknown'
        · exact hnever row' hold' hid
        · exact absurd hid.symm (known_lt hw hold).ne
      · rw [heq, mem_append, mem_singleton] at hcurrent
        obtain hmem | rfl := hcurrent
        · exact hnot current hmem hid
        · exact absurd hid.symm (known_lt hw hold).ne
    · cases hev
      have hblocked : params.state = .blocked := by
        obtain ⟨-, ⟨-, hsome⟩ | hblocked⟩ := hcontract
        · exact absurd htarget hsome
        · exact hblocked
      have hrow : (params.row w.state.recoveries.length now).state = .blocked := hblocked
      refine ⟨fun row' hknown' hid => ?_, fun current hcurrent hid => ?_⟩
      · obtain hold' | rfl := known_insert rfl heq hknown'
        · exact absurd hid (known_lt hw hold').ne
        · rw [hrow]
          exact RecoveryState.noConfusion
      · rw [heq, mem_append, mem_singleton] at hcurrent
        obtain hmem | rfl := hcurrent
        · exact absurd hid (known_lt hw (.inl hmem)).ne
        · rw [hrow]
          exact RecoveryState.noConfusion
  | write r patch now current hcurrent hop hrecords hwritten heq =>
    have hid := hw.ids r current hcurrent
    have hnew : (current.patch patch now).id = r := hid
    have hrefuse : row.id = r → ((∃ row, Known w row ∧ row.id = r ∧ row.targetMemberId = none) ∨
        patch.targetMemberId ≠ none) → (∀ row', Known (w.push i o ans s') row' → row'.id = row.id →
          row'.state ≠ .promoting) ∧ ∀ current ∈ s'.recoveries, current.id = row.id →
            current.state ≠ .fencing := by
      intro hrow hcase
      obtain ⟨hnever, hpromoting, hfencing⟩ := hw.refused_write hcurrent hop hcontract hcase
      refine ⟨fun row' hknown' hrow' => ?_, fun current' hcurrent' hrow' => ?_⟩
      · obtain hold | rfl := known_write hrecords heq hknown'
        · exact hnever row' hold (hrow'.trans hrow)
        · exact hpromoting
      · rw [heq] at hcurrent'
        obtain rfl | ⟨-, hne⟩ := hw.mem_write hcurrent'
        · exact hfencing
        · exact absurd (hrow'.trans hrow) hne
    obtain hold | rfl := known_write hrecords heq hknown
    · by_cases hrow : row.id = r
      · exact hrefuse hrow (.inl ⟨row, hold, hrow, htarget⟩)
      · obtain ⟨hnever, hnot⟩ := hw.refused row hold htarget
        refine ⟨fun row' hknown' hrow' => ?_, fun current' hcurrent' hrow' => ?_⟩
        · obtain hold' | rfl := known_write hrecords heq hknown'
          · exact hnever row' hold' hrow'
          · exact absurd (hrow'.symm.trans hnew) hrow
        · rw [heq] at hcurrent'
          obtain rfl | ⟨hmem, -⟩ := hw.mem_write hcurrent'
          · exact absurd (hrow'.symm.trans hnew) hrow
          · exact hnot current' hmem hrow'
    · refine hrefuse hnew ?_
      obtain hsome | ⟨-, hnone⟩ := patch_target htarget
      · exact .inr hsome
      · exact .inl ⟨current, known_current hcurrent, hid, hnone⟩

theorem Journal.lost_cases (hcontract : Contract (own i w.log) o)
    (hlost : Lost (w.push i o ans s').log r) : Lost w.log r ∨
      (∃ m, o = .updateRecovery r { state := some .promoting, metadata := some m } ∧
        m.fenceBasis = some .hostLossAttested) ∧ ∀ row, Known w row → row.id = r → Fresh row := by
  obtain ⟨j, row, m, hbegan, rfl, hattests, updated, hev⟩ := hlost
  obtain hev | hev := mem_push.1 hev
  · exact .inl ((hw.wrote j row.id m ⟨updated, hev⟩).1.lost hattests.1.fenceBasis)
  · cases hev
    obtain ⟨row₂, hid, hwrites⟩ := hcontract
    rw [← hid]
    cases hwrites with
    | promote hsaw hstate hsame =>
      refine .inl ((hw.justified row₂ (known_of_saw hsaw)).lost ?_)
      exact hsame.fenceBasis.symm.trans hattests.1.fenceBasis
    | promoteAgain hwrote hsame =>
      refine .inl ((hw.wrote i row₂.id _ ⟨_, mem_own.1 hwrote⟩).1.lost ?_)
      exact hsame.fenceBasis.symm.trans hattests.1.fenceBasis
    | promoteOffline hbegan₂ huntouched =>
      exact .inr ⟨⟨m, rfl, hattests.1.fenceBasis⟩, hw.untouched i row₂ hbegan₂ huntouched⟩

theorem lost_lt (hlost : Lost w.log r) : r < w.state.recoveries.length := by
  obtain ⟨j, row, m, -, -, -, hpromotes⟩ := hlost
  obtain ⟨-, row', hseen, rfl, -⟩ := hw.wrote j r m hpromotes
  exact known_lt hw (.inr hseen)

theorem Journal.push_lost (hexec : machine.exec i e o w.state = some (ans, s'))
    (hcontract : Contract (own i w.log) o) (hlost : Lost (w.push i o ans s').log r) :
    (∀ row ∈ s'.recoveries, row.id = r → row.metadata.fenceBasis = some .hostLossAttested) ∧
    (∀ row, Known (w.push i o ans s') row → row.id = r → row.state = .promoting →
      row.metadata.fenceBasis = some .hostLossAttested) ∧
    ∀ j m, Promotes (w.push i o ans s').log j r m → m.fenceBasis = some .hostLossAttested := by
  have hwrote : (∀ {m}, o = .updateRecovery r { state := some .promoting, metadata := some m } →
      m.fenceBasis = some .hostLossAttested) → (∀ j m, Promotes w.log j r m →
        m.fenceBasis = some .hostLossAttested) →
      ∀ j m, Promotes (w.push i o ans s').log j r m → m.fenceBasis = some .hostLossAttested := by
    rintro hnew hold j m ⟨updated, hev⟩
    obtain hev | hev := mem_push.1 hev
    · exact hold j m ⟨updated, hev⟩
    · cases hev
      exact hnew rfl
  obtain hbefore | ⟨⟨m, rfl, hattested⟩, hfresh⟩ := hw.lost_cases hcontract hlost
  · obtain ⟨hrows, hpromoting, hold⟩ := hw.lost r hbefore
    have hlt := lost_lt hw hbefore
    refine and_assoc.1 ⟨?_, hwrote (fun heq => ?_) hold⟩
    · cases rowMove_of_exec hexec with
      | same heq hseen =>
        exact ⟨fun row hrow => hrows row (heq ▸ hrow),
          fun row hknown => hpromoting row (known_same heq hseen hknown)⟩
      | insert params now hev heq =>
        have hne : (params.row w.state.recoveries.length now).id ≠ r := hlt.ne'
        refine ⟨fun row hrow hid => ?_, fun row hknown hid => ?_⟩
        · rw [heq, mem_append, mem_singleton] at hrow
          obtain hmem | rfl := hrow
          · exact hrows row hmem hid
          · exact absurd hid hne
        · obtain hold | rfl := known_insert hev heq hknown
          · exact hpromoting row hold hid
          · exact absurd hid hne
      | write r' patch now current hcurrent hop hrecords hwritten heq =>
        obtain ⟨hr, hcases⟩ := hw.written_cases hcurrent hop hcontract
        have hnew : current.id = r →
          (current.patch patch now).metadata.fenceBasis = some .hostLossAttested := by
          intro hid
          have hbasis := hrows current (mem_of_getElem? hcurrent) hid
          obtain ⟨m, hm, hmetadata⟩ | ⟨-, hmetadata⟩ := patch_metadata current patch now
          · rw [hmetadata]
            obtain ⟨row, rfl, -, hwrites⟩ | ⟨decision, -, -, hmoved⟩ := hcases
            · exact hw.write_lost hwrites hm (hr.symm.trans hid ▸ hbefore)
            · rw [hmoved.basis m hm]
              exact hbasis
          · rw [hmetadata]
            exact hbasis
        refine ⟨fun row hrow hid => ?_, fun row hknown hid => ?_⟩
        · rw [heq] at hrow
          obtain hmem | rfl := mem_or_eq_of_mem_set hrow
          · exact hrows row hmem hid
          · exact hnew hid
        · obtain hold | rfl := known_write hrecords heq hknown
          · exact hpromoting row hold hid
          · exact fun _ => hnew hid
    · subst heq
      obtain ⟨row, rfl, hwrites⟩ := hcontract
      exact hw.write_lost hwrites rfl hbefore
  · have hnever : ∀ row, Known w row → row.id = r → row.state ≠ .promoting :=
      fun row hknown hid => (hfresh row hknown hid).state
    refine and_assoc.1 ⟨?_, hwrote (fun heq => ?_) fun j m hp => ?_⟩
    · obtain ⟨row, rfl, hwrites⟩ := hcontract
      obtain ⟨current, hcurrent⟩ := hw.writes_current hwrites
      obtain ⟨hnone, -⟩ | ⟨current', hcurrent', rfl, rfl⟩ := Db.update_eq_some hexec
      · rw [hcurrent] at hnone
        cases hnone
      · have hnew : (current'.patch { state := some .promoting, metadata := some m }
          e.now).id = row.id :=
          hw.ids row.id current' hcurrent'
        refine ⟨fun row' hrow' hid => ?_, fun row' hknown hid hstate => ?_⟩
        · obtain rfl | ⟨-, hne⟩ := hw.mem_write hrow'
          · exact hattested
          · exact absurd hid hne
        · obtain hold | rfl := known_write rfl rfl hknown
          · exact absurd hstate (hnever row' hold hid)
          · exact hattested
    · cases heq
      exact hattested
    · obtain ⟨-, row, hseen, hid, hstate, -⟩ := hw.wrote j r m hp
      exact absurd hstate (hnever row (.inr hseen) hid)

theorem Journal.push_commands (hexec : machine.exec i e o w.state = some (ans, s'))
    {spec : CommandSpec} {c : CommandId}
    (hev : ⟨j, .createCommandRecord spec, c⟩ ∈ (w.push i o ans s').log) :
    ∃ command, s'.commands[c]? = some command ∧ command.spec = spec := by
  obtain hev | hev := mem_push.1 hev
  · obtain ⟨command, hcommand, rfl⟩ := hw.commands j spec c hev
    exact exec_commands hexec hcommand
  · cases hev
    cases hexec
    exact ⟨_, getElem?_concat_length, rfl⟩

/-- **Each statement keeps the journal.** -/
theorem Journal.push (hcontract : Contract (own i w.log) o)
    (hexec : machine.exec i e o w.state = some (ans, s')) : Journal (w.push i o ans s') where
  ids := hw.push_ids (rowMove_of_exec hexec)
  stable _ hknown := hw.push_stable (rowMove_of_exec hexec) hknown
  justified _ hknown := hw.push_justified (rowMove_of_exec hexec) hcontract hknown
  secured _ hknown hkind hstate :=
    hw.push_secured (rowMove_of_exec hexec) hcontract hknown hkind hstate
  wrote := hw.push_wrote hexec hcontract
  unique _ _ _ _ hbegan hbegan' hid := hw.push_unique (rowMove_of_exec hexec) hbegan hbegan' hid
  untouched _ _ hbegan huntouched _ hknown hid :=
    hw.push_untouched (rowMove_of_exec hexec) hcontract hbegan huntouched hknown hid
  fencing _ hcurrent hfencing _ hknown hid :=
    hw.push_fencing (rowMove_of_exec hexec) hcontract hcurrent hfencing hknown hid
  refused _ hknown htarget := hw.push_refused (rowMove_of_exec hexec) hcontract hknown htarget
  lost _ hlost := hw.push_lost hexec hcontract hlost
  commands _ _ _ hev := hw.push_commands hexec hev

end

end

/-! ## Runs -/

/-- What happens in a run. -/
abbrev Choices := List (Choice Env Call)

/-- The world after a run on a cluster without recoveries. -/
def reached (members : List ManagedMemberRow) (choices : Choices) : Config Op Ans Db :=
  (Config.init (Db.fresh members)).run machine body choices

theorem reached_keeps (members : List ManagedMemberRow) (choices : Choices) :
    Obeys Answers Contract (reached members choices) ∧ Journal (reached members choices).world := by
  have hstep : ∀ {i : ℕ} {e : Env} {o : Op} {w : World Op Ans Db} {ans : Ans o} {s' : Db},
    Journal w → True →
      Contract (own i w.log) o → machine.exec i e o w.state = some (ans, s') →
        Journal (w.push i o ans s') :=
    fun hw _ hcontract hexec => hw.push hcontract hexec
  exact Config.run_inv hstep (fun hw => hw) body_obeys answers_of_exec (obeys_init _)
    (journal_init members)
    (meets_true machine body _ choices)

/-- The old primary is fenced: the recovery has an attested fence, which it was begun for, or the
stop and a drain of its fence were reported succeeded. -/
def OldPrimaryFenced (log : Log) (row : RecoveryRecord) : Prop :=
  (row.metadata.fenceBasis = some .hostLossAttested ∧ Lost log row.id) ∨
    (∃ stop, Recorded log row.id stop ∧ Reported log stop .stop) ∧
      ∃ drain, Recorded log row.id drain ∧ Reported log drain .drain

/-- **An automatic failover never promotes an unfenced primary.** Whenever a call is about to hand a
promote of its target to the queue, the old primary is fenced. -/
theorem automaticFailover_promotes_fenced (members : List ManagedMemberRow)
    (choices : Choices) {i : ℕ}
    {c : CommandId} {next : Bool → Proc Unit}
    (hthread : (reached members choices).threads[i]? = some (.op (.enqueue c) next))
    {command : CommandRecord} (hcommand : (reached members choices).world.state.commands[c]? =
    some command)
    (hpromotes : command.spec.kind.promotes = true) {row : RecoveryRecord}
    (hrow : (reached members choices).world.state.recoveries[row.id]? = some row)
    (hrecovery : command.spec.recoveryId = some row.id) (hkind : row.kind = .automaticFailover) :
    OldPrimaryFenced (reached members choices).world.log row := by
  obtain ⟨hobeys, hw⟩ := reached_keeps members choices
  obtain ⟨spec, hcreated, hready⟩ := (hobeys.threads i _ hthread).1
  obtain ⟨command', hcommand', rfl⟩ := hw.commands i spec c (mem_own.1 hcreated)
  cases hcommand.symm.trans hcommand'
  obtain ⟨r, m, updated, hr, hwrote, -⟩ := hready.promotes hpromotes
  cases hrecovery.symm.trans hr
  obtain ⟨hjustified, row', hseen, hid, -, hsecured⟩ :=
    hw.wrote i row.id m ⟨updated, mem_own.1 hwrote⟩
  obtain hattested | ⟨hdrained, hstopped⟩ :=
    hsecured ((hw.kind_eq hrow (.inr hseen) hid).trans hkind)
  · have hlost := hjustified.lost hattested
    exact .inl ⟨(hw.lost row.id hlost).1 row (mem_of_getElem? hrow) rfl, hlost⟩
  · exact .inr ⟨hjustified.stopped hstopped, hjustified.drained hdrained⟩

/-! ## A failover that fences -/

def oldPrimary : ManagedMemberRow := ⟨0, 0, 0, .primary⟩

def newPrimary : ManagedMemberRow := ⟨1, 0, 1, .replica⟩

def deadPrimary : AutomaticFailoverParams where
  managedId := 0
  engine := .postgres
  primary := oldPrimary
  members := [oldPrimary]
  candidate := .ok newPrimary
  hasQueue := true
  off := false
  hostLossIncident := none

/-- A thread goes on for a number of statements. -/
def steps (i n : ℕ) : Choices := List.replicate n (.step i {})

/-- The failover begins, and its drain and its stop are reported succeeded; the promote is next. -/
def fencedFailover : Choices :=
  .call (.beginAutomaticFailover deadPrimary) :: steps 0 14 ++
    .call (.succeeded 0 ⟨true, .postgres, none, false, none⟩) :: steps 1 2 ++
    .call (.succeeded 1 ⟨true, .postgres, none, false, none⟩) :: steps 2 5

theorem fencedFailover_promotes_fenced : ∃ row,
    (reached [oldPrimary, newPrimary] fencedFailover).world.state.recoveries[0]? = some row ∧
      OldPrimaryFenced (reached [oldPrimary, newPrimary] fencedFailover).world.log row :=
  ⟨_, rfl, automaticFailover_promotes_fenced _ _ (i := 2) (c := 2) rfl rfl rfl rfl rfl rfl⟩

end TurboPanel.Recovery
