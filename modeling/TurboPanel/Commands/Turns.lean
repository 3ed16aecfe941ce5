import TurboPanel.Commands.Outcomes

/-!
# One command at a time on a server

The turn of a server is claimed under the lock of its row, after a look that found no other command
under way. Nothing but a claim brings a command under way, so the look stays true while the lock is
held. Two things can break this. A deploy leaves the lane when it was sent long enough ago: a second
delivery that marks it as sent only then brings it back, while another command may have taken the
turn. And a claim tells two deliveries apart by the time of the dispatch that they read, which is no
longer so when two claims have the same time.

When neither happens, at most one command that is not quick is under way on a server at any time,
and no two deliveries claim a command for the same reading.
-/

namespace TurboPanel.CommandRecords

open Bool Interleaving List

/-! ## What an operation does to a turn -/

/-- How an operation moves what the turn of a server depends on: the status, when the command was
sent, and when its dispatch began. -/
inductive TurnMove (row : CommandRow) : Op → CommandRow → Prop where
  | stays {o : Op} {row' : CommandRow} (hstatus : row'.status = row.status) (hsent : row'.sentAt = row.sentAt)
    (hstarted : row'.dispatchStartedAt = row.dispatchStartedAt) : TurnMove row o row'
  | transition {patch : CommandTransitionPatch} {now : ℤ}
    (hguard : patch.status.terminal = true ∨ row.status.terminal = false) :
    TurnMove row (.transitionCommand row.key.id patch now) (patch.apply now row)
  | ends {o : Op} {row' : CommandRow} (hterminal : row'.status.terminal = true)
    (hstarted : row'.dispatchStartedAt = row.dispatchStartedAt) : TurnMove row o row'
  | claim {input : ServerTurnInput} {o : Op} {now : ℤ} {row' : CommandRow}
    (ho : o = .markClaimed input now ∨ o = .commitClaim input now) (hid : row.key.id = input.commandId)
    (hstarted : row.dispatchStartedAt = input.dispatchStartedAt)
    (hstatus : row'.status = .dispatching) (hstarted' : row'.dispatchStartedAt = some now) :
    TurnMove row o row'

theorem turnMove_onRow (e : Env) (s : CommandStore) (o : Op) (row : CommandRow) :
    TurnMove row o (o.onRow e s row) := by
  unfold Op.onRow
  split
  · rename_i hguard
    cases o with
    | transitionCommand id patch now =>
      simp only [Op.guard, and_eq_true, or_eq_true, not_eq_true', decide_eq_true_eq] at hguard
      obtain ⟨rfl, hguard⟩ := hguard
      exact .transition hguard
    | cancelCommandWhen id when_ now => exact .ends rfl rfl
    | flipTimedOut id outcome now => cases outcome <;> exact .ends rfl rfl
    | markClaimed input now =>
      simp only [Op.guard, and_eq_true, decide_eq_true_eq] at hguard
      exact .claim (.inl rfl) hguard.1.1.1 hguard.2 rfl rfl
    | commitClaim input now =>
      simp only [Op.guard, and_eq_true, decide_eq_true_eq] at hguard
      exact .claim (.inr rfl) hguard.1.1.1 hguard.2 rfl rfl
    | _ => exact .stays rfl rfl rfl
  · exact .stays rfl rfl rfl

/-! ## Commands that count -/

/-- The operation stored a plan that says something of the run. -/
def StoresReport (id : String) : (o : Op) × Ans o → Prop
  | ⟨.storeFrame id' _ progress _, true⟩ => id' = id ∧ progress.runningSince ≠ .absent
  | ⟨.storeAlive id' _ progress _, true⟩ =>
    id' = id ∧ (progress.any fun stored => stored.runningSince ≠ .absent) = true
  | _ => False

/-- The server has reported on the command, before the run or in it. -/
def HasReported (initial : CommandStore) (log : List (Event Op Ans)) (id : String) : Prop :=
  (∃ row ∈ initial.rows, row.key.id = id ∧ row.reports = true) ∨
    ∃ ev ∈ log, StoresReport id ⟨ev.op, ev.ans⟩

/-- The command counts as under way on its server: it is not quick, and not a deploy that was handed
over. -/
def Counts (initial : CommandStore) (w : World Op Ans CommandStore) (row : CommandRow) : Prop :=
  row.key.type.quick = false ∧ row.status.underWay = true ∧
    (row.key.type = .environmentDeploy → row.status ≠ .dispatching →
      ¬HasReported initial w.log row.key.id ∧ row.sentBefore w.state.clock = false)

/-- At most one command of a server counts. -/
def OneTurn (initial : CommandStore) (w : World Op Ans CommandStore) : Prop :=
  ∀ row ∈ w.state.rows, ∀ row' ∈ w.state.rows, row.key.serverId = row'.key.serverId →
    Counts initial w row → Counts initial w row' → row = row'

/-- No two deliveries claimed a command for the same reading. -/
def ClaimedOnce (w : World Op Ans CommandStore) : Prop :=
  w.log.Pairwise fun ev ev' => ∀ input input', Claims input ⟨ev.op, ev.ans⟩ →
    Claims input' ⟨ev'.op, ev'.ans⟩ → input.commandId = input'.commandId →
      (input.status, input.dispatchStartedAt) ≠ (input'.status, input'.dispatchStartedAt)

/-- A deploy that left the lane by its age alone is not marked as sent, and no claim of a command
has a time that this or an earlier claim of it read. -/
def TurnsApart (initial : CommandStore) (_ : ℕ) (w : World Op Ans CommandStore) : Op → Prop
  | .transitionCommand id patch _ => patch.status = .sent → ∀ row ∈ w.state.rows, row.key.id = id →
    row.key.type = .environmentDeploy → row.status.underWay = true → row.status ≠ .dispatching →
      HasReported initial w.log id ∨ row.sentBefore w.state.clock = false
  | .markClaimed input now | .commitClaim input now => input.dispatchStartedAt ≠ some now ∧
    ∀ ev ∈ w.log, ∀ input', Claims input' ⟨ev.op, ev.ans⟩ → input'.commandId = input.commandId →
      input'.dispatchStartedAt ≠ some now
  | _ => True

variable {initial : CommandStore}

theorem HasReported.append {log : List (Event Op Ans)} {id : String}
    (h : HasReported initial log id) (ev : Event Op Ans) : HasReported initial (log ++ [ev]) id := by
  obtain hrow | ⟨ev', hev', hreport⟩ := h
  · exact .inl hrow
  · exact .inr ⟨ev', mem_append_left _ hev', hreport⟩

theorem CommandRow.sentBefore_mono {row : CommandRow} {now now' : ℤ} (hle : now ≤ now')
    (h : row.sentBefore now = true) : row.sentBefore now' = true := by
  unfold CommandRow.sentBefore at h ⊢
  cases hsent : row.sentAt with
  | none =>
    rw [hsent] at h
    cases h
  | some sentAt =>
    rw [hsent] at h
    have := of_decide_eq_true h
    exact decide_eq_true (by omega)

theorem live_of_underWay {status : CommandStatus} (h : status.underWay = true) : status.terminal = false := by
  cases status <;> first | rfl | cases h

/-! ## The invariant -/

/-- What holds of the turns in every world of a run. -/
structure TurnsKept (initial : CommandStore) (w : World Op Ans CommandStore) : Prop where
  ended : EndedStay w
  /-- A plan on the row of a live command was reported. -/
  reported : ∀ row ∈ w.state.rows, row.status.terminal = false → row.reports = true →
    HasReported initial w.log row.key.id
  /-- A command that was read is there. -/
  read : ∀ ev ∈ w.log, ∀ record, Reads record ⟨ev.op, ev.ans⟩ → ∃ row ∈ w.state.rows, row.key = record.key
  /-- A command that was claimed waits no more, and is not as it was read. -/
  claimed : ∀ ev ∈ w.log, ∀ input, Claims input ⟨ev.op, ev.ans⟩ → ∃ row ∈ w.state.rows,
    row.key.id = input.commandId ∧ row.status ≠ .queued ∧ row.dispatchStartedAt ≠ input.dispatchStartedAt
  /-- A transaction began in the past. -/
  began : ∀ ev ∈ w.log, ∀ txNow, Begins txNow ⟨ev.op, ev.ans⟩ → txNow ≤ w.state.clock
  /-- A server that was found free is so for as long as the lock is held. -/
  free : ∀ i input, w.state.lock input.serverId = some i → Since (SeesFree input) Idle (own i w.log) →
    ∀ row ∈ w.state.rows, row.key.serverId = input.serverId → row.key.id ≠ input.commandId →
      ¬Counts initial w row
  oneTurn : OneTurn initial w
  claimedOnce : ClaimedOnce w

theorem turnsKept_init {s : CommandStore} (h : OneTurn s ⟨s, []⟩) : TurnsKept s ⟨s, []⟩ where
  ended _ hev := nomatch hev
  reported row hrow _ hreports := .inl ⟨row, hrow, rfl, hreports⟩
  read _ hev := nomatch hev
  claimed _ hev := nomatch hev
  began _ hev := nomatch hev
  free _ _ _ hsince := absurd hsince not_since_nil
  oneTurn := h
  claimedOnce := List.Pairwise.nil

section

variable {initial : CommandStore} {i : ℕ} {e : Env} {o : Op} {w : World Op Ans CommandStore} {ans : Ans o}
  {s' : CommandStore}

variable {input : ServerTurnInput} {row : CommandRow}

theorem row_of_claims (hexec : exec i e o w.state = some (ans, s')) (hclaims : Claims input ⟨o, ans⟩) :
    ∃ now, (o = .markClaimed input now ∨ o = .commitClaim input now) ∧
      ∃ row ∈ w.state.rows, row.key.id = input.commandId ∧
        row.dispatchStartedAt = input.dispatchStartedAt ∧
          (o.onRow e (w.state.elapse e.elapsed) row).status = .dispatching ∧
            (o.onRow e (w.state.elapse e.elapsed) row).dispatchStartedAt = some now := by
  obtain ⟨-, hans, -⟩ := exec_eq_some hexec
  cases o with
  | markClaimed input' now =>
    cases ans with
    | false => exact hclaims.elim
    | true =>
      obtain rfl : input' = input := hclaims
      obtain ⟨row, hrow, hguard⟩ := any_eq_true.1 hans.symm
      refine ⟨now, .inl rfl, row, hrow, ?_⟩
      rw [Op.onRow, if_pos hguard]
      simp only [Op.guard, and_eq_true, decide_eq_true_eq] at hguard
      exact ⟨hguard.1.1.1, hguard.2, rfl, rfl⟩
  | commitClaim input' now =>
    cases ans with
    | false => exact hclaims.elim
    | true =>
      obtain rfl : input' = input := hclaims
      obtain ⟨row, hrow, hguard⟩ := any_eq_true.1 hans.symm
      refine ⟨now, .inr rfl, row, hrow, ?_⟩
      rw [Op.onRow, if_pos hguard]
      simp only [Op.guard, and_eq_true, decide_eq_true_eq] at hguard
      exact ⟨hguard.1.1.1, hguard.2, rfl, rfl⟩
  | _ => exact hclaims.elim

theorem TurnsKept.key_of_readFor (hw : TurnsKept initial w) (hread : ReadFor input (own i w.log))
    (hrow : row ∈ w.state.rows) (hid : row.key.id = input.commandId) :
    row.key.serverId = input.serverId ∧ row.key.type = input.type := by
  obtain ⟨record, honce, hrecord, hserver, htype⟩ := hread
  obtain ⟨ev, hev, -, hreads⟩ := mem_log_of_once honce
  obtain ⟨row', hrow', hkey⟩ := hw.read ev hev record hreads
  have hsame : row' = row := inj_on_of_nodup_map w.state.ids_nodup hrow' hrow
    ((congrArg CommandKey.id hkey).trans (hrecord.trans hid.symm))
  rw [← hsame, hkey]
  exact ⟨hserver, htype⟩

theorem TurnsKept.counts_step (hw : TurnsKept initial w) (hok : TurnsApart initial i w o)
    (hcontract : Contract (own i w.log) o) (hexec : exec i e o w.state = some (ans, s')) (hrow : row ∈ w.state.rows)
    (hcounts : Counts initial (w.push i o ans s') (o.onRow e (w.state.elapse e.elapsed) row)) :
    Counts initial w row ∨ ∃ input now, (o = .markClaimed input now ∨ o = .commitClaim input now) ∧
      row.key.id = input.commandId := by
  obtain ⟨hquick, hunderWay, hlane⟩ := hcounts
  have hclock : w.state.clock ≤ s'.clock := by
    rw [(exec_eq_some hexec).2.2.2.2]
    omega
  have hkey := Op.onRow_key e (w.state.elapse e.elapsed) o row
  rw [hkey] at hquick hlane
  have hmove := turnMove_onRow e (w.state.elapse e.elapsed) o row
  generalize o.onRow e (w.state.elapse e.elapsed) row = row' at hmove hunderWay hlane
  cases hmove with
  | stays hstatus hsent hstarted =>
    rw [hstatus] at hunderWay hlane
    refine .inl ⟨hquick, hunderWay, fun hdeploy hpast => ?_⟩
    obtain ⟨hunreported, hrecent⟩ := hlane hdeploy hpast
    refine ⟨fun hreported => hunreported (hreported.append _), eq_false_iff.2 fun hbefore => ?_⟩
    have hbefore' := CommandRow.sentBefore_mono hclock hbefore
    rw [CommandRow.sentBefore, ← hsent] at hbefore'
    exact absurd (hrecent.symm.trans hbefore') false_ne_true
  | @transition patch now hguard =>
    have hlive := live_of_underWay hunderWay
    obtain ⟨-, -, ⟨hsent, input, hid, honce⟩ | hsuccess | ⟨hterminal, -⟩⟩ := hcontract
    · -- The command was claimed before, so that it does not wait any more.
      obtain ⟨ev, hev, -, hclaims⟩ := mem_log_of_once honce
      obtain ⟨row', hrow', hid', hqueued, -⟩ := hw.claimed ev hev input hclaims
      obtain rfl := inj_on_of_nodup_map w.state.ids_nodup hrow' hrow (hid'.trans hid)
      have hopen : row'.status.terminal = false := hguard.resolve_left (by
        rw [hsent]
        exact false_ne_true)
      have hway : row'.status.underWay = true := by
        cases hstatus : row'.status with
        | queued => exact absurd hstatus hqueued
        | dispatching => rfl
        | sent => rfl
        | acked => rfl
        | running => rfl
        | _ =>
          rw [hstatus] at hopen
          cases hopen
      refine .inl ⟨hquick, hway, fun hdeploy hpast => ?_⟩
      have hpast' : (patch.apply now row').status ≠ .dispatching := fun hdispatching =>
        (nomatch hsent.symm.trans hdispatching)
      have hunreported : ¬HasReported initial w.log row'.key.id := fun hreported =>
        (hlane hdeploy hpast').1 (hreported.append _)
      exact ⟨hunreported,
        (hok hsent row' hrow rfl hdeploy hway hpast).resolve_left hunreported⟩
    · rw [CommandTransitionPatch.apply, hsuccess] at hlive
      cases hlive
    · rw [CommandTransitionPatch.apply, hterminal] at hlive
      cases hlive
  | ends hterminal hstarted =>
    rw [live_of_underWay hunderWay] at hterminal
    cases hterminal
  | claim ho hid hstarted hstatus hstarted' => exact .inr ⟨_, _, ho, hid⟩

theorem TurnsKept.free_of_seesFree (hw : TurnsKept initial w) {txNow : ℤ} (hbegan : txNow ≤ w.state.clock)
    (hfree : w.state.blockingCommandExists txNow input = false) (hrow : row ∈ w.state.rows)
    (hserver : row.key.serverId = input.serverId) (hid : row.key.id ≠ input.commandId) : ¬Counts initial w row := by
  rintro ⟨hquick, hunderWay, hlane⟩
  have hholds : row.holdsTurn txNow = false := by
    refine eq_false_iff.2 fun hholds => ?_
    refine absurd (any_eq_true.2 ⟨row, hrow, ?_⟩) (eq_false_iff.1 hfree)
    simp only [and_eq_true, or_eq_true, not_eq_true', decide_eq_true_eq]
    exact ⟨⟨⟨hserver, hid⟩, hquick⟩, .inl hholds⟩
  rw [CommandRow.holdsTurn, hunderWay, Bool.true_and, Bool.not_eq_false'] at hholds
  simp only [and_eq_true, or_eq_true, decide_eq_true_eq] at hholds
  obtain ⟨⟨hdeploy, hpast⟩, hreports | hbefore⟩ := hholds
  · exact (hlane hdeploy hpast).1 (hw.reported row hrow (live_of_underWay hunderWay) hreports)
  · have hbefore' := CommandRow.sentBefore_mono hbegan hbefore
    rw [(hlane hdeploy hpast).2] at hbefore'
    cases hbefore'

theorem row_of_counts (hcontract : Contract (own i w.log) o) (hexec : exec i e o w.state = some (ans, s'))
    {row' : CommandRow} (hrow' : row' ∈ s'.rows) (hcounts : Counts initial (w.push i o ans s') row') :
    ∃ row ∈ w.state.rows, row' = o.onRow e (w.state.elapse e.elapsed) row := by
  obtain hrow | ⟨rfl, -⟩ := mem_rows_of_exec hexec hrow'
  · exact hrow
  · obtain ⟨key, expiresAt, rfl⟩ := hcontract
    exact absurd hcounts.2.1 false_ne_true

theorem TurnsKept.locked_of_claim (hw : TurnsKept initial w) (hcontract : Contract (own i w.log) o)
    (hexec : exec i e o w.state = some (ans, s')) (hrow : row ∈ w.state.rows) (hquick : row.key.type.quick = false)
    {now : ℤ} (ho : o = .markClaimed input now ∨ o = .commitClaim input now) (hid : row.key.id = input.commandId) :
    o = .commitClaim input now ∧ row.key.serverId = input.serverId ∧
      w.state.lock row.key.serverId = some i ∧ Since (SeesFree input) Idle (own i w.log) := by
  obtain rfl | rfl := ho
  · obtain ⟨-, htype⟩ := hw.key_of_readFor hcontract.2 hrow hid
    rw [htype, hcontract.1] at hquick
    cases hquick
  · obtain ⟨hserver, -⟩ := hw.key_of_readFor hcontract.1 hrow hid
    refine ⟨rfl, hserver, ?_, hcontract.2⟩
    rw [hserver]
    exact of_decide_eq_true (exec_eq_some hexec).1

theorem TurnsKept.push_oneTurn (hw : TurnsKept initial w) (hok : TurnsApart initial i w o)
    (hcontract : Contract (own i w.log) o) (hexec : exec i e o w.state = some (ans, s')) :
    OneTurn initial (w.push i o ans s') := by
  -- While a command is claimed under the lock, no other one of its server counts.
  have hclaimed : ∀ {row other : CommandRow} {input : ServerTurnInput} {now : ℤ}, row ∈ w.state.rows →
      other ∈ w.state.rows → row.key.type.quick = false → row.key.serverId = other.key.serverId →
        (o = .markClaimed input now ∨ o = .commitClaim input now) → row.key.id = input.commandId →
          Counts initial w other → row = other := by
    intro row other input now hrow hother hquick hserver ho hid hcounts
    obtain ⟨-, hserver', hlock, hsince⟩ := hw.locked_of_claim hcontract hexec hrow hquick ho hid
    by_contra hne
    refine hw.free i input (hserver' ▸ hlock) hsince other hother (hserver.symm.trans hserver') ?_ hcounts
    intro hid'
    exact hne (inj_on_of_nodup_map w.state.ids_nodup hrow hother (hid.trans hid'.symm))
  intro row₁ hrow₁ row₂ hrow₂ hserver hcounts₁ hcounts₂
  obtain ⟨row, hrow, rfl⟩ := row_of_counts hcontract hexec hrow₁ hcounts₁
  obtain ⟨other, hother, rfl⟩ := row_of_counts hcontract hexec hrow₂ hcounts₂
  have hquick := hcounts₁.1
  have hquick' := hcounts₂.1
  rw [Op.onRow_key] at hserver hquick hquick'
  rw [Op.onRow_key] at hserver
  refine congrArg _ ?_
  obtain hbefore | ⟨input, now, ho, hid⟩ := hw.counts_step hok hcontract hexec hrow hcounts₁
  · obtain hbefore' | ⟨input', now', ho', hid'⟩ := hw.counts_step hok hcontract hexec hother hcounts₂
    · exact hw.oneTurn row hrow other hother hserver hbefore hbefore'
    · exact (hclaimed hother hrow hquick' hserver.symm ho' hid' hbefore).symm
  · obtain hbefore' | ⟨input', now', ho', hid'⟩ := hw.counts_step hok hcontract hexec hother hcounts₂
    · exact hclaimed hrow hother hquick hserver ho hid hbefore'
    · have hinput : input = input' := by
        obtain rfl | rfl := ho
        · obtain h | h := ho'
          · exact (Op.markClaimed.inj h).1
          · cases h
        · obtain h | h := ho'
          · cases h
          · exact (Op.commitClaim.inj h).1
      exact inj_on_of_nodup_map w.state.ids_nodup hrow hother (by rw [hid, hinput, hid'])

theorem lock_of_other {j : ℕ} (hexec : exec i e o w.state = some (ans, s')) (hj : i ≠ j)
    {serverId : String} (hlock : s'.lock serverId = some j) : w.state.lock serverId = some j := by
  rw [(exec_eq_some hexec).2.2.2.1] at hlock
  cases o with
  | lockServer serverId' =>
    rw [Op.onLock] at hlock
    split at hlock
    · rw [Function.update_apply] at hlock
      split at hlock
      · exact absurd (Option.some.inj hlock) hj
      · exact hlock
    · exact hlock
  | commitClaim input now =>
    rw [Op.onLock, Function.update_apply] at hlock
    split at hlock
    · cases hlock
    · exact hlock
  | endTurn serverId' =>
    rw [Op.onLock, Function.update_apply] at hlock
    split at hlock
    · cases hlock
    · exact hlock
  | _ => exact hlock

theorem TurnsKept.push_free (hw : TurnsKept initial w) (hok : TurnsApart initial i w o)
    (hcontract : Contract (own i w.log) o) (hexec : exec i e o w.state = some (ans, s')) : ∀ j input,
      s'.lock input.serverId = some j → Since (SeesFree input) Idle (own j (w.log ++ [⟨i, o, ans⟩])) →
        ∀ row ∈ s'.rows, row.key.serverId = input.serverId → row.key.id ≠ input.commandId →
          ¬Counts initial (w.push i o ans s') row := by
  intro j input hlock hsince row' hrow' hserver hid hcounts
  obtain ⟨row, hrow, rfl⟩ := row_of_counts hcontract hexec hrow' hcounts
  rw [Op.onRow_key] at hserver hid
  have hquick := hcounts.1
  rw [Op.onRow_key] at hquick
  rw [own_append] at hsince
  by_cases hj : i = j
  · subst hj
    rw [own_self, since_concat] at hsince
    obtain hsees | ⟨hsince, hidle⟩ := hsince
    · cases o with
      | turnBlocked txNow input' =>
        cases ans with
        | true => exact hsees.elim
        | false =>
          obtain rfl : input' = input := hsees
          obtain ⟨ev, hev, -, hbegins⟩ := mem_log_of_once hcontract
          have hbegan := hw.began ev hev txNow hbegins
          have hfree := (exec_eq_some hexec).2.1.symm
          obtain hcounts | ⟨input, now, ho | ho, -⟩ := hw.counts_step hok hcontract hexec hrow hcounts
          · exact hw.free_of_seesFree hbegan hfree hrow hserver hid hcounts
          · cases ho
          · cases ho
      | _ => exact hsees.elim
    · cases o with
      | clock =>
        obtain hcounts | ⟨input, now, ho | ho, -⟩ := hw.counts_step hok hcontract hexec hrow hcounts
        · have hlock' : w.state.lock input.serverId = some i := by
            rw [(exec_eq_some hexec).2.2.2.1] at hlock
            exact hlock
          exact hw.free i input hlock' hsince row hrow hserver hid hcounts
        · cases ho
        · cases ho
      | _ => exact hidle.elim
  · rw [own_of_ne hj, append_nil] at hsince
    have hlock' := lock_of_other hexec hj hlock
    obtain hcounts | ⟨input', now, ho, hid'⟩ := hw.counts_step hok hcontract hexec hrow hcounts
    · exact hw.free j input hlock' hsince row hrow hserver hid hcounts
    · obtain ⟨-, -, hheld, -⟩ := hw.locked_of_claim hcontract hexec hrow hquick ho hid'
      rw [hserver, hlock'] at hheld
      exact hj (Option.some.inj hheld).symm

theorem reports_onRow (hexec : exec i e o w.state = some (ans, s')) (hrow : row ∈ w.state.rows)
    (hlive : row.status.terminal = false) (hreports : (o.onRow e (w.state.elapse e.elapsed) row).reports = true) :
    row.reports = true ∨ StoresReport row.key.id ⟨o, ans⟩ ∨
      (∃ expected progress at_, o = .settleProgress row.key.id expected progress at_) ∨
        ∃ progress, o = .correctProgress row.key.id progress := by
  obtain ⟨-, hans, -⟩ := exec_eq_some hexec
  unfold Op.onRow at hreports
  split at hreports
  · rename_i hguard
    cases o with
    | flipTimedOut id outcome now =>
      refine .inl ?_
      cases outcome <;> exact hreports
    | settleProgress id expected progress at_ =>
      simp only [Op.guard, and_eq_true, decide_eq_true_eq] at hguard
      obtain ⟨⟨rfl, -⟩, -⟩ := hguard
      exact .inr (.inr (.inl ⟨expected, progress, at_, rfl⟩))
    | correctProgress id progress =>
      obtain rfl := of_decide_eq_true hguard
      exact .inr (.inr (.inr ⟨progress, rfl⟩))
    | storeFrame id serverId progress receivedAt =>
      obtain rfl : ans = true := hans.trans (any_eq_true.2 ⟨row, hrow, hguard⟩)
      simp only [Op.guard, and_eq_true, decide_eq_true_eq] at hguard
      exact .inr (.inl ⟨hguard.1.1.1.symm, of_decide_eq_true hreports⟩)
    | storeLateNotes id serverId expected progress =>
      simp only [Op.guard, and_eq_true] at hguard
      rw [hlive] at hguard
      exact absurd hguard.1.2 false_ne_true
    | storeAlive id serverId progress receivedAt =>
      obtain rfl : ans = true := hans.trans (any_eq_true.2 ⟨row, hrow, hguard⟩)
      simp only [Op.guard, and_eq_true, decide_eq_true_eq] at hguard
      exact .inr (.inl ⟨hguard.1.1.symm, hreports⟩)
    | markContactLost id lastHeardAt =>
      refine .inl ?_
      unfold CommandRow.reports at hreports ⊢
      cases hprogress : row.progress with
      | none =>
        simp only [Op.write, hprogress] at hreports
        exact hreports
      | some stored =>
        simp only [Op.write, hprogress] at hreports
        exact hreports
    | _ => exact .inl hreports
  · exact .inl hreports

theorem TurnsKept.push_reported (hw : TurnsKept initial w) (hcontract : Contract (own i w.log) o)
    (hexec : exec i e o w.state = some (ans, s')) : ∀ row ∈ s'.rows, row.status.terminal = false →
      row.reports = true → HasReported initial (w.log ++ [⟨i, o, ans⟩]) row.key.id := by
  intro row' hrow' hlive hreports
  obtain ⟨row, hrow, rfl⟩ | ⟨rfl, -⟩ := mem_rows_of_exec hexec hrow'
  · rw [Op.onRow_key]
    have hlive' := live_of_onRow hlive
    obtain hbefore | hstores | ⟨_, _, _, rfl⟩ | ⟨_, rfl⟩ := reports_onRow hexec hrow hlive' hreports
    · exact (hw.reported row hrow hlive' hbefore).append _
    · exact .inr ⟨_, mem_append_right _ mem_cons_self, hstores⟩
    · exact absurd hcontract (hw.ended.not_once hrow hlive')
    · exact absurd hcontract (hw.ended.not_once hrow hlive')
  · obtain ⟨key, expiresAt, rfl⟩ := hcontract
    cases hreports

theorem TurnsKept.push_read (hw : TurnsKept initial w) (hexec : exec i e o w.state = some (ans, s')) :
    ∀ ev ∈ w.log ++ [⟨i, o, ans⟩], ∀ record, Reads record ⟨ev.op, ev.ans⟩ →
      ∃ row ∈ s'.rows, row.key = record.key := by
  intro ev hev record hreads
  obtain hev | hev := mem_append.1 hev
  · obtain ⟨row, hrow, hkey⟩ := hw.read ev hev record hreads
    exact ⟨_, onRow_mem_rows_of_exec hexec hrow, (Op.onRow_key _ _ _ _).trans hkey⟩
  · obtain rfl := mem_singleton.1 hev
    obtain ⟨-, hans, -⟩ := exec_eq_some hexec
    cases o with
    | getCommandRecord id =>
      cases ans with
      | none => exact hreads.elim
      | some row =>
        obtain ⟨rfl, -⟩ := hreads
        have hrow := (CommandStore.row?_eq_some.1 hans.symm).1
        exact ⟨_, onRow_mem_rows_of_exec hexec hrow, Op.onRow_key _ _ _ _⟩
    | _ => exact hreads.elim

theorem claimed_onRow (hcontract : Contract (own i w.log) o) (s : CommandStore) (row : CommandRow) :
    ((o.onRow e s row).status = .queued → row.status = .queued) ∧
      ((o.onRow e s row).dispatchStartedAt = row.dispatchStartedAt ∨ ∃ input now,
        (o = .markClaimed input now ∨ o = .commitClaim input now) ∧ row.key.id = input.commandId ∧
          (o.onRow e s row).dispatchStartedAt = some now) := by
  have hmove := turnMove_onRow e s o row
  generalize o.onRow e s row = row' at hmove ⊢
  cases hmove with
  | stays hstatus hsent hstarted => exact ⟨fun h => hstatus.symm.trans h, .inl hstarted⟩
  | @transition patch now hguard =>
    obtain ⟨hstarted, -, hstatus⟩ := hcontract
    have hpatch : patch.status ≠ .queued ∧ patch.status ≠ .dispatching := by
      obtain ⟨h, -⟩ | h | ⟨h, -⟩ := hstatus
      · rw [h]
        exact ⟨fun h => (nomatch h), fun h => (nomatch h)⟩
      · rw [h]
        exact ⟨fun h => (nomatch h), fun h => (nomatch h)⟩
      · constructor <;> intro heq <;> rw [heq] at h <;> cases h
    refine ⟨fun h => absurd h hpatch.1, .inl ?_⟩
    rw [CommandTransitionPatch.apply, lifecycleTimestamp, hstarted, decide_eq_false hpatch.2]
    rfl
  | ends hterminal hstarted =>
    refine ⟨fun h => ?_, .inl hstarted⟩
    rw [h] at hterminal
    cases hterminal
  | claim ho hid hstarted hstatus hstarted' =>
    exact ⟨fun h => (nomatch hstatus.symm.trans h), .inr ⟨_, _, ho, hid, hstarted'⟩⟩

theorem TurnsKept.push_claimed (hw : TurnsKept initial w) (hok : TurnsApart initial i w o)
    (hcontract : Contract (own i w.log) o) (hexec : exec i e o w.state = some (ans, s')) :
    ∀ ev ∈ w.log ++ [⟨i, o, ans⟩], ∀ input, Claims input ⟨ev.op, ev.ans⟩ → ∃ row ∈ s'.rows,
      row.key.id = input.commandId ∧ row.status ≠ .queued ∧
        row.dispatchStartedAt ≠ input.dispatchStartedAt := by
  intro ev hmem input hclaims
  obtain hev | hev := mem_append.1 hmem
  · obtain ⟨row, hrow, hid, hqueued, hstarted⟩ := hw.claimed ev hev input hclaims
    obtain ⟨hstatus, hdispatch⟩ :=
      claimed_onRow (e := e) hcontract (w.state.elapse e.elapsed) row
    refine ⟨_, onRow_mem_rows_of_exec hexec hrow, (congrArg CommandKey.id (Op.onRow_key _ _ _ _)).trans hid,
      fun h => hqueued (hstatus h), ?_⟩
    obtain hsame | ⟨input', now, ho, hid', hnow⟩ := hdispatch
    · rw [hsame]
      exact hstarted
    · rw [hnow]
      have hapart : input.dispatchStartedAt ≠ some now := by
        obtain rfl | rfl := ho
        · exact hok.2 ev hev input hclaims (hid.symm.trans hid')
        · exact hok.2 ev hev input hclaims (hid.symm.trans hid')
      exact hapart.symm
  · obtain rfl := mem_singleton.1 hev
    obtain ⟨now, ho, row, hrow, hid, -, hstatus, hnow⟩ := row_of_claims hexec hclaims
    refine ⟨_, onRow_mem_rows_of_exec hexec hrow, (congrArg CommandKey.id (Op.onRow_key _ _ _ _)).trans hid,
      ?_, ?_⟩
    · rw [hstatus]
      exact fun h => (nomatch h)
    · rw [hnow]
      obtain rfl | rfl := ho
      · exact hok.1.symm
      · exact hok.1.symm

theorem TurnsKept.push_began (hw : TurnsKept initial w) (hexec : exec i e o w.state = some (ans, s')) :
    ∀ ev ∈ w.log ++ [⟨i, o, ans⟩], ∀ txNow, Begins txNow ⟨ev.op, ev.ans⟩ → txNow ≤ s'.clock := by
  intro ev hev txNow hbegins
  obtain ⟨-, hans, -, -, hclock⟩ := exec_eq_some hexec
  obtain hev | hev := mem_append.1 hev
  · have := hw.began ev hev txNow hbegins
    omega
  · obtain rfl := mem_singleton.1 hev
    cases o with
    | beginTurn =>
      obtain rfl : ans = txNow := hbegins
      rw [hans, hclock]
      exact le_rfl
    | _ => exact hbegins.elim

theorem TurnsKept.push_claimedOnce (hw : TurnsKept initial w)
    (hexec : exec i e o w.state = some (ans, s')) : ClaimedOnce (w.push i o ans s') := by
  refine pairwise_append.2 ⟨hw.claimedOnce, pairwise_singleton _ _, ?_⟩
  intro ev hev ev' hev' input input' hclaims hclaims' hid heq
  obtain rfl := mem_singleton.1 hev'
  -- The row is not any more as the first of the two claims read it.
  obtain ⟨row, hrow, hid₁, -, hstarted⟩ := hw.claimed ev hev input hclaims
  obtain ⟨now, -, row', hrow', hid₂, hread, -⟩ := row_of_claims hexec hclaims'
  obtain rfl := inj_on_of_nodup_map w.state.ids_nodup hrow hrow'
    (hid₁.trans (hid.trans hid₂.symm))
  exact hstarted (hread.trans (congrArg Prod.snd heq).symm)

theorem TurnsKept.push (hw : TurnsKept initial w) (hok : TurnsApart initial i w o)
    (hcontract : Contract (own i w.log) o) (hexec : exec i e o w.state = some (ans, s')) :
    TurnsKept initial (w.push i o ans s') where
  ended := hw.ended.push hexec
  reported := hw.push_reported hcontract hexec
  read := hw.push_read hexec
  claimed := hw.push_claimed hok hcontract hexec
  began := hw.push_began hexec
  free := hw.push_free hok hcontract hexec
  oneTurn := hw.push_oneTurn hok hcontract hexec
  claimedOnce := hw.push_claimedOnce hexec

end

/-! ## Every run -/

theorem TurnsKept.drop {i : ℕ} {w : World Op Ans CommandStore}
    (hw : TurnsKept initial w) : TurnsKept initial { w with state := machine.drop i w.state } where
  ended := hw.ended
  reported := hw.reported
  read := hw.read
  claimed := hw.claimed
  began := hw.began
  free j input hlock := by
    refine hw.free j input ?_
    change (if w.state.lock input.serverId = some i then none else w.state.lock input.serverId) = some j
      at hlock
    split at hlock
    · cases hlock
    · exact hlock
  oneTurn := hw.oneTurn
  claimedOnce := hw.claimedOnce

/-- **One command at a time runs on a server, and no reading of a command is claimed twice**, in a
run in which no deploy that left the lane by its age alone is marked as sent, and no claim has a
time that this or an earlier claim of the command read. -/
theorem one_command_per_server (s : CommandStore) (hinit : OneTurn s ⟨s, []⟩)
    {choices : List (Choice Env Call)}
    (hmeets : Meets machine body (TurnsApart s) (Config.init s) choices) :
    OneTurn s ((Config.init s).run machine body choices).world ∧
      ClaimedOnce ((Config.init s).run machine body choices).world := by
  have hstep : ∀ {i e o w ans s'}, TurnsKept s w → TurnsApart s i w o → Contract (own i w.log) o →
      machine.exec i e o w.state = some (ans, s') → TurnsKept s (w.push i o ans s') :=
    fun hw hok hcontract hexec => hw.push hok hcontract hexec
  have hw := (Config.run_inv hstep TurnsKept.drop body_obeys answers_of_exec (obeys_init s)
    (turnsKept_init hinit) hmeets).2
  exact ⟨hw.oneTurn, hw.claimedOnce⟩

/-! ## Two deliveries of one command -/

/-- A deploy that a consumer took and let go, and a reboot of the same server that waits. -/
def deployAndReboot : CommandStore where
  rows :=
    [{ sentCommand .environmentDeploy with status := .dispatching, sentAt := none },
      newCommand ⟨"reboot", "server", .serverReboot, 1⟩ none]
  ids_nodup := by decide
  lock _ := none
  clock := 0

/-- A delivery claims its command; each look at the clock gives this time. -/
def claimsAt (thread : ℕ) (id : String) (now : ℤ) : List (Choice Env Call) :=
  .call (.deliver ⟨id, "server"⟩) :: List.replicate 9 (.step thread { now := ⟨"", now⟩ })

/-- A delivery that claimed its command sends it. -/
def sendsAt (thread : ℕ) (now : ℤ) : List (Choice Env Call) :=
  List.replicate 5 (.step thread { now := ⟨"", now⟩ })

/-- The deploy is claimed twice and sent once; it leaves the lane by its age, and the reboot takes
the turn. -/
def rebootTakesTurn : List (Choice Env Call) :=
  claimsAt 0 "command" 1 ++ claimsAt 1 "command" 2 ++ sendsAt 0 3 ++
    .call (.deliver ⟨"reboot", "server"⟩) :: .step 2 { elapsed := 200000, now := ⟨"", 200000⟩ } ::
      List.replicate 8 (.step 2 { now := ⟨"", 200000⟩ })

/-- Two deliveries of the deploy read it before either claims it. -/
def claimedAtOnce : List (Choice Env Call) :=
  [.call (.deliver ⟨"command", "server"⟩), .step 0 {}, .call (.deliver ⟨"command", "server"⟩), .step 1 {}] ++
    List.replicate 8 (.step 0 {}) ++ List.replicate 8 (.step 1 {})

/-- The operation writes a plan. -/
def Op.writesPlan : Op → Bool
  | .storeFrame _ _ _ _ => true
  | .storeAlive _ _ _ _ => true
  | _ => false

theorem not_hasReported {log : List (Event Op Ans)} {id : String}
    (hrows : (initial.rows.all fun row => !row.reports) = true)
    (hlog : (log.all fun ev => !ev.op.writesPlan) = true) : ¬HasReported initial log id := by
  rintro (⟨row, hrow, -, hreports⟩ | ⟨⟨j, o, ans⟩, hev, hstores⟩)
  · have := all_eq_true.1 hrows row hrow
    rw [hreports] at this
    cases this
  · have := all_eq_true.1 hlog _ hev
    cases o with
    | storeFrame => cases this
    | storeAlive => cases this
    | _ => exact hstores

theorem late_send_and_equal_times :
    ¬OneTurn deployAndReboot ((Config.init deployAndReboot).run machine body
      (rebootTakesTurn ++ sendsAt 1 200000)).world ∧
    ¬ClaimedOnce ((Config.init deployAndReboot).run machine body claimedAtOnce).world := by
  constructor
  · intro hone
    have hsame := hone _ (.head _) _ (.tail _ (.head _)) rfl
      ⟨rfl, rfl, fun _ _ => ⟨not_hasReported rfl rfl, rfl⟩⟩ ⟨rfl, rfl, fun h => (nomatch h)⟩
    exact absurd (congrArg (fun row => row.key.id) hsame) (by decide)
  · intro honce
    exact pairwise_iff_getElem.1 honce 9 17 (by decide) (by decide) (by decide) _ _ rfl rfl rfl rfl

/-- A test of `TurnsApart` that looks at the age of a deploy alone. -/
def turnsApartCheck (w : World Op Ans CommandStore) : Op → Bool
  | .transitionCommand id patch _ => patch.status ≠ .sent || w.state.rows.all fun row =>
    row.key.id ≠ id || row.key.type ≠ .environmentDeploy || row.status = .dispatching ||
      !row.sentBefore w.state.clock
  | .markClaimed input now | .commitClaim input now => input.dispatchStartedAt ≠ some now && w.log.all fun ev =>
    match ev.op with
    | .markClaimed input' _ | .commitClaim input' _ => input'.dispatchStartedAt ≠ some now
    | _ => true
  | _ => true

theorem turnsApart_of_check (i : ℕ) (w : World Op Ans CommandStore) (o : Op)
    (h : turnsApartCheck w o = true) : TurnsApart initial i w o := by
  have hclaims : ∀ {input : ServerTurnInput} {now : ℤ}, turnsApartCheck w (.markClaimed input now) = true →
      input.dispatchStartedAt ≠ some now ∧ ∀ ev ∈ w.log, ∀ input', Claims input' ⟨ev.op, ev.ans⟩ →
        input'.commandId = input.commandId → input'.dispatchStartedAt ≠ some now := by
    intro input now h
    obtain ⟨hself, hlog⟩ := and_eq_true_iff.1 h
    refine ⟨of_decide_eq_true hself, ?_⟩
    rintro ⟨j, o', ans⟩ hev input' hclaims -
    have hev := all_eq_true.1 hlog _ hev
    cases o' with
    | markClaimed => cases ans <;> [exact hclaims.elim; exact hclaims ▸ of_decide_eq_true hev]
    | commitClaim => cases ans <;> [exact hclaims.elim; exact hclaims ▸ of_decide_eq_true hev]
    | _ => exact hclaims.elim
  cases o with
  | transitionCommand id patch now =>
    intro hsent row hrow hid htype _ hstatus
    simp only [turnsApartCheck, or_eq_true, decide_eq_true_eq, all_eq_true, not_eq_true'] at h
    obtain h | h := h
    · exact absurd hsent h
    · obtain ((h | h) | h) | h := h row hrow
      · exact absurd hid h
      · exact absurd htype h
      · exact absurd h hstatus
      · exact .inr h
  | markClaimed => exact hclaims h
  | commitClaim => exact hclaims h
  | _ => trivial

/-- The reboot takes the turn of the deploy, which two deliveries claimed and one of them sent. -/
theorem one_command_per_server_reboot :
    OneTurn deployAndReboot ((Config.init deployAndReboot).run machine body rebootTakesTurn).world ∧
      ClaimedOnce ((Config.init deployAndReboot).run machine body rebootTakesTurn).world := by
  refine one_command_per_server deployAndReboot ?_ (meets_of_checks _ _ turnsApart_of_check (by decide +kernel))
  intro row hrow row' hrow' _ hcounts hcounts'
  have hdeploy : ∀ row ∈ deployAndReboot.rows, row.status.underWay = true → row.key.id = "command" := by decide
  have hids : ∀ row ∈ deployAndReboot.rows, ∀ row' ∈ deployAndReboot.rows, row.key.id = row'.key.id → row = row' :=
    inj_on_of_nodup_map deployAndReboot.ids_nodup
  exact hids row hrow row' hrow'
    ((hdeploy row hrow hcounts.2.1).trans (hdeploy row' hrow' hcounts'.2.1).symm)

end TurboPanel.CommandRecords
