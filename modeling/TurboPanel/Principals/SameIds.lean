import TurboPanel.Principals.Statements

/-!
# An account keeps its ids

The three promises of `principal-ids.ts`, over every order of the statements of its writers. The ids
of a placement that is present are changed by nothing but the upsert of an allocation that read the
rows before they were recorded (`IdsKept`). A number of the counter goes to one principal of an
organization (`Numbered`). And two allocations for one principal answer the same, where the ids that
are recorded agree and neither finds an unreported account on its own server (`Settled`): what the
first of them read or recorded is then what the second reads, since the lock keeps other allocations
away and only a report or a refusal changes the rest.
-/

namespace TurboPanel.Principals

open Option Interleaving Js List

variable {c : Collation} {hostOrganization : String → Option String}

section

variable {i : ℕ} {pinned : Bool} {o : Op} {w : World Op Ans IdStore} {s' : IdStore} {ans : Ans o}

theorem mem_push {ev : Event Op Ans} : ev ∈ (w.push i o ans s').log ↔
    ev ∈ w.log ∨ ev = ⟨i, o, ans⟩ := by
  rw [World.push, mem_append, mem_singleton]

theorem exec_of_machine {s s' : IdStore} {ans : Ans o} (h : (machine hostOrganization).exec i pinned
    o s = some (ans, s')) :
    s.enabled hostOrganization i o = true ∧ exec hostOrganization i pinned o s = (ans, s') := by
  change (if s.enabled hostOrganization i o = true then some (exec hostOrganization i pinned o s)
    else none) = _ at h
  split at h
  · exact ⟨‹_›, Option.some.inj h⟩
  · cases h

/-! ## The numbers -/

/-- The number is recorded for the principal, which is what the allocation answers. -/
def Hands (i : ℕ) (principalId serverId : String) (id : ℤ) (home : Text)
    (ev : Event Op Ans) : Prop :=
  ev = ⟨i, .upsertIds principalId serverId id home, true⟩

/-- What holds of the numbers in every world of a run. -/
structure Numbered (hostOrganization : String → Option String)
    (w : World Op Ans IdStore) : Prop where
  /-- What a transaction has counted is ahead of what others see. -/
  ahead : ∀ organization i next, w.state.counting organization = some (i, next) →
    w.state.counter organization ≤ next
  /-- The numbers that the transaction of a thread took are among those that it has counted. -/
  counted : ∀ i principalId serverId id organization, w.state.locks principalId = some i →
    ⟨i, .takeNumber principalId serverId, some id⟩ ∈ w.log →
      hostOrganization serverId = some organization →
      ∃ next, w.state.counting organization = some (i, next) ∧
        w.state.counter organization ≤ id ∧ id < next
  handed : ∀ i principalId serverId id home organization,
    ⟨i, .upsertIds principalId serverId id home, true⟩ ∈ w.log →
    hostOrganization serverId = some organization → id < w.state.counter organization
  band : ∀ i principalId serverId id home,
    ⟨i, .upsertIds principalId serverId id home, true⟩ ∈ w.log →
    hostOrgIdStart ≤ id ∧ id ≤ principalIdBandMax
  alone : ∀ i j principalId principalId' serverId serverId' id home home' organization,
    ⟨i, .upsertIds principalId serverId id home, true⟩ ∈ w.log →
      ⟨j, .upsertIds principalId' serverId' id home', true⟩ ∈ w.log →
        hostOrganization serverId = some organization →
          hostOrganization serverId' = some organization →
          principalId = principalId'

theorem next_eq_counter_or (s : IdStore) (organization : String) :
    (s.counting organization = none ∧ s.next organization = s.counter organization) ∨
      ∃ k, s.counting organization = some (k, s.next organization) := by
  rw [IdStore.next]
  rcases s.counting organization with _ | ⟨k, next⟩
  · exact .inl ⟨rfl, rfl⟩
  · exact .inr ⟨k, rfl⟩

theorem Numbered.counter_le_next (hw : Numbered hostOrganization w) (organization : String) :
    w.state.counter organization ≤ w.state.next organization := by
  obtain ⟨-, heq⟩ | ⟨k, hcounting⟩ := next_eq_counter_or w.state organization
  · exact heq.ge
  · exact hw.ahead organization k _ hcounting

variable {principalId : String} {organization : String} {rows : List PlacementIdRow} {k : ℕ}

variable {serverId : String} {id : ℤ}

theorem takeNumber_eq_some {s : IdStore}
    (h : s.takeNumber hostOrganization i serverId = (some id, s'))
    (hhost : hostOrganization serverId = some organization) : s.next organization = id ∧
      s'.counter organization = s.counter organization ∧ s'.counting organization = some
          (i, s.next organization + 1) := by
  unfold IdStore.takeNumber at h
  rw [hhost] at h
  dsimp only at h
  split at h
  · obtain ⟨hid, rfl⟩ := Prod.mk.inj h
    exact ⟨Option.some.inj hid, rfl, Function.update_self _ _ _⟩
  · cases (Prod.mk.inj h).1

section

variable (hw : Numbered hostOrganization w)
include hw

theorem Numbered.counter_mono
    (hexec : exec hostOrganization i pinned o w.state = (ans, s')) (organization : String) :
    w.state.counter organization ≤ s'.counter organization := by
  cases counts_of_exec hexec organization with
  | same hends hcounter hcounting => exact hcounter.ge
  | took hhost hcounter hcounting => exact hcounter.ge
  | ended hends hcounter hcounting =>
    obtain hcounter | hcounting := hcounter
    · exact hcounter.ge
    · exact hw.ahead organization i _ hcounting

theorem Numbered.push_ahead
    (hexec : exec hostOrganization i pinned o w.state = (ans, s')) {next : ℤ}
    (h : s'.counting organization = some (k, next)) : s'.counter organization ≤ next := by
  cases counts_of_exec hexec organization with
  | same hends hcounter hcounting =>
    rw [hcounting] at h
    exact hcounter.trans_le (hw.ahead organization k next h)
  | took hhost hcounter hcounting =>
    cases hcounting.symm.trans h
    have := hw.counter_le_next organization
    omega
  | ended hends hcounter hcounting =>
    rw [hcounting] at h
    obtain ⟨h, hne⟩ := filter_eq_some_iff.1 h
    obtain hcounter | hmine := hcounter
    · exact hcounter.trans_le (hw.ahead organization k next h)
    · cases h.symm.trans hmine
      simp at hne

theorem Numbered.push_counted (hcontract : Contract c (own i w.log) o)
    (henabled : w.state.enabled hostOrganization i o = true)
    (hexec : exec hostOrganization i pinned o w.state = (ans, s')) {principalId : String}
    (hlock : s'.locks principalId = some k)
    (hev : ⟨k, .takeNumber principalId serverId, some id⟩ ∈ (w.push i o ans s').log)
    (hhost : hostOrganization serverId = some organization) :
    ∃ next, s'.counting organization = some (k, next) ∧ s'.counter organization ≤ id ∧
    id < next := by
  obtain hlogged | heq := mem_push.1 hev
  · obtain ⟨hlock, hnot⟩ | ⟨rfl, rfl⟩ := locks_cases hexec hlock
    · obtain ⟨next, hcounting, hle, hlt⟩ :=
        hw.counted k principalId serverId id organization hlock hlogged hhost
      cases counts_of_exec hexec organization with
      | same hends hcounter hcounting' =>
          exact ⟨next, hcounting'.trans hcounting, hcounter.trans_le hle, hlt⟩
      | took hhost' hcounter hcounting' =>
        -- The row of the organization is held, so it is the same transaction that goes on counting.
        obtain ⟨hnone, -⟩ | ⟨k', hnext⟩ := next_eq_counter_or w.state organization
        · rw [hnone] at hcounting
          cases hcounting
        · obtain ⟨rfl, hnext'⟩ := Prod.mk.inj (Option.some.inj (hcounting.symm.trans hnext))
          rw [IdStore.enabled, Bool.and_eq_true, hhost', bind_some, hcounting] at henabled
          obtain rfl : k = i := by simpa using henabled.2
          exact ⟨_, hcounting', hcounter.trans_le hle, by omega⟩
      | ended hends hcounter hcounting' =>
        have hne := hnot hends
        refine ⟨next, ?_, ?_, hlt⟩
        · rw [hcounting', hcounting, filter_some, if_pos (by simpa using hne)]
        · obtain hcounter | hmine := hcounter
          · exact hcounter.trans_le hle
          · exact absurd (Prod.mk.inj (Option.some.inj (hcounting.symm.trans hmine))).1 hne
    · -- A thread begins with the lock.
      have hown := mem_own.2 hlogged
      rw [show own i w.log = [] from hcontract] at hown
      cases hown
  · cases heq
    obtain ⟨rfl, hcounter, hcounting⟩ := takeNumber_eq_some hexec hhost
    exact ⟨_, hcounting, hcounter.trans_le (hw.counter_le_next organization), by omega⟩

theorem Numbered.push_handed (hcontract : Contract c (own i w.log) o)
    (henabled : w.state.enabled hostOrganization i o = true)
    (hexec : exec hostOrganization i pinned o w.state = (ans, s')) {principalId : String}
    {home : Text} (heq : (⟨k, .upsertIds principalId serverId id home, true⟩ : Event Op Ans) =
    ⟨i, o, ans⟩)
    (hhost : hostOrganization serverId = some organization) :
    w.state.counter organization ≤ id ∧ id < s'.counter organization := by
  cases heq
  obtain ⟨next, hcounting, hle, hlt⟩ := hw.counted i principalId serverId id organization
    (by simpa [IdStore.enabled] using henabled) (mem_own.1 hcontract.2.1) hhost
  refine ⟨hle, ?_⟩
  rw [exec] at hexec
  split at hexec
  · cases hexec
    simpa only [IdStore.committed, IdStore.dropped, hcounting, if_true] using hlt
  · cases (Prod.mk.inj hexec).1

theorem Numbered.push (hcontract : Contract c (own i w.log) o)
    (henabled : w.state.enabled hostOrganization i o = true)
    (hexec : exec hostOrganization i pinned o w.state = (ans, s')) :
    Numbered hostOrganization (w.push i o ans s') where
  ahead _ _ _ h := hw.push_ahead hexec h
  counted _ _ _ _ _ hlock hev hhost := hw.push_counted hcontract henabled hexec hlock hev hhost
  handed k principalId serverId id home organization hev hhost := by
    obtain hev | heq := mem_push.1 hev
    · exact (hw.handed k principalId serverId id home organization hev hhost).trans_le
          (hw.counter_mono hexec organization)
    · exact (hw.push_handed hcontract henabled hexec heq hhost).2
  band k principalId serverId id home hev := by
    obtain hev | heq := mem_push.1 hev
    · exact hw.band k principalId serverId id home hev
    · cases heq
      exact hcontract.1
  alone k k' principalId principalId' serverId serverId' id home home' organization hev hev' hhost
    hhost' := by
    obtain hev | heq := mem_push.1 hev
    · obtain hev' | heq' := mem_push.1 hev'
      · exact hw.alone k k' _ _ _ _ _ _ _ organization hev hev' hhost hhost'
      · have hlt := hw.handed _ _ _ _ _ _ hev hhost
        have hle := (hw.push_handed hcontract henabled hexec heq' hhost').1
        omega
    · obtain hev' | heq' := mem_push.1 hev'
      · have hlt := hw.handed _ _ _ _ _ _ hev' hhost'
        have hle := (hw.push_handed hcontract henabled hexec heq hhost).1
        omega
      · cases heq.trans heq'.symm
        rfl

end

/-! ## The ids of a principal -/

/-- What an allocation answers. -/
def Returns (i : ℕ) (principalId serverId : String) (r : Option PrincipalIds)
    (ev : Event Op Ans) : Prop :=
  ev = ⟨i, .endTransaction principalId serverId r, ()⟩ ∨
    ∃ id home, r = some ⟨id, id⟩ ∧ ev = ⟨i, .upsertIds principalId serverId id home, true⟩

/-- The allocation read these rows, and no report or refusal concerned the principal since. -/
def ReadSince (i : ℕ) (principalId : String) (rows : List PlacementIdRow)
    (log : List (Event Op Ans)) : Prop :=
  Since (fun ev => ev = ⟨i, .loadPlacementIdRows principalId, rows⟩)
    (fun ev => ¬Disturbs principalId ev) log

theorem ReadSince.mem {log : List (Event Op Ans)} (h : ReadSince k principalId rows log) :
    ⟨k, .loadPlacementIdRows principalId, rows⟩ ∈ log := by
  obtain ⟨before, ev, after, rfl, rfl, -⟩ := h
  exact mem_append_right _ mem_cons_self

theorem readSince_push :
    ReadSince k principalId rows (w.push i o ans s').log ↔
      (⟨i, o, ans⟩ : Event Op Ans) = ⟨k, .loadPlacementIdRows principalId, rows⟩ ∨
        ReadSince k principalId rows w.log ∧ ¬Disturbs principalId ⟨i, o, ans⟩ := since_concat

/-- The rows of the principal agree on the ids, and so do those that the holder of its lock has
read. -/
structure Promised (principalId : String) (r : Option PrincipalIds)
    (w : World Op Ans IdStore) : Prop where
  agreed : Agreed (w.state.placements.idRows principalId) r
  holder : ∀ k rows, w.state.locks principalId = some k →
    ⟨k, .loadPlacementIdRows principalId, rows⟩ ∈ w.log →
    ∃ r', Agreed rows r'

theorem locked_before (hcontract : Contract c (own i w.log) o)
    (hexec : exec hostOrganization i pinned o w.state = (ans, s'))
    (hlock : s'.locks principalId = some k)
    {ev : Event Op Ans} (hev : ev ∈ w.log) (hthread : ev.thread = k) :
    w.state.locks principalId = some k ∧ (o.ends = true → k ≠ i) := by
  obtain h | ⟨rfl, rfl⟩ := locks_cases hexec hlock
  · exact h
  · obtain ⟨j, o, ans⟩ := ev
    obtain rfl : j = i := hthread
    have hown := mem_own.2 hev
    rw [show own j w.log = [] from hcontract] at hown
    cases hown

theorem Promised.push {r : Option PrincipalIds} (h : Promised principalId r w)
    (hcontract : Contract c (own i w.log) o)
    (henabled : w.state.enabled hostOrganization i o = true)
    (hexec : exec hostOrganization i pinned o w.state = (ans, s'))
    (hquiet : ¬Disturbs principalId ⟨i, o, ans⟩) :
    Promised principalId r (w.push i o ans s') := by
  have hagreed : Agreed (s'.placements.idRows principalId) r := by
    obtain hfollows | hdisturbs | ⟨serverId, id, home, placements, heq, -, -⟩ :=
      idRows_cases hexec principalId
    · exact hfollows.agreed h.agreed
    · exact absurd hdisturbs hquiet
    · cases heq
      obtain ⟨-, -, rows, hrows, hallocate⟩ := hcontract
      obtain ⟨r', hr'⟩ := h.holder i rows (by simpa [IdStore.enabled] using henabled)
        (mem_own.1 hrows)
      exact absurd hallocate hr'.not_allocate
  refine ⟨hagreed, fun k rows hlock hev => ?_⟩
  obtain hev | heq := mem_push.1 hev
  · exact h.holder k rows (locked_before hcontract hexec hlock hev rfl).1 hev
  · cases heq
    cases hexec
    exact ⟨r, hagreed⟩

/-- What holds of the ids in every world of a run. -/
structure Settled (c : Collation) (w : World Op Ans IdStore) : Prop where
  once : ∀ i principalId principalId' rows rows',
    ⟨i, .loadPlacementIdRows principalId, rows⟩ ∈ w.log →
    ⟨i, .loadPlacementIdRows principalId', rows'⟩ ∈ w.log →
      principalId = principalId' ∧ rows = rows'
  /-- Where an allocation under way found no ids, there are none. -/
  view : ∀ i principalId rows, w.state.locks principalId = some i →
    ReadSince i principalId rows w.log →
    (∀ row ∈ rows, row.ids = none) → ∀ row ∈ w.state.placements.idRows principalId, row.ids = none
  read : ∀ i principalId rows r, ReadSince i principalId rows w.log → Agreed rows r →
    Promised principalId r w
  recorded : ∀ i principalId rows serverId id home,
    ⟨i, .upsertIds principalId serverId id home, true⟩ ∈ w.log →
    ReadSince i principalId rows w.log → Promised principalId (some ⟨id, id⟩) w
  /-- What an allocation answers is what it decided on the rows that it read. -/
  returns : ∀ i principalId serverId r, ∀ ev ∈ w.log, Returns i principalId serverId r ev →
    ∃ rows, ⟨i, .loadPlacementIdRows principalId, rows⟩ ∈ w.log ∧
      (decidePrincipalIds c rows serverId = decisionOf r ∨
        (decidePrincipalIds c rows serverId = .allocate ∧
        ∃ id home, r = some ⟨id, id⟩ ∧ ev = ⟨i, .upsertIds principalId serverId id home, true⟩))

theorem not_mem_of_load (hcontract : Contract c (own i w.log) (.loadPlacementIdRows principalId))
    {o' : Op}
    {ans' : Ans o'} (ho' : ∀ principalId', o' ≠ .lockPrincipal principalId') :
    (⟨i, o', ans'⟩ : Event Op Ans) ∉ w.log := by
  intro hev
  have hown := mem_own.2 hev
  rw [show own i w.log = _ from hcontract] at hown
  exact ho' principalId (congrArg Sigma.fst (mem_singleton.1 hown))

theorem load_reads (henabled : w.state.enabled hostOrganization i
    (.loadPlacementIdRows principalId) = true)
    (hexec : exec hostOrganization i pinned (.loadPlacementIdRows principalId) w.state =
    (rows, s')) :
    rows = w.state.placements.idRows principalId ∧ s' = w.state ∧
    w.state.locks principalId = some i := by
  cases hexec
  exact ⟨rfl, rfl, by simpa [IdStore.enabled] using henabled⟩

section

variable (hw : Settled c w) (hcontract : Contract c (own i w.log) o)
  (henabled : w.state.enabled hostOrganization i o = true)
  (hexec : exec hostOrganization i pinned o w.state = (ans, s'))

include hw hcontract

variable {rows : List PlacementIdRow} {principalId serverId : String} {k : ℕ}

theorem Settled.push_once {principalId principalId' : String} {rows rows' : List PlacementIdRow}
    (hev : ⟨k, .loadPlacementIdRows principalId, rows⟩ ∈ (w.push i o ans s').log)
    (hev' : ⟨k, .loadPlacementIdRows principalId', rows'⟩ ∈ (w.push i o ans s').log) :
    principalId = principalId' ∧ rows = rows' := by
  obtain hold | heq := mem_push.1 hev
  · obtain hold' | heq' := mem_push.1 hev'
    · exact hw.once k principalId principalId' rows rows' hold hold'
    · cases heq'
      exact absurd hold (not_mem_of_load hcontract nofun)
  · obtain hold' | heq' := mem_push.1 hev'
    · cases heq
      exact absurd hold' (not_mem_of_load hcontract nofun)
    · cases heq.trans heq'.symm
      exact ⟨rfl, rfl⟩

include henabled hexec

theorem Settled.push_view {principalId : String} (hlock : s'.locks principalId = some k)
    (hsince : ReadSince k principalId rows (w.push i o ans s').log)
    (hnone : ∀ row ∈ rows, row.ids = none) :
    ∀ row ∈ s'.placements.idRows principalId, row.ids = none := by
  obtain heq | ⟨hsince, hquiet⟩ := readSince_push.1 hsince
  · cases heq
    obtain ⟨rfl, rfl, -⟩ := load_reads henabled hexec
    exact hnone
  · obtain ⟨hbefore, hends⟩ := locked_before hcontract hexec hlock hsince.mem rfl
    have hrows := hw.view k principalId rows hbefore hsince hnone
    obtain hfollows | hdisturbs | ⟨serverId, id, home, placements, heq, -, -⟩ :=
      idRows_cases hexec principalId
    · exact hfollows.without_ids hrows
    · exact absurd hdisturbs hquiet
    · cases heq
      have hmine : w.state.locks principalId = some i := by simpa [IdStore.enabled] using henabled
      exact absurd (Option.some.inj (hbefore.symm.trans hmine)) (hends rfl)

theorem Settled.push_read {principalId : String} {r : Option PrincipalIds}
    (hsince : ReadSince k principalId rows (w.push i o ans s').log) (hagreed : Agreed rows r) :
    Promised principalId r (w.push i o ans s') := by
  obtain heq | ⟨hsince, hquiet⟩ := readSince_push.1 hsince
  · cases heq
    obtain ⟨rfl, rfl, hmine⟩ := load_reads henabled hexec
    refine ⟨hagreed, fun k rows' hlock hev => ?_⟩
    cases hmine.symm.trans hlock
    obtain hev | heq := mem_push.1 hev
    · exact absurd hev (not_mem_of_load hcontract nofun)
    · cases heq
      exact ⟨r, hagreed⟩
  · exact (hw.read k principalId rows r hsince hagreed).push hcontract henabled hexec hquiet

theorem Settled.push_recorded {id : ℤ} {home : Text}
    (hev : ⟨k, .upsertIds principalId serverId id home, true⟩ ∈ (w.push i o ans s').log)
    (hsince : ReadSince k principalId rows (w.push i o ans s').log) :
    Promised principalId (some ⟨id, id⟩) (w.push i o ans s') := by
  obtain hold | heq := mem_push.1 hev
  · obtain heq | ⟨hsince, hquiet⟩ := readSince_push.1 hsince
    · cases heq
      exact absurd hold (not_mem_of_load hcontract nofun)
    · exact (hw.recorded k principalId rows serverId id home hold hsince).push hcontract henabled
        hexec hquiet
  · cases heq
    obtain heq | ⟨hsince, -⟩ := readSince_push.1 hsince
    · cases heq
    · have hmine : w.state.locks principalId = some i := by simpa [IdStore.enabled] using henabled
      obtain ⟨-, -, rows', hrows', hallocate⟩ := hcontract
      obtain ⟨-, rfl⟩ := hw.once i principalId principalId rows' rows (mem_own.1 hrows') hsince.mem
      have hnone := hw.view i principalId rows' hmine hsince
        (decide_eq_allocate_iff.1 hallocate).ids
      refine ⟨?_, fun k rows hlock hev => ?_⟩
      · rw [exec] at hexec
        split at hexec
        · rename_i placements hupsert
          cases hexec
          exact agreed_of_upsert hupsert hnone
        · cases (Prod.mk.inj hexec).1
      · -- The lock is free again.
        obtain ⟨hlock, hends⟩ | ⟨heq, -⟩ := locks_cases hexec hlock
        · exact absurd (Option.some.inj (hlock.symm.trans hmine)) (hends rfl)
        · cases heq

omit henabled hexec in
theorem Settled.push_returns {r : Option PrincipalIds} {ev : Event Op Ans}
    (hev : ev ∈ (w.push i o ans s').log)
    (hreturns : Returns k principalId serverId r ev) :
    ∃ rows, ⟨k, .loadPlacementIdRows principalId, rows⟩ ∈ (w.push i o ans s').log ∧
      (decidePrincipalIds c rows serverId = decisionOf r ∨
      (decidePrincipalIds c rows serverId = .allocate ∧
        ∃ id home, r = some ⟨id, id⟩ ∧ ev = ⟨k, .upsertIds principalId serverId id home,
        true⟩)) := by
  obtain hev | rfl := mem_push.1 hev
  · obtain ⟨rows, hrows, hdecide⟩ := hw.returns k principalId serverId r ev hev hreturns
    exact ⟨rows, mem_push.2 (.inl hrows), hdecide⟩
  · obtain heq | ⟨id, home, rfl, heq⟩ := hreturns
    · cases heq
      obtain ⟨rows, hrows, hdecide⟩ := hcontract
      exact ⟨rows, mem_push.2 (.inl (mem_own.1 hrows)), .inl hdecide⟩
    · cases heq
      obtain ⟨-, -, rows, hrows, hallocate⟩ := hcontract
      exact ⟨rows, mem_push.2 (.inl (mem_own.1 hrows)), .inr ⟨hallocate, id, home, rfl, rfl⟩⟩

theorem Settled.push : Settled c (w.push i o ans s') where
  once _ _ _ _ _ hev hev' := hw.push_once hcontract hev hev'
  view _ _ _ hlock hsince hnone := hw.push_view hcontract henabled hexec hlock hsince hnone
  read _ _ _ _ hsince hagreed := hw.push_read hcontract henabled hexec hsince hagreed
  recorded _ _ _ _ _ _ hev hsince := hw.push_recorded hcontract henabled hexec hev hsince
  returns _ _ _ _ _ hev hreturns := hw.push_returns hcontract hev hreturns

end

/-- What holds of the order in which allocations read, in every world of a run. -/
structure Ordered (w : World Op Ans IdStore) : Prop where
  /-- What agreed when it was read, and was not disturbed, is what the next allocation reads. -/
  read : ∀ before after j principalId rows',
    w.log = before ++ ⟨j, .loadPlacementIdRows principalId, rows'⟩ :: after →
    ∀ i rows r, ReadSince i principalId rows before → Agreed rows r → Agreed rows' r
  recorded : ∀ before after j principalId rows',
    w.log = before ++ ⟨j, .loadPlacementIdRows principalId, rows'⟩ :: after →
      ∀ i rows serverId id home,
      ⟨i, .upsertIds principalId serverId id home, true⟩ ∈ before →
        ReadSince i principalId rows before →
        Agreed rows' (some ⟨id, id⟩)
  /-- An allocation that read before has ended. -/
  ended : ∀ before after j principalId rows',
    w.log = before ++ ⟨j, .loadPlacementIdRows principalId, rows'⟩ :: after →
    ∀ i rows, i ≠ j → ⟨i, .loadPlacementIdRows principalId, rows⟩ ∈ before →
      w.state.locks principalId ≠ some i ∧ ∀ serverId r, ∀ ev ∈ after,
        ¬Returns i principalId serverId r ev

theorem locks_of_returns {principalId : String} {r : Option PrincipalIds}
    (henabled : w.state.enabled hostOrganization i o = true)
    (hreturns : Returns k principalId serverId r ⟨i, o, ans⟩) :
    w.state.locks principalId = some k := by
  obtain heq | ⟨id, home, -, heq⟩ := hreturns <;>
    (cases heq; simpa [IdStore.enabled] using henabled)

theorem Ordered.push (hordered : Ordered w) (hw : Settled c w)
    (hcontract : Contract c (own i w.log) o)
    (henabled : w.state.enabled hostOrganization i o = true)
    (hexec : exec hostOrganization i pinned o w.state = (ans, s')) :
    Ordered (w.push i o ans s') where
  read before after j principalId rows' hlog k rows r hsince hagreed := by
    obtain ⟨-, rfl, heq⟩ | ⟨after', -, hlog⟩ := concat_eq_append_cons hlog
    · cases heq
      obtain ⟨rfl, -, -⟩ := load_reads henabled hexec
      exact (hw.read k principalId rows r hsince hagreed).agreed
    · exact hordered.read before after' j principalId rows' hlog k rows r hsince hagreed
  recorded before after j principalId rows' hlog k rows serverId id home hev hsince := by
    obtain ⟨-, rfl, heq⟩ | ⟨after', -, hlog⟩ := concat_eq_append_cons hlog
    · cases heq
      obtain ⟨rfl, -, -⟩ := load_reads henabled hexec
      exact (hw.recorded k principalId rows serverId id home hev hsince).agreed
    · exact hordered.recorded before after' j principalId rows' hlog k rows serverId id
        home hev hsince
  ended before after j principalId rows' hpushed k rows hne hev := by
    obtain ⟨rfl, rfl, heq⟩ | ⟨after', rfl, hlog⟩ := concat_eq_append_cons hpushed
    · cases heq
      obtain ⟨-, rfl, hmine⟩ := load_reads henabled hexec
      refine ⟨fun hlock => ?_, fun _ _ _ hev => by cases hev⟩
      exact hne (Option.some.inj (hlock.symm.trans hmine))
    · have hmem : (⟨k, .loadPlacementIdRows principalId, rows⟩ : Event Op Ans) ∈ w.log := by
        rw [hlog]
        exact mem_append_left _ hev
      obtain ⟨hlock, hafter⟩ := hordered.ended before after' j principalId rows' hlog k rows hne hev
      refine ⟨fun hlock' => hlock (locked_before hcontract hexec hlock' hmem rfl).1,
        fun serverId r ev hev' => ?_⟩
      obtain hev' | hev' := mem_append.1 hev'
      · exact hafter serverId r ev hev'
      · obtain rfl := mem_singleton.1 hev'
        exact fun hreturns => hlock (locks_of_returns henabled hreturns)

end

/-! ## The ids of an account -/

/-- The account of the row is as it was: only its home may have moved. -/
structure SameAccount (row row' : PlacementRow) : Prop where
  principalId : row'.principalId = row.principalId
  serverId : row'.serverId = row.serverId
  state : row'.state = row.state
  uid : row'.uid = row.uid
  gid : row'.gid = row.gid

theorem SameAccount.refl (row : PlacementRow) : SameAccount row row := ⟨rfl, rfl, rfl, rfl, rfl⟩

theorem ids_eq_some {row : PlacementIdRow} {ids : PrincipalIds} :
    row.ids = some ids ↔ row.uid = some ids.uid ∧ row.gid = some ids.gid := by
  obtain ⟨uid, gid⟩ := ids
  unfold PlacementIdRow.ids
  split
  · rename_i huid hgid
    simp [huid, hgid]
  · rename_i hnone
    simp only [reduceCtorEq, false_iff, not_and]
    exact fun huid hgid => hnone _ _ huid hgid

variable {i : ℕ} {row : PlacementRow}

/-- **A step.** A statement that is not an upsert of the placement leaves the account as it is. -/
theorem account_kept {pinned : Bool} {o : Op} {s s' : IdStore} {ans : Ans o}
    (hexec : exec hostOrganization i pinned o s = (ans, s')) (hrow : row ∈ s.placements.rows)
    (hpresent : row.state = .present) (hids : row.ids.isSome = true)
    (hno : ∀ id home, ¬Hands i row.principalId row.serverId id home ⟨i, o, ans⟩) :
    ∃ row' ∈ s'.placements.rows, SameAccount row row' := by
  have hsame : s'.placements = s.placements → ∃ row' ∈ s'.placements.rows, SameAccount row row' :=
    fun h => ⟨row, h ▸ hrow, .refl row⟩
  have hafter : ∀ o', SameAccount row (Placements.onRow o' row) →
      ∃ row' ∈ (s.placements.after o').rows, SameAccount row row' :=
    fun o' h => ⟨_, mem_map_of_mem hrow, h⟩
  cases o with
  | setHome serverId principalId home =>
    cases hexec
    refine hafter _ ?_
    rw [Placements.onRow]
    split
    · exact ⟨rfl, rfl, rfl, rfl, rfl⟩
    · exact .refl row
  | letGo serverId principalId uid =>
    cases hexec
    refine hafter _ ?_
    rw [Placements.onRow, if_neg]
    · exact .refl row
    · simp [PlacementRow.inTheWay, hpresent]
  | releaseIds principalId id =>
    cases hexec
    refine hafter _ ?_
    rw [Placements.onRow, if_neg]
    · exact .refl row
    · simp [PlacementRow.refused, hpresent]
  | markPresent serverId principalIds =>
    cases hexec
    refine hafter _ ?_
    rw [Placements.onRow]
    split
    · exact ⟨rfl, rfl, hpresent.symm, rfl, rfl⟩
    · exact .refl row
  | fillIds serverId principalId uid gid =>
    rw [exec] at hexec
    split at hexec
    · rename_i placements hfill
      cases hexec
      refine ⟨row, ?_, .refl row⟩
      change row ∈ placements.rows
      rw [rows_of_write hfill]
      refine mem_map.2 ⟨row, hrow, if_neg fun hfillable => ?_⟩
      obtain ⟨ids, hids⟩ := isSome_iff_exists.1 hids
      simp [PlacementRow.fillable, hpresent, (ids_eq_some.1 hids).1] at hfillable
    · exact hsame (congrArg IdStore.placements (Prod.mk.inj hexec).2.symm)
  | upsertIds principalId serverId id home =>
    rw [exec] at hexec
    split at hexec
    · rename_i placements hupsert
      cases hexec
      refine ⟨row, ?_, .refl row⟩
      change row ∈ placements.rows
      unfold Placements.upsertIds at hupsert
      split at hupsert
      · rw [rows_of_write hupsert]
        refine mem_map.2 ⟨row, hrow, if_neg fun hof => ?_⟩
        rw [PlacementRow.isOf, Bool.and_eq_true, decide_eq_true_eq, decide_eq_true_eq] at hof
        obtain ⟨rfl, rfl⟩ := hof
        exact hno id home rfl
      · rw [rows_of_write hupsert]
        exact mem_append_left _ hrow
    · cases hexec
      exact ⟨row, hrow, .refl row⟩
  | takeNumber principalId serverId =>
    obtain ⟨-, rfl⟩ := Prod.mk.inj hexec
    refine hsame ?_
    split
    · rfl
    · split <;> rfl
  | _ =>
    cases hexec
    exact hsame rfl

/-- The ids of the placement are recorded by an allocation that read the rows earlier than this. -/
def Stale (log : List (Event Op Ans)) (row : PlacementRow) (ev : Event Op Ans) : Prop :=
  ∃ id home rows, Hands ev.thread row.principalId row.serverId id home ev ∧
    ⟨ev.thread, .loadPlacementIdRows row.principalId, rows⟩ ∈ log

/-- From one world to a later one, the accounts with recorded ids stay as they are, but for stale
upserts. -/
def IdsKept (w w' : World Op Ans IdStore) : Prop :=
  ∀ row ∈ w.state.placements.rows, row.state = .present → row.ids.isSome = true →
    ∃ since, w'.log = w.log ++ since ∧
      ((∀ ev ∈ since, ¬Stale w.log row ev) → ∃ row' ∈ w'.state.placements.rows,
        SameAccount row row')

/-- The account is as it was, and whoever has read its placement since has seen its ids. -/
structure AccountKept (log : List (Event Op Ans)) (row : PlacementRow) (w : World Op Ans IdStore)
    (since : List (Event Op Ans)) : Prop where
  grew : w.log = log ++ since
  account : (∀ ev ∈ since, ¬Stale log row ev) → ∃ row' ∈ w.state.placements.rows,
    SameAccount row row'
  seen : (∀ ev ∈ since, ¬Stale log row ev) → ∀ k rows,
    ⟨k, .loadPlacementIdRows row.principalId, rows⟩ ∈ since →
    ¬Blank rows

theorem SameAccount.ids {row' : PlacementRow} (h : SameAccount row row') : row'.ids = row.ids := by
  rw [PlacementIdRow.ids, PlacementIdRow.ids, h.uid, h.gid]

theorem SameAccount.trans {row' row'' : PlacementRow} (h : SameAccount row row')
    (h' : SameAccount row' row'') :
    SameAccount row row'' :=
  ⟨h'.principalId.trans h.principalId, h'.serverId.trans h.serverId, h'.state.trans h.state,
    h'.uid.trans h.uid,
    h'.gid.trans h.gid⟩

theorem AccountKept.push {pinned : Bool} {o : Op} {w : World Op Ans IdStore} {s' : IdStore}
    {ans : Ans o}
    {log since : List (Event Op Ans)} (hpresent : row.state = .present)
    (hids : row.ids.isSome = true) (h : AccountKept log row w since)
    (hcontract : Contract c (own i w.log) o)
    (hexec : exec hostOrganization i pinned o w.state = (ans, s')) :
    AccountKept log row (w.push i o ans s') (since ++ [⟨i, o, ans⟩]) where
  grew := by rw [World.push, h.grew, append_assoc]
  account hfresh := by
    have hbefore : ∀ ev ∈ since, ¬Stale log row ev := fun ev hev =>
      hfresh ev (mem_append_left _ hev)
    obtain ⟨row', hrow', hsame⟩ := h.account hbefore
    have hno : ∀ id home, ¬Hands i row'.principalId row'.serverId id home ⟨i, o, ans⟩ := by
      -- An upsert that is not stale read the rows since, and saw the ids.
      intro id home hhands
      rw [hsame.principalId, hsame.serverId] at hhands
      have hnew := hfresh ⟨i, o, ans⟩ (mem_append_right _ mem_cons_self)
      cases hhands
      obtain ⟨-, -, rows, hrows, hallocate⟩ := hcontract
      have hload := mem_own.1 hrows
      rw [h.grew] at hload
      obtain hold | hload := mem_append.1 hload
      · exact hnew ⟨id, home, rows, rfl, hold⟩
      · exact h.seen hbefore i rows hload (decide_eq_allocate_iff.1 hallocate)
    obtain ⟨row'', hrow'', hsame'⟩ :=
      account_kept hexec hrow' (hsame.state.trans hpresent) (hsame.ids ▸ hids) hno
    exact ⟨row'', hrow'', hsame.trans hsame'⟩
  seen hfresh k rows hload hblank := by
    have hbefore : ∀ ev ∈ since, ¬Stale log row ev := fun ev hev =>
      hfresh ev (mem_append_left _ hev)
    obtain hload | hload := mem_append.1 hload
    · exact h.seen hbefore k rows hload hblank
    · cases mem_singleton.1 hload
      cases hexec
      obtain ⟨row', hrow', hsame⟩ := h.account hbefore
      have hnone := hblank.ids _ (mem_idRows.2 ⟨row', hrow', hsame.principalId, rfl⟩)
      rw [hsame.ids] at hnone
      rw [hnone] at hids
      cases hids

/-! ## Runs -/

/-- The three invariants together. -/
structure Kept (c : Collation) (hostOrganization : String → Option String)
    (w : World Op Ans IdStore) : Prop where
  numbered : Numbered hostOrganization w
  settled : Settled c w
  ordered : Ordered w

theorem locks_of_dropped {s : IdStore} {k : ℕ} {principalId : String}
    (h : (s.dropped i).locks principalId = some k) : s.locks principalId = some k ∧ k ≠ i := by
  obtain ⟨hlock, hne⟩ := filter_eq_some_iff.1 h
  exact ⟨hlock, by simpa using hne⟩

section

variable {w : World Op Ans IdStore} {i : ℕ}

theorem Promised.drop {principalId : String} {r : Option PrincipalIds}
    (h : Promised principalId r w) :
    Promised principalId r { w with state := w.state.dropped i } :=
  ⟨h.agreed, fun k rows hlock hev => h.holder k rows (locks_of_dropped hlock).1 hev⟩

theorem Kept.drop (h : Kept c hostOrganization w) :
    Kept c hostOrganization { w with state := w.state.dropped i } where
  numbered := by
    refine ⟨fun organization k next hcounting => ?_,
      fun k principalId serverId id organization hlock hev hhost => ?_,
      h.numbered.handed, h.numbered.band, h.numbered.alone⟩
    · exact h.numbered.ahead organization k next (filter_eq_some_iff.1 hcounting).1
    · obtain ⟨hlock, hne⟩ := locks_of_dropped hlock
      obtain ⟨next, hcounting, hle, hlt⟩ :=
        h.numbered.counted k principalId serverId id organization hlock hev hhost
      refine ⟨next, ?_, hle, hlt⟩
      change (w.state.counting organization).filter (·.1 ≠ i) = _
      rw [hcounting, filter_some, if_pos (by simpa using hne)]
  settled :=
    { once := h.settled.once
      view := fun k principalId rows hlock =>
        h.settled.view k principalId rows (locks_of_dropped hlock).1
      read := fun k principalId rows r hsince hagreed =>
        (h.settled.read k principalId rows r hsince hagreed).drop
      recorded := fun k principalId rows serverId id home hev hsince =>
        (h.settled.recorded k principalId rows serverId id home hev hsince).drop
      returns := h.settled.returns }
  ordered :=
    { read := h.ordered.read
      recorded := h.ordered.recorded
      ended := fun before after j principalId rows' hlog k rows hne hev =>
        (h.ordered.ended before after j principalId rows' hlog k rows hne hev).imp_left
          fun hlock hlock' => hlock (locks_of_dropped hlock').1 }

end

/-- The ids that are recorded are the same in all rows. -/
def SameRecorded (rows : List PlacementIdRow) : Prop :=
  ∀ row ∈ rows, ∀ row' ∈ rows, ∀ ids ∈ row.ids, ∀ ids' ∈ row'.ids, ids = ids'

theorem exists_agreed {rows : List PlacementIdRow} (hsame : SameRecorded rows)
    (hknown : ¬Blank rows) :
    ∃ r, Agreed rows r := by
  by_cases hids : ∃ row ∈ rows, row.ids.isSome = true
  · obtain ⟨row, hrow, hsome⟩ := hids
    obtain ⟨ids, hids⟩ := isSome_iff_exists.1 hsome
    refine ⟨some ids, fun row' hrow' ids' hids' => ?_, row, hrow, hids, fun h => by cases h⟩
    rw [hsame row hrow row' hrow' ids hids ids' hids']
  · have hnone : ∀ row ∈ rows, row.ids = none := by
      simpa using hids
    obtain ⟨row, hrow, hstate⟩ : ∃ row ∈ rows, row.state = .present ∨ row.state = .retiring := by
      by_contra hstate
      refine hknown ⟨hnone, fun row hrow => ?_⟩
      rw [← not_or]
      exact fun h => hstate ⟨row, hrow, h⟩
    refine ⟨none, fun row' hrow' ids' hids' => ?_, row, hrow, hnone row hrow, fun _ => hstate⟩
    rw [hnone row' hrow'] at hids'
    cases hids'

theorem decisionOf_injective : Function.Injective decisionOf := by
  intro r r' h
  rcases r with _ | ids <;> rcases r' with _ | ids'
  · rfl
  · cases h
  · cases h
  · exact congrArg some (PrincipalIdDecision.use.inj h)

/-- Two allocations for one principal answer the same, where the second reads the rows while nothing
has disturbed those that the first one read, these agree, and neither finds an account on its server
whose ids are not recorded. -/
def SameAnswers (log : List (Event Op Ans)) : Prop :=
  ∀ before after i j principalId serverId serverId' rows rows' r r', i ≠ j →
    log = before ++ ⟨j, .loadPlacementIdRows principalId, rows'⟩ :: after →
      ReadSince i principalId rows before →
      SameRecorded rows → Reported rows serverId → Reported rows' serverId' →
        (∃ ev ∈ log, Returns i principalId serverId r ev) →
          (∃ ev ∈ log, Returns j principalId serverId' r' ev) → r = r'

theorem Kept.sameAnswers {w : World Op Ans IdStore} (hw : Kept c hostOrganization w) :
    SameAnswers w.log := by
  intro before after i j principalId serverId serverId' rows rows' r r' hne hlog hsince hsame
    hreported hreported'
    ⟨ev, hev, hreturns⟩ ⟨ev', hev', hreturns'⟩
  have hload : ⟨i, .loadPlacementIdRows principalId, rows⟩ ∈ w.log := by
    rw [hlog]
    exact mem_append_left _ hsince.mem
  have hload' : ⟨j, .loadPlacementIdRows principalId, rows'⟩ ∈ w.log := by
    rw [hlog]
    exact mem_append_right _ mem_cons_self
  -- What the first answers is what the second reads.
  have hagreed : Agreed rows' r := by
    obtain ⟨rows₀, hrows₀, hdecide⟩ := hw.settled.returns i principalId serverId r ev hev hreturns
    obtain ⟨-, rfl⟩ := hw.settled.once i principalId principalId rows₀ rows hrows₀ hload
    by_cases hblank : Blank rows₀
    · obtain hfound | ⟨-, id, home, rfl, rfl⟩ := hdecide
      · rw [decide_eq_allocate_iff.2 hblank] at hfound
        cases r <;> cases hfound
      · rw [hlog] at hev
        obtain hbefore | hafter := mem_append.1 hev
        · exact hw.ordered.recorded before after j principalId rows' hlog i rows₀ serverId id home
            hbefore hsince
        · obtain heq | hafter := mem_cons.1 hafter
          · cases heq
          · exact absurd hreturns
              ((hw.ordered.ended before after j principalId rows' hlog i rows₀ hne hsince.mem).2
              serverId _ _ hafter)
    · obtain ⟨r₀, hr₀⟩ := exists_agreed hsame hblank
      have hr : r₀ = r := by
        rw [decide_of_agreed hr₀ hreported] at hdecide
        obtain hfound | ⟨hallocate, -⟩ := hdecide
        · exact decisionOf_injective hfound
        · cases r₀ <;> cases hallocate
      exact hr ▸ hw.ordered.read before after j principalId rows' hlog i rows₀ r₀ hsince hr₀
  obtain ⟨rows₀, hrows₀, hdecide⟩ :=
    hw.settled.returns j principalId serverId' r' ev' hev' hreturns'
  obtain ⟨-, rfl⟩ := hw.settled.once j principalId principalId rows₀ rows' hrows₀ hload'
  rw [decide_of_agreed hagreed hreported'] at hdecide
  obtain hfound | ⟨hallocate, -⟩ := hdecide
  · exact decisionOf_injective hfound
  · cases r <;> cases hallocate

/-- The store before any of the calls: no transaction is under way. -/
def idle (placements : Placements) (counter : String → ℤ) : IdStore :=
    ⟨placements, counter, fun _ => none, fun _ => none⟩

theorem kept_init (placements : Placements) (counter : String → ℤ) :
    Kept c hostOrganization (Config.init (idle placements counter) : Config Op Ans
    IdStore).world where
  numbered :=
    { ahead := fun _ _ _ h => absurd h.symm (some_ne_none _)
      counted := fun _ _ _ _ _ h => absurd h.symm (some_ne_none _)
      handed := fun _ _ _ _ _ _ h => absurd h not_mem_nil
      band := fun _ _ _ _ _ h => absurd h not_mem_nil
      alone := fun _ _ _ _ _ _ _ _ _ _ h => absurd h not_mem_nil }
  settled :=
    { once := fun _ _ _ _ _ h => absurd h not_mem_nil
      view := fun _ _ _ h => absurd h.symm (some_ne_none _)
      read := fun _ _ _ _ h => absurd h not_since_nil
      recorded := fun _ _ _ _ _ _ h => absurd h not_mem_nil
      returns := fun _ _ _ _ _ h => absurd h not_mem_nil }
  ordered := by
    constructor <;>
      (intro before after j principalId rows' hlog
       exact absurd hlog.symm (append_ne_nil_of_right_ne_nil _ (cons_ne_nil _ _)))

abbrev Choices := List (Choice Bool Call)

/-- The configuration after a run. -/
def reached (c : Collation) (hostOrganization : String → Option String) (placements : Placements)
    (counter : String → ℤ) (choices : Choices) : Config Op Ans IdStore :=
  (Config.init (idle placements counter)).run (machine hostOrganization) (body c) choices

section

variable (c hostOrganization) (placements : Placements) (counter : String → ℤ)

theorem kept_reached (choices : Choices) :
    Obeys AnyAns (Contract c) (reached c hostOrganization placements counter choices) ∧
      Kept c hostOrganization (reached c hostOrganization placements counter choices).world := by
  have hstep : ∀ {i : ℕ} {e : Bool} {o : Op} {w : World Op Ans IdStore} {ans : Ans o}
    {s' : IdStore},
      Kept c hostOrganization w → True → Contract c (own i w.log) o →
        (machine hostOrganization).exec i e o w.state = some (ans, s') → Kept c hostOrganization
            (w.push i o ans s') := by
    intro i e o w ans s' hw _ hcontract hexec
    obtain ⟨henabled, hexec⟩ := exec_of_machine hexec
    exact ⟨hw.numbered.push hcontract henabled hexec, hw.settled.push hcontract henabled hexec,
      hw.ordered.push hw.settled hcontract henabled hexec⟩
  exact Config.run_inv hstep (fun hw => hw.drop) body_obeys (fun _ => rfl) (obeys_init _)
    (kept_init placements counter) (meets_true _ _ _ _)

theorem idsKept_run (before after : Choices) :
    IdsKept (reached c hostOrganization placements counter before).world
    (reached c hostOrganization placements counter (before ++ after)).world := by
  set start := reached c hostOrganization placements counter before with hstart
  have hrun : reached c hostOrganization placements counter (before ++ after) =
      start.run (machine hostOrganization) (body c) after := Config.run_append _ _ _ _ _
  intro row hrow hpresent hids
  have hstep : ∀ {i : ℕ} {e : Bool} {o : Op} {w : World Op Ans IdStore} {ans : Ans o}
    {s' : IdStore},
      (∃ since, AccountKept start.world.log row w since) → True → Contract c (own i w.log) o →
        (machine hostOrganization).exec i e o w.state = some (ans, s') →
          ∃ since, AccountKept start.world.log row (w.push i o ans s') since :=
    fun ⟨_, h⟩ _ hcontract hexec => ⟨_, h.push hpresent hids hcontract (exec_of_machine hexec).2⟩
  obtain ⟨since, h⟩ := (Config.run_inv hstep (fun ⟨since, h⟩ => ⟨since, h.grew, h.account,
    h.seen⟩) body_obeys
    (fun _ => rfl) (kept_reached c hostOrganization placements counter before).1
    ⟨[], (append_nil _).symm, fun _ => ⟨row, hrow, .refl row⟩,
      nofun⟩ (meets_true _ _ start after)).2
  rw [hrun]
  exact ⟨since, h.grew, h.account⟩

/-- What the writers of placements promise after a run. -/
structure KeepsIds (choices : Choices) : Prop where
  /-- No report, refusal or deploy changes the ids of an account, and no allocation that reads its
  placement later. -/
  account : ∀ before after, choices = before ++ after →
    IdsKept (reached c hostOrganization placements counter before).world
      (reached c hostOrganization placements counter choices).world
  /-- A number goes to one principal of an organization, and is in the band. -/
  numbered : Numbered hostOrganization (reached c hostOrganization placements counter choices).world
  same : SameAnswers (reached c hostOrganization placements counter choices).world.log

/-- **An account keeps its ids**, in every order of the statements of its writers. -/
theorem keepsIds (choices : Choices) : KeepsIds c hostOrganization placements counter choices := by
  have hw := (kept_reached c hostOrganization placements counter choices).2
  refine ⟨fun before after heq => ?_, hw.numbered, hw.sameAnswers⟩
  rw [heq]
  exact idsKept_run c hostOrganization placements counter before after

end

/-! ## Where the promises end -/

/-- A placement of the principal, without a home. -/
def placed (principalId serverId : String) (state : PlacementState)
    (id : Option ℤ) : PlacementRow :=
  { principalId, serverId, state, uid := id, gid := id, home := [] }

/-- One host organization, whose counter is new. -/
def runOn (placements : Placements) (choices : Choices) : Config Op Ans IdStore :=
  reached .codePoint (fun _ => some "org") placements (fun _ => hostOrgIdStart) choices

/-- All statements of a call, one after the other. -/
def alone (i : ℕ) (x : Call) (statements : ℕ) : Choices :=
    .call x :: List.replicate statements (.step i false)

/-- A report of one account, without its home. -/
def report (serverId principalId : String) (id : ℤ) : Call :=
  .recordReportedPrincipalIds serverId [⟨principalId, id, id, none⟩]

/-- An account on each of two servers. -/
def twoAccounts : Placements :=
    ⟨[placed "p" "s1" .present none, placed "p" "s2" .present none], by decide⟩

/-- The hosts report different ids, and the allocations answer these. -/
def differentReports : Choices :=
  alone 0 (report "s1" "p" 20001) 3 ++ alone 1 (report "s2" "p" 20002) 3 ++
    alone 2 (.allocateForPrincipal "s1" "p" []) 3 ++ alone 3 (.allocateForPrincipal "s2" "p" []) 3

/-- A deploy is queued. -/
def queuedDeploy : Placements := ⟨[placed "p" "s1" .pending none], by decide⟩

/-- An allocation takes a number; before it records it, the deploy is through, and the host has
reported. -/
def overtakenAllocation : Choices :=
  alone 0 (.allocateForPrincipal "s1" "p" []) 5 ++ alone 1 (.markPlacementsPresent "s1" ["p"]) 1 ++
    alone 2 (report "s1" "p" 20001) 3

theorem ids_change_and_differ :
    (¬ ∀ c hostOrganization placements counter before after,
      ∀ row ∈ (reached c hostOrganization placements counter before).world.state.placements.rows,
        row.state = .present → row.ids.isSome = true →
          ∃ row' ∈ (reached c hostOrganization placements counter
          (before ++ after)).world.state.placements.rows,
            SameAccount row row') ∧
    ¬ ∀ c hostOrganization placements counter choices before after i j principalId serverId
    serverId' rows rows' r r',
      i ≠ j → serverId ≠ serverId' →
      (reached c hostOrganization placements counter choices).world.log =
        before ++ ⟨j, .loadPlacementIdRows principalId, rows'⟩ :: after →
        ReadSince i principalId rows before →
          (∃ ev ∈ (reached c hostOrganization placements counter choices).world.log,
            Returns i principalId serverId r ev) →
          (∃ ev ∈ (reached c hostOrganization placements counter choices).world.log,
            Returns j principalId serverId' r' ev) → r = r' := by
  constructor
  · intro h
    obtain ⟨row', hrow', hsame⟩ :=
      h .codePoint (fun _ => some "org") queuedDeploy (fun _ => hostOrgIdStart)
      overtakenAllocation [.step 0 false]
        (placed "p" "s1" .present (some 20001)) mem_cons_self rfl rfl
    obtain rfl := mem_singleton.1
      (show row' ∈ [placed "p" "s1" .present (some 30001)] from hrow')
    cases hsame.uid
  · intro h
    let log := (runOn twoAccounts differentReports).world.log
    let rows : List PlacementIdRow :=
      [⟨"s1", .present, some 20001, some 20001⟩, ⟨"s2", .present, some 20002, some 20002⟩]
    have hsince : ReadSince 2 "p" rows (log.take 10) :=
      ⟨log.take 7, _, [⟨2, .endTransaction "p" "s1" (some ⟨20001, 20001⟩), ()⟩,
        ⟨3, .lockPrincipal "p", ()⟩], rfl, rfl,
        by simp [Disturbs]⟩
    have hfirst : ⟨2, .endTransaction "p" "s1" (some ⟨20001, 20001⟩), ()⟩ ∈ log :=
      mem_of_getElem? (i := 8) rfl
    have hsecond : ⟨3, .endTransaction "p" "s2" (some ⟨20002, 20002⟩), ()⟩ ∈ log :=
      mem_of_getElem? (i := 11) rfl
    have heq := h .codePoint (fun _ => some "org") twoAccounts (fun _ => hostOrgIdStart)
      differentReports (log.take 10)
      (log.drop 11) 2 3 "p" "s1" "s2" rows rows (some ⟨20001, 20001⟩) (some ⟨20002, 20002⟩)
        (by decide) (by decide) rfl
      hsince ⟨_, hfirst, .inl rfl⟩ ⟨_, hsecond, .inl rfl⟩
    cases heq

/-- An account whose ids are not recorded is sent none, and another server gets those that are. -/
example :
    let placements : Placements :=
      ⟨[placed "p" "s1" .present none, placed "p" "s3" .pending (some 30001)], by decide⟩
    let first := alone 0 (.allocateForPrincipal "s1" "p" []) 3
    (runOn placements first).world.log.getLast? = some ⟨0, .endTransaction "p" "s1" none, ()⟩ ∧
      (runOn placements (first ++ alone 1 (.allocateForPrincipal "s2" "p" []) 3)).world.log.getLast?
        =
        some ⟨1, .endTransaction "p" "s2" (some ⟨30001, 30001⟩), ()⟩ := ⟨rfl, rfl⟩

/-- A report of another principal lets the pick go, and the next allocation takes a new number. -/
example :
    let placements : Placements :=
      ⟨[placed "p" "s1" .pending (some 30001), placed "q" "s1" .present none], by decide⟩
    let first := alone 0 (.allocateForPrincipal "s1" "p" []) 3
    (runOn placements first).world.log.getLast? = some ⟨0,
      .endTransaction "p" "s1" (some ⟨30001, 30001⟩), ()⟩ ∧
      (runOn placements (first ++ alone 1 (report "s1" "q" 30001) 3 ++
        alone 2 (.allocateForPrincipal "s2" "p" []) 9)).world.log.getLast? =
          some ⟨2, .upsertIds "p" "s2" 30002 [], true⟩ := ⟨rfl, rfl⟩

end TurboPanel.Principals
