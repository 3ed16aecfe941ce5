import TurboPanel.Principals.Ids

/-!
# What the writers of placements do

The decision of an allocation is read off the rows: where the recorded ids agree it is what they are
(`decide_of_agreed`), and a number is taken for a principal of which nothing is known, and only then
(`decide_eq_allocate_iff`). `Contract` is what the writers do, statement by statement. A statement
then promotes the rows of a principal, disturbs them, or records ids (`idRows_cases`); `locks_cases`
and `counts_of_exec` say the same of the locks and the counters.
-/

namespace TurboPanel.Principals

open Interleaving Js List

variable {c : Collation} {hostOrganization : String → Option String}

/-! ## The decision -/

/-- The ids that are recorded are these; or none are, and an account exists. -/
structure Agreed (rows : List PlacementIdRow) (r : Option PrincipalIds) : Prop where
  ids : ∀ row ∈ rows, ∀ ids ∈ row.ids, r = some ids
  known : ∃ row ∈ rows, row.ids = r ∧ (r = none → row.state = .present ∨ row.state = .retiring)

/-- Nothing is known of the principal. -/
structure Blank (rows : List PlacementIdRow) : Prop where
  ids : ∀ row ∈ rows, row.ids = none
  state : ∀ row ∈ rows, row.state ≠ .present ∧ row.state ≠ .retiring

/-- The server has no account whose ids are not recorded. -/
def Reported (rows : List PlacementIdRow) (serverId : String) : Prop :=
  ∀ row ∈ rows.find? (·.serverId == serverId), row.unreported = false

/-- The decision by which an allocation answers this, and records nothing. -/
def decisionOf : Option PrincipalIds → PrincipalIdDecision
  | some ids => .use ids
  | none => .none

/-- The row that the decision takes the ids of. -/
def known (c : Collation) (rows : List PlacementIdRow) : Option PlacementIdRow :=
  ((rows.filter (·.ids.isSome)).insertionSort fun a b => compareKnown c a b ≠ .gt).head?

variable {rows : List PlacementIdRow}

theorem mem_of_known {row : PlacementIdRow} (h : known c rows = some row) :
    row ∈ rows ∧ row.ids.isSome = true :=
  mem_filter.1 ((perm_insertionSort _ _).mem_iff.1 (mem_of_head? h))

theorem known_eq_none : known c rows = none ↔ ∀ row ∈ rows, row.ids = none := by
  rw [known, head?_eq_none_iff, ← length_eq_zero_iff, (perm_insertionSort _ _).length_eq,
    length_eq_zero_iff, filter_eq_nil_iff]
  simp

theorem decide_eq (rows : List PlacementIdRow) (serverId : String) : decidePrincipalIds c rows serverId =
    match (rows.find? (·.serverId == serverId)).bind PlacementIdRow.ids with
    | some ids => .use ids
    | none =>
      if (rows.find? (·.serverId == serverId)).map (·.state) = some .present then .none
      else
        match (known c rows).bind PlacementIdRow.ids with
        | some ids => .use ids
        | none =>
          if rows.any fun row => row.state = .present || row.state = .retiring then .none else .allocate := rfl

variable {r : Option PrincipalIds} {serverId : String}

theorem decide_of_agreed (h : Agreed rows r) (hreported : Reported rows serverId) :
    decidePrincipalIds c rows serverId = decisionOf r := by
  rw [decide_eq]
  cases hhere : (rows.find? (·.serverId == serverId)).bind PlacementIdRow.ids with
  | some ids =>
    obtain ⟨row, hrow, hids⟩ := Option.bind_eq_some_iff.1 hhere
    rw [h.ids row (mem_of_find?_eq_some hrow) ids hids, decisionOf]
  | none =>
    have hstate : (rows.find? (·.serverId == serverId)).map (·.state) ≠ some .present := by
      intro hpresent
      obtain ⟨row, hrow, hpresent⟩ := Option.map_eq_some_iff.1 hpresent
      have hunreported := hreported row hrow
      rw [hrow, Option.bind_some] at hhere
      rw [PlacementIdRow.unreported, hpresent, hhere] at hunreported
      cases hunreported
    simp only [hstate, if_false]
    obtain ⟨row, hrow, hids, hexists⟩ := h.known
    cases hknown : known c rows with
    | some other =>
      obtain ⟨hother, hsome⟩ := mem_of_known hknown
      obtain ⟨ids, hotherIds⟩ := Option.isSome_iff_exists.1 hsome
      simp only [h.ids other hother ids hotherIds, Option.bind_some, hotherIds, decisionOf]
    | none =>
      obtain rfl : none = r := (known_eq_none.1 hknown row hrow).symm.trans hids
      have hany : (rows.any fun row => row.state = .present || row.state = .retiring) = true :=
        any_eq_true.2 ⟨row, hrow, by simpa using hexists rfl⟩
      simp only [Option.bind_none, hany, if_true, decisionOf]

theorem decide_eq_allocate_iff : decidePrincipalIds c rows serverId = .allocate ↔ Blank rows := by
  constructor
  · intro h
    rw [decide_eq] at h
    split at h
    · cases h
    · split at h
      · cases h
      · split at h
        · cases h
        · rename_i hnone
          split at h
          · cases h
          · rename_i hany
            have hids : ∀ row ∈ rows, row.ids = none := by
              rw [← known_eq_none (c := c)]
              cases hknown : known c rows with
              | none => rfl
              | some row =>
                rw [hknown, Option.bind_some] at hnone
                have := (mem_of_known hknown).2
                rw [hnone] at this
                cases this
            refine ⟨hids, fun row hrow => ?_⟩
            have hrowState := mt any_eq_true.2 hany
            simp only [not_exists, not_and, Bool.or_eq_true, decide_eq_true_eq, not_or] at hrowState
            exact hrowState row hrow
  · intro h
    have hhere : (rows.find? (·.serverId == serverId)).bind PlacementIdRow.ids = none := by
      cases hfind : rows.find? (·.serverId == serverId) with
      | none => rfl
      | some row => exact h.ids row (mem_of_find?_eq_some hfind)
    have hstate : (rows.find? (·.serverId == serverId)).map (·.state) ≠ some .present := by
      intro hpresent
      obtain ⟨row, hrow, hpresent⟩ := Option.map_eq_some_iff.1 hpresent
      exact (h.state row (mem_of_find?_eq_some hrow)).1 hpresent
    have hany : (rows.any fun row => row.state = .present || row.state = .retiring) = false := by
      rw [any_eq_false]
      intro row hrow
      simpa using h.state row hrow
    simp only [decide_eq, hhere, hstate, if_false, known_eq_none.2 h.ids, Option.bind_none, hany, Bool.false_eq_true]

theorem Agreed.not_allocate (h : Agreed rows r) : decidePrincipalIds c rows serverId ≠ .allocate := by
  intro hallocate
  have hblank := decide_eq_allocate_iff.1 hallocate
  obtain ⟨row, hrow, hids, hexists⟩ := h.known
  have hstate := hblank.state row hrow
  exact (hexists (hids.symm.trans (hblank.ids row hrow))).elim hstate.1 hstate.2

/-! ## What the writers do -/

/-- The rows that a transaction reads right after it has the lock decide what it does; it records a
number of the band that it took. -/
def Contract (c : Collation) (h : Trace Op Ans) : Op → Prop
  | .lockPrincipal _ => h = []
  | .loadPlacementIdRows principalId => h = [⟨.lockPrincipal principalId, ()⟩]
  | .upsertIds principalId serverId id _ => (hostOrgIdStart ≤ id ∧ id ≤ principalIdBandMax) ∧
    ⟨.takeNumber principalId serverId, some id⟩ ∈ h ∧
      ∃ rows, ⟨.loadPlacementIdRows principalId, rows⟩ ∈ h ∧ decidePrincipalIds c rows serverId = .allocate
  | .endTransaction principalId serverId ids =>
    ∃ rows, ⟨.loadPlacementIdRows principalId, rows⟩ ∈ h ∧ decidePrincipalIds c rows serverId = decisionOf ids
  | _ => True

/-- The statement is none of those that the contract restricts. -/
def Op.plain : Op → Prop
  | .lockPrincipal _ | .loadPlacementIdRows _ | .upsertIds _ _ _ _ | .endTransaction _ _ _ => False
  | _ => True

theorem contract_of_plain {h : Trace Op Ans} {o : Op} (ho : o.plain) : Contract c h o := by
  cases o with
  | lockPrincipal _ => exact ho.elim
  | loadPlacementIdRows _ => exact ho.elim
  | upsertIds _ _ _ _ => exact ho.elim
  | endTransaction _ _ _ => exact ho.elim
  | _ => trivial

/-- No condition is put on the answers. -/
abbrev AnyAns (o : Op) (_ : Ans o) : Prop := o = o

variable {principalId : String}

theorem takeFreshId_sat {ev : (o : Op) × Ans o} (attempts : ℕ) {h : Trace Op Ans}
    (hev : ev ∈ h) : (takeFreshId principalId serverId attempts).Sat AnyAns (Contract c) (fun h' fresh => ev ∈ h' ∧
      ∀ id ∈ fresh, (hostOrgIdStart ≤ id ∧ id ≤ principalIdBandMax) ∧
        ⟨.takeNumber principalId serverId, some id⟩ ∈ h') h := by
  induction attempts generalizing h with
  | zero => exact ⟨hev, fun _ hid => by cases hid⟩
  | succ attempts ih =>
    rw [takeFreshId]
    refine ⟨trivial, fun taken _ => ?_⟩
    cases taken with
    | none => exact ⟨mem_append_left _ hev, fun _ hid => by cases hid⟩
    | some id =>
      change Prog.Sat _ _ _ (if id < hostOrgIdStart ∨ id > principalIdBandMax then _ else _) _
      split
      · exact ⟨mem_append_left _ hev, fun _ hid => by cases hid⟩
      · rename_i hband
        have hmem : ⟨.takeNumber principalId serverId, some id⟩ ∈ h ++ [⟨.takeNumber principalId serverId, some id⟩] :=
          mem_append_right _ mem_cons_self
        refine ⟨trivial, fun inUse _ => ?_⟩
        cases inUse with
        | true => exact ih (mem_append_left _ (mem_append_left _ hev))
        | false =>
          refine ⟨trivial, fun pinned _ => ?_⟩
          have hlater : ∀ {x : (o : Op) × Ans o}, x ∈ h ++ [⟨.takeNumber principalId serverId, some id⟩] →
              x ∈ h ++ [⟨.takeNumber principalId serverId, some id⟩] ++
                [⟨.findTaken principalId serverId id, false⟩] ++ [⟨.findPinned principalId id, pinned⟩] :=
            fun hx => mem_append_left _ (mem_append_left _ hx)
          cases pinned with
          | true => exact ih (hlater (mem_append_left _ hev))
          | false =>
            refine ⟨hlater (mem_append_left _ hev), fun id' hid' => ?_⟩
            cases hid'
            rw [not_or, not_lt, gt_iff_lt, not_lt] at hband
            exact ⟨hband, hlater hmem⟩

theorem allocateForPrincipal_sat (serverId principalId : String) (home : Text) :
    (allocateForPrincipal c serverId principalId home).Sat AnyAns (Contract c) (fun _ _ => True) [] := by
  refine ⟨rfl, fun _ _ => ⟨rfl, fun rows _ => ?_⟩⟩
  have hload : (⟨.loadPlacementIdRows principalId, rows⟩ : (o : Op) × Ans o) ∈
      [] ++ [⟨.lockPrincipal principalId, ()⟩] ++ [⟨.loadPlacementIdRows principalId, rows⟩] :=
    mem_append_right _ mem_cons_self
  dsimp only [Prog.bind]
  cases hdecide : decidePrincipalIds c rows serverId with
  | use ids => exact ⟨⟨rows, hload, hdecide⟩, fun _ _ => trivial⟩
  | none => exact ⟨⟨rows, hload, hdecide⟩, fun _ _ => trivial⟩
  | allocate =>
    refine (takeFreshId_sat _ hload).bind fun h' fresh hfresh => ?_
    cases fresh with
    | none => exact ⟨trivial, fun _ _ => trivial⟩
    | some id =>
      obtain ⟨hband, htaken⟩ := hfresh.2 id rfl
      exact ⟨⟨hband, htaken, rows, hfresh.1, hdecide⟩, fun _ _ => trivial⟩

theorem recordReport_plain (serverId : String) (report : ReportedPrincipalId) :
    (recordReport serverId report).Only Op.plain fun _ => True := by
  have hrow : ∀ row, (recordIds serverId report row).Only Op.plain fun _ => True := by
    intro row
    cases row with
    | none => trivial
    | some row =>
      rw [recordIds]
      split
      · trivial
      · split
        · exact ⟨trivial, fun _ => ⟨trivial, fun _ => trivial⟩⟩
        · trivial
  unfold recordReport
  split
  · trivial
  · split
    · exact ⟨trivial, hrow⟩
    · exact ⟨trivial, fun _ => ⟨trivial, hrow⟩⟩

theorem body_obeys (x : Call) : (body c x).Sat AnyAns (Contract c) (fun _ _ => True) [] := by
  have hplain : ∀ {p : Proc Unit}, p.Only Op.plain (fun _ => True) → p.Sat AnyAns (Contract c) (fun _ _ => True) [] :=
    fun hp => (hp.sat (P := Contract c) (K := fun _ => True) (fun _ _ ho _ => contract_of_plain ho)
      (fun _ _ _ _ _ => trivial) trivial).mono fun _ _ _ => trivial
  cases x with
  | allocateForPrincipal serverId principalId home => exact allocateForPrincipal_sat serverId principalId home
  | recordReportedPrincipalIds serverId reports =>
    exact hplain (Prog.only_foldEach trivial fun _ report _ _ => recordReport_plain serverId report)
  | releaseRefusedPrincipalIds principalId id =>
    refine hplain ⟨trivial, fun states => ?_⟩
    change Prog.Only _ _ (if PlacementState.present ∈ states then pure () else ask
        (.releaseIds principalId id) : Proc Unit)
    split
    · trivial
    · exact ⟨trivial, fun _ => trivial⟩
  | markPlacementsPresent serverId principalIds => exact ⟨trivial, fun _ _ => trivial⟩

/-! ## What a statement does to the rows of a principal -/

/-- A report or a refusal that concerns the ids of the principal: those for itself, and a report for
another one that lets a pick of it go. -/
def Disturbs (principalId : String) : Event Op Ans → Prop
  | ⟨_, .fillIds _ principalId' _ _, _⟩ => principalId' = principalId
  | ⟨_, .letGo _ _ _, losers⟩ => principalId ∈ losers
  | ⟨_, .releaseIds principalId' _, _⟩ => principalId' = principalId
  | _ => False

/-- The ids of a row stay, and so does its state, or the account is present. -/
structure Promoted (row row' : PlacementIdRow) : Prop where
  ids : row'.ids = row.ids
  state : row'.state = row.state ∨ row'.state = .present

/-- The rows are the earlier ones, of which some are promoted. -/
structure Follows (rows rows' : List PlacementIdRow) : Prop where
  back : ∀ row' ∈ rows', ∃ row ∈ rows, Promoted row row'
  forth : ∀ row ∈ rows, ∃ row' ∈ rows', Promoted row row'

theorem Promoted.refl (row : PlacementIdRow) : Promoted row row := ⟨rfl, .inl rfl⟩

theorem Follows.refl (rows : List PlacementIdRow) : Follows rows rows :=
  ⟨fun row hrow => ⟨row, hrow, .refl row⟩, fun row hrow => ⟨row, hrow, .refl row⟩⟩

theorem Follows.agreed {rows' : List PlacementIdRow} (h : Follows rows rows')
    (hrows : Agreed rows r) : Agreed rows' r where
  ids row' hrow' ids hids := by
    obtain ⟨row, hrow, hpromoted⟩ := h.back row' hrow'
    exact hrows.ids row hrow ids (hpromoted.ids.symm.trans hids)
  known := by
    obtain ⟨row, hrow, hids, hexists⟩ := hrows.known
    obtain ⟨row', hrow', hpromoted⟩ := h.forth row hrow
    refine ⟨row', hrow', hpromoted.ids.trans hids, fun hr => ?_⟩
    obtain hstate | hstate := hpromoted.state
    · rw [hstate]
      exact hexists hr
    · exact .inl hstate

theorem Follows.without_ids {rows' : List PlacementIdRow} (h : Follows rows rows')
    (hrows : ∀ row ∈ rows, row.ids = none) : ∀ row' ∈ rows', row'.ids = none := by
  intro row' hrow'
  obtain ⟨row, hrow, hpromoted⟩ := h.back row' hrow'
  exact hpromoted.ids.trans (hrows row hrow)

variable {t : Placements}

theorem mem_idRows {row : PlacementIdRow} : row ∈ t.idRows principalId ↔
    ∃ full ∈ t.rows, full.principalId = principalId ∧ full.toPlacementIdRow = row := by
  simp only [Placements.idRows, mem_map, mem_filter, decide_eq_true_eq, and_assoc]

theorem rows_of_write {rows : List PlacementRow} (h : Placements.write rows = some t) :
    t.rows = rows := by
  unfold Placements.write at h
  split at h
  · exact congrArg Placements.rows (Option.some.inj h).symm
  · cases h

theorem follows_of_map {t' : Placements} {f : PlacementRow → PlacementRow} (h : t'.rows = t.rows.map f)
    (hprincipal : ∀ row, (f row).principalId = row.principalId)
    (hf : ∀ row ∈ t.rows, row.principalId = principalId → Promoted row.toPlacementIdRow (f row).toPlacementIdRow) :
    Follows (t.idRows principalId) (t'.idRows principalId) := by
  constructor
  · intro row' hrow'
    obtain ⟨full', hfull', hof, rfl⟩ := mem_idRows.1 hrow'
    rw [h] at hfull'
    obtain ⟨full, hfull, rfl⟩ := mem_map.1 hfull'
    rw [hprincipal] at hof
    exact ⟨_, mem_idRows.2 ⟨full, hfull, hof, rfl⟩, hf full hfull hof⟩
  · intro row hrow
    obtain ⟨full, hfull, hof, rfl⟩ := mem_idRows.1 hrow
    refine ⟨_, mem_idRows.2 ⟨f full, ?_, (hprincipal full).trans hof, rfl⟩, hf full hfull hof⟩
    rw [h]
    exact mem_map_of_mem hfull

section

variable {i : ℕ} {pinned : Bool} {o : Op} {s s' : IdStore} {ans : Ans o} {principalId : String}

theorem follows_after (hdisturbs : ∀ row ∈ s.placements.rows, row.principalId = principalId →
      Promoted row.toPlacementIdRow (Placements.onRow o row).toPlacementIdRow) :
    Follows (s.placements.idRows principalId) ((s.placements.after o).idRows principalId) :=
  follows_of_map rfl (fun row => (Placements.onRow_within o row).principalId) hdisturbs

/-- **What a statement does to the rows of a principal**: they are promoted, unless it disturbs
them, or records ids. -/
theorem idRows_cases (hexec : exec hostOrganization i pinned o s = (ans, s')) (principalId : String) :
    Follows (s.placements.idRows principalId) (s'.placements.idRows principalId) ∨
      Disturbs principalId ⟨i, o, ans⟩ ∨
      ∃ serverId id home placements, (⟨i, o, ans⟩ : Event Op Ans) = ⟨i, .upsertIds principalId serverId id home, true⟩ ∧
        s.placements.upsertIds principalId serverId id home = some placements ∧ s'.placements = placements := by
  have hsame : s'.placements = s.placements → Follows (s.placements.idRows principalId)
      (s'.placements.idRows principalId) := fun h => h ▸ Follows.refl _
  cases o with
  | setHome serverId principalId' home =>
    cases hexec
    refine .inl (follows_after fun row _ _ => ?_)
    rw [Placements.onRow]
    split
    · exact ⟨rfl, .inl rfl⟩
    · exact .refl _
  | letGo serverId principalId' uid =>
    cases hexec
    by_cases hlost : principalId ∈ (s.placements.rows.filter (·.inTheWay serverId principalId' uid)).map (·.principalId)
    · exact .inr (.inl hlost)
    · refine .inl (follows_after fun row hrow hof => ?_)
      rw [Placements.onRow, if_neg]
      · exact .refl _
      · exact fun hway => hlost (mem_map.2 ⟨row, mem_filter.2 ⟨hrow, hway⟩, hof⟩)
  | fillIds serverId principalId' uid gid =>
    by_cases hself : principalId' = principalId
    · exact .inr (.inl hself)
    · left
      rw [exec] at hexec
      split at hexec
      · rename_i placements hfill
        cases hexec
        refine follows_of_map (rows_of_write hfill) (fun row => ?_) fun row _ hof => ?_
        · split <;> rfl
        · rw [if_neg]
          · exact .refl _
          · rw [PlacementRow.isOf, hof]
            simp [Ne.symm hself]
      · exact hsame (congrArg IdStore.placements (Prod.mk.inj hexec).2.symm)
  | releaseIds principalId' id =>
    by_cases hself : principalId' = principalId
    · exact .inr (.inl hself)
    · cases hexec
      refine .inl (follows_after fun row _ hof => ?_)
      rw [Placements.onRow, if_neg]
      · exact .refl _
      · rw [PlacementRow.refused, hof]
        simp [Ne.symm hself]
  | markPresent serverId principalIds =>
    cases hexec
    refine .inl (follows_after fun row _ _ => ?_)
    rw [Placements.onRow]
    split
    · exact ⟨rfl, .inr rfl⟩
    · exact .refl _
  | upsertIds principalId' serverId id home =>
    rw [exec] at hexec
    split at hexec
    · rename_i placements hupsert
      cases hexec
      by_cases hself : principalId' = principalId
      · subst hself
        exact .inr (.inr ⟨serverId, id, home, placements, rfl, hupsert, rfl⟩)
      · left
        unfold Placements.upsertIds at hupsert
        split at hupsert
        · refine follows_of_map (rows_of_write hupsert) (fun row => ?_) fun row _ hof => ?_
          · split <;> rfl
          · rw [if_neg]
            · exact .refl _
            · rw [PlacementRow.isOf, hof]
              simp [Ne.symm hself]
        · change Follows _ (placements.idRows principalId)
          rw [Placements.idRows, Placements.idRows, rows_of_write hupsert, filter_append,
            filter_cons_of_neg (by simpa using hself), filter_nil, append_nil]
          exact .refl _
    · cases hexec
      exact .inl (.refl _)
  | takeNumber principalId' serverId =>
    left
    apply hsame
    obtain ⟨-, rfl⟩ := Prod.mk.inj hexec
    split
    · rfl
    · split <;> rfl
  | _ =>
    cases hexec
    exact .inl (.refl _)

theorem rows_of_upsert {t t' : Placements} {serverId : String} {id : ℤ} {home : Text}
    (h : t.upsertIds principalId serverId id home = some t') :
    (∃ row ∈ t'.rows, row.isOf principalId serverId = true ∧ row.ids = some ⟨id, id⟩) ∧
      ∀ row' ∈ t'.rows, row'.ids = some ⟨id, id⟩ ∨ row' ∈ t.rows := by
  unfold Placements.upsertIds at h
  split at h
  · rename_i hany
    obtain ⟨row, hrow, hof⟩ := any_eq_true.1 hany
    rw [rows_of_write h]
    refine ⟨⟨row.withFresh id, mem_map.2 ⟨row, hrow, if_pos hof⟩, hof, rfl⟩, fun row' hrow' => ?_⟩
    obtain ⟨row, hrow, rfl⟩ := mem_map.1 hrow'
    split
    · exact .inl rfl
    · exact .inr hrow
  · rw [rows_of_write h]
    refine ⟨⟨_, mem_append_right _ mem_cons_self, by simp [PlacementRow.isOf], rfl⟩, fun row' hrow' => ?_⟩
    obtain hrow' | hrow' := mem_append.1 hrow'
    · exact .inr hrow'
    · obtain rfl := mem_singleton.1 hrow'
      exact .inl rfl

theorem agreed_of_upsert {t t' : Placements} {serverId : String} {id : ℤ} {home : Text}
    (h : t.upsertIds principalId serverId id home = some t') (hnone : ∀ row ∈ t.idRows principalId, row.ids = none) :
    Agreed (t'.idRows principalId) (some ⟨id, id⟩) := by
  obtain ⟨⟨row, hrow, hof, hids⟩, hrows⟩ := rows_of_upsert h
  rw [PlacementRow.isOf, Bool.and_eq_true, decide_eq_true_eq, decide_eq_true_eq] at hof
  refine ⟨fun row' hrow' ids hids' => ?_, _, mem_idRows.2 ⟨row, hrow, hof.1, rfl⟩, hids, fun hr => by cases hr⟩
  obtain ⟨full, hfull, hof', rfl⟩ := mem_idRows.1 hrow'
  obtain hfresh | hold := hrows full hfull
  · exact hfresh.symm.trans hids'
  · rw [hnone _ (mem_idRows.2 ⟨full, hold, hof', rfl⟩)] at hids'
    cases hids'

/-! ## What a statement does to the locks and the counters -/

/-- The statement ends the transaction. -/
def Op.ends : Op → Bool
  | .upsertIds _ _ _ _ | .endTransaction _ _ _ | .rollBack _ => true
  | _ => false

theorem locks_cases (hexec : exec hostOrganization i pinned o s = (ans, s')) {k : ℕ}
    (hlock : s'.locks principalId = some k) :
    (s.locks principalId = some k ∧ (o.ends = true → k ≠ i)) ∨ (o = .lockPrincipal principalId ∧ i = k) := by
  have hsame : o.ends = false → s'.locks = s.locks → (s.locks principalId = some k ∧ (o.ends = true → k ≠ i)) := by
    intro hends h
    rw [← h]
    exact ⟨hlock, fun h => by rw [hends] at h; cases h⟩
  have hdropped : ∀ s : IdStore, (s.dropped i).locks principalId = some k → s.locks principalId = some k ∧ k ≠ i := by
    intro s h
    obtain ⟨hlock, hne⟩ := Option.filter_eq_some_iff.1 h
    exact ⟨hlock, by simpa using hne⟩
  cases o with
  | lockPrincipal principalId' =>
    cases hexec
    change Function.update s.locks principalId' (some i) principalId = some k at hlock
    by_cases hself : principalId = principalId'
    · subst hself
      rw [Function.update_self] at hlock
      exact .inr ⟨rfl, Option.some.inj hlock⟩
    · rw [Function.update_of_ne hself] at hlock
      exact .inl ⟨hlock, fun h => by cases h⟩
  | upsertIds principalId' serverId id home =>
    left
    rw [exec] at hexec
    split at hexec
    · cases hexec
      exact (hdropped _ hlock).imp_right fun h _ => h
    · cases hexec
      exact (hdropped _ hlock).imp_right fun h _ => h
  | endTransaction principalId' serverId ids =>
    cases hexec
    exact .inl ((hdropped _ hlock).imp_right fun h _ => h)
  | rollBack principalId' =>
    cases hexec
    exact .inl ((hdropped _ hlock).imp_right fun h _ => h)
  | takeNumber principalId' serverId =>
    left
    refine hsame rfl ?_
    obtain ⟨-, rfl⟩ := Prod.mk.inj hexec
    split
    · rfl
    · split <;> rfl
  | fillIds serverId principalId' uid gid =>
    left
    refine hsame rfl ?_
    rw [exec] at hexec
    split at hexec <;> (obtain ⟨-, rfl⟩ := Prod.mk.inj hexec; rfl)
  | _ =>
    cases hexec
    exact .inl (hsame rfl rfl)

/-- What a statement does to the counter of an organization, and to what a transaction has counted
of it. -/
inductive Counts (hostOrganization : String → Option String) (organization : String) (s s' : IdStore) :
    Event Op Ans → Prop
  | same {ev : Event Op Ans} (hends : ev.op.ends = false) (hcounter : s'.counter organization = s.counter organization)
      (hcounting : s'.counting organization = s.counting organization) : Counts hostOrganization organization s s' ev
  | took {i : ℕ} {principalId serverId : String} (hhost : hostOrganization serverId = some organization)
      (hcounter : s'.counter organization = s.counter organization)
      (hcounting : s'.counting organization = some (i, s.next organization + 1)) :
      Counts hostOrganization organization s s' ⟨i, .takeNumber principalId serverId, some (s.next organization)⟩
  | ended {ev : Event Op Ans} (hends : ev.op.ends = true)
      (hcounter : s'.counter organization = s.counter organization ∨
        s.counting organization = some (ev.thread, s'.counter organization))
      (hcounting : s'.counting organization = (s.counting organization).filter (·.1 ≠ ev.thread)) :
      Counts hostOrganization organization s s' ev

theorem counter_committed (s : IdStore) (i : ℕ) (organization : String) :
    (s.committed i).counter organization = s.counter organization ∨
      s.counting organization = some (i, (s.committed i).counter organization) := by
  simp only [IdStore.committed, IdStore.dropped]
  rcases s.counting organization with _ | ⟨k, next⟩
  · exact .inl rfl
  · by_cases hk : k = i
    · subst hk
      simp
    · simp [hk]

theorem counts_of_exec (hexec : exec hostOrganization i pinned o s = (ans, s')) (organization : String) :
    Counts hostOrganization organization s s' ⟨i, o, ans⟩ := by
  cases o with
  | takeNumber principalId' serverId =>
    change s.takeNumber hostOrganization i serverId = (ans, s') at hexec
    unfold IdStore.takeNumber at hexec
    split at hexec
    · cases hexec
      exact .same rfl rfl rfl
    · rename_i organization' hhost
      split at hexec
      · cases hexec
        by_cases hself : organization = organization'
        · subst hself
          exact .took hhost rfl (Function.update_self _ _ _)
        · exact .same rfl rfl (Function.update_of_ne hself _ _)
      · cases hexec
        exact .same rfl rfl rfl
  | upsertIds principalId' serverId id home =>
    rw [exec] at hexec
    split at hexec
    · rename_i placements _
      cases hexec
      exact .ended rfl (counter_committed { s with placements } i organization) rfl
    · cases hexec
      exact .ended rfl (.inl rfl) rfl
  | endTransaction principalId' serverId ids =>
    cases hexec
    exact .ended rfl (counter_committed s i organization) rfl
  | rollBack principalId' =>
    cases hexec
    exact .ended rfl (.inl rfl) rfl
  | fillIds serverId principalId' uid gid =>
    rw [exec] at hexec
    split at hexec <;> (obtain ⟨rfl, rfl⟩ := Prod.mk.inj hexec; exact .same rfl rfl rfl)
  | _ =>
    cases hexec
    exact .same rfl rfl rfl

end

end TurboPanel.Principals
