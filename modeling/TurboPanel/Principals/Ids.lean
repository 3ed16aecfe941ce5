import TurboPanel.Data.Interleaving
import TurboPanel.Js.Map
import TurboPanel.Js.Text

/-!
# The ids of a principal

`principal-ids.ts`: one uid and gid for each principal, the same on every server. Four kinds of
writers share the placement rows and the counters of the organizations: the allocation, which is one
transaction under a lock of its principal, the report of a host, the refusal of an id, and the
deploy that marks a placement present. Every statement is atomic. The last statement of a
transaction is taken together with its end; until then nobody else sees what it counted. A row is
named by its principal and its server, which are unique together.
-/

namespace TurboPanel.Principals

open Interleaving Js

def principalIdBandMax : ℤ := 60000

def hostOrgIdStart : ℤ := 30001

def maxSequenceSkips : ℕ := 50

/-! ## The rows -/

inductive PlacementState where
  | pending
  | present
  | retiring
  | absent
  deriving DecidableEq

structure PrincipalIds where
  uid : ℤ
  gid : ℤ

structure PlacementIdRow where
  serverId : String
  state : PlacementState
  uid : Option ℤ
  gid : Option ℤ

structure PlacementRow extends PlacementIdRow where
  principalId : String
  home : Text

/-- The ids, where both are recorded. -/
def PlacementIdRow.ids (row : PlacementIdRow) : Option PrincipalIds :=
  match row.uid, row.gid with
  | some uid, some gid => some ⟨uid, gid⟩
  | _, _ => none

/-- The account is on the server, and its ids are not recorded. -/
def PlacementIdRow.unreported (row : PlacementIdRow) : Bool := row.state = .present && row.ids.isNone

/-- Two rows that the unique indexes allow together: on the principal and the server, and on the
server and the uid. -/
def PlacementRow.Apart (a b : PlacementRow) : Prop :=
  ¬(a.principalId = b.principalId ∧ a.serverId = b.serverId) ∧
    ∀ uid ∈ a.uid, a.serverId = b.serverId → b.uid ≠ some uid

instance : DecidableRel PlacementRow.Apart := fun a b =>
  inferInstanceAs (Decidable (_ ∧ ∀ uid ∈ a.uid, a.serverId = b.serverId → b.uid ≠ some uid))

structure Placements where
  rows : List PlacementRow
  apart : rows.Pairwise PlacementRow.Apart

namespace Placements

/-- A statement that the unique indexes may refuse. -/
def write (rows : List PlacementRow) : Option Placements :=
  if h : rows.Pairwise PlacementRow.Apart then some ⟨rows, h⟩ else none

/-- A row after a statement that the unique indexes cannot refuse: it is the row of the same
placement, and has its uid or none. -/
structure Within (row' row : PlacementRow) : Prop where
  principalId : row'.principalId = row.principalId
  serverId : row'.serverId = row.serverId
  uid : ∀ uid ∈ row'.uid, row.uid = some uid

/-- An update that cannot be refused. -/
def update (t : Placements) (f : PlacementRow → PlacementRow) (hf : ∀ row, Within (f row) row) : Placements where
  rows := t.rows.map f
  apart := by
    refine List.Pairwise.map f (fun a b hab => ⟨?_, fun uid huid hserver => ?_⟩) t.apart
    · rw [(hf a).principalId, (hf a).serverId, (hf b).principalId, (hf b).serverId]
      exact hab.1
    · rw [(hf a).serverId, (hf b).serverId] at hserver
      exact fun hb => hab.2 uid ((hf a).uid uid huid) hserver ((hf b).uid uid hb)

/-- `loadPlacementIdRows`, for one principal. -/
def idRows (t : Placements) (principalId : String) : List PlacementIdRow :=
  (t.rows.filter fun row => row.principalId = principalId).map PlacementRow.toPlacementIdRow

end Placements

/-! ## The decision -/

inductive PrincipalIdDecision where
  | use (ids : PrincipalIds)
  | none
  | allocate

variable (c : Collation)

/-- An account that exists wins, then the lowest server id. -/
def compareKnown (a b : PlacementIdRow) : Ordering :=
  let present := fun row : PlacementIdRow => if row.state = .present then 1 else 0
  (compare (present b) (present a)).then (c.compare a.serverId b.serverId)

def decidePrincipalIds (rows : List PlacementIdRow) (serverId : String) : PrincipalIdDecision :=
  let here := rows.find? (·.serverId == serverId)
  match here.bind PlacementIdRow.ids with
  | some ids => .use ids
  | none =>
    if here.map (·.state) = some .present then .none
    else
      let withIds := rows.filter (·.ids.isSome)
      match (withIds.insertionSort fun a b => compareKnown c a b ≠ .gt).head?.bind PlacementIdRow.ids with
      | some ids => .use ids
      | none =>
        if rows.any fun row => row.state = .present || row.state = .retiring then .none else .allocate

/-! ## The statements -/

/-- The rows, the counters (`next_linux_id`), and who holds what: a transaction that has counted
holds the row of the organization, with the counter as it sees it. -/
structure IdStore where
  placements : Placements
  counter : String → ℤ
  counting : String → Option (ℕ × ℤ)
  locks : String → Option ℕ

/-- The statements. Those of an allocation name its principal, whose lock it holds. -/
inductive Op where
  | lockPrincipal (principalId : String)
  | loadPlacementIdRows (principalId : String)
  | takeNumber (principalId serverId : String)
  | findTaken (principalId serverId : String) (id : ℤ)
  | findPinned (principalId : String) (id : ℤ)
  /-- The upsert of the new ids, and the end of the transaction. -/
  | upsertIds (principalId serverId : String) (id : ℤ) (home : Text)
  /-- The end of a transaction that found what to answer. -/
  | endTransaction (principalId serverId : String) (ids : Option PrincipalIds)
  | rollBack (principalId : String)
  | setHome (serverId principalId : String) (home : Text)
  | findRow (serverId principalId : String)
  /-- The pick of another principal that is in the way of a report; the answer names who loses one.
  -/
  | letGo (serverId principalId : String) (uid : ℤ)
  | fillIds (serverId principalId : String) (uid gid : ℤ)
  | loadStates (principalId : String)
  | releaseIds (principalId : String) (id : ℤ)
  | markPresent (serverId : String) (principalIds : List String)

@[reducible] def Ans : Op → Type
  | .loadPlacementIdRows _ => List PlacementIdRow
  | .takeNumber _ _ => Option ℤ
  | .findTaken _ _ _ | .findPinned _ _ => Bool
  /- Whether the unique indexes allowed it. -/
  | .upsertIds _ _ _ _ | .fillIds _ _ _ _ => Bool
  | .findRow _ _ => Option PlacementIdRow
  | .letGo _ _ _ => List String
  | .loadStates _ => List PlacementState
  | _ => Unit

def PlacementRow.isOf (row : PlacementRow) (principalId serverId : String) : Bool :=
  row.principalId = principalId && row.serverId = serverId

/-- The upsert on a row that is there. -/
def PlacementRow.withFresh (row : PlacementRow) (id : ℤ) : PlacementRow :=
  { row with uid := some id, gid := some id, state := if row.state = .present then .present else .pending }

/-- The pick of another principal, not yet on an account, that is in the way. -/
def PlacementRow.inTheWay (row : PlacementRow) (serverId principalId : String) (uid : ℤ) : Bool :=
  row.serverId = serverId && row.uid = some uid && row.principalId ≠ principalId && row.state ≠ .present

/-- The row may be filled by a report. -/
def PlacementRow.fillable (row : PlacementRow) : Bool :=
  row.state ≠ .present || (row.uid = none && row.gid = none)

/-- The row has only a pick, of the id that was refused. -/
def PlacementRow.refused (row : PlacementRow) (principalId : String) (id : ℤ) : Bool :=
  row.principalId = principalId && row.state ≠ .present && (row.uid = some id || row.gid = some id)

def PlacementRow.withoutIds (row : PlacementRow) : PlacementRow := { row with uid := none, gid := none }

namespace Placements

def upsertIds (t : Placements) (principalId serverId : String) (id : ℤ) (home : Text) : Option Placements :=
  if t.rows.any (·.isOf principalId serverId) then
    write (t.rows.map fun row => if row.isOf principalId serverId then row.withFresh id else row)
  else write (t.rows ++ [{ principalId, serverId, state := .pending, uid := some id, gid := some id, home }])

def fillIds (t : Placements) (serverId principalId : String) (uid gid : ℤ) : Option Placements :=
  write (t.rows.map fun row =>
    if row.isOf principalId serverId && row.fillable then { row with uid := some uid, gid := some gid } else row)

/-- The updates that cannot be refused, as they are on a row. -/
def onRow : Op → PlacementRow → PlacementRow
  | .setHome serverId principalId home, row => if row.isOf principalId serverId then { row with home } else row
  | .letGo serverId principalId uid, row => if row.inTheWay serverId principalId uid then row.withoutIds else row
  | .releaseIds principalId id, row => if row.refused principalId id then row.withoutIds else row
  | .markPresent serverId principalIds, row =>
    if row.serverId = serverId ∧ row.principalId ∈ principalIds then { row with state := .present } else row
  | _, row => row

theorem onRow_within (o : Op) (row : PlacementRow) : Within (onRow o row) row := by
  have hself : Within row row := ⟨rfl, rfl, fun _ h => h⟩
  have hwithout : Within row.withoutIds row := ⟨rfl, rfl, fun _ h => nomatch h⟩
  cases o with
  | setHome serverId principalId home =>
    rw [onRow]
    split
    · exact ⟨rfl, rfl, fun _ h => h⟩
    · exact hself
  | letGo serverId principalId uid =>
    rw [onRow]
    split
    · exact hwithout
    · exact hself
  | releaseIds principalId id =>
    rw [onRow]
    split
    · exact hwithout
    · exact hself
  | markPresent serverId principalIds =>
    rw [onRow]
    split
    · exact ⟨rfl, rfl, fun _ h => h⟩
    · exact hself
  | _ => exact hself

/-- The rows after an update that cannot be refused. -/
def after (t : Placements) (o : Op) : Placements := t.update (onRow o) (onRow_within o)

end Placements

variable (hostOrganization : String → Option String)

/-- The two servers are of one organization. -/
def sameHost (serverId serverId' : String) : Bool :=
  match hostOrganization serverId with
  | none => false
  | some organization => hostOrganization serverId' = some organization

namespace IdStore

/-- Another principal has the number on a server of the organization. -/
def taken (s : IdStore) (principalId serverId : String) (id : ℤ) : Bool :=
  s.placements.rows.any fun row => row.principalId ≠ principalId && sameHost hostOrganization serverId row.serverId &&
    (row.uid = some id || row.gid = some id)

/-- `next_linux_id`, as a transaction sees it that may read it. -/
def next (s : IdStore) (organization : String) : ℤ :=
  match s.counting organization with
  | none => s.counter organization
  | some (_, next) => next

def takeNumber (s : IdStore) (i : ℕ) (serverId : String) : Option ℤ × IdStore :=
  match hostOrganization serverId with
  | none => (none, s)
  | some organization =>
    if s.next organization ≤ principalIdBandMax then
      (some (s.next organization),
        { s with counting := Function.update s.counting organization (some (i, s.next organization + 1)) })
    else (none, s)

/-- The transaction ends: what it holds is free. -/
def dropped (s : IdStore) (i : ℕ) : IdStore :=
  { s with
    counting := fun organization => (s.counting organization).filter (·.1 ≠ i)
    locks := fun principalId => (s.locks principalId).filter (· ≠ i) }

/-- The transaction ends, and what it counted is seen. -/
def committed (s : IdStore) (i : ℕ) : IdStore :=
  { s with counter := fun organization =>
      match s.counting organization with
      | some (k, next) => if k = i then next else s.counter organization
      | none => s.counter organization }.dropped i

/-- The statement can be made: those of a transaction while it holds the lock of its principal, and
a lock that another one holds is waited for. -/
def enabled (s : IdStore) (i : ℕ) : Op → Bool
  | .lockPrincipal principalId => (s.locks principalId).isNone
  | .takeNumber principalId serverId => s.locks principalId = some i &&
      ((hostOrganization serverId).bind s.counting).all (·.1 = i)
  | .loadPlacementIdRows principalId | .findTaken principalId _ _ | .findPinned principalId _
  | .upsertIds principalId _ _ _ | .endTransaction principalId _ _ | .rollBack principalId =>
    s.locks principalId = some i
  | _ => true

end IdStore

/-- A statement: its answer, and the store after it. Whether a number is pinned in the options of a
principal, the environment says. -/
def exec (i : ℕ) (pinned : Bool) : (o : Op) → IdStore → Ans o × IdStore
  | .lockPrincipal principalId, s => ((), { s with locks := Function.update s.locks principalId (some i) })
  | .loadPlacementIdRows principalId, s => (s.placements.idRows principalId, s)
  | .takeNumber _ serverId, s => s.takeNumber hostOrganization i serverId
  | .findTaken principalId serverId id, s => (s.taken hostOrganization principalId serverId id, s)
  | .findPinned _ _, s => (pinned, s)
  | .upsertIds principalId serverId id home, s =>
    match s.placements.upsertIds principalId serverId id home with
    | some placements => (true, { s with placements }.committed i)
    | none => (false, s.dropped i)
  | .endTransaction _ _ _, s => ((), s.committed i)
  | .rollBack _, s => ((), s.dropped i)
  | .setHome serverId principalId home, s =>
    ((), { s with placements := s.placements.after (.setHome serverId principalId home) })
  | .findRow serverId principalId, s =>
    ((s.placements.rows.find? (·.isOf principalId serverId)).map PlacementRow.toPlacementIdRow, s)
  | .letGo serverId principalId uid, s =>
    ((s.placements.rows.filter (·.inTheWay serverId principalId uid)).map (·.principalId),
      { s with placements := s.placements.after (.letGo serverId principalId uid) })
  | .fillIds serverId principalId uid gid, s =>
    match s.placements.fillIds serverId principalId uid gid with
    | some placements => (true, { s with placements })
    | none => (false, s)
  | .loadStates principalId, s => ((s.placements.idRows principalId).map (·.state), s)
  | .releaseIds principalId id, s => ((), { s with placements := s.placements.after (.releaseIds principalId id) })
  | .markPresent serverId principalIds, s =>
    ((), { s with placements := s.placements.after (.markPresent serverId principalIds) })

/-- The database; a transaction whose connection is lost is rolled back. -/
def machine : Machine Op Ans IdStore Bool where
  exec i pinned o s := if s.enabled hostOrganization i o then some (exec hostOrganization i pinned o s) else none
  drop i s := s.dropped i

abbrev Proc := Prog Op Ans

abbrev ask (o : Op) : Proc (Ans o) := Prog.call o

/-! ## The writers -/

/-- The next free number of the counter, or none when it throws. -/
def takeFreshId (principalId serverId : String) : ℕ → Proc (Option ℤ)
  | 0 => pure none
  | attempts + 1 => do
    let taken ← ask (.takeNumber principalId serverId)
    match taken with
    | none => pure none
    | some id =>
      if id < hostOrgIdStart ∨ id > principalIdBandMax then pure none
      else do
        let inUse ← ask (.findTaken principalId serverId id)
        if inUse then takeFreshId principalId serverId attempts
        else do
          let pinned ← ask (.findPinned principalId id)
          if pinned then takeFreshId principalId serverId attempts else pure (some id)

/-- A number is taken and recorded, or the transaction is rolled back. -/
def allocateFresh (principalId serverId : String) (home : Text) : Proc Unit := do
  let fresh ← takeFreshId principalId serverId (maxSequenceSkips + 1)
  match fresh with
  | none => ask (.rollBack principalId)
  | some id => do
    let _ ← ask (.upsertIds principalId serverId id home)
    pure ()

/-- `allocateForPrincipal`. What it answers is that of its last statement (`Returns`). -/
def allocateForPrincipal (serverId principalId : String) (home : Text) : Proc Unit := do
  ask (.lockPrincipal principalId)
  let rows ← ask (.loadPlacementIdRows principalId)
  match decidePrincipalIds c rows serverId with
  | .use ids => ask (.endTransaction principalId serverId (some ids))
  | .none => ask (.endTransaction principalId serverId none)
  | .allocate => allocateFresh principalId serverId home

structure ReportedPrincipalId where
  principalId : String
  uid : ℤ
  gid : ℤ
  home : Option Text

def isReportableId (value : ℤ) : Bool := value > 0 && value ≤ 2147483647

def maxReportedHomeLength : ℕ := 512

def isReportedHome (value : Text) : Bool :=
  let steps := value.splitOn '/'
  2 ≤ utf16Length value && utf16Length value ≤ maxReportedHomeLength &&
    value.head? = some '/' && value.getLast? ≠ some '/' && !decide (['/', '/'] <:+: value) &&
    value.all (fun char => 0x20 ≤ char.toNat && char.toNat ≠ 0x7f) &&
    !steps.any fun step => step = ['.', '.'] || step = ['.']

/-- The ids of a report, on the row that was read. -/
def recordIds (serverId : String) (report : ReportedPrincipalId) : Option PlacementIdRow → Proc Unit
  | none => pure ()
  | some row =>
    if row.uid = some report.uid ∧ row.gid = some report.gid then pure ()
    else if (row.uid = none ∧ row.gid = none) ∨ row.state ≠ .present then do
      let _ ← ask (.letGo serverId report.principalId report.uid)
      let _ ← ask (.fillIds serverId report.principalId report.uid report.gid)
      pure ()
    else pure ()

def recordReport (serverId : String) (report : ReportedPrincipalId) : Proc Unit :=
  if !isReportableId report.uid || !isReportableId report.gid then pure ()
  else do
    match report.home.filter isReportedHome with
    | none => pure ()
    | some home => ask (.setHome serverId report.principalId home)
    let row ← ask (.findRow serverId report.principalId)
    recordIds serverId report row

def recordReportedPrincipalIds (serverId : String) (reports : List ReportedPrincipalId) : Proc Unit :=
  Prog.foldEach (fun _ report => recordReport serverId report) reports ()

/-- `releaseRefusedPrincipalIds`, of a refusal as `parsePrincipalIdTaken` read it. -/
def releaseRefusedPrincipalIds (principalId : String) (id : ℤ) : Proc Unit := do
  let states ← ask (.loadStates principalId)
  if PlacementState.present ∈ states then pure () else ask (.releaseIds principalId id)

inductive Call where
  | allocateForPrincipal (serverId principalId : String) (home : Text)
  | recordReportedPrincipalIds (serverId : String) (reports : List ReportedPrincipalId)
  | releaseRefusedPrincipalIds (principalId : String) (id : ℤ)
  | markPlacementsPresent (serverId : String) (principalIds : List String)

def body : Call → Proc Unit
  | .allocateForPrincipal serverId principalId home => allocateForPrincipal c serverId principalId home
  | .recordReportedPrincipalIds serverId reports => recordReportedPrincipalIds serverId reports
  | .releaseRefusedPrincipalIds principalId id => releaseRefusedPrincipalIds principalId id
  | .markPlacementsPresent serverId principalIds => ask (.markPresent serverId principalIds)

end TurboPanel.Principals
