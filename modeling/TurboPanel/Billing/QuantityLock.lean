import TurboPanel.Data.Interleaving

/-!
# The lease on the quantities of an organization

`quantity-lock.ts`. A caller inserts the lease of its organization; where there is one, it reads it
and, if it has expired, takes it over by a compare-and-set on what it read. The end of a mutation
deletes the lease of its owner. Each of these is one statement, and any number of callers make
theirs in any order while time passes.
-/

namespace TurboPanel.Billing

open Interleaving List

abbrev OrganizationId := ℕ

abbrev Owner := ℕ

/-- Milliseconds. -/
abbrev Time := ℤ

/-! ## The lease -/

/-- `BILLING_QUANTITY_LEASE_MS`. -/
def billingQuantityLeaseMs : Time := 60000

structure BillingQuantityLock where
  organizationId : OrganizationId
  owner : Owner

structure LockValue where
  owner : Owner
  expiresAt : Time
  deriving DecidableEq

def lockIsExpired (lock : LockValue) (nowMs : Time) : Bool := decide (lock.expiresAt ≤ nowMs)

def nextLockValue (owner : Owner) (nowMs : Time) : LockValue := ⟨owner, nowMs + billingQuantityLeaseMs⟩

/-- The rows of `lease` with the name of this lock, which is unique together with the organization.
-/
structure LeaseTable where
  rows : OrganizationId → Option LockValue
  /-- The real time. -/
  clock : Time

inductive Op where
  | insertLease (organizationId : OrganizationId) (value : LockValue)
  | findLease (organizationId : OrganizationId)
  /-- The compare-and-set on the owner and the expiry that were read. -/
  | stealLease (organizationId : OrganizationId) (previous value : LockValue)
  | deleteLease (lock : BillingQuantityLock)
  /-- Time passes. -/
  | wait (ms : ℕ)

@[reducible] def Ans : Op → Type
  | .insertLease _ _ => Bool
  | .findLease _ => Option LockValue
  | .stealLease _ _ _ => Bool
  | .deleteLease _ => Unit
  | .wait _ => Unit

def LeaseTable.write (s : LeaseTable) (organizationId : OrganizationId) (row : Option LockValue) : LeaseTable :=
  { s with rows := Function.update s.rows organizationId row }

def exec : (o : Op) → LeaseTable → Ans o × LeaseTable
  | .insertLease organizationId value, s =>
    if (s.rows organizationId).isSome then (false, s) else (true, s.write organizationId (some value))
  | .findLease organizationId, s => (s.rows organizationId, s)
  | .stealLease organizationId previous value, s =>
    if s.rows organizationId = some previous then (true, s.write organizationId (some value)) else (false, s)
  | .deleteLease lock, s =>
    if (s.rows lock.organizationId).map (·.owner) = some lock.owner then ((), s.write lock.organizationId none)
    else ((), s)
  | .wait ms, s => ((), { s with clock := s.clock + ms })

def machine : Machine Op Ans LeaseTable Unit where
  exec _ _ o s := some (exec o s)
  drop _ s := s

abbrev Proc := Prog Op Ans

abbrev ask (o : Op) : Proc (Ans o) := Prog.call o

/-! ## The callers -/

def stealExpired (organizationId : OrganizationId) (owner : Owner) (nowMs : Time) (existing : LockValue) :
    Proc (Option BillingQuantityLock) :=
  if !lockIsExpired existing nowMs then pure none
  else do
    let stolen ← ask (.stealLease organizationId existing (nextLockValue owner nowMs))
    pure (if stolen then some ⟨organizationId, owner⟩ else none)

def tryBeginQuantityMutation (organizationId : OrganizationId) (owner : Owner) (nowMs : Time) :
    Proc (Option BillingQuantityLock) := do
  let inserted ← ask (.insertLease organizationId (nextLockValue owner nowMs))
  if inserted then pure (some ⟨organizationId, owner⟩)
  else do
    let existing ← ask (.findLease organizationId)
    match existing with
    | none => pure none
    | some existing => stealExpired organizationId owner nowMs existing

def endQuantityMutation (lock : BillingQuantityLock) : Proc Unit := ask (.deleteLease lock)

inductive Call where
  | tryBeginQuantityMutation (organizationId : OrganizationId) (owner : Owner) (nowMs : Time)
  | endQuantityMutation (lock : BillingQuantityLock)
  | wait (ms : ℕ)

def body : Call → Proc Unit
  | .tryBeginQuantityMutation organizationId owner nowMs => do
    let _ ← tryBeginQuantityMutation organizationId owner nowMs
    pure ()
  | .endQuantityMutation lock => endQuantityMutation lock
  | .wait ms => ask (.wait ms)

/-! ## What a caller does -/

/-- What is taken over had expired. -/
def Contract (_ : Trace Op Ans) : Op → Prop
  | .stealLease _ previous value => previous.expiresAt + billingQuantityLeaseMs ≤ value.expiresAt
  | _ => True

theorem body_obeys (x : Call) : (body x).Sat (fun _ _ => True) Contract (fun _ _ => True) [] := by
  cases x with
  | tryBeginQuantityMutation organizationId owner nowMs =>
    refine ⟨trivial, fun inserted _ => ?_⟩
    cases inserted with
    | true => trivial
    | false =>
      refine ⟨trivial, fun existing _ => ?_⟩
      cases existing with
      | none => trivial
      | some existing =>
        refine Prog.Sat.bind (Q := fun _ _ => True) ?_ fun _ _ _ => trivial
        change Prog.Sat _ _ _ (stealExpired organizationId owner nowMs existing) _
        rw [stealExpired]
        split
        · trivial
        · rename_i hexpired
          rw [Bool.not_eq_true', Bool.not_eq_false, lockIsExpired, decide_eq_true_iff] at hexpired
          refine ⟨?_, fun _ _ => trivial⟩
          exact Int.add_le_add_right hexpired _
  | endQuantityMutation lock => exact ⟨trivial, fun _ _ => trivial⟩
  | wait ms => exact ⟨trivial, fun _ _ => trivial⟩

/-! ## The lock is kept -/

abbrev Log := List (Event Op Ans)

/-- The statement gives a lock to the caller. -/
def Gets (i : ℕ) (lock : BillingQuantityLock) (expiresAt : Time) (ev : Event Op Ans) : Prop :=
  ev = ⟨i, .insertLease lock.organizationId ⟨lock.owner, expiresAt⟩, true⟩ ∨
    ∃ previous, ev = ⟨i, .stealLease lock.organizationId previous ⟨lock.owner, expiresAt⟩, true⟩

/-- The statement is the end of the lock. -/
def EndsLock (lock : BillingQuantityLock) (ev : Event Op Ans) : Prop := ev.op = .deleteLease lock

/-- The statement takes the lock over. -/
def TakesOver (lock : BillingQuantityLock) (expiresAt : Time) (ev : Event Op Ans) : Prop :=
  ∃ j value, ev = ⟨j, .stealLease lock.organizationId ⟨lock.owner, expiresAt⟩ value, true⟩

/-- The caller was handed the lock and has not ended it. -/
def Holds (i : ℕ) (lock : BillingQuantityLock) (expiresAt : Time) (log : Log) : Prop :=
  Since (Gets i lock expiresAt) (fun ev => ¬EndsLock lock ev) log

/-- The owner that a statement would make that of the lease. -/
def newOwner : Op → Option Owner
  | .insertLease _ value => some value.owner
  | .stealLease _ _ value => some value.owner
  | _ => none

/-- The time of the caller is not ahead of the real one, and its owner id is its own. -/
def Sound (i : ℕ) (w : World Op Ans LeaseTable) : Op → Prop
  | .insertLease _ value => value.expiresAt ≤ w.state.clock + billingQuantityLeaseMs ∧
    ∀ ev ∈ w.log, newOwner ev.op = some value.owner → ev.thread = i
  | .stealLease _ _ value => value.expiresAt ≤ w.state.clock + billingQuantityLeaseMs ∧
    ∀ ev ∈ w.log, newOwner ev.op = some value.owner → ev.thread = i
  | _ => True

/-- What holds of the lease in every world of a run. -/
structure Leased (w : World Op Ans LeaseTable) : Prop where
  /-- A lock is in the table until its own end, or until it is taken over. -/
  kept : ∀ i lock expiresAt, Since (Gets i lock expiresAt)
    (fun ev => ¬EndsLock lock ev ∧ ¬TakesOver lock expiresAt ev) w.log →
      w.state.rows lock.organizationId = some ⟨lock.owner, expiresAt⟩
  /-- What is taken over has expired. -/
  expired : ∀ ev ∈ w.log, ∀ lock expiresAt, TakesOver lock expiresAt ev → expiresAt ≤ w.state.clock
  owners : ∀ ev ∈ w.log, ∀ ev' ∈ w.log, ∀ owner, newOwner ev.op = some owner →
    newOwner ev'.op = some owner → ev.thread = ev'.thread

theorem leased_init (s : LeaseTable) : Leased (Config.init s : Config Op Ans LeaseTable).world where
  kept _ _ _ hsince := absurd hsince not_since_nil
  expired _ hev := nomatch hev
  owners _ hev := nomatch hev

variable {o : Op} {s s' : LeaseTable}

theorem exec_rows {ans : Ans o} (hexec : exec o s = (ans, s'))
    (organizationId : OrganizationId) : s'.rows organizationId = s.rows organizationId ∨
      (∃ value, s.rows organizationId = none ∧ s'.rows organizationId = some value ∧
        (⟨o, ans⟩ : (o : Op) × Ans o) = ⟨.insertLease organizationId value, true⟩) ∨
      (∃ previous value, s.rows organizationId = some previous ∧ s'.rows organizationId = some value ∧
        (⟨o, ans⟩ : (o : Op) × Ans o) = ⟨.stealLease organizationId previous value, true⟩) ∨
      ∃ row, s.rows organizationId = some row ∧ s'.rows organizationId = none ∧
        o = .deleteLease ⟨organizationId, row.owner⟩ := by
  cases o with
  | insertLease organizationId' value =>
    rw [exec] at hexec
    split at hexec
    · cases hexec
      exact .inl rfl
    · rename_i hnone
      cases hexec
      by_cases horganization : organizationId = organizationId'
      · subst horganization
        refine .inr (.inl ⟨value, by simpa using hnone, Function.update_self _ _ _, rfl⟩)
      · exact .inl (Function.update_of_ne horganization _ _)
  | findLease organizationId' =>
    cases hexec
    exact .inl rfl
  | stealLease organizationId' previous value =>
    rw [exec] at hexec
    split at hexec
    · rename_i hprevious
      cases hexec
      by_cases horganization : organizationId = organizationId'
      · subst horganization
        exact .inr (.inr (.inl ⟨previous, value, hprevious, Function.update_self _ _ _, rfl⟩))
      · exact .inl (Function.update_of_ne horganization _ _)
    · cases hexec
      exact .inl rfl
  | deleteLease lock =>
    rw [exec] at hexec
    split at hexec
    · rename_i howner
      cases hexec
      by_cases horganization : organizationId = lock.organizationId
      · subst horganization
        obtain ⟨row, hrow, howner⟩ := Option.map_eq_some_iff.1 howner
        refine .inr (.inr (.inr ⟨row, hrow, Function.update_self _ _ _, ?_⟩))
        rw [howner]
      · exact .inl (Function.update_of_ne horganization _ _)
    · cases hexec
      exact .inl rfl
  | wait ms =>
    cases hexec
    exact .inl rfl

theorem exec_clock {ans : Ans o} (hexec : exec o s = (ans, s')) : s.clock ≤ s'.clock := by
  cases o with
  | wait ms =>
    cases hexec
    exact Int.le_add_of_nonneg_right (Int.natCast_nonneg ms)
  | findLease organizationId =>
    cases hexec
    exact le_rfl
  | _ =>
    rw [exec] at hexec
    split at hexec <;> (obtain ⟨-, rfl⟩ := Prod.mk.inj hexec; exact le_rfl)

section

variable {i : ℕ} {o : Op} {w : World Op Ans LeaseTable} {ans : Ans o} {s' : LeaseTable}

theorem mem_push {ev : Event Op Ans} : ev ∈ (w.push i o ans s').log ↔ ev ∈ w.log ∨ ev = ⟨i, o, ans⟩ := by
  rw [World.push, mem_append, mem_singleton]

variable {j : ℕ} {lock : BillingQuantityLock} {expiresAt : Time}

theorem rows_of_gets
    (hexec : exec o w.state = (ans, s')) (hgets : Gets j lock expiresAt ⟨i, o, ans⟩) :
    s'.rows lock.organizationId = some ⟨lock.owner, expiresAt⟩ := by
  obtain heq | ⟨previous, heq⟩ := hgets
  · cases heq
    rw [exec] at hexec
    split at hexec
    · cases (Prod.mk.inj hexec).1
    · cases hexec
      exact Function.update_self _ _ _
  · cases heq
    rw [exec] at hexec
    split at hexec
    · cases hexec
      exact Function.update_self _ _ _
    · cases (Prod.mk.inj hexec).1

theorem Leased.push_kept (hw : Leased w) (hexec : exec o w.state = (ans, s'))
    (hsince : Since (Gets j lock expiresAt) (fun ev => ¬EndsLock lock ev ∧ ¬TakesOver lock expiresAt ev)
      (w.push i o ans s').log) : s'.rows lock.organizationId = some ⟨lock.owner, expiresAt⟩ := by
  obtain hgets | ⟨hsince, hends, htakes⟩ := since_concat.1 hsince
  · exact rows_of_gets hexec hgets
  · have hrow := hw.kept j lock expiresAt hsince
    obtain hsame | ⟨value, hnone, -⟩ | ⟨previous, value, hprevious, -, heq⟩ | ⟨row, hbefore, -, heq⟩ :=
      exec_rows hexec lock.organizationId
    · rw [hsame]
      exact hrow
    · rw [hrow] at hnone
      cases hnone
    · cases hrow.symm.trans hprevious
      cases heq
      exact absurd ⟨i, value, rfl⟩ htakes
    · cases hrow.symm.trans hbefore
      exact absurd heq hends

theorem Leased.push (hw : Leased w) (hsound : Sound i w o) (hcontract : Contract (own i w.log) o)
    (hexec : exec o w.state = (ans, s')) : Leased (w.push i o ans s') where
  kept _ _ _ hsince := hw.push_kept hexec hsince
  expired ev hev lock expiresAt htakes := by
    obtain hev | rfl := mem_push.1 hev
    · exact (hw.expired ev hev lock expiresAt htakes).trans (exec_clock hexec)
    · obtain ⟨j, value, heq⟩ := htakes
      cases heq
      have hahead : value.expiresAt ≤ w.state.clock + billingQuantityLeaseMs := hsound.1
      have hle : expiresAt + billingQuantityLeaseMs ≤ w.state.clock + billingQuantityLeaseMs :=
        le_trans hcontract hahead
      exact (Int.le_of_add_le_add_right hle).trans (exec_clock hexec)
  owners ev hev ev' hev' owner howner howner' := by
    have hnew : ∀ ev ∈ w.log, newOwner ev.op = some owner → newOwner o = some owner → ev.thread = i := by
      intro old hold hgave ho
      cases o with
      | insertLease organizationId value => exact hsound.2 old hold (hgave.trans ho.symm)
      | stealLease organizationId previous value => exact hsound.2 old hold (hgave.trans ho.symm)
      | _ => cases ho
    obtain hev | rfl := mem_push.1 hev
    · obtain hev' | rfl := mem_push.1 hev'
      · exact hw.owners ev hev ev' hev' owner howner howner'
      · exact hnew ev hev howner howner'
    · obtain hev' | rfl := mem_push.1 hev'
      · exact (hnew ev' hev' howner' howner).symm
      · rfl

theorem Leased.row_of_holds (hw : Leased w)
    (hholds : Holds i lock expiresAt w.log) (hlive : w.state.clock < expiresAt) :
    w.state.rows lock.organizationId = some ⟨lock.owner, expiresAt⟩ := by
  obtain ⟨before, ev, after, hlog, hgets, hafter⟩ := hholds
  refine hw.kept i lock expiresAt ⟨before, ev, after, hlog, hgets, fun ev' hev' => ⟨hafter ev' hev', fun htakes => ?_⟩⟩
  have hmem : ev' ∈ w.log := by
    rw [hlog]
    exact mem_append_right _ (mem_cons_of_mem _ hev')
  exact absurd (hw.expired ev' hmem lock expiresAt htakes) (not_le.2 hlive)

/-- **Two callers do not hold the lock** of one organization. -/
theorem Leased.alone (hw : Leased w) {lock' : BillingQuantityLock} {expiresAt' : Time}
    (hholds : Holds i lock expiresAt w.log) (hlive : w.state.clock < expiresAt)
    (hholds' : Holds j lock' expiresAt' w.log) (hlive' : w.state.clock < expiresAt')
    (horganization : lock.organizationId = lock'.organizationId) : i = j := by
  have hrow := hw.row_of_holds hholds hlive
  have hrow' := hw.row_of_holds hholds' hlive'
  rw [horganization, hrow'] at hrow
  have howner : lock'.owner = lock.owner := congrArg LockValue.owner (Option.some.inj hrow)
  have hgave : ∀ {i lock expiresAt}, Holds i lock expiresAt w.log →
      ∃ ev ∈ w.log, ev.thread = i ∧ newOwner ev.op = some lock.owner := by
    rintro i lock expiresAt ⟨before, ev, after, hlog, hgets, -⟩
    refine ⟨ev, hlog ▸ mem_append_right _ mem_cons_self, ?_⟩
    obtain rfl | ⟨previous, rfl⟩ := hgets <;> exact ⟨rfl, rfl⟩
  obtain ⟨ev, hev, rfl, hnew⟩ := hgave hholds
  obtain ⟨ev', hev', rfl, hnew'⟩ := hgave hholds'
  exact hw.owners ev hev ev' hev' lock.owner hnew (howner ▸ hnew')

end

/-! ## Other organizations -/

abbrev Choices := List (Choice Unit Call)

/-- The configuration after a run. -/
def reached (s : LeaseTable) (choices : Choices) : Config Op Ans LeaseTable :=
  (Config.init s).run machine body choices

/-- The call is one for the organization, or time passes. -/
def Call.concerns (organizationId : OrganizationId) : Call → Bool
  | .tryBeginQuantityMutation organizationId' _ _ => organizationId' == organizationId
  | .endQuantityMutation lock => lock.organizationId == organizationId
  | .wait _ => true

/-- The run without the statements that the callers for other organizations make, after these calls.
-/
def onlyOf (organizationId : OrganizationId) : List Call → Choices → Choices
  | _, [] => []
  | calls, .call x :: rest => .call x :: onlyOf organizationId (calls ++ [x]) rest
  | calls, .step i e :: rest =>
    if calls[i]?.any (Call.concerns organizationId) then .step i e :: onlyOf organizationId calls rest
    else onlyOf organizationId calls rest
  | calls, .crash i :: rest =>
    if calls[i]?.any (Call.concerns organizationId) then .crash i :: onlyOf organizationId calls rest
    else onlyOf organizationId calls rest

/-- The calls of a run. -/
def callsOf (choices : Choices) : List Call := choices.filterMap fun choice =>
  match choice with
  | .call x => some x
  | _ => none

/-- A statement for the organization, or time passes. -/
def Op.of (organizationId : OrganizationId) : Op → Prop
  | .insertLease organizationId' _ => organizationId' = organizationId
  | .findLease organizationId' => organizationId' = organizationId
  | .stealLease organizationId' _ _ => organizationId' = organizationId
  | .deleteLease lock => lock.organizationId = organizationId
  | .wait _ => True

/-- A statement for another organization. -/
def Op.notOf (organizationId : OrganizationId) : Op → Prop
  | .insertLease organizationId' _ => organizationId' ≠ organizationId
  | .findLease organizationId' => organizationId' ≠ organizationId
  | .stealLease organizationId' _ _ => organizationId' ≠ organizationId
  | .deleteLease lock => lock.organizationId ≠ organizationId
  | .wait _ => False

variable {organizationId : OrganizationId}

theorem only_tryBegin {A : Op → Prop} {owner : Owner} {nowMs : Time}
    (hinsert : ∀ value, A (.insertLease organizationId value)) (hfind : A (.findLease organizationId))
    (hsteal : ∀ previous value, A (.stealLease organizationId previous value)) :
    (body (.tryBeginQuantityMutation organizationId owner nowMs)).Only A fun _ => True := by
  have hbegin : (tryBeginQuantityMutation organizationId owner nowMs).Only A fun _ => True := by
    refine ⟨hinsert _, fun inserted => ?_⟩
    cases inserted with
    | true => trivial
    | false =>
      refine ⟨hfind, fun existing => ?_⟩
      cases existing with
      | none => trivial
      | some existing =>
        change Prog.Only _ _ (stealExpired organizationId owner nowMs existing)
        rw [stealExpired]
        split
        · trivial
        · exact ⟨hsteal _ _, fun _ => trivial⟩
  exact hbegin.bind fun _ _ => trivial

theorem body_only {x : Call} (hx : x.concerns organizationId = true) :
    (body x).Only (Op.of organizationId) fun _ => True := by
  cases x with
  | tryBeginQuantityMutation organizationId' owner nowMs =>
    obtain rfl := beq_iff_eq.1 hx
    exact only_tryBegin (fun _ => rfl) rfl fun _ _ => rfl
  | endQuantityMutation lock => exact ⟨beq_iff_eq.1 hx, fun _ => trivial⟩
  | wait ms => exact ⟨trivial, fun _ => trivial⟩

theorem body_only_not {x : Call} (hx : ¬x.concerns organizationId = true) :
    (body x).Only (Op.notOf organizationId) fun _ => True := by
  cases x with
  | tryBeginQuantityMutation organizationId' owner nowMs =>
    have hne : organizationId' ≠ organizationId := fun heq => hx (beq_iff_eq.2 heq)
    exact only_tryBegin (fun _ => hne) hne fun _ _ => hne
  | endQuantityMutation lock => exact ⟨fun heq => hx (beq_iff_eq.2 heq), fun _ => trivial⟩
  | wait ms => exact absurd rfl hx

/-- The tables say the same of the organization. -/
structure SameLease (organizationId : OrganizationId) (s s' : LeaseTable) : Prop where
  rows : s.rows organizationId = s'.rows organizationId
  clock : s.clock = s'.clock

theorem exec_notOf (ho : o.notOf organizationId) (s : LeaseTable) :
    SameLease organizationId (exec o s).2 s := by
  have hwrite : ∀ {organizationId' row}, organizationId' ≠ organizationId →
      SameLease organizationId (s.write organizationId' row) s :=
    fun hne => ⟨Function.update_of_ne hne.symm _ _, rfl⟩
  cases o with
  | wait ms => exact ho.elim
  | findLease organizationId' => exact ⟨rfl, rfl⟩
  | _ =>
    rw [exec]
    split
    · first
        | exact hwrite ho
        | exact ⟨rfl, rfl⟩
    · first
        | exact hwrite ho
        | exact ⟨rfl, rfl⟩

theorem exec_of (ho : o.of organizationId) (hsame : SameLease organizationId s s') :
    (exec o s).1 = (exec o s').1 ∧ SameLease organizationId (exec o s).2 (exec o s').2 := by
  have hwrite : ∀ row, SameLease organizationId (s.write organizationId row) (s'.write organizationId row) :=
    fun row => ⟨by simp only [LeaseTable.write, Function.update_self], hsame.clock⟩
  cases o with
  | insertLease organizationId' value =>
    obtain rfl : organizationId' = organizationId := ho
    rw [exec, exec, hsame.rows]
    split
    · exact ⟨rfl, hsame⟩
    · exact ⟨rfl, hwrite _⟩
  | findLease organizationId' =>
    obtain rfl : organizationId' = organizationId := ho
    exact ⟨hsame.rows, hsame⟩
  | stealLease organizationId' previous value =>
    obtain rfl : organizationId' = organizationId := ho
    rw [exec, exec, hsame.rows]
    split
    · exact ⟨rfl, hwrite _⟩
    · exact ⟨rfl, hsame⟩
  | deleteLease lock =>
    obtain rfl : lock.organizationId = organizationId := ho
    rw [exec, exec, hsame.rows]
    split
    · exact ⟨rfl, hwrite _⟩
    · exact ⟨rfl, hsame⟩
  | wait ms => exact ⟨rfl, hsame.rows, congrArg (· + (ms : Time)) hsame.clock⟩

/-- Two runs agree on the organization: their tables and its callers do. -/
structure Agree (organizationId : OrganizationId) (calls : List Call) (c c' : Config Op Ans LeaseTable) : Prop where
  length : c.threads.length = calls.length
  length' : c'.threads.length = calls.length
  same : SameLease organizationId c.world.state c'.world.state
  own : ∀ (i : ℕ) (x : Call), calls[i]? = some x → x.concerns organizationId = true → c.threads[i]? = c'.threads[i]? ∧
    ∀ p : Proc Unit, p ∈ c.threads[i]? → p.Only (Op.of organizationId) fun _ => True
  other : ∀ (i : ℕ) (x : Call), calls[i]? = some x → ¬x.concerns organizationId = true →
    ∀ p : Proc Unit, p ∈ c.threads[i]? → p.Only (Op.notOf organizationId) fun _ => True

section

variable {organizationId : OrganizationId} {calls : List Call} {c c' : Config Op Ans LeaseTable}

theorem Agree.call (h : Agree organizationId calls c c') (x : Call) :
    Agree organizationId (calls ++ [x]) (c.next machine body (.call x)) (c'.next machine body (.call x)) := by
  have hget : ∀ {d : Config Op Ans LeaseTable} {i : ℕ}, d.threads.length = calls.length →
      (d.next machine body (.call x)).threads[i]? = if i < calls.length then d.threads[i]?
        else [body x][i - calls.length]? := by
    intro d i hlength
    rw [Config.next, getElem?_append, hlength]
  have hcall : ∀ {i y}, (calls ++ [x])[i]? = some y →
      (i < calls.length ∧ calls[i]? = some y) ∨ (¬i < calls.length ∧ i - calls.length = 0 ∧ y = x) := by
    intro i y hy
    rw [getElem?_append] at hy
    split at hy
    · rename_i hlt
      exact .inl ⟨hlt, hy⟩
    · rename_i hlt
      rw [getElem?_singleton] at hy
      split at hy
      · exact .inr ⟨hlt, ‹_›, (Option.some.inj hy).symm⟩
      · cases hy
  refine ⟨?_, ?_, h.same, fun i y hy hconcerns => ?_, fun i y hy hconcerns => ?_⟩
  · rw [Config.next, length_append, length_append, h.length]
    rfl
  · rw [Config.next, length_append, length_append, h.length']
    rfl
  · rw [hget h.length, hget h.length']
    obtain ⟨hlt, hold⟩ | ⟨hlt, hzero, rfl⟩ := hcall hy
    · rw [if_pos hlt, if_pos hlt]
      exact h.own i y hold hconcerns
    · rw [if_neg hlt, if_neg hlt, hzero]
      refine ⟨rfl, fun p hp => ?_⟩
      rw [← Option.some.inj hp]
      exact body_only hconcerns
  · rw [hget h.length]
    obtain ⟨hlt, hold⟩ | ⟨hlt, hzero, rfl⟩ := hcall hy
    · rw [if_pos hlt]
      exact h.other i y hold hconcerns
    · rw [if_neg hlt, hzero]
      intro p hp
      rw [← Option.some.inj hp]
      exact body_only_not hconcerns

variable {i : ℕ}

theorem mem_set {threads : List (Proc Unit)} {j : ℕ} {p q : Proc Unit} (h : p ∈ (threads.set i q)[j]?) :
    p = q ∧ i = j ∨ p ∈ threads[j]? := by
  rw [getElem?_set] at h
  split at h
  · split at h
    · exact .inl ⟨(Option.some.inj h).symm, ‹_›⟩
    · cases h
  · exact .inr h

theorem getElem?_set_congr {threads threads' : List (Proc Unit)} {j : ℕ} (q : Proc Unit)
    (hlength : threads.length = threads'.length) (h : threads[j]? = threads'[j]?) :
    (threads.set i q)[j]? = (threads'.set i q)[j]? := by
  rw [getElem?_set, getElem?_set, hlength, h]

section

variable (h : Agree organizationId calls c c')
include h

theorem Agree.step_own {x : Call} (hx : calls[i]? = some x)
    (hconcerns : x.concerns organizationId = true) :
    Agree organizationId calls (c.next machine body (.step i ())) (c'.next machine body (.step i ())) := by
  obtain ⟨hthread, honly⟩ := h.own i x hx hconcerns
  rw [Config.next, Config.next, ← hthread]
  rcases hp : c.threads[i]? with _ | (a | ⟨o, next⟩)
  · exact h
  · exact h
  · have hof := honly _ hp
    obtain ⟨hans, hsame⟩ := exec_of hof.1 h.same
    change Agree organizationId calls
      ⟨c.world.push i o (exec o c.world.state).1 (exec o c.world.state).2, c.threads.set i
          (next (exec o c.world.state).1)⟩
      ⟨c'.world.push i o (exec o c'.world.state).1 (exec o c'.world.state).2, c'.threads.set i
          (next (exec o c'.world.state).1)⟩
    refine ⟨?_, ?_, hsame, fun j y hy hconcerns' => ⟨?_, fun p hp' => ?_⟩, fun j y hy hconcerns' p hp' => ?_⟩
    · rw [length_set]
      exact h.length
    · rw [length_set]
      exact h.length'
    · rw [hans]
      exact getElem?_set_congr _ (h.length.trans h.length'.symm) (h.own j y hy hconcerns').1
    · obtain ⟨rfl, -⟩ | hp' := mem_set hp'
      · exact hof.2 _
      · exact (h.own j y hy hconcerns').2 p hp'
    · obtain ⟨rfl, rfl⟩ | hp' := mem_set hp'
      · cases hx.symm.trans hy
        exact absurd hconcerns hconcerns'
      · exact h.other j y hy hconcerns' p hp'

theorem Agree.step_other (hother : ∀ x, calls[i]? = some x → ¬x.concerns organizationId = true) :
    Agree organizationId calls (c.next machine body (.step i ())) c' := by
  rw [Config.next]
  rcases hp : c.threads[i]? with _ | (a | ⟨o, next⟩)
  · exact h
  · exact h
  · have hlt : i < calls.length := h.length ▸ (List.getElem?_eq_some_iff.1 hp).1
    obtain ⟨x, hx⟩ : ∃ x, calls[i]? = some x := ⟨_, getElem?_eq_getElem hlt⟩
    have hnot := h.other i x hx (hother x hx) _ hp
    have hframe := exec_notOf hnot.1 c.world.state
    change Agree organizationId calls
      ⟨c.world.push i o (exec o c.world.state).1 (exec o c.world.state).2, c.threads.set i
          (next (exec o c.world.state).1)⟩ c'
    refine ⟨?_, h.length', ⟨hframe.rows.trans h.same.rows, hframe.clock.trans h.same.clock⟩,
      fun j y hy hconcerns => ?_, fun j y hy hconcerns p hp' => ?_⟩
    · rw [length_set]
      exact h.length
    · have hne : i ≠ j := by
        rintro rfl
        cases hx.symm.trans hy
        exact hother x hx hconcerns
      change (c.threads.set i _)[j]? = _ ∧ ∀ p : Proc Unit, p ∈ (c.threads.set i _)[j]? → _
      rw [getElem?_set_ne hne]
      exact h.own j y hy hconcerns
    · obtain ⟨rfl, -⟩ | hp' := mem_set hp'
      · exact hnot.2 _
      · exact h.other j y hy hconcerns p hp'

theorem Agree.crash_own (i : ℕ) :
    Agree organizationId calls (c.next machine body (.crash i)) (c'.next machine body (.crash i)) := by
  refine ⟨(length_set).trans h.length, (length_set).trans h.length', h.same,
    fun j y hy hconcerns => ⟨?_, fun p hp => ?_⟩, fun j y hy hconcerns p hp => ?_⟩
  · exact getElem?_set_congr _ (h.length.trans h.length'.symm) (h.own j y hy hconcerns).1
  · obtain ⟨rfl, -⟩ | hp := mem_set hp
    · trivial
    · exact (h.own j y hy hconcerns).2 p hp
  · obtain ⟨rfl, -⟩ | hp := mem_set hp
    · trivial
    · exact h.other j y hy hconcerns p hp

theorem Agree.crash_other (hother : ∀ x, calls[i]? = some x → ¬x.concerns organizationId = true) :
    Agree organizationId calls (c.next machine body (.crash i)) c' := by
  refine ⟨(length_set).trans h.length, h.length', h.same, fun j y hy hconcerns => ?_,
    fun j y hy hconcerns p hp => ?_⟩
  · have hne : i ≠ j := by
      rintro rfl
      exact hother y hy hconcerns
    change (c.threads.set i _)[j]? = _ ∧ ∀ p : Proc Unit, p ∈ (c.threads.set i _)[j]? → _
    rw [getElem?_set_ne hne]
    exact h.own j y hy hconcerns
  · obtain ⟨rfl, -⟩ | hp := mem_set hp
    · trivial
    · exact h.other j y hy hconcerns p hp

/-- **The callers for other organizations do not matter** to the run of one. -/
theorem Agree.run (choices : Choices) :
    Agree organizationId (calls ++ callsOf choices) (c.run machine body choices)
      (c'.run machine body (onlyOf organizationId calls choices)) := by
  induction choices generalizing calls c c' with
  | nil =>
    rw [callsOf, filterMap_nil, append_nil]
    exact h
  | cons choice rest ih =>
    have hother : ∀ {i : ℕ}, ¬calls[i]?.any (Call.concerns organizationId) = true →
        ∀ x : Call, calls[i]? = some x → ¬x.concerns organizationId = true := by
      intro i hany x hx hconcerns
      rw [hx] at hany
      exact hany hconcerns
    cases choice with
    | call x =>
      have hrun := ih (h.call x)
      rw [append_assoc] at hrun
      exact hrun
    | step i e =>
      rw [onlyOf]
      split
      · rename_i hany
        obtain ⟨x, hx, hconcerns⟩ := (Option.any_eq_true _ _).1 hany
        exact ih (h.step_own hx hconcerns)
      · exact ih (h.step_other (hother ‹_›))
    | crash i =>
      rw [onlyOf]
      split
      · exact ih (h.crash_own i)
      · exact ih (h.crash_other (hother ‹_›))

end

end

theorem agree_init (organizationId : OrganizationId) (s : LeaseTable) :
    Agree organizationId [] (Config.init s) (Config.init s) where
  length := rfl
  length' := rfl
  same := ⟨rfl, rfl⟩
  own _ _ hx := nomatch hx
  other _ _ hx := nomatch hx

/-! ## The lease is exclusive -/

/-- What the lease of an organization promises after a run. -/
structure Exclusive (s : LeaseTable) (choices : Choices) : Prop where
  /-- Two callers do not hold an unexpired lock of one organization. -/
  alone : ∀ i j lock lock' expiresAt expiresAt', Holds i lock expiresAt (reached s choices).world.log →
    Holds j lock' expiresAt' (reached s choices).world.log → lock.organizationId = lock'.organizationId →
      (reached s choices).world.state.clock < expiresAt → (reached s choices).world.state.clock < expiresAt' → i = j
  /-- A lock that is not ended, nor taken over once it has expired, is in the table: no other end
  releases it. -/
  kept : ∀ i lock expiresAt, Since (Gets i lock expiresAt)
    (fun ev => ¬EndsLock lock ev ∧ ¬TakesOver lock expiresAt ev) (reached s choices).world.log →
      (reached s choices).world.state.rows lock.organizationId = some ⟨lock.owner, expiresAt⟩
  expired : ∀ ev ∈ (reached s choices).world.log, ∀ lock expiresAt, TakesOver lock expiresAt ev →
    expiresAt ≤ (reached s choices).world.state.clock
  /-- Without the statements of the callers for other organizations, the row and the callers of this
  one are what they are. -/
  apart : ∀ organizationId, Agree organizationId (callsOf choices) (reached s choices)
    (reached s (onlyOf organizationId [] choices))

/-- **The lease of an organization is exclusive**, in every run whose callers are sound. -/
theorem quantityLease_exclusive (s : LeaseTable) {choices : Choices}
    (hmeets : Meets machine body Sound (Config.init s) choices) : Exclusive s choices := by
  have hstep : ∀ {i : ℕ} {e : Unit} {o : Op} {w : World Op Ans LeaseTable} {ans : Ans o} {s' : LeaseTable},
      Leased w → Sound i w o → Contract (own i w.log) o → machine.exec i e o w.state = some (ans, s') →
        Leased (w.push i o ans s') :=
    fun hw hsound hcontract hexec => hw.push hsound hcontract (Option.some.inj hexec)
  have hw : Leased (reached s choices).world :=
    (Config.run_inv hstep (fun hw => hw) body_obeys (fun _ => trivial) (obeys_init s) (leased_init s) hmeets).2
  refine ⟨fun i j lock lock' expiresAt expiresAt' hholds hholds' horganization hlive hlive' => ?_, hw.kept,
    hw.expired, fun organizationId => (agree_init organizationId s).run choices⟩
  exact hw.alone hholds hlive hholds' hlive' horganization

/-- A caller gets the lock of an organization, another takes it over once it has expired, and the
first one ends what it had. -/
def overtakenHolder : Choices :=
  [.call (.tryBeginQuantityMutation 0 7 0), .step 0 (), .call (.wait 60000), .step 1 (),
    .call (.tryBeginQuantityMutation 0 8 60000), .step 2 (), .step 2 (), .step 2 (),
    .call (.endQuantityMutation ⟨0, 7⟩), .step 3 ()]

theorem overtakenHolder_meets : Meets machine body Sound (Config.init ⟨fun _ => none, 0⟩) overtakenHolder := by
  refine meets_call _ _ (meets_step _ _ rfl ⟨by decide, fun _ hev => nomatch hev⟩ ?_)
  refine meets_call _ _ (meets_step _ _ rfl trivial (meets_call _ _ ?_))
  refine meets_step _ _ rfl ⟨by decide, by decide⟩ (meets_step _ _ rfl trivial ?_)
  refine meets_step _ _ rfl ⟨by decide, by decide⟩ (meets_call _ _ (meets_step _ _ rfl trivial trivial))

theorem overtakenHolder_exclusive : Exclusive ⟨fun _ => none, 0⟩ overtakenHolder ∧
    (reached ⟨fun _ => none, 0⟩ overtakenHolder).world.state.rows 0 = some ⟨8, 120000⟩ :=
  ⟨quantityLease_exclusive _ overtakenHolder_meets, rfl⟩

end TurboPanel.Billing
