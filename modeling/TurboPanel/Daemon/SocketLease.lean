import TurboPanel.Daemon.RedisPresence

/-!
# A closing daemon socket and a newer one

The lease, the meta hash and the online set are three keys, and a call writes them one after the
other. What is not yet as the lease says, some call still has to write (`Debt`): an attach that took
the lease writes the hash, one that marked the hash connected adds the server to the online set, a
detach that released the lease takes it out. When all calls have ended, nothing is owed, and the
three agree (`timely_presence`), in the runs in which no call writes what the lease no longer says:
a detach after another connection took the lease, or a report of an old connection after its lease
was released (`late_writes_break_presence`).
-/

namespace TurboPanel.DaemonCell

open Option Interleaving List

abbrev Made := (o : Op) × Ans o

/-! ## The claim -/

/-- The last inbound message is not older than the sweep allows. -/
def Redis.Fresh (s : Redis) : Prop :=
    ∃ inbound ∈ lastInbound s.metaHash, s.clock - daemonOfflineSweepMs < inbound

/-- The meta hash and the online set say what the lease says. -/
structure Presence (s : Redis) : Prop where
  held : ∀ c, s.lease = some c → s.Fresh →
    s.connected = some true ∧ s.connectionId = some c ∧ s.online = true
  free : s.lease = none → s.connected = some false ∧ s.online = false

/-- A connection is attached, or none is. -/
inductive Started (s : Redis) : Prop where
  | attached (c : ConnectionId) (lease : s.lease = some c) (connected : s.connected = some true)
      (connectionId : s.connectionId = some c) (online : s.online = true)
  | detached (lease : s.lease = none) (connected : s.connected = some false)
      (online : s.online = false)

/-! ## What a call owes -/

/-- What is left to do. -/
inductive Debt where
  /-- The lease was acquired: the meta hash has to name the connection. -/
  | nameConnection (c : ConnectionId)
  /-- The hash says connected: the server has to be in the online set. -/
  | addOnline
  /-- The lease of a stale holder was deleted: it has to be acquired. -/
  | acquireLease
  /-- The lease was released, and as far as the call has seen the hash names its connection: the
  hash has to say disconnected. -/
  | disconnect (c : ConnectionId)
  /-- The hash says disconnected: the server has to be out of the online set. -/
  | removeOnline

def Debt.Opens : Debt → Made → Prop
  | .nameConnection c, ev => ev = ⟨.setnxLease c, true⟩
  | .addOnline, ev => ∃ fields : Meta, fields.connected = some true ∧ ev = ⟨.hsetMeta fields, ()⟩
  | .acquireLease, ev => ev = ⟨.delLease, ()⟩
  | .disconnect c, ev => ev = ⟨.releaseLease c, true⟩
  | .removeOnline, ev => ∃ fields : Meta,
  fields.connected = some false ∧ ev = ⟨.hsetMeta fields, ()⟩

def Debt.Settles : Debt → Made → Prop
  | .nameConnection _, ev => ∃ fields : Meta,
  fields.connectionId.isSome ∧ ev = ⟨.hsetMeta fields, ()⟩
  | .addOnline, ev => ev = ⟨.saddOnline, ()⟩
  | .acquireLease, ev => ∃ c acquired, ev = ⟨.setnxLease c, acquired⟩
  | .disconnect c, ev => (∃ fields : Meta,
  fields.connected = some false ∧ ev = ⟨.hsetMeta fields, ()⟩) ∨
    ∃ hash : Option Meta, hash.bind (·.connectionId) ≠ some c ∧ ev = ⟨.hgetallMeta, hash⟩
  | .removeOnline, ev => ev = ⟨.sremOnline, ()⟩

/-- The call has it left to do. -/
def Debt.Owed (d : Debt) (h : Trace Op Ans) : Prop := Since d.Opens (fun ev => ¬d.Settles ev) h

variable {h : Trace Op Ans} {except : Debt → Prop} (cell : CellId)
  (namedBuild : Option DaemonBuildInfo)
  (c : ConnectionId)

theorem Debt.owed_concat {d : Debt} {ev : Made} :
    d.Owed (h ++ [ev]) ↔ d.Opens ev ∨ d.Owed h ∧ ¬d.Settles ev := since_concat

/-- A call has it left to do. -/
def Debt.Owing (d : Debt) (w : World Op Ans Redis) : Prop := ∃ i, d.Owed (own i w.log)

section

variable {i : ℕ} {o : Op} {ans : Ans o} {w : World Op Ans Redis} {s' : Redis}

theorem own_push (j : ℕ) : own j (w.push i o ans s').log =
    if i = j then own j w.log ++ [⟨o, ans⟩] else own j w.log := by
  rw [World.push, own_append]
  split
  · rename_i hij
    rw [hij, own_self]
  · rename_i hij
    rw [own_of_ne hij, append_nil]

theorem Debt.owing_of_opens {d : Debt} (hopens : d.Opens ⟨o, ans⟩) :
    d.Owing (w.push i o ans s') := by
  refine ⟨i, ?_⟩
  rw [own_push, if_pos rfl]
  exact Debt.owed_concat.2 (.inl hopens)

theorem Debt.Owing.push {d : Debt} (howing : d.Owing w) (hsettles : ¬d.Settles ⟨o, ans⟩) :
    d.Owing (w.push i o ans s') := by
  obtain ⟨j, howed⟩ := howing
  refine ⟨j, ?_⟩
  rw [own_push]
  split
  · exact Debt.owed_concat.2 (.inr ⟨howed, hsettles⟩)
  · exact howed

end

/-! ## What the calls do -/

/-- Nothing is owed but what is excepted. -/
def Settled (except : Debt → Prop) (h : Trace Op Ans) : Prop := ∀ d : Debt, ¬except d → ¬d.Owed h

/-- An operation that opens nothing. -/
def Quiet (o : Op) : Prop := ∀ (d : Debt) (ans : Ans o), ¬d.Opens ⟨o, ans⟩

variable {o : Op}

theorem Settled.concat {a : Ans o} (hsettled : Settled except h) (hquiet : Quiet o) :
    Settled except (h ++ [⟨o, a⟩]) := by
  intro d hexcept howed
  obtain hopens | ⟨howed, -⟩ := Debt.owed_concat.1 howed
  · exact hquiet d a hopens
  · exact hsettled d hexcept howed

theorem Settled.settle {except except' : Debt → Prop} {h : Trace Op Ans} {e : Made}
    (hsettled : Settled except h) (hopens : ∀ d, ¬except' d → ¬d.Opens e)
    (hsettles : ∀ d, except d → ¬except' d → d.Settles e) : Settled except' (h ++ [e]) := by
  intro d hexcept' howed
  obtain hopened | ⟨howed, hnot⟩ := Debt.owed_concat.1 howed
  · exact hopens d hexcept' hopened
  · by_cases hexcept : except d
    · exact hnot (hsettles d hexcept hexcept')
    · exact hsettled d hexcept howed

/-- The sweep looks at the time that the call read, and what names a connection says that it is
connected. -/
def Contract (h : Trace Op Ans) : Op → Prop
  | .reconcile staleBefore => ∃ now,
  (⟨.now, now⟩ : Made) ∈ h ∧ staleBefore = now - daemonOfflineSweepMs
  | .hsetMeta fields => fields.connectionId.isSome → fields.connected = some true
  | _ => True

abbrev Does {α : Type} (p : Proc α) (Q : Trace Op Ans → α → Prop) (h : Trace Op Ans) : Prop :=
  p.Sat (fun _ _ => True) Contract Q h

/-- What is neither the sweep nor a write of the connection. -/
def Plain : Op → Prop
  | .reconcile _ => False
  | .hsetMeta fields => fields.connected = none ∧ fields.connectionId = none
  | .delLease => False
  | .setnxLease _ => False
  | .releaseLease _ => False
  | _ => True

theorem Plain.quiet (h : Plain o) : Quiet o := by
  rintro d ans hopens
  cases d with
  | nameConnection c => cases hopens; exact h
  | addOnline =>
    obtain ⟨fields, hconnected, heq⟩ := hopens
    cases heq
    rw [h.1] at hconnected
    cases hconnected
  | acquireLease => cases hopens; exact h
  | disconnect c => cases hopens; exact h
  | removeOnline =>
    obtain ⟨fields, hconnected, heq⟩ := hopens
    cases heq
    rw [h.1] at hconnected
    cases hconnected

theorem Plain.contract (h : Plain o) (tr : Trace Op Ans) : Contract tr o := by
  cases o with
  | reconcile staleBefore => exact absurd h id
  | hsetMeta fields =>
    intro hsome
    rw [h.2] at hsome
    cases hsome
  | _ => trivial

theorem does_of_plain {α : Type} {p : Proc α} (hp : p.Only Plain fun _ => True)
    (hsettled : Settled except h) :
    Does p (fun h _ => Settled except h) h := by
  have hsat := hp.sat (V := fun _ _ => True) (P := Contract) (K := Settled except)
    (fun h o hplain _ => hplain.contract h)
      (fun h o ans hplain hsettled => hsettled.concat hplain.quiet) hsettled
  exact hsat.mono fun h a hh => hh.1

theorem plain_putSnapshot (patch : SnapshotPatch) :
    (putSnapshot patch).Only Plain fun _ => True := by
  refine Prog.Only.bind (Q := fun _ => True) ?_ fun current _ => ?_
  · refine ⟨trivial, fun fromJson => ⟨trivial, fun hash => ⟨trivial, fun now => ?_⟩⟩⟩
    cases fromJson <;> cases hash <;> trivial
  · exact ⟨trivial, fun now => ⟨trivial, fun _ => ⟨⟨rfl, rfl⟩, fun _ => trivial⟩⟩⟩

theorem plain_timeOrNow (time : Option Time) : (timeOrNow time).Only Plain fun _ => True := by
  cases time with
  | none => exact ⟨trivial, fun _ => trivial⟩
  | some time => trivial

/-- Nothing is owed at all. -/
abbrev Clear (h : Trace Op Ans) : Prop := Settled (fun _ => False) h

theorem clear_nil : Clear [] := fun _ _ howed => not_since_nil howed

theorem quiet_reconcile (staleBefore : Time) : Quiet (.reconcile staleBefore) := by
  intro d ans hopens
  cases d with
  | addOnline => obtain ⟨fields, -, heq⟩ := hopens; cases heq
  | removeOnline => obtain ⟨fields, -, heq⟩ := hopens; cases heq
  | _ => cases hopens

theorem reconcileStalePresence_does (hclear : Clear h) :
    Does (reconcileStalePresence cell) (fun h _ => Clear h) h := by
  refine ⟨trivial, fun now _ => ⟨⟨now, mem_append_right _ mem_cons_self, rfl⟩, fun demoted _ => ?_⟩⟩
  have hclear' : Clear (h ++ [⟨.now, now⟩] ++ [⟨.reconcile (now - daemonOfflineSweepMs),
    demoted⟩]) :=
    (hclear.concat (Plain.quiet (o := .now) trivial)).concat (quiet_reconcile _)
  cases demoted with
  | false => exact hclear'
  | true => exact ⟨trivial, fun _ _ =>
      hclear'.concat (Plain.quiet (o := .setConnectedHint cell false) trivial)⟩

theorem goOffline_does {hash : Option Meta} {c : ConnectionId}
    (hsettled : Settled (fun d => except d ∨ hash.bind (·.connectionId) = some c ∧
    d = .disconnect c) h) :
    Does (goOffline hash c) (fun h _ => Settled except h) h := by
  rw [goOffline]
  split
  · refine ⟨fun hsome => (by cases hsome), fun _ _ => ⟨trivial, fun _ _ => ?_⟩⟩
    have hset : Settled (fun d => except d ∨ d = .removeOnline)
        (h ++ [⟨.hsetMeta { connected := some false }, ()⟩]) := by
      refine hsettled.settle (fun d hexcept hopens => ?_) fun d hexcept hexcept' => ?_
      · cases d with
        | removeOnline => exact hexcept (.inr rfl)
        | addOnline =>
          obtain ⟨fields, hconnected, heq⟩ := hopens
          cases heq
          cases hconnected
        | _ => cases hopens
      · obtain hexcept | ⟨-, rfl⟩ := hexcept
        · exact absurd (.inl hexcept) hexcept'
        · exact .inl ⟨_, rfl, rfl⟩
    refine hset.settle (fun d _ => Plain.quiet (o := .sremOnline) trivial d ()) fun d hexcept
      hexcept' => ?_
    obtain hexcept | rfl := hexcept
    · exact absurd hexcept hexcept'
    · exact rfl
  · rename_i hne
    exact fun d hexcept => hsettled d fun h => h.elim hexcept fun h => hne h.1

/-- A lease that was deleted is still to be acquired. -/
abbrev ToAcquire (d : Debt) : Prop := d = .acquireLease

theorem freeLease_does (existingHolder : Option ConnectionId) (hclear : Clear h) :
    Does (freeLease existingHolder)
    (fun h free => Settled ToAcquire h ∧ (free = false → Clear h)) h := by
  have hweak : ∀ {h}, Clear h → Settled ToAcquire h := fun hclear d _ => hclear d id
  cases existingHolder with
  | none => exact ⟨hweak hclear, fun hfree => (by cases hfree)⟩
  | some holder =>
    refine ⟨trivial, fun staleMeta _ => ⟨trivial, fun now _ => ?_⟩⟩
    have hclear' : Clear (h ++ [⟨.hgetallMeta, staleMeta⟩] ++ [⟨.now, now⟩]) :=
      (hclear.concat (Plain.quiet (o := .hgetallMeta) trivial)).concat
        (Plain.quiet (o := .now) trivial)
    change Prog.Sat _ _ _ (ite _ _ _) _
    split
    · exact ⟨hweak hclear', fun _ => hclear'⟩
    · refine ⟨trivial, fun _ _ => Prog.Sat.bind (Q := fun h _ => Settled ToAcquire h)
        (goOffline_does fun d hexcept howed => ?_) fun h _ hsettled => ?_⟩
      · obtain hopens | ⟨howed, -⟩ := Debt.owed_concat.1 howed
        · cases d with
          | acquireLease => exact hexcept (.inl rfl)
          | addOnline => obtain ⟨fields, -, heq⟩ := hopens; cases heq
          | removeOnline => obtain ⟨fields, -, heq⟩ := hopens; cases heq
          | _ => cases hopens
        · exact hclear' d id howed
      · exact ⟨hsettled, fun hfree => (by cases hfree)⟩

theorem storeConnection_does (params : AttachParams) (connectedAt : Time)
    (hsettled : Settled (fun d => d = .nameConnection c) h) :
    Does (storeConnection cell c params connectedAt) (fun h _ => Clear h) h := by
  refine ⟨trivial, fun keyLastUsedAt _ => ⟨fun _ => rfl, fun _ _ => ⟨trivial, fun _ _ => ?_⟩⟩⟩
  have hsettled' := hsettled.concat (a := keyLastUsedAt) (Plain.quiet (o := .now) trivial)
  have hnamed : Settled (fun d => d = .addOnline) _ := hsettled'.settle (e := ⟨.hsetMeta {
      connected := some true
      connectionId := some c
      remoteAddress := some (params.remoteAddress.getD "")
      connectedAt := some connectedAt
      lastSeenAt := some connectedAt
      lastInboundAt := some connectedAt
      keyLastUsedAt := some keyLastUsedAt }, ()⟩)
    (fun d hexcept hopens => by
      cases d with
      | addOnline => exact hexcept rfl
      | removeOnline =>
        obtain ⟨fields, hconnected, heq⟩ := hopens
        cases heq
        cases hconnected
      | _ => cases hopens)
    (fun d hexcept _ => by
      subst hexcept
      exact ⟨_, rfl, rfl⟩)
  have hadded : Clear _ := hnamed.settle (e := ⟨.saddOnline, ()⟩)
    (fun d _ => Plain.quiet (o := .saddOnline) trivial d ()) (fun d hexcept _ => hexcept ▸ rfl)
  refine (does_of_plain (plain_putSnapshot _) hadded).bind fun h _ hclear => ?_
  refine ⟨trivial, fun _ _ => ⟨trivial, fun _ _ => ?_⟩⟩
  exact (hclear.concat (Plain.quiet (o := .setConnectedHint cell true) trivial)).concat
    (Plain.quiet (o := .setLastInboundMs cell connectedAt) trivial)

theorem attachDaemonSocket_does (params : AttachParams) (hclear : Clear h) :
    Does (attachDaemonSocket cell c params) (fun h _ => Clear h) h := by
  refine (reconcileStalePresence_does cell hclear).bind fun h _ hclear => ?_
  refine (does_of_plain (plain_timeOrNow _) hclear).bind fun h connectedAt hclear => ?_
  refine ⟨trivial, fun existingHolder _ => ?_⟩
  have hclear' := hclear.concat (a := existingHolder) (Plain.quiet (o := .getLease) trivial)
  refine (freeLease_does existingHolder hclear').bind fun h free hfree => ?_
  cases free with
  | false => exact hfree.2 rfl
  | true =>
    refine ⟨trivial, fun acquired _ => ?_⟩
    have hacquired : Settled (fun d => acquired = true ∧ d = .nameConnection c)
        (h ++ [⟨.setnxLease c, acquired⟩]) := by
      refine hfree.1.settle (fun d hexcept hopens => ?_) fun d hexcept _ => ?_
      · cases d with
        | nameConnection c' =>
          cases hopens
          exact hexcept ⟨rfl, rfl⟩
        | addOnline => obtain ⟨fields, -, heq⟩ := hopens; cases heq
        | removeOnline => obtain ⟨fields, -, heq⟩ := hopens; cases heq
        | _ => cases hopens
      · subst hexcept
        exact ⟨c, acquired, rfl⟩
    cases acquired with
    | false => exact fun d _ => hacquired d fun h => Bool.false_ne_true h.1
    | true =>
      refine Prog.Sat.bind (storeConnection_does cell c params connectedAt fun d hexcept => ?_)
        fun h _ hclear => hclear
      exact hacquired d fun h => hexcept h.2

theorem detachDaemonSocket_does (hclear : Clear h) :
    Does (detachDaemonSocket cell c) (fun h _ => Clear h) h := by
  refine ⟨trivial, fun released _ => ?_⟩
  have hreleased : Settled (fun d => released = true ∧ d = .disconnect c)
    (h ++ [⟨.releaseLease c, released⟩]) := by
    refine hclear.settle (fun d hexcept hopens => ?_) fun d hexcept _ => hexcept.elim
    cases d with
    | disconnect c' =>
      cases hopens
      exact hexcept ⟨rfl, rfl⟩
    | addOnline => obtain ⟨fields, -, heq⟩ := hopens; cases heq
    | removeOnline => obtain ⟨fields, -, heq⟩ := hopens; cases heq
    | _ => cases hopens
  cases released with
  | false => exact fun d _ => hreleased d fun h => Bool.false_ne_true h.1
  | true =>
    refine ⟨trivial, fun hash _ => ?_⟩
    refine Prog.Sat.bind (Q := fun h _ => Clear h) (goOffline_does ?_) fun h _ hclear => ?_
    · refine hreleased.settle (fun d _ => Plain.quiet (o := .hgetallMeta) trivial d hash) fun d
        hexcept hexcept' => ?_
      obtain ⟨-, rfl⟩ := hexcept
      exact .inr ⟨hash, fun hnamed => hexcept' (.inr ⟨hnamed, rfl⟩), rfl⟩
    · exact ⟨trivial, fun _ _ =>
        hclear.concat (Plain.quiet (o := .setConnectedHint cell false) trivial)⟩

/-- The server is still to be added to the online set. -/
abbrev ToAdd (d : Debt) : Prop := d = .addOnline

theorem healConnected_does (hash : Option Meta) (hclear : Clear h) :
    Does (healConnected hash) (fun h _ => Settled ToAdd h) h := by
  rw [healConnected]
  split
  · refine ⟨fun hsome => (by cases hsome), fun _ _ => does_of_plain (plain_putSnapshot _) ?_⟩
    refine hclear.settle (fun d hexcept hopens => ?_) fun d hexcept _ => hexcept.elim
    cases d with
    | addOnline => exact hexcept rfl
    | removeOnline =>
      obtain ⟨fields, hconnected, heq⟩ := hopens
      cases heq
      cases hconnected
    | _ => cases hopens
  · exact fun d _ => hclear d id

theorem plain_putInboundSnapshot (bumpInbound : Option Time) :
    (putInboundSnapshot namedBuild bumpInbound).Only Plain fun _ => True := by
  rw [putInboundSnapshot]
  split
  · exact plain_putSnapshot _
  · trivial

theorem storeInbound_does (time : Time) (hash : Option Meta) (hclear : Clear h) :
    Does (storeInbound cell namedBuild time hash) (fun h _ => Clear h) h := by
  refine (healConnected_does hash hclear).bind fun h _ hsettled => ?_
  generalize (if shouldCoalesceLastSeenAt (hash.bind (·.lastInboundAt)) time then some time
    else none) = bumpInbound
  refine (does_of_plain (plain_putInboundSnapshot namedBuild bumpInbound) hsettled).bind fun h _
    hsettled => ?_
  have hfields : Plain (.hsetMeta (inboundFields namedBuild time hash bumpInbound)) := ⟨rfl, rfl⟩
  refine ⟨hfields.contract h, fun _ _ => ⟨trivial,
    fun _ _ => ⟨trivial, fun _ _ => ⟨trivial, fun _ _ => ?_⟩⟩⟩⟩
  have hadded : Clear _ := (hsettled.concat (a := ()) hfields.quiet).settle (e := ⟨.saddOnline, ()⟩)
    (fun d _ => Plain.quiet (o := .saddOnline) trivial d ()) (fun d hexcept _ => hexcept ▸ rfl)
  exact (hadded.concat (Plain.quiet (o := .setLastInboundMs cell time) trivial)).concat
    (Plain.quiet (o := .setConnectedHint cell true) trivial)

theorem recordInbound_does (params : InboundParams) (hclear : Clear h) :
    Does (recordInbound cell params) (fun h _ => Clear h) h := by
  refine (does_of_plain (plain_timeOrNow _) hclear).bind fun h time hclear => ?_
  refine ⟨trivial, fun hints _ => ?_⟩
  have hread := hclear.concat (a := hints) (Plain.quiet (o := .readHints cell) trivial)
  change Prog.Sat _ _ _ (ite _ _ _) _
  split
  · exact hread
  · refine ⟨trivial, fun hash _ => ?_⟩
    have hread' := hread.concat (a := hash) (Plain.quiet (o := .hgetallMeta) trivial)
    dsimp only [Prog.bind]
    split
    · exact hread'
    · exact storeInbound_does cell _ time hash hread'

/-- **A call that has ended owes nothing.** -/
theorem body_does (x : Call) : Does (body x) (fun h _ => Clear h) [] := by
  cases x with
  | attachDaemonSocket cell c params =>
    exact Prog.Sat.bind (attachDaemonSocket_does cell c params clear_nil) fun h _ hclear => hclear
  | detachDaemonSocket cell c => exact detachDaemonSocket_does cell c clear_nil
  | recordInbound cell params => exact recordInbound_does cell params clear_nil
  | reconcileStalePresence cell =>
    exact Prog.Sat.bind (reconcileStalePresence_does cell clear_nil) fun h _ hclear => hclear

/-! ## What is owed while calls run -/

/-- The fields give a time of the last inbound message. -/
def Meta.TouchesInbound (fields : Meta) : Prop :=
  fields.lastInboundAt ≠ none ∨ fields.lastSeenAt ≠ none ∨ fields.connectedAt ≠ none

/-- A connection is detached when its attach has named it in the meta hash. -/
def AfterAttach (w : World Op Ans Redis) : Op → Prop
  | .releaseLease c => ¬(Debt.nameConnection c).Owing w
  | _ => True

/-- What a call writes is what the lease says when it writes: that the server is offline while no
connection has the lease, that it is connected while one has it, and a time of the last message of a
server that is connected. -/
def Timely (w : World Op Ans Redis) : Op → Prop
  | .hsetMeta fields => (fields.connected = some false → w.state.lease = none) ∧
    (fields.connected = some true → w.state.lease.isSome ∧ ∀ c ∈ fields.connectionId,
    w.state.lease = some c) ∧
    (fields.connected = none → fields.TouchesInbound → w.state.lease = none ∨
    w.state.connected = some true)
  | .saddOnline => w.state.lease.isSome
  | .sremOnline => w.state.lease = none
  | _ => True

/-- What is not as the lease says, some call still has to write. -/
structure Kept (w : World Op Ans Redis) : Prop where
  named : ∀ c, w.state.lease = some c →
    w.state.connectionId = some c ∨ (Debt.nameConnection c).Owing w
  online : ∀ c, w.state.lease = some c → w.state.connected = some true →
    w.state.online = true ∨ Debt.addOnline.Owing w ∨ (Debt.nameConnection c).Owing w
  stale : ∀ c, w.state.lease = some c → w.state.connected ≠ some true →
    ¬w.state.Fresh ∨ (Debt.nameConnection c).Owing w
  free : w.state.lease = none → (w.state.connected = some false ∧ w.state.online = false) ∨
    Debt.acquireLease.Owing w ∨ (∃ c, w.state.connectionId = some c ∧ (Debt.disconnect c).Owing w) ∨
    (w.state.connected = some false ∧ Debt.removeOnline.Owing w)
  clock : ∀ i now, (⟨i, .now, now⟩ : Event Op Ans) ∈ w.log → now ≤ w.state.clock

theorem kept_init {s : Redis} (hs : Started s) :
    Kept (Config.init s : Config Op Ans Redis).world := by
  cases hs with
  | attached c lease connected connectionId online =>
    refine ⟨fun c' hc' => ?_, fun _ _ _ => .inl online, fun _ _ hne => absurd connected hne,
      fun hnone => ?_,
      fun _ _ hev => absurd hev not_mem_nil⟩
    · cases lease.symm.trans hc'
      exact .inl connectionId
    · cases lease.symm.trans hnone
  | detached lease connected online =>
    have hheld : ∀ {c} {p : Prop}, s.lease = some c → p := fun hc => (by cases lease.symm.trans hc)
    exact ⟨fun _ hc => hheld hc, fun _ hc => hheld hc, fun _ hc => hheld hc,
      fun _ => .inl ⟨connected, online⟩,
      fun _ _ hev => absurd hev not_mem_nil⟩

/-- An operation that may settle something. -/
def Settling : Op → Prop
  | .setnxLease _ => True
  | .hgetallMeta => True
  | .hsetMeta _ => True
  | .saddOnline => True
  | .sremOnline => True
  | _ => False

theorem settling_of_settles {d : Debt} {ans : Ans o} (h : d.Settles ⟨o, ans⟩) : Settling o := by
  cases d with
  | nameConnection c => obtain ⟨fields, -, heq⟩ := h; cases heq; trivial
  | addOnline => cases h; trivial
  | acquireLease => obtain ⟨c, acquired, heq⟩ := h; cases heq; trivial
  | disconnect c =>
    obtain ⟨fields, -, heq⟩ | ⟨hash, -, heq⟩ := h
    · cases heq; trivial
    · cases heq; trivial
  | removeOnline => cases h; trivial

section

variable {i : ℕ} {o : Op} {ans : Ans o} {w : World Op Ans Redis} {s' : Redis}

section

variable (hw : Kept w)
include hw

theorem Kept.push_clock (hclock : w.state.clock ≤ s'.clock)
    (hnow : ∀ now, (⟨o, ans⟩ : Made) = ⟨.now, now⟩ → now ≤ s'.clock) :
    ∀ j now, (⟨j, .now, now⟩ : Event Op Ans) ∈ (w.push i o ans s').log → now ≤ s'.clock := by
  intro j now hev
  obtain hev | hev := mem_append.1 hev
  · exact (hw.clock j now hev).trans hclock
  · obtain heq := mem_singleton.1 hev
    injection heq with _ ho hans
    subst ho
    exact hnow now (by rw [eq_of_heq hans])

theorem Kept.silent (hlease : s'.lease = w.state.lease) (hmeta : s'.metaHash = w.state.metaHash)
    (honline : s'.online = w.state.online) (hclock : s'.clock = w.state.clock)
    (hnow : ∀ now, (⟨o, ans⟩ : Made) = ⟨.now, now⟩ → now ≤ s'.clock)
    (hsettles : ∀ d : Debt, (∀ c, d = .disconnect c → w.state.connectionId = some c) →
    ¬d.Settles ⟨o, ans⟩) :
    Kept (w.push i o ans s') := by
  have hconnected : s'.connected = w.state.connected := congrArg (·.bind (·.connected)) hmeta
  have hconnection : s'.connectionId = w.state.connectionId :=
    congrArg (·.bind (·.connectionId)) hmeta
  have hpush : ∀ {d : Debt}, (∀ c, d ≠ .disconnect c) → d.Owing w → d.Owing (w.push i o ans s') :=
    fun hne howing => howing.push (hsettles _ fun c heq => absurd heq (hne c))
  refine ⟨fun c hc => ?_, fun c hc hyes => ?_, fun c hc hno => ?_, fun hnone => ?_,
    hw.push_clock hclock.ge hnow⟩
  · refine (hw.named c (hlease.symm.trans hc)).imp hconnection.trans (hpush fun c' heq =>
      (by cases heq))
  · refine (hw.online c (hlease.symm.trans hc) (hconnected.symm.trans hyes)).imp honline.trans
      (Or.imp ?_ ?_)
    · exact hpush fun c' heq => (by cases heq)
    · exact hpush fun c' heq => (by cases heq)
  · refine (hw.stale c (hlease.symm.trans hc) fun hyes => hno (hconnected.trans hyes)).imp
      (fun hstale hfresh => ?_)
      (hpush fun c' heq => (by cases heq))
    obtain ⟨inbound, hinbound, hlt⟩ := hfresh
    change inbound ∈ lastInbound s'.metaHash at hinbound
    change s'.clock - daemonOfflineSweepMs < inbound at hlt
    rw [hmeta] at hinbound
    rw [hclock] at hlt
    exact hstale ⟨inbound, hinbound, hlt⟩
  · obtain ⟨hno, hoff⟩ | howing | ⟨c, hc, howing⟩ | ⟨hno, howing⟩ :=
      hw.free (hlease.symm.trans hnone)
    · exact .inl ⟨hconnected.trans hno, honline.trans hoff⟩
    · exact .inr (.inl (hpush (fun c' heq => (by cases heq)) howing))
    · refine .inr (.inr (.inl ⟨c, hconnection.trans hc, howing.push (hsettles _ fun c' heq => ?_)⟩))
      cases heq
      exact hc
    · exact .inr (.inr (.inr ⟨hconnected.trans hno, hpush (fun c' heq => (by cases heq)) howing⟩))

theorem Kept.silent_of_not_settling (ho : ¬Settling o) (hlease : s'.lease = w.state.lease)
    (hmeta : s'.metaHash = w.state.metaHash) (honline : s'.online = w.state.online)
    (hclock : s'.clock = w.state.clock) (hnow : ∀ now, (⟨o, ans⟩ : Made) = ⟨.now, now⟩ →
    now ≤ s'.clock) :
    Kept (w.push i o ans s') :=
  hw.silent hlease hmeta honline hclock hnow fun _ _ hsettles => ho (settling_of_settles hsettles)

theorem Kept.setnxLease {c : ConnectionId} {acquired : Bool}
    (hexec : exec (.setnxLease c) w.state = (acquired, s')) :
    Kept (w.push i (.setnxLease c) acquired s') := by
  have hnow : ∀ now, (⟨.setnxLease c, acquired⟩ : Made) = ⟨.now, now⟩ → now ≤ s'.clock :=
    fun now heq => nomatch heq
  rw [exec] at hexec
  split at hexec
  · rename_i hheld
    cases hexec
    have hpush : ∀ {c'}, (Debt.nameConnection c').Owing w →
        (Debt.nameConnection c').Owing (w.push i (.setnxLease c) false w.state) :=
      fun howing => howing.push fun ⟨_, _, heq⟩ => nomatch heq
    refine ⟨fun c' hc' => (hw.named c' hc').imp_right hpush,
      fun c' hc' hyes => ?_, fun c' hc' hno =>
      (hw.stale c' hc' hno).imp_right hpush, fun hnone => ?_, hw.push_clock le_rfl hnow⟩
    · exact (hw.online c' hc' hyes).imp_right (Or.imp (fun howing => howing.push fun heq =>
        nomatch heq) hpush)
    · exact absurd hheld (by rw [show w.state.lease = none from hnone]; exact Bool.false_ne_true)
  · cases hexec
    have howing : ∀ {c'}, some c = some c' → (Debt.nameConnection c').Owing
        (w.push i (.setnxLease c) true { w.state with lease := some c }) := by
      intro c' hc'
      cases hc'
      exact Debt.owing_of_opens rfl
    exact ⟨fun c' hc' => .inr (howing hc'), fun c' hc' _ => .inr (.inr (howing hc')),
      fun c' hc' _ => .inr (howing hc'), fun hnone => (by cases hnone), hw.push_clock le_rfl hnow⟩

theorem Kept.releaseLease {c : ConnectionId} {released : Bool}
    (hafter : AfterAttach w (.releaseLease c))
    (hexec : exec (.releaseLease c) w.state = (released, s')) :
    Kept (w.push i (.releaseLease c) released s') := by
  have hnow : ∀ now, (⟨.releaseLease c, released⟩ : Made) = ⟨.now, now⟩ → now ≤ s'.clock :=
    fun now heq => nomatch heq
  rw [exec] at hexec
  split at hexec
  · rename_i hlease
    cases hexec
    have hnamed : w.state.connectionId = some c := (hw.named c hlease).resolve_right hafter
    exact ⟨fun _ hc => (by cases hc), fun _ hc => (by cases hc), fun _ hc => (by cases hc),
      fun _ => .inr (.inr (.inl ⟨c, hnamed, Debt.owing_of_opens rfl⟩)), hw.push_clock le_rfl hnow⟩
  · cases hexec
    exact hw.silent_of_not_settling id rfl rfl rfl rfl hnow

theorem Kept.delLease : Kept (w.push i .delLease () { w.state with lease := none }) :=
  ⟨fun _ hc => (by cases hc), fun _ hc => (by cases hc), fun _ hc => (by cases hc),
    fun _ => .inr (.inl (Debt.owing_of_opens rfl)), hw.push_clock le_rfl fun _ heq => nomatch heq⟩

theorem Kept.saddOnline (htimely : Timely w .saddOnline) :
    Kept (w.push i .saddOnline () { w.state with online := true }) := by
  have hpush : ∀ {c}, (Debt.nameConnection c).Owing w →
      (Debt.nameConnection c).Owing (w.push i .saddOnline () { w.state with online := true }) :=
    fun howing => howing.push fun ⟨_, _, heq⟩ => nomatch heq
  refine ⟨fun c hc => (hw.named c hc).imp_right hpush, fun _ _ _ => .inl rfl,
    fun c hc hno => (hw.stale c hc hno).imp_right hpush, fun hnone => ?_,
    hw.push_clock le_rfl fun now heq => nomatch heq⟩
  rw [Timely, show w.state.lease = none from hnone] at htimely
  cases htimely

theorem Kept.sremOnline (htimely : Timely w .sremOnline) :
    Kept (w.push i .sremOnline () { w.state with online := false }) := by
  have hheld : ∀ {c} {p : Prop}, w.state.lease = some c → p := fun hc =>
    (by cases htimely.symm.trans hc)
  refine ⟨fun _ hc => hheld hc, fun _ hc => hheld hc, fun _ hc => hheld hc, fun hnone => ?_,
    hw.push_clock le_rfl fun now heq => nomatch heq⟩
  obtain ⟨hno, -⟩ | howing | ⟨c, hc, howing⟩ | ⟨hno, -⟩ := hw.free hnone
  · exact .inl ⟨hno, rfl⟩
  · exact .inr (.inl (howing.push fun ⟨_, _, heq⟩ => nomatch heq))
  · refine .inr (.inr (.inl ⟨c, hc, howing.push fun hsettles => ?_⟩))
    obtain ⟨_, -, heq⟩ | ⟨_, -, heq⟩ := hsettles
    · cases heq
    · cases heq
  · exact .inl ⟨hno, rfl⟩

theorem Kept.reconcile {staleBefore : Time} {demoted : Bool}
    (hbefore : staleBefore ≤ w.state.clock - daemonOfflineSweepMs)
    (hexec : exec (.reconcile staleBefore) w.state = (demoted, s')) :
    Kept (w.push i (.reconcile staleBefore) demoted s') := by
  have hnow : ∀ {s : Redis} now, (⟨.reconcile staleBefore, demoted⟩ : Made) = ⟨.now, now⟩ →
    now ≤ s.clock :=
    fun now heq => nomatch heq
  have hpush : ∀ {d : Debt} {s : Redis}, d.Owing w →
    d.Owing (w.push i (.reconcile staleBefore) demoted s) :=
    fun howing => howing.push fun hsettles => settling_of_settles hsettles
  -- The server is taken out of the online set, where the hash does not say that it is connected.
  have hremoved : w.state.connected ≠ some true →
      Kept (w.push i (.reconcile staleBefore) demoted { w.state with online := false }) := by
    intro hno
    refine ⟨fun c hc => (hw.named c hc).imp_right hpush, fun c hc hyes => absurd hyes hno,
      fun c hc hno => (hw.stale c hc hno).imp_right hpush, fun hnone =>
        ?_, hw.push_clock le_rfl hnow⟩
    obtain ⟨hoff, -⟩ | howing | ⟨c, hc, howing⟩ | ⟨hoff, -⟩ := hw.free hnone
    · exact .inl ⟨hoff, rfl⟩
    · exact .inr (.inl (hpush howing))
    · exact .inr (.inr (.inl ⟨c, hc, hpush howing⟩))
    · exact .inl ⟨hoff, rfl⟩
  rw [exec, reconcileStaleSocketPresence] at hexec
  split at hexec
  · cases hexec
    exact hw.silent_of_not_settling id rfl rfl rfl rfl hnow
  · by_cases hyes : w.state.connected = some true
    · rw [if_pos hyes] at hexec
      dsimp only at hexec
      split at hexec
      · cases hexec
        exact hw.silent_of_not_settling id rfl rfl rfl rfl hnow
      · rename_i hdemote
        cases hexec
        refine ⟨fun c hc => (hw.named c hc).imp (fun hnamed => ?_) hpush,
          fun c hc hyes => (by cases hyes),
          fun c hc _ => .inl fun ⟨inbound, hinbound, hlt⟩ => ?_, fun _ => .inl ⟨rfl, rfl⟩,
          hw.push_clock le_rfl hnow⟩
        · obtain ⟨hash, hhash, hid⟩ := bind_eq_some_iff.1 hnamed
          change ((w.state.metaHash.getD {}).hset _).connectionId = _
          rw [hhash]
          exact hid
        · -- The sweep saw no newer message than it allows.
          refine hdemote ⟨isSome_iff_exists.2 ⟨c, hc⟩, ?_⟩
          have hsame : inbound ∈ lastInbound w.state.metaHash := by
            obtain ⟨hash, hhash, -⟩ := bind_eq_some_iff.1 hyes
            change lastInbound (some ((w.state.metaHash.getD {}).hset _)) = some inbound at hinbound
            rw [hhash] at hinbound ⊢
            exact hinbound
          rw [hsame, any_some, decide_eq_true_iff]
          exact lt_of_le_of_lt hbefore hlt
    · rw [if_neg hyes] at hexec
      dsimp only at hexec
      split at hexec
      · cases hexec
        exact hremoved hyes
      · rw [if_neg (show ¬Redis.connected { w.state with online := false } =
          some true from hyes)] at hexec
        cases hexec
        exact hremoved hyes

end

theorem Redis.connected_hset (s : Redis) (fields : Meta) :
    (s.hset fields).connected = (fields.connected <|> s.connected) := by
  rw [Redis.connected, Redis.hset, bind_some, Meta.hset, Redis.connected]
  cases s.metaHash <;> rfl

theorem Redis.connectionId_hset (s : Redis) (fields : Meta) :
    (s.hset fields).connectionId = (fields.connectionId <|> s.connectionId) := by
  rw [Redis.connectionId, Redis.hset, bind_some, Meta.hset, Redis.connectionId]
  cases s.metaHash <;> rfl

variable {fields : Meta}

theorem lastInbound_hset {s : Redis} (h : ¬fields.TouchesInbound) :
    lastInbound (s.hset fields).metaHash = lastInbound s.metaHash := by
  rw [Meta.TouchesInbound] at h
  push Not at h
  obtain ⟨hinbound, hseen, hat⟩ := h
  rw [Redis.hset, lastInbound, bind_some, Meta.hset, hinbound, hseen, hat, lastInbound]
  cases s.metaHash <;> rfl

theorem Kept.hset_disconnected (hw : Kept w) (hfields : fields.connected = some false)
    (hlease : w.state.lease = none) :
    Kept (w.push i (.hsetMeta fields) () (w.state.hset fields)) := by
  have hheld : ∀ {c} {p : Prop}, w.state.lease = some c → p := fun hc =>
    (by cases hlease.symm.trans hc)
  refine ⟨fun _ hc => hheld hc, fun _ hc => hheld hc, fun _ hc => hheld hc, fun _ => ?_,
    hw.push_clock le_rfl fun now heq => nomatch heq⟩
  refine .inr (.inr (.inr ⟨?_, Debt.owing_of_opens ⟨fields, hfields, rfl⟩⟩))
  change (w.state.hset fields).connected = _
  rw [Redis.connected_hset, hfields]
  rfl

theorem Kept.hset_connected (hw : Kept w) (hfields : fields.connected = some true)
    (hlease : w.state.lease.isSome) (hnames : ∀ c ∈ fields.connectionId, w.state.lease = some c) :
    Kept (w.push i (.hsetMeta fields) () (w.state.hset fields)) := by
  have hyes : (w.state.hset fields).connected = some true := by
    rw [Redis.connected_hset, hfields]
    rfl
  refine ⟨fun c hc => ?_, fun _ _ _ => .inr (.inl (Debt.owing_of_opens ⟨fields, hfields, rfl⟩)),
    fun _ _ hno => absurd hyes hno, fun hnone => ?_, hw.push_clock le_rfl fun now heq =>
      nomatch heq⟩
  · change (w.state.hset fields).connectionId = some c ∨ _
    rw [Redis.connectionId_hset]
    cases hid : fields.connectionId with
    | some c' =>
      obtain rfl := Option.some.inj ((hnames c' hid).symm.trans hc)
      exact .inl rfl
    | none =>
      refine (hw.named c hc).imp id fun howing => howing.push ?_
      rintro ⟨fields', hsome, heq⟩
      cases heq
      rw [hid] at hsome
      cases hsome
  · rw [show w.state.lease = none from hnone] at hlease
    cases hlease

theorem Kept.hset_other (hw : Kept w) (hfields : fields.connected = none)
    (hid : fields.connectionId = none)
    (htouches : fields.TouchesInbound → w.state.lease = none ∨ w.state.connected = some true) :
    Kept (w.push i (.hsetMeta fields) () (w.state.hset fields)) := by
  have hconnected : (w.state.hset fields).connected = w.state.connected := by
    rw [Redis.connected_hset, hfields]
    rfl
  have hconnection : (w.state.hset fields).connectionId = w.state.connectionId := by
    rw [Redis.connectionId_hset, hid]
    rfl
  have hpush : ∀ {d : Debt}, d.Owing w →
    d.Owing (w.push i (.hsetMeta fields) () (w.state.hset fields)) := by
    refine fun {d} howing => howing.push fun hsettles => ?_
    cases d with
    | nameConnection c =>
      obtain ⟨fields', hsome, heq⟩ := hsettles
      cases heq
      rw [hid] at hsome
      cases hsome
    | addOnline => cases hsettles
    | acquireLease => obtain ⟨_, _, heq⟩ := hsettles; cases heq
    | disconnect c =>
      obtain ⟨fields', hno, heq⟩ | ⟨_, -, heq⟩ := hsettles
      · cases heq
        rw [hfields] at hno
        cases hno
      · cases heq
    | removeOnline => cases hsettles
  refine ⟨fun c hc => (hw.named c hc).imp hconnection.trans hpush, fun c hc hyes => ?_,
    fun c hc hno => ?_,
    fun hnone => ?_, hw.push_clock le_rfl fun now heq => nomatch heq⟩
  · exact (hw.online c hc (hconnected.symm.trans hyes)).imp id (Or.imp hpush hpush)
  · have hno' : w.state.connected ≠ some true := fun hyes => hno (hconnected.trans hyes)
    refine (hw.stale c hc hno').imp (fun hstale ⟨inbound, hinbound, hlt⟩ => hstale ⟨inbound,
      ?_, hlt⟩) hpush
    have hsame : ¬fields.TouchesInbound := fun htouch => by
      obtain hnone | hyes := htouches htouch
      · cases hnone.symm.trans hc
      · exact hno' hyes
    exact lastInbound_hset hsame ▸ hinbound
  · obtain ⟨hno, hoff⟩ | howing | ⟨c, hc, howing⟩ | ⟨hno, howing⟩ := hw.free hnone
    · exact .inl ⟨hconnected.trans hno, hoff⟩
    · exact .inr (.inl (hpush howing))
    · exact .inr (.inr (.inl ⟨c, hconnection.trans hc, hpush howing⟩))
    · exact .inr (.inr (.inr ⟨hconnected.trans hno, hpush howing⟩))

theorem Kept.wait (hw : Kept w) (ms : ℕ) :
    Kept { w with state := { w.state with clock := w.state.clock + ms } } := by
  have hle : w.state.clock ≤ w.state.clock + ms :=
    Int.le_add_of_nonneg_right (Int.natCast_nonneg ms)
  refine ⟨hw.named, hw.online,
    fun c hc hno => (hw.stale c hc hno).imp_left fun hstale hfresh => ?_, hw.free,
    fun j now hev => (hw.clock j now hev).trans hle⟩
  obtain ⟨inbound, hinbound, hlt⟩ := hfresh
  exact hstale ⟨inbound, hinbound, lt_of_le_of_lt (Int.sub_le_sub_right hle _) hlt⟩

/-- **One command keeps what is owed.** -/
theorem Kept.push (hw : Kept w) (hafter : AfterAttach w o) (htimely : Timely w o)
    (hcontract : Contract (own i w.log) o) (hexec : exec o w.state = (ans, s')) :
    Kept (w.push i o ans s') := by
  cases o with
  | now =>
    cases hexec
    refine hw.silent_of_not_settling id rfl rfl rfl rfl fun now heq => ?_
    cases heq
    exact le_rfl
  | setnxLease c => exact hw.setnxLease hexec
  | releaseLease c => exact hw.releaseLease hafter hexec
  | delLease =>
    cases hexec
    exact hw.delLease
  | reconcile staleBefore =>
    obtain ⟨now, hnow, rfl⟩ := hcontract
    exact hw.reconcile (Int.sub_le_sub_right (hw.clock i now (mem_own.1 hnow)) _) hexec
  | hgetallMeta =>
    cases hexec
    refine hw.silent rfl rfl rfl rfl (fun now heq => nomatch heq) fun d hd hsettles => ?_
    cases d with
    | disconnect c =>
      obtain ⟨_, -, heq⟩ | ⟨hash, hne, heq⟩ := hsettles
      · cases heq
      · cases heq
        exact hne (hd c rfl)
    | nameConnection c => obtain ⟨_, -, heq⟩ := hsettles; cases heq
    | acquireLease => obtain ⟨_, _, heq⟩ := hsettles; cases heq
    | _ => cases hsettles
  | hsetMeta fields =>
    cases hexec
    cases hfields : fields.connected with
    | none =>
      refine hw.hset_other hfields ?_ (htimely.2.2 hfields)
      cases hid : fields.connectionId with
      | none => rfl
      | some c =>
        have := hcontract (by rw [hid]; rfl)
        rw [hfields] at this
        cases this
    | some connected =>
      cases connected with
      | true => exact hw.hset_connected hfields (htimely.2.1 hfields).1 (htimely.2.1 hfields).2
      | false => exact hw.hset_disconnected hfields (htimely.1 hfields)
  | saddOnline =>
    cases hexec
    exact hw.saddOnline htimely
  | sremOnline =>
    cases hexec
    exact hw.sremOnline htimely
  | _ =>
    cases hexec
    exact hw.silent_of_not_settling id rfl rfl rfl rfl fun now heq => nomatch heq

end

/-! ## All calls have ended -/

theorem Kept.presence {w : World Op Ans Redis} (hw : Kept w) (hnone : ∀ d : Debt, ¬d.Owing w) :
    Presence w.state := by
  refine ⟨fun c hc hfresh => ?_, fun hfree => ?_⟩
  · have hyes : w.state.connected = some true := by
      by_contra hno
      exact (hw.stale c hc hno).elim (absurd hfresh) (hnone _)
    refine ⟨hyes, (hw.named c hc).resolve_right (hnone _), ?_⟩
    exact (hw.online c hc hyes).resolve_right fun h => h.elim (hnone _) (hnone _)
  · obtain h | howing | ⟨c, -, howing⟩ | ⟨-, howing⟩ := hw.free hfree
    · exact h
    · exact absurd howing (hnone _)
    · exact absurd howing (hnone _)
    · exact absurd howing (hnone _)

/-- **A closing socket does not take a newer one offline.** In every run of the calls, at the
granularity of single commands, in which each write is what the lease says when it is made: when all
calls have ended, the meta hash and the online set say what the lease says. -/
theorem timely_presence {s : Redis} (hs : Started s) {choices : List (Choice ℕ Call)}
    (hcrash : ∀ i, Choice.crash i ∉ choices)
    (hmeets : Meets machine body (fun _ w o => AfterAttach w o ∧ Timely w o)
    (Config.init s) choices)
    (hfinished : ((Config.init s).run machine body choices).Finished) :
    Presence ((Config.init s).run machine body choices).world.state := by
  have hkept : Obeys (fun _ _ => True) Contract ((Config.init s).run machine body choices) ∧
      Kept ((Config.init s).run machine body choices).world := Config.run_inv
    (fun {i ms o w ans s'} (hw : Kept w) (hok : AfterAttach w o ∧ Timely w o) hcontract hexec => by
      exact (hw.wait ms).push hok.1 hok.2 hcontract (Option.some.inj hexec))
    (fun hw => hw) (fun x => (body_does x).mono fun _ _ _ => trivial) (fun _ => trivial)
    (obeys_init s) (kept_init hs) hmeets
  have hpromises := Config.run_promises (M := machine) body_does (fun _ => trivial)
    (promises_init s) hcrash
  refine hkept.2.presence fun d ⟨i, howed⟩ => ?_
  have hne : own i ((Config.init s).run machine body choices).world.log ≠ [] := fun hnil => by
    rw [Debt.Owed, hnil] at howed
    exact not_since_nil howed
  exact hpromises.ended hfinished hne d id howed

/-! ## Runs on one server -/

theorem not_owing_nameConnection {w : World Op Ans Redis} {c : ConnectionId}
    (h : ∀ j, (⟨j, .setnxLease c, true⟩ : Event Op Ans) ∉ w.log) :
    ¬(Debt.nameConnection c).Owing w := by
  rintro ⟨j, before, ev, after, hlog, rfl, -⟩
  refine h j (mem_own.1 ?_)
  rw [hlog]
  exact mem_append_right _ mem_cons_self

/-- Connection `1` is attached. -/
def attachedServer : Redis where
  lease := some 1
  metaHash := some {
    connected := some true
    connectionId := some 1
    connectedAt := some 0
    lastSeenAt := some 0
    lastInboundAt := some 0 }
  snapshot := none
  online := true
  hints _ := {}
  clock := 1000

theorem started_attachedServer : Started attachedServer := .attached 1 rfl rfl rfl rfl

/-- While the new connection is attached, the old one is detached: it has let go of the lease when
the new one reads it, and its hint comes after the new one is in the online set. -/
def detachBesideAttach : List (Choice ℕ Call) :=
  [.call (.attachDaemonSocket 0 2 {}), .call (.detachDaemonSocket 0 1)] ++
    List.replicate 3 (.step 0 0) ++
    List.replicate 4 (.step 1 0) ++ List.replicate 5 (.step 0 0) ++ .step 1 0 ::
      List.replicate 8 (.step 0 0)

theorem detachBesideAttach_presence :
    ((Config.init attachedServer).run machine body detachBesideAttach).world.state.lease = some 2 ∧
      Presence ((Config.init attachedServer).run machine body detachBesideAttach).world.state := by
  refine ⟨rfl, timely_presence started_attachedServer (by simp [detachBesideAttach]) ?_ ?_⟩
  · refine meets_call _ _ (meets_call _ _ ?_)
    iterate 3 refine meets_step _ _ rfl ⟨trivial, trivial⟩ ?_
    refine meets_step _ _ rfl ⟨not_owing_nameConnection fun j hev => ?_, trivial⟩ ?_
    · obtain _ | ⟨_, _ | ⟨_, _ | ⟨_, hev⟩⟩⟩ := hev
      cases hev
    · refine meets_step _ _ rfl ⟨trivial, trivial⟩ (meets_step _ _ rfl ⟨trivial, ?_⟩ ?_)
      · exact ⟨fun _ => rfl, fun h => (by cases h), fun h => (by cases h)⟩
      · refine meets_step _ _ rfl ⟨trivial, rfl⟩ ?_
        iterate 3 refine meets_step _ _ rfl ⟨trivial, trivial⟩ ?_
        refine meets_step _ _ rfl ⟨trivial, ?_⟩ (meets_step _ _ rfl ⟨trivial, rfl⟩ ?_)
        · exact ⟨fun h => (by cases h), fun _ => ⟨rfl, fun c hc => hc⟩, fun h => (by cases h)⟩
        · iterate 6 refine meets_step _ _ rfl ⟨trivial, trivial⟩ ?_
          refine meets_step _ _ rfl ⟨trivial, ?_⟩ ?_
          · exact ⟨fun h => (by cases h), fun h => (by cases h), fun _ _ => .inr rfl⟩
          · exact meets_step _ _ rfl ⟨trivial, trivial⟩ (meets_step _ _ rfl ⟨trivial,
              trivial⟩ trivial)
  · intro p hp
    have hthreads : ((Config.init attachedServer).run machine body detachBesideAttach).threads =
        [.pure (), .pure ()] := rfl
    rw [hthreads] at hp
    simpa using hp

/-- In this run all calls end, and the meta hash or the online set does not say what the lease says.
-/
def BreaksPresence (s : Redis) (choices : List (Choice ℕ Call)) : Prop :=
  Started s ∧ (∀ i, Choice.crash i ∉ choices) ∧
    Meets machine body (fun _ w o => AfterAttach w o) (Config.init s) choices ∧
    ((Config.init s).run machine body choices).Finished ∧
    ¬Presence ((Config.init s).run machine body choices).world.state

/-- The old connection is detached; between its read of the meta hash and its write, the new one is
attached. -/
def attachWithinDetach : List (Choice ℕ Call) :=
  [.call (.detachDaemonSocket 0 1), .call (.attachDaemonSocket 0 2 {})] ++
    List.replicate 2 (.step 0 0) ++
    List.replicate 17 (.step 1 0) ++ List.replicate 3 (.step 0 0)

/-- A message of the old connection is recorded; between the read of the meta hash and the write to
the online set, the connection is detached. -/
def detachWithinInbound : List (Choice ℕ Call) :=
  [.call (.recordInbound 0 { connectionId := some 1 }), .call (.detachDaemonSocket 0 1)] ++
    List.replicate 3 (.step 0 0) ++ List.replicate 5 (.step 1 0) ++ List.replicate 4 (.step 0 0)

theorem late_writes_break_presence :
    BreaksPresence attachedServer attachWithinDetach ∧
    BreaksPresence attachedServer detachWithinInbound := by
  refine ⟨⟨started_attachedServer, by simp [attachWithinDetach], ?_, ?_, fun hpresence => ?_⟩,
    ⟨started_attachedServer, by simp [detachWithinInbound], ?_, ?_, fun hpresence => ?_⟩⟩
  · refine meets_call _ _ (meets_call _ _ (meets_step _ _ rfl ?_ ?_))
    · exact not_owing_nameConnection fun j hev => absurd hev not_mem_nil
    · iterate 21 refine meets_step _ _ rfl trivial ?_
      trivial
  · intro p hp
    have hthreads : ((Config.init attachedServer).run machine body attachWithinDetach).threads =
        [.pure (), .pure ()] := rfl
    rw [hthreads] at hp
    simpa using hp
  · have hheld := (hpresence.held 2 rfl ⟨1000, rfl, by decide⟩).1
    cases (show some false = some true from hheld)
  · refine meets_call _ _ (meets_call _ _ ?_)
    iterate 3 refine meets_step _ _ rfl trivial ?_
    refine meets_step _ _ rfl ?_ ?_
    · refine not_owing_nameConnection fun j hev => ?_
      change _ ∈ [_, _, _] at hev
      simp at hev
    · iterate 8 refine meets_step _ _ rfl trivial ?_
      trivial
  · intro p hp
    have hthreads : ((Config.init attachedServer).run machine body detachWithinInbound).threads =
        [.pure (), .pure ()] := rfl
    rw [hthreads] at hp
    simpa using hp
  · have hfree := (hpresence.free rfl).2
    cases (show true = false from hfree)

end TurboPanel.DaemonCell
