import TurboPanel.Data.WholeRuns
import TurboPanel.Daemon.SocketLease

/-!
# Presence after whole calls

The calls on one cell, one after the other. Each leaves the online set as the meta hash says and the
lease with the connection that the hash names (`Consistent`), whatever the branches it takes. An
attach that is refused changes nothing, and one that is not found no holder whose last inbound
message, as the hash has it, is younger than `daemonStaleMs` (`presence_consistent`).
-/

namespace TurboPanel.DaemonCell

open Interleaving

/-! ## The calls -/

def reclaimOrphanedSocketLeaseOnStartup : Proc Unit := do
  let holder ← ask .getLease
  match holder with
  | none => pure ()
  | some holder => do
    ask .delLease
    let hash ← ask .hgetallMeta
    if hash.bind (·.connectionId) = some holder ∧ hash.bind (·.connected) = some true then do
      ask (.hsetMeta { connected := some false })
      ask .sremOnline
    else pure ()

/-- `purge`: the keys of the cell are deleted, and the server is taken out of the online set. -/
def Redis.purge (s : Redis) : Redis :=
  { s with lease := none, metaHash := none, snapshot := none, online := false }

abbrev Alone {α : Type} (p : Proc α) (s : Redis) (a : α) (s' : Redis) : Prop := p.Alone machine 0 s a s'

/-- A call from its first to its last command. -/
inductive Happens (cell : CellId) (s : Redis) : Redis → Prop
  | attach {c : ConnectionId} {params : AttachParams} {r : Except String ConnectionId} {s' : Redis}
      (runs : Alone (attachDaemonSocket cell c params) s r s') : Happens cell s s'
  | detach {c : ConnectionId} {s' : Redis} (runs : Alone (detachDaemonSocket cell c) s () s') : Happens cell s s'
  | inbound {params : InboundParams} {s' : Redis} (runs : Alone (recordInbound cell params) s () s') :
      Happens cell s s'
  | reconcile {demoted : Bool} {s' : Redis} (runs : Alone (reconcileStalePresence cell) s demoted s') :
      Happens cell s s'
  | reclaim {s' : Redis} (runs : Alone reclaimOrphanedSocketLeaseOnStartup s () s') : Happens cell s s'
  | purge (ms : ℕ) : Happens cell s { s.purge with clock := s.clock + ms }

/-- What whole calls lead to from an empty store; the clock goes on in between. -/
inductive Reached (cell : CellId) : Redis → Prop
  | empty {s : Redis} (lease : s.lease = none) (metaHash : s.metaHash = none) (snapshot : s.snapshot = none)
      (online : s.online = false) : Reached cell s
  | next {s s' : Redis} (reached : Reached cell s) (happens : Happens cell s s') : Reached cell s'

/-! ## Commands -/

variable {s s' : Redis} {cell : CellId} {hash : Option Meta} {c : ConnectionId}

theorem alone_ask {o : Op} {a : Ans o} :
    Alone (ask o) s a s' ↔ ∃ ms : ℕ, exec o { s with clock := s.clock + ms } = (a, s') := by
  exact Prog.alone_call.trans (exists_congr fun ms => ⟨Option.some.inj, congrArg some⟩)

theorem le_clock (s : Redis) (ms : ℕ) : s.clock ≤ s.clock + ms :=
  le_add_of_nonneg_right (Int.natCast_nonneg ms)

/-- Nothing that the calls look at is changed. -/
structure Untouched (s s' : Redis) : Prop where
  lease : s'.lease = s.lease
  metaHash : s'.metaHash = s.metaHash
  online : s'.online = s.online
  clock : s.clock ≤ s'.clock

theorem Untouched.trans {s s' s'' : Redis} (h : Untouched s s') (h' : Untouched s' s'') : Untouched s s'' :=
  ⟨h'.lease.trans h.lease, h'.metaHash.trans h.metaHash, h'.online.trans h.online, h.clock.trans h'.clock⟩

/-- The presence is not changed. -/
structure SamePresence (s s' : Redis) : Prop where
  lease : s'.lease = s.lease
  connected : s'.connected = s.connected
  connectionId : s'.connectionId = s.connectionId
  online : s'.online = s.online
  clock : s.clock ≤ s'.clock

theorem Untouched.samePresence (h : Untouched s s') : SamePresence s s' :=
  ⟨h.lease, by rw [Redis.connected, h.metaHash]; rfl, by rw [Redis.connectionId, h.metaHash]; rfl, h.online, h.clock⟩

theorem SamePresence.trans {s s' s'' : Redis} (h : SamePresence s s') (h' : SamePresence s' s'') :
    SamePresence s s'' :=
  ⟨h'.lease.trans h.lease, h'.connected.trans h.connected, h'.connectionId.trans h.connectionId,
    h'.online.trans h.online, h.clock.trans h'.clock⟩

/-- What only reads, and what writes the hints of a cell. -/
def Silent : Op → Prop
  | .now | .readHints _ | .setConnectedHint _ _ | .setLastInboundMs _ _ | .getLease | .hgetallMeta | .getSnapshot
  | .setSnapshot _ => True
  | _ => False

theorem Silent.untouched {o : Op} (h : Silent o) {a : Ans o} (hrun : Alone (ask o) s a s') :
    Untouched s s' := by
  obtain ⟨ms, hexec⟩ := alone_ask.1 hrun
  have hclock := le_clock s ms
  cases o <;> first
    | exact absurd h id
    | (obtain ⟨-, rfl⟩ := Prod.mk.inj hexec; exact ⟨rfl, rfl, rfl, hclock⟩)

/-- What leaves the presence as it is. -/
inductive BesidePresence : Op → Prop
  | silent {o : Op} (silent : Silent o) : BesidePresence o
  | fields {fields : Meta} (connected : fields.connected = none) (connectionId : fields.connectionId = none) :
      BesidePresence (.hsetMeta fields)

theorem BesidePresence.samePresence {o : Op} (h : BesidePresence o) {a : Ans o} (hrun : Alone (ask o) s a s') :
    SamePresence s s' := by
  cases h with
  | silent hsilent => exact (hsilent.untouched hrun).samePresence
  | fields hconnected hid =>
    obtain ⟨ms, hexec⟩ := alone_ask.1 hrun
    cases hexec
    refine ⟨rfl, ?_, ?_, rfl, le_clock s ms⟩
    · rw [Redis.connected_hset, hconnected]
      rfl
    · rw [Redis.connectionId_hset, hid]
      rfl

theorem samePresence_of_only {α : Type} {p : Proc α} {Q : α → Prop} (hp : p.Only BesidePresence Q) {a : α}
    (hrun : Alone p s a s') : SamePresence s s' := by
  have hexec : ∀ {o e s ans s'}, BesidePresence o → machine.exec 0 e o s = some (ans, s') → SamePresence s s' :=
    fun ho hexec => ho.samePresence (Prog.alone_call.2 ⟨_, hexec⟩)
  exact (hp.alone (R := SamePresence) (fun s => ⟨rfl, rfl, rfl, rfl, le_rfl⟩) SamePresence.trans hexec hrun).1

theorem besidePresence_putSnapshot (patch : SnapshotPatch) :
    (putSnapshot patch).Only BesidePresence fun _ => True := by
  refine Prog.Only.bind (Q := fun _ => True) ?_ fun current _ => ?_
  · refine ⟨.silent trivial, fun fromJson => ⟨.silent trivial, fun hash => ⟨.silent trivial, fun now => ?_⟩⟩⟩
    cases fromJson <;> cases hash <;> trivial
  · exact ⟨.silent trivial, fun now => ⟨.silent trivial, fun _ => ⟨.fields rfl rfl, fun _ => trivial⟩⟩⟩

theorem timeOrNow_alone {time : Option Time} {a : Time} (hrun : Alone (timeOrNow time) s a s') :
    Untouched s s' := by
  cases time with
  | none => exact Silent.untouched (o := .now) trivial hrun
  | some time =>
    obtain ⟨-, rfl⟩ := Prog.alone_pure.1 hrun
    exact ⟨rfl, rfl, rfl, le_rfl⟩

/-! ## What holds after every call -/

/-- The online set says what the meta hash says, and the hash names the connection that has the
lease. -/
structure Consistent (s : Redis) : Prop where
  online_iff : s.online = true ↔ s.connected = some true
  holder : ∀ c, s.lease = some c → s.connectionId = some c

theorem Consistent.of_same (hs : Consistent s) (h : SamePresence s s') : Consistent s' := by
  refine ⟨?_, fun c hc => ?_⟩
  · rw [h.online, h.connected]
    exact hs.online_iff
  · rw [h.connectionId]
    exact hs.holder c (h.lease ▸ hc)

/-- What a call made of the lease and of the presence. -/
structure Leaves (s s' : Redis) (lease : Option ConnectionId) (up : Bool) : Prop where
  lease : s'.lease = lease
  connected : s'.connected = some up
  online : s'.online = up
  connectionId : s'.connectionId = s.connectionId
  clock : s.clock ≤ s'.clock

theorem Leaves.consistent {lease : Option ConnectionId} {up : Bool} (h : Leaves s s' lease up)
    (hlease : ∀ c, lease = some c → s.connectionId = some c) : Consistent s' := by
  refine ⟨?_, fun c hc => ?_⟩
  · rw [h.online, h.connected, Option.some.injEq]
  · rw [h.connectionId]
    exact hlease c (h.lease ▸ hc)

theorem goOffline_alone (hrun : Alone (goOffline hash c) s () s') (hash_eq : hash.bind (·.connectionId) = some c) :
    Leaves s s' s.lease false := by
  rw [goOffline, if_pos hash_eq] at hrun
  obtain ⟨u, s₁, hset, hrem⟩ := Prog.alone_bind.1 hrun
  obtain ⟨ms, hset⟩ := alone_ask.1 hset
  obtain ⟨ms', hrem⟩ := alone_ask.1 hrem
  cases hset
  cases hrem
  refine ⟨rfl, ?_, rfl, ?_, (le_clock s ms).trans (le_clock _ ms')⟩
  · exact (Redis.connected_hset _ _).trans rfl
  · exact (Redis.connectionId_hset _ _).trans rfl

/-! ## The sweep -/

/-- A connection has the lease, and its last inbound message is younger than the sweep allows. -/
def Redis.FreshAt (s : Redis) (now : Time) : Prop :=
  s.lease.isSome ∧ ∃ inbound ∈ lastInbound s.metaHash, now - daemonOfflineSweepMs < inbound

theorem reconcileStaleSocketPresence_cases {s : Redis} (hs : Consistent s) (now : Time) :
    reconcileStaleSocketPresence (now - daemonOfflineSweepMs) s = (false, s) ∨
      ¬s.FreshAt now ∧ reconcileStaleSocketPresence (now - daemonOfflineSweepMs) s =
        (true, { s.hset { connected := some false } with online := false }) := by
  rw [reconcileStaleSocketPresence]
  by_cases hconnected : s.connected = some true
  · rw [if_neg fun h => h.1 hconnected]
    simp only [if_pos hconnected]
    split
    · exact .inl rfl
    · rename_i hnot
      refine .inr ⟨fun hfresh => hnot ⟨hfresh.1, ?_⟩, rfl⟩
      obtain ⟨inbound, hinbound, hlt⟩ := hfresh.2
      rw [show lastInbound s.metaHash = some inbound from hinbound, Option.any_some]
      exact decide_eq_true hlt
  · rw [if_pos ⟨hconnected, Bool.eq_false_of_not_eq_true fun hon => hconnected (hs.online_iff.1 hon)⟩]
    exact .inl rfl

/-- What a sweep keeps. -/
structure Swept (s s' : Redis) : Prop where
  lease : s'.lease = s.lease
  connectionId : s'.connectionId = s.connectionId
  inbound : lastInbound s'.metaHash = lastInbound s.metaHash
  consistent : Consistent s'
  clock : s.clock ≤ s'.clock

theorem Untouched.swept (h : Untouched s s') (hs : Consistent s) : Swept s s' :=
  ⟨h.lease, h.samePresence.connectionId, by rw [h.metaHash], hs.of_same h.samePresence, h.clock⟩

theorem Swept.trans {s s' s'' : Redis} (h : Swept s s') (h' : Swept s' s'') : Swept s s'' :=
  ⟨h'.lease.trans h.lease, h'.connectionId.trans h.connectionId, h'.inbound.trans h.inbound, h'.consistent,
    h.clock.trans h'.clock⟩

theorem Consistent.swept_offline {s : Redis} (hs : Consistent s) :
    Swept s { s.hset { connected := some false } with online := false } := by
  have hconnected : (s.hset { connected := some false }).connected = some false :=
    (Redis.connected_hset _ _).trans rfl
  have hid : (s.hset { connected := some false }).connectionId = s.connectionId :=
    (Redis.connectionId_hset _ _).trans rfl
  have hinbound : lastInbound (s.hset { connected := some false }).metaHash = lastInbound s.metaHash := by
    refine lastInbound_hset ?_
    rw [Meta.TouchesInbound]
    simp
  refine ⟨rfl, hid, hinbound, ⟨?_, fun c hc => ?_⟩, le_rfl⟩
  · change false = true ↔ (s.hset { connected := some false }).connected = some true
    rw [hconnected]
    simp
  · exact hid.trans (hs.holder c hc)

/-- **The sweep**, alone. It keeps what is consistent, and touches nothing while the holder of the
lease is fresh. -/
theorem reconcileStalePresence_alone {demoted : Bool} (hs : Consistent s)
    (hrun : Alone (reconcileStalePresence cell) s demoted s') :
    Swept s s' ∧ (s.FreshAt s'.clock → Untouched s s') := by
  obtain ⟨now, s₁, hnow, hrun⟩ := Prog.alone_bind.1 hrun
  have h₁ : Untouched s s₁ := Silent.untouched (o := .now) trivial hnow
  have hnow_eq : now = s₁.clock := by
    obtain ⟨ms, hexec⟩ := alone_ask.1 hnow
    cases hexec
    rfl
  obtain ⟨result, s₂, hsweep, hrun⟩ := Prog.alone_bind.1 hrun
  obtain ⟨ms, hexec⟩ := alone_ask.1 hsweep
  have hwait : Untouched s₁ { s₁ with clock := s₁.clock + ms } := ⟨rfl, rfl, rfl, le_clock s₁ ms⟩
  have hs' : Consistent { s₁ with clock := s₁.clock + ms } := hs.of_same (h₁.trans hwait).samePresence
  have hrest : Untouched s₂ s' := by
    cases result with
    | false =>
      obtain ⟨-, rfl⟩ := Prog.alone_pure.1 hrun
      exact ⟨rfl, rfl, rfl, le_rfl⟩
    | true =>
      obtain ⟨u, s₃, hhint, hpure⟩ := Prog.alone_bind.1 hrun
      obtain ⟨-, rfl⟩ := Prog.alone_pure.1 hpure
      exact Silent.untouched (o := .setConnectedHint cell false) trivial hhint
  obtain hsame | ⟨hstale, hoffline⟩ := reconcileStaleSocketPresence_cases hs' now
  · obtain rfl : { s₁ with clock := s₁.clock + ms } = s₂ := (Prod.mk.inj (hsame.symm.trans hexec)).2
    have hall := (h₁.trans hwait).trans hrest
    exact ⟨hall.swept hs, fun _ => hall⟩
  · obtain rfl := (Prod.mk.inj (hoffline.symm.trans hexec)).2
    have hswept := (h₁.trans hwait).swept hs
    have hall := (hswept.trans hs'.swept_offline).trans (hrest.swept hs'.swept_offline.consistent)
    refine ⟨hall, fun hfresh => absurd ?_ hstale⟩
    have hle : now ≤ s'.clock := by
      rw [hnow_eq]
      exact ((le_clock s₁ ms).trans hs'.swept_offline.clock).trans hrest.clock
    obtain ⟨hheld, inbound, hinbound, hlt⟩ := hfresh
    refine ⟨?_, inbound, ?_, lt_of_le_of_lt (Int.sub_le_sub_right hle _) hlt⟩
    · rw [hswept.lease]
      exact hheld
    · rw [hswept.inbound]
      exact hinbound

/-! ## Attach -/

theorem inbound_of_not_stale {now : Time} (h : isInboundStale hash now = false) :
    ∃ inbound ∈ lastInbound hash, now - inbound < daemonStaleMs := by
  rw [isInboundStale] at h
  split at h
  · cases h
  · rename_i inbound hinbound
    exact ⟨inbound, hinbound, not_le.1 (of_decide_eq_false h)⟩

theorem inbound_of_stale {now : Time} (h : isInboundStale hash now = true) :
    ∀ inbound ∈ lastInbound hash, daemonStaleMs ≤ now - inbound := by
  intro inbound hinbound
  rw [isInboundStale, show lastInbound hash = some inbound from hinbound] at h
  exact of_decide_eq_true h

/-- No connection has the lease whose last inbound message was, at some time in between, younger
than `daemonStaleMs`. -/
def Overdue (s : Redis) (till : Time) : Prop :=
  ∃ now, s.clock ≤ now ∧ now ≤ till ∧ ∀ holder, s.lease = some holder →
    s.connectionId = some holder ∧ ∀ inbound ∈ lastInbound s.metaHash, daemonStaleMs ≤ now - inbound

theorem freeLease_alone {free : Bool} (hs : Consistent s) (hrun : Alone (freeLease s.lease) s free s') :
    (free = false ∧ Untouched s s' ∧ ∃ now ≤ s'.clock, ∃ inbound ∈ lastInbound s.metaHash,
      s.lease.isSome ∧ now - inbound < daemonStaleMs ∧ s.clock ≤ now) ∨
    (free = true ∧ s'.lease = none ∧ Consistent s' ∧ s.clock ≤ s'.clock ∧ Overdue s s'.clock) := by
  cases hlease : s.lease with
  | none =>
    rw [hlease] at hrun
    obtain ⟨rfl, rfl⟩ := Prog.alone_pure.1 hrun
    refine .inr ⟨rfl, hlease, hs, le_rfl, s'.clock, le_rfl, le_rfl, fun holder hholder => ?_⟩
    cases hlease.symm.trans hholder
  | some holder =>
    rw [hlease] at hrun
    obtain ⟨staleMeta, s₁, hread, hrun⟩ := Prog.alone_bind.1 hrun
    have h₁ : Untouched s s₁ := Silent.untouched (o := .hgetallMeta) trivial hread
    have hmeta : staleMeta = s.metaHash := by
      obtain ⟨ms, hexec⟩ := alone_ask.1 hread
      exact (Prod.mk.inj hexec).1.symm
    obtain ⟨now, s₂, hnow, hrun⟩ := Prog.alone_bind.1 hrun
    have h₂ : Untouched s₁ s₂ := Silent.untouched (o := .now) trivial hnow
    have hnow_eq : now = s₂.clock := by
      obtain ⟨ms, hexec⟩ := alone_ask.1 hnow
      cases hexec
      rfl
    have h₁₂ := h₁.trans h₂
    cases hstale : isInboundStale staleMeta now with
    | false =>
      rw [hstale] at hrun
      obtain ⟨rfl, rfl⟩ := Prog.alone_pure.1 hrun
      obtain ⟨inbound, hinbound, hlt⟩ := inbound_of_not_stale hstale
      exact .inl ⟨rfl, h₁₂, now, hnow_eq.le, inbound, hmeta ▸ hinbound, rfl, hlt, hnow_eq ▸ h₁₂.clock⟩
    | true =>
      rw [hstale] at hrun
      obtain ⟨u, s₃, hdel, hrun⟩ := Prog.alone_bind.1 hrun
      obtain ⟨ms, hdel⟩ := alone_ask.1 hdel
      cases hdel
      obtain ⟨u', s₄, hoff, hpure⟩ := Prog.alone_bind.1 hrun
      obtain ⟨rfl, rfl⟩ := Prog.alone_pure.1 hpure
      have hnamed : staleMeta.bind (·.connectionId) = some holder := by
        rw [hmeta]
        exact hs.holder holder hlease
      have hleaves := goOffline_alone hoff hnamed
      have hclock : s₂.clock ≤ s'.clock := (le_clock s₂ ms).trans hleaves.clock
      refine .inr ⟨rfl, hleaves.lease, hleaves.consistent fun c hc => (by cases hc), h₁₂.clock.trans hclock, now,
        hnow_eq ▸ h₁₂.clock, hnow_eq ▸ hclock, fun holder' hholder' => ?_⟩
      cases hlease.symm.trans hholder'
      exact ⟨hs.holder holder hlease, hmeta ▸ inbound_of_stale hstale⟩

theorem storeConnection_alone {params : AttachParams} {connectedAt : Time} (hlease : s.lease = some c)
    (hrun : Alone (storeConnection cell c params connectedAt) s () s') :
    Consistent s' ∧ s'.lease = some c ∧ s.clock ≤ s'.clock := by
  obtain ⟨keyLastUsedAt, s₁, hnow, hrun⟩ := Prog.alone_bind.1 hrun
  have h₁ : Untouched s s₁ := Silent.untouched (o := .now) trivial hnow
  obtain ⟨u, s₂, hset, hrun⟩ := Prog.alone_bind.1 hrun
  obtain ⟨ms, hset⟩ := alone_ask.1 hset
  obtain ⟨u', s₃, hadd, hrun⟩ := Prog.alone_bind.1 hrun
  obtain ⟨ms', hadd⟩ := alone_ask.1 hadd
  have hlease₃ : s₃.lease = some c := by
    cases hset
    cases hadd
    exact h₁.lease.trans hlease
  have honline₃ : s₃.online = true := by
    cases hadd
    rfl
  have hconnected₃ : s₃.connected = some true := by
    cases hset
    cases hadd
    exact (Redis.connected_hset _ _).trans rfl
  have hid₃ : s₃.connectionId = some c := by
    cases hset
    cases hadd
    exact (Redis.connectionId_hset _ _).trans rfl
  have hclock₃ : s₁.clock ≤ s₃.clock := by
    cases hset
    cases hadd
    exact (le_clock s₁ ms).trans (le_clock _ ms')
  have hconsistent₃ : Consistent s₃ := by
    refine ⟨?_, fun c' hc' => ?_⟩
    · rw [honline₃, hconnected₃]
      simp
    · rw [hid₃, ← hlease₃, hc']
  have hrest : SamePresence s₃ s' := by
    refine samePresence_of_only (Q := fun _ => True) ?_ hrun
    refine Prog.Only.bind (besidePresence_putSnapshot _) fun _ _ => ?_
    exact ⟨.silent trivial, fun _ => ⟨.silent trivial, fun _ => trivial⟩⟩
  exact ⟨hconsistent₃.of_same hrest, hrest.lease.trans hlease₃, (h₁.clock.trans hclock₃).trans hrest.clock⟩

/-- What an attach did, by its result. -/
def Attached (s : Redis) (c : ConnectionId) (s' : Redis) : Except String ConnectionId → Prop
  | .error _ => Untouched s s'
  | .ok c' => c' = c ∧ s'.lease = some c ∧ Overdue s s'.clock

theorem Swept.overdue (h : Swept s s') {till : Time} (hdue : Overdue s' till) : Overdue s till := by
  obtain ⟨now, hle, htill, hdue⟩ := hdue
  refine ⟨now, h.clock.trans hle, htill, fun holder hholder => ?_⟩
  obtain ⟨hid, hold⟩ := hdue holder (h.lease.trans hholder)
  exact ⟨h.connectionId.symm.trans hid, fun inbound hinbound => hold inbound (h.inbound ▸ hinbound)⟩

/-- **Attach**, alone. -/
theorem attachDaemonSocket_alone {params : AttachParams} {r : Except String ConnectionId} (hs : Consistent s)
    (hrun : Alone (attachDaemonSocket cell c params) s r s') :
    Consistent s' ∧ s.clock ≤ s'.clock ∧ Attached s c s' r := by
  obtain ⟨demoted, s₁, hsweep, hrun⟩ := Prog.alone_bind.1 hrun
  obtain ⟨hswept, hfresh⟩ := reconcileStalePresence_alone hs hsweep
  obtain ⟨connectedAt, s₂, htime, hrun⟩ := Prog.alone_bind.1 hrun
  have h₂ := timeOrNow_alone htime
  obtain ⟨existingHolder, s₃, hget, hrun⟩ := Prog.alone_bind.1 hrun
  have h₃ : Untouched s₂ s₃ := Silent.untouched (o := .getLease) trivial hget
  obtain rfl : s₃.lease = existingHolder := by
    obtain ⟨ms, hexec⟩ := alone_ask.1 hget
    cases hexec
    rfl
  have h₁₃ := h₂.trans h₃
  have hswept₃ := hswept.trans (h₁₃.swept hswept.consistent)
  obtain ⟨free, s₄, hfree, hrun⟩ := Prog.alone_bind.1 hrun
  obtain ⟨rfl, h₄, now, hnow, inbound, hinbound, hheld, hlt, hle⟩ | ⟨rfl, hnone, hs₄, hclock, hdue⟩ :=
    freeLease_alone hswept₃.consistent hfree
  · obtain ⟨rfl, rfl⟩ := Prog.alone_pure.1 hrun
    have hnow₁ : s₁.clock ≤ now := h₁₃.clock.trans hle
    have hfresh₁ : s.FreshAt s₁.clock := by
      refine ⟨hswept₃.lease ▸ hheld, inbound, hswept₃.inbound ▸ hinbound, ?_⟩
      have hyoung : now - inbound < (60000 : ℤ) := hlt
      change s₁.clock - (150000 : ℤ) < inbound
      linarith
    have hall := ((hfresh hfresh₁).trans h₁₃).trans h₄
    exact ⟨hs.of_same hall.samePresence, hall.clock, hall⟩
  · obtain ⟨acquired, s₅, hsetnx, hrun⟩ := Prog.alone_bind.1 hrun
    obtain ⟨ms, hexec⟩ := alone_ask.1 hsetnx
    rw [exec, if_neg (by rw [hnone]; exact Bool.false_ne_true)] at hexec
    cases hexec
    obtain ⟨u, s₆, hstore, hpure⟩ := Prog.alone_bind.1 hrun
    obtain ⟨rfl, rfl⟩ := Prog.alone_pure.1 hpure
    obtain ⟨hs', hlease, hle⟩ := storeConnection_alone rfl hstore
    have hle' : s₄.clock ≤ s'.clock := (le_clock s₄ ms).trans hle
    obtain ⟨now, hstart, htill, hold⟩ := hdue
    exact ⟨hs', (hswept₃.clock.trans hclock).trans hle', rfl, hlease,
      hswept₃.overdue ⟨now, hstart, htill.trans hle', hold⟩⟩

/-! ## Detach, inbound messages and the start of the process -/

theorem goOffline_keeps (hs : Consistent s) (hrun : Alone (goOffline hash c) s () s') : Consistent s' := by
  by_cases hnamed : hash.bind (·.connectionId) = some c
  · have hleaves := goOffline_alone hrun hnamed
    exact hleaves.consistent fun c' hc' => hs.holder c' hc'
  · rw [goOffline, if_neg hnamed] at hrun
    obtain ⟨-, rfl⟩ := Prog.alone_pure.1 hrun
    exact hs

theorem Consistent.release {s : Redis} (hs : Consistent s) : Consistent { s with lease := none } :=
  ⟨hs.online_iff, fun _ hc => (by cases hc)⟩

theorem Consistent.wait {s : Redis} (hs : Consistent s) (ms : ℕ) :
    Consistent { s with clock := s.clock + ms } :=
  ⟨hs.online_iff, hs.holder⟩

theorem detachDaemonSocket_alone (hs : Consistent s) (hrun : Alone (detachDaemonSocket cell c) s () s') :
    Consistent s' := by
  obtain ⟨released, s₁, hrelease, hrun⟩ := Prog.alone_bind.1 hrun
  obtain ⟨ms, hexec⟩ := alone_ask.1 hrelease
  have hs₁ : Consistent s₁ := by
    rw [exec] at hexec
    split at hexec
    · cases hexec
      exact (hs.wait ms).release
    · cases hexec
      exact hs.wait ms
  cases released with
  | false =>
    obtain ⟨-, rfl⟩ := Prog.alone_pure.1 hrun
    exact hs₁
  | true =>
    obtain ⟨hash, s₂, hread, hrun⟩ := Prog.alone_bind.1 hrun
    have h₂ : Untouched s₁ s₂ := Silent.untouched (o := .hgetallMeta) trivial hread
    obtain ⟨u, s₃, hoff, hhint⟩ := Prog.alone_bind.1 hrun
    have hs₃ := goOffline_keeps (hs₁.of_same h₂.samePresence) hoff
    exact hs₃.of_same (Silent.untouched (o := .setConnectedHint cell false) trivial hhint).samePresence

theorem besidePresence_putInboundSnapshot (namedBuild : Option DaemonBuildInfo) (bumpInbound : Option Time) :
    (putInboundSnapshot namedBuild bumpInbound).Only BesidePresence fun _ => True := by
  rw [putInboundSnapshot]
  split
  · exact besidePresence_putSnapshot _
  · trivial

theorem healConnected_alone (hhash : hash = s.metaHash) (hrun : Alone (healConnected hash) s () s') :
    s'.lease = s.lease ∧ s'.connectionId = s.connectionId ∧ s'.connected = some true := by
  by_cases hconnected : hash.bind (·.connected) = some true
  · rw [healConnected, if_neg (not_not.2 hconnected)] at hrun
    obtain ⟨-, rfl⟩ := Prog.alone_pure.1 hrun
    rw [hhash] at hconnected
    exact ⟨rfl, rfl, hconnected⟩
  · rw [healConnected, if_pos hconnected] at hrun
    obtain ⟨u, s₁, hset, hput⟩ := Prog.alone_bind.1 hrun
    have hsame := samePresence_of_only (besidePresence_putSnapshot _) hput
    obtain ⟨ms, hexec⟩ := alone_ask.1 hset
    cases hexec
    refine ⟨hsame.lease, hsame.connectionId.trans ?_, hsame.connected.trans ?_⟩
    · exact (Redis.connectionId_hset _ _).trans rfl
    · exact (Redis.connected_hset _ _).trans rfl

theorem storeInbound_alone {namedBuild : Option DaemonBuildInfo} {time : Time} (hs : Consistent s)
    (hhash : hash = s.metaHash) (hrun : Alone (storeInbound cell namedBuild time hash) s () s') : Consistent s' := by
  obtain ⟨healed, s₁, hheal, hrun⟩ := Prog.alone_bind.1 hrun
  obtain ⟨hlease₁, hid₁, hconnected₁⟩ := healConnected_alone hhash hheal
  obtain ⟨put, s₂, hsnapshot, hrun⟩ := Prog.alone_bind.1 hrun
  have h₂ := samePresence_of_only (besidePresence_putInboundSnapshot _ _) hsnapshot
  obtain ⟨set, s₃, hset, hrun⟩ := Prog.alone_bind.1 hrun
  have h₃ : SamePresence s₂ s₃ := BesidePresence.samePresence (.fields rfl rfl) hset
  obtain ⟨added, s₄, hadd, hrun⟩ := Prog.alone_bind.1 hrun
  have hrest : SamePresence s₄ s' := by
    refine samePresence_of_only (Q := fun _ => True) ?_ hrun
    exact ⟨.silent trivial, fun _ => ⟨.silent trivial, fun _ => trivial⟩⟩
  have h₁₃ := h₂.trans h₃
  obtain ⟨ms, hexec⟩ := alone_ask.1 hadd
  cases hexec
  refine Consistent.of_same ⟨?_, fun c hc => ?_⟩ hrest
  · exact iff_of_true rfl (h₁₃.connected.trans hconnected₁)
  · have hc₁ : s.lease = some c := (h₁₃.lease.trans hlease₁).symm.trans hc
    exact (h₁₃.connectionId.trans hid₁).trans (hs.holder c hc₁)

theorem recordInbound_alone {params : InboundParams} (hs : Consistent s)
    (hrun : Alone (recordInbound cell params) s () s') : Consistent s' := by
  obtain ⟨time, s₁, htime, hrun⟩ := Prog.alone_bind.1 hrun
  have h₁ := timeOrNow_alone htime
  obtain ⟨hints, s₂, hhints, hrun⟩ := Prog.alone_bind.1 hrun
  have h₂ := h₁.trans (Silent.untouched (o := .readHints cell) trivial hhints)
  have hs₂ := hs.of_same h₂.samePresence
  split at hrun
  · obtain ⟨-, rfl⟩ := Prog.alone_pure.1 hrun
    exact hs₂
  · obtain ⟨hash, s₃, hread, hrun⟩ := Prog.alone_bind.1 hrun
    obtain ⟨ms, hexec⟩ := alone_ask.1 hread
    cases hexec
    split at hrun
    · obtain ⟨-, rfl⟩ := Prog.alone_pure.1 hrun
      exact hs₂.wait ms
    · exact storeInbound_alone (hs₂.wait ms) rfl hrun

theorem reclaimOrphanedSocketLeaseOnStartup_alone (hs : Consistent s)
    (hrun : Alone reclaimOrphanedSocketLeaseOnStartup s () s') : Consistent s' := by
  obtain ⟨holder, s₁, hget, hrun⟩ := Prog.alone_bind.1 hrun
  have hs₁ := hs.of_same (Silent.untouched (o := .getLease) trivial hget).samePresence
  cases holder with
  | none =>
    obtain ⟨-, rfl⟩ := Prog.alone_pure.1 hrun
    exact hs₁
  | some holder =>
    obtain ⟨u, s₂, hdel, hrun⟩ := Prog.alone_bind.1 hrun
    obtain ⟨ms, hexec⟩ := alone_ask.1 hdel
    cases hexec
    have hs₂ := (hs₁.wait ms).release
    obtain ⟨hash, s₃, hread, hrun⟩ := Prog.alone_bind.1 hrun
    have hs₃ := hs₂.of_same (Silent.untouched (o := .hgetallMeta) trivial hread).samePresence
    split at hrun
    · rename_i hnamed
      have hoff : Alone (goOffline hash holder) s₃ () s' := by
        rw [goOffline, if_pos hnamed.1]
        exact hrun
      exact goOffline_keeps hs₃ hoff
    · obtain ⟨-, rfl⟩ := Prog.alone_pure.1 hrun
      exact hs₃

/-! ## Runs of whole calls -/

theorem Consistent.happens (hs : Consistent s) (h : Happens cell s s') :
    Consistent s' := by
  cases h with
  | attach runs => exact (attachDaemonSocket_alone hs runs).1
  | detach runs => exact detachDaemonSocket_alone hs runs
  | inbound runs => exact recordInbound_alone hs runs
  | reconcile runs => exact (reconcileStalePresence_alone hs runs).1.consistent
  | reclaim runs => exact reclaimOrphanedSocketLeaseOnStartup_alone hs runs
  | purge ms => exact ⟨iff_of_false Bool.false_ne_true fun h => (by cases h), fun _ hc => (by cases hc)⟩

theorem Reached.consistent {s : Redis} (h : Reached cell s) : Consistent s := by
  induction h with
  | empty hlease hmeta hsnapshot honline =>
    refine ⟨?_, fun c hc => ?_⟩
    · rw [honline, Redis.connected, hmeta]
      exact iff_of_false Bool.false_ne_true fun h => (by cases h)
    · cases hlease.symm.trans hc
  | next hreached hhappens ih => exact ih.happens hhappens

/-- **Presence stays consistent.** After any sequence of whole calls on a cell that begins with an
empty store, the server is in the online set exactly when the meta hash says that it is connected.
An attach that then throws leaves the lease, the hash and the set as they are, and one that succeeds
found no holder of the lease whose last inbound message was younger than `daemonStaleMs` when it
looked. -/
theorem presence_consistent {cell : CellId} {s : Redis} (hs : Reached cell s) :
    (s.online = true ↔ s.connected = some true) ∧
      (∀ {c params error s'}, Alone (attachDaemonSocket cell c params) s (.error error) s' →
        s'.lease = s.lease ∧ s'.metaHash = s.metaHash ∧ s'.online = s.online) ∧
      ∀ {c params c' s'}, Alone (attachDaemonSocket cell c params) s (.ok c') s' →
        ∃ now, s.clock ≤ now ∧ now ≤ s'.clock ∧ ∀ holder, s.lease = some holder →
          s.connectionId = some holder ∧ ∀ inbound ∈ lastInbound s.metaHash, daemonStaleMs ≤ now - inbound := by
  have hconsistent := hs.consistent
  refine ⟨hconsistent.online_iff, fun hrun => ?_, fun hrun => ?_⟩
  · have h : Untouched s _ := (attachDaemonSocket_alone hconsistent hrun).2.2
    exact ⟨h.lease, h.metaHash, h.online⟩
  · exact (attachDaemonSocket_alone hconsistent hrun).2.2.2.2

/-- An empty store. -/
def emptyRedis : Redis where
  lease := none
  metaHash := none
  snapshot := none
  online := false
  hints _ := {}
  clock := 0

/-- The store after connection `1` was attached. -/
def attachedRedis : Redis where
  lease := some 1
  metaHash := some {
    connected := some true
    connectionId := some 1
    remoteAddress := some ""
    connectedAt := some 0
    lastSeenAt := some 0
    lastInboundAt := some 0
    keyLastUsedAt := some 0
    snapshotVersion := some 1
    updatedAt := some 0 }
  snapshot := some {
    version := 1
    updatedAt := 0
    remoteAddress := none
    connected := true
    connectedAt := some 0
    lastInboundAt := some 0
    lastSeenAt := some 0
    keyLastUsedAt := some 0 }
  online := true
  hints := ((emptyRedis.setHints 0 { connectedHint := true }).setHints 0 { connectedHint := true }).hints
  clock := 0

theorem reached_attachedRedis : Reached 0 attachedRedis := by
  have hattach : Alone (attachDaemonSocket 0 1 {}) emptyRedis (.ok 1) attachedRedis := by
    iterate 16 refine .op (e := (0 : ℕ)) rfl ?_
    exact .pure _ _
  exact .next (.empty rfl rfl rfl rfl) (.attach hattach)

theorem attach_second_connection :
    (attachedRedis.online = true ↔ attachedRedis.connected = some true) ∧
      (∃ s', Alone (attachDaemonSocket 0 2 {}) attachedRedis (.error "daemon socket lease held") s' ∧
        s'.clock = 5 ∧ s'.lease = some 1 ∧ s'.online = true) ∧
      ∃ s', Alone (attachDaemonSocket 0 2 {}) attachedRedis (.ok 2) s' ∧ s'.lease = some 2 ∧
        ∃ now, attachedRedis.clock ≤ now ∧ now ≤ s'.clock ∧ ∀ holder, attachedRedis.lease = some holder →
          attachedRedis.connectionId = some holder ∧
          ∀ inbound ∈ lastInbound attachedRedis.metaHash, daemonStaleMs ≤ now - inbound := by
  have hrefused : Alone (attachDaemonSocket 0 2 {}) attachedRedis (.error "daemon socket lease held")
      { attachedRedis with clock := 5 } := by
    refine .op (e := (5 : ℕ)) rfl ?_
    iterate 5 refine .op (e := (0 : ℕ)) rfl ?_
    exact .pure _ _
  have htaken : ∃ s', Alone (attachDaemonSocket 0 2 {}) attachedRedis (.ok 2) s' ∧ s'.lease = some 2 := by
    refine Exists.intro ?s (And.intro ?runs ?held)
    case runs =>
      refine .op (e := (60000 : ℕ)) rfl ?_
      iterate 20 refine .op (e := (0 : ℕ)) rfl ?_
      exact .pure _ _
    case held => rfl
  obtain ⟨s', htaken, hlease⟩ := htaken
  obtain ⟨hiff, hthrows, hsucceeds⟩ := presence_consistent reached_attachedRedis
  obtain ⟨hheld, -, honline⟩ := hthrows hrefused
  exact ⟨hiff, ⟨_, hrefused, rfl, hheld, honline⟩, s', htaken, hlease, hsucceeds htaken⟩

end TurboPanel.DaemonCell
