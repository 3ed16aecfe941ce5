import TurboPanel.Data.Interleaving
import TurboPanel.Js.Map
import TurboPanel.Js.Text

/-!
# The licenses of an organization

`assignment-records.ts`, with the purchased quantities of `assignment.ts`, for one organization:
which tier each licensed server holds. A manager's assignment and an enroll count the free seats and
write under the row lock of the organization, so each is one step. An owner's upgrade of a named
server takes several: once the gates of the purchase are passed, the swap is projected, and then the
server moves if it still holds the lower tier.
-/

namespace TurboPanel.Tiers

open Js Interleaving

abbrev ServerId := ℕ

abbrev TierId := ℕ

/-! ## What was bought -/

structure TierRow where
  id : TierId
  rank : ℤ

structure TierQuantity where
  tierId : TierId
  rank : ℤ
  quantity : ℤ
  deriving DecidableEq

/-- A `seat` row with its tier. -/
structure OrganizationSeat where
  tier : TierRow
  quantity : ℤ

structure SelfHostedGrant where
  tierId : TierId
  quantity : ℤ

structure OrganizationBillingState where
  /-- The status of the subscription, where there is one. -/
  subscription : Option Text
  seats : List OrganizationSeat
  grant : Option SelfHostedGrant

def isEndedStatus (status : Text) : Bool := status = "canceled".toList || status = "incomplete_expired".toList

/-- The rank of `SX`. -/
def selfHostedGrantRank : ℤ := 8

def addQuantity (out : Map TierId TierQuantity) (tierId : TierId) (rank quantity : ℤ) : Map TierId TierQuantity :=
  out.set tierId ⟨tierId, rank, ((out.get? tierId).map (·.quantity)).getD 0 + quantity⟩

def tierQuantitiesFromState (state : OrganizationBillingState) : List TierQuantity :=
  let ended := match state.subscription with
    | some status => isEndedStatus status
    | none => true
  let seats := state.seats.foldl (fun out seat =>
    addQuantity out seat.tier.id seat.tier.rank (if ended then 0 else seat.quantity)) Map.empty
  let out := match state.grant with
    | some grant => addQuantity seats grant.tierId selfHostedGrantRank grant.quantity
    | none => seats
  out.entries.map Prod.snd

/-! ## Who holds what -/

/-- A licensed server. -/
structure ServerRow where
  serverId : ServerId
  assignedTierId : Option TierId
  preferredTierId : Option TierId
  requiredRank : Option ℤ

structure Licenses where
  servers : List ServerRow
  nodup : (servers.map (·.serverId)).Nodup
  billing : OrganizationBillingState
  /-- The tiers of the registration keys that are not used yet. -/
  heldKeys : List TierId

/-- `heldSeatsByTier`. -/
def reservedAt (heldKeys : List TierId) (tierId : TierId) : ℕ := heldKeys.count tierId

/-- Purchased quantity at the tier. -/
def boughtAt (quantities : List TierQuantity) (tierId : TierId) : ℤ :=
  ((quantities.filter fun entry => decide (entry.tierId = tierId)).map fun entry => max 0 entry.quantity).sum

/-- The seats at the tier that servers other than this one hold. -/
def heldByOthers (servers : List ServerRow) (tierId : TierId) (exceptServerId : ServerId) : ℕ :=
  servers.countP fun entry => decide (entry.assignedTierId = some tierId) && decide (entry.serverId ≠ exceptServerId)

def freeAtTier (quantities : List TierQuantity) (servers : List ServerRow) (tierId : TierId)
    (exceptServerId : ServerId) (heldKeys : List TierId) : ℤ :=
  boughtAt quantities tierId - heldByOthers servers tierId exceptServerId - reservedAt heldKeys tierId

/-- The free seats at the tier for this server. -/
def Licenses.freeFor (s : Licenses) (tierId : TierId) (serverId : ServerId) : ℤ :=
  freeAtTier (tierQuantitiesFromState s.billing) s.servers tierId serverId s.heldKeys

def Licenses.find (s : Licenses) (serverId : ServerId) : Option ServerRow :=
  s.servers.find? fun entry => decide (entry.serverId = serverId)

/-- The row of one server with these tiers. -/
def ServerRow.write (serverId : ServerId) (assignedTierId preferredTierId : Option TierId) (row : ServerRow) :
    ServerRow :=
  if row.serverId = serverId then { row with assignedTierId, preferredTierId } else row

theorem ServerRow.write_serverId (serverId : ServerId) (assignedTierId preferredTierId : Option TierId)
    (row : ServerRow) : (row.write serverId assignedTierId preferredTierId).serverId = row.serverId := by
  rw [ServerRow.write]
  split
  · rfl
  · rfl

theorem map_serverId_write (serverId : ServerId) (assignedTierId preferredTierId : Option TierId)
    (servers : List ServerRow) :
    (servers.map (ServerRow.write serverId assignedTierId preferredTierId)).map (·.serverId) =
      servers.map (·.serverId) := by
  rw [List.map_map]
  exact List.map_congr_left fun row _ => row.write_serverId serverId assignedTierId preferredTierId

/-- The update of one server's row. -/
def Licenses.write (s : Licenses) (serverId : ServerId) (assignedTierId preferredTierId : Option TierId) :
    Licenses where
  servers := s.servers.map (ServerRow.write serverId assignedTierId preferredTierId)
  nodup := by
    rw [map_serverId_write]
    exact s.nodup
  billing := s.billing
  heldKeys := s.heldKeys

/-! ## The steps -/

inductive AssignServerTierResult where
  | ok (assignedTierId : Option TierId)
  | serverNotLicensed
  | noFreeSeat
  deriving DecidableEq

def assignServerTier (s : Licenses) (serverId : ServerId) (tierId : Option TierId) :
    AssignServerTierResult × Licenses :=
  match s.find serverId with
  | none => (.serverNotLicensed, s)
  | some mine =>
    match tierId with
    | none => (.ok none, s.write serverId none none)
    | some tier =>
      if some tier ≠ mine.assignedTierId ∧ s.freeFor tier serverId < 1 then (.noFreeSeat, s)
      else (.ok (some tier), s.write serverId (some tier) (some tier))

inductive AddServerTierAtEnroll where
  | assigned
  | noFreeSeat
  | alreadySet
  deriving DecidableEq

def applyAddServerTierAtEnroll (s : Licenses) (serverId : ServerId) (tierId : TierId) :
    AddServerTierAtEnroll × Licenses :=
  match s.find serverId with
  | none => (.alreadySet, s)
  | some row =>
    if row.assignedTierId.isSome || row.preferredTierId.isSome then (.alreadySet, s)
    else if 1 ≤ s.freeFor tierId serverId then (.assigned, s.write serverId (some tierId) (some tierId))
    else (.noFreeSeat, s.write serverId none (some tierId))

/-- The compare-and-set on the tier that the server held. -/
def moveNamedServerTier (s : Licenses) (serverId : ServerId) (fromTierId toTierId : TierId) : Bool × Licenses :=
  match s.find serverId with
  | none => (false, s)
  | some row =>
    if row.assignedTierId = some fromTierId then (true, s.write serverId (some toTierId) (some toTierId))
    else (false, s)

/-- The seats with `delta` more at the tier. -/
def addToSeat (seats : List OrganizationSeat) (tier : TierRow) (delta : ℤ) : List OrganizationSeat :=
  if seats.any fun seat => decide (seat.tier.id = tier.id) then
    seats.map fun seat => if seat.tier.id = tier.id then { seat with quantity := seat.quantity + delta } else seat
  else seats ++ [⟨tier, delta⟩]

/-- The seats once the swap is projected. -/
def Licenses.projectSwap (s : Licenses) (lower higher : TierRow) : Licenses :=
  { s with billing := { s.billing with seats := addToSeat (addToSeat s.billing.seats lower (-1)) higher 1 } }

/-! ## The calls -/

inductive PendingIntentKind where
  | releaseSeat
  | downgrade
  deriving DecidableEq

/-- A change that lands at the end of the period. -/
structure PendingIntent where
  kind : PendingIntentKind
  fromTierId : TierId
  toTierId : Option TierId
  serverId : Option ServerId

structure BillingOrgView where
  state : OrganizationBillingState
  /-- The active licenses, of a server or not. -/
  active : ℕ
  /-- In bind order. -/
  servers : List ServerRow
  intents : List PendingIntent
  heldKeys : List TierId

/-- How the lease, the price and the provider answer. -/
inductive Swap where
  | refused
  | pending
  | landed
  deriving DecidableEq

inductive Op where
  | assignServerTier (serverId : ServerId) (tierId : Option TierId)
  | applyAddServerTierAtEnroll (serverId : ServerId) (tierId : TierId)
  | loadView
  | getTiersByIds (tierIds : List TierId)
  | applyImmediate (lower higher : TierRow)
  | moveNamedServerTier (serverId : ServerId) (fromTierId toTierId : TierId)

@[reducible] def Ans : Op → Type
  | .assignServerTier _ _ => AssignServerTierResult
  | .applyAddServerTierAtEnroll _ _ => AddServerTierAtEnroll
  | .loadView => BillingOrgView
  | .getTiersByIds _ => List TierRow
  | .applyImmediate _ _ => Swap
  | .moveNamedServerTier _ _ _ => Bool

structure Env where
  swap : Swap
  intents : List PendingIntent
  /-- The active licenses of no licensed server and of no key with a tier. -/
  otherLicenses : ℕ
  /-- The tiers of the database. -/
  catalogue : List TierRow

def exec (e : Env) : (o : Op) → Licenses → Ans o × Licenses
  | .assignServerTier serverId tierId, s => Tiers.assignServerTier s serverId tierId
  | .applyAddServerTierAtEnroll serverId tierId, s => Tiers.applyAddServerTierAtEnroll s serverId tierId
  | .loadView, s =>
    (⟨s.billing, s.servers.length + s.heldKeys.length + e.otherLicenses, s.servers, e.intents, s.heldKeys⟩, s)
  | .getTiersByIds tierIds, s => (e.catalogue.filter fun row => decide (row.id ∈ tierIds), s)
  | .applyImmediate lower higher, s => (e.swap, if e.swap = .landed then s.projectSwap lower higher else s)
  | .moveNamedServerTier serverId fromTierId toTierId, s => Tiers.moveNamedServerTier s serverId fromTierId toTierId

def machine : Machine Op Ans Licenses Env where
  exec _ e o s := some (exec e o s)
  drop _ s := s

abbrev Proc := Prog Op Ans

abbrev ask (o : Op) : Proc (Ans o) := Prog.call o

/-! ## The gates of an upgrade -/

/-- `DELINQUENT_SUBSCRIPTION_STATUSES`. -/
def isDelinquentStatus (status : Text) : Bool :=
  status = "past_due".toList || status = "unpaid".toList

/-- `licensesEndingRefusal` of the tier that is bought. -/
def licensesEnding (view : BillingOrgView) (tierId : TierId) : Bool :=
  view.intents.any fun intent => intent.kind = .releaseSeat && intent.fromTierId = tierId

/-- `tierChangeRefusal`. -/
def tierChangeRefused (view : BillingOrgView) : Bool :=
  match view.state.subscription with
  | none => true
  | some status => isEndedStatus status || isDelinquentStatus status

/-- Whether the named server may move: it holds the lower tier, no other move waits for it, and the
higher tier is not below what it needs. -/
def namedServerMove (view : BillingOrgView) (serverId : ServerId) (lower higher : TierRow) : Bool :=
  match view.servers.find? fun entry => decide (entry.serverId = serverId) with
  | none => false
  | some named => named.assignedTierId = some lower.id &&
    !(view.intents.any fun intent => intent.kind = .downgrade && intent.serverId = some serverId) &&
    match named.requiredRank with
    | some rank => decide (rank ≤ higher.rank)
    | none => true

def addDelta (deltas : Map TierId ℤ) (tierId : TierId) (delta : ℤ) : Map TierId ℤ :=
  deltas.set tierId ((deltas.get? tierId).getD 0 + delta)

def deferredDeltasByTier (intents : List PendingIntent) : Map TierId ℤ :=
  intents.foldl (fun out intent =>
    let given := addDelta out intent.fromTierId (-1)
    match intent.kind, intent.toTierId with
    | .downgrade, some tierId => addDelta given tierId 1
    | _, _ => given) Map.empty

def deferredIntentTargets (intents : List PendingIntent) : List TierId :=
  (intents.filterMap fun intent => if intent.kind = .downgrade then intent.toTierId else none).foldl setAdd []

/-- The ranks of the tiers of the seats and of these. -/
def knownRanks (view : BillingOrgView) (extra : List TierRow) : Map TierId ℤ :=
  Map.ofEntries ((view.state.seats.map fun seat => (seat.tier.id, seat.tier.rank)) ++
    extra.map fun row => (row.id, row.rank))

inductive TierDeltasError where
  | noRank
  | negative
  deriving DecidableEq

def applyTierDeltas (current : List TierQuantity) (deltas : Map TierId ℤ) (rankOf : TierId → Option ℤ) :
    Except TierDeltasError (List TierQuantity) := do
  let out ← deltas.entries.foldlM (fun (out : Map TierId TierQuantity) (tierId, delta) =>
    let existing := out.get? tierId
    match (existing.map (·.rank)).or (rankOf tierId) with
    | none => throw .noRank
    | some rank =>
      let quantity := (existing.map (·.quantity)).getD 0 + delta
      if quantity < 0 then throw .negative else pure (out.set tierId ⟨tierId, rank, quantity⟩))
    (Map.ofEntries (current.map fun entry => (entry.tierId, entry)))
  pure (out.entries.map Prod.snd)

def serversAfterMoves (servers : List ServerRow) (moves : Map ServerId TierId) : List ServerRow :=
  servers.map fun entry => match moves.get? entry.serverId with
    | some tierId => { entry with assignedTierId := some tierId }
    | none => entry

/-- The servers that find no seat of their tier, in bind order. -/
def uncovered (quantities : List TierQuantity) (servers : List ServerRow) : List ServerId :=
  (servers.foldl (fun (left, out) server =>
    match server.assignedTierId with
    | none => (left, out ++ [server.serverId])
    | some held =>
      if 0 < left held then (Function.update left held (left held - 1), out) else (left, out ++ [server.serverId]))
    (boughtAt quantities, [])).2

/-- `coverageLoss` finds a server. -/
def losesServer (current future : List TierQuantity) (servers futureServers : List ServerRow) : Bool :=
  (uncovered future futureServers).any fun serverId => !(uncovered current servers).contains serverId

def freeAfterHolders (quantities : List TierQuantity) (servers : List ServerRow) (tierId : TierId) : ℤ :=
  ((quantities.find? fun entry => decide (entry.tierId = tierId)).map (·.quantity)).getD 0 -
    servers.countP fun entry => decide (entry.assignedTierId = some tierId)

/-- `heldKeyRefusal` names a key. -/
def takesHeldKey (view : BillingOrgView) (current future : List TierQuantity) (futureServers : List ServerRow) : Bool :=
  view.heldKeys.any fun tierId =>
    let after := freeAfterHolders future futureServers tierId
    after < reservedAt view.heldKeys tierId && after < freeAfterHolders current view.servers tierId

inductive CoverageAnswer where
  | free
  | refused
  /-- A tier has no rank, which ends the request. -/
  | failed
  deriving DecidableEq

/-- `coverageRefusal`; a tier that would go negative is left to the provider. -/
def coverageRefusal (view : BillingOrgView) (proposed : List (TierId × ℤ)) (rankOf : TierId → Option ℤ)
    (moves : List (ServerId × TierId)) : CoverageAnswer :=
  let current := tierQuantitiesFromState view.state
  let deltas := proposed.foldl (fun deltas entry => addDelta deltas entry.1 entry.2) (deferredDeltasByTier view.intents)
  match applyTierDeltas current deltas rankOf with
  | .error .negative => .free
  | .error .noRank => .failed
  | .ok future =>
    if (future.map (·.quantity)).sum < view.active then .refused
    else
      let downgrades := view.intents.filterMap fun intent =>
        match intent.kind, intent.serverId, intent.toTierId with
        | .downgrade, some serverId, some tierId => some (serverId, tierId)
        | _, _, _ => none
      let futureServers := serversAfterMoves view.servers (Map.ofEntries (downgrades ++ moves))
      if losesServer current future view.servers futureServers || takesHeldKey view current future futureServers then
        .refused
      else .free

/-- The rest of `upgradeTier`, once the gates are passed. -/
def swapAndMove (lower higher : TierRow) (serverId : ServerId) : Proc Unit := do
  let swap ← ask (.applyImmediate lower higher)
  if swap = .landed then do
    let _ ← ask (.moveNamedServerTier serverId lower.id higher.id)
    pure ()
  else pure ()

/-- `upgradeTier` of a named server. -/
def upgradeTier (lower higher : TierRow) (serverId : ServerId) : Proc Unit :=
  if lower.id = higher.id ∨ ¬lower.rank < higher.rank then pure ()
  else do
    let view ← ask .loadView
    if licensesEnding view higher.id || tierChangeRefused view || !namedServerMove view serverId lower higher then
      pure ()
    else do
      let ranks := knownRanks view [lower, higher]
      let rows ← ask (.getTiersByIds ((deferredIntentTargets view.intents).filter fun tierId => !ranks.has tierId))
      let all := rows.foldl (fun ranks row => ranks.set row.id row.rank) ranks
      match coverageRefusal view [(lower.id, -1), (higher.id, 1)] all.get? [(serverId, higher.id)] with
      | .free => swapAndMove lower higher serverId
      | .refused | .failed => pure ()

inductive Call where
  | assignServerTier (serverId : ServerId) (tierId : Option TierId)
  | applyAddServerTierAtEnroll (serverId : ServerId) (tierId : TierId)
  | upgradeTier (lower higher : TierRow) (serverId : ServerId)

def body : Call → Proc Unit
  | .assignServerTier serverId tierId => do
    let _ ← ask (.assignServerTier serverId tierId)
    pure ()
  | .applyAddServerTierAtEnroll serverId tierId => do
    let _ ← ask (.applyAddServerTierAtEnroll serverId tierId)
    pure ()
  | .upgradeTier lower higher serverId => Tiers.upgradeTier lower higher serverId

end TurboPanel.Tiers
