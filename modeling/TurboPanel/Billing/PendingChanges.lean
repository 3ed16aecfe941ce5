import TurboPanel.Billing.Projection
import TurboPanel.Js.Map
import TurboPanel.Tiers.Assignment

/-!
# The pending changes of a subscription

`pending-changes.ts`, the mutations of `mutations.ts` and the sync of `entitlements.ts`, for one
organization with one subscription. A release or a downgrade is parked as an intent in the ledger;
an increase and an upgrade are made at once. The sync drops the intents that have landed, and moves
the servers that landed downgrades name.

The quantity lease makes each mutation and each sync one step. What the provider answers is the
environment's, and so are the rows that a projection writes, except that they are of this
subscription.
-/

namespace TurboPanel.PendingChanges

open Js
open Tiers (ServerId TierId TierRow OrganizationSeat ServerRow Licenses tierQuantitiesFromState isEndedStatus)
open StripeProjection (Time isDelinquentStatus)

abbrev SubscriptionId := ℕ

/-! ## The ledger -/

inductive PendingIntentKind where
  | downgrade
  | releaseSeat
  deriving DecidableEq

structure PendingIntent where
  id : ℕ
  kind : PendingIntentKind
  fromTierId : TierId
  toTierId : Option TierId
  idempotencyKey : ℕ
  createdAt : Time
  /-- The period end that the change is parked behind, where it was known. -/
  landsAt : Option Time
  /-- The quantity at `fromTierId` when the intent was written. -/
  fromQuantity : ℤ
  serverId : Option ServerId
  deriving DecidableEq

structure PendingChangeLedger where
  providerSubscriptionId : SubscriptionId
  intents : List PendingIntent

def emptyLedger (providerSubscriptionId : SubscriptionId) : PendingChangeLedger := ⟨providerSubscriptionId, []⟩

def withIntent (ledger : PendingChangeLedger) (intent : PendingIntent) : PendingChangeLedger :=
  { ledger with intents := (ledger.intents.filter fun i => decide (i.id ≠ intent.id)) ++ [intent] }

def withoutIntents (ledger : PendingChangeLedger) (ids : List ℕ) : PendingChangeLedger :=
  { ledger with intents := ledger.intents.filter fun i => !ids.contains i.id }

def bump (out : Map TierId ℤ) (tierId : TierId) (delta : ℤ) : Map TierId ℤ :=
  out.set tierId ((out.get? tierId).getD 0 + delta)

def deferredDeltasByTier (ledger : PendingChangeLedger) : Map TierId ℤ :=
  ledger.intents.foldl (fun out intent =>
    let out := bump out intent.fromTierId (-1)
    match intent.kind, intent.toTierId with
    | .downgrade, some toTierId => bump out toTierId 1
    | _, _ => out) Map.empty

/-- The outstanding releases at the tier, the newest first. -/
def restorableReleases (ledger : PendingChangeLedger) (tierId : TierId) : List PendingIntent :=
  ((ledger.intents.filter fun intent =>
    decide (intent.kind = .releaseSeat) && decide (intent.fromTierId = tierId)).reverse).insertionSort
      fun a b => b.createdAt ≤ a.createdAt

structure EndingLicenses where
  count : ℕ
  endsAt : Option Time

def earlierBoundary : Option Time → Option Time → Option Time
  | some current, some candidate => some (if current ≤ candidate then current else candidate)
  | some current, none => some current
  | none, candidate => candidate

def endingLicensesByTier (ledger : PendingChangeLedger) : Map TierId EndingLicenses :=
  ledger.intents.foldl (fun out intent =>
    if intent.kind ≠ .releaseSeat then out
    else
      let prev := out.get? intent.fromTierId
      out.set intent.fromTierId
        ⟨(prev.elim 0 (·.count)) + 1, earlierBoundary (prev.bind (·.endsAt)) intent.landsAt⟩) Map.empty

structure LandingContext where
  ended : Bool
  currentPeriodEnd : Option Time
  seatsAt : TierId → ℤ

def periodRolledPast : Option Time → Option Time → Bool
  | some landsAt, some currentPeriodEnd => decide (landsAt < currentPeriodEnd)
  | _, _ => false

def landedIntents (ledger : PendingChangeLedger) (ctx : LandingContext) : List PendingIntent :=
  if ctx.ended then ledger.intents
  else ledger.intents.filter fun intent =>
    periodRolledPast intent.landsAt ctx.currentPeriodEnd ||
      decide (ctx.seatsAt intent.fromTierId < intent.fromQuantity)

/-! ## The organization -/

structure SubscriptionRow where
  providerSubscriptionId : SubscriptionId
  currentPeriodEnd : Option Time
  scheduleId : Option Text

structure Organization where
  /-- The licensed servers in bind order, the seats, the grant and the keys. The status of the
  subscription is in `licenses.billing`. -/
  licenses : Licenses
  row : SubscriptionRow
  /-- The `setting` row of the ledger. -/
  pendingChanges : Option PendingChangeLedger
  tiers : List TierRow
  /-- Active licenses, bound or not. -/
  activeLicenses : ℕ
  /-- The tiers whose product sells. -/
  sellable : TierId → Bool
  /-- How many identifiers were minted. -/
  minted : ℕ

def Organization.ended (o : Organization) : Bool :=
  match o.licenses.billing.subscription with
  | some status => isEndedStatus status
  | none => false

def hasLiveSubscription (o : Organization) : Bool :=
  match o.licenses.billing.subscription with
  | some status => !isEndedStatus status
  | none => false

/-- `seatsAtFromState`, and `seatQuantitiesByTier` with zero for the tiers it has not. -/
def seatsAt (o : Organization) (tierId : TierId) : ℤ :=
  if hasLiveSubscription o then
    ((o.licenses.billing.seats.filter fun seat => decide (seat.tier.id = tierId)).map (·.quantity)).sum
  else 0

/-- The ledger that is read for a subscription: a row of another subscription reads as empty. -/
def readPendingChanges (o : Organization) (providerSubscriptionId : SubscriptionId) : PendingChangeLedger :=
  match o.pendingChanges with
  | some stored =>
    if stored.providerSubscriptionId = providerSubscriptionId then stored else emptyLedger providerSubscriptionId
  | none => emptyLedger providerSubscriptionId

/-- An empty ledger deletes the row. -/
def writePendingChanges (o : Organization) (ledger : PendingChangeLedger) : Organization :=
  { o with pendingChanges := if ledger.intents = [] then none else some ledger }

/-- The ledger of the view of a mutation. -/
def Organization.ledger (o : Organization) : PendingChangeLedger :=
  readPendingChanges o o.row.providerSubscriptionId

/-! ## The coverage gate -/

structure TierDelta where
  tierId : TierId
  delta : ℤ

def currentTierQuantities (o : Organization) : Map TierId ℤ :=
  Map.ofEntries ((tierQuantitiesFromState o.licenses.billing).map fun entry => (entry.tierId, entry.quantity))

/-- `none` where a tier would go below zero. -/
def applyTierDeltas (current deltas : Map TierId ℤ) : Option (Map TierId ℤ) :=
  deltas.entries.foldl (fun out entry => do
    let out ← out
    let quantity := (out.get? entry.1).getD 0 + entry.2
    if quantity < 0 then none else some (out.set entry.1 quantity)) (some current)

/-- `readAssignment(quantities, servers).uncovered`. -/
def uncovered (quantities : Map TierId ℤ) (servers : List ServerRow) : List ServerId :=
  (servers.foldl (fun acc server =>
    match server.assignedTierId with
    | none => (acc.1, acc.2 ++ [server.serverId])
    | some held =>
      let free := (acc.1.get? held).getD 0
      if 0 < free then (acc.1.set held (free - 1), acc.2) else (acc.1, acc.2 ++ [server.serverId]))
    (quantities.mapValues (max 0), [])).2

def coverageLoss (current proposed : Map TierId ℤ) (servers futureServers : List ServerRow) : Option ServerId :=
  (uncovered proposed futureServers).find? fun serverId => !(uncovered current servers).contains serverId

def serversAfterMoves (servers : List ServerRow) (moves : Map ServerId TierId) : List ServerRow :=
  servers.map fun entry =>
    match moves.get? entry.serverId with
    | none => entry
    | some toTierId => { entry with assignedTierId := some toTierId }

def freeAfterHolders (quantities : Map TierId ℤ) (servers : List ServerRow) (tierId : TierId) : ℤ :=
  (quantities.get? tierId).getD 0 - servers.countP fun entry => decide (entry.assignedTierId = some tierId)

/-- The tier where an unused key holds a seat that would be gone. -/
def heldKeyRefusal (o : Organization) (current future : Map TierId ℤ) (futureServers : List ServerRow) :
    Option TierId :=
  (o.licenses.heldKeys.foldl setAdd []).find? fun tierId =>
    let after := freeAfterHolders future futureServers tierId
    decide (after < o.licenses.heldKeys.count tierId) &&
      decide (after < freeAfterHolders current o.licenses.servers tierId)

inductive CoverageRefusal where
  | licensesInUse (purchasedAfter : ℤ) (licensesHeld : ℕ)
  | serversUncovered (serverId : ServerId)
  | licenseHeldByKey (tierId : TierId)
  deriving DecidableEq

/-- The servers that the outstanding downgrades move. -/
def namedMoves (ledger : PendingChangeLedger) : Map ServerId TierId :=
  ledger.intents.foldl (fun named intent =>
    match intent.kind, intent.serverId, intent.toTierId with
    | .downgrade, some serverId, some toTierId => named.set serverId toTierId
    | _, _, _ => named) Map.empty

def coverageRefusal (o : Organization) (proposed : List TierDelta) (moves : Map ServerId TierId) :
    Option CoverageRefusal :=
  let current := currentTierQuantities o
  let deltas := proposed.foldl (fun deltas d => bump deltas d.tierId d.delta) (deferredDeltasByTier o.ledger)
  match applyTierDeltas current deltas with
  | none => none
  | some future =>
    let purchasedAfter := (future.entries.map Prod.snd).sum
    if purchasedAfter < o.activeLicenses then some (.licensesInUse purchasedAfter o.activeLicenses)
    else
      let named := moves.entries.foldl (fun named e => named.set e.1 e.2) (namedMoves o.ledger)
      let futureServers := serversAfterMoves o.licenses.servers named
      match coverageLoss current future o.licenses.servers futureServers with
      | some serverId => some (.serversUncovered serverId)
      | none => (heldKeyRefusal o current future futureServers).map .licenseHeldByKey

end TurboPanel.PendingChanges
