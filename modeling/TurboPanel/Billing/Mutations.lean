import TurboPanel.Billing.PendingChanges

/-!
# The billing mutations and the entitlement sync

`mutations.ts` and `syncEntitlementsForOrganization`. A mutation checks the view that it loaded, and
then parks intents, withdraws them, or changes the subscription at once. After an immediate change
the subscription is projected and synced under the same lease; a delivery does the same on its own.

What an immediate change sends (the items, the proration date, the record of `seat-increase.ts`)
decides whether the provider takes it, so it is part of the answer here.
-/

namespace TurboPanel.PendingChanges

open Js
open Tiers (ServerId TierId TierRow OrganizationSeat ServerRow Licenses moveNamedServerTier)
open StripeProjection (Time isDelinquentStatus)

/-! ## The sync -/

/-- The period end of the subscription, where there is one. -/
def Organization.currentPeriodEnd (o : Organization) : Option Time :=
  o.licenses.billing.subscription.bind fun _ => o.row.currentPeriodEnd

def Organization.landingContext (o : Organization) : LandingContext := ⟨o.ended, o.currentPeriodEnd, seatsAt o⟩

/-- A server that is past the new size stays where it is. -/
def outgrew (o : Organization) (serverId : ServerId) (toTierId : TierId) : Bool :=
  match o.tiers.find? fun tier => decide (tier.id = toTierId), (o.licenses.find serverId).bind (·.requiredRank) with
  | some target, some required => decide (target.rank < required)
  | _, _ => false

/-- The move of the server that a landed downgrade names. -/
def landIntent (o : Organization) (intent : PendingIntent) : Organization :=
  match intent.kind, intent.serverId, intent.toTierId with
  | .downgrade, some serverId, some toTierId =>
    if outgrew o serverId toTierId then o
    else { o with licenses := (moveNamedServerTier o.licenses serverId intent.fromTierId toTierId).2 }
  | _, _, _ => o

def syncEntitlements (o : Organization) : Organization :=
  let ledger := readPendingChanges o o.row.providerSubscriptionId
  let landed := landedIntents ledger o.landingContext
  let remaining := withoutIntents ledger (landed.map (·.id))
  if o.ended then { writePendingChanges o { remaining with intents := [] } with activeLicenses := 0 }
  else writePendingChanges (landed.foldl landIntent o) remaining

/-! ## The provider -/

/-- What a projection writes. -/
structure Projected where
  status : Text
  currentPeriodEnd : Option Time
  scheduleId : Option Text
  seats : List OrganizationSeat

def project (o : Organization) (p : Projected) : Organization :=
  { o with
    licenses := { o.licenses with billing := { o.licenses.billing with
      subscription := some p.status
      seats := p.seats } }
    row := { o.row with
      currentPeriodEnd := p.currentPeriodEnd
      scheduleId := p.scheduleId } }

/-- How the provider answers a mutation. -/
structure ProviderAnswer where
  /-- It takes the change, or refuses it. -/
  accepted : Bool
  /-- It parks the change under `pending_update`. -/
  pending : Bool
  /-- What the reprojection writes; `none` where it fails. -/
  projected : Option Projected

/-- The organization after an immediate change and its reprojection. -/
def ProviderAnswer.reprojected (answer : ProviderAnswer) (o : Organization) : Option Organization :=
  if answer.accepted then answer.projected.map (project o) else none

/-! ## The mutations -/

inductive Refusal where
  | invalidRequest
  | noSubscription
  | subscriptionPastDue
  | licensesEnding (tierId : TierId) (ending : EndingLicenses)
  | noLicensesEnding (tierId : TierId)
  | tierNotPurchasable
  | notAnUpgrade
  | notADowngrade
  | serverNotLicensed (serverId : ServerId)
  | serverNotOnTier (serverId : ServerId) (tierId : TierId)
  | serverMovePending (serverId : ServerId)
  | tierBelowRequired (serverId : ServerId) (requiredRank : ℤ)
  | coverage (refusal : CoverageRefusal)

/-- What a route answers; `threw` is a failure of the provider. -/
inductive Outcome where
  | refused (refusal : Refusal)
  | threw
  | changedSeats (pending deferred : Bool)
  | restored (restored ending : ℕ)
  | upgraded (pending : Bool) (movedServerId : Option ServerId)
  | downgraded (intentId : ℕ) (serverId : Option ServerId)

def newDeferredIntent (id : ℕ) (kind : PendingIntentKind) (fromTierId : TierId) (toTierId : Option TierId)
    (landsAt : Option Time) (fromQuantity : ℤ) (serverId : Option ServerId) (nowMs : Time) : PendingIntent where
  id := id
  kind := kind
  fromTierId := fromTierId
  toTierId := if kind = .releaseSeat then none else toTierId
  idempotencyKey := id
  createdAt := nowMs
  landsAt := landsAt
  fromQuantity := fromQuantity
  serverId := if kind = .downgrade then serverId else none

/-- The intents are written first, and rolled back if the provider refuses. -/
def applyDeferred (o : Organization) (intents : List PendingIntent) (answer : ProviderAnswer) : Organization :=
  let ledger := intents.foldl withIntent o.ledger
  let written := writePendingChanges { o with minted := o.minted + intents.length } ledger
  if answer.accepted then written
  else writePendingChanges written (withoutIntents ledger (intents.map (·.id)))

/-- The ledger is written first, and restored if the provider refuses. -/
def withdrawDeferred (o : Organization) (intents : List PendingIntent) (answer : ProviderAnswer) : Organization :=
  let written := writePendingChanges o (withoutIntents o.ledger (intents.map (·.id)))
  if answer.accepted then written else writePendingChanges written o.ledger

def licensesEndingRefusal (ledger : PendingChangeLedger) (tierId : TierId) : Option Refusal :=
  match (endingLicensesByTier ledger).get? tierId with
  | none => none
  | some ending => if ending.count = 0 then none else some (.licensesEnding tierId ending)

def tierChangeRefusal (o : Organization) : Option Refusal :=
  match o.licenses.billing.subscription with
  | none => some .noSubscription
  | some status =>
    if Tiers.isEndedStatus status then some .noSubscription
    else if isDelinquentStatus status then some .subscriptionPastDue
    else none

def liveRefusal (o : Organization) : Option Refusal := if hasLiveSubscription o then none else some .noSubscription

def priceRefusal (o : Organization) (tierId : TierId) : Option Refusal :=
  if o.sellable tierId then none else some .tierNotPurchasable

/-- What `changeSeats` checks before it writes. -/
def changeSeatsRefusal (o : Organization) (tierId : TierId) (delta : ℤ) : Option Refusal :=
  if delta = 0 then some .invalidRequest
  else
    liveRefusal o <|>
    if 0 < delta then
      licensesEndingRefusal o.ledger tierId <|> tierChangeRefusal o <|> priceRefusal o tierId
    else
      ((coverageRefusal o [⟨tierId, delta⟩] Map.empty).map .coverage) <|>
      if seatsAt o tierId + delta < 0 then some .invalidRequest else none

/-- One release for each seat. -/
def releases (o : Organization) (tierId : TierId) (delta : ℤ) (nowMs : Time) : List PendingIntent :=
  (List.range (-delta).toNat).map fun i =>
    newDeferredIntent (o.minted + i) .releaseSeat tierId none o.row.currentPeriodEnd (seatsAt o tierId) none nowMs

def changeSeats (o : Organization) (tierId : TierId) (delta : ℤ) (nowMs : Time) (answer : ProviderAnswer) :
    Outcome × Organization :=
  match changeSeatsRefusal o tierId delta with
  | some refusal => (.refused refusal, o)
  | none =>
    if 0 < delta then
      match answer.reprojected o with
      | none => (.threw, o)
      | some projected => (.changedSeats answer.pending false, syncEntitlements projected)
    else
      (if answer.accepted then .changedSeats false true else .threw,
        applyDeferred o (releases o tierId delta nowMs) answer)

def restoreSeats (o : Organization) (tierId : TierId) (count : ℕ) (answer : ProviderAnswer) :
    Outcome × Organization :=
  let endingHere := restorableReleases o.ledger tierId
  if count = 0 then (.refused .invalidRequest, o)
  else if !hasLiveSubscription o then (.refused .noSubscription, o)
  else if endingHere = [] then (.refused (.noLicensesEnding tierId), o)
  else
    let restoring := endingHere.take count
    (if answer.accepted then .restored restoring.length (endingHere.length - restoring.length) else .threw,
      withdrawDeferred o restoring answer)

/-- The checks on the server that a tier move names. -/
def namedServerRefusal (o : Organization) (serverId : Option ServerId) (lower higher : TierRow) : Option Refusal :=
  match serverId with
  | none => none
  | some serverId =>
    match o.licenses.find serverId with
    | none => some (.serverNotLicensed serverId)
    | some named =>
      if named.assignedTierId ≠ some lower.id then some (.serverNotOnTier serverId lower.id)
      else if o.ledger.intents.any fun intent =>
          decide (intent.kind = .downgrade) && decide (intent.serverId = some serverId) then
        some (.serverMovePending serverId)
      else
        match named.requiredRank with
        | some required => if higher.rank < required then some (.tierBelowRequired serverId required) else none
        | none => none

def namedMove (serverId : Option ServerId) (toTierId : TierId) : Map ServerId TierId :=
  match serverId with
  | none => Map.empty
  | some serverId => Map.empty.set serverId toTierId

/-- What both tier moves check of the server and of the coverage. -/
def tierMoveRefusal (o : Organization) (fromTier toTier : TierRow) (serverId : Option ServerId) : Option Refusal :=
  namedServerRefusal o serverId fromTier toTier <|>
  (coverageRefusal o [⟨fromTier.id, -1⟩, ⟨toTier.id, 1⟩] (namedMove serverId toTier.id)).map .coverage

def upgradeTierRefusal (o : Organization) (fromTier toTier : TierRow) (serverId : Option ServerId) :
    Option Refusal :=
  if fromTier.id = toTier.id then some .invalidRequest
  else if ¬fromTier.rank < toTier.rank then some .notAnUpgrade
  else
    licensesEndingRefusal o.ledger toTier.id <|> tierChangeRefusal o <|> priceRefusal o toTier.id <|>
      tierMoveRefusal o fromTier toTier serverId

def upgradeTier (o : Organization) (fromTier toTier : TierRow) (serverId : Option ServerId)
    (answer : ProviderAnswer) : Outcome × Organization :=
  match upgradeTierRefusal o fromTier toTier serverId with
  | some refusal => (.refused refusal, o)
  | none =>
    match answer.reprojected o with
    | none => (.threw, o)
    | some projected =>
      let synced := syncEntitlements projected
      match serverId, answer.pending with
      | some serverId, false =>
        let (moved, licenses) := moveNamedServerTier synced.licenses serverId fromTier.id toTier.id
        (.upgraded false (if moved then some serverId else none), { synced with licenses })
      | _, _ => (.upgraded answer.pending none, synced)

def downgradeTierRefusal (o : Organization) (fromTier toTier : TierRow) (serverId : Option ServerId) :
    Option Refusal :=
  if fromTier.id = toTier.id then some .invalidRequest
  else if fromTier.rank < toTier.rank then some .notADowngrade
  else
    liveRefusal o <|> licensesEndingRefusal o.ledger toTier.id <|> priceRefusal o toTier.id <|>
      tierMoveRefusal o fromTier toTier serverId

def downgradeTier (o : Organization) (fromTier toTier : TierRow) (serverId : Option ServerId) (nowMs : Time)
    (answer : ProviderAnswer) : Outcome × Organization :=
  match downgradeTierRefusal o fromTier toTier serverId with
  | some refusal => (.refused refusal, o)
  | none =>
    let intent := newDeferredIntent o.minted .downgrade fromTier.id (some toTier.id) o.row.currentPeriodEnd
      (seatsAt o fromTier.id) serverId nowMs
    (if answer.accepted then .downgraded intent.id serverId else .threw, applyDeferred o [intent] answer)

/-! ## Runs -/

inductive Step where
  | changeSeats (tierId : TierId) (delta : ℤ) (nowMs : Time) (answer : ProviderAnswer)
  | restoreSeats (tierId : TierId) (count : ℕ) (answer : ProviderAnswer)
  | upgradeTier (fromTier toTier : TierRow) (serverId : Option ServerId) (answer : ProviderAnswer)
  | downgradeTier (fromTier toTier : TierRow) (serverId : Option ServerId) (nowMs : Time) (answer : ProviderAnswer)
  | project (p : Projected)
  | sync

def Step.apply (o : Organization) : Step → Organization
  | .changeSeats tierId delta nowMs answer => (PendingChanges.changeSeats o tierId delta nowMs answer).2
  | .restoreSeats tierId count answer => (PendingChanges.restoreSeats o tierId count answer).2
  | .upgradeTier fromTier toTier serverId answer => (PendingChanges.upgradeTier o fromTier toTier serverId answer).2
  | .downgradeTier fromTier toTier serverId nowMs answer =>
    (PendingChanges.downgradeTier o fromTier toTier serverId nowMs answer).2
  | .project p => PendingChanges.project o p
  | .sync => syncEntitlements o

def run (o : Organization) (steps : List Step) : Organization := steps.foldl Step.apply o

end TurboPanel.PendingChanges
