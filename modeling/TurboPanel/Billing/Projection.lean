import TurboPanel.Data.Interleaving
import TurboPanel.Js.Map
import TurboPanel.Js.Number
import TurboPanel.Js.Text

/-!
# The projection of a subscription

`stripe-projection.ts` and the writes of `billing-records.ts`, for one subscription. A pass takes a
stamp from the clock, reads the subscription and its items from the provider, and writes the payer,
the subscription row and the seats in one transaction. The row is written only if its `updated_at`
is not later than the stamp; when the write is refused the projection makes another pass.

The provider may change between any two requests, and so may the tiers that name its products.
-/

namespace TurboPanel.StripeProjection

open Js Interleaving

/-- Milliseconds. -/
abbrev Time := ℤ

/-! ## What the provider answers -/

/-- A value of a parsed answer. -/
inductive StripeValue where
  | null
  | bool (b : Bool)
  | number (value : ℚ)
  | string (text : Text)
  | list (items : List StripeValue)
  | object (fields : List (Text × StripeValue))

abbrev StripeObject := List (Text × StripeValue)

/-- `o.key`; `none` is `undefined`. -/
def StripeValue.get (o : StripeObject) (key : String) : Option StripeValue := o.lookup key.toList

/-- `isObject(value)`, with the object. -/
def isObject : StripeValue → Option StripeObject
  | .object fields => some fields
  | _ => none

/-- The value of a field, if it is an object. -/
def objectField (o : StripeObject) (key : String) : Option StripeObject := (StripeValue.get o key).bind isObject

def str : Option StripeValue → Option Text
  | some (.string text) => truthy (some text)
  | _ => none

def idOrObjectId : Option StripeValue → Option Text
  | some (.string text) => truthy (some text)
  | some (.object o) => str (StripeValue.get o "id")
  | _ => none

/-- `new Date(value * 1000)`; `none` where it is no valid date, so that `toISOString` throws. -/
def unixToIso (seconds : ℚ) : Option Time :=
  let ms := seconds * 1000
  if 8640000000000000 < |ms| then none else some (if 0 ≤ ms then ⌊ms⌋ else ⌈ms⌉)

def firstTaxId (customer : StripeObject) : Option Text := do
  let taxIds ← objectField customer "tax_ids"
  match StripeValue.get taxIds "data" with
  | some (.list data) => (data.filterMap isObject).head?.bind fun first => str (StripeValue.get first "value")
  | _ => none

/-- The latest `current_period_end` of the items. -/
def latestEnd (items : List StripeObject) : Option ℚ :=
  items.foldl (fun latest item =>
    match StripeValue.get item "current_period_end", latest with
    | some (.number seconds), none => some seconds
    | some (.number seconds), some found => if found < seconds then some seconds else some found
    | _, latest => latest) none

/-- The outer `none` is a throw. -/
def currentPeriodEnd (sub : StripeObject) (items : List StripeObject) : Option (Option Time) :=
  match StripeValue.get sub "current_period_end" with
  | some (.number seconds) => (unixToIso seconds).map some
  | _ =>
    match latestEnd items with
    | none => some none
    | some seconds => (unixToIso seconds).map some

inductive PayerSubject where
  | organization (id : Text)
  | user (id : Text)
  deriving DecidableEq

/-- `UUID_RE`. -/
def isUuid (text : Text) : Bool :=
  decide (text.length = 36) && text.zipIdx.all fun (c, i) =>
    if [8, 13, 18, 23].contains i then decide (c = '-') else isDigitOf 16 c

def readUuid (metadata : StripeObject) (key : String) : Option Text :=
  match StripeValue.get metadata key with
  | some (.string value) => if isUuid (trim value) then some (toLowerCase (trim value)) else none
  | _ => none

def resolvePayerSubject (metadata : Option StripeValue) : Option PayerSubject := do
  let record ← metadata.bind isObject
  match readUuid record "turbopanel_organization_id", readUuid record "turbopanel_user_id" with
  | some _, some _ => none
  | some organizationId, none => some (.organization organizationId)
  | none, some userId => some (.user userId)
  | none, none => none

structure ProviderSubscriptionItem where
  providerItemId : Text
  providerPriceId : Text
  providerProductId : Text
  quantity : ℚ
  deriving DecidableEq

def providerItem (item : StripeObject) : Option ProviderSubscriptionItem := do
  let price := objectField item "price"
  let quantity := match StripeValue.get item "quantity" with
    | some (.number value) => value
    | _ => 1
  let providerItemId ← str (StripeValue.get item "id")
  let providerPriceId ← match price with
    | some price => str (StripeValue.get price "id")
    | none => idOrObjectId (StripeValue.get item "price")
  let providerProductId ← price.bind fun price => idOrObjectId (StripeValue.get price "product")
  some ⟨providerItemId, providerPriceId, providerProductId, quantity⟩

def providerItems (items : List StripeObject) : List ProviderSubscriptionItem := items.filterMap providerItem

/-! ## The rows -/

inductive SubscriptionStatus where
  | incomplete
  | incompleteExpired
  | trialing
  | active
  | pastDue
  | canceled
  | unpaid
  | paused
  | unknown
  deriving DecidableEq

/-- `KNOWN_SUBSCRIPTION_STATUSES`. -/
def knownSubscriptionStatuses : List (Text × SubscriptionStatus) :=
  [("incomplete".toList, .incomplete), ("incomplete_expired".toList, .incompleteExpired),
    ("trialing".toList, .trialing), ("active".toList, .active), ("past_due".toList, .pastDue),
    ("canceled".toList, .canceled), ("unpaid".toList, .unpaid), ("paused".toList, .paused)]

def parseSubscriptionStatus (value : Text) : SubscriptionStatus :=
  (knownSubscriptionStatuses.lookup value).getD .unknown

def isDelinquentStatus (status : Text) : Bool := status = "past_due".toList || status = "unpaid".toList

structure PayerRow where
  id : Text
  providerCustomerId : Text
  subject : PayerSubject
  taxId : Option Text
  createdAt : Time
  updatedAt : Time

structure SubscriptionRow where
  id : Text
  payerId : Text
  status : SubscriptionStatus
  providerStatus : Text
  currentPeriodEnd : Option Time
  scheduleId : Option Text
  pastDueSince : Option Time
  graceExpiresAt : Option Time
  createdAt : Time
  updatedAt : Time

/-- A row of `seat`, of the one subscription. -/
structure SubscriptionItemRow where
  tierId : Text
  providerItemId : Text
  providerPriceId : Text
  quantity : ℕ
  deriving DecidableEq

structure TierRow where
  id : Text
  providerProductId : Option Text

structure Database where
  payers : List PayerRow
  /-- The row of the subscription. -/
  subscription : Option SubscriptionRow
  seats : List SubscriptionItemRow
  tiers : List TierRow

structure ProjectionWrite where
  providerCustomerId : Text
  subject : PayerSubject
  taxId : Option Text
  status : Text
  currentPeriodEnd : Option Time
  scheduleId : Option Text
  items : List ProviderSubscriptionItem
  now : Time
  readStartedAt : Time

/-- A new customer of a subject that has a payer breaks the unique index: the outer `none`. -/
def upsertPayer (payers : List PayerRow) (input : ProjectionWrite) (newId : Text) : Option (Text × List PayerRow) :=
  match payers.find? fun row => decide (row.providerCustomerId = input.providerCustomerId) with
  | some existing =>
    some (existing.id, payers.map fun row =>
      if row.providerCustomerId = input.providerCustomerId then
        { row with taxId := input.taxId, updatedAt := input.now }
      else row)
  | none =>
    if payers.any fun row => decide (row.subject = input.subject) then none
    else some (newId, payers ++ [⟨newId, input.providerCustomerId, input.subject, input.taxId, input.now, input.now⟩])

/-- The row after the write, and whether it was written. -/
def upsertSubscriptionFromProvider (existing : Option SubscriptionRow) (payerId : Text) (input : ProjectionWrite)
    (newId : Text) : SubscriptionRow × Bool :=
  match existing with
  | none =>
    ({ id := newId
       payerId := payerId
       status := parseSubscriptionStatus input.status
       providerStatus := input.status
       currentPeriodEnd := input.currentPeriodEnd
       scheduleId := input.scheduleId
       pastDueSince := if isDelinquentStatus input.status then some input.now else none
       graceExpiresAt := none
       createdAt := input.now
       updatedAt := input.readStartedAt }, true)
  | some row =>
    if row.updatedAt ≤ input.readStartedAt then
      ({ row with
         payerId := payerId
         status := parseSubscriptionStatus input.status
         providerStatus := input.status
         currentPeriodEnd := input.currentPeriodEnd
         scheduleId := input.scheduleId
         pastDueSince := if isDelinquentStatus input.status then some (row.pastDueSince.getD input.now) else none
         graceExpiresAt := none
         updatedAt := input.readStartedAt }, true)
    else (row, false)

def mapProviderProductsToTierIds (tiers : List TierRow) (providerProductIds : List Text) : Map Text Text :=
  tiers.foldl (fun out row =>
    match row.providerProductId with
    | some product => if product ≠ [] ∧ product ∈ providerProductIds then out.set product row.id else out
    | none => out) Map.empty

structure SeatLine where
  providerItemId : Text
  providerPriceId : Text
  quantity : ℕ

/-- The lines by tier, and the ids of the items that have none of their own. -/
def gatherLine (tierByProduct : Map Text Text) (gathered : Map Text SeatLine × List Text)
    (item : ProviderSubscriptionItem) : Map Text SeatLine × List Text :=
  match tierByProduct.get? item.providerProductId, (Number.finite item.quantity).natural? with
  | none, _ => (gathered.1, gathered.2 ++ [item.providerItemId])
  | some _, none => (gathered.1, gathered.2 ++ [item.providerItemId])
  | some tierId, some quantity =>
    match gathered.1.get? tierId with
    | some existing =>
      (gathered.1.set tierId { existing with quantity := existing.quantity + quantity },
        gathered.2 ++ [item.providerItemId])
    | none => (gathered.1.set tierId ⟨item.providerItemId, item.providerPriceId, quantity⟩, gathered.2)

/-- Insert a seat, or put the one with its item id at this tier. -/
def upsertSeat (seats : List SubscriptionItemRow) (row : SubscriptionItemRow) : List SubscriptionItemRow :=
  if seats.any fun seat => decide (seat.providerItemId = row.providerItemId) then
    seats.map fun seat => if seat.providerItemId = row.providerItemId then row else seat
  else seats ++ [row]

/-- The seats and the ids of the skipped items. All that was there is deleted. -/
def replaceSubscriptionItems (tiers : List TierRow) (items : List ProviderSubscriptionItem) :
    List SubscriptionItemRow × List Text :=
  let tierByProduct := mapProviderProductsToTierIds tiers (items.map (·.providerProductId))
  let gathered := items.foldl (gatherLine tierByProduct) (Map.empty, [])
  (gathered.1.entries.foldl (fun seats (tierId, line) =>
    upsertSeat seats ⟨tierId, line.providerItemId, line.providerPriceId, line.quantity⟩) [], gathered.2)

structure Written where
  subscriptionId : Text
  /-- The skipped items; `none` when a newer projection holds the row. -/
  replaced : Option (List Text)

/-- The transaction; `none` where it throws, and then nothing of it stays. -/
def writeProjectionRows (db : Database) (input : ProjectionWrite) (newPayerId newId : Text) :
    Option (Written × Database) := do
  let (payerId, payers) ← upsertPayer db.payers input newPayerId
  let (row, applied) := upsertSubscriptionFromProvider db.subscription payerId input newId
  if !applied then some (⟨row.id, none⟩, { db with payers })
  else
    let (seats, skipped) := replaceSubscriptionItems db.tiers input.items
    some (⟨row.id, some skipped⟩, { db with payers, subscription := some row, seats })

/-! ## Requests and statements -/

structure ItemsPage where
  data : List StripeValue
  hasMore : Bool

/-- What the provider holds: the subscription, its customer expanded, and the pages of its items. -/
structure Provider where
  subscription : StripeObject
  page : Option Text → ItemsPage

structure State where
  db : Database
  provider : Provider
  clock : Time

inductive SkipReason where
  | customerDeleted
  | customerMissing
  | customerSubjectMissing
  | statusMissing
  deriving DecidableEq

inductive Outcome where
  | projected (subscriptionId : Text) (skippedItems : List Text)
  | skipped (reason : SkipReason)
  | threw
  deriving DecidableEq

inductive Op where
  | readClock
  | getSubscription
  | listItems (startingAfter : Option Text)
  | writeProjectionRows (input : ProjectionWrite)
  | syncEntitlements (organizationId : Text) (pendingUpdate : Bool)
  /-- The call answers. -/
  | finish (outcome : Outcome)
  | changeProvider (provider : Provider)
  | changeTiers (tiers : List TierRow)
  | wait (ms : ℕ)

/-- `none` and `false` are a throw. -/
@[reducible] def Ans : Op → Type
  | .readClock => Time
  | .getSubscription => Option StripeObject
  | .listItems _ => Option ItemsPage
  | .writeProjectionRows _ => Option Written
  | .syncEntitlements _ _ => Bool
  | .finish _ => Unit
  | .changeProvider _ => Unit
  | .changeTiers _ => Unit
  | .wait _ => Unit

/-- Whether the request is answered, or the statement is made, and the ids of new rows. -/
structure Env where
  up : Bool
  newPayerId : Text
  newId : Text

def exec (e : Env) : (o : Op) → State → Ans o × State
  | .readClock, s => (s.clock, s)
  | .getSubscription, s => (if e.up then some s.provider.subscription else none, s)
  | .listItems startingAfter, s => (if e.up then some (s.provider.page startingAfter) else none, s)
  | .writeProjectionRows input, s =>
    match if e.up then StripeProjection.writeProjectionRows s.db input e.newPayerId e.newId else none with
    | none => (none, s)
    | some (written, db) => (some written, { s with db })
  | .syncEntitlements _ _, s => (e.up, s)
  | .finish _, s => ((), s)
  | .changeProvider provider, s => ((), { s with provider })
  | .changeTiers tiers, s => ((), { s with db := { s.db with tiers } })
  | .wait ms, s => ((), { s with clock := s.clock + ms })

def machine : Machine Op Ans State Env where
  exec _ e o s := some (exec e o s)
  drop _ s := s

abbrev Proc := Prog Op Ans

abbrev ask (o : Op) : Proc (Ans o) := Prog.call o

/-! ## The calls -/

/-- `STRIPE_LIST_MAX_PAGES`. -/
def stripeListMaxPages : ℕ := 100

/-- `idOf` of the last item. -/
def lastId (data : List StripeValue) : Option Text :=
  (data.getLast?.bind isObject).bind fun item => str (StripeValue.get item "id")

def listAll : ℕ → Option Text → List StripeValue → Proc (Option (List StripeValue))
  | 0, _, _ => pure none
  | pages + 1, startingAfter, out => do
    let answer ← ask (.listItems startingAfter)
    match answer with
    | none => pure none
    | some page =>
      if !page.hasMore then pure (some (out ++ page.data))
      else
        match lastId page.data with
        | none => pure none
        | some last => listAll pages (some last) (out ++ page.data)

/-- The embedded items, where they are all there. -/
def embeddedItems (sub : StripeObject) : Option (List StripeValue) := do
  let embedded ← objectField sub "items"
  match StripeValue.get embedded "data", StripeValue.get embedded "has_more" with
  | some (.list _), some (.bool true) => none
  | some (.list data), _ => some data
  | _, _ => none

def loadSubscriptionItems (sub : StripeObject) : Proc (Option (List StripeObject)) :=
  match embeddedItems sub with
  | some data => pure (some (data.filterMap isObject))
  | none => do
    let all ← listAll stripeListMaxPages none []
    pure (all.map fun all => all.filterMap isObject)

structure Head where
  customer : StripeObject
  providerCustomerId : Text
  subject : PayerSubject
  status : Text

/-- What a pass needs of the subscription before it loads the items. -/
def readHead (sub : StripeObject) : Except SkipReason Head :=
  match objectField sub "customer" with
  | none => .error .customerDeleted
  | some customer =>
    match StripeValue.get customer "deleted" with
    | some (.bool true) => .error .customerDeleted
    | _ =>
      match str (StripeValue.get customer "id") with
      | none => .error .customerMissing
      | some providerCustomerId =>
        match resolvePayerSubject (StripeValue.get customer "metadata") with
        | none => .error .customerSubjectMissing
        | some subject =>
          match str (StripeValue.get sub "status") with
          | none => .error .statusMissing
          | some status => .ok ⟨customer, providerCustomerId, subject, status⟩

/-- What a pass writes, from what it read; `none` where a date is not valid. -/
def projectionWrite (now readStartedAt : Time) (sub : StripeObject) (head : Head) (items : List StripeObject) :
    Option ProjectionWrite := do
  let periodEnd ← currentPeriodEnd sub items
  some { providerCustomerId := head.providerCustomerId
         subject := head.subject
         taxId := firstTaxId head.customer
         status := head.status
         currentPeriodEnd := periodEnd
         scheduleId := idOrObjectId (StripeValue.get sub "schedule")
         items := providerItems items
         now := now
         readStartedAt := readStartedAt }

/-- One pass; `again` is what follows when a newer projection holds the row. -/
def onePass (now : Option Time) (again : Proc Outcome) : Proc Outcome := do
  let readStartedAt ← ask .readClock
  let answer ← ask .getSubscription
  match answer with
  | none => pure .threw
  | some sub =>
    match readHead sub with
    | .error reason => pure (.skipped reason)
    | .ok head =>
      let items ← loadSubscriptionItems sub
      match items.bind (projectionWrite (now.getD readStartedAt) readStartedAt sub head) with
      | none => pure .threw
      | some input =>
        let written ← ask (.writeProjectionRows input)
        match written with
        | none => pure .threw
        | some ⟨_, none⟩ => again
        | some ⟨subscriptionId, some skipped⟩ =>
          match head.subject with
          | .user _ => pure (.projected subscriptionId skipped)
          | .organization organizationId =>
            let synced ← ask (.syncEntitlements organizationId (objectField sub "pending_update").isSome)
            pure (if synced then .projected subscriptionId skipped else .threw)

def projectSubscriptionPass (now : Option Time) : ℕ → Proc Outcome
  | 0 => onePass now (pure .threw)
  | 1 => onePass now (pure .threw)
  | passesLeft + 2 => onePass now (projectSubscriptionPass now (passesLeft + 1))

/-- `MAX_PROJECTION_PASSES`. -/
def maxProjectionPasses : ℕ := 3

def projectSubscriptionById (now : Option Time) : Proc Outcome := projectSubscriptionPass now maxProjectionPasses

inductive Call where
  | projectSubscriptionById (now : Option Time)
  | changeProvider (provider : Provider)
  | changeTiers (tiers : List TierRow)
  | wait (ms : ℕ)

def body : Call → Proc Unit
  | .projectSubscriptionById now => do
    let outcome ← StripeProjection.projectSubscriptionById now
    ask (.finish outcome)
  | .changeProvider provider => ask (.changeProvider provider)
  | .changeTiers tiers => ask (.changeTiers tiers)
  | .wait ms => ask (.wait ms)

end TurboPanel.StripeProjection
