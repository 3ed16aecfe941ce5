import TurboPanel.Js.Map
import TurboPanel.Lib.Ipv6Text

/-!
# The private-path ladder

The model of the resolution half of `src/features/net/private-endpoint.ts`: which address one server
uses to reach another, from caches that were loaded before. The rungs are the trusted datacenter
networks that both servers are on, the TurboFabric tunnel, the public address and, last, a trusted
network whose link is down. `sharedDatacenterIds` is that of `datacenter-membership.ts`, the
tunnel's health that of `src/features/fabric/peer-health.ts`.

`Date.parse` is a parameter, and so is the collation of `localeCompare`.
-/

namespace TurboPanel.Net

open Js Ip

/-! ## Membership pins -/

/-- A datacenter membership pin. Its family is that of its address. -/
structure DatacenterMembershipRow where
  serverId : String
  datacenterId : String
  address : String
  family : IpAddressVersion
  linkDown : Bool
  datacenterId_ne : datacenterId ≠ ""
  family_eq : parseIpVersion address.toList = some family

/-! ## Policies, relays and caches -/

inductive DatacenterAddressPreference
  | ipv6
  | ipv4
  deriving DecidableEq

structure DatacenterPolicyRow where
  addressPreference : DatacenterAddressPreference
  priority : ℤ
  trusted : Bool

def defaultDatacenterPolicyRow : DatacenterPolicyRow :=
  { addressPreference := .ipv6, priority := 100, trusted := true }

structure RelayObservedPeer where
  publicKey : String
  lastHandshakeAt : Option String

/-- A relay's last reading of its peers. -/
structure RelayObserved where
  reportedAt : String
  peers : List RelayObservedPeer

/-- The key of a relay: not read, not there yet, or there. -/
inductive RelayKey
  | notLoaded
  | keyless
  | key (publicKey : String)
  deriving DecidableEq

structure RelayJoinRow where
  serverId : String
  fabricId : String
  fabricCreatedAt : String
  address : String
  publicKey : RelayKey
  observed : Option RelayObserved

/-- What the resolution reads. Datacenter ids are `uuid`s, which a collation does not take for
equal. -/
structure PrivatePathCaches (collation : Collation) where
  membershipsByServer : Map String (List DatacenterMembershipRow)
  relays : List RelayJoinRow
  policiesByDatacenter : Map String DatacenterPolicyRow
  publicAddressesByServer : Map String String
  /-- Servers whose daemon lists `fabric-lan-routes-v1`; `none` means none. -/
  lanRouteServerIds : Option (List String)
  /-- Servers whose daemon is connected; `none` skips the check. -/
  connectedServerIds : Option (List String)
  nowMs : ℤ
  datacenterIds_distinct : ∀ {server server' : String} {pins pins' : List DatacenterMembershipRow},
    membershipsByServer.get? server = some pins → membershipsByServer.get? server' = some pins' →
    ∀ r ∈ pins, ∀ r' ∈ pins', collation.compare r.datacenterId r'.datacenterId = .eq →
      r.datacenterId = r'.datacenterId

/-! ## Results -/

inductive PrivateEndpointPurpose
  | failoverReplication
  | readReplication
  | clientBackend
  deriving DecidableEq

inductive PrivateEndpointTransport
  | sameHost
  | datacenter
  | fabric
  | publicHost
  deriving DecidableEq

structure ResolvedPrivateEndpoint where
  address : String
  transport : PrivateEndpointTransport
  datacenterId : Option String := none
  linkDown : Bool := false
  fabricId : Option String := none
  untrustedPublic : Bool := false
  tunnelDown : Bool := false

inductive PrivateEndpointError
  | privatePathUnavailable (fromServerId toServerId : String)
  | privateFamilyMismatch (fromServerId toServerId datacenterId : String)
  | untrustedNetworkNeedsFabric (fromServerId toServerId datacenterId : String)

/-- A rung that was tried: nothing, an error or an endpoint. -/
abbrev Resolution := Option (Except PrivateEndpointError ResolvedPrivateEndpoint)

/-! ## Datacenter networks of a pair -/

/-- Address families present for a server in one datacenter. -/
def familiesInDatacenter (pins : List DatacenterMembershipRow) (datacenterId : String) :
    List IpAddressVersion :=
  ((pins.filter fun pin => pin.datacenterId = datacenterId).map (·.family)).foldl setAdd []

def preferredFamilyOrder : DatacenterAddressPreference → List IpAddressVersion
  | .ipv4 => [.v4, .v6]
  | .ipv6 => [.v6, .v4]

/-- Family-intersected pin address for `toPins` in a shared datacenter. -/
def pinAddressForDatacenter (fromPins toPins : List DatacenterMembershipRow) (datacenterId : String)
    (preference : DatacenterAddressPreference) : Option String :=
  let intersection := (familiesInDatacenter fromPins datacenterId).filter
    fun family => family ∈ familiesInDatacenter toPins datacenterId
  (preferredFamilyOrder preference).findSome? fun family =>
    if family ∉ intersection then none
    else truthyString ((toPins.find? fun row =>
      row.datacenterId = datacenterId ∧ row.family = family).map (·.address))

section Policies

variable (collation : Collation) (policies : Map String DatacenterPolicyRow)

def policyFor (datacenterId : String) : DatacenterPolicyRow :=
  (policies.get? datacenterId).getD defaultDatacenterPolicyRow

def sharedDatacenterIds (a b : List DatacenterMembershipRow) : List String :=
  let shared := (a.map (·.datacenterId)).filter fun id => id ∈ b.map (·.datacenterId)
  sortKeys collation (shared.foldl setAdd [])

/-- `compare(a, b) <= 0`: by priority, then by id. -/
def NotAfter (a b : String) : Prop :=
  (policyFor policies a).priority < (policyFor policies b).priority ∨
    (policyFor policies a).priority = (policyFor policies b).priority ∧ collation.compare a b ≠ .gt

instance : DecidableRel (NotAfter collation policies) := fun _ _ => inferInstanceAs (Decidable (_ ∨ _))

structure SharedDatacenterPartition where
  trusted : List String
  untrusted : List String

/-- The datacenters two servers share, trusted and untrusted, each in order. -/
def partitionSharedDatacenters (fromPins toPins : List DatacenterMembershipRow) :
    SharedDatacenterPartition :=
  let shared := sharedDatacenterIds collation fromPins toPins
  { trusted := (shared.filter fun id => (policyFor policies id).trusted).insertionSort
      (NotAfter collation policies)
    untrusted := (shared.filter fun id => !(policyFor policies id).trusted).insertionSort
      (NotAfter collation policies) }

end Policies

structure TrustedByLink where
  available : List String
  down : List String

/-- A network is down for the pair when a pin of either server in it is. -/
def splitTrustedByLink (trusted : List String) (fromPins toPins : List DatacenterMembershipRow) :
    TrustedByLink :=
  let downIds := (((fromPins ++ toPins).filter (·.linkDown)).map (·.datacenterId)).foldl setAdd []
  { available := trusted.filter fun id => id ∉ downIds
    down := trusted.filter fun id => id ∈ downIds }

/-! ## Trusted LAN pairs -/

section Caches

variable {collation : Collation} (caches : PrivatePathCaches collation)

def PrivatePathCaches.pins (server : String) : List DatacenterMembershipRow :=
  (caches.membershipsByServer.get? server).getD []

/-- The partition of the datacenters of a pair. -/
def PrivatePathCaches.partition (fromServerId toServerId : String) : SharedDatacenterPartition :=
  partitionSharedDatacenters collation caches.policiesByDatacenter (caches.pins fromServerId)
    (caches.pins toServerId)

structure LanAddress where
  address : String
  datacenterId : String

def trustedLanIpv4 (fromServerId toServerId : String) : Option LanAddress :=
  let fromPins := caches.pins fromServerId
  let toPins := caches.pins toServerId
  let byLink := splitTrustedByLink (caches.partition fromServerId toServerId).trusted fromPins toPins
  (byLink.available ++ byLink.down).findSome? fun datacenterId =>
    if .v4 ∉ familiesInDatacenter fromPins datacenterId then none
    else
      match truthyString (pinAddressForDatacenter fromPins toPins datacenterId .ipv4) with
      | some address => if address.toList.contains ':' then none else some { address, datacenterId }
      | none => none

inductive TrustedLanBlocker
  | sameServer
  | daemonTooOld
  | noTrustedNetwork
  | noIpv4
  deriving DecidableEq

/-- Why two servers are not a trusted LAN pair, or `none` when they are. -/
def trustedLanBlocker (fromServerId toServerId : String) : Option TrustedLanBlocker :=
  let lanRouteServerIds := caches.lanRouteServerIds.getD []
  if fromServerId = toServerId then some .sameServer
  else if fromServerId ∉ lanRouteServerIds then some .daemonTooOld
  else if toServerId ∉ lanRouteServerIds then some .daemonTooOld
  else if (caches.partition fromServerId toServerId).trusted.length = 0 then some .noTrustedNetwork
  else if (trustedLanIpv4 caches fromServerId toServerId).isNone then some .noIpv4
  else if (trustedLanIpv4 caches toServerId fromServerId).isNone then some .noIpv4
  else none

def serversShareTrustedLan (fromServerId toServerId : String) : Bool :=
  trustedLanBlocker caches fromServerId toServerId == none

/-! ## The datacenter rung -/

/-- The loop of `resolveDatacenterFromCaches`, with the first datacenter that did not match. -/
def resolveDatacenterLoop (fromServerId toServerId : String) :
    List String → Option String → Resolution
  | [], mismatch =>
    (truthyString mismatch).map fun id => .error (.privateFamilyMismatch fromServerId toServerId id)
  | sharedDc :: rest, mismatch =>
    match truthyString (pinAddressForDatacenter (caches.pins fromServerId) (caches.pins toServerId)
      sharedDc (policyFor caches.policiesByDatacenter sharedDc).addressPreference) with
    | some address => some (.ok { address, transport := .datacenter, datacenterId := some sharedDc })
    | none => resolveDatacenterLoop fromServerId toServerId rest (mismatch.orElse fun _ => some sharedDc)

/-- The first family-compatible pin address among the trusted datacenters given. -/
def resolveDatacenterFromCaches (fromServerId toServerId : String) (trusted : List String) :
    Resolution :=
  resolveDatacenterLoop caches fromServerId toServerId trusted none

/-- `lastResort`: the networks that are down. -/
def rungLastResort (resolveAmong : List String → Resolution) (byLink : TrustedByLink) : Resolution :=
  match resolveAmong byLink.down with
  | some (.ok down) => some (.ok { down with linkDown := true })
  | other => other

/-- `preferred`: the networks that are up, or one that is down when they fail on the family only. -/
def rungPreferred (resolveAmong : List String → Resolution) (byLink : TrustedByLink) : Resolution :=
  match resolveAmong byLink.available with
  | some (.error mismatch) =>
    match rungLastResort resolveAmong byLink with
    | some (.ok fallback) => some (.ok fallback)
    | _ => some (.error mismatch)
  | up => up

/-! ## The fabric rung -/

variable (parseDate : String → Option ℤ)

def fabricHandshakeHealthyMs : ℤ := 195000

def fabricObservationMaxAgeMs : ℤ := 7 * 60000

inductive PairTunnelHealth
  | healthy
  | down
  | unknown
  deriving DecidableEq

def pairTunnelHealth (observed : Option RelayObserved) (otherPublicKey : String) (nowMs : ℤ) :
    PairTunnelHealth :=
  match observed with
  | none => .unknown
  | some observed =>
    if otherPublicKey = "" then .unknown
    else
      match parseDate observed.reportedAt with
      | none => .unknown
      | some observedMs =>
        if fabricObservationMaxAgeMs < nowMs - observedMs then .unknown
        else
          let peer := observed.peers.find? fun entry => entry.publicKey = otherPublicKey
          match (truthyString (peer.bind (·.lastHandshakeAt))).bind parseDate with
          | none => .down
          | some handshakeMs =>
            if observedMs - handshakeMs ≤ fabricHandshakeHealthyMs then .healthy else .down

def fabricTunnelUsable (fromRow toRow : RelayJoinRow) : Bool :=
  if fromRow.publicKey = .keyless ∨ toRow.publicKey = .keyless then false
  else if caches.connectedServerIds.any fun ids => toRow.serverId ∉ ids then false
  else
    match toRow.publicKey with
    | .notLoaded => true
    | .keyless => false
    | .key publicKey =>
      pairTunnelHealth parseDate fromRow.observed publicKey caches.nowMs == .healthy

variable (collation) in
/-- `rows.sort((a, b) => a.fabricCreatedAt.localeCompare(b.fabricCreatedAt))[0]`. -/
def oldestFabric (rows : List RelayJoinRow) : Option RelayJoinRow :=
  (rows.insertionSort fun a b =>
    collation.compare a.fabricCreatedAt b.fabricCreatedAt ≠ .gt).head?

def fabricEndpoint (row : RelayJoinRow) (tunnelDown : Bool) : ResolvedPrivateEndpoint :=
  { address := row.address, transport := .fabric, fabricId := some row.fabricId, tunnelDown }

def resolveFabricFromCaches (fromServerId toServerId : String) (allowTunnelDown : Bool) :
    Option ResolvedPrivateEndpoint :=
  let fromByFabric := Map.ofEntries
    ((caches.relays.filter fun row => row.serverId = fromServerId).map fun row => (row.fabricId, row))
  let sharedOnTo := caches.relays.filter fun row =>
    row.serverId = toServerId ∧ (fromByFabric.get? row.fabricId).any
      fun fromRow => fabricTunnelUsable caches parseDate fromRow row
  match oldestFabric collation sharedOnTo with
  | some chosen => some (fabricEndpoint chosen false)
  | none =>
    if !allowTunnelDown then none
    else
      let keyed := caches.relays.filter fun row =>
        row.serverId = toServerId ∧ row.publicKey ≠ .keyless ∧
          (fromByFabric.get? row.fabricId).any fun fromRow => fromRow.publicKey ≠ .keyless
      (oldestFabric collation keyed).map (fabricEndpoint · true)

/-! ## The ladder -/

/-- Public rung; flagged when the pair shares only untrusted datacenters. -/
def publicEndpoint (address : String) (partition : SharedDatacenterPartition) :
    ResolvedPrivateEndpoint :=
  { address, transport := .publicHost
    untrustedPublic := decide (0 < partition.untrusted.length ∧ partition.trusted.length = 0) }

def untrustedOnlyPairError (fromServerId toServerId : String) (purpose : PrivateEndpointPurpose)
    (partition : SharedDatacenterPartition) : Option PrivateEndpointError :=
  match partition.untrusted.head? with
  | none => none
  | some datacenterId =>
    if purpose ≠ .clientBackend ∨ 0 < partition.trusted.length then none
    else some (.untrustedNetworkNeedsFabric fromServerId toServerId datacenterId)

/-- The purpose-aware ladder. -/
def resolveOneFromCaches (fromServerId toServerId : String) (purpose : PrivateEndpointPurpose) :
    Except PrivateEndpointError ResolvedPrivateEndpoint :=
  if fromServerId = toServerId then .ok { address := "127.0.0.1", transport := .sameHost }
  else
    let partition := caches.partition fromServerId toServerId
    let byLink := splitTrustedByLink partition.trusted (caches.pins fromServerId)
      (caches.pins toServerId)
    let resolveAmong := resolveDatacenterFromCaches caches fromServerId toServerId
    match rungPreferred resolveAmong byLink with
    | some datacenter => datacenter
    | none =>
      if purpose = .failoverReplication then
        match rungLastResort resolveAmong byLink with
        | some fallback => fallback
        | none =>
          match partition.untrusted.head? with
          | some untrustedDatacenterId =>
            match resolveFabricFromCaches caches parseDate fromServerId toServerId true with
            | some viaFabric => .ok viaFabric
            | none =>
              .error (.untrustedNetworkNeedsFabric fromServerId toServerId untrustedDatacenterId)
          | none => .error (.privatePathUnavailable fromServerId toServerId)
      else
        let fabricPath :=
          if serversShareTrustedLan caches fromServerId toServerId then none
          else resolveFabricFromCaches caches parseDate fromServerId toServerId false
        match fabricPath with
        | some viaFabric => .ok viaFabric
        | none =>
          match truthyString (caches.publicAddressesByServer.get? toServerId) with
          | some publicAddress => .ok (publicEndpoint publicAddress partition)
          | none =>
            match rungLastResort resolveAmong byLink with
            | some lastResort => lastResort
            | none =>
              .error ((untrustedOnlyPairError fromServerId toServerId purpose partition).getD
                (.privatePathUnavailable fromServerId toServerId))

end Caches

end TurboPanel.Net
