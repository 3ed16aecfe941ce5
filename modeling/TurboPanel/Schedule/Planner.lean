import TurboPanel.Data.UnionFind
import TurboPanel.Fabric.Spanning
import TurboPanel.Schedule.SlotAddresses

/-!
# The scheduler

The model of `planEnvironmentSchedule` of `src/features/schedule/planner.ts`. The services are put
into groups that must share hosts; the servers that every service of a group may use are the group's
hosts; and each service of the group is then placed on them on its own, slot after slot: on the
server that held the slot at the last deploy where that is possible, else on the best of the rest.

`placeSlot` is one round of the loop of `placeService`, and `placeSlots p n` is the state of the
loop before slot `n`.
-/

namespace TurboPanel.Schedule

open Js Fabric Compose

/-! ## Input and result -/

structure FleetServer where
  id : String
  connected : Bool
  labels : Map String String
  name : Option String
  fabricEnabled : Option Bool

structure ExistingSlot where
  serviceId : String
  slot : ℤ
  serverId : String

inductive ReplicaMode
  | replicated
  | global
  deriving DecidableEq

inductive PlacementConstraintOp
  | eq
  | neq
  deriving DecidableEq

structure PlacementConstraint where
  key : String
  op : PlacementConstraintOp
  value : String

structure ServiceScheduleSpec where
  composeServiceName : String
  mode : ReplicaMode
  replicas : ℤ
  constraints : List PlacementConstraint
  spreadKeys : List String
  publishedHostPorts : List ℕ
  colocateWith : List String
  maxReplicasPerNode : Option ℤ

structure PlannedService where
  serviceId : String
  spec : ServiceScheduleSpec

inductive ScheduleErrorCode
  | turbofabricRequired
  | noEligibleServer
  | hostPortConflict
  | constraintUnsatisfiable
  | colocationConflict
  | maxReplicasPerNodeExceeded
  deriving DecidableEq

structure ScheduleFailure where
  error : ScheduleErrorCode
  message : String

structure SchedulePlan where
  slots : List DesiredSlotInput
  serverIds : List String

structure PlanEnvironmentInput where
  pinServerId : Option String
  defaultServerId : Option String
  fabricEnabled : Bool
  servers : List FleetServer
  services : List PlannedService
  existingTasks : List ExistingSlot
  storagePins : Map String String
  document : Option ComposeDocument
  pairSharesTrustedLan : Option (String → String → Bool)
  pairHasDirectTunnel : Option (String → String → Bool)

def fail {α : Type} (error : ScheduleErrorCode) (message : String) : Except ScheduleFailure α :=
  .error ⟨error, message⟩

/-! ## Eligible servers -/

def constraintMatches (labels : Map String String) (constraint : PlacementConstraint) : Bool :=
  match constraint.op with
  | .eq => labels.get? constraint.key == some constraint.value
  | .neq => labels.get? constraint.key != some constraint.value

def serverMatchesConstraints (server : FleetServer) (constraints : List PlacementConstraint) :
    Bool :=
  constraints.all (constraintMatches server.labels)

def connectedServers (servers : List FleetServer) : List FleetServer := servers.filter (·.connected)

def findServer (servers : List FleetServer) (id : Option String) : Option FleetServer :=
  (truthyString id).bind fun id => servers.find? (·.id == id)

/-- The servers that are online, with the pin and the default server even when they are not. -/
def schedulingPool (servers : List FleetServer) (pinServerId defaultServerId : Option String) :
    List FleetServer :=
  let online := connectedServers servers
  let extras := [pinServerId, defaultServerId].foldl (fun extras id =>
    match findServer servers id with
    | none => extras
    | some row =>
      if online.any (·.id == row.id) || extras.any (·.id == row.id) then extras
      else extras ++ [row]) []
  online ++ extras

/-- Keep the one server that is asked for, when one is. -/
def pinnedTo (pin : Option String) (pool : List FleetServer) : List FleetServer :=
  match truthyString pin with
  | none => pool
  | some id => pool.filter (·.id == id)

def eligibleForService (servers : List FleetServer) (spec : ServiceScheduleSpec)
    (pinServerId defaultServerId storagePin : Option String) : List FleetServer :=
  (pinnedTo storagePin (pinnedTo pinServerId
    (schedulingPool servers pinServerId defaultServerId))).filter
      (serverMatchesConstraints · spec.constraints)

def existingByServiceSlot (existing : List ExistingSlot) : Map Text String :=
  Map.ofEntries (existing.map fun task => (slotKey task.serviceId task.slot, task.serverId))

/-! ## Picking a server -/

def spreadToken (server : FleetServer) (key : String) : String :=
  key ++ "=" ++ (server.labels.get? key).getD ""

def spreadScore (server : FleetServer) (spreadKeys : List String)
    (usedLabelValues : Map String ℕ) : ℕ :=
  spreadKeys.foldl (fun score key =>
    score + (usedLabelValues.get? (spreadToken server key)).getD 0) 0

def recordSpread (server : FleetServer) (spreadKeys : List String)
    (usedLabelValues : Map String ℕ) : Map String ℕ :=
  spreadKeys.foldl (fun used key =>
    used.set (spreadToken server key) ((used.get? (spreadToken server key)).getD 0 + 1))
    usedLabelValues

/-- The count of the service on a server is below the cap. -/
def underCap (perNodeCounts : Map String ℕ) (cap : Option ℤ) (server : FleetServer) : Bool :=
  match cap with
  | none => true
  | some cap => decide ((((perNodeCounts.get? server.id).getD 0 : ℕ) : ℤ) < cap)

def withCapacityRemaining (candidates : List FleetServer) (perNodeCounts : Map String ℕ)
    (maxReplicasPerNode : Option ℤ) : List FleetServer :=
  candidates.filter (underCap perNodeCounts maxReplicasPerNode)

def withPortRoom (eligible : List FleetServer) (occupied : List String) (requireEmptyHost : Bool) :
    List FleetServer :=
  if requireEmptyHost then eligible.filter fun row => !occupied.contains row.id else eligible

structure PickParams where
  eligible : List FleetServer
  spreadKeys : List String
  usedLabelValues : Map String ℕ
  occupied : List String
  requireEmptyHost : Bool
  preferredId : Option String
  perNodeCounts : Map String ℕ
  maxReplicasPerNode : Option ℤ

variable (c : Collation)

/-- The comparison of two candidates: spread first, then the preferred server, then the id. -/
def compareCandidates (params : PickParams) (a b : FleetServer) : Ordering :=
  let score := fun row => spreadScore row params.spreadKeys params.usedLabelValues
  let preference := fun row : FleetServer => if some row.id = params.preferredId then 0 else 1
  (compare (score a) (score b)).then
    ((compare (preference a) (preference b)).then (c.compare a.id b.id))

def candidates (params : PickParams) : List FleetServer :=
  withCapacityRemaining (withPortRoom params.eligible params.occupied params.requireEmptyHost)
    params.perNodeCounts params.maxReplicasPerNode

def pickServer (params : PickParams) : Option FleetServer :=
  ((candidates params).insertionSort fun a b => compareCandidates c params a b ≠ .gt).head?

def replicaCount (spec : ServiceScheduleSpec) (eligibleCount : ℕ) : ℤ :=
  match spec.mode with
  | .global => max (eligibleCount : ℤ) 0
  | .replicated => spec.replicas

/-! ## Groups that share hosts -/

/-- `new Map(services.map((row) => [row.spec.composeServiceName, row.serviceId]))`. -/
def nameToId (services : List PlannedService) : Map String String :=
  Map.ofEntries (services.map fun row => (row.spec.composeServiceName, row.serviceId))

/-- The union of a service with one that it names. -/
def uniteWith (services : List PlannedService) (row : PlannedService) (parent : Map String String)
    (otherName : String) : Map String String :=
  match truthyString ((nameToId services).get? otherName) with
  | none => parent
  | some otherId => UnionFind.union parent row.serviceId otherId

/-- The unions of one service. -/
def uniteColocated (services : List PlannedService) (parent : Map String String)
    (row : PlannedService) : Map String String :=
  row.spec.colocateWith.foldl (uniteWith services row) parent

/-- The parents after all unions. -/
def colocationParents (services : List PlannedService) : Map String String :=
  services.foldl (uniteColocated services)
    (services.foldl (fun parent row => parent.set row.serviceId row.serviceId) Map.empty)

/-- One round of the loop that fills the groups; `find` changes the parents. -/
def pushToGroup (st : Map String String × Map String (List String)) (row : PlannedService) :
    Map String String × Map String (List String) :=
  let found := UnionFind.find st.1 row.serviceId
  (found.2, st.2.set found.1 ((st.2.get? found.1).getD [] ++ [row.serviceId]))

def colocationGroups (services : List PlannedService) : List (List String) :=
  (services.foldl pushToGroup (colocationParents services, Map.empty)).2.entries.map Prod.snd

/-! ## Placing a service -/

/-- The parameters of `placeService`. -/
structure PlaceParams where
  service : PlannedService
  eligible : List FleetServer
  existing : Map Text String
  requireEmptyHost : Bool
  preferredId : Option String

/-- What the loop over the slots changes. -/
structure PlaceState where
  usedLabelValues : Map String ℕ
  occupied : List String
  perNodeCounts : Map String ℕ
  slots : List DesiredSlotInput

def PlaceState.initial : PlaceState := ⟨Map.empty, [], Map.empty, []⟩

/-- The eligible server that held the slot before. -/
def stickyServer (p : PlaceParams) (slot : ℕ) : Option FleetServer :=
  findServer p.eligible (p.existing.get? (slotKey p.service.serviceId slot))

/-- The eligible server that held the slot before, where the cap still allows it. -/
def stickyFitting (p : PlaceParams) (st : PlaceState) (slot : ℕ) : Option FleetServer :=
  (stickyServer p slot).filter (underCap st.perNodeCounts p.service.spec.maxReplicasPerNode)

/-- What `pickServer` is called with. -/
def PlaceParams.pickParams (p : PlaceParams) (st : PlaceState) : PickParams where
  eligible := p.eligible
  spreadKeys := p.service.spec.spreadKeys
  usedLabelValues := st.usedLabelValues
  occupied := st.occupied
  requireEmptyHost := p.requireEmptyHost
  preferredId := p.preferredId
  perNodeCounts := st.perNodeCounts
  maxReplicasPerNode := p.service.spec.maxReplicasPerNode

def chosenServer (p : PlaceParams) (st : PlaceState) (slot : ℕ) : Option FleetServer :=
  (stickyFitting p st slot).or (pickServer c (p.pickParams st))

def unplacedSlotError (p : PlaceParams) (st : PlaceState) (slot : ℕ) : ScheduleFailure :=
  let name := p.service.spec.composeServiceName
  let couldNotPlace : ScheduleFailure :=
    ⟨if p.requireEmptyHost then .hostPortConflict else .noEligibleServer,
      "Could not place " ++ name ++ " slot " ++ toString slot⟩
  match p.service.spec.maxReplicasPerNode with
  | none => couldNotPlace
  | some cap =>
    if (withPortRoom p.eligible st.occupied p.requireEmptyHost).length > 0 then
      ⟨.maxReplicasPerNodeExceeded, name ++ " slot " ++ toString slot ++
        " has no server left under max_replicas_per_node " ++ toString cap⟩
    else couldNotPlace

/-- The slot is on the server. -/
def PlaceState.place (st : PlaceState) (p : PlaceParams) (slot : ℕ) (chosen : FleetServer) :
    PlaceState where
  usedLabelValues := recordSpread chosen p.service.spec.spreadKeys st.usedLabelValues
  occupied := setAdd st.occupied chosen.id
  perNodeCounts := st.perNodeCounts.set chosen.id ((st.perNodeCounts.get? chosen.id).getD 0 + 1)
  slots := st.slots ++ [⟨p.service.serviceId, chosen.id, slot, some .running, none⟩]

/-- One round of the loop over the slots. -/
def placeSlot (p : PlaceParams) (st : PlaceState) (slot : ℕ) : Except ScheduleFailure PlaceState :=
  match chosenServer c p st slot with
  | none => .error (unplacedSlotError p st slot)
  | some chosen => .ok (st.place p slot chosen)

/-- The state of the loop before slot `n`. -/
def placeSlots (p : PlaceParams) : ℕ → Except ScheduleFailure PlaceState
  | 0 => .ok PlaceState.initial
  | n + 1 => do
    let st ← placeSlots p n
    placeSlot c p st n

def PlaceParams.count (p : PlaceParams) : ℤ := replicaCount p.service.spec p.eligible.length

def placeService (p : PlaceParams) : Except ScheduleFailure (List DesiredSlotInput) :=
  let name := p.service.spec.composeServiceName
  if p.count < 1 then fail .noEligibleServer ("No eligible server for " ++ name)
  else if p.requireEmptyHost && decide (p.count > p.eligible.length) then
    fail .hostPortConflict (name ++ " publishes a host port and cannot place " ++
      toString p.count ++ " replicas on " ++ toString p.eligible.length ++ " server(s)")
  else
    match p.service.spec.maxReplicasPerNode with
    | none => return (← placeSlots c p p.count.toNat).slots
    | some cap =>
      if p.count > cap * p.eligible.length then
        fail .maxReplicasPerNodeExceeded (name ++ " requires more replicas than " ++
          "max_replicas_per_node allows across " ++ toString p.eligible.length ++
          " eligible server(s) — " ++ toString p.count ++ " requested, at most " ++
          toString cap ++ " per server")
      else return (← placeSlots c p p.count.toNat).slots

/-! ## Placing a group -/

def intersectGroupEligible (pool : List FleetServer) (groupServices : List PlannedService)
    (input : PlanEnvironmentInput) : List FleetServer :=
  groupServices.foldl (fun eligible row =>
    let next := eligibleForService input.servers row.spec input.pinServerId input.defaultServerId
      (input.storagePins.get? row.serviceId)
    eligible.filter fun server => next.any (·.id == server.id)) (pinnedTo input.pinServerId pool)

def emptyGroupError (groupServices : List PlannedService) : ScheduleFailure :=
  let names := ", ".intercalate (groupServices.map (·.spec.composeServiceName))
  let colocated := groupServices.any fun row => decide (row.spec.colocateWith.length > 0)
  ⟨if colocated then .colocationConflict else .constraintUnsatisfiable,
    "No eligible server for " ++ names⟩

/-- The parameters with which a service of a group is placed. -/
def groupParams (eligible : List FleetServer) (existing : Map Text String)
    (preferredId : Option String) (row : PlannedService) : PlaceParams where
  service := row
  eligible := eligible
  existing := existing
  requireEmptyHost := decide (row.spec.publishedHostPorts.length > 0)
  preferredId := preferredId

def placeGroupServices (groupServices : List PlannedService) (eligible : List FleetServer)
    (existing : Map Text String) (preferredId : Option String) :
    Except ScheduleFailure (List DesiredSlotInput) :=
  match (findServer eligible preferredId).or eligible.head? with
  | none => fail .noEligibleServer "No eligible server remains after constraints"
  | some fallback =>
    let hosts := if eligible.length > 0 then eligible else [fallback]
    groupServices.foldlM (fun slots row => do
      let placed ← placeService c (groupParams hosts existing preferredId row)
      return slots ++ placed) []

/-- `new Map(input.services.map((row) => [row.serviceId, row]))`. -/
def servicesById (services : List PlannedService) : Map String PlannedService :=
  Map.ofEntries (services.map fun row => (row.serviceId, row))

def groupServicesOf (services : List PlannedService) (group : List String) : List PlannedService :=
  group.filterMap (servicesById services).get?

def placeColocationGroup (pool : List FleetServer) (existing : Map Text String)
    (input : PlanEnvironmentInput) (group : List String) :
    Except ScheduleFailure (List DesiredSlotInput) :=
  let groupServices := groupServicesOf input.services group
  let eligible := intersectGroupEligible pool groupServices input
  if eligible.length = 0 then .error (emptyGroupError groupServices)
  else placeGroupServices c groupServices eligible existing input.defaultServerId

/-! ## Networks that the plan spans -/

def spanningNetworksForPlan (input : PlanEnvironmentInput) (slots : List DesiredSlotInput)
    (serverIds : List String) : List (List String) :=
  if serverIds.length ≤ 1 then []
  else if (truthyString input.pinServerId).isSome then []
  else
    match input.document with
    | none => []
    | some document =>
      let spanningSlots := slots.map fun slot => SpanningSlot.mk slot.serviceId slot.serverId
      let serviceRows := input.services.map fun row =>
        SpanningServiceRow.mk row.serviceId row.spec.composeServiceName
      (collectSpanningComposeNetworkKeys c document spanningSlots serviceRows []).map fun key =>
        participatingServerIdsForNetwork c document spanningSlots serviceRows key []

structure SpanPairs where
  lan : List (String × String)
  remote : List (String × String)

/-- The pairs of a list, the earlier one first. -/
def orderedPairs : List String → List (String × String)
  | [] => []
  | a :: rest => rest.map (a, ·) ++ orderedPairs rest

def splitSpanPairs (input : PlanEnvironmentInput) (participants : List String) : SpanPairs :=
  let sharesLan := fun pair : String × String =>
    match input.pairSharesTrustedLan with
    | none => false
    | some shares => shares pair.1 pair.2
  let pairs := orderedPairs (sortKeys c participants)
  { lan := pairs.filter sharesLan, remote := pairs.filter fun pair => !sharesLan pair }

def serverName (input : PlanEnvironmentInput) (id : String) : String :=
  ((input.servers.find? (·.id == id)).bind (·.name)).getD id

def joinNames (names : List String) : String := ", ".intercalate names

def serversOutsideLanGroup (participants : List String) (pairs : SpanPairs) : List String :=
  let addPartner := fun (m : Map String (List String)) (a b : String) =>
    match m.get? a with
    | none => m
    | some group => m.set a (setAdd group b)
  let partners := pairs.lan.foldl (fun m pair => addPartner (addPartner m pair.1 pair.2) pair.2 pair.1)
    (Map.ofEntries (participants.map fun id => (id, [id])))
  let anchor := partners.entries.foldl (fun anchor e =>
    if e.2.length > anchor.length then e.2 else anchor) []
  participants.filter fun id => !anchor.contains id

def fabricOffRefusal (input : PlanEnvironmentInput) (participants : List String)
    (pairs : SpanPairs) : String :=
  if pairs.lan.length = 0 then
    "Enable TurboFabric to span a `driver: overlay` network across servers"
  else
    let outside := (serversOutsideLanGroup participants pairs).map (serverName input)
    joinNames outside ++ " " ++ (if outside.length = 1 then "is" else "are") ++
      " on a different datacenter network from the other servers on this network, so it needs " ++
      "TurboFabric. Turn TurboFabric on, or keep the network on servers that share a trusted " ++
      "datacenter network."

def switchedOffRefusal (input : PlanEnvironmentInput) (pairs : SpanPairs) : Option String :=
  let inRemotePair := pairs.remote.flatMap fun pair => [pair.1, pair.2]
  let optedOut := (input.servers.filter fun row =>
    inRemotePair.contains row.id && row.fabricEnabled == some false).map fun row =>
      row.name.getD row.id
  if optedOut.length = 0 then none
  else some ("TurboFabric is switched off for " ++ joinNames optedOut ++ ". Switch it on for " ++
    (if optedOut.length = 1 then "that server" else "those servers") ++
    " to span a `driver: overlay` network across servers")

def noDirectTunnelRefusal (input : PlanEnvironmentInput) (pairs : SpanPairs) : Option String :=
  if pairs.lan.length = 0 then none
  else do
    let hasTunnel ← input.pairHasDirectTunnel
    let missing ← pairs.remote.find? fun pair => hasTunnel pair.1 pair.2 == false
    let a := serverName input missing.1
    let b := serverName input missing.2
    return a ++ " has no direct TurboFabric path to " ++ b ++ ". A network that mixes servers on " ++
      "a shared LAN with servers elsewhere needs a direct tunnel between them: give " ++ a ++
      " or " ++ b ++ " a public address, or keep the network on one side."

def networkRefusal (input : PlanEnvironmentInput) (participants : List String) : Option String :=
  let pairs := splitSpanPairs c input participants
  if pairs.remote.length = 0 then none
  else if !input.fabricEnabled then some (fabricOffRefusal input participants pairs)
  else (switchedOffRefusal input pairs).or (noDirectTunnelRefusal input pairs)

def fabricRefusalForPlan (input : PlanEnvironmentInput) (slots : List DesiredSlotInput)
    (serverIds : List String) : Option String :=
  (spanningNetworksForPlan c input slots serverIds).findSome? fun participants =>
    truthyString (networkRefusal c input participants)

/-! ## The plan -/

def planEmptyEnvironment (input : PlanEnvironmentInput) : Except ScheduleFailure SchedulePlan :=
  match truthyString (input.pinServerId.or input.defaultServerId) with
  | none => .ok ⟨[], []⟩
  | some fallbackId =>
    match findServer input.servers (some fallbackId) with
    | none => fail .noEligibleServer "Pinned server is not in this organization"
    | some _ => .ok ⟨[], [fallbackId]⟩

/-- A pin that names a server the organization does not have. -/
def missingPinnedServer (input : PlanEnvironmentInput) : Bool :=
  (truthyString input.pinServerId).isSome && (findServer input.servers input.pinServerId).isNone

/-- The order of the slots of a plan. -/
def slotOrder (a b : DesiredSlotInput) : Prop :=
  (c.compare a.serviceId b.serviceId).then (compare a.slot b.slot) ≠ .gt

instance (a b : DesiredSlotInput) : Decidable (slotOrder c a b) :=
  inferInstanceAs (Decidable (_ ≠ _))

/-- The slots of all groups, in the order in which they are placed. -/
def placeAllGroups (input : PlanEnvironmentInput) : Except ScheduleFailure (List DesiredSlotInput) :=
  let pool := schedulingPool input.servers input.pinServerId input.defaultServerId
  let existing := existingByServiceSlot input.existingTasks
  (colocationGroups input.services).foldlM (fun allTasks group => do
    let placed ← placeColocationGroup c pool existing input group
    return allTasks ++ placed) []

def planEnvironmentSchedule (input : PlanEnvironmentInput) : Except ScheduleFailure SchedulePlan :=
  if input.services.length = 0 then planEmptyEnvironment input
  else if (schedulingPool input.servers input.pinServerId input.defaultServerId).length = 0 then
    fail .noEligibleServer "No connected servers are available"
  else if missingPinnedServer input then
    fail .noEligibleServer "Pinned server is not in this organization"
  else do
    let allTasks ← placeAllGroups c input
    let serverIds := sortKeys c ((allTasks.map (·.serverId)).foldl setAdd [])
    match fabricRefusalForPlan c input allTasks serverIds with
    | some fabricRefusal => fail .turbofabricRequired fabricRefusal
    | none => return ⟨allTasks.insertionSort (slotOrder c), serverIds⟩

end TurboPanel.Schedule
