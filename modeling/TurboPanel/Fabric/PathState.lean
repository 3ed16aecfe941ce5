import TurboPanel.Js.Text

/-!
# Path selection between two servers of the fabric

The model of `src/features/fabric/path-state.ts`, with `resolveEffectiveAllowRelay` of `policy.ts`.
Each round brings the evidence on the tunnel to a peer, and the path is chosen anew. A direct path
is left after a number of unhealthy rounds, and returned to after a number of healthy ones: the
strikes are counted on the state.
-/

namespace TurboPanel.Fabric

open Js

/-! ## States and evidence -/

inductive RelayPathKind where
  | directLan
  | directPublic
  | directNat
  | gateway
  | relay
  | unreachable
  deriving DecidableEq

inductive FabricPeerHealth where
  | healthy
  | stale
  | never
  deriving DecidableEq

/-- `FABRIC_PATH_DEMOTE_STRIKES`. -/
def fabricPathDemoteStrikes : ℕ := 3

/-- `FABRIC_PATH_PROMOTE_STRIKES`. -/
def fabricPathPromoteStrikes : ℕ := 2

structure FabricPathState where
  peerServerId : String
  selected : RelayPathKind
  endpoint : Option String
  viaServerId : Option String
  lastHandshakeAt : Option String
  latencyMs : Option ℚ
  degraded : Bool
  demoteStrikes : ℕ
  promoteStrikes : ℕ

structure FabricPathEvidence where
  health : FabricPeerHealth
  kind : Option RelayPathKind := none
  endpoint : Option String := none
  viaServerId : Option String := none
  lastHandshakeAt : Option String := none
  latencyMs : Option ℚ := none
  gatewayAvailable : Bool := false
  natEndpoint : Option String := none
  /-- The probe of this peer handshook the NAT candidate. -/
  natProbeSucceeded : Bool := false

structure FabricPathPolicy where
  orgAllowRelay : Bool
  relayAllowRelay : Option Bool

def isDirectKind : RelayPathKind → Bool
  | .directLan => true
  | .directPublic => true
  | .directNat => true
  | _ => false

def resolveEffectiveAllowRelay (orgAllowRelay : Bool) (relayAllowRelay : Option Bool) : Bool :=
  orgAllowRelay && relayAllowRelay.getD true

/-! ## One round -/

/-- The state with what the evidence observed; a text that is empty was not observed. -/
def withObservation (state : FabricPathState) (evidence : FabricPathEvidence) : FabricPathState :=
  { state with
    endpoint := truthyString evidence.endpoint
    viaServerId := truthyString evidence.viaServerId
    lastHandshakeAt := truthyString evidence.lastHandshakeAt <|> state.lastHandshakeAt
    latencyMs := evidence.latencyMs <|> state.latencyMs }

def healthyDirectNatEvidence (evidence : FabricPathEvidence) : Bool :=
  (evidence.natProbeSucceeded && (truthyString evidence.natEndpoint).isSome) ||
    (evidence.health = .healthy && evidence.kind = some .directNat &&
      (truthyString evidence.natEndpoint).isSome)

def isHealthyDirectKind (health : FabricPeerHealth) (kind : Option RelayPathKind) : Bool :=
  health = .healthy && kind.any isDirectKind

def observeHealthyDirect (previous : FabricPathState) (evidence : FabricPathEvidence) (selected : RelayPathKind) :
    FabricPathState :=
  withObservation
    { previous with selected := selected, degraded := false, demoteStrikes := 0, promoteStrikes := 0 } evidence

def holdOrPromoteDirect (previous : FabricPathState) (evidence : FabricPathEvidence)
    (evidenceKind : RelayPathKind) : FabricPathState :=
  if previous.selected = evidenceKind then observeHealthyDirect previous evidence evidenceKind
  else
    let promoteStrikes := previous.promoteStrikes + 1
    if fabricPathPromoteStrikes ≤ promoteStrikes then observeHealthyDirect previous evidence evidenceKind
    else if isDirectKind previous.selected then
      withObservation { previous with degraded := true, promoteStrikes, demoteStrikes := 0 } evidence
    else withObservation { previous with degraded := true, promoteStrikes } evidence

def fallbackPath (previous : FabricPathState) (evidence : FabricPathEvidence) (policy : FabricPathPolicy) :
    FabricPathState :=
  let settled := { previous with degraded := false, demoteStrikes := 0, promoteStrikes := 0 }
  if healthyDirectNatEvidence evidence && (truthyString evidence.natEndpoint).isSome then
    withObservation { settled with selected := .directNat, endpoint := evidence.natEndpoint }
      { evidence with endpoint := evidence.natEndpoint, kind := some .directNat }
  else if evidence.gatewayAvailable then
    { settled with
      selected := .gateway
      endpoint := none
      viaServerId := truthyString evidence.viaServerId }
  -- the two branches of the source on the relay policy are the same
  else if resolveEffectiveAllowRelay policy.orgAllowRelay policy.relayAllowRelay then
    { settled with selected := .unreachable }
  else { settled with selected := .unreachable }

def demoteOrFallback (previous : FabricPathState) (evidence : FabricPathEvidence) (policy : FabricPathPolicy) :
    FabricPathState :=
  if !isDirectKind previous.selected || evidence.health = .healthy then fallbackPath previous evidence policy
  else
    let demoteStrikes := previous.demoteStrikes + 1
    if demoteStrikes < fabricPathDemoteStrikes then
      withObservation { previous with degraded := true, demoteStrikes, promoteStrikes := 0 } evidence
    else fallbackPath { previous with demoteStrikes := 0, promoteStrikes := 0 } evidence policy

/-- The choice of one round. -/
def nextFabricPathState (previous : FabricPathState) (evidence : FabricPathEvidence) (policy : FabricPathPolicy) :
    FabricPathState :=
  match evidence.kind with
  | some kind =>
    if isHealthyDirectKind evidence.health evidence.kind then holdOrPromoteDirect previous evidence kind
    else demoteOrFallback previous evidence policy
  | none => demoteOrFallback previous evidence policy

def initialFabricPathState (peerServerId : String) : FabricPathState where
  peerServerId := peerServerId
  selected := .unreachable
  endpoint := none
  viaServerId := none
  lastHandshakeAt := none
  latencyMs := none
  degraded := false
  demoteStrikes := 0
  promoteStrikes := 0

end TurboPanel.Fabric
