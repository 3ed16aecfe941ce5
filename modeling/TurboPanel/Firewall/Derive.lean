import TurboPanel.Js.Map
import TurboPanel.Lib.IpAddress

/-!
# The derived firewall

`features/firewall/derive.ts`: the rules of one server, from what listens on it (`DerivedExposure`)
and what an operator typed (`EdictFact`). An exposure whose sources cannot be resolved becomes a
note; one that is resolved becomes an accept rule, unless an earlier one has the same rule id. The
id is cut to 64 characters and names the source, the protocol, the ports and the reach only.
-/

namespace TurboPanel.Firewall

open Js Ip

/-! ## The input -/

inductive RuleScope where
  | host
  | published
  deriving DecidableEq

inductive RuleAction where
  | accept
  | drop
  | reject
  deriving DecidableEq

inductive RuleProto where
  | tcp
  | udp
  | any
  deriving DecidableEq

def RuleProto.text : RuleProto → Text
  | .tcp => "tcp".toList
  | .udp => "udp".toList
  | .any => "any".toList

inductive RuleOrigin where
  | derived
  | user
  deriving DecidableEq

/-- The protocol of an exposure. -/
inductive ExposureProto where
  | tcp
  | udp
  deriving DecidableEq

def ExposureProto.rule : ExposureProto → RuleProto
  | .tcp => .tcp
  | .udp => .udp

/-- A word for addresses that are known for the server. -/
inductive SourceWord where
  | datacenter
  | fabric
  | servers
  deriving DecidableEq

def SourceWord.text : SourceWord → Text
  | .datacenter => "datacenter".toList
  | .fabric => "fabric".toList
  | .servers => "servers".toList

inductive ExposureReach where
  | anyone
  | peers
  | word (word : SourceWord)
  deriving DecidableEq

def ExposureReach.text : ExposureReach → Text
  | .anyone => "public".toList
  | .peers => "peers".toList
  | .word w => w.text

structure DerivedExposure where
  source : Text
  scope : RuleScope
  proto : ExposureProto
  ports : Text
  reach : ExposureReach
  comment : Text
  destination : Option Text := none
  sources : Option (List Text) := none
  deriving DecidableEq

inductive FirewallSourceKind where
  | any
  | addresses
  | word (word : SourceWord)
  deriving DecidableEq

structure EdictFact where
  id : Text
  scope : RuleScope
  action : RuleAction
  proto : RuleProto
  ports : Option Text
  sourceKind : FirewallSourceKind
  sourceAddresses : List Text
  label : Text

structure FirewallSourceSets where
  servers : List Text
  datacenter : List Text
  fabric : List Text

inductive InputDefault where
  | accept
  | drop
  deriving DecidableEq

inductive Ipv6Policy where
  | mirror
  | skip
  deriving DecidableEq

structure FirewallOrgPolicy where
  inputDefault : InputDefault
  ipv6 : Ipv6Policy
  sshSources : List Text

structure FirewallDeriveInput where
  policy : FirewallOrgPolicy
  sshPortHint : Option ℕ
  coLocated : Bool
  controlPlaneTcpPorts : List ℕ
  exposures : List DerivedExposure
  edicts : List EdictFact
  sources : FirewallSourceSets

/-! ## The derivation -/

structure FirewallCommandRule where
  id : Text
  scope : RuleScope
  action : RuleAction
  proto : RuleProto
  ports : Option Text
  sources : List Text
  destinations : Option (List Text)
  origin : RuleOrigin
  comment : Text
  deriving DecidableEq

structure FirewallDerivation where
  inputDefault : InputDefault
  ipv6 : Ipv6Policy
  rules : List FirewallCommandRule
  controlPlaneTcpPorts : Option (List ℕ)
  sshPorts : Option (List ℕ)
  notes : List Text

/-- `MAX_FIREWALL_RULE_ADDRESSES`. -/
def maxFirewallRuleAddresses : ℕ := 256

def anyText : Text := "any".toList

/-- `parseFirewallAddress` of a string. -/
def parseFirewallAddress (value : Text) : Option Text :=
  let trimmed := trim value
  if trimmed = anyText then some anyText
  else match parseIpVersion trimmed with
    | some .v4 => some (trimmed ++ "/32".toList)
    | some .v6 => some (trimmed ++ "/128".toList)
    | none => if isValidCidr trimmed then some trimmed else none

/-- `text.replaceAll(unsafe, '_')`: each code unit outside the class becomes an underscore. -/
def replaceUnsafe (safe : Char → Bool) (text : Text) : Text :=
  text.flatMap fun c => if safe c then [c] else if c.toNat < 0x10000 then ['_'] else ['_', '_']

def isAlphanumeric (c : Char) : Bool :=
  ('A' ≤ c && c ≤ 'Z') || ('a' ≤ c && c ≤ 'z') || ('0' ≤ c && c ≤ '9')

/-- What `COMMENT_UNSAFE` leaves. -/
def isCommentSafe (c : Char) : Bool := isAlphanumeric c || [' ', '.', '_', ':', '/', '-'].contains c

/-- What `ID_UNSAFE` leaves. -/
def isIdSafe (c : Char) : Bool := isAlphanumeric c || ['_', '.', ':', '-'].contains c

def sanitizeFirewallComment (text : Text) : Text :=
  let cleaned := (trim (replaceUnsafe isCommentSafe text)).take 48
  if cleaned.isEmpty then "rule".toList else cleaned

variable (c : Collation)

/-- `values.toSorted((a, b) => key(a).localeCompare(key(b)))`. -/
def toSortedBy {α : Type} (key : α → Text) (values : List α) : List α :=
  values.insertionSort fun a b => c.compare (String.ofList (key a)) (String.ofList (key b)) ≠ .gt

def uniqueSorted (values : List Text) : List Text := toSortedBy c id (values.foldl setAdd [])

def SourceWord.words : SourceWord → Text
  | .datacenter => "this datacenter network".toList
  | .fabric => "TurboFabric".toList
  | .servers => "the organization's other servers".toList

def SourceWord.set (sets : FirewallSourceSets) : SourceWord → List Text
  | .datacenter => sets.datacenter
  | .fabric => sets.fabric
  | .servers => sets.servers

/-- The sources, or why there are none. -/
inductive Resolved where
  | sources (sources : List Text)
  | reason (reason : Text)
  deriving DecidableEq

def resolveWords (word : SourceWord) (sets : FirewallSourceSets) : Resolved :=
  let sources := uniqueSorted c (word.set sets)
  if sources.length = 0 then .reason ("no addresses are known for ".toList ++ word.words)
  else if maxFirewallRuleAddresses < sources.length then
    .reason (word.words ++ " has more than ".toList ++ Nat.toDigits 10 maxFirewallRuleAddresses ++
      " addresses".toList)
  else .sources sources

def resolvePeers (addresses : Option (List Text)) : Resolved :=
  let parsed := ((addresses.getD []).filterMap parseFirewallAddress).filter (· ≠ anyText)
  let sources := uniqueSorted c parsed
  if sources.length = 0 then .reason "no peer addresses are known".toList
  else if maxFirewallRuleAddresses < sources.length then
    .reason ("more than ".toList ++ Nat.toDigits 10 maxFirewallRuleAddresses ++ " peer addresses".toList)
  else .sources sources

def resolveReach (exposure : DerivedExposure) (sets : FirewallSourceSets) : Resolved :=
  match exposure.reach with
  | .anyone => .sources [anyText]
  | .peers => resolvePeers c exposure.sources
  | .word word => resolveWords c word sets

def resolveEdictSources (edict : EdictFact) (sets : FirewallSourceSets) : Resolved :=
  match edict.sourceKind with
  | .any => .sources [anyText]
  | .addresses =>
    let parsed := edict.sourceAddresses.filterMap parseFirewallAddress
    if parsed.length = 0 then .reason "it names no valid addresses".toList
    else .sources (uniqueSorted c parsed)
  | .word word => resolveWords c word sets

def exposureRuleId (exposure : DerivedExposure) : Text :=
  (replaceUnsafe isIdSafe ("d:".toList ++ exposure.source ++ ":".toList ++ exposure.proto.rule.text ++
    ":".toList ++ exposure.ports ++ ":".toList ++ exposure.reach.text)).take 64

def exposureRule (exposure : DerivedExposure) (sources : List Text) : FirewallCommandRule where
  id := exposureRuleId exposure
  scope := exposure.scope
  action := .accept
  proto := exposure.proto.rule
  ports := some exposure.ports
  sources := sources
  destinations := exposure.destination.map ([·])
  origin := .derived
  comment := sanitizeFirewallComment exposure.comment

def notSentNote (exposure : DerivedExposure) (reason : Text) : Text :=
  exposure.comment ++ " (".toList ++ exposure.proto.rule.text ++ " ".toList ++ exposure.ports ++
    ") is not sent: ".toList ++ reason

/-- The rules by id, and the notes. -/
abbrev Gathered := Map Text FirewallCommandRule × List Text

def gatherExposure (sets : FirewallSourceSets) (gathered : Gathered) (exposure : DerivedExposure) : Gathered :=
  match resolveReach c exposure sets with
  | .reason reason => (gathered.1, gathered.2 ++ [notSentNote exposure reason])
  | .sources sources =>
    let rule := exposureRule exposure sources
    if gathered.1.has rule.id then gathered else (gathered.1.set rule.id rule, gathered.2)

def gatherExposures (exposures : List DerivedExposure) (sets : FirewallSourceSets) (notes : List Text) : Gathered :=
  exposures.foldl (gatherExposure c sets) (Map.empty, notes)

def derivedRules (exposures : List DerivedExposure) (sets : FirewallSourceSets) (notes : List Text) :
    List FirewallCommandRule × List Text :=
  let gathered := gatherExposures c exposures sets notes
  (toSortedBy c (·.id) (gathered.1.entries.map Prod.snd), gathered.2)

def edictRuleId (edict : EdictFact) : Text := (replaceUnsafe isIdSafe ("u:".toList ++ edict.id)).take 64

def edictRule (edict : EdictFact) (sources : List Text) : FirewallCommandRule where
  id := edictRuleId edict
  scope := edict.scope
  action := edict.action
  proto := edict.proto
  ports := edict.ports
  sources := sources
  destinations := none
  origin := .user
  comment := sanitizeFirewallComment edict.label

def edictNote (edict : EdictFact) (reason : Text) : Text :=
  "Your rule \"".toList ++ edict.label ++ "\" is not sent: ".toList ++ reason

def gatherEdict (sets : FirewallSourceSets) (gathered : List FirewallCommandRule × List Text)
    (edict : EdictFact) : List FirewallCommandRule × List Text :=
  match resolveEdictSources c edict sets with
  | .reason reason => (gathered.1, gathered.2 ++ [edictNote edict reason])
  | .sources sources => (gathered.1 ++ [edictRule edict sources], gathered.2)

def userRules (edicts : List EdictFact) (sets : FirewallSourceSets) (notes : List Text) :
    List FirewallCommandRule × List Text :=
  edicts.foldl (gatherEdict c sets) ([], notes)

def sshNote : Text := ("The organization limits SSH to certain addresses, but that is not sent to hosts yet: " ++
  "SSH stays open to anyone until default-drop is enabled.").toList

def deriveFirewall (input : FirewallDeriveInput) : FirewallDerivation :=
  let derived := derivedRules c input.exposures input.sources []
  let user := userRules c input.edicts input.sources derived.2
  { inputDefault := input.policy.inputDefault
    ipv6 := input.policy.ipv6
    rules := derived.1 ++ user.1
    controlPlaneTcpPorts :=
      if input.coLocated && !input.controlPlaneTcpPorts.isEmpty then
        some ((input.controlPlaneTcpPorts.foldl setAdd []).insertionSort (· ≤ ·))
      else none
    sshPorts := input.sshPortHint.map ([·])
    notes := if input.policy.sshSources = [anyText] then user.2 else user.2 ++ [sshNote] }

/-! ## Sources -/

variable {c}

theorem mem_toSortedBy {α : Type} {key : α → Text} {values : List α} {a : α} :
    a ∈ toSortedBy c key values ↔ a ∈ values := (List.perm_insertionSort _ values).mem_iff

theorem mem_uniqueSorted {values : List Text} {a : Text} : a ∈ uniqueSorted c values ↔ a ∈ values := by
  rw [uniqueSorted, mem_toSortedBy, mem_foldl_setAdd]
  exact or_iff_right List.not_mem_nil

/-- A valid address or block is not the word `any`. -/
def ValidAddress (address : Text) : Prop :=
  (parseIpVersion (trim address)).isSome ∨ isValidCidr (trim address) = true

theorem trim_anyText : trim anyText = anyText := rfl

theorem not_validAddress_any : ¬ValidAddress anyText := by
  rw [ValidAddress, trim_anyText]
  decide

theorem parseFirewallAddress_ne_any {address parsed : Text} (hvalid : ValidAddress address)
    (h : parseFirewallAddress address = some parsed) : parsed ≠ anyText := by
  have htrim : trim address ≠ anyText := by
    intro heq
    refine not_validAddress_any ?_
    rw [ValidAddress, heq] at hvalid
    rw [ValidAddress, trim_anyText]
    exact hvalid
  rw [parseFirewallAddress, if_neg htrim] at h
  have hslash : ∀ suffix : Text, '/' ∈ suffix → trim address ++ suffix ≠ anyText := by
    intro suffix hmem heq
    have : '/' ∈ anyText := heq ▸ List.mem_append_right _ hmem
    exact absurd this (by decide)
  split at h
  · exact Option.some.inj h ▸ hslash _ (by decide)
  · exact Option.some.inj h ▸ hslash _ (by decide)
  · split at h
    · exact Option.some.inj h ▸ htrim
    · cases h

end TurboPanel.Firewall
