import TurboPanel.Js.Text

/-!
# Addresses and CIDRs

The model of `src/lib/ip-address.ts`: the validators, the readers and printers of IPv4 and IPv6
addresses, CIDR blocks, host ranges and the first free host address. Every function reads text the
way the source does, with its trims, its `/prefix` suffix and its early exits; `null` is `none`, and
a `bigint` is a natural number. `ipToBigInt` throws on a text such as `:: /64`, where a blank group
is left in front of the suffix; its callers here take the number where there is one (`ipToBigInt?`),
but for `nextFreeHostAddress`, which throws with it.
-/

namespace TurboPanel.Ip

open Js

inductive IpAddressVersion
  | v4
  | v6
  deriving DecidableEq

/-- The number of bits of an address. -/
def IpAddressVersion.bitWidth : IpAddressVersion → ℕ
  | .v4 => 32
  | .v6 => 128

/-! ## Validation -/

/-- `IPV4_OCTET`: a decimal number up to 255 with no leading zero. -/
def isIpv4Octet : Text → Bool
  | [a] => isDigitOf 10 a
  | [a, b] => isDigitOf 10 a && a != '0' && isDigitOf 10 b
  | [a, b, c] =>
    (a == '2' && b == '5' && isDigitOf 6 c) || (a == '2' && isDigitOf 5 b && isDigitOf 10 c) ||
      (a == '1' && isDigitOf 10 b && isDigitOf 10 c)
  | _ => false

/-- `IPV4_ADDRESS_RE`. -/
def isIpv4Address (address : Text) : Bool :=
  let octets := address.splitOn '.'
  octets.length == 4 && octets.all isIpv4Octet

def isIpv6Hextet (part : Text) : Bool :=
  !part.isEmpty && decide (part.length ≤ 4) && part.all (isDigitOf 16)

def areValidIpv6Hextets (parts : List Text) : Bool := parts.all isIpv6Hextet

/-- The groups on one side of a `::`. -/
def sideHextets (side : Text) : List Text := if side.isEmpty then [] else side.splitOn ':'

def hextetsAroundCompression (address : Text) : List Text :=
  match splitPair ':' ':' address with
  | left :: right :: _ => sideHextets left ++ sideHextets right
  | _ => []

/-- Compressed form with a single `::` (0–7 hextets around the gap). -/
def isValidCompressedIpv6 (address : Text) : Bool :=
  let parts := hextetsAroundCompression address
  areValidIpv6Hextets parts && decide (parts.length < 8)

/-- Full form: exactly eight hextets, no `::`. -/
def isValidFullIpv6 (address : Text) : Bool :=
  let parts := address.splitOn ':'
  parts.length == 8 && areValidIpv6Hextets parts

def isValidIpv6Address (address : Text) : Bool :=
  if address.contains '.' || address.contains '%' then false
  else
    match (splitPair ':' ':' address).length - 1 with
    | 0 => isValidFullIpv6 address
    | 1 => isValidCompressedIpv6 address
    | _ => false

/-- The slices before and after the last slash, when there is one and it is not the first character
(`slash > 0`). -/
def cutLastSlash (trimmed : Text) : Option (Text × Text) :=
  match lastIndexOf '/' trimmed with
  | none => none
  | some 0 => none
  | some slash => some (trimmed.take slash, trimmed.drop (slash + 1))

/-- Strip a Postgres `inet` `/prefix` suffix when present. -/
def stripInetPrefixSuffix (value : Text) : Text :=
  let trimmed := trim value
  match cutLastSlash trimmed with
  | none => trimmed
  | some (address, suffix) => if isDecimal suffix then address else trimmed

def parseIpVersion (address : Text) : Option IpAddressVersion :=
  let trimmed := trim address
  if trimmed.isEmpty then none
  else if isIpv4Address trimmed then some .v4
  else if trimmed.contains ':' && isValidIpv6Address trimmed then some .v6
  else none

def isValidIpAddress (address : Text) : Bool := (parseIpVersion address).isSome

/-! ## Reading -/

def expandIpv6Hextets (address : Text) : Option (List Text) :=
  match splitPair ':' ':' address with
  | left :: right :: _ =>
    let leftParts := sideHextets left
    let rightParts := sideHextets right
    if leftParts.length + rightParts.length ≤ 8 then
      some (leftParts ++ List.replicate (8 - leftParts.length - rightParts.length) ['0'] ++
        rightParts)
    else none
  | _ =>
    let parts := address.splitOn ':'
    if parts.length = 8 then some parts else none

/-- The value of groups of `bits` bits each, the first group highest; `none` where a group is not a
number. -/
def readGroups (radix bits : ℕ) (parts : List Text) : Option ℕ :=
  parts.foldlM (fun value part => do
    let digit ← parseInt radix part
    return (value <<< bits) + digit.toNat) 0

/-- What `BigInt(NaN)` throws. -/
inductive RangeError
  | notANumber
  deriving DecidableEq

/-- The number of an address, or `null`. A group that is not a number makes `BigInt` throw. -/
def ipToBigInt (address : Text) : Except RangeError (Option ℕ) :=
  let trimmed := stripInetPrefixSuffix address
  let read (radix bits : ℕ) (parts : List Text) : Except RangeError (Option ℕ) :=
    match readGroups radix bits parts with
    | none => .error .notANumber
    | some value => .ok (some value)
  match parseIpVersion trimmed with
  | some .v4 =>
    let parts := trimmed.splitOn '.'
    if parts.length = 4 then read 10 8 parts else .ok none
  | some .v6 =>
    match expandIpv6Hextets trimmed with
    | none => .ok none
    | some hextets => read 16 16 hextets
  | none => .ok none

/-- The number of an address, where `ipToBigInt` returns one. -/
def ipToBigInt? (address : Text) : Option ℕ :=
  match ipToBigInt address with
  | .ok value => value
  | .error _ => none

theorem ipToBigInt?_v4 {address : Text} (h : parseIpVersion (stripInetPrefixSuffix address) = some .v4)
    (hlen : ((stripInetPrefixSuffix address).splitOn '.').length = 4) :
    ipToBigInt? address = readGroups 10 8 ((stripInetPrefixSuffix address).splitOn '.') := by
  simp only [ipToBigInt?, ipToBigInt, h, hlen, if_true]
  cases readGroups 10 8 ((stripInetPrefixSuffix address).splitOn '.') with
  | none => rfl
  | some value => rfl

theorem ipToBigInt?_v6 {address : Text} (h : parseIpVersion (stripInetPrefixSuffix address) = some .v6) :
    ipToBigInt? address = (expandIpv6Hextets (stripInetPrefixSuffix address)).bind (readGroups 16 16) := by
  simp only [ipToBigInt?, ipToBigInt, h]
  cases expandIpv6Hextets (stripInetPrefixSuffix address) with
  | none => rfl
  | some hextets =>
    rw [Option.bind_some]
    cases hread : readGroups 16 16 hextets with
    | none => simp only [hread]
    | some value => simp only [hread]

def parsePrefix (value : Text) (version : IpAddressVersion) : Option ℕ :=
  if isDecimal value then
    (parseInt 10 value).bind fun n =>
      if n < 0 ∨ (version.bitWidth : ℤ) < n then none else some n.toNat
  else none

structure ParsedCidr where
  version : IpAddressVersion
  base : ℕ
  prefixLength : ℕ
  deriving DecidableEq

/-- The bits of the address below the network part. -/
def ParsedCidr.hostBits (c : ParsedCidr) : ℕ := c.version.bitWidth - c.prefixLength

def parseCidr (value : Text) : Option ParsedCidr :=
  match cutLastSlash (trim value) with
  | none => none
  | some (addressPart, prefixPart) =>
    -- `slash === trimmed.length - 1`
    if prefixPart.isEmpty then none
    else do
      let version ← parseIpVersion addressPart
      let prefixLength ← parsePrefix prefixPart version
      let base ← ipToBigInt? addressPart
      let hostBits := version.bitWidth - prefixLength
      return { version, base := (base >>> hostBits) <<< hostBits, prefixLength }

def isValidCidr (value : Text) : Bool := (parseCidr value).isSome

/-! ## Printing -/

def bigIntToIpv4 (value : ℕ) : Text :=
  let n := value &&& 0xffffffff
  ['.'].intercalate ([(n >>> 24) &&& 0xff, (n >>> 16) &&& 0xff, (n >>> 8) &&& 0xff, n &&& 0xff].map
    (Nat.toDigits 10))

/-- The loop of `ipv6HextetsFromBigInt`: the low group goes in front of those already read. -/
def hextetLoop : ℕ → ℕ → List ℕ → List ℕ
  | 0, _, hextets => hextets
  | i + 1, remaining, hextets => hextetLoop i (remaining >>> 16) ((remaining &&& 0xffff) :: hextets)

def ipv6HextetsFromBigInt (value : ℕ) : List ℕ := hextetLoop 8 (value &&& (2 ^ 128 - 1)) []

structure ZeroRun where
  start : ℕ
  length : ℕ

/-- The loop of `longestIpv6ZeroRun` at index `i`, with the best run so far and the run that is
open, if there is one. -/
def zeroRunLoop : List ℕ → ℕ → ZeroRun → Option ZeroRun → ZeroRun
  | [], _, best, run =>
    match run with
    | some r => if best.length < r.length then r else best
    | none => best
  | h :: hs, i, best, run =>
    if h = 0 then
      zeroRunLoop hs (i + 1) best (some ((run.map fun r => { r with length := r.length + 1 }).getD
        { start := i, length := 1 }))
    else
      match run with
      | some r => zeroRunLoop hs (i + 1) (if best.length < r.length then r else best) none
      | none => zeroRunLoop hs (i + 1) best none

/-- Longest run of zero hextets, the leftmost on ties; a run of length 0 when there is none. -/
def longestIpv6ZeroRun (hextets : List ℕ) : ZeroRun :=
  zeroRunLoop hextets 0 { start := 0, length := 0 } none

def formatHexHextets (hextets : List ℕ) : Text := [':'].intercalate (hextets.map (Nat.toDigits 16))

def bigIntToIpv6 (value : ℕ) : Text :=
  let hextets := ipv6HextetsFromBigInt value
  let best := longestIpv6ZeroRun hextets
  if best.length < 2 then formatHexHextets hextets
  else
    let left := formatHexHextets (hextets.take best.start)
    let right := formatHexHextets (hextets.drop (best.start + best.length))
    if best.start = 0 ∧ best.start + best.length = 8 then [':', ':']
    else if best.start = 0 then ':' :: ':' :: right
    else if best.start + best.length = 8 then left ++ [':', ':']
    else left ++ ':' :: ':' :: right

def bigIntToIp (value : ℕ) : IpAddressVersion → Text
  | .v4 => bigIntToIpv4 value
  | .v6 => bigIntToIpv6 value

def formatCidr (parsed : ParsedCidr) : Text :=
  bigIntToIp parsed.base parsed.version ++ '/' :: Nat.toDigits 10 parsed.prefixLength

/-! ## Blocks -/

def addressInCidr (address cidr : Text) : Bool :=
  match parseCidr cidr, ipToBigInt? address with
  | some parsed, some value =>
    if parseIpVersion (stripInetPrefixSuffix address) ≠ some parsed.version then false
    -- `value & ~hostMask`: the host bits of the address are cleared
    else (value >>> parsed.hostBits) <<< parsed.hostBits == parsed.base
  | _, _ => false

def cidrInclusiveLast (parsed : ParsedCidr) : ℕ := parsed.base + 1 <<< parsed.hostBits - 1

/-- True when two CIDRs share any address. -/
def cidrsOverlap (a b : Text) : Bool :=
  match parseCidr a, parseCidr b with
  | some left, some right =>
    if left.version ≠ right.version then false
    else decide (left.base ≤ cidrInclusiveLast right) && decide (right.base ≤ cidrInclusiveLast left)
  | _, _ => false

/-- True when every address of `child` lies inside `parent`. -/
def cidrContains (parent child : Text) : Bool :=
  match parseCidr parent, parseCidr child with
  | some outer, some inner =>
    if outer.version ≠ inner.version then false
    else if inner.prefixLength < outer.prefixLength then false
    else decide (outer.base ≤ inner.base) &&
      decide (cidrInclusiveLast inner ≤ cidrInclusiveLast outer)
  | _, _ => false

structure CidrHostRange where
  first : ℕ
  last : ℕ
  deriving DecidableEq

def cidrHostRange (cidr : Text) : Option CidrHostRange :=
  (parseCidr cidr).bind fun parsed =>
    let size := 1 <<< parsed.hostBits
    let network := parsed.base
    let broadcast := network + size - 1
    match parsed.version with
    | .v4 =>
      if parsed.prefixLength ≤ 30 then
        if size < 4 then none else some { first := network + 1, last := broadcast - 1 }
      else some { first := network, last := broadcast }
    | .v6 =>
      -- IPv6: skip subnet-router anycast / unspecified (`::`)
      if size = 1 then
        if network = 0 then none else some { first := network, last := network }
      else some { first := network + 1, last := broadcast }

/-- The loop of `nextFreeHostAddress`, with the iterations that are left. -/
def nextFreeHostLoop (used : List ℕ) (last : ℕ) : ℕ → ℕ → Option ℕ
  | 0, _ => none
  | i + 1, candidate =>
    if candidate ≤ last then
      if used.contains candidate then nextFreeHostLoop used last i (candidate + 1)
      else some candidate
    else none

def nextFreeHostAddress (cidr : Text) (usedAddresses : List Text) : Except RangeError (Option Text) :=
  match cidrHostRange cidr, parseCidr cidr with
  | some range, some parsed => do
    let used := (← usedAddresses.mapM ipToBigInt).reduceOption.dedup
    return (nextFreeHostLoop used range.last (used.length + 1) range.first).map (bigIntToIp · parsed.version)
  | _, _ => .ok none

end TurboPanel.Ip
