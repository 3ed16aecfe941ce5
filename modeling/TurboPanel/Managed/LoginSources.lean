import TurboPanel.Compose.Json
import TurboPanel.Js.Map
import TurboPanel.Lib.CanonicalAddress

/-!
# Where a login may be used from

The model of `src/features/managed/login-sources.ts`: the list of places as it is typed, as it is
stored and as it is read back. A place is `internal`, `server:<id>` or `address:<value>`; a range of
addresses is rewritten to a `%` prefix, the one form besides an exact address that the database
proxy can match. Anywhere is no list at all, and is stored as a pair of ranges that no list has.
-/

namespace TurboPanel.LoginSources

open Js Ip Compose

/-! ## Stored lists -/

def loginSourcesAnywhere : List Text := ["address:0.0.0.0/0".toList, "address:::/0".toList]

/-- The places a stored list means; `none` is anywhere. -/
def loginSourcesFromStored (stored : Option (List Text)) : Option (List Text) :=
  match stored with
  | none => none
  | some stored =>
    if stored.length = 0 then none
    else if stored.any fun entry => loginSourcesAnywhere.contains entry then none
    else some stored

/-- The list to store for a limit. -/
def loginSourcesToStored (sources : Option (List Text)) : List Text :=
  match sources with
  | some sources => if 0 < sources.length then sources else loginSourcesAnywhere
  | none => loginSourcesAnywhere

/-- `entry.startsWith(start)`, with `entry.slice(start.length)`. -/
def cutStart (start entry : Text) : Option Text :=
  if start.isPrefixOf entry then some (entry.drop start.length) else none

/-- `address:0.0.0.0/0` or `address:::/0` in any spelling. -/
def isAnywhereEntry (entry : Text) : Bool :=
  match cutStart "address:".toList entry with
  | none => false
  | some rest =>
    let value := trim rest
    value.contains '/' && (parseCidr value).map (·.prefixLength) == some 0

/-! ## Refusals -/

structure LoginSourcesError where
  error : String
  message : String
  deriving DecidableEq

abbrev Parsed := Except LoginSourcesError

def maxLoginSourceEntries : ℕ := 100

def cidrHelp : String :=
  "List the addresses one by one, or use a prefix such as 203.0.113.% (IPv4: whole /8, /16 or /24 ranges) or 2001:db8:1:% (IPv6: whole 16-bit groups, /16 to /112)."

def invalidSource (message : String) : LoginSourcesError := ⟨"managed_login_source_invalid", message⟩

def rangeNotExact (value : Text) (reason : String) : LoginSourcesError :=
  ⟨"managed_login_source_range_not_exact", String.ofList value ++ reason ++ cidrHelp⟩

def notOnBoundary : String :=
  " can't be matched exactly. The database proxy only matches one address or a prefix on a whole number boundary. "

def zeroGroup : String :=
  " has an all-zero group in its fixed part, which the database proxy can't match reliably. "

/-! ## Addresses -/

/-- An address in the short form the proxy shows a client. -/
def standardAddress (raw : Text) : Option Text :=
  (normalizeIpAddress raw).bind fun address =>
    if parseIpVersion address ≠ some .v6 then some address
    else (ipToBigInt? address).map (bigIntToIp · .v6)

def ipv6Groups (base : ℕ) : List ℕ := (List.range 8).map fun i => (base >>> (112 - 16 * i)) &&& 0xffff

/-- `value.split('/')[0]`. -/
def beforeSlash (value : Text) : Text := (value.splitOn '/').headD []

/-- A range as the one address or prefix that the proxy can match exactly. -/
def cidrToSourcePrefix (value : Text) : Parsed Text :=
  match parseCidr value with
  | none => .error (invalidSource ("'" ++ String.ofList value ++ "' is not a valid address range."))
  | some cidr =>
    if cidr.hostBits = 0 then .ok ((standardAddress (beforeSlash value)).getD (beforeSlash value))
    else
      match cidr.version with
      | .v4 =>
        if cidr.prefixLength % 8 ≠ 0 ∨ cidr.prefixLength = 0 then .error (rangeNotExact value notOnBoundary)
        else
          let octets := [24, 16, 8, 0].map fun shift => (cidr.base >>> shift) &&& 0xff
          .ok (['.'].intercalate ((octets.take (cidr.prefixLength / 8)).map (Nat.toDigits 10)) ++ ['.', '%'])
      | .v6 =>
        if cidr.prefixLength % 16 ≠ 0 ∨ cidr.prefixLength < 16 then
          .error (rangeNotExact value notOnBoundary)
        else
          let groups := (ipv6Groups cidr.base).take (cidr.prefixLength / 16)
          if groups.contains 0 then .error (rangeNotExact value zeroGroup)
          else .ok ([':'].intercalate (groups.map (Nat.toDigits 16)) ++ [':', '%'])

/-- The groups of `^((?:group separator){1,max})%$`. -/
def prefixGroups (separator : Char) (group : Text → Bool) (max : ℕ) (value : Text) : Option (List Text) :=
  let parts := value.dropLast.splitOn separator
  let groups := parts.dropLast
  if value.getLast? = some '%' ∧ parts.getLast? = some [] ∧ 0 < groups.length ∧ groups.length ≤ max ∧
    groups.all group then some groups
  else none

/-- `\d\x7b1,3\x7d`. -/
def isOctetDigits (part : Text) : Bool :=
  decide (0 < part.length) && decide (part.length ≤ 3) && part.all (isDigitOf 10)

/-- `IPV4_PREFIX_RE`. -/
def ipv4Prefix (value : Text) : Option (List Text) := prefixGroups '.' isOctetDigits 3 value

/-- `IPV6_PREFIX_RE`. -/
def ipv6Prefix (value : Text) : Option (List Text) := prefixGroups ':' isIpv6Hextet 7 value

def octetInRange (octet : Text) : Bool :=
  decide (ofDigits 10 octet ≤ 255) && (octet == ['0'] || octet.head? != some '0')

def badPrefix (value : Text) : LoginSourcesError :=
  invalidSource ("'" ++ String.ofList value ++
    "' is not a valid address prefix. Use something like 203.0.113.% or 2001:db8:1:% (no zero groups, no '::').")

/-- `Number.parseInt(g, 16)` of the digits of a group. -/
def groupNumber (group : Text) : ℕ := ((parseInt 16 group).getD 0).toNat

/-- A typed prefix that ends with `%`. -/
def parseTypedPrefix (value : Text) : Parsed Text :=
  match ipv4Prefix value with
  | some octets => if octets.all octetInRange then .ok value else .error (badPrefix value)
  | none =>
    match ipv6Prefix value with
    | some groups =>
      if groups.all fun g => groupNumber g != 0 then
        .ok ([':'].intercalate (groups.map fun g => Nat.toDigits 16 (groupNumber g)) ++ [':', '%'])
      else .error (badPrefix value)
    | none => .error (badPrefix value)

def parseAddressEntry (raw : Text) : Parsed Text :=
  let value := trim raw
  if value.contains '/' then cidrToSourcePrefix value
  else if value.getLast? = some '%' then parseTypedPrefix value
  else
    match standardAddress value with
    | some address => .ok address
    | none => .error (invalidSource ("'" ++ String.ofList value ++
        "' is not a valid IP address. Host names are not allowed: use an IP address or a range."))

/-! ## Places -/

/-- `UUID_RE`. -/
def isUuid (id : Text) : Bool :=
  decide (id.length = 36) && id.zipIdx.all fun (c, i) =>
    if [8, 13, 18, 23].contains i then decide (c = '-') else isDigitOf 16 c

/-- One place in its stored form, or the refusal. -/
def parseSourceEntry (entry : Text) : Parsed Text :=
  if entry = "internal".toList then .ok entry
  else
    match cutStart "server:".toList entry with
    | some id =>
      if isUuid id then .ok ("server:".toList ++ toLowerCase id)
      else .error (invalidSource ("'" ++ String.ofList entry ++ "' does not name a server."))
    | none =>
      match cutStart "address:".toList entry with
      | some rest => (parseAddressEntry rest).map ("address:".toList ++ ·)
      | none => .error (invalidSource ("'" ++ String.ofList entry ++
          "' is not a place. Use 'any', 'internal', 'server:<id>' or 'address:<ip or range>'."))

/-- The texts of a list that has nothing else. -/
def typedEntries (raw : Json) : Option (List Text) :=
  (raw.items?).bind fun items => (items.mapM Json.str?).map (·.map String.toList)

def anyWord : Text := "any".toList

/-- An entry as it is compared with the others. -/
def tidyEntry (entry : Text) : Text := if isAnywhereEntry (trim entry) then anyWord else trim entry

/-- The trimmed list without repeats; `none` for anywhere. -/
def normalizeSourceList (raw : Json) : Parsed (Option (List Text)) :=
  match raw with
  | .null => .ok none
  | raw =>
    match typedEntries raw with
    | none => .error ⟨"managed_login_sources_invalid",
        "allowedSources must be a list of places: 'any', 'internal', 'server:<id>' or 'address:<ip or range>'. Host names are not allowed."⟩
    | some entries =>
      let list := (entries.map tidyEntry).foldl setAdd []
      if list.length = 0 then .error ⟨"managed_login_sources_empty",
        "allowedSources can't be empty: an empty list would refuse every connection. Choose at least one place, or 'any' to allow everywhere."⟩
      else if maxLoginSourceEntries < list.length then .error ⟨"managed_login_sources_too_many",
        "A login can list at most " ++ toString maxLoginSourceEntries ++
          " places. Use an address prefix such as 203.0.113.% to cover more."⟩
      else if !list.contains anyWord then .ok (some list)
      else if list.length = 1 then .ok none
      else .error ⟨"managed_login_sources_any_alone",
        "'any' (or the range 0.0.0.0/0 or ::/0) means everywhere, so it can't be combined with other places."⟩

/-- The loop of `parseLoginAllowedSources`, with the places so far. -/
def parseEntries : List Text → List Text → Parsed (List Text)
  | [], out => .ok out
  | entry :: rest, out =>
    match parseSourceEntry entry with
    | .error e => .error e
    | .ok place => parseEntries rest (setAdd out place)

/-- The places of a requested list; `none` means anywhere. -/
def parseLoginAllowedSources (raw : Json) : Parsed (Option (List Text)) :=
  match normalizeSourceList raw with
  | .error e => .error e
  | .ok none => .ok none
  | .ok (some list) => (parseEntries list []).map some

example : parseLoginAllowedSources (.arr [.str " address:203.0.113.7/24 ", .str "internal"]) =
    .ok (some ["address:203.0.113.%".toList, "internal".toList]) := by decide

end TurboPanel.LoginSources
