import TurboPanel.Data.Wildcard
import TurboPanel.Js.Map
import TurboPanel.Js.Text

/-!
# Effective permissions

The model of `src/features/managed/privileges/effective.ts`: the grants, the memberships and the
attributes that a daemon reports of a login, joined to the catalogue of its engine. A grant of MySQL
or MariaDB can be on a pattern of schema names, and the panel reads the pattern as a regular
expression.
-/

namespace TurboPanel.Privileges

open Js Wildcard

/-! ## The catalogue -/

inductive ManagedEngineCode
  | postgres | mysql | mariadb | redis | clickhouse
  deriving DecidableEq

inductive PrivilegeLevel
  | global | database | schema | table | column | sequence | routine | type | parameter | tablespace | language
  | «foreign» | largeobject
  deriving DecidableEq

def PrivilegeLevel.text : PrivilegeLevel → Text
  | global => "global".toList
  | database => "database".toList
  | schema => "schema".toList
  | table => "table".toList
  | column => "column".toList
  | sequence => "sequence".toList
  | routine => "routine".toList
  | type => "type".toList
  | parameter => "parameter".toList
  | tablespace => "tablespace".toList
  | language => "language".toList
  | «foreign» => "foreign".toList
  | largeobject => "largeobject".toList

inductive PrivilegeAllowance
  | yes | needsAdmin | no
  deriving DecidableEq

structure PrivilegeEntry where
  id : Text
  level : PrivilegeLevel
  keyword : Text
  aliases : List Text := []
  label : String
  explanation : String
  allowed : PrivilegeAllowance
  reason : Option String := none
  grid : Bool := true

structure PrivilegeRoleEntry where
  name : Text
  label : String
  explanation : String
  allowed : PrivilegeAllowance
  reason : Option String

structure PrivilegeAttributeEntry where
  name : String
  column : String
  label : String
  explanation : String
  allowed : PrivilegeAllowance
  reason : Option String

structure PrivilegeDefaultObject where
  letter : String
  level : PrivilegeLevel
  label : String

structure PrivilegeBlocked where
  databases : List Text
  schemas : List Text
  reservedPrefixes : List Text

structure PrivilegeCatalogue where
  engine : ManagedEngineCode
  series : String
  privileges : List PrivilegeEntry
  roles : List PrivilegeRoleEntry
  attributes : List PrivilegeAttributeEntry
  defaultPrivilegeObjects : List PrivilegeDefaultObject
  blocked : PrivilegeBlocked

/-- `SYSTEM_SCHEMAS` of `mysql-family.ts`. -/
def systemSchemas : List Text :=
  ["information_schema".toList, "mysql".toList, "performance_schema".toList, "sys".toList]

/-- `BLOCKED` of `mysql-family.ts`. -/
def mysqlFamilyBlocked : PrivilegeBlocked where
  databases := systemSchemas
  schemas := []
  reservedPrefixes := ["tp_".toList, "mysql.".toList, "mariadb.".toList]

/-! ## What a daemon reports -/

structure ObservedGrant where
  level : PrivilegeLevel
  database : Option Text := none
  schema : Option Text := none
  object : Option Text := none
  columns : Option (List Text) := none
  privileges : List Text
  grantable : Option (List Text) := none
  via : Option Text := none
  host : Option Text := none
  pattern : Bool := false
  grantor : Option Text := none

structure ObservedDefaultGrant where
  database : Text
  creator : Text
  schema : Option Text
  objectType : String
  privileges : List Text
  grantable : Option (List Text)
  via : Option Text

structure ObservedMembership where
  role : Text
  inherit : Option Bool
  set : Option Bool
  admin : Option Bool
  via : Option Text
  host : Option Text

inductive AttributeValue
  | flag (value : Bool)
  | number (value : ℤ)
  deriving DecidableEq

structure ObservedAttributes where
  superuser : Option Bool
  createdb : Option Bool
  createrole : Option Bool
  replication : Option Bool
  bypassrls : Option Bool
  canLogin : Option Bool
  inherit : Option Bool
  connectionLimit : Option ℤ

structure ObservedAccount where
  host : Text
  locked : Option Bool

structure ObservedLogin where
  username : Text
  «exists» : Bool
  attributes : Option ObservedAttributes := none
  accounts : Option (List ObservedAccount) := none
  memberships : List ObservedMembership := []
  grants : List ObservedGrant
  defaults : List ObservedDefaultGrant := []
  truncated : Bool := false

structure ManagedPermissionsObserved where
  serverVersion : Option String
  observedAt : String

/-! ## What is shown -/

/-- `unknown` is no allowance. -/
structure EffectivePrivilege where
  keyword : Text
  catalogueId : Option Text
  label : String
  explanation : String
  allowed : Option PrivilegeAllowance
  reason : Option String
  grantable : Bool

structure EffectiveGrant where
  level : PrivilegeLevel
  database : Option Text
  schema : Option Text
  object : Option Text
  columns : Option (List Text)
  host : Option Text
  pattern : Bool
  via : Option Text
  viaLabel : Option String
  grantor : Option Text
  privileges : List EffectivePrivilege

structure EffectiveDefault where
  database : Text
  creator : Text
  schema : Option Text
  appliesTo : String
  objectType : String
  via : Option Text
  privileges : List EffectivePrivilege

inductive MembershipKind
  | predefined | panel | other

structure EffectiveMembership where
  role : Text
  label : Option String
  explanation : Option String
  kind : MembershipKind
  allowed : Option PrivilegeAllowance
  reason : Option String
  inherit : Option Bool
  set : Option Bool
  admin : Option Bool
  via : Option Text
  host : Option Text

structure EffectiveAttribute where
  name : String
  label : String
  explanation : String
  value : AttributeValue
  allowed : PrivilegeAllowance
  reason : Option String

structure EffectivePermissions where
  username : Text
  «exists» : Bool
  engine : ManagedEngineCode
  series : String
  observedAt : String
  serverVersion : Option String
  attributes : List EffectiveAttribute
  accounts : List ObservedAccount
  memberships : List EffectiveMembership
  grants : List EffectiveGrant
  defaults : List EffectiveDefault
  truncated : Bool
  outsidePolicyCount : ℕ

/-! ## Privileges -/

def allPrivileges : Text := "ALL PRIVILEGES".toList
def grantOption : Text := "GRANT OPTION".toList
def wholeServerReason : String := "Granted on every database on the server, wider than any single database."
def systemTargetReason : String := "It targets a system database the panel keeps off limits."

def indexKey (level : PrivilegeLevel) (keyword : Text) : Text := level.text ++ ':' :: keyword

/-- Each entry under its keyword, then under its aliases. -/
def indexCatalogue (catalogue : PrivilegeCatalogue) : Map Text PrivilegeEntry :=
  Map.ofEntries (catalogue.privileges.flatMap fun entry =>
    (entry.keyword :: entry.aliases).map fun keyword => (indexKey entry.level keyword, entry))

def fromEntry (entry : PrivilegeEntry) (keyword : Text) (grantable : Bool) : EffectivePrivilege where
  keyword := keyword
  catalogueId := some entry.id
  label := entry.label
  explanation := entry.explanation
  allowed := some entry.allowed
  reason := entry.reason
  grantable := grantable

def unknownPrivilege (keyword : Text) (grantable : Bool) : EffectivePrivilege where
  keyword := keyword
  catalogueId := none
  label := String.ofList keyword
  explanation := "This version of the database does not list this privilege in the panel."
  allowed := none
  reason := none
  grantable := grantable

/-- The privileges that `ALL PRIVILEGES` stands for on a MySQL-family engine. -/
def expandAll (catalogue : PrivilegeCatalogue) (level : PrivilegeLevel) : List PrivilegeEntry :=
  catalogue.privileges.filter fun entry => entry.level = level && entry.keyword ≠ grantOption && entry.grid

def classifyOne (catalogue : PrivilegeCatalogue) (level : PrivilegeLevel) (keyword : Text) (grantable wide : Bool) :
    List EffectivePrivilege :=
  let index := indexCatalogue catalogue
  let known : List EffectivePrivilege :=
    match index.get? (indexKey level keyword) with
    | some entry => [fromEntry entry keyword grantable]
    | none => [unknownPrivilege keyword grantable]
  if keyword = allPrivileges ∧ catalogue.engine ≠ .postgres then
    if level = .global then
      [{ keyword, catalogueId := none, label := "Everything on the server",
         explanation := "Every privilege the server has.", allowed := some .no, reason := some wholeServerReason,
         grantable }]
    else (expandAll catalogue level).map fun entry => fromEntry entry entry.keyword grantable
  else if wide then
    -- a database-level privilege on `*.*` is wider than the panel ever grants
    match (index.get? (indexKey .database keyword)).or (index.get? (indexKey .table keyword)) with
    | some entry => [{ fromEntry entry keyword grantable with allowed := some .no, reason := some wholeServerReason }]
    | none => known
  else known

def classifyPrivileges (catalogue : PrivilegeCatalogue) (level : PrivilegeLevel) (privileges : List Text)
    (grantable : Option (List Text)) : List EffectivePrivilege :=
  let wide := catalogue.engine ≠ .postgres && level = .global
  privileges.flatMap fun keyword =>
    let canPass := (grantable.getD []).contains keyword || privileges.contains grantOption
    classifyOne catalogue level keyword (canPass && keyword ≠ grantOption) wide

/-! ## Schema patterns -/

/-- The characters that are escaped. -/
def regexSyntax : List Char := ['\\', '^', '$', '.', '*', '+', '?', '(', ')', '[', ']', '{', '}', '|']

/-- The source of the regular expression, between `^` and `$`. -/
def schemaPatternRegex (pattern : Text) : Text :=
  pattern.flatMap fun ch =>
    if ch = '%' then ['.', '*']
    else if ch = '_' then ['.']
    else if ch ∈ regexSyntax then ['\\', ch]
    else [ch]

/-- Letters without their case. A letter beyond ASCII is never one of a protected name. -/
def sameLetter (c a : Char) : Bool := c.toLower == a.toLower

/-- `.` -/
def dot (a : Char) : Bool := !([0x0a, 0x0d, 0x2028, 0x2029].contains a.toNat)

/-- How a regular expression of dots, runs of dots, escaped characters and others is read, with the
flag `i`. -/
def regexPieces : Text → List (Piece Char)
  | [] => []
  | '\\' :: c :: rest => .one (sameLetter c) :: regexPieces rest
  | '.' :: '*' :: rest => .run dot :: regexPieces rest
  | '.' :: rest => .one dot :: regexPieces rest
  | c :: rest => .one (sameLetter c) :: regexPieces rest

def isBlockedTarget (catalogue : PrivilegeCatalogue) (grant : ObservedGrant) : Bool :=
  if catalogue.engine = .postgres then grant.schema.any fun schema => catalogue.blocked.schemas.contains schema
  else
    match grant.database with
    | none => false
    | some database =>
      if grant.pattern then
        catalogue.blocked.databases.any fun name => accepts (regexPieces (schemaPatternRegex database)) name
      else catalogue.blocked.databases.contains database

/-! ## The view -/

def classifyGrant (catalogue : PrivilegeCatalogue) (grant : ObservedGrant) : EffectiveGrant where
  level := grant.level
  database := grant.database
  schema := grant.schema
  object := grant.object
  columns := grant.columns
  host := grant.host
  pattern := grant.pattern
  via := grant.via
  viaLabel := if grant.via = some "PUBLIC".toList then some "everyone" else none
  grantor := grant.grantor
  privileges :=
    let blocked := isBlockedTarget catalogue grant
    (classifyPrivileges catalogue grant.level grant.privileges grant.grantable).map fun privilege =>
      if blocked then { privilege with allowed := some .no, reason := some systemTargetReason } else privilege

def classifyDefault (catalogue : PrivilegeCatalogue) (item : ObservedDefaultGrant) : EffectiveDefault :=
  let object := catalogue.defaultPrivilegeObjects.find? fun object => object.letter = item.objectType
  { database := item.database
    creator := item.creator
    schema := item.schema
    appliesTo := (object.map (·.label)).getD s!"New objects ({item.objectType})"
    objectType := item.objectType
    via := item.via
    privileges := classifyPrivileges catalogue ((object.map (·.level)).getD .table) item.privileges item.grantable }

def classifyMembership (catalogue : PrivilegeCatalogue) (item : ObservedMembership) : EffectiveMembership :=
  let base : EffectiveMembership :=
    { role := item.role, label := none, explanation := none, kind := .other, allowed := none, reason := none,
      inherit := item.inherit, set := item.set, admin := item.admin, via := item.via, host := item.host }
  match catalogue.roles.find? fun entry => entry.name = item.role with
  | some role =>
    { base with kind := .predefined, label := some role.label, explanation := some role.explanation,
                allowed := some role.allowed, reason := role.reason }
  | none =>
    if catalogue.blocked.reservedPrefixes.any fun start => start.isPrefixOf item.role then
      { base with kind := .panel, allowed := some .yes }
    else base

/-- The attribute that a column of `pg_roles` reports. -/
def attributeValue (attributes : ObservedAttributes) : String → Option AttributeValue
  | "rolsuper" => attributes.superuser.map .flag
  | "rolcreatedb" => attributes.createdb.map .flag
  | "rolcreaterole" => attributes.createrole.map .flag
  | "rolreplication" => attributes.replication.map .flag
  | "rolbypassrls" => attributes.bypassrls.map .flag
  | "rolcanlogin" => attributes.canLogin.map .flag
  | "rolinherit" => attributes.inherit.map .flag
  | "rolconnlimit" => attributes.connectionLimit.map .number
  | _ => none

def classifyAttributes (catalogue : PrivilegeCatalogue) (attributes : Option ObservedAttributes) :
    List EffectiveAttribute :=
  match attributes with
  | none => []
  | some attributes =>
    catalogue.attributes.filterMap fun entry =>
      (attributeValue attributes entry.column).map fun value =>
        { name := entry.name, label := entry.label, explanation := entry.explanation, value, allowed := entry.allowed,
          reason := entry.reason }

def countOutsidePolicy (grants : List (List EffectivePrivilege)) (memberships : List EffectiveMembership)
    (attributes : List EffectiveAttribute) : ℕ :=
  grants.foldl (fun count privileges => count + (privileges.filter fun privilege =>
      privilege.allowed = some .no).length)
      0 +
    (memberships.filter fun membership => membership.allowed = some .no).length +
    (attributes.filter fun shown => shown.allowed = .no && shown.value = .flag true).length

def buildEffectivePermissions (catalogue : PrivilegeCatalogue) (report : ManagedPermissionsObserved)
    (login : ObservedLogin) : EffectivePermissions :=
  let shown :=
    if catalogue.engine = .postgres then login.grants else login.grants.filter fun grant => grant.via = none
  let grants := shown.map (classifyGrant catalogue)
  let defaults := login.defaults.map (classifyDefault catalogue)
  let memberships := login.memberships.map (classifyMembership catalogue)
  let attributes := classifyAttributes catalogue login.attributes
  { username := login.username
    «exists» := login.exists
    engine := catalogue.engine
    series := catalogue.series
    observedAt := report.observedAt
    serverVersion := report.serverVersion
    attributes
    accounts := login.accounts.getD []
    memberships
    grants
    defaults
    truncated := login.truncated
    outsidePolicyCount :=
      countOutsidePolicy (grants.map EffectiveGrant.privileges ++ defaults.map EffectiveDefault.privileges) memberships
        attributes }

end TurboPanel.Privileges
