import TurboPanel.Js.Bounded
import TurboPanel.Managed.EffectivePermissions

/-!
# Wildcard grants

What a pattern of schema names covers in the engine, and when the panel sees that it covers a
protected database: the regular expression reads the pattern as the engine does, but for a
backslash, which it takes for a character of the name (`regexPieces_iff`).
-/

namespace TurboPanel.Privileges

open Js Wildcard List

/-! ## The engine -/

/-- How the engine reads a pattern: a backslash before a wildcard makes it a character of the name.
-/
def likePieces : Text → List (Piece Char)
  | [] => []
  | '%' :: rest => .run (fun _ => true) :: likePieces rest
  | '_' :: rest => .one (fun _ => true) :: likePieces rest
  | '\\' :: '%' :: rest => .one (sameLetter '%') :: likePieces rest
  | '\\' :: '_' :: rest => .one (sameLetter '_') :: likePieces rest
  | c :: rest => .one (sameLetter c) :: likePieces rest

/-- A pattern covers a protected database. -/
def CoversProtected (pattern : Text) : Prop := ∃ name ∈ systemSchemas, Accepts (likePieces pattern) name

instance (pattern : Text) : Decidable (CoversProtected pattern) :=
  decidable_of_iff (∃ name ∈ systemSchemas, accepts (likePieces pattern) name = true)
    (exists_congr fun _ => and_congr_right fun _ => accepts_iff)

/-- A backslash stands before a wildcard. -/
def escapes : Text → Bool
  | '\\' :: c :: rest => c = '%' || c = '_' || escapes (c :: rest)
  | _ :: rest => escapes rest
  | [] => false

/-- The characters of a protected name. -/
def NameChar (a : Char) : Prop := sameLetter '\\' a = false ∧ dot a = true

instance (a : Char) : Decidable (NameChar a) := inferInstanceAs (Decidable (_ ∧ _))

theorem nameChar_systemSchemas : ∀ name ∈ systemSchemas, ∀ a ∈ name, NameChar a := by
  decide +kernel

/-! ## The regular expression -/

theorem schemaPatternRegex_cons (ch : Char) (pattern : Text) :
    schemaPatternRegex (ch :: pattern) = (if ch = '%' then ['.', '*'] else if ch = '_' then ['.']
      else if ch ∈ regexSyntax then ['\\', ch] else [ch]) ++ schemaPatternRegex pattern := rfl

theorem schemaPatternRegex_head (pattern : Text) : (schemaPatternRegex pattern).head? ≠ some '*' := by
  cases pattern with
  | nil => exact nofun
  | cons ch pattern =>
    rw [schemaPatternRegex_cons]
    split_ifs with h₁ h₂ h₃
    · simp
    · simp
    · simp
    · rw [singleton_append, head?_cons, ne_eq, Option.some.injEq]
      rintro rfl
      exact h₃ (by decide)

/-- The piece that the regular expression has for a character. -/
def regexPiece (ch : Char) : Piece Char :=
  if ch = '%' then .run dot else if ch = '_' then .one dot else .one (sameLetter ch)

/-- **The source is read back piece by piece**, whatever characters the pattern has. -/
theorem regexPieces_schemaPatternRegex (pattern : Text) :
    regexPieces (schemaPatternRegex pattern) = pattern.map regexPiece := by
  induction pattern with
  | nil => rfl
  | cons ch pattern ih =>
    rw [schemaPatternRegex_cons, map_cons, ← ih, regexPiece]
    have hhead := schemaPatternRegex_head pattern
    generalize schemaPatternRegex pattern = source at hhead
    split_ifs with hrun hone hsyntax
    · rfl
    · rw [singleton_append, regexPieces]
      rintro rest rfl
      exact hhead rfl
    · rfl
    · rw [singleton_append, regexPieces]
      · rintro c rest rfl -
        exact hsyntax (by decide)
      · rintro rest rfl -
        exact hsyntax (by decide)
      · rintro rfl
        exact hsyntax (by decide)

variable {pattern : Text}

theorem agrees_of_not_mem (h : '\\' ∉ pattern) :
    List.Forall₂ (Piece.AgreesOn NameChar) (pattern.map regexPiece) (likePieces pattern) := by
  induction pattern with
  | nil => exact .nil
  | cons ch pattern ih =>
    obtain ⟨hch, hpattern⟩ := not_or.1 (fun h' => h (mem_cons.2 h'))
    rw [map_cons, regexPiece]
    by_cases hrun : ch = '%'
    · rw [if_pos hrun, hrun, likePieces]
      exact .cons (.run fun a ha => ha.2) (ih hpattern)
    · rw [if_neg hrun]
      by_cases hone : ch = '_'
      · rw [if_pos hone, hone, likePieces]
        exact .cons (.one fun a ha => ha.2) (ih hpattern)
      · rw [if_neg hone, likePieces]
        · exact .cons (.one fun _ _ => rfl) (ih hpattern)
        · exact hrun
        · exact hone
        · rintro rest rfl
          exact absurd rfl hch
        · rintro rest rfl
          exact absurd rfl hch

theorem escapes_of_cons {c : Char} {rest : Text} (h : escapes (c :: rest) = false) : escapes rest = false := by
  rw [escapes.eq_def] at h
  split at h
  · rename_i heq
    cases heq
    simp only [Bool.or_eq_false_iff] at h
    exact h.2
  · rename_i heq
    cases heq
    exact h
  · rename_i heq
    exact nomatch heq

theorem mem_likePieces_of_not_escapes (h : '\\' ∈ pattern) (hescapes : escapes pattern = false) :
    .one (sameLetter '\\') ∈ likePieces pattern := by
  fun_induction likePieces pattern with
  | case1 => exact nomatch h
  | case2 rest ih =>
    obtain h | h := mem_cons.1 h
    · cases h
    · exact mem_cons_of_mem _ (ih h (escapes_of_cons hescapes))
  | case3 rest ih =>
    obtain h | h := mem_cons.1 h
    · cases h
    · exact mem_cons_of_mem _ (ih h (escapes_of_cons hescapes))
  | case4 rest ih => simp [escapes] at hescapes
  | case5 rest ih => simp [escapes] at hescapes
  | case6 c rest hrun hone hpercent hunderscore ih =>
    obtain rfl | h := mem_cons.1 h
    · exact mem_cons_self
    · exact mem_cons_of_mem _ (ih h (escapes_of_cons hescapes))

theorem mem_of_escapes (h : escapes pattern = true) : '\\' ∈ pattern := by
  fun_induction escapes pattern with
  | case1 c rest ih => exact mem_cons_self
  | case2 c rest hnot ih => exact mem_cons_of_mem _ (ih h)
  | case3 => exact nomatch h

/-- **The regular expression finds what the pattern covers, when no wildcard is escaped**; with a
backslash in the pattern it finds nothing. -/
theorem regexPieces_iff {name : Text} (hname : name ∈ systemSchemas) :
    accepts (regexPieces (schemaPatternRegex pattern)) name = true ↔
      escapes pattern = false ∧ Accepts (likePieces pattern) name := by
  have hchars := nameChar_systemSchemas name hname
  have hbackslash : ∀ a ∈ name, sameLetter '\\' a = false := fun a ha => (hchars a ha).1
  rw [accepts_iff, regexPieces_schemaPatternRegex]
  by_cases hmem : '\\' ∈ pattern
  · have hregex : ¬ Accepts (pattern.map regexPiece) name :=
      not_accepts_of_mem (mem_map.2 ⟨'\\', hmem, rfl⟩) hbackslash
    refine iff_of_false hregex ?_
    rintro ⟨hescapes, haccepts⟩
    exact not_accepts_of_mem (mem_likePieces_of_not_escapes hmem hescapes) hbackslash haccepts
  · have hescapes : escapes pattern = false := by
      by_contra h
      exact hmem (mem_of_escapes (Bool.eq_true_of_not_eq_false h))
    rw [and_iff_right hescapes]
    exact accepts_congr (agrees_of_not_mem hmem) hchars

/-! ## Grants -/

/-- A grant of the login itself on a pattern of databases. -/
structure WildcardGrant (grant : ObservedGrant) (pattern : Text) : Prop where
  level : grant.level = .database
  database : grant.database = some pattern
  direct : grant.via = none
  isPattern : grant.pattern = true

/-- A catalogue of MySQL or MariaDB. -/
structure MysqlFamily (catalogue : PrivilegeCatalogue) : Prop where
  engine : catalogue.engine = .mysql ∨ catalogue.engine = .mariadb
  blocked : catalogue.blocked = mysqlFamilyBlocked

/-- The entry of a privilege at the level of a database. -/
def databaseEntry (catalogue : PrivilegeCatalogue) (keyword : Text) : Option PrivilegeEntry :=
  (catalogue.privileges.filter fun entry =>
    entry.level = .database && (entry.keyword :: entry.aliases).contains keyword).getLast?

/-- What the catalogue says of the privileges of a grant on a database, with `ALL PRIVILEGES`
spelled out: the keywords, and whether a login may have them. -/
def catalogued (catalogue : PrivilegeCatalogue) (privileges : List Text) :
    List (Text × Option PrivilegeAllowance) :=
  privileges.flatMap fun keyword =>
    if keyword = allPrivileges then
      (expandAll catalogue .database).map fun entry => (entry.keyword, some entry.allowed)
    else [(keyword, (databaseEntry catalogue keyword).map (·.allowed))]

theorem indexKey_inj {level level' : PrivilegeLevel} {keyword keyword' : Text}
    (h : indexKey level keyword = indexKey level' keyword') : level = level' ∧ keyword = keyword' := by
  have hcolon : ∀ level : PrivilegeLevel, ∀ c ∈ level.text, (c != ':') = true := by
    intro level
    cases level <;> decide
  have htext : ∀ level level' : PrivilegeLevel, level.text = level'.text → level = level' := by
    intro level level'
    cases level <;> cases level' <;> decide
  have htake : ∀ (level : PrivilegeLevel) keyword, (indexKey level keyword).takeWhile (· != ':') = level.text := by
    intro level keyword
    rw [indexKey, takeWhile_append_of_pos (hcolon level)]
    simp
  have hlevel : level.text = level'.text := by
    rw [← htake level keyword, h, htake]
  rw [indexKey, indexKey, hlevel] at h
  exact ⟨htext _ _ hlevel, (List.cons.inj (append_cancel_left h)).2⟩

/-- **The index answers with the last entry of the catalogue** that has the keyword at the level. -/
theorem get?_indexCatalogue (catalogue : PrivilegeCatalogue) (keyword : Text) :
    (indexCatalogue catalogue).get? (indexKey .database keyword) = databaseEntry catalogue keyword := by
  rw [indexCatalogue, Map.get?_ofEntries_eq_getLast?, databaseEntry]
  induction catalogue.privileges using List.reverseRecOn with
  | nil => rfl
  | append_singleton entries entry ih =>
    rw [flatMap_append, filter_append, filter_append, flatMap_singleton]
    have hkeys : ∀ spelling, indexKey entry.level spelling = indexKey .database keyword ↔
        entry.level = .database ∧ spelling = keyword := by
      intro spelling
      refine ⟨indexKey_inj, ?_⟩
      rintro ⟨hlevel, rfl⟩
      rw [hlevel]
    generalize hpairs : ((entry.keyword :: entry.aliases).map fun spelling =>
        (indexKey entry.level spelling, entry)).filter
      (fun pair => decide (pair.1 = indexKey .database keyword)) = pairs
    have hmem : ∀ pair, pair ∈ pairs ↔ ∃ spelling ∈ entry.keyword :: entry.aliases,
        (entry.level = .database ∧ spelling = keyword) ∧ (indexKey entry.level spelling, entry) = pair := by
      intro pair
      rw [← hpairs, mem_filter, mem_map]
      constructor
      · rintro ⟨⟨spelling, hspelling, rfl⟩, hkey⟩
        exact ⟨spelling, hspelling, (hkeys spelling).1 (of_decide_eq_true hkey), rfl⟩
      · rintro ⟨spelling, hspelling, hkey, rfl⟩
        exact ⟨⟨spelling, hspelling, rfl⟩, decide_eq_true ((hkeys spelling).2 hkey)⟩
    by_cases hentry : entry.level = .database ∧ keyword ∈ entry.keyword :: entry.aliases
    · rw [filter_cons_of_pos (by simpa using hentry), filter_nil, getLast?_concat]
      obtain rfl | ⟨front, pair, rfl⟩ := eq_nil_or_concat pairs
      · exact absurd ((hmem _).2 ⟨keyword, hentry.2, ⟨hentry.1, rfl⟩, rfl⟩) not_mem_nil
      · obtain ⟨spelling, -, -, hpair⟩ := (hmem pair).1 (by simp)
        rw [concat_eq_append, ← append_assoc, getLast?_concat, ← hpair]
        rfl
    · have hnone : pairs = [] := by
        refine eq_nil_iff_forall_not_mem.2 fun pair hpair => hentry ?_
        obtain ⟨spelling, hspelling, ⟨hlevel, rfl⟩, -⟩ := (hmem pair).1 hpair
        exact ⟨hlevel, hspelling⟩
      rw [filter_cons_of_neg (by simpa using hentry), filter_nil, hnone, append_nil, append_nil, ih]

variable {catalogue : PrivilegeCatalogue}

/-- **What is shown of a privilege on a database is what the catalogue says.** -/
theorem classifyOne_database (hcatalogue : MysqlFamily catalogue) (keyword : Text)
    (grantable : Bool) :
    (classifyOne catalogue .database keyword grantable false).map (fun privilege =>
        (privilege.keyword, privilege.allowed)) =
      if keyword = allPrivileges then (expandAll catalogue .database).map fun entry =>
          (entry.keyword, some entry.allowed)
      else [(keyword, (databaseEntry catalogue keyword).map (·.allowed))] := by
  have hengine : catalogue.engine ≠ .postgres := by
    rcases hcatalogue.engine with h | h <;> rw [h] <;> decide
  rw [classifyOne]
  by_cases hall : keyword = allPrivileges
  · rw [if_pos ⟨hall, hengine⟩, if_neg (by decide), if_pos hall, map_map]
    rfl
  · rw [if_neg (fun h => hall h.1), if_neg Bool.false_ne_true, if_neg hall, get?_indexCatalogue]
    cases databaseEntry catalogue keyword <;> rfl

theorem classifyPrivileges_database (hcatalogue : MysqlFamily catalogue)
    (privileges : List Text) (grantable : Option (List Text)) :
    (classifyPrivileges catalogue .database privileges grantable).map
      (fun privilege => (privilege.keyword, privilege.allowed)) = catalogued catalogue privileges := by
  rw [classifyPrivileges, catalogued, map_flatMap]
  refine flatMap_congr fun keyword _ => ?_
  rw [show (decide (catalogue.engine ≠ .postgres) && decide (PrivilegeLevel.database = .global)) = false from
    Bool.and_false _]
  exact classifyOne_database hcatalogue keyword _

theorem isBlockedTarget_iff (hcatalogue : MysqlFamily catalogue) {grant : ObservedGrant}
    (hgrant : WildcardGrant grant pattern) :
    isBlockedTarget catalogue grant = true ↔ escapes pattern = false ∧ CoversProtected pattern := by
  have hengine : catalogue.engine ≠ .postgres := by
    rcases hcatalogue.engine with h | h <;> rw [h] <;> decide
  rw [isBlockedTarget, if_neg hengine, hgrant.database]
  dsimp only
  rw [if_pos hgrant.isPattern, hcatalogue.blocked, any_eq_true, CoversProtected]
  constructor
  · rintro ⟨name, hname, haccepts⟩
    obtain ⟨hescapes, hcovers⟩ := (regexPieces_iff hname).1 haccepts
    exact ⟨hescapes, name, hname, hcovers⟩
  · rintro ⟨hescapes, name, hname, hcovers⟩
    exact ⟨name, hname, (regexPieces_iff hname).2 ⟨hescapes, hcovers⟩⟩

/-! ## The view -/

/-- A wildcard grant is shown for what it is: no privilege of a grant that covers a protected
database is allowed, and those of the others are what the catalogue says. -/
structure Recognised (catalogue : PrivilegeCatalogue) (grant : ObservedGrant) (pattern : Text)
    (shown : EffectiveGrant) :
    Prop where
  keywords : shown.privileges.map (·.keyword) = (catalogued catalogue grant.privileges).map Prod.fst
  covers : CoversProtected pattern → ∀ privilege ∈ shown.privileges, privilege.allowed = some .no
  other : ¬ CoversProtected pattern →
    shown.privileges.map (fun privilege => (privilege.keyword, privilege.allowed)) = catalogued
        catalogue grant.privileges

/-- What is shown that a login should not have is counted. -/
def OutsidePolicyCounted (view : EffectivePermissions) : Prop :=
  view.outsidePolicyCount =
    ((view.grants.flatMap (·.privileges)) ++ (view.defaults.flatMap (·.privileges))).countP (·.allowed = some .no) +
    view.memberships.countP (·.allowed = some .no) +
    view.attributes.countP fun shown => shown.allowed = .no ∧ shown.value = .flag true

/-- The slip is of no consequence for a grant: its pattern escapes no wildcard, or covers no
protected database, or the catalogue allows none of its privileges. -/
def Unaffected (catalogue : PrivilegeCatalogue) (grant : ObservedGrant) (pattern : Text) : Prop :=
  escapes pattern = true → CoversProtected pattern →
    ∀ entry ∈ catalogued catalogue grant.privileges, entry.2 = some .no

/-- **A wildcard grant is shown for what it is exactly when the slip is of no consequence for it.**
-/
theorem recognised_iff (hcatalogue : MysqlFamily catalogue) {grant : ObservedGrant}
    (hgrant : WildcardGrant grant pattern) :
    Recognised catalogue grant pattern (classifyGrant catalogue grant) ↔ Unaffected catalogue grant pattern := by
  have hshown := classifyPrivileges_database hcatalogue grant.privileges grant.grantable
  have hkeywords := congrArg (List.map Prod.fst) hshown
  rw [map_map] at hkeywords
  have hblocked := isBlockedTarget_iff hcatalogue hgrant
  cases hb : isBlockedTarget catalogue grant with
  | true =>
    obtain ⟨hescapes, hcovers⟩ := hblocked.1 hb
    have hprivileges : (classifyGrant catalogue grant).privileges =
        (classifyPrivileges catalogue .database grant.privileges grant.grantable).map fun privilege =>
          { privilege with allowed := some .no, reason := some systemTargetReason } := by
      simp only [classifyGrant, hb, hgrant.level, if_true]
    refine iff_of_true ⟨?_, ?_, fun h => absurd hcovers h⟩ fun h => ?_
    · rw [hprivileges, map_map]
      exact hkeywords
    · intro _ privilege hprivilege
      rw [hprivileges] at hprivilege
      obtain ⟨_, -, rfl⟩ := mem_map.1 hprivilege
      rfl
    · rw [hescapes] at h
      exact absurd h Bool.false_ne_true
  | false =>
    have hprivileges : (classifyGrant catalogue grant).privileges =
        classifyPrivileges catalogue .database grant.privileges grant.grantable := by
      simp [classifyGrant, hb, hgrant.level]
    have hmissed : CoversProtected pattern → escapes pattern = true := by
      intro hcovers
      by_contra hescapes
      rw [hblocked.2 ⟨Bool.eq_false_of_not_eq_true hescapes, hcovers⟩] at hb
      exact nomatch hb
    have hnone : (∀ privilege ∈ classifyPrivileges catalogue .database grant.privileges grant.grantable,
        privilege.allowed = some .no) ↔ ∀ entry ∈ catalogued catalogue grant.privileges, entry.2 = some .no := by
      rw [← hshown, forall_mem_map]
    constructor
    · intro h _ hcovers
      rw [← hnone, ← hprivileges]
      exact h.covers hcovers
    · intro h
      refine ⟨?_, fun hcovers => ?_, fun _ => ?_⟩
      · rw [hprivileges]
        exact hkeywords
      · rw [hprivileges, hnone]
        exact h (hmissed hcovers) hcovers
      · rw [hprivileges]
        exact hshown

theorem outsidePolicyCounted (catalogue : PrivilegeCatalogue) (report : ManagedPermissionsObserved)
    (login : ObservedLogin) : OutsidePolicyCounted (buildEffectivePermissions catalogue report login) := by
  have hfold : ∀ (lists : List (List EffectivePrivilege)) (start : ℕ),
      lists.foldl (fun count privileges =>
        count + (privileges.filter fun privilege => privilege.allowed = some .no).length) start =
        start + lists.flatten.countP (·.allowed = some .no) := by
    intro lists
    induction lists with
    | nil => exact fun start => rfl
    | cons first lists ih =>
      intro start
      rw [foldl_cons, ih, flatten_cons, countP_append, Nat.add_assoc]
      simp only [countP_eq_length_filter]
  rw [OutsidePolicyCounted, buildEffectivePermissions, countOutsidePolicy]
  dsimp only
  rw [hfold, flatten_append, Nat.zero_add]
  simp only [List.flatMap, countP_eq_length_filter, Bool.decide_and]

/-- **Wildcard grants on protected databases are recognised exactly where the slip is of no
consequence**: the panel misses a pattern that covers a protected database when it escapes a
wildcard. -/
theorem wildcard_grants_recognised_iff (catalogue : PrivilegeCatalogue) (hcatalogue : MysqlFamily catalogue)
    (report : ManagedPermissionsObserved) (login : ObservedLogin) :
    List.Forall₂ (fun grant shown => ∀ pattern, WildcardGrant grant pattern → Recognised catalogue grant pattern shown)
        (login.grants.filter fun grant => grant.via = none) (buildEffectivePermissions catalogue report login).grants ∧
      OutsidePolicyCounted (buildEffectivePermissions catalogue report login) ↔
    ∀ grant ∈ login.grants, ∀ pattern, WildcardGrant grant pattern → Unaffected catalogue grant pattern := by
  have hengine : catalogue.engine ≠ .postgres := by
    rcases hcatalogue.engine with h | h <;> rw [h] <;> decide
  have hgrants : (buildEffectivePermissions catalogue report login).grants =
      (login.grants.filter fun grant => grant.via = none).map (classifyGrant catalogue) := by
    rw [buildEffectivePermissions, if_neg hengine]
  rw [and_iff_left (outsidePolicyCounted catalogue report login), hgrants, forall₂_map_right_iff,
    forall₂_same]
  constructor
  · intro h grant hgrant pattern hwildcard
    have hdirect : grant ∈ login.grants.filter fun grant => grant.via = none :=
      mem_filter.2 ⟨hgrant, decide_eq_true hwildcard.direct⟩
    exact (recognised_iff hcatalogue hwildcard).1 (h grant hdirect pattern hwildcard)
  · intro h grant hgrant pattern hwildcard
    exact (recognised_iff hcatalogue hwildcard).2 (h grant (mem_filter.1 hgrant).1 pattern hwildcard)

/-! ## A missed grant -/

/-- The catalogue of MySQL, with one privilege. -/
def mysqlCatalogue : PrivilegeCatalogue where
  engine := .mysql
  series := "8.4"
  privileges := [
    { id := "database:SELECT".toList, level := .database, keyword := "SELECT".toList, label := "Read rows",
      explanation := "Read rows.", allowed := .yes }]
  roles := []
  attributes := []
  defaultPrivilegeObjects := []
  blocked := mysqlFamilyBlocked

theorem mysqlFamily_mysqlCatalogue : MysqlFamily mysqlCatalogue := ⟨.inl rfl, rfl⟩

def loginWith (grant : ObservedGrant) : ObservedLogin where
  username := "site".toList
  «exists» := true
  grants := [grant]

/-- `SELECT` on the databases of a pattern. -/
def selectOn (pattern : String) : ObservedGrant where
  level := .database
  database := some pattern.toList
  privileges := ["SELECT".toList]
  pattern := true

/-- **A grant on a protected database is shown as allowed** when its pattern escapes an underscore.
-/
theorem escaped_pattern_missed :
    ¬ ∀ (catalogue : PrivilegeCatalogue), MysqlFamily catalogue → ∀ (report : ManagedPermissionsObserved)
      (login : ObservedLogin),
      List.Forall₂ (fun grant shown => ∀ pattern, WildcardGrant grant pattern → Recognised catalogue
          grant pattern shown)
        (login.grants.filter fun grant => grant.via = none) (buildEffectivePermissions catalogue report login).grants ∧
      OutsidePolicyCounted (buildEffectivePermissions catalogue report login) := by
  intro h
  have hgrant : WildcardGrant (selectOn "information\\_schem%") "information\\_schem%".toList := ⟨rfl, rfl, rfl, rfl⟩
  have hshown := (h mysqlCatalogue mysqlFamily_mysqlCatalogue ⟨none, ""⟩
    (loginWith (selectOn "information\\_schem%"))).1
  obtain ⟨hrecognised, -⟩ := forall₂_cons.1 hshown
  have hunaffected := (recognised_iff mysqlFamily_mysqlCatalogue hgrant).1 (hrecognised _ hgrant)
  exact absurd (hunaffected (by decide) (by decide +kernel)) (by decide +kernel)

theorem wildcard_grant_recognised :
    List.Forall₂
      (fun grant shown => ∀ pattern, WildcardGrant grant pattern → Recognised mysqlCatalogue grant pattern shown)
      [selectOn "m_sql"] (buildEffectivePermissions mysqlCatalogue ⟨none, ""⟩ (loginWith (selectOn "m_sql"))).grants := by
  refine ((wildcard_grants_recognised_iff mysqlCatalogue mysqlFamily_mysqlCatalogue ⟨none, ""⟩
    (loginWith (selectOn "m_sql"))).2 ?_).1
  intro grant hgrant pattern hwildcard hescapes
  obtain rfl := mem_singleton.1 hgrant
  cases hwildcard.database
  cases hescapes

end TurboPanel.Privileges
