import TurboPanel.Data.Wildcard
import TurboPanel.Folders.Names

/-!
# Settling a folder name

The model of `takenFolderNames` and `settleFolderName` in `src/features/folders/allocate.ts` and of
`resolveFolderName` in `names.ts`: the name of an asset is typed, or it is the id, or it is the
default with the first suffix that is free. The names that the site owner uses are fetched by a
prefix, the probe without its last three characters.
-/

namespace TurboPanel.Folders

open Js Wildcard List

/-! ## Names in use -/

/-- What a folder is for. -/
inductive FolderKind
  | service | volume
  deriving DecidableEq

/-- A row of `folder`, on any server. -/
structure FolderRow where
  principalId : String
  scope : Text
  kind : FolderKind
  slug : Text
  serviceId : Option Text
  storageId : Option Text

/-- A service with its site owners and the name of its environment. -/
structure ServiceRow where
  id : Text
  slug : Option Text
  isCommon : Bool
  environmentName : Text
  principalIds : List String

/-- A volume with the name of its environment, its own or that of its service. -/
structure StorageRow where
  id : Text
  slug : Option Text
  isCommon : Bool
  environmentName : Option Text
  principalId : Option String

structure Tables where
  folders : List FolderRow
  services : List ServiceRow
  volumes : List StorageRow

def commonScope : Text := "common".toList

/-- A `LIKE` pattern. -/
def likePieces : Text → List (Piece Char)
  | [] => []
  | '%' :: rest => .run (fun _ => true) :: likePieces rest
  | '_' :: rest => .one (fun _ => true) :: likePieces rest
  | '\\' :: c :: rest => .one (· == c) :: likePieces rest
  | c :: rest => .one (· == c) :: likePieces rest

def like (value pattern : Text) : Bool := accepts (likePieces pattern) value

/-- Which names count as taken. -/
structure TakenQuery where
  kind : FolderKind
  principalId : String
  scope : Text
  exceptAssetId : Text

/-- The rows of another asset, of that site owner, scope and kind. -/
def FolderRow.counts (query : TakenQuery) (row : FolderRow) : Bool :=
  let asset := match query.kind with
    | .service => row.serviceId
    | .volume => row.storageId
  row.principalId = query.principalId && row.scope = query.scope && row.kind = query.kind &&
    asset ≠ some query.exceptAssetId

def ServiceRow.counts (query : TakenQuery) (row : ServiceRow) : Bool :=
  row.principalIds.contains query.principalId && row.id ≠ query.exceptAssetId &&
    if query.scope = commonScope then row.isCommon else !row.isCommon && row.environmentName = query.scope

def StorageRow.counts (query : TakenQuery) (row : StorageRow) : Bool :=
  row.principalId = some query.principalId && row.id ≠ query.exceptAssetId &&
    if query.scope = commonScope then row.isCommon else !row.isCommon && row.environmentName = some query.scope

/-- The names that the site owner uses there, by a folder or by an asset without one. -/
def usedNames (tables : Tables) (query : TakenQuery) : List Text :=
  (tables.folders.filter (FolderRow.counts query)).map (·.slug) ++
    match query.kind with
    | .service => (tables.services.filter (ServiceRow.counts query)).filterMap (·.slug)
    | .volume => (tables.volumes.filter (StorageRow.counts query)).filterMap (·.slug)

/-- The used names that start with the prefix. -/
def takenFolderNames (tables : Tables) (query : TakenQuery) (start : Text) : List Text :=
  (usedNames tables query).filter fun slug => like slug (start ++ ['%'])

/-! ## The choice of a name -/

inductive DirectoryNameMode
  | slug | uuid | both
  deriving DecidableEq

inductive DirectoryNameChoice
  | slug | uuid
  deriving DecidableEq

inductive FolderPlanErrorCode
  | invalidDirectoryName
  | directoryNameTaken
  | directoryNameTypedInUuidMode
  | directoryNameModeForbidden
  deriving DecidableEq

/-- What a folder name choice at creation asks for. -/
structure FolderNameRequest where
  typed : Option Text := none
  choice : Option DirectoryNameChoice := none

def resolveDirectoryNameChoice (mode : DirectoryNameMode) (requested : Option DirectoryNameChoice) :
    Except FolderPlanErrorCode DirectoryNameChoice :=
  match mode, requested with
  | .both, requested => .ok (requested.getD .slug)
  | .slug, some .uuid => .error .directoryNameModeForbidden
  | .uuid, some .slug => .error .directoryNameModeForbidden
  | .slug, _ => .ok .slug
  | .uuid, _ => .ok .uuid

def resolveFolderName (choice : DirectoryNameChoice) (assetId : Text) (typed : Option Text) (defaultBase : Text)
    (isTaken : Text → Bool) : Except FolderPlanErrorCode Text :=
  match choice, typed with
  | .uuid, some _ => .error .directoryNameTypedInUuidMode
  | .uuid, none =>
    if !isPathId assetId then .error .invalidDirectoryName
    else if isTaken assetId then .error .directoryNameTaken
    else .ok assetId
  | .slug, some typed =>
    if !isValidFolderName typed then .error .invalidDirectoryName
    else if isTaken typed then .error .directoryNameTaken
    else .ok typed
  | .slug, none =>
    if !isValidFolderName defaultBase || decide (folderNameMaxLength < defaultBase.length) then
      .error .invalidDirectoryName
    else
      match firstFreeFolderName defaultBase isTaken with
      | none => .error .directoryNameTaken
      | some free => .ok free

structure SettleInput where
  mode : DirectoryNameMode
  kind : FolderKind
  assetId : Text
  principalId : Option String
  scope : Text
  request : FolderNameRequest
  domain : Option Text
  label : Option Text

/-- What the names in use are fetched by. -/
def SettleInput.query (input : SettleInput) (principalId : String) : TakenQuery where
  kind := input.kind
  principalId := principalId
  scope := input.scope
  exceptAssetId := input.assetId

/-- The probe without its last three characters. -/
def probePrefix (probe : Text) : Text := probe.take (max 1 (probe.length - 3))

def SettleInput.base (host : Host) (input : SettleInput) : Text :=
  defaultFolderBase host input.domain input.label input.assetId

def SettleInput.probe (host : Host) (input : SettleInput) : DirectoryNameChoice → Text
  | .uuid => input.assetId
  | .slug => input.request.typed.getD (input.base host)

/-- The name that a folder gets, or why it gets none. -/
def settleFolderName (host : Host) (tables : Tables) (input : SettleInput) : Except FolderPlanErrorCode Text := do
  let choice ← resolveDirectoryNameChoice input.mode input.request.choice
  let taken := match input.principalId with
    | none => []
    | some principalId => takenFolderNames tables (input.query principalId) (probePrefix (input.probe host choice))
  resolveFolderName choice input.assetId input.request.typed (input.base host) fun name => taken.contains name

/-! ## The prefix -/

theorem like_of_prefix {start name : Text} (hchars : ∀ c ∈ start, isFolderChar c = true) (h : start <+: name) :
    like name (start ++ ['%']) = true := by
  obtain ⟨rest, rfl⟩ := h
  rw [like, accepts_iff]
  induction start with
  | nil => exact ⟨rest, [], (append_nil rest).symm, fun _ _ => rfl, rfl⟩
  | cons c start ih =>
    obtain ⟨hc, hstart⟩ := forall_mem_cons.1 hchars
    by_cases hany : c = '_'
    · rw [hany, cons_append, cons_append, likePieces]
      exact ⟨'_', start ++ rest, rfl, rfl, ih hstart⟩
    · rw [cons_append, cons_append, likePieces]
      · exact ⟨c, start ++ rest, rfl, beq_self_eq_true c, ih hstart⟩
      · rintro rfl
        cases hc
      · exact hany
      · rintro d more rfl
        cases hc

theorem like_self {name : Text} (h : ValidName name) : like name (probePrefix name ++ ['%']) = true := by
  have hpre : probePrefix name <+: name := take_prefix _ _
  exact like_of_prefix (fun c hc => h.chars c (hpre.subset hc)) hpre

variable {base : Text}

/-- **A suffixed name keeps the prefix when the base is short enough not to be cut.** -/
theorem like_withCollisionSuffix (hbase : ValidName base) (hshort : base.length ≤ 60) {n : ℕ}
    (hn : n ≤ collisionSuffixMax) : like (withCollisionSuffix base n) (probePrefix base ++ ['%']) = true := by
  obtain ⟨hdigits, -⟩ := length_suffix hn
  have hpre : probePrefix base <+: base := take_prefix _ _
  refine like_of_prefix (fun c hc => hbase.chars c (hpre.subset hc)) ?_
  rw [withCollisionSuffix, length_cons, folderNameMaxLength, if_neg (by omega)]
  exact hpre.trans (prefix_append _ _)

/-! ## The first free name -/

/-- The base, or the base with the least free suffix. -/
def LeastFree (base : Text) (used : List Text) (name : Text) : Prop :=
  (name = base ∧ base ∉ used) ∨
    (base ∈ used ∧ ∃ n, collisionSuffixMin ≤ n ∧ n ≤ collisionSuffixMax ∧ name = withCollisionSuffix base n ∧
      name ∉ used ∧ ∀ m, collisionSuffixMin ≤ m → m < n → withCollisionSuffix base m ∈ used)

def AllUsed (base : Text) (used : List Text) : Prop :=
  base ∈ used ∧ ∀ n, collisionSuffixMin ≤ n → n ≤ collisionSuffixMax → withCollisionSuffix base n ∈ used

theorem firstFreeFolderName_eq_some {name : Text} {taken : List Text} :
    firstFreeFolderName base (fun name => taken.contains name) = some name ↔ LeastFree base taken name := by
  rw [firstFreeFolderName, LeastFree]
  by_cases hbase : base ∈ taken
  · rw [if_neg (by simpa using hbase), find?_map, Option.map_eq_some_iff]
    simp only [find?_range'_eq_some, hbase, not_true, and_false, true_and, false_or]
    constructor
    · rintro ⟨n, ⟨hfree, hrange, hbefore⟩, rfl⟩
      have hrange := mem_range'_1.1 hrange
      refine ⟨n, hrange.1, ?_, rfl, by simpa using hfree, fun m hm hlt => by simpa using hbefore m hm hlt⟩
      have := hrange.2
      rw [collisionSuffixMin, collisionSuffixMax] at this
      rw [collisionSuffixMax]
      omega
    · rintro ⟨n, hmin, hmax, rfl, hfree, hbefore⟩
      refine ⟨n, ⟨by simpa using hfree, mem_range'_1.2 ⟨hmin, ?_⟩, fun m hm hlt => ?_⟩, rfl⟩
      · rw [collisionSuffixMax] at hmax
        rw [collisionSuffixMin, collisionSuffixMax]
        omega
      · simpa using hbefore m hm hlt
  · rw [if_pos (by simpa using hbase)]
    simp [hbase, eq_comm]

theorem firstFreeFolderName_eq_none {taken : List Text} :
    firstFreeFolderName base (fun name => taken.contains name) = none ↔ AllUsed base taken := by
  rw [firstFreeFolderName, AllUsed]
  by_cases hbase : base ∈ taken
  · rw [if_neg (by simpa using hbase), find?_eq_none]
    simp only [forall_mem_map, mem_range'_1, hbase, true_and, Bool.not_eq_true', contains_iff_mem,
      Bool.not_eq_false]
    refine forall_congr' fun n => ⟨fun h hmin hmax => h ⟨hmin, ?_⟩, fun h hrange => h hrange.1 ?_⟩
    · rw [collisionSuffixMax] at hmax
      rw [collisionSuffixMin, collisionSuffixMax]
      omega
    · have := hrange.2
      rw [collisionSuffixMin, collisionSuffixMax] at this
      rw [collisionSuffixMax]
      omega
  · rw [if_pos (by simpa using hbase)]
    simp [hbase]

/-! ## Settled names -/

section Settled

variable (host : Host) (tables : Tables) (input : SettleInput)

/-- The names that the site owner uses there; with no owner yet there are none. -/
def namesInUse : List Text :=
  match input.principalId with
  | none => []
  | some principalId => usedNames tables (input.query principalId)

/-- The name is made by default. -/
def SettleInput.Defaulted : Prop :=
  resolveDirectoryNameChoice input.mode input.request.choice = .ok .slug ∧ input.request.typed = none

/-- A settled name is valid and free, and a default has the least suffix. -/
structure Settles : Prop where
  base : isValidFolderName (input.base host) = true
  free : ∀ name, settleFolderName host tables input = .ok name →
    isValidFolderName name = true ∧ name ∉ namesInUse tables input
  default : input.Defaulted →
    (∃ name, settleFolderName host tables input = .ok name ∧ LeastFree (input.base host)
        (namesInUse tables input) name) ∨
      settleFolderName host tables input = .error .directoryNameTaken ∧
        AllUsed (input.base host) (namesInUse tables input)

/-- A suffixed name that is used, and comes after used names only, still has the prefix of the base.
-/
def PrefixKept : Prop :=
  input.Defaulted → input.base host ∈ namesInUse tables input →
    ∀ n, collisionSuffixMin ≤ n → n ≤ collisionSuffixMax →
      (∀ m, collisionSuffixMin ≤ m → m ≤ n → withCollisionSuffix (input.base host) m ∈ namesInUse tables input) →
        like (withCollisionSuffix (input.base host) n) (probePrefix (input.base host) ++ ['%']) = true

/-- The names that are fetched for a probe. -/
def namesFetched (probe : Text) : List Text :=
  (namesInUse tables input).filter fun slug => like slug (probePrefix probe ++ ['%'])

variable {host tables input}

variable {name : Text}

theorem mem_namesFetched {probe : Text} : name ∈ namesFetched tables input probe ↔
    name ∈ namesInUse tables input ∧ like name (probePrefix probe ++ ['%']) = true := mem_filter

theorem settleFolderName_eq {choice : DirectoryNameChoice}
    (hchoice : resolveDirectoryNameChoice input.mode input.request.choice = .ok choice) :
    settleFolderName host tables input =
      resolveFolderName choice input.assetId input.request.typed (input.base host) fun name =>
        (namesFetched tables input (input.probe host choice)).contains name := by
  rw [settleFolderName, hchoice]
  cases hprincipal : input.principalId with
  | none =>
    simp only [namesFetched, namesInUse, hprincipal]
    rfl
  | some principalId =>
    simp only [namesFetched, namesInUse, hprincipal]
    rfl

/-- **A name that is typed, or that is the id, is checked against itself**, and the prefix of a name
fetches the name. -/
theorem contains_namesFetched_self (h : ValidName name) :
    (namesFetched tables input name).contains name = true ↔ name ∈ namesInUse tables input := by
  rw [contains_iff_mem, mem_namesFetched, and_iff_left (like_self h)]

theorem settleFolderName_default (hdefault : input.Defaulted) (hbase : ValidName (input.base host)) :
    settleFolderName host tables input =
      match firstFreeFolderName (input.base host) fun name =>
        (namesFetched tables input (input.base host)).contains name with
      | none => .error .directoryNameTaken
      | some free => .ok free := by
  have hvalid := isValidFolderName_iff.2 hbase
  have hlength := hbase.length
  have hprobe : input.probe host .slug = input.base host := by
    rw [SettleInput.probe, hdefault.2, Option.getD_none]
  have hlong : decide (folderNameMaxLength < (input.base host).length) = false := decide_eq_false (not_lt.2 hlength)
  rw [settleFolderName_eq hdefault.1, hdefault.2, hprobe, resolveFolderName, hvalid, hlong]
  rfl

theorem settleFolderName_ok (h : settleFolderName host tables input = .ok name) :
    (isPathId name = true ∧ name ∉ namesInUse tables input) ∨
      (isValidFolderName name = true ∧ name ∉ namesInUse tables input) ∨ input.Defaulted := by
  cases hchoice : resolveDirectoryNameChoice input.mode input.request.choice with
  | error code =>
    rw [settleFolderName, hchoice] at h
    exact nomatch h
  | ok choice =>
    rw [settleFolderName_eq hchoice] at h
    cases choice with
    | uuid =>
      refine .inl ?_
      cases htyped : input.request.typed with
      | some typed =>
        rw [htyped, resolveFolderName] at h
        exact nomatch h
      | none =>
        rw [htyped, resolveFolderName] at h
        split_ifs at h with hid htaken
        cases h
        have hid : isPathId input.assetId = true := by simpa using hid
        refine ⟨hid, fun hused => htaken ?_⟩
        exact (contains_namesFetched_self (validName_of_isPathId hid)).2 hused
    | slug =>
      refine .inr ?_
      cases htyped : input.request.typed with
      | some typed =>
        rw [htyped, resolveFolderName] at h
        split_ifs at h with hvalid htaken
        obtain rfl := Except.ok.inj h
        have hvalid : isValidFolderName typed = true := by simpa using hvalid
        refine .inl ⟨hvalid, fun hused => htaken ?_⟩
        have hprobe : input.probe host .slug = typed := by rw [SettleInput.probe, htyped, Option.getD_some]
        rw [hprobe]
        exact (contains_namesFetched_self (isValidFolderName_iff.1 hvalid)).2 hused
      | none => exact .inr ⟨hchoice, htyped⟩

theorem leastFree_of_kept (hbase : ValidName (input.base host)) (hdefault : input.Defaulted)
    (hkept : PrefixKept host tables input)
    (h : LeastFree (input.base host) (namesFetched tables input (input.base host)) name) :
    LeastFree (input.base host) (namesInUse tables input) name := by
  have hself : input.base host ∈ namesFetched tables input (input.base host) ↔
      input.base host ∈ namesInUse tables input := by
    rw [mem_namesFetched, and_iff_left (like_self hbase)]
  obtain ⟨rfl, hfree⟩ | ⟨hused, n, hmin, hmax, rfl, hfree, hbefore⟩ := h
  · exact .inl ⟨rfl, fun hused => hfree (hself.2 hused)⟩
  · refine .inr ⟨hself.1 hused, n, hmin, hmax, rfl, fun hn => hfree ?_, fun m hm hlt =>
      (mem_namesFetched.1 (hbefore m hm hlt)).1⟩
    refine mem_namesFetched.2 ⟨hn, hkept hdefault (hself.1 hused) n hmin hmax fun m hm hle => ?_⟩
    obtain rfl | hlt := hle.eq_or_lt
    · exact hn
    · exact (mem_namesFetched.1 (hbefore m hm hlt)).1

/-- **A name is settled as it should exactly when the prefix is kept**: the cut of a long base loses
the prefix where the cut end is a run of separators, and then a used name is not seen. -/
theorem settles_iff_prefixKept (host : Host) (tables : Tables) (input : SettleInput)
    (hasset : isPathId input.assetId = true) : Settles host tables input ↔ PrefixKept host tables input := by
  have hbase : ValidName (input.base host) := validName_defaultFolderBase host input.domain input.label hasset
  constructor
  · intro h hdefault hused n hmin hmax
    induction n using Nat.strong_induction_on with
    | _ n ih =>
      intro hall
      by_contra hlost
      -- the names before are fetched, and this one is not
      have hfree : LeastFree (input.base host) (namesFetched tables input (input.base host))
          (withCollisionSuffix (input.base host) n) := by
        refine .inr ⟨mem_namesFetched.2 ⟨hused, like_self hbase⟩, n, hmin, hmax, rfl,
          fun hmem => hlost (mem_namesFetched.1 hmem).2, fun m hm hlt => ?_⟩
        exact mem_namesFetched.2 ⟨hall m hm hlt.le, ih m hlt hm (hlt.le.trans hmax) fun k hk hle =>
          hall k hk (hle.trans hlt.le)⟩
      have hsettled := @settleFolderName_default host tables input hdefault hbase
      rw [firstFreeFolderName_eq_some.2 hfree] at hsettled
      exact (h.free _ hsettled).2 (hall n hmin le_rfl)
  · intro hkept
    have hdefault : input.Defaulted →
        (∃ name, settleFolderName host tables input = .ok name ∧
          LeastFree (input.base host) (namesInUse tables input) name) ∨
        settleFolderName host tables input = .error .directoryNameTaken ∧
          AllUsed (input.base host) (namesInUse tables input) := by
      intro hdefault
      have hsettled := @settleFolderName_default host tables input hdefault hbase
      cases hfirst : firstFreeFolderName (input.base host) fun name =>
          (namesFetched tables input (input.base host)).contains name with
      | none =>
        rw [hfirst] at hsettled
        obtain ⟨hused, hall⟩ := firstFreeFolderName_eq_none.1 hfirst
        exact .inr ⟨hsettled, (mem_namesFetched.1 hused).1, fun n hmin hmax =>
          (mem_namesFetched.1 (hall n hmin hmax)).1⟩
      | some name =>
        rw [hfirst] at hsettled
        exact .inl ⟨name, hsettled, leastFree_of_kept hbase hdefault hkept (firstFreeFolderName_eq_some.1 hfirst)⟩
    refine ⟨isValidFolderName_iff.2 hbase, fun name hname => ?_, hdefault⟩
    obtain ⟨hid, hfree⟩ | hfree | hdefaulted := settleFolderName_ok hname
    · exact ⟨isValidFolderName_iff.2 (validName_of_isPathId hid), hfree⟩
    · exact hfree
    · obtain ⟨name', hname', hleast⟩ | ⟨herror, -⟩ := hdefault hdefaulted
      · cases hname.symm.trans hname'
        obtain ⟨rfl, hfree⟩ | ⟨-, n, -, hmax, rfl, hfree, -⟩ := hleast
        · exact ⟨isValidFolderName_iff.2 hbase, hfree⟩
        · exact ⟨isValidFolderName_iff.2 (validName_withCollisionSuffix hbase hmax), hfree⟩
      · exact nomatch hname.symm.trans herror

end Settled

/-! ## A lost prefix -/

/-- A runtime on ASCII texts. -/
def asciiHost : Host where
  normalizeNFC := id
  normalizeNFKD := id
  isMark := fun _ => false
  hostname := some

/-- A service of a site owner that is named after its label. -/
def labelled (label : Text) : SettleInput where
  mode := .slug
  kind := .service
  assetId := "00000000-0000-4000-8000-000000000001".toList
  principalId := some "owner"
  scope := "production".toList
  request := {}
  domain := none
  label := some label

/-- The site owner has folders of these names there. -/
def withFolders (slugs : List Text) : Tables where
  folders := slugs.map fun slug =>
    { principalId := "owner", scope := "production".toList, kind := .service, slug, serviceId := none, storageId := none }
  services := []
  volumes := []

/-- A label with a run of separators where the suffix cuts it. -/
def cutLabel : Text := List.replicate 58 'a' ++ "_-_aa".toList

/-- **A used name is settled again**: the cut of the base drops the separators, and the suffixed
name is not fetched. -/
theorem used_name_settled : ¬ ∀ (host : Host) (tables : Tables) (input : SettleInput),
    isPathId input.assetId = true → Settles host tables input := by
  intro h
  have hsettles := h asciiHost (withFolders [cutLabel, List.replicate 58 'a' ++ "-2".toList]) (labelled cutLabel)
    (by decide +kernel)
  have hname : settleFolderName asciiHost (withFolders [cutLabel, List.replicate 58 'a' ++ "-2".toList])
      (labelled cutLabel) = .ok (List.replicate 58 'a' ++ "-2".toList) := by
    decide +kernel
  exact (hsettles.free _ hname).2 (by decide +kernel)

theorem settles_short : Settles asciiHost (withFolders ["shop".toList, "shop-2".toList]) (labelled "Shop".toList) ∧
    settleFolderName asciiHost (withFolders ["shop".toList, "shop-2".toList]) (labelled "Shop".toList) =
      .ok "shop-3".toList := by
  refine ⟨(settles_iff_prefixKept _ _ _ (by decide +kernel)).2 fun _ _ n _ hmax _ => ?_, by decide +kernel⟩
  exact like_withCollisionSuffix (validName_defaultFolderBase _ _ _ (by decide +kernel)) (by decide +kernel) hmax

end TurboPanel.Folders
