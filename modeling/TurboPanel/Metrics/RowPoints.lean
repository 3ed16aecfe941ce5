import TurboPanel.Metrics.EntityPages

/-!
# The rows of a sample, one by one

A row that fits holds what it is given (`rowPoint_content`, `rowPoint_double`), no row of a sample
is too long to be built (`metricsDataPoints_eq`), and the rows of a family are its pages
(`rowsOf_pageRows`). If no id has a comma, a family's rows name its entities in order, each at the
position of its cells (`placed_pageRows`).
-/

namespace TurboPanel.Metrics

open Js Data List

variable {ν ε : Type}

/-! ## The rows of one family -/

section

variable (w : Writer ν) (sample : MetricsSample ν)

/-- The point of a row that fits. -/
def rowPoint (family entityIds : Text) (values : V12RowValues ν) : AnalyticsEngineDataPoint ν where
  index := aeIndexForFamily sample.serverId family
  doubles := (writesFrom 0 (values.doubles.map (nullToSentinel w)) ++ [(aeDoubleIntervalIndex,
    sample.intervalSeconds)]).foldl (fun doubles write => doubles.set write.1 write.2)
      (List.replicate aeDoubleCount w.sentinel)
  blobs := blobsOf ([(0, "metrics".toList), (1, family), (2, aeStorageVersion), (4, w.sampleTime sample.sampledAt),
    (5, entityIds)] ++ writesFrom v12FirstContentBlobIndex values.blobs)

theorem v12Point_eq {family entityIds : Text} {values : V12RowValues ν}
    (hdoubles : values.doubles.length ≤ v12DoubleSlots) (hblobs : values.blobs.length ≤ v12ContentBlobCapacity) :
    v12Point w sample family entityIds values = some (rowPoint w sample family entityIds values) := by
  have hcount : ¬aeDoubleCount < values.doubles.length := by
    rw [v12DoubleSlots] at hdoubles
    rw [aeDoubleCount]
    omega
  rw [v12Point, buildMetricsBlobs, if_neg (Nat.not_lt.2 hblobs)]
  exact if_neg hcount

variable {i : ℕ}

theorem mem_writesFrom {α : Type} {start : ℕ} {values : List α} {a : α} :
    (i, a) ∈ writesFrom start values ↔ ∃ j, values[j]? = some a ∧ i = start + j := by
  rw [writesFrom, mem_map]
  constructor
  · rintro ⟨⟨value, j⟩, hmem, heq⟩
    cases heq
    exact ⟨j, mk_mem_zipIdx_iff_getElem?.1 hmem, rfl⟩
  · rintro ⟨j, hj, rfl⟩
    exact ⟨(a, j), mk_mem_zipIdx_iff_getElem?.2 hj, rfl⟩

variable {text : Text}

theorem getElem?_blobsOf {writes : List (ℕ × Text)} (hmem : (i, text) ∈ writes)
    (honly : ∀ other, (i, other) ∈ writes → other = text) (hi : i < aeBlobCount) :
    (blobsOf writes)[i]? = some text :=
  getElem?_foldl_set hmem honly _ (by rwa [length_replicate])

variable {family entityIds : Text} {values : V12RowValues ν}

theorem rowPoint_envelope (hmem : (i, text) ∈ [(0, "metrics".toList), (1, family),
    (2, aeStorageVersion), (4, w.sampleTime sample.sampledAt), (5, entityIds)])
    (honly : ∀ other, (i, other) ∈ [(0, "metrics".toList), (1, family), (2, aeStorageVersion),
      (4, w.sampleTime sample.sampledAt), (5, entityIds)] → other = text) (hi : i < v12FirstContentBlobIndex) :
    (rowPoint w sample family entityIds values).blobs[i]? = some text := by
  refine getElem?_blobsOf (mem_append_left _ hmem) (fun other hother => ?_)
    (hi.trans (by rw [v12FirstContentBlobIndex, aeBlobCount]; omega))
  refine (mem_append.1 hother).elim (honly other) fun hcontent => ?_
  obtain ⟨j, -, hj⟩ := mem_writesFrom.1 hcontent
  omega

theorem rowPoint_kind : (rowPoint w sample family entityIds values).blobs[0]? = some "metrics".toList :=
  rowPoint_envelope w sample (by simp) (by simp) (by decide)

theorem rowPoint_family : (rowPoint w sample family entityIds values).blobs[1]? = some family :=
  rowPoint_envelope w sample (by simp) (by simp) (by decide)

theorem rowPoint_ids : (rowPoint w sample family entityIds values).blobs[5]? = some entityIds :=
  rowPoint_envelope w sample (by simp) (by simp) (by decide)

theorem rowPoint_content {j : ℕ} (h : values.blobs[j]? = some text)
    (hblobs : values.blobs.length ≤ v12ContentBlobCapacity) :
    (rowPoint w sample family entityIds values).blobs[v12FirstContentBlobIndex + j]? = some text := by
  have hj := (List.getElem?_eq_some_iff.1 h).1
  rw [v12ContentBlobCapacity] at hblobs
  have hindex : v12FirstContentBlobIndex + j < aeBlobCount := by
    rw [v12FirstContentBlobIndex, aeBlobCount]
    omega
  refine getElem?_blobsOf (mem_append_right _ (mem_writesFrom.2 ⟨j, h, rfl⟩)) (fun other hother => ?_) hindex
  obtain henvelope | hcontent := mem_append.1 hother
  · have hle : v12FirstContentBlobIndex + j ≤ 5 := by
      simp only [mem_cons, Prod.mk.injEq, not_mem_nil, or_false] at henvelope
      omega
    rw [v12FirstContentBlobIndex] at hle
    omega
  · obtain ⟨j', hj', heq⟩ := mem_writesFrom.1 hcontent
    obtain rfl : j = j' := by omega
    exact Option.some.inj (hj'.symm.trans h)

theorem rowPoint_double {value : Option ν} (h : values.doubles[i]? = some value)
    (hdoubles : values.doubles.length ≤ v12DoubleSlots) :
    (rowPoint w sample family entityIds values).doubles[i]? = some (nullToSentinel w value) := by
  have hi := (List.getElem?_eq_some_iff.1 h).1
  rw [v12DoubleSlots] at hdoubles
  have hmapped : (values.doubles.map (nullToSentinel w))[i]? = some (nullToSentinel w value) := by
    rw [getElem?_map, h]
    rfl
  refine getElem?_foldl_set (mem_append_left _ (mem_writesFrom.2 ⟨i, hmapped, (Nat.zero_add i).symm⟩)) ?_ _ ?_
  · intro other hother
    obtain hwritten | hinterval := mem_append.1 hother
    · obtain ⟨j, hj, heq⟩ := mem_writesFrom.1 hwritten
      rw [Nat.zero_add] at heq
      rw [heq, hj] at hmapped
      exact Option.some.inj hmapped
    · have heq := congrArg Prod.fst (mem_singleton.1 hinterval)
      rw [aeDoubleIntervalIndex] at heq
      dsimp only at heq
      omega
  · rw [length_replicate, aeDoubleCount]
    omega

end

/-- A metrics row of a family. -/
def isRowOf (family : Text) (point : AnalyticsEngineDataPoint ν) : Bool :=
  point.blobs[0]? = some "metrics".toList && decide (point.blobs[1]? = some family)

def rowsOf (family : Text) (points : List (AnalyticsEngineDataPoint ν)) : List (AnalyticsEngineDataPoint ν) :=
  points.filter (isRowOf family)

/-- The ids that a row names, as its readers split them. -/
def idsOf (row : AnalyticsEngineDataPoint ν) : List Text := ((row.blobs[5]?).getD []).splitOn ','

theorem comma_not_mem_idsOf {row : AnalyticsEngineDataPoint ν} {id : Text} (h : id ∈ idsOf row) : ',' ∉ id :=
  not_mem_of_mem_splitOn ',' _ id h

/-! ## One family's pages -/

/-- The entity at a position of a row: its readings in the cells of the position, the sentinel
exactly for null, and its texts. -/
structure EntityAt (w : Writer ν) (sample : MetricsSample ν) (spec : EntityRowSpec ε ν)
    (row : AnalyticsEngineDataPoint ν) (position : ℕ) (entity : ε) : Prop where
  double : ∀ i field read, spec.doubles[i]? = some (field, read) →
    row.doubles[slotDoubleIndex spec.doubles.length position i]? = some (nullToSentinel w (read entity sample)) ∧
      (nullToSentinel w (read entity sample) = w.sentinel ↔ read entity sample = none)
  blob : ∀ j blob, spec.blobs[j]? = some blob →
    row.blobs[v12FirstContentBlobIndex + (position * spec.blobs.length + j)]? = some (blob entity sample)

/-- Every id that the rows of a family name is that of an entity that stands at its position. -/
def Placed (w : Writer ν) (sample : MetricsSample ν) (spec : EntityRowSpec ε ν) (family : V12EntityFamily)
    (entities : List ε) (points : List (AnalyticsEngineDataPoint ν)) : Prop :=
  ∀ row ∈ rowsOf family.text points, ∀ position id, (idsOf row)[position]? = some id →
    ∃ entity ∈ entities, spec.idOf entity = id ∧ EntityAt w sample spec row position entity

/-- The rows of the pages of these entities. -/
def pageRows (w : Writer ν) (sample : MetricsSample ν) (spec : EntityRowSpec ε ν) (family : V12EntityFamily)
    (entities : List ε) : List (AnalyticsEngineDataPoint ν) :=
  (packEntityPages entities spec sample).map fun page => rowPoint w sample family.text page.ids page.toV12RowValues

section

variable (w : Writer ν) (sample : MetricsSample ν) {spec : EntityRowSpec ε ν} {family : V12EntityFamily}
  {entities : List ε}

theorem entityPoints_eq (hfits : spec.Fits) :
    entityPoints w sample family (packEntityPages entities spec sample) =
      some (pageRows w sample spec family entities) := by
  rw [entityPoints, pageRows]
  refine mapM_eq_some fun page hpage => ?_
  obtain ⟨chunk, hchunk, rfl⟩ := mem_map.1 hpage
  exact v12Point_eq w sample (length_entityPage_doubles sample).le
    (length_entityPage_blobs sample (length_le_of_mem_slices hchunk) hfits)

theorem mem_pageRows {row : AnalyticsEngineDataPoint ν} : row ∈ pageRows w sample spec family entities ↔
    ∃ chunk ∈ slices spec.perPage entities, row = rowPoint w sample family.text
      (entityPage spec sample chunk).ids (entityPage spec sample chunk).toV12RowValues := by
  rw [pageRows, packEntityPages, map_map, mem_map]
  constructor
  · rintro ⟨chunk, hchunk, rfl⟩
    exact ⟨chunk, hchunk, rfl⟩
  · rintro ⟨chunk, hchunk, rfl⟩
    exact ⟨chunk, hchunk, rfl⟩

theorem length_pageRows :
    (pageRows w sample spec family entities).length = (entities.length + spec.perPage - 1) / spec.perPage := by
  rw [pageRows, packEntityPages, length_map, length_map, length_slices]

theorem idsOf_page (hfits : spec.Fits) (hcomma : ∀ entity ∈ entities, ',' ∉ spec.idOf entity) {chunk : List ε}
    (hchunk : chunk ∈ slices spec.perPage entities) {values : V12RowValues ν} :
    idsOf (rowPoint w sample family.text (entityPage spec sample chunk).ids values) = chunk.map spec.idOf := by
  rw [idsOf, rowPoint_ids, Option.getD_some, entityPage]
  dsimp only
  refine splitOn_joined (map_eq_nil_iff.not.2 (ne_nil_of_mem_slices hfits.perPage_pos hchunk)) fun id hid => ?_
  obtain ⟨entity, hentity, rfl⟩ := mem_map.1 hid
  exact hcomma entity (mem_of_mem_slices hchunk hentity)

theorem flatMap_idsOf_pageRows (hfits : spec.Fits) (hcomma : ∀ entity ∈ entities, ',' ∉ spec.idOf entity) :
    (pageRows w sample spec family entities).flatMap idsOf = entities.map spec.idOf := by
  have hpages : (pageRows w sample spec family entities).flatMap idsOf =
      (slices spec.perPage entities).flatMap fun chunk => chunk.map spec.idOf := by
    rw [pageRows, packEntityPages, map_map, flatMap_map]
    exact flatMap_congr fun chunk hchunk => idsOf_page w sample hfits hcomma hchunk
  rw [hpages, flatMap_def, ← map_flatten, flatten_slices hfits.perPage_pos]

/-- The readings of an entity are not the sentinel. -/
def EntityRowSpec.Present (spec : EntityRowSpec ε ν) (entity : ε) : Prop :=
  ∀ slot ∈ spec.doubles, slot.2 entity sample ≠ some w.sentinel

theorem placed_pageRows (hfits : spec.Fits) (hcomma : ∀ entity ∈ entities, ',' ∉ spec.idOf entity)
    (hpresent : ∀ entity ∈ entities, spec.Present w sample entity) {row : AnalyticsEngineDataPoint ν}
    (hrow : row ∈ pageRows w sample spec family entities) {position : ℕ} {id : Text}
    (hid : (idsOf row)[position]? = some id) :
    ∃ entity ∈ entities, spec.idOf entity = id ∧ EntityAt w sample spec row position entity := by
  obtain ⟨chunk, hchunk, rfl⟩ := (mem_pageRows w sample).1 hrow
  have hlength := length_le_of_mem_slices hchunk
  rw [idsOf_page w sample hfits hcomma hchunk, getElem?_map] at hid
  obtain ⟨entity, hentity, rfl⟩ := Option.map_eq_some_iff.1 hid
  have hmem := mem_of_mem_slices hchunk (mem_of_getElem? hentity)
  refine ⟨entity, hmem, rfl, ?_, ?_⟩
  · intro i field read hslot
    refine ⟨rowPoint_double w sample (entityPage_doubles sample hlength hfits hentity hslot)
      (length_entityPage_doubles sample).le, ?_⟩
    have hread := hpresent entity hmem (field, read) (mem_of_getElem? hslot)
    cases hvalue : read entity sample with
    | none => exact iff_of_true rfl rfl
    | some value => exact iff_of_false (fun h => hread (hvalue.trans (congrArg some h))) nofun
  · intro j blob hblob
    exact rowPoint_content w sample (entityPage_blobs sample hentity hblob)
      (length_entityPage_blobs sample hlength hfits)

end

/-! ## Which rows are of a family -/

section

variable (w : Writer ν) (sample : MetricsSample ν)

theorem isRowOf_rowPoint {family entityIds : Text} {values : V12RowValues ν} (other : Text) :
    isRowOf other (rowPoint w sample family entityIds values) = decide (family = other) := by
  rw [isRowOf, rowPoint_kind, rowPoint_family]
  simp

theorem rowsOf_events (family : Text) : rowsOf family (sample.events.map (buildEventDataPoint w sample)) = [] := by
  refine filter_eq_nil_iff.2 fun row hrow => ?_
  obtain ⟨event, -, rfl⟩ := mem_map.1 hrow
  have hkind : (buildEventDataPoint w sample event).blobs[0]? = some "event".toList :=
    getElem?_blobsOf (by simp) (by simp) (by decide)
  rw [isRowOf, hkind]
  simp

theorem rowsOf_pageRows {spec : EntityRowSpec ε ν} {family : V12EntityFamily} {entities : List ε} (other : Text) :
    rowsOf other (pageRows w sample spec family entities) =
      if family.text = other then pageRows w sample spec family entities else [] := by
  split
  · rename_i heq
    refine filter_eq_self.2 fun row hrow => ?_
    obtain ⟨chunk, -, rfl⟩ := (mem_pageRows w sample).1 hrow
    rw [isRowOf_rowPoint, heq, decide_eq_true rfl]
  · rename_i hne
    refine filter_eq_nil_iff.2 fun row hrow => ?_
    obtain ⟨chunk, -, rfl⟩ := (mem_pageRows w sample).1 hrow
    rw [isRowOf_rowPoint, decide_eq_false hne]
    exact Bool.false_ne_true

end

/-! ## All rows -/

theorem blockSpec_fits [Add ν] : (blockSpec : EntityRowSpec (Entity ν) ν).Fits := by
  constructor <;> exact of_decide_eq_true rfl

theorem networkSpec_fits (w : Writer ν) : (networkSpec w).Fits := by
  constructor <;> exact of_decide_eq_true rfl

theorem filesystemSpec_fits (w : Writer ν) : (filesystemSpec w).Fits := by
  constructor <;> exact of_decide_eq_true rfl

theorem gpuSpec_fits (w : Writer ν) : (gpuSpec w).Fits := by
  constructor <;> exact of_decide_eq_true rfl

theorem signalSpec_fits : (signalSpec : EntityRowSpec (HardwareSignalSample ν) ν).Fits := by
  constructor <;> exact of_decide_eq_true rfl

section

variable [Add ν] (w : Writer ν) (sample : MetricsSample ν) (slotMapping : Option SlotMapping)

def blocks : List (Entity ν) :=
  if 1 < sample.blockDevices.length then
    orderByPageOrder sample.blockDevices Entity.id (slotMapping.map (·.blockPageOrder)) else []

def filesystems : List (Entity ν) :=
  if 1 < sample.filesystems.length then
    orderByPageOrder sample.filesystems Entity.id (slotMapping.map (·.filesystemPageOrder)) else []

/-- The rows of a family of entities. -/
def familyRows : V12EntityFamily → List (AnalyticsEngineDataPoint ν)
  | .block => pageRows w sample blockSpec .block (blocks sample slotMapping)
  | .network => pageRows w sample (networkSpec w) .network (resolveNetworkSlots sample.networks slotMapping).paged
  | .filesystem => pageRows w sample (filesystemSpec w) .filesystem (filesystems sample slotMapping)
  | .gpu => pageRows w sample (gpuSpec w) .gpu
      (orderByPageOrder sample.gpus Entity.id (slotMapping.map (·.gpuPageOrder)))
  | .hardwarePhysical => pageRows w sample signalSpec .hardwarePhysical
      (orderByPageOrder sample.hardwareSignals (·.id) (slotMapping.map (·.hardwareSignalPageOrder)))

def entityFamilies : List V12EntityFamily := [.block, .network, .filesystem, .gpu, .hardwarePhysical]

theorem buildEntityPoints_eq :
    buildEntityPoints w sample (resolveNetworkSlots sample.networks slotMapping).paged slotMapping =
      some (entityFamilies.flatMap (familyRows w sample slotMapping)) := by
  rw [buildEntityPoints]
  rw [entityPoints_eq w sample blockSpec_fits, entityPoints_eq w sample (networkSpec_fits w),
    entityPoints_eq w sample (filesystemSpec_fits w), entityPoints_eq w sample (gpuSpec_fits w),
    entityPoints_eq w sample signalSpec_fits]
  simp only [Option.bind_eq_bind, Option.bind_some, entityFamilies, flatMap_cons, flatMap_nil,
    append_nil, append_assoc, familyRows, blocks, filesystems]

theorem rowsOf_familyRows (family : V12EntityFamily) (other : Text) :
    rowsOf other (familyRows w sample slotMapping family) =
      if family.text = other then familyRows w sample slotMapping family else [] := by
  cases family with
  | block => exact rowsOf_pageRows w sample other
  | network => exact rowsOf_pageRows w sample other
  | filesystem => exact rowsOf_pageRows w sample other
  | gpu => exact rowsOf_pageRows w sample other
  | hardwarePhysical => exact rowsOf_pageRows w sample other

variable [Zero ν]

def hostContext : V12Context ν :=
  buildV12Context sample (resolveNetworkSlots sample.networks slotMapping).nic0
    (resolveNetworkSlots sample.networks slotMapping).nic1

def hostFamilies : List V12HostFamily :=
  v12HostFamilies.filter fun family => family ≠ .managedDatabase || hasManagedDatabase sample

def hostRow (family : V12HostFamily) : AnalyticsEngineDataPoint ν :=
  rowPoint w sample family.text (v12HostRowEntityIds w family (hostContext sample slotMapping))
    (v12HostRowValues family (hostContext sample slotMapping))

theorem length_v12HostRowValues (family : V12HostFamily) (ctx : V12Context ν) :
    (v12HostRowValues family ctx).doubles.length = v12DoubleSlots ∧
      (v12HostRowValues family ctx).blobs.length ≤ v12ContentBlobCapacity := by
  rw [v12HostRowValues]
  dsimp only
  rw [length_map, length_map]
  cases family with
  | hostSystem => exact ⟨rfl, of_decide_eq_true rfl⟩
  | hostIo => exact ⟨rfl, of_decide_eq_true rfl⟩
  | hostNetwork => exact ⟨rfl, of_decide_eq_true rfl⟩
  | hostWeb => exact ⟨rfl, of_decide_eq_true rfl⟩
  | managedDatabase => exact ⟨rfl, of_decide_eq_true rfl⟩

/-- Every row of a sample. -/
def allRows : List (AnalyticsEngineDataPoint ν) :=
  (hostFamilies sample).map (hostRow w sample slotMapping) ++ entityFamilies.flatMap
      (familyRows w sample slotMapping) ++
    sample.events.map (buildEventDataPoint w sample)

theorem metricsDataPoints_eq : metricsDataPoints w sample slotMapping = some (allRows w sample slotMapping) := by
  have hhost : (hostFamilies sample).mapM (fun family => v12Point w sample family.text (v12HostRowEntityIds w family
      (hostContext sample slotMapping)) (v12HostRowValues family (hostContext sample slotMapping))) =
        some ((hostFamilies sample).map (hostRow w sample slotMapping)) :=
    mapM_eq_some fun family _ => v12Point_eq w sample (length_v12HostRowValues family _).1.le
      (length_v12HostRowValues family _).2
  rw [metricsDataPoints]
  rw [buildEntityPoints_eq]
  change (hostFamilies sample).mapM _ >>= _ = _
  exact congrArg (· >>= _) hhost

/-! ## The rows of a family among all rows -/

omit [Add ν] [Zero ν] in
theorem entityText_inj {family other : V12EntityFamily} : family.text = other.text ↔ family = other := by
  constructor
  · intro h
    cases family <;> cases other <;> first | rfl | cases h
  · rintro rfl
    rfl

theorem hostText_ne_entityText (host : V12HostFamily) (family : V12EntityFamily) : host.text ≠ family.text := by
  cases host <;> cases family <;> decide

omit [Add ν] [Zero ν] in
theorem rowsOf_append (family : Text) (l m : List (AnalyticsEngineDataPoint ν)) :
    rowsOf family (l ++ m) = rowsOf family l ++ rowsOf family m := filter_append l m

theorem rowsOf_hostRows (other : Text) (families : List V12HostFamily) :
    rowsOf other (families.map (hostRow w sample slotMapping)) =
      (families.filter fun family => decide (family.text = other)).map (hostRow w sample slotMapping) := by
  rw [rowsOf, filter_map]
  congr 1
  refine filter_congr fun family _ => ?_
  exact isRowOf_rowPoint w sample other

omit [Zero ν] in
theorem rowsOf_entityRows (other : Text) : rowsOf other (entityFamilies.flatMap (familyRows w sample slotMapping)) =
    entityFamilies.flatMap fun family => if family.text = other then familyRows w sample slotMapping
        family else [] := by
  rw [rowsOf, filter_flatMap]
  exact flatMap_congr fun family _ => rowsOf_familyRows w sample slotMapping family other

theorem rowsOf_allRows (family : V12EntityFamily) :
    rowsOf family.text (allRows w sample slotMapping) = familyRows w sample slotMapping family := by
  have hhost : (hostFamilies sample).filter (fun host => decide (host.text = family.text)) = [] :=
    filter_eq_nil_iff.2 fun host _ => by
      rw [decide_eq_true_eq]
      exact hostText_ne_entityText host family
  have hentity : (entityFamilies.flatMap fun other =>
      if other.text = family.text then familyRows w sample slotMapping other else []) =
        familyRows w sample slotMapping family := by
    rw [flatMap_congr fun other _ => if_congr entityText_inj rfl rfl]
    cases family <;> simp [entityFamilies]
  rw [allRows, rowsOf_append, rowsOf_append, rowsOf_hostRows, hhost, rowsOf_entityRows, hentity, rowsOf_events,
    map_nil, nil_append, append_nil]

theorem rowsOf_allRows_host {host : V12HostFamily} (h : host ≠ .managedDatabase) :
    rowsOf host.text (allRows w sample slotMapping) = [hostRow w sample slotMapping host] := by
  have hhost : (hostFamilies sample).filter (fun other => decide (other.text = host.text)) = [host] := by
    rw [hostFamilies]
    cases hasManagedDatabase sample <;> cases host <;> first | exact absurd rfl h | rfl
  have hentity : (entityFamilies.flatMap fun family =>
      if family.text = host.text then familyRows w sample slotMapping family else []) = [] :=
    flatMap_eq_nil_iff.2 fun family _ => if_neg (hostText_ne_entityText host family).symm
  rw [allRows, rowsOf_append, rowsOf_append, rowsOf_hostRows, hhost, rowsOf_entityRows, hentity, rowsOf_events]
  rfl

end

end TurboPanel.Metrics
