import TurboPanel.Metrics.HostFacts
import TurboPanel.Metrics.RowsFaithful

/-!
# What an answer of the hosted store says

An answer for a sample has one sample time (`newestKey_eq`) and, in some order, exactly the rows of
each family that carries text (`rowsOfFamily_perm`). Read blob by blob, the pages of a family give
each of its entities with its texts (`parseEntityText_pageRows`), and the host rows give the host's
texts (`parseHostText_eq`).
-/

namespace TurboPanel.Metrics

open Js Data List

variable {ν : Type}

/-! ## A row that is read -/

section

variable (w : Writer ν) (sample : MetricsSample ν) {family entityIds : Text} {values : V12RowValues ν}

theorem factRow_family : (factRow (rowPoint w sample family entityIds values)).family = family := by
  rw [factRow]
  dsimp only
  rw [rowPoint_family]
  rfl

theorem factRow_ids : (factRow (rowPoint w sample family entityIds values)).ids = entityIds := by
  rw [factRow]
  dsimp only
  rw [rowPoint_ids]
  rfl

theorem factRow_sampled :
    (factRow (rowPoint w sample family entityIds values)).sampled = w.sampleTime sample.sampledAt := by
  have htime : (rowPoint w sample family entityIds values).blobs[4]? = some (w.sampleTime sample.sampledAt) :=
    rowPoint_envelope w sample (by simp) (by simp) (by decide)
  rw [factRow]
  dsimp only
  rw [htime]
  rfl

theorem contentBlob_factRow {j : ℕ} {text : Text} (h : values.blobs[j]? = some text)
    (hblobs : values.blobs.length ≤ v12ContentBlobCapacity) :
    contentBlob (factRow (rowPoint w sample family entityIds values)) j = text := by
  have hj : j < v12ContentBlobCapacity := (List.getElem?_eq_some_iff.1 h).1.trans_le hblobs
  rw [contentBlob, factRow]
  dsimp only
  rw [getElem?_take_of_lt hj, getElem?_drop, rowPoint_content w sample h hblobs]
  rfl

theorem isFactPoint_rowPoint : isFactPoint sample.serverId (rowPoint w sample family entityIds values) =
    factFamilies.contains family := by
  have hversion : (rowPoint w sample family entityIds values).blobs[2]? = some aeStorageVersion :=
    rowPoint_envelope w sample (by simp) (by simp) (by decide)
  have hindex : (rowPoint w sample family entityIds values).index = aeIndexForFamily sample.serverId family := rfl
  rw [isFactPoint, hindex, rowPoint_kind, hversion, rowPoint_family]
  by_cases h : family ∈ factFamilies
  · have hmem : aeIndexForFamily sample.serverId family ∈
        sample.serverId :: factFamilies.map (aeIndexForFamily sample.serverId) :=
      mem_cons_of_mem _ (mem_map_of_mem h)
    simp [h, hmem]
  · simp [h]

theorem isFactPoint_event (event : MetricEvent) :
    isFactPoint sample.serverId (buildEventDataPoint w sample event) = false := by
  have hkind : (buildEventDataPoint w sample event).blobs[0]? = some "event".toList :=
    getElem?_blobsOf (by simp) (by simp) (by decide)
  rw [isFactPoint, hkind]
  simp

end

/-! ## The rows of an answer -/

section

variable [Add ν] [Zero ν] {w : Writer ν} {sample : MetricsSample ν}

theorem allRows_cases {slotMapping : Option SlotMapping} {point : AnalyticsEngineDataPoint ν}
    (h : point ∈ allRows w sample slotMapping) :
    (∃ family entityIds values, point = rowPoint w sample family entityIds values) ∨
      ∃ event, point = buildEventDataPoint w sample event := by
  rw [allRows, mem_append, mem_append] at h
  obtain (hhost | hentity) | hevent := h
  · obtain ⟨family, -, rfl⟩ := mem_map.1 hhost
    exact .inl ⟨_, _, _, rfl⟩
  · obtain ⟨family, -, hrow⟩ := mem_flatMap.1 hentity
    refine .inl ?_
    cases family <;>
    · obtain ⟨chunk, -, rfl⟩ := (mem_pageRows w sample).1 hrow
      exact ⟨_, _, _, rfl⟩
  · obtain ⟨event, -, rfl⟩ := mem_map.1 hevent
    exact .inr ⟨event, rfl⟩

theorem factPoint_cases {point : AnalyticsEngineDataPoint ν} (h : point ∈ allRows w sample none)
    (hfact : isFactPoint sample.serverId point = true) :
    ∃ family entityIds values, point = rowPoint w sample family entityIds values := by
  obtain hrow | ⟨event, rfl⟩ := allRows_cases h
  · exact hrow
  · rw [isFactPoint_event] at hfact
    cases hfact

theorem filter_factPoints {family : Text} (hfamily : family ∈ factFamilies) :
    ((allRows w sample none).filter (isFactPoint sample.serverId)).filter
        (fun point => decide ((factRow point).family = family)) = rowsOf family (allRows w sample none) := by
  rw [filter_filter, rowsOf]
  refine filter_congr fun point hpoint => ?_
  obtain ⟨other, entityIds, values, rfl⟩ | ⟨event, rfl⟩ := allRows_cases hpoint
  · rw [isFactPoint_rowPoint, isRowOf_rowPoint, factRow_family]
    by_cases h : other = family
    · simp [h, hfamily]
    · simp [h]
  · have hnot : isRowOf family (buildEventDataPoint w sample event) = false := by
      have hkind : (buildEventDataPoint w sample event).blobs[0]? = some "event".toList :=
        getElem?_blobsOf (by simp) (by simp) (by decide)
      rw [isRowOf, hkind]
      simp
    rw [isFactPoint_event, hnot, Bool.and_false]

theorem length_factPoints_le [LE ν] (hvalid : sample.Validated) (hids : sample.DistinctIds) :
    ((allRows w sample none).filter (isFactPoint sample.serverId)).length ≤ factRowLimit := by
  have hfamily : ∀ family, (familyRows w sample none family).length ≤ 22 :=
    length_familyRows_le w hvalid hids (by simp)
  have hhost : (hostFamilies sample).length ≤ v12HostFamilies.length := length_filter_le _ _
  have hsignals : (familyRows w sample none .hardwarePhysical).filter (isFactPoint sample.serverId) = [] :=
    filter_eq_nil_iff.2 fun point hpoint => by
      obtain ⟨chunk, -, rfl⟩ := (mem_pageRows w sample).1 hpoint
      rw [isFactPoint_rowPoint]
      decide
  have hevents : (sample.events.map (buildEventDataPoint w sample)).filter (isFactPoint sample.serverId) = [] :=
    filter_eq_nil_iff.2 fun point hpoint => by
      obtain ⟨event, -, rfl⟩ := mem_map.1 hpoint
      rw [isFactPoint_event]
      exact Bool.false_ne_true
  have hkept : ∀ rows : List (AnalyticsEngineDataPoint ν),
      (rows.filter (isFactPoint sample.serverId)).length ≤ rows.length := fun rows => length_filter_le _ rows
  have hblock := (hkept _).trans (hfamily .block)
  have hnetwork := (hkept _).trans (hfamily .network)
  have hfilesystem := (hkept _).trans (hfamily .filesystem)
  have hgpu := (hkept _).trans (hfamily .gpu)
  have hrows := hkept ((hostFamilies sample).map (hostRow w sample none))
  change _ ≤ 5 at hhost
  rw [length_map] at hrows
  rw [allRows, factRowLimit]
  simp only [filter_append, length_append, entityFamilies, flatMap_cons, flatMap_nil,
    append_nil, hsignals, hevents]
  omega

variable {rows : List FactRow}

section

variable [LE ν] (hvalid : sample.Validated) (hids : sample.DistinctIds)
  (hrows : Answers sample.serverId (allRows w sample none) rows)

include hvalid hids hrows in
theorem answers_perm : ∃ order : List (AnalyticsEngineDataPoint ν),
    order.Perm ((allRows w sample none).filter (isFactPoint sample.serverId)) ∧ rows = order.map factRow := by
  obtain ⟨order, hperm, rfl⟩ := hrows
  refine ⟨order, hperm, ?_⟩
  rw [take_of_length_le (hperm.length_eq.le.trans (length_factPoints_le hvalid hids))]

include hvalid hids hrows in
theorem sampled_eq {row : FactRow} (hrow : row ∈ rows) : row.sampled = w.sampleTime sample.sampledAt := by
  obtain ⟨order, hperm, rfl⟩ := answers_perm hvalid hids hrows
  obtain ⟨point, hpoint, rfl⟩ := mem_map.1 hrow
  obtain ⟨hmem, hfact⟩ := mem_filter.1 (hperm.mem_iff.1 hpoint)
  obtain ⟨family, entityIds, values, rfl⟩ := factPoint_cases hmem hfact
  exact factRow_sampled w sample

include hvalid hids hrows in
/-- **The rows of a family**, in some order. -/
theorem rowsOfFamily_perm {family : Text} (hfamily : family ∈ factFamilies) :
    (rowsOfFamily rows family).Perm ((rowsOf family (allRows w sample none)).map factRow) := by
  obtain ⟨order, hperm, rfl⟩ := answers_perm hvalid hids hrows
  rw [rowsOfFamily, filter_map, ← filter_factPoints hfamily]
  exact (hperm.filter _).map factRow

end

theorem not_codeUnits_lt_self (text : Text) : ¬codeUnits text < codeUnits text := lt_irrefl _

theorem codeUnits_ne_nil {text : Text} (h : text ≠ []) : codeUnits text ≠ [] := by
  obtain ⟨c, text, rfl⟩ := exists_cons_of_ne_nil h
  rw [codeUnits, flatMap_cons]
  split
  · exact cons_ne_nil _ _
  · exact cons_ne_nil _ _

theorem newestKey_eq {time : Text} (htime : time ≠ []) (hne : rows ≠ []) (h : ∀ row ∈ rows, row.sampled = time) :
    newestKey rows = time := by
  have hstay : ∀ rest : List FactRow, (∀ row ∈ rest, row.sampled = time) →
      (rest.map (·.sampled)).foldl (fun a b => if codeUnits a < codeUnits b then b else a) time = time := by
    intro rest hrest
    induction rest with
    | nil => rfl
    | cons row rest ih =>
      rw [map_cons, foldl_cons, hrest row mem_cons_self, if_neg (not_codeUnits_lt_self time)]
      exact ih fun other hother => hrest other (mem_cons_of_mem _ hother)
  obtain ⟨row, rest, rfl⟩ := exists_cons_of_ne_nil hne
  have hfirst : codeUnits [] < codeUnits time := by
    obtain ⟨unit, units, hunits⟩ := exists_cons_of_ne_nil (codeUnits_ne_nil htime)
    rw [hunits]
    exact nil_lt_cons unit units
  rw [newestKey, map_cons, foldl_cons, h row mem_cons_self, if_pos hfirst]
  exact hstay rest fun other hother => h other (mem_cons_of_mem _ hother)

end

/-! ## The texts of a page -/

section

variable {ε : Type} (w : Writer ν) (sample : MetricsSample ν) {spec : EntityRowSpec ε ν} (family : V12EntityFamily)
  {fields : List Text} {entities : List ε}

/-- An entity with its texts under the names of these fields. -/
def parsedEntity (spec : EntityRowSpec ε ν) (fields : List Text) (sample : MetricsSample ν) (entity : ε) :
    EntityText where
  id := spec.idOf entity
  text key := (fields.idxOf? key).map fun i => ((spec.blobs[i]?).map fun blob => blob entity sample).getD []

section

variable (hfits : spec.Fits) (hfields : fields.length = spec.blobs.length)
include hfits hfields

theorem entityTextAt_page {chunk : List ε}
    (hchunk : chunk.length ≤ spec.perPage) {entityIds : Text} {position : ℕ} {entity : ε}
    (hentity : chunk[position]? = some entity) :
    entityTextAt (factRow (rowPoint w sample family.text entityIds (entityPage spec sample
        chunk).toV12RowValues)) fields
      position (spec.idOf entity) = parsedEntity spec fields sample entity := by
  rw [entityTextAt, parsedEntity]
  congr 1
  funext key
  cases hindex : fields.idxOf? key with
  | none => rfl
  | some i =>
    have hi : i < spec.blobs.length := by
      rw [← hfields]
      exact (findIdx?_eq_some_iff_getElem.1 hindex).1
    have hblob := getElem?_eq_getElem hi
    rw [Option.map_some, Option.map_some, hblob, hfields, contentBlob_factRow w sample
      (entityPage_blobs sample hentity hblob) (length_entityPage_blobs sample hchunk hfits)]
    rfl

theorem entityTexts_page
    (hcomma : ∀ entity ∈ entities, ',' ∉ spec.idOf entity) (hne : ∀ entity ∈ entities, spec.idOf entity ≠ [])
    {chunk : List ε} (hchunk : chunk ∈ slices spec.perPage entities) :
    parseEntityText [factRow (rowPoint w sample family.text (entityPage spec sample chunk).ids
      (entityPage spec sample chunk).toV12RowValues)] fields = chunk.map (parsedEntity spec fields sample) := by
  have hsplit : ([','].intercalate (chunk.map spec.idOf)).splitOn ',' = chunk.map spec.idOf :=
    splitOn_joined (map_eq_nil_iff.not.2 (ne_nil_of_mem_slices hfits.perPage_pos hchunk)) fun id hid => by
      obtain ⟨entity, hentity, rfl⟩ := mem_map.1 hid
      exact hcomma entity (mem_of_mem_slices hchunk hentity)
  have hids : [','].intercalate (chunk.map spec.idOf) ≠ [] := by
    intro hnil
    rw [hnil, splitOn_nil] at hsplit
    have hmem : [] ∈ chunk.map spec.idOf := hsplit ▸ mem_singleton_self []
    obtain ⟨entity, hentity, hempty⟩ := mem_map.1 hmem
    exact hne entity (mem_of_mem_slices hchunk hentity) hempty
  rw [parseEntityText, flatMap_singleton, factRow_ids]
  change (if [','].intercalate (chunk.map spec.idOf) = [] then [] else _) = _
  rw [if_neg hids]
  change (([','].intercalate (chunk.map spec.idOf)).splitOn ',').zipIdx.map _ = _
  rw [hsplit]
  refine ext_getElem? fun position => ?_
  rw [getElem?_map, getElem?_zipIdx, getElem?_map, getElem?_map]
  cases hentity : chunk[position]? with
  | none => rfl
  | some entity =>
    simp only [Option.map_some, Nat.zero_add]
    rw [entityTextAt_page w sample family hfits hfields (length_le_of_mem_slices hchunk) hentity]

/-- **The pages of a family give its entities**, in order, each with its texts. -/
theorem parseEntityText_pageRows
    (hcomma : ∀ entity ∈ entities, ',' ∉ spec.idOf entity) (hne : ∀ entity ∈ entities, spec.idOf entity ≠ []) :
    parseEntityText ((pageRows w sample spec family entities).map factRow) fields =
      entities.map (parsedEntity spec fields sample) := by
  have hpages : parseEntityText ((pageRows w sample spec family entities).map factRow) fields =
      (slices spec.perPage entities).flatMap fun chunk => chunk.map (parsedEntity spec fields sample) := by
    rw [parseEntityText, pageRows, packEntityPages, map_map, map_map, flatMap_map]
    refine flatMap_congr fun chunk hchunk => ?_
    rw [← entityTexts_page w sample family hfits hfields hcomma hne hchunk, parseEntityText,
      flatMap_singleton]
    rfl
  rw [hpages, flatMap_def, ← map_flatten, flatten_slices hfits.perPage_pos]

end

theorem parseEntityText_perm {rows rows' : List FactRow} (h : rows.Perm rows') (fields : List Text) :
    (parseEntityText rows fields).Perm (parseEntityText rows' fields) := List.Perm.flatMap_right _ h

end

/-! ## The texts of the host -/

/-- A text of the host. -/
def MetricsSample.hostText (sample : MetricsSample ν) (key : Text) : Option Text :=
  (sample.extended.bind (·.text)).bind (· key)

theorem present_getD (value : Option Text) : present (some (value.getD [])) = present value := by
  cases value with
  | none => rfl
  | some text => rfl

section

variable [Add ν] [Zero ν] {w : Writer ν} {sample : MetricsSample ν}

theorem rowsOf_host (host : V12HostFamily) : rowsOf host.text (allRows w sample none) =
    if host ∈ hostFamilies sample then [hostRow w sample none host] else [] := by
  have hhost : (hostFamilies sample).filter (fun other => decide (other.text = host.text)) =
      if host ∈ hostFamilies sample then [host] else [] := by
    rw [hostFamilies]
    cases hasManagedDatabase sample <;> cases host <;> decide
  have hentity : (entityFamilies.flatMap fun family =>
      if family.text = host.text then familyRows w sample none family else []) = [] :=
    flatMap_eq_nil_iff.2 fun family _ => if_neg (hostText_ne_entityText host family).symm
  rw [allRows, rowsOf_append, rowsOf_append, rowsOf_hostRows, hhost, rowsOf_entityRows, hentity, rowsOf_events,
    append_nil, append_nil]
  split
  · rfl
  · rfl

theorem hostText_mem_factFamilies (host : V12HostFamily) : host.text ∈ factFamilies := by
  cases host <;> decide

theorem hostTextEntries_hostRow (host : V12HostFamily) :
    (host.texts.zipIdx.map fun (key, index) => (key, contentBlob (factRow (hostRow w sample none host)) index)) =
      host.texts.map fun key => (key, (sample.hostText key).getD []) := by
  have hentry : (host.texts.zipIdx.map fun (key, index) =>
      (key, contentBlob (factRow (hostRow w sample none host)) index)) =
        host.texts.zipIdx.map fun entry => (entry.1, (sample.hostText entry.1).getD []) := by
    refine map_congr_left fun ⟨key, index⟩ hmem => ?_
    have hblob : (v12HostRowValues host (hostContext sample none)).blobs[index]? =
        some ((sample.hostText key).getD []) := by
      rw [v12HostRowValues]
      dsimp only
      rw [getElem?_map, mk_mem_zipIdx_iff_getElem?.1 hmem]
      rfl
    exact congrArg (Prod.mk key) (contentBlob_factRow w sample hblob (length_v12HostRowValues host _).2)
  rw [hentry]
  conv_rhs => rw [← zipIdx_map_fst 0 host.texts, map_map]
  rfl

omit [Add ν] [Zero ν] in
theorem nodup_hostTexts (sample : MetricsSample ν) : ((hostFamilies sample).flatMap V12HostFamily.texts).Nodup := by
  have hall : (v12HostFamilies.flatMap V12HostFamily.texts).Nodup := by decide +kernel
  exact hall.sublist (List.Sublist.flatMap filter_sublist _)

variable [LE ν] {rows : List FactRow} (hvalid : sample.Validated) (hids : sample.DistinctIds)
  (hrows : Answers sample.serverId (allRows w sample none) rows)

include hvalid hids hrows in
theorem hostTextEntries_eq (host : V12HostFamily) : hostTextEntries rows host =
    if host ∈ hostFamilies sample then host.texts.map fun key => (key, (sample.hostText key).getD []) else [] := by
  have hperm := rowsOfFamily_perm hvalid hids hrows (hostText_mem_factFamilies host)
  rw [rowsOf_host] at hperm
  rw [hostTextEntries]
  split at hperm
  · rename_i hmem
    rw [perm_singleton.1 hperm, if_pos hmem, ← hostTextEntries_hostRow (w := w)]
    rfl
  · rename_i hmem
    rw [perm_nil.1 hperm, if_neg hmem]
    rfl

include hvalid hids hrows in
theorem hostTexts_eq : v12HostFamilies.flatMap (hostTextEntries rows) =
    (hostFamilies sample).flatMap fun host => host.texts.map fun key => (key, (sample.hostText key).getD []) := by
  have hentries : hostTextEntries rows = fun host =>
      if host ∈ hostFamilies sample then host.texts.map fun key => (key, (sample.hostText key).getD []) else [] :=
    funext (hostTextEntries_eq hvalid hids hrows)
  rw [hentries, hostFamilies]
  cases hasManagedDatabase sample
  · rfl
  · rfl

include hvalid hids hrows in
/-- **The host rows give the host's texts**, if those of the databases come with database data. -/
theorem parseHostText_eq (hdatabase : ∀ text, sample.hostText "dbVersions".toList = some text → text ≠ [] →
    hasManagedDatabase sample = true) : parseHostText rows = presentHostText sample.hostText := by
  have hcovered : ∀ key ∈ metricsTextFieldNames, ∃ host ∈ v12HostFamilies, key ∈ host.texts := by decide +kernel
  have hnodup : (((hostFamilies sample).flatMap fun host =>
      host.texts.map fun key => (key, (sample.hostText key).getD [])).map Prod.fst).Nodup := by
    rw [map_flatMap]
    have hkeys : ∀ host : V12HostFamily, (host.texts.map fun key => (key, (sample.hostText key).getD [])).map Prod.fst =
        host.texts := fun host => by
      rw [map_map]
      exact map_id host.texts
    rw [flatMap_congr fun host _ => hkeys host]
    exact nodup_hostTexts sample
  rw [parseHostText, presentHostText, presentHostText, hostTexts_eq hvalid hids hrows]
  refine filterMap_congr fun key hkey => ?_
  obtain ⟨host, hhost, htext⟩ := hcovered key hkey
  by_cases hmem : host ∈ hostFamilies sample
  · have hget := (Map.get?_ofEntries hnodup).2
      (mem_flatMap.2 ⟨host, hmem, mem_map_of_mem (f := fun key => (key, (sample.hostText key).getD [])) htext⟩)
    rw [hget, present_getD]
  · -- only the database row may be missing, and it alone has their versions
    have hmissing : key = "dbVersions".toList ∧ hasManagedDatabase sample = false := by
      rw [hostFamilies, mem_filter, not_and] at hmem
      have hnot := hmem hhost
      rw [Bool.or_eq_true, not_or, decide_eq_true_eq, not_not] at hnot
      obtain ⟨rfl, hnone⟩ := hnot
      exact ⟨mem_singleton.1 htext, Bool.eq_false_iff.2 hnone⟩
    obtain ⟨rfl, hnone⟩ := hmissing
    have hget : (Map.ofEntries ((hostFamilies sample).flatMap fun host =>
        host.texts.map fun key => (key, (sample.hostText key).getD []))).get? "dbVersions".toList = none := by
      rw [Option.eq_none_iff_forall_ne_some]
      intro text hget
      obtain ⟨other, hother, hentry⟩ := mem_flatMap.1 ((Map.get?_ofEntries hnodup).1 hget)
      obtain ⟨key, hkey, heq⟩ := mem_map.1 hentry
      rw [(Prod.mk.inj heq).1] at hkey
      have honly : ∀ host ∈ v12HostFamilies, "dbVersions".toList ∈ host.texts → host = .managedDatabase := by
        decide +kernel
      obtain ⟨hmember, hkept⟩ := mem_filter.1 hother
      rw [honly other hmember hkey, hnone] at hkept
      cases hkept
    rw [hget]
    cases htexts : sample.hostText "dbVersions".toList with
    | none => rfl
    | some text =>
      have hempty : text = [] := by
        by_contra hne
        rw [hdatabase text htexts hne] at hnone
        cases hnone
      rw [hempty]
      rfl

end

end TurboPanel.Metrics
