import TurboPanel.Metrics.EntityRows

/-!
# Pages keep every entity

Reordering by a page order is a permutation (`orderByPageOrder_perm`), whatever the order names. The
embedded network devices and the paged ones are together the devices that are not of the mesh
(`resolveNetworkSlots_perm`). In a page, the entity at a position has its readings and texts in the
cells of that position (`entityPage_doubles`, `entityPage_blobs`).
-/

namespace TurboPanel.Metrics

open Js Data List

variable {ν ε : Type}

/-! ## Page order -/

theorem get?_byId {idOf : ε → Text} {entities : List ε} (h : (entities.map idOf).Nodup) {id : Text} {entity : ε} :
    (Map.ofEntries (entities.map fun entity => (idOf entity, entity))).get? id = some entity ↔
      entity ∈ entities ∧ idOf entity = id := by
  rw [Map.get?_ofEntries (by rwa [map_map])]
  constructor
  · intro hmem
    obtain ⟨other, hother, heq⟩ := mem_map.1 hmem
    cases heq
    exact ⟨hother, rfl⟩
  · rintro ⟨hentity, rfl⟩
    exact mem_map_of_mem hentity

theorem get?_takeInOrder (order : List Text) (left : Map Text ε) (id : Text) :
    (takeInOrder left order).2.get? id = if id ∈ order then none else left.get? id := by
  induction order generalizing left with
  | nil => exact (if_neg not_mem_nil).symm
  | cons first order ih =>
    rw [takeInOrder]
    split
    · rw [ih, Map.get?_delete]
      by_cases hfirst : id = first
      · rw [if_pos hfirst, ite_self, if_pos (hfirst ▸ mem_cons_self)]
      · rw [if_neg hfirst]
        simp only [mem_cons, hfirst, false_or]
    · rename_i hnone
      rw [ih]
      by_cases hfirst : id = first
      · rw [hfirst, hnone, ite_self, ite_self]
      · simp only [mem_cons, hfirst, false_or]

theorem mem_takeInOrder {idOf : ε → Text} {order : List Text} {left : Map Text ε}
    (hleft : ∀ id entity, left.get? id = some entity → idOf entity = id) {entity : ε} :
    entity ∈ (takeInOrder left order).1 ↔ idOf entity ∈ order ∧ left.get? (idOf entity) = some entity := by
  induction order generalizing left with
  | nil => exact iff_of_false not_mem_nil fun h => not_mem_nil h.1
  | cons first order ih =>
    rw [takeInOrder]
    split
    · rename_i found hfound
      have hdelete : ∀ id other, (left.delete first).get? id = some other → idOf other = id := by
        intro id other h
        rw [Map.get?_delete] at h
        split at h
        · cases h
        · exact hleft id other h
      rw [mem_cons, ih hdelete, Map.get?_delete, mem_cons]
      by_cases hfirst : idOf entity = first
      · rw [if_pos hfirst, hfirst, hfound]
        simp [eq_comm]
      · have hne : entity ≠ found := fun h => hfirst (h ▸ hleft first found hfound)
        simp [hfirst, hne]
    · rename_i hnone
      rw [ih hleft, mem_cons]
      by_cases hfirst : idOf entity = first
      · rw [hfirst, hnone]
        simp
      · simp [hfirst]

theorem nodup_takeInOrder {idOf : ε → Text} (order : List Text) {left : Map Text ε}
    (hleft : ∀ id entity, left.get? id = some entity → idOf entity = id) : (takeInOrder left order).1.Nodup := by
  induction order generalizing left with
  | nil => exact nodup_nil
  | cons first order ih =>
    rw [takeInOrder]
    split
    · rename_i found hfound
      have hdelete : ∀ id other, (left.delete first).get? id = some other → idOf other = id := by
        intro id other h
        rw [Map.get?_delete] at h
        split at h
        · cases h
        · exact hleft id other h
      refine nodup_cons.2 ⟨fun hmem => ?_, ih hdelete⟩
      have hget := ((mem_takeInOrder hdelete).1 hmem).2
      rw [hleft first found hfound, Map.get?_delete, if_pos rfl] at hget
      cases hget
    · exact ih hleft

/-- **The page order loses nothing**: whatever it names, each entity stands once. -/
theorem orderByPageOrder_perm {entities : List ε} {idOf : ε → Text} (h : (entities.map idOf).Nodup)
    (pageOrder : Option (List Text)) : (orderByPageOrder entities idOf pageOrder).Perm entities := by
  cases pageOrder with
  | none => exact List.Perm.refl entities
  | some order =>
    have hleft : ∀ id entity, (Map.ofEntries (entities.map fun entity => (idOf entity, entity))).get? id =
        some entity → idOf entity = id := fun id entity hget => ((get?_byId h).1 hget).2
    have hnodup : entities.Nodup := List.Nodup.of_map idOf h
    rw [orderByPageOrder]
    dsimp only
    refine (perm_ext_iff_of_nodup (nodup_append.2 ⟨nodup_takeInOrder order hleft, hnodup.filter _, ?_⟩)
      hnodup).2 fun entity => ?_
    · rintro a ha b hb rfl
      obtain ⟨-, hhas⟩ := mem_filter.1 hb
      obtain ⟨other, hother⟩ := Map.has_iff.1 hhas
      rw [get?_takeInOrder, if_pos ((mem_takeInOrder hleft).1 ha).1] at hother
      cases hother
    · rw [mem_append, mem_takeInOrder hleft, mem_filter, Map.has_iff, get?_takeInOrder]
      constructor
      · rintro (⟨-, hget⟩ | ⟨hmem, -⟩)
        · exact ((get?_byId h).1 hget).1
        · exact hmem
      · intro hmem
        have hget := (get?_byId h).2 ⟨hmem, rfl⟩
        by_cases horder : idOf entity ∈ order
        · exact .inl ⟨horder, hget⟩
        · exact .inr ⟨hmem, entity, (if_neg horder).trans hget⟩

/-! ## Network devices -/

/-- The mesh devices that a slot mapping names. -/
def isMesh (slotMapping : Option SlotMapping) (id : Text) : Bool :=
  slotMapping.any fun slots => slots.fabricDeviceIds.contains id

/-- The devices that are neither of the mesh nor in one of the two embedded slots. -/
def pagedNetworks (networks : List (Entity ν)) (slotMapping : Option SlotMapping) : List (Entity ν) :=
  match slotMapping with
  | none => networks.drop embeddedNicSlotCount
  | some slots => networks.filter fun device => !slots.fabricDeviceIds.contains device.id &&
      !(slots.normalNicSlots.take embeddedNicSlotCount).contains device.id

theorem mem_of_mem_pagedNetworks {networks : List (Entity ν)} {slotMapping : Option SlotMapping} {device : Entity ν}
    (h : device ∈ pagedNetworks networks slotMapping) : device ∈ networks := by
  cases slotMapping with
  | none => exact mem_of_mem_drop h
  | some slots => exact (mem_filter.1 h).1

/-- The lists of ids of a mapping name no id twice, and no mesh device has a slot. -/
structure SlotMapping.Sound (slots : SlotMapping) : Prop where
  normalNicSlots : slots.normalNicSlots.Nodup
  fabricDeviceIds : slots.fabricDeviceIds.Nodup
  blockPageOrder : slots.blockPageOrder.Nodup
  filesystemPageOrder : slots.filesystemPageOrder.Nodup
  gpuPageOrder : slots.gpuPageOrder.Nodup
  hardwareSignalPageOrder : slots.hardwareSignalPageOrder.Nodup
  fabric_not_slot : ∀ id ∈ slots.fabricDeviceIds, id ∉ slots.normalNicSlots

section

variable {networks : List (Entity ν)} (hids : (networks.map Entity.id).Nodup) (hne : ∀ d ∈ networks, d.id ≠ [])

include hids in
theorem byId_eq_some_iff {id : Text} {device : Entity ν} :
    byId Entity.id networks id = some device ↔ device ∈ networks ∧ device.id = id := get?_byId hids

include hids hne in
theorem truthy_bind_byId (slot : Option Text) :
    (truthy slot).bind (byId Entity.id networks) = slot.bind (byId Entity.id networks) := by
  cases slot with
  | none => rfl
  | some id =>
    by_cases hid : id = []
    · subst hid
      have hnone : byId Entity.id networks [] = none := by
        rw [Option.eq_none_iff_forall_ne_some]
        intro device hdevice
        obtain ⟨hmem, hempty⟩ := (byId_eq_some_iff hids).1 hdevice
        exact hne device hmem hempty
      rw [Option.bind_some, hnone]
      rfl
    · rw [(truthy_eq_some (t := id)).2 ⟨rfl, hid⟩]

include hids in
theorem nodup_filterMap_byId {slots : List Text} (h : slots.Nodup) :
    (slots.filterMap (byId Entity.id networks)).Nodup := by
  refine h.filterMap fun id id' device hid hid' => ?_
  rw [← ((byId_eq_some_iff hids).1 hid).2, ← ((byId_eq_some_iff hids).1 hid').2]

include hids in
theorem mem_filterMap_byId {slots : List Text} {device : Entity ν} :
    device ∈ slots.filterMap (byId Entity.id networks) ↔ device ∈ networks ∧ device.id ∈ slots := by
  rw [mem_filterMap]
  constructor
  · rintro ⟨id, hid, hget⟩
    obtain ⟨hmem, rfl⟩ := (byId_eq_some_iff hids).1 hget
    exact ⟨hmem, hid⟩
  · rintro ⟨hmem, hid⟩
    exact ⟨device.id, hid, (byId_eq_some_iff hids).2 ⟨hmem, rfl⟩⟩

include hids hne in
theorem embedded_eq_filterMap (slots : SlotMapping) :
    (resolveNetworkSlots networks (some slots)).nic0.toList ++ (resolveNetworkSlots networks (some slots)).nic1.toList =
      (slots.normalNicSlots.take embeddedNicSlotCount).filterMap (byId Entity.id networks) := by
  rw [resolveNetworkSlots]
  dsimp only
  rw [truthy_bind_byId hids hne, truthy_bind_byId hids hne]
  match slots.normalNicSlots with
  | [] => rfl
  | [slot] =>
    change ((byId Entity.id networks slot).toList ++ []) = [slot].filterMap (byId Entity.id networks)
    rw [append_nil, filterMap_cons, filterMap_nil]
    cases byId Entity.id networks slot with
    | none => rfl
    | some device => rfl
  | slot :: slot' :: rest =>
    change (byId Entity.id networks slot).toList ++ (byId Entity.id networks slot').toList =
      [slot, slot'].filterMap (byId Entity.id networks)
    rw [filterMap_cons, filterMap_cons, filterMap_nil]
    cases byId Entity.id networks slot with
    | none =>
      cases byId Entity.id networks slot' with
      | none => rfl
      | some device => rfl
    | some device =>
      cases byId Entity.id networks slot' with
      | none => rfl
      | some device => rfl

include hids in
theorem paged_perm {slotMapping : Option SlotMapping} (hsound : ∀ slots ∈ slotMapping, slots.Sound) :
    (resolveNetworkSlots networks slotMapping).paged.Perm (pagedNetworks networks slotMapping) := by
  cases slotMapping with
  | none => exact List.Perm.refl _
  | some slots =>
    have hslots := hsound slots rfl
    have hnodup : networks.Nodup := List.Nodup.of_map Entity.id hids
    have hsplit : (slots.normalNicSlots.take embeddedNicSlotCount ++
        slots.normalNicSlots.drop embeddedNicSlotCount).Nodup := by
      rw [take_append_drop]
      exact hslots.normalNicSlots
    rw [resolveNetworkSlots, pagedNetworks]
    dsimp only
    refine (perm_ext_iff_of_nodup (nodup_append.2 ⟨nodup_filterMap_byId hids (nodup_append.1 hsplit).2.1,
      hnodup.filter _, ?_⟩) (hnodup.filter _)).2 fun device => ?_
    · rintro a ha b hb rfl
      have hid : a.id ∈ ((slots.normalNicSlots.drop embeddedNicSlotCount).filterMap (byId Entity.id networks)).map
          Entity.id := mem_map_of_mem ha
      have hfilter := (mem_filter.1 hb).2
      simp only [contains_eq_mem, Bool.and_eq_true, Bool.not_eq_true', decide_eq_false_iff_not] at hfilter
      exact hfilter.2 hid
    · have hcontains : device ∈ networks → (device.id ∈ ((slots.normalNicSlots.drop embeddedNicSlotCount).filterMap
          (byId Entity.id networks)).map Entity.id ↔ device.id ∈ slots.normalNicSlots.drop embeddedNicSlotCount) := by
        intro hmem
        constructor
        · intro h
          obtain ⟨other, hother, heq⟩ := mem_map.1 h
          rw [← heq]
          exact ((mem_filterMap_byId hids).1 hother).2
        · intro h
          exact mem_map_of_mem ((mem_filterMap_byId hids).2 ⟨hmem, h⟩)
      have htake : device.id ∈ slots.normalNicSlots.drop embeddedNicSlotCount →
          device.id ∉ slots.normalNicSlots.take embeddedNicSlotCount := fun hdrop hmem =>
        (nodup_append.1 hsplit).2.2 _ hmem _ hdrop rfl
      have hfabric : device.id ∈ slots.normalNicSlots.drop embeddedNicSlotCount →
          device.id ∉ slots.fabricDeviceIds := fun hdrop hmem =>
        hslots.fabric_not_slot device.id hmem (mem_of_mem_drop hdrop)
      rw [mem_append, mem_filterMap_byId hids, mem_filter, mem_filter]
      simp only [contains_eq_mem, mem_append, Bool.and_eq_true, Bool.not_eq_true', decide_eq_false_iff_not,
        not_or]
      constructor
      · rintro (⟨hmem, hdrop⟩ | ⟨hmem, hnot, -⟩)
        · exact ⟨hmem, hfabric hdrop, htake hdrop⟩
        · exact ⟨hmem, hnot⟩
      · rintro ⟨hmem, hnot⟩
        by_cases hdrop : device.id ∈ slots.normalNicSlots.drop embeddedNicSlotCount
        · exact .inl ⟨hmem, hdrop⟩
        · exact .inr ⟨hmem, hnot, fun h => hdrop ((hcontains hmem).1 h)⟩

include hids hne in
/-- **Every device that is not of the mesh** is embedded or paged, and stands once. -/
theorem resolveNetworkSlots_perm {slotMapping : Option SlotMapping} (hsound : ∀ slots ∈ slotMapping, slots.Sound) :
    ((resolveNetworkSlots networks slotMapping).nic0.toList ++ (resolveNetworkSlots networks slotMapping).nic1.toList ++
      (resolveNetworkSlots networks slotMapping).paged).Perm
        (networks.filter fun device => !isMesh slotMapping device.id) := by
  cases slotMapping with
  | none =>
    have hall : (networks.filter fun device => !isMesh none device.id) = networks :=
      filter_eq_self.2 fun _ _ => rfl
    rw [hall]
    match networks with
    | [] => exact List.Perm.refl _
    | [device] => exact List.Perm.refl _
    | device :: device' :: rest => exact List.Perm.refl _
  | some slots =>
    have hslots := hsound slots rfl
    have hnodup : networks.Nodup := List.Nodup.of_map Entity.id hids
    have hembedded : ((slots.normalNicSlots.take embeddedNicSlotCount).filterMap (byId Entity.id networks)).Nodup :=
      nodup_filterMap_byId hids (hslots.normalNicSlots.sublist (take_sublist _ _))
    refine ((paged_perm hids hsound).append_left _).trans ?_
    rw [embedded_eq_filterMap hids hne, pagedNetworks]
    refine (perm_ext_iff_of_nodup (nodup_append.2 ⟨hembedded, hnodup.filter _, ?_⟩)
      (hnodup.filter _)).2 fun device => ?_
    · rintro a ha b hb rfl
      have htake := ((mem_filterMap_byId hids).1 ha).2
      have hfilter := (mem_filter.1 hb).2
      simp only [contains_eq_mem, Bool.and_eq_true, Bool.not_eq_true', decide_eq_false_iff_not] at hfilter
      exact hfilter.2 htake
    · have hfabric : device.id ∈ slots.normalNicSlots.take embeddedNicSlotCount →
          device.id ∉ slots.fabricDeviceIds := fun htake hmem =>
        hslots.fabric_not_slot device.id hmem (mem_of_mem_take htake)
      rw [mem_append, mem_filterMap_byId hids, mem_filter, mem_filter]
      simp only [isMesh, Option.any_some, contains_eq_mem, Bool.and_eq_true, Bool.not_eq_true',
        decide_eq_false_iff_not]
      constructor
      · rintro (⟨hmem, htake⟩ | ⟨hmem, hnot, -⟩)
        · exact ⟨hmem, hfabric htake⟩
        · exact ⟨hmem, hnot⟩
      · rintro ⟨hmem, hnot⟩
        by_cases htake : device.id ∈ slots.normalNicSlots.take embeddedNicSlotCount
        · exact .inl ⟨hmem, htake⟩
        · exact .inr ⟨hmem, hnot, htake⟩

include hids hne in
theorem not_mem_pagedNetworks {slotMapping : Option SlotMapping} {device : Entity ν}
    (h : device ∈ (resolveNetworkSlots networks slotMapping).nic0.toList ++
      (resolveNetworkSlots networks slotMapping).nic1.toList) :
    device.id ∉ (pagedNetworks networks slotMapping).map Entity.id := by
  intro hpaged
  obtain ⟨other, hother, heq⟩ := mem_map.1 hpaged
  cases slotMapping with
  | none =>
    have htake : device ∈ networks.take embeddedNicSlotCount := by
      match networks with
      | [] => exact h
      | [first] => exact h
      | first :: second :: rest => exact h
    have hsplit : ((networks.take embeddedNicSlotCount).map Entity.id ++
        (networks.drop embeddedNicSlotCount).map Entity.id).Nodup := by
      rw [← map_append, take_append_drop]
      exact hids
    exact (nodup_append.1 hsplit).2.2 _ (mem_map_of_mem htake) _ (mem_map_of_mem hother) heq.symm
  | some slots =>
    rw [embedded_eq_filterMap hids hne] at h
    have hfilter := (mem_filter.1 hother).2
    simp only [contains_eq_mem, Bool.and_eq_true, Bool.not_eq_true', decide_eq_false_iff_not] at hfilter
    exact hfilter.2 (heq ▸ ((mem_filterMap_byId hids).1 h).2)

end

/-! ## The cells of a page -/

/-- The entities of a page fit into its doubles and its texts. -/
structure EntityRowSpec.Fits (spec : EntityRowSpec ε ν) : Prop where
  perPage_pos : 0 < spec.perPage
  doubles : spec.perPage * spec.doubles.length ≤ v12DoubleSlots
  blobs : spec.perPage * spec.blobs.length + spec.pageBlobs.length ≤ v12ContentBlobCapacity

section

variable {spec : EntityRowSpec ε ν} {chunk : List ε} (sample : MetricsSample ν)

theorem length_entityPage_doubles : (entityPage spec sample chunk).doubles.length = v12DoubleSlots := by
  rw [entityPage]
  dsimp only
  rw [length_foldl_set, length_replicate]

theorem length_entityPage_blobs (hchunk : chunk.length ≤ spec.perPage) (hfits : spec.Fits) :
    (entityPage spec sample chunk).blobs.length ≤ v12ContentBlobCapacity := by
  have hmul := Nat.mul_le_mul_right spec.blobs.length hchunk
  have hblobs := hfits.blobs
  rw [entityPage]
  dsimp only
  rw [length_append, length_map, length_flatMap]
  simp only [length_map, map_const', sum_replicate, smul_eq_mul]
  omega

theorem mem_cells {index : ℕ} {value : Option ν} : (index, value) ∈ cells spec sample chunk ↔
    ∃ position entity i slot, chunk[position]? = some entity ∧ spec.doubles[i]? = some slot ∧
      index = slotDoubleIndex spec.doubles.length position i ∧ value = slot.2 entity sample := by
  rw [cells, mem_flatMap]
  constructor
  · rintro ⟨⟨entity, position⟩, hentity, hcell⟩
    obtain ⟨⟨slot, i⟩, hslot, heq⟩ := mem_map.1 hcell
    obtain ⟨hindex, hvalue⟩ := Prod.mk.inj heq
    exact ⟨position, entity, i, slot, mk_mem_zipIdx_iff_getElem?.1 hentity, mk_mem_zipIdx_iff_getElem?.1 hslot,
      hindex.symm, hvalue.symm⟩
  · rintro ⟨position, entity, i, slot, hentity, hslot, rfl, rfl⟩
    exact ⟨(entity, position), mk_mem_zipIdx_iff_getElem?.2 hentity,
      mem_map.2 ⟨(slot, i), mk_mem_zipIdx_iff_getElem?.2 hslot, rfl⟩⟩

theorem slotDoubleIndex_lt (hchunk : chunk.length ≤ spec.perPage) (hfits : spec.Fits) {position i : ℕ}
    (hposition : position < chunk.length) (hi : i < spec.doubles.length) :
    slotDoubleIndex spec.doubles.length position i < v12DoubleSlots := by
  have hmul := Nat.mul_le_mul_right spec.doubles.length (show position + 1 ≤ spec.perPage by omega)
  have hdoubles := hfits.doubles
  rw [Nat.add_mul] at hmul
  rw [slotDoubleIndex]
  omega

theorem entityPage_doubles (hchunk : chunk.length ≤ spec.perPage) (hfits : spec.Fits) {position i : ℕ} {entity : ε}
    {slot : Text × (ε → MetricsSample ν → Option ν)} (hentity : chunk[position]? = some entity)
    (hslot : spec.doubles[i]? = some slot) :
    (entityPage spec sample chunk).doubles[slotDoubleIndex spec.doubles.length position i]? =
      some (slot.2 entity sample) := by
  have hi := (List.getElem?_eq_some_iff.1 hslot).1
  rw [entityPage]
  refine getElem?_foldl_set ((mem_cells sample).2 ⟨position, entity, i, slot, hentity, hslot, rfl, rfl⟩) ?_ _ ?_
  · intro value hvalue
    obtain ⟨position', entity', i', slot', hentity', hslot', hindex, rfl⟩ := (mem_cells sample).1 hvalue
    obtain ⟨rfl, rfl⟩ := cell_injective hi (List.getElem?_eq_some_iff.1 hslot').1 hindex
    rw [Option.some.inj (hentity.symm.trans hentity'), Option.some.inj (hslot.symm.trans hslot')]
  · rw [length_replicate]
    exact slotDoubleIndex_lt hchunk hfits (List.getElem?_eq_some_iff.1 hentity).1 hi

theorem entityPage_blobs {position j : ℕ} {entity : ε} {blob : ε → MetricsSample ν → Text}
    (hentity : chunk[position]? = some entity) (hblob : spec.blobs[j]? = some blob) :
    (entityPage spec sample chunk).blobs[position * spec.blobs.length + j]? = some (blob entity sample) := by
  have hj := (List.getElem?_eq_some_iff.1 hblob).1
  have hcell : (chunk.flatMap fun entity => spec.blobs.map fun blob => blob entity sample)[
      position * spec.blobs.length + j]? = some (blob entity sample) := by
    rw [getElem?_flatMap_cell (fun a => length_map _) chunk hentity hj, getElem?_map, hblob]
    rfl
  rw [entityPage]
  dsimp only
  rw [getElem?_append_left (List.getElem?_eq_some_iff.1 hcell).1, hcell]

end

end TurboPanel.Metrics
