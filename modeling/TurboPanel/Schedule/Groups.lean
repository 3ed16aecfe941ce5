import TurboPanel.Data.Traversal
import TurboPanel.Schedule.Planner

/-!
# What a plan is made of

The groups of `colocationGroups` are a partition of the services (`flatten_colocationGroups`), and
services that name each other are in one group (`groupOf_eq_of_same`). So every service is placed
once, on the hosts of its own group: `placeParams` are the parameters with which that happens, and
`plan_service` says that the slots of a service in a plan are the ones that `placeService` gives.
-/

namespace TurboPanel.Schedule

open Js UnionFind List

/-! ## Sets of lists under a key -/

section Buckets

variable {κ α : Type} [DecidableEq κ]

/-- All elements of the lists of a map. -/
def bucketed (m : Map κ (List α)) : List α := (m.entries.map Prod.snd).flatten

/-- Add an element to the list under a key. -/
def pushBucket (m : Map κ (List α)) (k : κ) (a : α) : Map κ (List α) :=
  m.set k ((m.get? k).getD [] ++ [a])

theorem bucketed_pushBucket (m : Map κ (List α)) (k : κ) (a : α) :
    (bucketed (pushBucket m k a)).Perm (bucketed m ++ [a]) := by
  obtain ⟨entries, hnodup⟩ := m
  simp only [bucketed, pushBucket, Map.set, Map.get?]
  clear hnodup
  induction entries with
  | nil => simp [setEntry]
  | cons e rest ih =>
    rw [setEntry, lookup_cons_if]
    by_cases he : e.1 = k
    · rw [if_pos he, if_pos he.symm]
      simp only [map_cons, flatten_cons, Option.getD_some, append_assoc]
      exact List.Perm.append_left _ perm_append_comm
    · rw [if_neg he, if_neg (Ne.symm he)]
      simp only [map_cons, flatten_cons, append_assoc]
      exact ih.append_left _

end Buckets

/-! ## The groups -/

theorem pushToGroup_eq (st : Map String String × Map String (List String)) (row : PlannedService) :
    pushToGroup st row = ((find st.1 row.serviceId).2,
      pushBucket st.2 (find st.1 row.serviceId).1 row.serviceId) := rfl

theorem flatten_foldl_pushToGroup (services : List PlannedService)
    (st : Map String String × Map String (List String)) :
    (bucketed (services.foldl pushToGroup st).2).Perm
      (bucketed st.2 ++ services.map (·.serviceId)) := by
  induction services generalizing st with
  | nil => simp
  | cons row services ih =>
    rw [foldl_cons, map_cons]
    refine (ih _).trans ?_
    rw [pushToGroup_eq]
    refine ((bucketed_pushBucket _ _ _).append_right _).trans ?_
    rw [append_assoc, singleton_append]

theorem flatten_colocationGroups (services : List PlannedService) :
    (colocationGroups services).flatten.Perm (services.map (·.serviceId)) := by
  have h := flatten_foldl_pushToGroup services (colocationParents services, Map.empty)
  rwa [show bucketed (Map.empty : Map String (List String)) = [] from rfl, nil_append] at h

/-- The group of a service. -/
def groupOf (services : List PlannedService) (serviceId : String) : List String :=
  ((colocationGroups services).find? (·.contains serviceId)).getD []

variable {services : List PlannedService}

theorem mem_groupOf {row : PlannedService} (h : row ∈ services) :
    groupOf services row.serviceId ∈ colocationGroups services ∧
      row.serviceId ∈ groupOf services row.serviceId := by
  have hmem : row.serviceId ∈ (colocationGroups services).flatten :=
    (flatten_colocationGroups services).mem_iff.2 (mem_map.2 ⟨row, h, rfl⟩)
  obtain ⟨g, hg, hid⟩ := mem_flatten.1 hmem
  have hsome : ((colocationGroups services).find? (·.contains row.serviceId)).isSome := by
    rw [find?_isSome]
    exact ⟨g, hg, by simpa using hid⟩
  obtain ⟨g', hg'⟩ := Option.isSome_iff_exists.1 hsome
  rw [groupOf, hg', Option.getD_some]
  exact ⟨mem_of_find?_eq_some hg', by simpa using find?_some hg'⟩

theorem groupOf_eq (hids : (services.map (·.serviceId)).Nodup) {g : List String}
    (hg : g ∈ colocationGroups services) {row : PlannedService} (hrow : row ∈ services)
    (hid : row.serviceId ∈ g) : groupOf services row.serviceId = g := by
  have hnodup := (flatten_colocationGroups services).nodup_iff.2 hids
  obtain ⟨hg', hid'⟩ := mem_groupOf hrow
  by_contra hne
  have : Std.Symm (List.Disjoint (α := String)) := ⟨fun _ _ h => h.symm⟩
  exact (nodup_flatten.1 hnodup).2.forall hg' hg hne hid' hid

/-! ## Services that name each other -/

theorem forest_initial (services : List PlannedService) : Forest (parentOf
    (services.foldl (fun parent row => parent.set row.serviceId row.serviceId) Map.empty)) := by
  have hself : ∀ x, parentOf (services.foldl (fun parent row =>
      parent.set row.serviceId row.serviceId) Map.empty) x = x :=
    List.foldlRecOn (motive := fun parent : Map String String => ∀ x, parentOf parent x = x)
      services _ (fun x => rfl) fun parent h row _ x => by
        rw [parentOf_set]
        split
        · rename_i hx
          exact hx.symm
        · exact h x
  exact fun x => ⟨x, RootOf.of_isRoot (hself x)⟩

/-- What a step of the unions keeps: a forest, and the classes so far. -/
def Coarser (parent parent' : Map String String) : Prop :=
  Forest (parentOf parent) → Forest (parentOf parent') ∧
    ∀ x y, Same (parentOf parent) x y → Same (parentOf parent') x y

variable {slots : List DesiredSlotInput} {input : PlanEnvironmentInput}
  {st : Map String String × Map String (List String)} {group : List String} (row : PlannedService)
  (parent : Map String String)

theorem Coarser.refl : Coarser parent parent :=
  fun h => ⟨h, fun _ _ hxy => hxy⟩

theorem Coarser.trans {m₁ m₂ m₃ : Map String String} (h₁ : Coarser m₁ m₂) (h₂ : Coarser m₂ m₃) :
    Coarser m₁ m₃ := by
  intro h
  obtain ⟨hf, hs⟩ := h₁ h
  obtain ⟨hf', hs'⟩ := h₂ hf
  exact ⟨hf', fun x y hxy => hs' x y (hs x y hxy)⟩

theorem coarser_uniteWith (otherName : String) :
    Coarser parent (uniteWith services row parent otherName) := by
  intro h
  rw [uniteWith]
  split
  · exact ⟨h, fun _ _ hxy => hxy⟩
  · rename_i otherId _
    obtain ⟨hforest, hkeep, -⟩ := union_spec h row.serviceId otherId
    exact ⟨hforest, hkeep⟩

theorem coarser_foldl {α : Type} {f : Map String String → α → Map String String}
    (hf : ∀ m a, Coarser m (f m a)) (l : List α) (m : Map String String) :
    Coarser m (l.foldl f m) :=
  List.foldlRecOn (motive := fun m' => Coarser m m') l f (Coarser.refl m)
    fun m' h a _ => h.trans (hf m' a)

theorem coarser_uniteColocated (row : PlannedService) :
    Coarser parent (uniteColocated services parent row) :=
  coarser_foldl (coarser_uniteWith row) row.spec.colocateWith parent

theorem forest_colocationParents (services : List PlannedService) :
    Forest (parentOf (colocationParents services)) :=
  (coarser_foldl coarser_uniteColocated services _ (forest_initial services)).1

theorem same_foldl {α : Type} {f : Map String String → α → Map String String}
    (hf : ∀ m a, Coarser m (f m a)) {l : List α} {a : α} (ha : a ∈ l) {x y : String}
    (hjoin : ∀ m, Forest (parentOf m) → Same (parentOf (f m a)) x y) {m : Map String String}
    (hm : Forest (parentOf m)) : Same (parentOf (l.foldl f m)) x y := by
  obtain ⟨before, after, rfl⟩ := append_of_mem ha
  rw [foldl_append, foldl_cons]
  have hbefore := (coarser_foldl hf before m hm).1
  exact (coarser_foldl hf after _ (hf _ a hbefore).1).2 x y (hjoin _ hbefore)

theorem same_of_colocateWith {a b : PlannedService} (ha : a ∈ services)
    (hb : truthyString ((nameToId services).get? b.spec.composeServiceName) = some b.serviceId)
    (hname : b.spec.composeServiceName ∈ a.spec.colocateWith) :
    Same (parentOf (colocationParents services)) a.serviceId b.serviceId := by
  refine same_foldl coarser_uniteColocated ha (fun m hm => ?_) (forest_initial services)
  refine same_foldl (coarser_uniteWith a) hname (fun m hm => ?_) hm
  simp only [uniteWith, hb]
  exact (union_spec hm a.serviceId b.serviceId).2.2

/-! ## Filling the groups -/

/-- What holds between two rounds of the loop that fills the groups: `find` has kept the roots, and
the services so far are in the group of their root. -/
structure GroupInv (p : String → String) (done : List PlannedService)
    (st : Map String String × Map String (List String)) : Prop where
  roots : ∀ y s, RootOf p y s → RootOf (parentOf st.1) y s
  filled : ∀ row ∈ done, ∀ r, RootOf p row.serviceId r →
    ∃ group, st.2.get? r = some group ∧ row.serviceId ∈ group
  nonempty : ∀ r group, st.2.get? r = some group → group ≠ []

theorem GroupInv.push {p : String → String} (hp : Forest p) {done : List PlannedService} (inv : GroupInv p done st)
    (row : PlannedService) : GroupInv p (done ++ [row]) (pushToGroup st row) := by
  obtain ⟨root, hroot⟩ := hp row.serviceId
  obtain ⟨hfind, hkeep⟩ := find_spec (inv.roots _ _ hroot)
  rw [pushToGroup_eq, hfind]
  refine ⟨fun y s hy => hkeep y s (inv.roots y s hy), fun row' hrow' r hr => ?_, fun r g hg => ?_⟩
  · simp only [pushBucket, Map.get?_set]
    obtain hrow' | hrow' := mem_append.1 hrow'
    · obtain ⟨group, hgroup, hmem⟩ := inv.filled row' hrow' r hr
      by_cases hrr : r = root
      · exact ⟨_, if_pos hrr, by rw [← hrr, hgroup]; simp [hmem]⟩
      · exact ⟨group, by rw [if_neg hrr, hgroup], hmem⟩
    · obtain rfl := mem_singleton.1 hrow'
      exact ⟨_, if_pos (hr.unique hroot), by simp⟩
  · simp only [pushBucket, Map.get?_set] at hg
    split at hg
    · cases hg
      simp
    · exact inv.nonempty r g hg

theorem GroupInv.run {p : String → String} (hp : Forest p) {done : List PlannedService} (inv : GroupInv p done st)
    (rows : List PlannedService) : GroupInv p (done ++ rows) (rows.foldl pushToGroup st) := by
  induction rows generalizing done st with
  | nil => simpa using inv
  | cons row rows ih =>
    have h := ih (inv.push hp row)
    rwa [append_assoc, singleton_append] at h

theorem groupInv_colocationGroups (services : List PlannedService) :
    GroupInv (parentOf (colocationParents services)) services
      (services.foldl pushToGroup (colocationParents services, Map.empty)) := by
  have h : GroupInv (parentOf (colocationParents services)) []
      (colocationParents services, Map.empty) :=
    ⟨fun _ _ h => h, fun _ h => absurd h not_mem_nil, fun _ _ h => nomatch h⟩
  exact h.run (forest_colocationParents services) services

theorem ne_nil_of_mem_colocationGroups {group : List String} (h : group ∈ colocationGroups services) : group ≠ [] := by
  obtain ⟨⟨r, group⟩, hmem, rfl⟩ := mem_map.1 h
  exact (groupInv_colocationGroups services).nonempty r group (Map.get?_eq_some_iff.2 hmem)

theorem nodup_colocationGroups (hids : (services.map (·.serviceId)).Nodup) :
    (colocationGroups services).Nodup := by
  have hnodup := (flatten_colocationGroups services).nodup_iff.2 hids
  refine (nodup_flatten.1 hnodup).2.imp_of_mem fun {g g'} hg _ hdisj heq => ?_
  subst heq
  refine ne_nil_of_mem_colocationGroups hg ?_
  rw [eq_nil_iff_forall_not_mem]
  exact fun id hid => hdisj hid hid

theorem groupOf_eq_of_same (hids : (services.map (·.serviceId)).Nodup) {a b : PlannedService}
    (ha : a ∈ services) (hb : b ∈ services)
    (h : Same (parentOf (colocationParents services)) a.serviceId b.serviceId) :
    groupOf services a.serviceId = groupOf services b.serviceId := by
  obtain ⟨r, hra, hrb⟩ := h
  have inv := groupInv_colocationGroups services
  obtain ⟨group, hgroup, hamem⟩ := inv.filled a ha r hra
  obtain ⟨group', hgroup', hbmem⟩ := inv.filled b hb r hrb
  cases hgroup.symm.trans hgroup'
  have hmem : group ∈ colocationGroups services :=
    mem_map.2 ⟨(r, group), Map.get?_eq_some_iff.1 hgroup, rfl⟩
  rw [groupOf_eq hids hmem ha hamem, groupOf_eq hids hmem hb hbmem]

/-! ## The loop over the slots -/

variable {c : Collation} {p : PlaceParams}

theorem placeSlots_succ {n : ℕ} {st' : PlaceState} : placeSlots c p (n + 1) = .ok st' ↔
    ∃ st chosen, placeSlots c p n = .ok st ∧ chosenServer c p st n = some chosen ∧
      st' = st.place p n chosen := by
  rw [placeSlots, bind_eq_ok]
  refine exists_congr fun st => ?_
  rw [placeSlot]
  cases chosenServer c p st n with
  | none => simp
  | some chosen => simp [eq_comm]

theorem placeService_ok (h : placeService c p = .ok slots) :
    1 ≤ p.count ∧ ∃ st, placeSlots c p p.count.toNat = .ok st ∧ st.slots = slots := by
  rw [placeService] at h
  split at h
  · cases h
  rename_i hcount
  split at h
  · cases h
  refine ⟨by omega, ?_⟩
  have hdone : ∀ {x : Except ScheduleFailure PlaceState},
      (do return (← x).slots : Except ScheduleFailure (List DesiredSlotInput)) = .ok slots →
      ∃ st, x = .ok st ∧ st.slots = slots := by
    intro x hx
    obtain ⟨st, hst, hx⟩ := bind_eq_ok.1 hx
    exact ⟨st, hst, Except.ok.inj hx⟩
  split at h
  · exact hdone h
  · split at h
    · cases h
    · exact hdone h

theorem serviceId_of_mem_slots {n : ℕ} {st : PlaceState} (h : placeSlots c p n = .ok st) :
    ∀ t ∈ st.slots, t.serviceId = p.service.serviceId := by
  induction n generalizing st with
  | zero =>
    cases h
    exact fun t ht => absurd ht not_mem_nil
  | succ n ih =>
    obtain ⟨st, chosen, hst, -, rfl⟩ := placeSlots_succ.1 h
    intro t ht
    obtain ht | ht := mem_append.1 ht
    · exact ih hst t ht
    · rw [mem_singleton.1 ht]

/-! ## The slots of a service in a plan -/

/-- The parameters with which a service is placed: the hosts are those of its group. -/
def placeParams (input : PlanEnvironmentInput) (row : PlannedService) : PlaceParams :=
  groupParams (intersectGroupEligible
      (schedulingPool input.servers input.pinServerId input.defaultServerId)
      (groupServicesOf input.services (groupOf input.services row.serviceId)) input)
    (existingByServiceSlot input.existingTasks) input.defaultServerId row

@[simp] theorem groupParams_service (eligible : List FleetServer) (existing : Map Text String)
    (preferredId : Option String) (row : PlannedService) :
    (groupParams eligible existing preferredId row).service = row := rfl

section

variable (hids : (services.map (·.serviceId)).Nodup)
include hids

theorem get?_servicesById {id : String} {row : PlannedService} :
    (servicesById services).get? id = some row ↔ row ∈ services ∧ row.serviceId = id := by
  have hkeys : ((services.map fun row => (row.serviceId, row)).map Prod.fst).Nodup := by
    rwa [map_map]
  rw [servicesById, Map.get?_ofEntries hkeys, mem_map]
  constructor
  · rintro ⟨row', hrow', heq⟩
    cases heq
    exact ⟨hrow', rfl⟩
  · rintro ⟨hrow, rfl⟩
    exact ⟨row, hrow, rfl⟩

theorem mem_groupServicesOf {row : PlannedService} :
    row ∈ groupServicesOf services group ↔ row ∈ services ∧ row.serviceId ∈ group := by
  rw [groupServicesOf, mem_filterMap]
  constructor
  · rintro ⟨id, hid, hrow⟩
    obtain ⟨hmem, rfl⟩ := (get?_servicesById hids).1 hrow
    exact ⟨hmem, hid⟩
  · rintro ⟨hmem, hid⟩
    exact ⟨row.serviceId, hid, (get?_servicesById hids).2 ⟨hmem, rfl⟩⟩

theorem nodup_groupServicesOf (hgroup : group ∈ colocationGroups services) :
    (groupServicesOf services group).Nodup := by
  have hnodup := (flatten_colocationGroups services).nodup_iff.2 hids
  refine List.Nodup.filterMap ?_ ((nodup_flatten.1 hnodup).1 group hgroup)
  intro id id' row hrow hrow'
  rw [← ((get?_servicesById hids).1 hrow).2, ← ((get?_servicesById hids).1 hrow').2]

end

theorem placeColocationGroup_ok {pool : List FleetServer} {existing : Map Text String}
    (h : placeColocationGroup c pool existing input group = .ok slots) :
    ∃ parts, List.Forall₂ (fun row part => placeService c (groupParams
        (intersectGroupEligible pool (groupServicesOf input.services group) input) existing
        input.defaultServerId row) = .ok part) (groupServicesOf input.services group) parts ∧
      slots = parts.flatten := by
  rw [placeColocationGroup] at h
  split at h
  · cases h
  rename_i hne
  rw [placeGroupServices] at h
  split at h
  · cases h
  rw [if_pos (Nat.pos_of_ne_zero hne)] at h
  exact foldlM_append_eq_ok h

theorem plan_ok {plan : SchedulePlan} (h : planEnvironmentSchedule c input = .ok plan) (hne : input.services ≠ []) :
    ∃ parts, List.Forall₂ (fun group part => placeColocationGroup c
        (schedulingPool input.servers input.pinServerId input.defaultServerId)
        (existingByServiceSlot input.existingTasks) input group = .ok part)
      (colocationGroups input.services) parts ∧ plan.slots.Perm parts.flatten := by
  rw [planEnvironmentSchedule, if_neg (by simpa using hne)] at h
  split at h
  · cases h
  split at h
  · cases h
  obtain ⟨allTasks, hall, h⟩ := bind_eq_ok.1 h
  obtain ⟨parts, hparts, rfl⟩ := foldlM_append_eq_ok hall
  refine ⟨parts, hparts, ?_⟩
  simp only at h
  split at h
  · cases h
  · cases h
    exact perm_insertionSort _ _

/-- The slots are kept by service. -/
def ofService (serviceId : String) (t : DesiredSlotInput) : Bool := t.serviceId == serviceId

theorem filter_placeService (h : placeService c p = .ok slots) (serviceId : String) :
    slots.filter (ofService serviceId) = if p.service.serviceId = serviceId then slots else [] := by
  obtain ⟨-, st, hst, rfl⟩ := placeService_ok h
  have hown := serviceId_of_mem_slots hst
  split
  · rename_i heq
    exact filter_eq_self.2 fun t ht => beq_iff_eq.2 ((hown t ht).trans heq)
  · rename_i hne
    exact filter_eq_nil_iff.2 fun t ht hkeep =>
      hne ((hown t ht).symm.trans (beq_iff_eq.1 hkeep))

theorem plan_service (hids : (input.services.map (·.serviceId)).Nodup) {plan : SchedulePlan}
    (h : planEnvironmentSchedule c input = .ok plan) {row : PlannedService} (hrow : row ∈ input.services) :
    ∃ slots, placeService c (placeParams input row) = .ok slots ∧
      (plan.slots.filter (ofService row.serviceId)).Perm slots := by
  obtain ⟨parts, hparts, hperm⟩ := plan_ok h (ne_nil_of_mem hrow)
  obtain ⟨hgroup, hmem⟩ := mem_groupOf hrow
  obtain ⟨part, hpart, hflat⟩ := filter_flatten (ofService row.serviceId) hparts
    (nodup_colocationGroups hids) hgroup fun group hg hne part hpart => by
      obtain ⟨parts', hparts', rfl⟩ := placeColocationGroup_ok hpart
      refine filter_flatten_eq_nil _ hparts' fun row' hrow' part' hpart' => ?_
      rw [filter_placeService hpart', if_neg]
      intro heq
      obtain ⟨-, hid⟩ := (mem_groupServicesOf hids).1 hrow'
      exact hne (groupOf_eq hids hg hrow (heq ▸ hid)).symm
  obtain ⟨parts', hparts', rfl⟩ := placeColocationGroup_ok hpart
  obtain ⟨slots, hslots, hflat'⟩ := filter_flatten (ofService row.serviceId) hparts'
    (nodup_groupServicesOf hids hgroup) ((mem_groupServicesOf hids).2 ⟨hrow, hmem⟩)
    fun row' hrow' hne part' hpart' => by
      rw [filter_placeService hpart', if_neg]
      intro heq
      exact hne (inj_on_of_nodup_map hids ((mem_groupServicesOf hids).1 hrow').1 hrow heq)
  refine ⟨slots, hslots, (hperm.filter _).trans ?_⟩
  rw [hflat, hflat', filter_placeService hslots, groupParams_service, if_pos rfl]

end TurboPanel.Schedule
