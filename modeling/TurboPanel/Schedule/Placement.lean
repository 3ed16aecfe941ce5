import Mathlib.Algebra.Order.BigOperators.Group.Finset
import TurboPanel.Schedule.Eligible

/-!
# The loop over the slots never gets stuck

A slot is put on a server that has room, and the checks in front of the loop see to it that one is
left: of `n` slots on servers with less than `cap` times as many places, some server holds fewer
than `cap` (`exists_count_lt`). So a service is placed exactly when the checks pass
(`placeService_succeeds_iff`).
-/

namespace TurboPanel.Schedule

open Option Js List

/-! ## Counting -/

theorem exists_count_lt {α : Type*} [DecidableEq α] {ids l : List α} (hnodup : ids.Nodup) (hl : ∀ a ∈ l, a ∈ ids)
    {cap : ℕ} (h : l.length < cap * ids.length) : ∃ id ∈ ids, l.count id < cap := by
  by_contra hfull
  simp only [not_exists, not_and, not_lt] at hfull
  have hsum : ∑ id ∈ ids.toFinset, l.count id = l.length :=
    by simpa using Multiset.sum_count_eq_card (m := (l : Multiset α)) fun a ha => mem_toFinset.2 (hl a ha)
  have hle := Finset.card_nsmul_le_sum ids.toFinset (fun id => l.count id) cap
    fun id hid => hfull id (mem_toFinset.1 hid)
  rw [hsum, toFinset_card_of_nodup hnodup, smul_eq_mul, mul_comm] at hle
  omega

/-! ## The state of the loop -/

variable {c : Collation} {p : PlaceParams}

/-- The servers of the slots so far. -/
def PlaceState.hosts (st : PlaceState) : List String := st.slots.map (·.serverId)

theorem hosts_place (st : PlaceState) (slot : ℕ) (chosen : FleetServer) :
    (st.place p slot chosen).hosts = st.hosts ++ [chosen.id] := map_append

variable {st : PlaceState}

theorem mem_eligible_of_chosenServer {slot : ℕ} {chosen : FleetServer}
    (h : chosenServer c p st slot = some chosen) :
    chosen ∈ p.eligible ∧ underCap st.perNodeCounts p.service.spec.maxReplicasPerNode chosen = true := by
  rw [chosenServer, or_eq_some_iff] at h
  obtain h | ⟨-, h⟩ := h
  · obtain ⟨hsticky, hfits⟩ := filter_eq_some_iff.1 h
    obtain ⟨_, -, hfind⟩ := bind_eq_some_iff.1 hsticky
    exact ⟨mem_of_find?_eq_some hfind, hfits⟩
  · have hmem : chosen ∈ candidates (p.pickParams st) :=
      (perm_insertionSort _ _).mem_iff.1 (mem_of_head? h)
    obtain ⟨hroom, hfits⟩ := mem_filter.1 hmem
    refine ⟨?_, hfits⟩
    rw [withPortRoom] at hroom
    split at hroom
    · exact mem_of_mem_filter hroom
    · exact hroom

/-- What the loop has before slot `n`. -/
structure PlaceInv (p : PlaceParams) (n : ℕ) (st : PlaceState) : Prop where
  slots : st.slots.map (·.slot) = (List.range n).map (fun slot : ℕ => (slot : ℤ))
  hosts : ∀ id ∈ st.hosts, id ∈ p.eligible.map (·.id)
  counts : ∀ id, (st.perNodeCounts.get? id).getD 0 = st.hosts.count id
  occupied : ∀ id, id ∈ st.occupied ↔ id ∈ st.hosts
  cap : ∀ cap ∈ p.service.spec.maxReplicasPerNode, ∀ id ∈ st.hosts, (st.hosts.count id : ℤ) ≤ cap

theorem PlaceInv.initial (p : PlaceParams) : PlaceInv p 0 PlaceState.initial where
  slots := rfl
  hosts _ hid := absurd hid not_mem_nil
  counts _ := rfl
  occupied _ := Iff.rfl
  cap _ _ _ hid := absurd hid not_mem_nil

/-- **A step.** One more slot. -/
theorem PlaceInv.step {n : ℕ} {st : PlaceState} (h : PlaceInv p n st) {chosen : FleetServer}
    (hchosen : chosenServer c p st n = some chosen) : PlaceInv p (n + 1) (st.place p n chosen) := by
  obtain ⟨heligible, hfits⟩ := mem_eligible_of_chosenServer hchosen
  refine ⟨?_, ?_, fun id => ?_, fun id => ?_, fun cap hcap id hid => ?_⟩
  · rw [PlaceState.place, map_append, h.slots, range_succ, map_append]
    rfl
  · rw [hosts_place]
    intro id hid
    obtain hid | hid := mem_append.1 hid
    · exact h.hosts id hid
    · rw [mem_singleton.1 hid]
      exact mem_map_of_mem heligible
  · rw [hosts_place, count_append, count_singleton]
    change ((st.perNodeCounts.set chosen.id _).get? id).getD 0 = _
    rw [Map.get?_set, h.counts]
    split
    · rename_i heq
      subst heq
      simp
    · rename_i hne
      have hother : (chosen.id == id) = false := beq_eq_false_iff_ne.2 fun heq => hne heq.symm
      rw [h.counts, hother, if_neg Bool.false_ne_true, add_zero]
  · rw [hosts_place, mem_append, mem_singleton, ← h.occupied]
    exact mem_setAdd
  · rw [hosts_place, count_append, count_singleton]
    have hbelow : (st.hosts.count chosen.id : ℤ) < cap := by
      unfold underCap at hfits
      rw [mem_def.1 hcap] at hfits
      simpa [h.counts] using hfits
    split
    · rename_i heq
      obtain rfl : chosen.id = id := by simpa using heq
      push_cast
      omega
    · rw [hosts_place, mem_append, mem_singleton] at hid
      rename_i hne
      obtain hid | rfl := hid
      · simpa using h.cap cap hcap id hid
      · simp at hne

variable {n : ℕ}

theorem placeInv (h : placeSlots c p n = .ok st) : PlaceInv p n st := by
  induction n generalizing st with
  | zero =>
    cases h
    exact PlaceInv.initial p
  | succ n ih =>
    obtain ⟨st, chosen, hst, hchosen, rfl⟩ := placeSlots_succ.1 h
    exact (ih hst).step hchosen

theorem PlaceInv.length_hosts (h : PlaceInv p n st) : st.hosts.length = n := by
  have hlen := congrArg List.length h.slots
  rw [length_map, length_map, length_range] at hlen
  rw [PlaceState.hosts, length_map, hlen]

/-! ## Progress -/

/-- What is checked before the loop. -/
structure Placeable (p : PlaceParams) : Prop where
  eligible : p.eligible ≠ []
  count : 1 ≤ p.count
  ports : p.requireEmptyHost = true → p.count ≤ p.eligible.length
  cap : ∀ cap ∈ p.service.spec.maxReplicasPerNode, p.count ≤ cap * p.eligible.length

theorem Placeable.cap_pos (h : Placeable p) {cap : ℤ} (hcap : cap ∈ p.service.spec.maxReplicasPerNode) : 1 ≤ cap := by
  have hle := h.cap cap hcap
  have hcount := h.count
  by_contra hlt
  have hneg : cap * (p.eligible.length : ℤ) ≤ 0 := mul_nonpos_of_nonpos_of_nonneg (by omega) (by omega)
  omega

theorem exists_candidate (hnodup : (p.eligible.map (·.id)).Nodup) (h : Placeable p) (hn : (n : ℤ) < p.count)
    (hinv : PlaceInv p n st) : candidates (p.pickParams st) ≠ [] := by
  have hlen := hinv.length_hosts
  have hfits : ∀ {k : ℕ} {server : FleetServer}, st.hosts.count server.id < k →
      (∀ cap ∈ p.service.spec.maxReplicasPerNode, (k : ℤ) ≤ cap) →
      underCap st.perNodeCounts p.service.spec.maxReplicasPerNode server = true := by
    intro k server hlt hcap
    unfold underCap
    cases hspec : p.service.spec.maxReplicasPerNode with
    | none => rfl
    | some cap =>
      have hle := hcap cap hspec
      simp only [hinv.counts, decide_eq_true_eq]
      omega
  obtain ⟨server, heligible, hroom, hunder⟩ : ∃ server ∈ p.eligible,
      (p.requireEmptyHost = true → server.id ∉ st.occupied) ∧
      underCap st.perNodeCounts p.service.spec.maxReplicasPerNode server = true := by
    by_cases hempty : p.requireEmptyHost = true
    · -- a server that no slot is on: it is free, and below any cap
      have hports := h.ports hempty
      have hfew : st.hosts.length < 1 * (p.eligible.map (·.id)).length := by
        rw [hlen, length_map]
        omega
      obtain ⟨id, hid, hlt⟩ := exists_count_lt hnodup hinv.hosts hfew
      obtain ⟨server, heligible, rfl⟩ := mem_map.1 hid
      refine ⟨server, heligible, fun _ hocc => ?_, hfits hlt fun cap hcap => by exact_mod_cast h.cap_pos hcap⟩
      have hpos := count_pos_iff.2 ((hinv.occupied server.id).1 hocc)
      omega
    · cases hspec : p.service.spec.maxReplicasPerNode with
      | none =>
        obtain ⟨server, heligible⟩ := exists_mem_of_ne_nil _ h.eligible
        exact ⟨server, heligible, fun hport => absurd hport hempty, rfl⟩
      | some cap =>
        -- the servers together have room for more than the slots so far
        have hcap := h.cap cap hspec
        have hpos := h.cap_pos hspec
        have hroom : n < cap.toNat * (p.eligible.map (·.id)).length := by
          rw [length_map]
          zify
          rw [Int.toNat_of_nonneg (by omega)]
          omega
        obtain ⟨id, hid, hlt⟩ := exists_count_lt hnodup hinv.hosts (by rwa [hlen])
        obtain ⟨server, heligible, rfl⟩ := mem_map.1 hid
        refine ⟨server, heligible, fun hport => absurd hport hempty, ?_⟩
        rw [← hspec]
        refine hfits hlt fun cap' hcap' => ?_
        obtain rfl : cap = cap' := Option.some.inj (hspec.symm.trans hcap')
        omega
  refine ne_nil_of_mem (a := server) (mem_filter.2 ⟨?_, hunder⟩)
  change server ∈ withPortRoom p.eligible st.occupied p.requireEmptyHost
  rw [withPortRoom]
  split
  · rename_i hempty
    exact mem_filter.2 ⟨heligible, by simpa using hroom hempty⟩
  · exact heligible

theorem pickServer_isSome {params : PickParams} (h : candidates params ≠ []) : (pickServer c params).isSome = true := by
  rw [pickServer, isSome_head?]
  intro hnil
  have hlen := (perm_insertionSort (fun a b => compareCandidates c params a b ≠ .gt) (candidates params)).length_eq
  rw [hnil] at hlen
  exact h (length_eq_zero_iff.1 hlen.symm)

/-- **The loop is never stuck**: every slot of a service that passed the checks has a server. -/
theorem placeSlots_succeeds (hnodup : (p.eligible.map (·.id)).Nodup) (h : Placeable p)
    (hn : (n : ℤ) ≤ p.count) : ∃ st, placeSlots c p n = .ok st := by
  induction n with
  | zero => exact ⟨_, rfl⟩
  | succ n ih =>
    obtain ⟨st, hst⟩ := ih (by omega)
    have hpick := pickServer_isSome (c := c) (exists_candidate hnodup h (by omega) (placeInv hst))
    obtain ⟨chosen, hchosen⟩ : ∃ chosen, chosenServer c p st n = some chosen := by
      rw [chosenServer]
      cases stickyFitting p st n with
      | some server => exact ⟨server, rfl⟩
      | none => exact isSome_iff_exists.1 hpick
    exact ⟨_, placeSlots_succ.2 ⟨st, chosen, hst, hchosen, rfl⟩⟩

theorem placeService_eq_ok_iff {slots : List DesiredSlotInput} : placeService c p = .ok slots ↔
    1 ≤ p.count ∧ (p.requireEmptyHost = true → p.count ≤ p.eligible.length) ∧
      (∀ cap ∈ p.service.spec.maxReplicasPerNode, p.count ≤ cap * p.eligible.length) ∧
      ∃ st, placeSlots c p p.count.toNat = .ok st ∧ st.slots = slots := by
  have hdone : ∀ x : Except ScheduleFailure PlaceState,
      (do return (← x).slots : Except ScheduleFailure (List DesiredSlotInput)) = .ok slots ↔
        ∃ st, x = .ok st ∧ st.slots = slots := by
    intro x
    rw [bind_eq_ok]
    exact exists_congr fun st => and_congr_right fun _ => ⟨Except.ok.inj, congrArg Except.ok⟩
  unfold placeService
  by_cases hcount : p.count < 1
  · simp only [hcount, if_true, fail, reduceCtorEq, false_iff]
    omega
  by_cases hports : p.requireEmptyHost = true ∧ (p.eligible.length : ℤ) < p.count
  · simp only [hcount, if_false, hports.1, hports.2, gt_iff_lt, decide_true, Bool.and_self, if_true, fail, reduceCtorEq,
      false_iff]
    rintro ⟨-, hle, -⟩
    have := hle trivial
    omega
  rw [not_and_or] at hports
  have hpass : (p.requireEmptyHost && decide (p.count > p.eligible.length)) = false := by
    rw [Bool.and_eq_false_iff, decide_eq_false_iff_not]
    exact hports.imp Bool.eq_false_iff.2 fun h => h
  have hports' : p.requireEmptyHost = true → p.count ≤ p.eligible.length :=
    fun hempty => not_lt.1 (hports.resolve_left fun h => h hempty)
  simp only [hcount, if_false, hpass, Bool.false_eq_true]
  have hone : 1 ≤ p.count := not_lt.1 hcount
  cases hspec : p.service.spec.maxReplicasPerNode with
  | none =>
    rw [hdone]
    exact ⟨fun h => ⟨hone, hports', by simp, h⟩, fun h => h.2.2.2⟩
  | some cap =>
    by_cases hcap : p.count > cap * p.eligible.length
    · simp only [hcap, if_true, fail, reduceCtorEq, false_iff]
      rintro ⟨-, -, hle, -⟩
      have := hle cap rfl
      omega
    · simp only [hcap, if_false, hdone]
      exact ⟨fun h => ⟨hone, hports', by simpa using hcap, h⟩, fun h => h.2.2.2⟩

theorem placeService_succeeds_iff (hnodup : (p.eligible.map (·.id)).Nodup) :
    (∃ slots, placeService c p = .ok slots) ↔ Placeable p := by
  constructor
  · rintro ⟨slots, h⟩
    obtain ⟨hcount, hports, hcap, st, hst, -⟩ := placeService_eq_ok_iff.1 h
    refine ⟨?_, hcount, hports, hcap⟩
    obtain ⟨n, hn⟩ : ∃ n, p.count.toNat = n + 1 := ⟨p.count.toNat - 1, by omega⟩
    rw [hn] at hst
    obtain ⟨st, chosen, -, hchosen, -⟩ := placeSlots_succ.1 hst
    exact ne_nil_of_mem (mem_eligible_of_chosenServer hchosen).1
  · intro h
    obtain ⟨st, hst⟩ := placeSlots_succeeds (c := c) (n := p.count.toNat) hnodup h (by have := h.count; omega)
    exact ⟨st.slots, placeService_eq_ok_iff.2 ⟨h.count, h.ports, h.cap, st, hst, rfl⟩⟩

/-! ## Placement of an environment -/

section

variable {input : PlanEnvironmentInput}

theorem placeGroupServices_eq {groupServices : List PlannedService} {eligible : List FleetServer} (hne : eligible ≠ [])
    (existing : Map Text String) (preferredId : Option String) :
    placeGroupServices c groupServices eligible existing preferredId = groupServices.foldlM (fun slots row => do
      return slots ++ (← placeService c (groupParams eligible existing preferredId row))) [] := by
  rw [placeGroupServices]
  split
  · rename_i hnone
    rw [or_eq_none_iff, head?_eq_none_iff] at hnone
    exact absurd hnone.2 hne
  · simp only [length_pos_iff.2 hne, if_true]

section

variable (hids : (input.services.map (·.serviceId)).Nodup)
  (hservers : (input.servers.map (·.id)).Nodup)
include hids hservers

theorem placeColocationGroup_succeeds
    (h : ∀ row ∈ input.services, Placeable (placeParams input row))
    {group : List String} (hgroup : group ∈ colocationGroups input.services) :
    ∃ slots, placeColocationGroup c (schedulingPool input.servers input.pinServerId input.defaultServerId)
      (existingByServiceSlot input.existingTasks) input group = .ok slots := by
  -- all services of the group have its hosts
  have hparams : ∀ row ∈ groupServicesOf input.services group, Placeable (placeParams input row) ∧
      placeParams input row = groupParams (intersectGroupEligible (schedulingPool input.servers input.pinServerId
        input.defaultServerId) (groupServicesOf input.services group) input)
        (existingByServiceSlot input.existingTasks) input.defaultServerId row := by
    intro row hrow
    obtain ⟨hservice, hid⟩ := (mem_groupServicesOf hids).1 hrow
    refine ⟨h row hservice, ?_⟩
    rw [placeParams, groupOf_eq hids hgroup hservice hid]
  obtain ⟨id, hid⟩ := exists_mem_of_ne_nil _ (ne_nil_of_mem_colocationGroups hgroup)
  obtain ⟨row, hservice, rfl⟩ :=
    mem_map.1 ((flatten_colocationGroups input.services).mem_iff.1 (mem_flatten.2 ⟨group, hgroup, hid⟩))
  obtain ⟨hplaceable, heq⟩ := hparams row ((mem_groupServicesOf hids).2 ⟨hservice, hid⟩)
  have hne := hplaceable.eligible
  rw [heq] at hne
  change intersectGroupEligible _ _ input ≠ [] at hne
  rw [placeColocationGroup, if_neg (fun hzero => hne (length_eq_zero_iff.1 hzero)), placeGroupServices_eq hne]
  refine exists_foldlM_append (fun row hrow => ?_) []
  obtain ⟨hplaceable, heq⟩ := hparams row hrow
  rw [← heq]
  exact (placeService_succeeds_iff (nodup_eligible hservers row)).2 hplaceable

/-- **The services of an environment are all placed** exactly when each of them passes the checks.
-/
theorem placeAllGroups_succeeds_iff : (∃ tasks, placeAllGroups c input = .ok tasks) ↔
      ∀ row ∈ input.services, Placeable (placeParams input row) := by
  constructor
  · rintro ⟨tasks, h⟩ row hrow
    obtain ⟨parts, hparts, -⟩ := foldlM_append_eq_ok h
    obtain ⟨hgroup, hid⟩ := mem_groupOf hrow
    obtain ⟨part, -, hpart⟩ := exists_right_of_mem hparts hgroup
    obtain ⟨parts', hparts', -⟩ := placeColocationGroup_ok hpart
    obtain ⟨slots, -, hslots⟩ := exists_right_of_mem hparts' ((mem_groupServicesOf hids).2 ⟨hrow, hid⟩)
    exact (placeService_succeeds_iff (nodup_eligible hservers row)).1 ⟨slots, hslots⟩
  · intro h
    exact exists_foldlM_append (fun group hgroup => placeColocationGroup_succeeds hids hservers h hgroup) []

end

/-- The servers of the slots, in the order of a plan. -/
def serverIdsOf (c : Collation) (tasks : List DesiredSlotInput) : List String :=
  sortKeys c ((tasks.map (·.serverId)).foldl setAdd [])

theorem planEnvironmentSchedule_eq (hne : input.services ≠ []) (hpin : missingPinnedServer input = false)
    {tasks : List DesiredSlotInput} (h : placeAllGroups c input = .ok tasks)
    (hpool : schedulingPool input.servers input.pinServerId input.defaultServerId ≠ []) :
    planEnvironmentSchedule c input = match fabricRefusalForPlan c input tasks (serverIdsOf c tasks) with
      | some refusal => fail .turbofabricRequired refusal
      | none => .ok ⟨tasks.insertionSort (slotOrder c), serverIdsOf c tasks⟩ := by
  rw [planEnvironmentSchedule, if_neg (by simpa using hne), if_neg (by simpa using hpool), hpin,
    if_neg Bool.false_ne_true, h]
  rfl

end

/-! ## Placement in a plan -/

/-- What a plan does with a service: a group without a host is refused, and on the hosts of its
group the service is placed. -/
def placementOf (c : Collation) (input : PlanEnvironmentInput) (row : PlannedService) :
    Except ScheduleFailure (List DesiredSlotInput) :=
  if (placeParams input row).eligible.length = 0 then
    .error (emptyGroupError (groupServicesOf input.services (groupOf input.services row.serviceId)))
  else placeService c (placeParams input row)

/-- The slots of a service as they should be: one for each number below the count, each on a server
that every service of the group may use, and no more on one server than the cap says. -/
structure WellPlaced (input : PlanEnvironmentInput) (row : PlannedService) (slots : List DesiredSlotInput) : Prop where
  numbers : slots.map (·.slot) = (List.range (placeParams input row).count.toNat).map (fun slot : ℕ => (slot : ℤ))
  service : ∀ t ∈ slots, t.serviceId = row.serviceId
  hosts : ∀ t ∈ slots, ∃ server, EligibleFor input row server ∧ server.id = t.serverId
  cap : ∀ cap ∈ row.spec.maxReplicasPerNode, ∀ id, ((slots.map (·.serverId)).count id : ℤ) ≤ cap

/-- A slot of the loop finds no server. -/
def SlotFails (c : Collation) (input : PlanEnvironmentInput) (row : PlannedService) : Prop :=
  ∃ (slot : ℕ) (st : PlaceState), (slot : ℤ) < (placeParams input row).count ∧
    placeSlots c (placeParams input row) slot = .ok st ∧
    placeSlot c (placeParams input row) st slot = .error (unplacedSlotError (placeParams input row) st slot)

variable {input : PlanEnvironmentInput} {row : PlannedService}

theorem schedulingPool_ne_nil (h : Placeable (placeParams input row)) :
    schedulingPool input.servers input.pinServerId input.defaultServerId ≠ [] := by
  obtain ⟨server, hserver⟩ := exists_mem_of_ne_nil _ h.eligible
  exact ne_nil_of_mem ((sublist_intersectGroupEligible _ _ _).subset hserver)

section

variable (hservers : (input.servers.map (·.id)).Nodup)
  (hids : (input.services.map (·.serviceId)).Nodup)
include hservers hids

/-- What is left to refuse a plan once the services are placed is a network that cannot span the
servers. -/
theorem plan_of_placeable (hrow : row ∈ input.services)
    (hpin : missingPinnedServer input = false) (h : ∀ member ∈ input.services, Placeable (placeParams input member)) :
    ∃ tasks, placeAllGroups c input = .ok tasks ∧ planEnvironmentSchedule c input =
      match fabricRefusalForPlan c input tasks (serverIdsOf c tasks) with
      | some refusal => fail .turbofabricRequired refusal
      | none => .ok ⟨tasks.insertionSort (slotOrder c), serverIdsOf c tasks⟩ := by
  obtain ⟨tasks, htasks⟩ := (placeAllGroups_succeeds_iff (c := c) hids hservers).2 h
  exact ⟨tasks, htasks,
    planEnvironmentSchedule_eq (ne_nil_of_mem hrow) hpin htasks (schedulingPool_ne_nil (h row hrow))⟩

theorem plan_succeeds_iff (hne : input.services ≠ []) :
    (∃ plan, planEnvironmentSchedule c input = .ok plan) ↔ missingPinnedServer input = false ∧
      (∀ member ∈ input.services, Placeable (placeParams input member)) ∧
      ∀ tasks, placeAllGroups c input = .ok tasks → fabricRefusalForPlan c input tasks
          (serverIdsOf c tasks) = none := by
  obtain ⟨row, hrow⟩ := exists_mem_of_ne_nil _ hne
  constructor
  · rintro ⟨plan, hplan⟩
    have hpin : missingPinnedServer input = false := by
      by_contra hpin
      rw [planEnvironmentSchedule, if_neg (by simpa using hne), if_pos (eq_true_of_ne_false hpin)] at hplan
      split at hplan <;> cases hplan
    have hplaced : ∀ member ∈ input.services, Placeable (placeParams input member) := fun member hmember => by
      obtain ⟨slots, hslots, -⟩ := plan_service hids hplan hmember
      exact (placeService_succeeds_iff (nodup_eligible hservers member)).1 ⟨slots, hslots⟩
    refine ⟨hpin, hplaced, fun tasks htasks => ?_⟩
    rw [planEnvironmentSchedule_eq hne hpin htasks (schedulingPool_ne_nil (hplaced row hrow))] at hplan
    cases hrefusal : fabricRefusalForPlan c input tasks (serverIdsOf c tasks) with
    | none => rfl
    | some refusal =>
      rw [hrefusal] at hplan
      cases hplan
  · rintro ⟨hpin, hplaced, hfabric⟩
    obtain ⟨tasks, htasks, hplan⟩ := plan_of_placeable (c := c) hservers hids hrow hpin hplaced
    rw [hfabric tasks htasks] at hplan
    exact ⟨_, hplan⟩

theorem error_of_placeable (hrow : row ∈ input.services)
    {failure : ScheduleFailure} (hfailure : planEnvironmentSchedule c input = .error failure) :
    missingPinnedServer input = true ∨ (∃ member ∈ input.services, ¬ Placeable (placeParams input member)) ∨
      failure.error = .turbofabricRequired := by
  by_cases hpin : missingPinnedServer input = true
  · exact .inl hpin
  by_cases hplaced : ∀ member ∈ input.services, Placeable (placeParams input member)
  · obtain ⟨tasks, -, hplan⟩ :=
      plan_of_placeable (c := c) hservers hids hrow (Bool.eq_false_iff.2 hpin) hplaced
    rw [hfailure] at hplan
    split at hplan
    · exact .inr (.inr (by rw [Except.error.inj hplan]))
    · cases hplan
  · simp only [not_forall] at hplaced
    obtain ⟨member, hmember, hnot⟩ := hplaced
    exact .inr (.inl ⟨member, hmember, hnot⟩)

end

/-- **The greedy placement is sound and complete.** An environment gets a plan exactly when its pin
is a server it has, each of its services passes the checks and the networks can span the servers; no
other service is at fault when there is none. The slots of a service in a plan are those of its
placement, which succeeds exactly when the service passes the checks, is then as it should be, and
never fails at a slot. -/
theorem placement_sound_and_complete {input : PlanEnvironmentInput} (hservers : (input.servers.map (·.id)).Nodup)
    (hids : (input.services.map (·.serviceId)).Nodup) {row : PlannedService} (hrow : row ∈ input.services) :
    ((∃ plan, planEnvironmentSchedule c input = .ok plan) ↔ missingPinnedServer input = false ∧
      (∀ member ∈ input.services, Placeable (placeParams input member)) ∧
      ∀ tasks, placeAllGroups c input = .ok tasks →
        fabricRefusalForPlan c input tasks (serverIdsOf c tasks) = none) ∧
    (∀ failure, planEnvironmentSchedule c input = .error failure → missingPinnedServer input = true ∨
      (∃ member ∈ input.services, ¬ Placeable (placeParams input member)) ∨
      failure.error = .turbofabricRequired) ∧
    ((∃ tasks, placeAllGroups c input = .ok tasks) ↔
      ∀ member ∈ input.services, Placeable (placeParams input member)) ∧
    ((∃ slots, placementOf c input row = .ok slots) ↔ Placeable (placeParams input row)) ∧
    (∀ slots, placementOf c input row = .ok slots → WellPlaced input row slots) ∧
    (Placeable (placeParams input row) → ¬ SlotFails c input row) ∧
    ∀ plan, planEnvironmentSchedule c input = .ok plan →
      ∃ slots, placementOf c input row = .ok slots ∧ (plan.slots.filter (ofService row.serviceId)).Perm slots := by
  have hnodup := nodup_eligible hservers row
  have hplacement : ∀ slots, placementOf c input row = .ok slots ↔ placeService c
      (placeParams input row) = .ok slots := by
    intro slots
    rw [placementOf]
    split
    · rename_i hempty
      refine iff_of_false (fun h => by cases h) fun h => ?_
      exact ((placeService_succeeds_iff hnodup).1 ⟨slots, h⟩).eligible (length_eq_zero_iff.1 hempty)
    · rfl
  refine ⟨plan_succeeds_iff hservers hids (ne_nil_of_mem hrow), fun failure => error_of_placeable hservers hids hrow,
    placeAllGroups_succeeds_iff hids hservers, ?_, fun slots h => ?_, ?_, fun plan hplan => ?_⟩
  · simp only [hplacement, placeService_succeeds_iff hnodup]
  · rw [hplacement] at h
    have hplaceable := (placeService_succeeds_iff hnodup).1 ⟨slots, h⟩
    obtain ⟨-, -, -, st, hst, rfl⟩ := placeService_eq_ok_iff.1 h
    have hinv := placeInv hst
    refine ⟨hinv.slots, serviceId_of_mem_slots hst, fun t ht => ?_, fun cap hcap id => ?_⟩
    · obtain ⟨server, hserver, heq⟩ := mem_map.1 (hinv.hosts _ (mem_map_of_mem ht))
      exact ⟨server, (mem_eligible hservers hids).1 hserver, heq⟩
    · by_cases hid : id ∈ st.hosts
      · exact hinv.cap cap hcap id hid
      · rw [← PlaceState.hosts, count_eq_zero_of_not_mem hid]
        have := hplaceable.cap_pos hcap
        omega
  · rintro hplaceable ⟨slot, st, hslot, hst, herror⟩
    obtain ⟨st', hst'⟩ := placeSlots_succeeds (c := c) (n := slot + 1) hnodup hplaceable (by push_cast; omega)
    rw [placeSlots, hst] at hst'
    change placeSlot c _ st slot = _ at hst'
    rw [herror] at hst'
    cases hst'
  · obtain ⟨slots, hslots, hperm⟩ := plan_service hids hplan hrow
    exact ⟨slots, (hplacement slots).2 hslots, hperm⟩

/-- A service with three replicas and at most two on a server, which asks for the label `zone` when
one is given. -/
def cappedService (zone : Option String) : PlannedService where
  serviceId := "svc"
  spec :=
    { composeServiceName := "web"
      mode := .replicated
      replicas := 3
      constraints := zone.toList.map fun value => ⟨"zone", .eq, value⟩
      spreadKeys := []
      publishedHostPorts := []
      colocateWith := []
      maxReplicasPerNode := if zone.isSome then none else some 2 }

/-- Two connected servers without labels. -/
def cappedInput (zone : Option String) : PlanEnvironmentInput where
  pinServerId := none
  defaultServerId := none
  fabricEnabled := false
  servers := [⟨"s1", true, Map.empty, none, none⟩, ⟨"s2", true, Map.empty, none, none⟩]
  services := [cappedService zone]
  existingTasks := [⟨"svc", 1, "s1"⟩]
  storagePins := Map.empty
  document := none
  pairSharesTrustedLan := none
  pairHasDirectTunnel := none

theorem placement_capped : (∀ member ∈ (cappedInput none).services, Placeable (placeParams (cappedInput none) member)) ∧
    ∃ plan slots, planEnvironmentSchedule .codePoint (cappedInput none) = .ok plan ∧
      (plan.slots.filter (ofService "svc")).Perm slots ∧ WellPlaced (cappedInput none) (cappedService none) slots := by
  have h := @placement_sound_and_complete .codePoint (cappedInput none) (by decide) (by decide) (cappedService none)
    (mem_singleton.2 rfl)
  obtain ⟨plan, hplan⟩ : ∃ plan, planEnvironmentSchedule .codePoint (cappedInput none) = .ok plan := ⟨_, rfl⟩
  obtain ⟨slots, hslots, hperm⟩ := h.2.2.2.2.2.2 plan hplan
  exact ⟨(h.1.1 ⟨plan, hplan⟩).2.1, plan, slots, hplan, hperm, h.2.2.2.2.1 slots hslots⟩

/-- No host meets the constraints. -/
theorem placement_without_host : ¬ ∀ (c : Collation) (input : PlanEnvironmentInput) (row : PlannedService),
    (input.servers.map (·.id)).Nodup → (input.services.map (·.serviceId)).Nodup → row ∈ input.services →
    ((∃ slots, placementOf c input row = .ok slots) ↔ 1 ≤ (placeParams input row).count ∧
      (row.spec.publishedHostPorts ≠ [] → (placeParams input row).count ≤ (placeParams input row).eligible.length) ∧
      ∀ cap ∈ row.spec.maxReplicasPerNode,
        (placeParams input row).count ≤ cap * (placeParams input row).eligible.length) := by
  intro h
  have hplaced := (h .codePoint (cappedInput (some "east")) (cappedService (some "east")) (by decide) (by decide)
    (mem_singleton.2 rfl)).2 ⟨by decide, by decide, by simp [cappedService]⟩
  obtain ⟨slots, hslots⟩ := hplaced
  cases hslots

end TurboPanel.Schedule
