import TurboPanel.Schedule.Groups

/-!
# Eligible servers

The hosts of a group are computed by filters over a pool. Here is what they are (`mem_eligible`):
the servers that are connected, or are the pin or the default server, and that every service of the
group may use. The ids of the servers of an organization are distinct, so no host is counted twice
(`nodup_eligible`).
-/

namespace TurboPanel.Schedule

open Js List

/-! ## The pool -/

variable {servers : List FleetServer}

variable {row : FleetServer}

theorem findServer_eq_some (hnodup : (servers.map (·.id)).Nodup) {id : Option String} :
    findServer servers id = some row ↔ row ∈ servers ∧ truthyString id = some row.id := by
  rw [findServer, Option.bind_eq_some_iff]
  constructor
  · rintro ⟨id, hid, hfind⟩
    obtain rfl : row.id = id := by simpa using find?_some hfind
    exact ⟨mem_of_find?_eq_some hfind, hid⟩
  · rintro ⟨hrow, hid⟩
    refine ⟨row.id, hid, ?_⟩
    cases hfind : servers.find? (·.id == row.id) with
    | none => exact absurd (beq_self_eq_true row.id) (find?_eq_none.1 hfind row hrow)
    | some found =>
      have hsame : found.id = row.id := by simpa using find?_some hfind
      rw [inj_on_of_nodup_map hnodup (mem_of_find?_eq_some hfind) hrow hsame]

/-- One round of the loop over the pin and the default server. -/
def addExtra (servers online extras : List FleetServer) (id : Option String) : List FleetServer :=
  match findServer servers id with
  | none => extras
  | some row =>
    if online.any (·.id == row.id) || extras.any (·.id == row.id) then extras
    else extras ++ [row]

theorem schedulingPool_eq (servers : List FleetServer) (pinServerId defaultServerId : Option String) :
    schedulingPool servers pinServerId defaultServerId = connectedServers servers ++
      addExtra servers (connectedServers servers)
        (addExtra servers (connectedServers servers) [] pinServerId) defaultServerId := rfl

/-- What the loop has: servers of the organization, none of them twice. -/
structure ExtrasInv (servers online extras : List FleetServer) : Prop where
  known : ∀ row ∈ extras, row ∈ servers
  nodup : ((online ++ extras).map (·.id)).Nodup

theorem ExtrasInv.add {online extras : List FleetServer} (h : ExtrasInv servers online extras) (id : Option String) :
    ExtrasInv servers online (addExtra servers online extras id) := by
  rw [addExtra]
  cases hfind : findServer servers id with
  | none => exact h
  | some row =>
    have hmem : row ∈ servers := by
      obtain ⟨_, -, hfind⟩ := Option.bind_eq_some_iff.1 hfind
      exact mem_of_find?_eq_some hfind
    simp only
    split
    · exact h
    · rename_i hnew
      rw [Bool.or_eq_true, not_or] at hnew
      refine ⟨fun row' hrow' => ?_, ?_⟩
      · obtain hrow' | hrow' := mem_append.1 hrow'
        · exact h.known row' hrow'
        · rw [mem_singleton.1 hrow']
          exact hmem
      · rw [← append_assoc, map_append, map_singleton, ← concat_eq_append, nodup_concat]
        refine ⟨?_, h.nodup⟩
        simp only [any_eq_true, beq_iff_eq, not_exists, not_and] at hnew
        rw [map_append, mem_append, mem_map, mem_map]
        rintro (⟨other, hother, heq⟩ | ⟨other, hother, heq⟩)
        · exact hnew.1 other hother heq
        · exact hnew.2 other hother heq

section

variable (hnodup : (servers.map (·.id)).Nodup)
include hnodup

theorem mem_addExtra {online extras : List FleetServer}
    (honline : ∀ row ∈ online, row ∈ servers) (h : ExtrasInv servers online extras) {id : Option String}
    : row ∈ online ++ addExtra servers online extras id ↔
      row ∈ online ++ extras ∨ row ∈ servers ∧ truthyString id = some row.id := by
  rw [addExtra, ← findServer_eq_some hnodup]
  cases hfind : findServer servers id with
  | none => simp
  | some found =>
    obtain ⟨hfound, -⟩ := (findServer_eq_some hnodup).1 hfind
    simp only [Option.some.injEq]
    split
    · rename_i hseen
      refine ⟨.inl, fun hrow => hrow.elim (fun hold => hold) ?_⟩
      rintro rfl
      simp only [Bool.or_eq_true, any_eq_true, beq_iff_eq] at hseen
      rw [mem_append]
      refine hseen.imp (fun ⟨other, hother, heq⟩ => ?_) fun ⟨other, hother, heq⟩ => ?_
      · rwa [← inj_on_of_nodup_map hnodup (honline other hother) hfound heq]
      · rwa [← inj_on_of_nodup_map hnodup (h.known other hother) hfound heq]
    · rw [← append_assoc, mem_append, mem_singleton, eq_comm (a := row)]

theorem extrasInv_online : ExtrasInv servers (connectedServers servers) [] := by
  refine ⟨fun row hrow => absurd hrow not_mem_nil, ?_⟩
  rw [append_nil]
  exact (filter_sublist.map _).nodup hnodup

theorem mem_schedulingPool {pinServerId defaultServerId : Option String}
    : row ∈ schedulingPool servers pinServerId defaultServerId ↔
      row ∈ servers ∧ (row.connected = true ∨ truthyString pinServerId = some row.id ∨
        truthyString defaultServerId = some row.id) := by
  have honline : ∀ row ∈ connectedServers servers, row ∈ servers := fun row hrow => mem_of_mem_filter hrow
  have hinv := extrasInv_online hnodup
  rw [schedulingPool_eq, mem_addExtra hnodup honline (hinv.add pinServerId), mem_addExtra hnodup honline hinv,
    append_nil, connectedServers, mem_filter]
  tauto

theorem nodup_schedulingPool (pinServerId defaultServerId : Option String) :
    ((schedulingPool servers pinServerId defaultServerId).map (·.id)).Nodup :=
  (((extrasInv_online hnodup).add pinServerId).add defaultServerId).nodup

end

/-! ## The hosts of a group -/

theorem mem_pinnedTo {pin : Option String} {pool : List FleetServer} :
    row ∈ pinnedTo pin pool ↔ row ∈ pool ∧ ∀ id ∈ truthyString pin, row.id = id := by
  rw [pinnedTo]
  cases truthyString pin with
  | none => simp
  | some id => simp

/-- What a service of a group asks of a host. -/
structure Admits (input : PlanEnvironmentInput) (member : PlannedService) (server : FleetServer) : Prop where
  storagePin : ∀ id ∈ truthyString (input.storagePins.get? member.serviceId), server.id = id
  constraints : ∀ constraint ∈ member.spec.constraints, constraintMatches server.labels constraint = true

/-- A server that the group of a service may use. -/
structure EligibleFor (input : PlanEnvironmentInput) (row : PlannedService) (server : FleetServer) : Prop where
  known : server ∈ input.servers
  reachable : server.connected = true ∨ truthyString input.pinServerId = some server.id ∨
    truthyString input.defaultServerId = some server.id
  pinned : ∀ id ∈ truthyString input.pinServerId, server.id = id
  members : ∀ member ∈ input.services, member.serviceId ∈ groupOf input.services row.serviceId →
    Admits input member server

theorem mem_eligibleForService {input : PlanEnvironmentInput} {member : PlannedService} {server : FleetServer} :
    server ∈ eligibleForService input.servers member.spec input.pinServerId input.defaultServerId
        (input.storagePins.get? member.serviceId) ↔
      (server ∈ schedulingPool input.servers input.pinServerId input.defaultServerId ∧
        ∀ id ∈ truthyString input.pinServerId, server.id = id) ∧ Admits input member server := by
  rw [eligibleForService, mem_filter, mem_pinnedTo, mem_pinnedTo, serverMatchesConstraints, all_eq_true]
  exact ⟨fun h => ⟨h.1.1, h.1.2, h.2⟩, fun h => ⟨⟨h.1, h.2.1⟩, h.2.2⟩⟩

theorem mem_intersectGroupEligible {pool : List FleetServer} {groupServices : List PlannedService}
    {input : PlanEnvironmentInput} {server : FleetServer} :
    server ∈ intersectGroupEligible pool groupServices input ↔ server ∈ pinnedTo input.pinServerId pool ∧
      ∀ member ∈ groupServices, ∃ allowed ∈ eligibleForService input.servers member.spec input.pinServerId
        input.defaultServerId (input.storagePins.get? member.serviceId), allowed.id = server.id := by
  rw [intersectGroupEligible]
  induction groupServices using List.reverseRecOn with
  | nil => simp
  | append_singleton members member ih =>
    rw [foldl_append, foldl_cons, foldl_nil, mem_filter, ih, any_eq_true]
    simp only [beq_iff_eq, mem_append, mem_singleton, or_imp, forall_and, forall_eq]
    exact and_assoc

theorem sublist_intersectGroupEligible (pool : List FleetServer) (groupServices : List PlannedService)
    (input : PlanEnvironmentInput) : (intersectGroupEligible pool groupServices input).Sublist pool := by
  rw [intersectGroupEligible]
  refine List.foldlRecOn (motive := fun eligible : List FleetServer => eligible.Sublist pool) _ _ ?_
    fun eligible heligible member _ => filter_sublist.trans heligible
  rw [pinnedTo]
  split
  · exact List.Sublist.refl pool
  · exact filter_sublist

section

variable {input : PlanEnvironmentInput}

theorem nodup_eligible (hservers : (input.servers.map (·.id)).Nodup) (row : PlannedService) :
    ((placeParams input row).eligible.map (·.id)).Nodup :=
  ((sublist_intersectGroupEligible _ _ _).map _).nodup (nodup_schedulingPool hservers _ _)

/-- **The hosts of a service** are the servers that its group may use. -/
theorem mem_eligible (hservers : (input.servers.map (·.id)).Nodup)
    (hids : (input.services.map (·.serviceId)).Nodup) {row : PlannedService} {server : FleetServer} :
    server ∈ (placeParams input row).eligible ↔ EligibleFor input row server := by
  change server ∈ intersectGroupEligible _ _ input ↔ _
  rw [mem_intersectGroupEligible, mem_pinnedTo, mem_schedulingPool hservers]
  constructor
  · rintro ⟨⟨⟨hknown, hreachable⟩, hpinned⟩, hmembers⟩
    refine ⟨hknown, hreachable, hpinned, fun member hmember hgroup => ?_⟩
    obtain ⟨allowed, hallowed, heq⟩ := hmembers member ((mem_groupServicesOf hids).2 ⟨hmember, hgroup⟩)
    obtain ⟨⟨hpool, -⟩, hadmits⟩ := mem_eligibleForService.1 hallowed
    rwa [← inj_on_of_nodup_map hservers ((mem_schedulingPool hservers).1 hpool).1 hknown heq]
  · intro h
    refine ⟨⟨⟨h.known, h.reachable⟩, h.pinned⟩, fun member hmember => ⟨server, ?_, rfl⟩⟩
    obtain ⟨hservice, hgroup⟩ := (mem_groupServicesOf hids).1 hmember
    exact mem_eligibleForService.2 ⟨⟨(mem_schedulingPool hservers).2 ⟨h.known, h.reachable⟩, h.pinned⟩,
      h.members member hservice hgroup⟩

end

end TurboPanel.Schedule
