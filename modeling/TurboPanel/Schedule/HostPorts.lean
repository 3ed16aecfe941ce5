import TurboPanel.Schedule.Groups

/-!
# Published host ports

A host port is held by one replica of a service on each host. `placeService` looks for a host that
is not occupied when it picks a server for a slot, but a slot goes back to the server that held it
at the last deploy without that check. So the replicas of a service that publishes a port are on
different servers exactly when no slot goes back to a server that an earlier slot has taken
(`ReusesFreeHosts`).
-/

namespace TurboPanel.Schedule

open Js List

variable {c : Collation} {p : PlaceParams}

variable {n : ℕ} {st : PlaceState}

theorem mem_occupied (h : placeSlots c p n = .ok st) {id : String} :
    id ∈ st.occupied ↔ id ∈ st.slots.map (·.serverId) := by
  induction n generalizing st with
  | zero =>
    cases h
    rfl
  | succ n ih =>
    obtain ⟨st, chosen, hst, -, rfl⟩ := placeSlots_succ.1 h
    simp only [PlaceState.place, mem_setAdd, ih hst, map_append, mem_append,
      map_cons, map_nil, mem_singleton]

theorem not_mem_occupied_of_pickServer {params : PickParams} (hempty : params.requireEmptyHost = true)
    {server : FleetServer} (h : pickServer c params = some server) :
    server.id ∉ params.occupied := by
  have hmem : server ∈ candidates params :=
    (perm_insertionSort _ _).mem_iff.1 (mem_of_head? h)
  have hroom := (mem_filter.1 hmem).1
  rw [withPortRoom, hempty, if_pos rfl, mem_filter] at hroom
  simpa using hroom.2

/-- No slot goes back to a server that an earlier slot of the service has taken: in the state before
a slot, the server that held it at the last deploy, where it is still eligible and below the cap, is
not occupied. -/
def ReusesFreeHosts (c : Collation) (p : PlaceParams) (n : ℕ) : Prop :=
  ∀ slot < n, ∀ st, placeSlots c p slot = .ok st →
    ∀ server, stickyFitting p st slot = some server → server.id ∉ st.occupied

theorem chosen_free_iff (hempty : p.requireEmptyHost = true)
    {chosen : FleetServer} (h : chosenServer c p st n = some chosen) : chosen.id ∉ st.occupied ↔
      ∀ server, stickyFitting p st n = some server → server.id ∉ st.occupied := by
  rw [chosenServer] at h
  cases hsticky : stickyFitting p st n with
  | none =>
    rw [hsticky, Option.none_or] at h
    refine iff_of_true (not_mem_occupied_of_pickServer hempty h) fun server hserver => ?_
    cases hserver
  | some server =>
    rw [hsticky, Option.some_or] at h
    obtain rfl := Option.some.inj h
    constructor
    · rintro hfree server' hserver'
      rwa [← Option.some.inj hserver']
    · exact fun hfree => hfree server rfl

theorem nodup_servers_iff_chosen (h : placeSlots c p n = .ok st) :
    (st.slots.map (·.serverId)).Nodup ↔ ∀ slot < n, ∀ st, placeSlots c p slot = .ok st →
      ∀ chosen, chosenServer c p st slot = some chosen → chosen.id ∉ st.occupied := by
  induction n generalizing st with
  | zero =>
    cases h
    exact iff_of_true nodup_nil fun slot hslot => absurd hslot (Nat.not_lt_zero slot)
  | succ n ih =>
    obtain ⟨st, chosen, hst, hchosen, rfl⟩ := placeSlots_succ.1 h
    have hstep : ((st.place p n chosen).slots.map (·.serverId)).Nodup ↔
        (st.slots.map (·.serverId)).Nodup ∧ chosen.id ∉ st.occupied := by
      simp only [PlaceState.place, map_append, map_cons, map_nil, mem_occupied hst]
      rw [← concat_eq_append, nodup_concat, and_comm]
    rw [hstep, ih hst]
    constructor
    · rintro ⟨hbefore, hlast⟩ slot hslot st' hst' chosen' hchosen'
      obtain hlt | rfl := Nat.lt_succ_iff_lt_or_eq.1 hslot
      · exact hbefore slot hlt st' hst' chosen' hchosen'
      · cases hst.symm.trans hst'
        cases hchosen.symm.trans hchosen'
        exact hlast
    · exact fun hall => ⟨fun slot hslot => hall slot (by omega), hall n (by omega) st hst chosen hchosen⟩

theorem nodup_servers_iff (hempty : p.requireEmptyHost = true) (h : placeSlots c p n = .ok st) :
    (st.slots.map (·.serverId)).Nodup ↔ ReusesFreeHosts c p n := by
  rw [nodup_servers_iff_chosen h]
  constructor
  · intro hall slot hslot st' hst' server hserver
    refine hall slot hslot st' hst' server ?_
    rw [chosenServer, hserver, Option.some_or]
  · intro hall slot hslot st' hst' chosen hchosen
    exact (chosen_free_iff hempty hchosen).2 (hall slot hslot st' hst')

/-- The number of slots of a service on a server, in a plan. -/
def slotsOn (plan : SchedulePlan) (row : PlannedService) (serverId : String) : ℕ :=
  plan.slots.countP fun t => t.serviceId == row.serviceId && t.serverId == serverId

theorem slotsOn_eq_count {plan : SchedulePlan} {row : PlannedService} {slots : List DesiredSlotInput}
    (hperm : (plan.slots.filter (ofService row.serviceId)).Perm slots) (serverId : String) :
    slotsOn plan row serverId = (slots.map (·.serverId)).count serverId := by
  rw [List.count, countP_map, ← hperm.countP_eq, countP_filter, slotsOn]
  simp only [Function.comp_apply, ofService, Bool.and_comm]

theorem slotsOn_le_one_iff {plan : SchedulePlan} {row : PlannedService}
    {slots : List DesiredSlotInput}
    (hperm : (plan.slots.filter (ofService row.serviceId)).Perm slots) :
    (∀ serverId, slotsOn plan row serverId ≤ 1) ↔ (slots.map (·.serverId)).Nodup := by
  simp only [nodup_iff_count_le_one, slotsOn_eq_count hperm]

/-- **One published port on a host.** In a plan for services with different ids, every service that
publishes a host port has at most one slot on each server, if and only if no slot of such a service
goes back, when it is placed, to a server that an earlier slot of the service has taken. -/
theorem published_port_per_host {input : PlanEnvironmentInput}
    (hids : (input.services.map (·.serviceId)).Nodup) {plan : SchedulePlan}
    (h : planEnvironmentSchedule c input = .ok plan) :
    (∀ row ∈ input.services, row.spec.publishedHostPorts ≠ [] →
      ∀ serverId, slotsOn plan row serverId ≤ 1) ↔
    ∀ row ∈ input.services, row.spec.publishedHostPorts ≠ [] →
      ReusesFreeHosts c (placeParams input row) (placeParams input row).count.toNat := by
  refine forall₂_congr fun row hrow => forall_congr' fun hports => ?_
  obtain ⟨slots, hslots, hperm⟩ := plan_service hids h hrow
  obtain ⟨-, st, hst, rfl⟩ := placeService_ok hslots
  rw [slotsOn_le_one_iff hperm]
  refine nodup_servers_iff ?_ hst
  simpa [placeParams, groupParams, length_pos_iff] using hports

/-- A service with two replicas that publishes the port 8080, on two servers. -/
def webService : PlannedService where
  serviceId := "svc"
  spec :=
    { composeServiceName := "web"
      mode := .replicated
      replicas := 2
      constraints := []
      spreadKeys := []
      publishedHostPorts := [8080]
      colocateWith := []
      maxReplicasPerNode := none }

def webInput (existingTasks : List ExistingSlot) : PlanEnvironmentInput where
  pinServerId := none
  defaultServerId := none
  fabricEnabled := false
  servers := [⟨"s1", true, Map.empty, none, none⟩, ⟨"s2", true, Map.empty, none, none⟩]
  services := [webService]
  existingTasks := existingTasks
  storagePins := Map.empty
  document := none
  pairSharesTrustedLan := none
  pairHasDirectTunnel := none

/-- A plan of `webInput`. -/
def webPlan (first second : String) (serverIds : List String) : SchedulePlan where
  slots := [⟨"svc", first, 0, some .running, none⟩, ⟨"svc", second, 1, some .running, none⟩]
  serverIds := serverIds

theorem published_port_per_host_web :
    planEnvironmentSchedule Collation.codePoint (webInput [⟨"svc", 0, "s2"⟩]) =
      .ok (webPlan "s2" "s1" ["s1", "s2"]) ∧
    ((∀ row ∈ [webService], row.spec.publishedHostPorts ≠ [] →
      ∀ serverId, slotsOn (webPlan "s2" "s1" ["s1", "s2"]) row serverId ≤ 1) ↔
    ∀ row ∈ [webService], row.spec.publishedHostPorts ≠ [] →
      ReusesFreeHosts Collation.codePoint (placeParams (webInput [⟨"svc", 0, "s2"⟩]) row)
        (placeParams (webInput [⟨"svc", 0, "s2"⟩]) row).count.toNat) :=
  ⟨rfl, @published_port_per_host Collation.codePoint (webInput [⟨"svc", 0, "s2"⟩]) (by decide) _ rfl⟩

/-- Two slots go back to one recorded host. -/
theorem published_port_twice_on_host :
    planEnvironmentSchedule Collation.codePoint (webInput [⟨"svc", 0, "s1"⟩, ⟨"svc", 1, "s1"⟩]) =
      .ok (webPlan "s1" "s1" ["s1"]) ∧
    ¬∀ row ∈ (webInput [⟨"svc", 0, "s1"⟩, ⟨"svc", 1, "s1"⟩]).services,
      row.spec.publishedHostPorts ≠ [] →
        ∀ serverId, slotsOn (webPlan "s1" "s1" ["s1"]) row serverId ≤ 1 :=
  ⟨rfl, fun h => absurd (h webService (mem_singleton.2 rfl) (cons_ne_nil _ _) "s1")
    (by decide)⟩

end TurboPanel.Schedule
