import TurboPanel.Schedule.Listing

/-!
# Services that share hosts

Services that name each other in `colocateWith` are in one group and are placed on the same hosts
(`eligible_eq_of_colocateWith`). Each of them is then placed on its own, with its own earlier
servers, spread keys, cap and ports. So two services of a group are on the same servers, slot by
slot, exactly when one list of hosts is a listing of both; where neither has spread keys, a cap or a
port, that is when each slot has the same home for the two.
-/

namespace TurboPanel.Schedule

open Js List

variable {c : Collation}

/-! ## The server of a slot -/

/-- The server of a slot of a service, in a plan. -/
def placedOn (plan : SchedulePlan) (row : PlannedService) (slot : ℕ) : Option String :=
  (plan.slots.find? fun t => ofService row.serviceId t && t.slot == (slot : ℤ)).map (·.serverId)

theorem placedOn_eq {p : PlaceParams} {plan : SchedulePlan} {row : PlannedService} {st : PlaceState} {n : ℕ}
    (hst : placeSlots c p n = .ok st)
    (hperm : (plan.slots.filter (ofService row.serviceId)).Perm st.slots) (slot : ℕ) :
    placedOn plan row slot = st.hosts[slot]? := by
  have hslots := (placeInv hst).slots
  -- the slots of the loop are numbered by their places
  have hnumber : ∀ {i : ℕ} {t : DesiredSlotInput}, st.slots[i]? = some t → t.slot = i := by
    intro i t ht
    have hmap := congrArg (·[i]?) hslots
    simp only [getElem?_map, ht, Option.map_some] at hmap
    obtain ⟨j, hj, hij⟩ := Option.map_eq_some_iff.1 hmap.symm
    obtain ⟨_, rfl⟩ := List.getElem?_eq_some_iff.1 hj
    simpa using hij.symm
  rw [placedOn, PlaceState.hosts, getElem?_map]
  cases hfind : plan.slots.find? fun t => ofService row.serviceId t && t.slot == (slot : ℤ) with
  | some t =>
    have hkeep := find?_some hfind
    rw [Bool.and_eq_true, beq_iff_eq] at hkeep
    have hmem := hperm.mem_iff.1 (mem_filter.2 ⟨mem_of_find?_eq_some hfind, hkeep.1⟩)
    obtain ⟨i, hi⟩ := mem_iff_getElem?.1 hmem
    obtain rfl : i = slot := Int.natCast_inj.1 ((hnumber hi).symm.trans hkeep.2)
    rw [hi]
  | none =>
    cases hget : st.slots[slot]? with
    | none => rfl
    | some t =>
      obtain ⟨hmem, hof⟩ := mem_filter.1 (hperm.mem_iff.2 (mem_of_getElem? hget))
      have hno := find?_eq_none.1 hfind t hmem
      simp [hof, hnumber hget] at hno

/-! ## Two services of a group -/

/-- The names of `colocateWith` name a planned service, both services are replicated, and they have
the same number of replicas. -/
structure Colocated (services : List PlannedService) (a b : PlannedService) : Prop where
  left : a ∈ services
  right : b ∈ services
  named : b.spec.composeServiceName ∈ a.spec.colocateWith
  left_replicated : a.spec.mode = .replicated
  right_replicated : b.spec.mode = .replicated
  replicas_eq : a.spec.replicas = b.spec.replicas

/-- Nothing but the recorded servers, the preferred server and the ids has a say. -/
structure Plain (p : PlaceParams) : Prop where
  spread : p.service.spec.spreadKeys = []
  cap : p.service.spec.maxReplicasPerNode = none
  port : p.requireEmptyHost = false

/-- The `n` slots of the two services: each has one home for both, where neither has spread keys, a
cap or a port, and else one list of hosts is a listing of both. -/
def SharesHosts (c : Collation) (p q : PlaceParams) (n : ℕ) : Prop :=
  (Plain p ∧ Plain q ∧ ∀ slot < n, ∃ server, Home c p slot server ∧ Home c q slot server) ∨
    ¬(Plain p ∧ Plain q) ∧ ∃ order, order.length = n ∧ Listing c p order ∧ Listing c q order

/-- The two services have the same recorded servers, spread keys, cap and use of ports. -/
structure SameSettings (p q : PlaceParams) (n : ℕ) : Prop where
  recorded : ∀ slot < n, stickyServer p slot = stickyServer q slot
  spread : p.service.spec.spreadKeys = q.service.spec.spreadKeys
  cap : p.service.spec.maxReplicasPerNode = q.service.spec.maxReplicasPerNode
  port : p.requireEmptyHost = q.requireEmptyHost

section

variable {p q : PlaceParams} {n : ℕ} {stp stq : PlaceState}

theorem Plain.home (h : Plain p) {order : List FleetServer} (hlisting : Listing c p order) {slot : ℕ}
    {server : FleetServer} (hserver : order[slot]? = some server) : Home c p slot server := by
  obtain ⟨hslot, -⟩ := List.getElem?_eq_some_iff.1 hserver
  have hhome := (hlisting.draws hserver).home h.spread h.port fun host cap hcap => by
    rw [h.cap] at hcap
    cases hcap
  rwa [length_take_of_le hslot.le] at hhome

section

variable (hids : (p.eligible.map (·.id)).Nodup) (heligible : p.eligible = q.eligible)
  (hp : placeSlots c p n = .ok stp) (hq : placeSlots c q n = .ok stq)
include hids heligible hp hq

theorem hosts_eq_iff :
    stp.hosts = stq.hosts ↔ ∃ order, order.length = n ∧ Listing c p order ∧ Listing c q order := by
  have hids' : (q.eligible.map (·.id)).Nodup := heligible ▸ hids
  obtain ⟨order, hlisting, hlen, hfollows⟩ := placeSlots_listing hids hp
  obtain ⟨order', hlisting', hlen', hfollows'⟩ := placeSlots_listing hids' hq
  rw [hfollows.hosts, hfollows'.hosts]
  constructor
  · intro heq
    obtain rfl : order = order' := by
      refine ext_getElem (hlen.trans hlen'.symm) fun i hi hi' => ?_
      have hat := congrArg (·[i]?) heq
      simp only [getElem?_map, getElem?_eq_getElem hi, getElem?_eq_getElem hi',
        Option.map_some, Option.some.injEq] at hat
      exact inj_on_of_nodup_map hids (hlisting.eligible _ (getElem_mem hi))
        (heligible ▸ hlisting'.eligible _ (getElem_mem hi')) hat
    exact ⟨order, hlen, hlisting, hlisting'⟩
  · rintro ⟨common, hcommon, hcp, hcq⟩
    rw [hlisting.unique hids hcp (hlen.trans hcommon.symm),
      hlisting'.unique hids' hcq (hlen'.trans hcommon.symm)]

theorem sharesHosts_iff : stp.hosts = stq.hosts ↔ SharesHosts c p q n := by
  rw [SharesHosts]
  by_cases hplain : Plain p ∧ Plain q
  · have hids' : (q.eligible.map (·.id)).Nodup := heligible ▸ hids
    rw [iff_false_intro (not_not.2 hplain), false_and, or_false, and_iff_right hplain.1,
      and_iff_right hplain.2, hosts_eq_iff hids heligible hp hq]
    constructor
    · rintro ⟨order, rfl, hlisting, hlisting'⟩ slot hslot
      have hserver := getElem?_eq_getElem hslot
      exact ⟨_, hplain.1.home hlisting hserver, hplain.2.home hlisting' hserver⟩
    · intro hhomes
      obtain ⟨order, hlisting, hlen, -⟩ := placeSlots_listing hids hp
      obtain ⟨order', hlisting', hlen', -⟩ := placeSlots_listing hids' hq
      obtain rfl : order = order' := by
        refine ext_getElem (hlen.trans hlen'.symm) fun slot hslot hslot' => ?_
        obtain ⟨server, hhome, hhome'⟩ := hhomes slot (hlen ▸ hslot)
        exact ((hplain.1.home hlisting (getElem?_eq_getElem hslot)).unique hids hhome).trans
          (hhome'.unique hids' (hplain.2.home hlisting' (getElem?_eq_getElem hslot')))
      exact ⟨order, hlen, hlisting, hlisting'⟩
  · rw [iff_true_intro hplain, true_and, hosts_eq_iff hids heligible hp hq, or_iff_right]
    exact fun h => hplain ⟨h.1, h.2.1⟩

end

theorem SameSettings.listing (h : SameSettings p q n) (heligible : p.eligible = q.eligible)
    (hpreferred : p.preferredId = q.preferredId) {order : List FleetServer} (hlen : order.length = n)
    (hlisting : Listing c p order) : Listing c q order := by
  intro before server after heq
  have hdraws := hlisting before server after heq
  have hslot : before.length < n := by
    rw [← hlen, heq, length_append, length_cons]
    omega
  have hbelow : ∀ host, BelowCap p before host ↔ BelowCap q before host := fun host => by
    rw [BelowCap, BelowCap, h.cap]
  have hroom : ∀ host, HasRoom p before host ↔ HasRoom q before host := fun host => by
    rw [HasRoom, HasRoom, hbelow, h.port]
  have hranks : ∀ a b, RanksBefore c p before a b ↔ RanksBefore c q before a b := fun a b => by
    rw [RanksBefore, RanksBefore, placeOf, placeOf, placeOf, placeOf, h.spread, hpreferred, heligible]
  obtain ⟨hback, hfits⟩ | ⟨hnone, hfirst⟩ := hdraws
  · exact .inl ⟨h.recorded _ hslot ▸ hback, (hbelow server).1 hfits⟩
  · refine .inr ⟨fun back hback hfits => hnone back (h.recorded _ hslot ▸ hback) ((hbelow back).2 hfits),
      heligible ▸ hfirst.eligible, (hroom server).1 hfirst.room, fun other hother hroom' hbefore => ?_⟩
    exact hfirst.first other (heligible ▸ hother) ((hroom other).2 hroom') ((hranks other server).2 hbefore)

end

theorem eligible_eq_of_colocateWith {input : PlanEnvironmentInput}
    (hids : (input.services.map (·.serviceId)).Nodup)
    (hnames : (input.services.map (·.spec.composeServiceName)).Nodup)
    {a b : PlannedService} (hab : Colocated input.services a b) (hb : b.serviceId ≠ "") :
    (placeParams input a).eligible = (placeParams input b).eligible := by
  have hname : (nameToId input.services).get? b.spec.composeServiceName = some b.serviceId := by
    have hkeys : ((input.services.map fun row =>
        (row.spec.composeServiceName, row.serviceId)).map Prod.fst).Nodup := by
      rwa [map_map]
    rw [nameToId, Map.get?_ofEntries hkeys]
    exact mem_map.2 ⟨b, hab.right, rfl⟩
  have hgroup := groupOf_eq_of_same hids hab.left hab.right
    (same_of_colocateWith hab.left (by rw [hname, truthyString_some hb]) hab.named)
  simp only [placeParams, groupParams, hgroup]

/-- The loops of two colocated services, with what the plan shows of them. -/
theorem loops_of_colocated {input : PlanEnvironmentInput} (hids : (input.services.map (·.serviceId)).Nodup)
    {plan : SchedulePlan} (h : planEnvironmentSchedule c input = .ok plan) {a b : PlannedService}
    (hab : Colocated input.services a b) : ∃ sta stb,
      placeSlots c (placeParams input a) a.spec.replicas.toNat = .ok sta ∧
      placeSlots c (placeParams input b) a.spec.replicas.toNat = .ok stb ∧
      ((∀ slot, placedOn plan a slot = placedOn plan b slot) ↔ sta.hosts = stb.hosts) := by
  obtain ⟨_, hplacea, hperma⟩ := plan_service hids h hab.left
  obtain ⟨_, hplaceb, hpermb⟩ := plan_service hids h hab.right
  obtain ⟨-, sta, hsta, rfl⟩ := placeService_ok hplacea
  obtain ⟨-, stb, hstb, rfl⟩ := placeService_ok hplaceb
  have hcounta : (placeParams input a).count = a.spec.replicas := by
    simp only [PlaceParams.count, placeParams, groupParams_service, replicaCount, hab.left_replicated]
  have hcountb : (placeParams input b).count = a.spec.replicas := by
    simp only [PlaceParams.count, placeParams, groupParams_service, replicaCount, hab.right_replicated,
      hab.replicas_eq]
  rw [hcounta] at hsta
  rw [hcountb] at hstb
  refine ⟨sta, stb, hsta, hstb, ?_⟩
  simp only [placedOn_eq hsta hperma, placedOn_eq hstb hpermb]
  exact ⟨ext_getElem?, fun heq slot => by rw [heq]⟩

/-- A service with one replica. -/
def singleService (serviceId name : String) (colocateWith : List String) : PlannedService where
  serviceId := serviceId
  spec :=
    { composeServiceName := name
      mode := .replicated
      replicas := 1
      constraints := []
      spreadKeys := []
      publishedHostPorts := []
      colocateWith := colocateWith
      maxReplicasPerNode := none }

/-- A service `app` that shares the network of `db`, on two servers. -/
def sidecarInput (existingTasks : List ExistingSlot) : PlanEnvironmentInput where
  pinServerId := none
  defaultServerId := none
  fabricEnabled := false
  servers := [⟨"s1", true, Map.empty, none, none⟩, ⟨"s2", true, Map.empty, none, none⟩]
  services := [singleService "a" "app" ["db"], singleService "b" "db" []]
  existingTasks := existingTasks
  storagePins := Map.empty
  document := none
  pairSharesTrustedLan := none
  pairHasDirectTunnel := none

/-- A plan of `sidecarInput`. -/
def sidecarPlan (app db : String) (serverIds : List String) : SchedulePlan where
  slots := [⟨"a", app, 0, some .running, none⟩, ⟨"b", db, 0, some .running, none⟩]
  serverIds := serverIds

end TurboPanel.Schedule
