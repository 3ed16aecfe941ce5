import TurboPanel.Schedule.HostPorts
import TurboPanel.Schedule.Listing

/-!
# Global mode

A service of mode `global` has as many slots as its group has hosts, and they are placed as those of
any other service. So it runs once on every host exactly when no two slots go to one host
(`HostsApart`). A cap of one sees to it. Without labels to spread over that depends on the recorded
servers alone: without a published port the slots must have different homes, so at most one has none
recorded; with a port, a host that is recorded for a slot must not be reached by the slots before it
that have none.
-/

namespace TurboPanel.Schedule

open Js List

variable {c : Collation} {p : PlaceParams} {n : ℕ}

/-! ## The condition -/

/-- Different slots have different homes. -/
def HomesApart (c : Collation) (p : PlaceParams) (n : ℕ) : Prop :=
  ∀ i < n, ∀ j < n, i ≠ j → ∀ server server', Home c p i server → Home c p j server' → server.id ≠ server'.id

/-- Different slots have different recorded servers. -/
def RecordedApart (p : PlaceParams) (n : ℕ) : Prop :=
  ∀ i < n, ∀ j < n, i ≠ j → ∀ back ∈ stickyServer p i, ∀ back' ∈ stickyServer p j, back.id ≠ back'.id

/-- No slot has the host recorded. -/
def NeverRecorded (p : PlaceParams) (n : ℕ) (host : FleetServer) : Prop :=
  ∀ slot < n, ∀ back ∈ stickyServer p slot, back.id ≠ host.id

instance (host : FleetServer) : Decidable (NeverRecorded p n host) :=
  inferInstanceAs (Decidable (∀ slot < n, ∀ back ∈ stickyServer p slot, back.id ≠ host.id))

/-- The slots before this one that have no recorded server. -/
def openSlots (p : PlaceParams) (slot : ℕ) : List ℕ :=
  (List.range slot).filter fun i => (stickyServer p i).isNone

/-- The hosts that no slot has recorded and that rank before the server. -/
def freshBefore (c : Collation) (p : PlaceParams) (n : ℕ) (server : FleetServer) : List FleetServer :=
  p.eligible.filter fun host => decide (NeverRecorded p n host ∧ RanksBefore c p [] host server)

/-- Before the server of a slot rank enough hosts that no slot has recorded, for the slots before
it. -/
def FreshFirst (c : Collation) (p : PlaceParams) (n : ℕ) : Prop :=
  ∀ slot < n, ∀ back ∈ stickyServer p slot, (openSlots p slot).length ≤ (freshBefore c p n back).length

/-- The `n` slots go to different hosts: there is a cap of one; or there are no labels to spread
over, and without a port the homes are different, with one the recorded servers are and the other
slots reach none of them; or there are labels, and a list of different hosts is a listing. -/
inductive HostsApart (c : Collation) (p : PlaceParams) (n : ℕ) : Prop
  | cap (hcap : p.service.spec.maxReplicasPerNode = some 1)
  | homes (hspread : p.service.spec.spreadKeys = []) (hport : p.requireEmptyHost = false) (h : HomesApart c p n)
  | ports (hspread : p.service.spec.spreadKeys = []) (hport : p.requireEmptyHost = true) (hrecorded : RecordedApart p n)
      (hfresh : FreshFirst c p n)
  | spread (hspread : p.service.spec.spreadKeys ≠ []) (order : List FleetServer) (hlength : order.length = n)
      (hlisting : Listing c p order) (hnodup : (order.map (·.id)).Nodup)

/-! ## Different hosts -/

section

variable {order : List FleetServer}

variable {i : ℕ}

theorem mem_take_ids {id : String} :
    id ∈ (order.take i).map (·.id) ↔ ∃ k < i, ∃ host, order[k]? = some host ∧ host.id = id := by
  rw [mem_map]
  constructor
  · rintro ⟨host, hmem, rfl⟩
    obtain ⟨k, hk⟩ := mem_iff_getElem?.1 hmem
    rw [getElem?_take] at hk
    split at hk
    · rename_i hlt
      exact ⟨k, hlt, host, hk, rfl⟩
    · cases hk
  · rintro ⟨k, hk, host, hhost, rfl⟩
    exact ⟨host, mem_iff_getElem?.2 ⟨k, by rw [getElem?_take, if_pos hk, hhost]⟩, rfl⟩

theorem nodup_of_take (h : ∀ i server, order[i]? = some server → ((order.take i).map (·.id)).Nodup →
    server.id ∉ (order.take i).map (·.id)) : (order.map (·.id)).Nodup := by
  have htake : ∀ i ≤ order.length, ((order.take i).map (·.id)).Nodup := by
    intro i
    induction i with
    | zero => exact fun _ => nodup_nil
    | succ i ih =>
      intro hi
      have hget := getElem?_eq_getElem (show i < order.length from hi)
      rw [take_add_one, hget, Option.toList_some, map_append, map_singleton,
        ← concat_eq_append, nodup_concat]
      exact ⟨h i _ hget (ih (by omega)), ih (by omega)⟩
  have hall := htake order.length le_rfl
  rwa [take_length] at hall

theorem nodup_take {k : ℕ} (h : ((order.take i).map (·.id)).Nodup) (hk : k ≤ i) :
    ((order.take k).map (·.id)).Nodup :=
  (((take_sublist_take_left hk).map _).nodup h)

variable {server : FleetServer}

theorem index_inj (h : (order.map (·.id)).Nodup) {j : ℕ} {server' : FleetServer}
    (hi : order[i]? = some server) (hj : order[j]? = some server') (heq : server.id = server'.id) : i = j := by
  refine (getElem?_inj ?_ h).1 ?_
  · rw [length_map]
    exact (List.getElem?_eq_some_iff.1 hi).1
  · rw [getElem?_map, getElem?_map, hi, hj, Option.map_some, Option.map_some, heq]

/-- As long as the hosts are different, none is at a cap of more than one. -/
theorem Draws.belowCap_all (hcap : p.service.spec.maxReplicasPerNode ≠ some 1)
    (hnodup : (order.map (·.id)).Nodup) (h : Draws c p order server) (host : FleetServer) :
    BelowCap p order host := by
  intro cap hmem
  have hbelow := h.belowCap cap hmem
  have hcount := nodup_iff_count_le_one.1 hnodup host.id
  have hne : cap ≠ 1 := fun heq => hcap (heq ▸ hmem)
  omega

/-- So each slot with a recorded server goes back to it. -/
theorem Listing.back (hlisting : Listing c p order) (hcap : p.service.spec.maxReplicasPerNode ≠ some 1)
    (hserver : order[i]? = some server) (hnodup : ((order.take i).map (·.id)).Nodup) :
    (∀ back ∈ stickyServer p i, back = server) ∧
      (stickyServer p i = none → RanksFirst c p (order.take i) server) := by
  have hdraws := hlisting.draws hserver
  have hbelow := hdraws.belowCap_all hcap hnodup
  have hlen : (order.take i).length = i := length_take_of_le (List.getElem?_eq_some_iff.1 hserver).1.le
  rw [Draws, hlen] at hdraws
  obtain ⟨hback, -⟩ | ⟨hnone, hfirst⟩ := hdraws
  · refine ⟨fun back hmem => Option.some.inj (hmem.symm.trans hback), fun hnone => ?_⟩
    cases hback.symm.trans hnone
  · exact ⟨fun back hmem => absurd (hbelow back) (hnone back hmem), fun _ => hfirst⟩

theorem Listing.home (hlisting : Listing c p order) (hcap : p.service.spec.maxReplicasPerNode ≠ some 1)
    (hspread : p.service.spec.spreadKeys = []) (hport : p.requireEmptyHost = false)
    (hserver : order[i]? = some server) (hnodup : ((order.take i).map (·.id)).Nodup) : Home c p i server := by
  have hdraws := hlisting.draws hserver
  have hhome := hdraws.home hspread hport (hdraws.belowCap_all hcap hnodup)
  rwa [length_take_of_le (List.getElem?_eq_some_iff.1 hserver).1.le] at hhome

theorem Listing.homesApart_iff (hlisting : Listing c p order) (hids : (p.eligible.map (·.id)).Nodup)
    (hcap : p.service.spec.maxReplicasPerNode ≠ some 1) (hspread : p.service.spec.spreadKeys = [])
    (hport : p.requireEmptyHost = false) : (order.map (·.id)).Nodup ↔ HomesApart c p order.length := by
  constructor
  · intro hnodup i hi j hj hij server server' hhome hhome' heq
    have hat : ∀ {k : ℕ} (hk : k < order.length), Home c p k order[k] := fun {k} hk =>
      hlisting.home hcap hspread hport (getElem?_eq_getElem hk)
        (((take_sublist k order).map _).nodup hnodup)
    refine hij (index_inj hnodup (getElem?_eq_getElem hi) (getElem?_eq_getElem hj) ?_)
    rw [(hat hi).unique hids hhome, (hat hj).unique hids hhome', heq]
  · refine fun hapart => nodup_of_take fun i server hserver hnodup hmem => ?_
    obtain ⟨k, hk, host, hhost, hid⟩ := mem_take_ids.1 hmem
    have hi := (List.getElem?_eq_some_iff.1 hserver).1
    exact hapart k (hk.trans hi) i hi hk.ne host server
      (hlisting.home hcap hspread hport hhost (nodup_take hnodup hk.le))
      (hlisting.home hcap hspread hport hserver hnodup) hid

/-- The id of the host at a place. -/
def idAt (order : List FleetServer) (i : ℕ) : String := ((order[i]?).map (·.id)).getD ""

theorem idAt_eq (h : order[i]? = some server) : idAt order i = server.id := by
  rw [idAt, h]
  rfl

theorem mem_openSlots {slot : ℕ} : i ∈ openSlots p slot ↔ i < slot ∧ stickyServer p i = none := by
  rw [openSlots, mem_filter, mem_range, Option.isNone_iff_eq_none]

theorem nodup_openSlots (p : PlaceParams) (slot : ℕ) : (openSlots p slot).Nodup := nodup_range.filter _

theorem mem_freshBefore {host : FleetServer} : host ∈ freshBefore c p n server ↔
    host ∈ p.eligible ∧ NeverRecorded p n host ∧ RanksBefore c p [] host server := by
  rw [freshBefore, mem_filter, decide_eq_true_eq]

section

variable (hlisting : Listing c p order) (hids : (p.eligible.map (·.id)).Nodup)
  (hcap : p.service.spec.maxReplicasPerNode ≠ some 1) (hspread : p.service.spec.spreadKeys = [])
include hlisting hids hcap hspread

/-- With a port, the slots without a recorded server have taken hosts that rank before a recorded
one. -/
theorem Listing.freshFirst (hnodup : (order.map (·.id)).Nodup) : FreshFirst c p order.length := by
  intro slot hslot back hback
  have htake : ∀ i, ((order.take i).map (·.id)).Nodup := fun i => ((take_sublist i order).map _).nodup hnodup
  have hat : ∀ {i : ℕ} {back : FleetServer}, i < order.length → stickyServer p i = some back →
      order[i]? = some back := fun {i back} hi hback => by
    rw [getElem?_eq_getElem hi,
      (hlisting.back hcap (getElem?_eq_getElem hi) (htake i)).1 back hback]
  have hsub : (openSlots p slot).map (idAt order) ⊆ (freshBefore c p order.length back).map (·.id) := by
    intro id hid
    obtain ⟨i, hi, rfl⟩ := mem_map.1 hid
    obtain ⟨hi, hopen⟩ := mem_openSlots.1 hi
    have hget := getElem?_eq_getElem (hi.trans hslot)
    have hfirst := (hlisting.back hcap hget (htake i)).2 hopen
    rw [idAt_eq hget]
    refine mem_map_of_mem (mem_freshBefore.2 ⟨hfirst.eligible, fun k hk other hother heq => ?_, ?_⟩)
    · obtain rfl := index_inj hnodup (hat hk hother) hget heq
      cases hother.symm.trans hopen
    · have hne : order[i] ≠ back := fun heq =>
        hi.ne (index_inj hnodup hget (hat hslot hback) (congrArg (·.id) heq))
      -- the recorded server is still free at that slot
      have hroom : HasRoom p (order.take i) back := by
        refine ⟨(hlisting.draws hget).belowCap_all hcap (htake i) back, fun _ hmem => ?_⟩
        obtain ⟨k, hk, other, hother, heq⟩ := mem_take_ids.1 hmem
        exact (hk.trans hi).ne (index_inj hnodup hother (hat hslot hback) heq)
      have hranks : RanksBefore c p (order.take i) order[i] back :=
        (RanksBefore.total hids hfirst.eligible (mem_of_stickyServer hback) hne).resolve_right
          (hfirst.first back (mem_of_stickyServer hback) hroom)
      exact (ranksBefore_iff hspread).1 hranks
  have hinj : ((openSlots p slot).map (idAt order)).Nodup := by
    refine (nodup_openSlots p slot).map_on fun i hi j hj heq => ?_
    have hi := getElem?_eq_getElem ((mem_openSlots.1 hi).1.trans hslot)
    have hj := getElem?_eq_getElem ((mem_openSlots.1 hj).1.trans hslot)
    rw [idAt_eq hi, idAt_eq hj] at heq
    exact index_inj hnodup hi hj heq
  simpa using (subperm_of_subset hinj hsub).length_le

theorem Listing.ports_iff (hport : p.requireEmptyHost = true) :
    (order.map (·.id)).Nodup ↔ RecordedApart p order.length ∧ FreshFirst c p order.length := by
  constructor
  · refine fun hnodup => ⟨fun i hi j hj hij back hback back' hback' heq => hij ?_,
      hlisting.freshFirst hids hcap hspread hnodup⟩
    have hat : ∀ {k : ℕ} (hk : k < order.length), ∀ back ∈ stickyServer p k, back = order[k] := fun {k} hk =>
      (hlisting.back hcap (getElem?_eq_getElem hk) (((take_sublist k order).map _).nodup hnodup)).1
    refine index_inj hnodup (getElem?_eq_getElem hi) (getElem?_eq_getElem hj) ?_
    rw [← hat hi back hback, ← hat hj back' hback', heq]
  · rintro ⟨hapart, hfresh⟩
    refine nodup_of_take fun i server hserver hnodup hmem => ?_
    have hi := (List.getElem?_eq_some_iff.1 hserver).1
    cases hsticky : stickyServer p i with
    | none => exact ((hlisting.back hcap hserver hnodup).2 hsticky).room.2 hport hmem
    | some back =>
      obtain rfl := (hlisting.back hcap hserver hnodup).1 back hsticky
      obtain ⟨k, hk, host, hhost, hid⟩ := mem_take_ids.1 hmem
      have hback : ∀ {m : ℕ} {host : FleetServer}, m < i → order[m]? = some host →
          ∀ other ∈ stickyServer p m, other = host := fun hm hhost =>
        (hlisting.back hcap hhost (nodup_take hnodup hm.le)).1
      cases hopen : stickyServer p k with
      | some other =>
        obtain rfl := hback hk hhost other hopen
        exact hapart k (hk.trans hi) i hi hk.ne other hopen back hsticky hid
      | none =>
        -- a host recorded for a later slot came first: no host that is never recorded was left
        -- before it
        have hfirst := (hlisting.back hcap hhost (nodup_take hnodup hk.le)).2 hopen
        obtain rfl := inj_on_of_nodup_map hids hfirst.eligible (mem_of_stickyServer hsticky) hid
        have hsub : (freshBefore c p order.length host).map (·.id) ⊆ (openSlots p k).map (idAt order) := by
          intro id hid
          obtain ⟨fresh, hmem', rfl⟩ := mem_map.1 hid
          obtain ⟨heligible, hnever, hranks⟩ := mem_freshBefore.1 hmem'
          have htaken : fresh.id ∈ (order.take k).map (·.id) := by
            by_contra hfree
            exact hfirst.first fresh heligible
              ⟨(hlisting.draws hhost).belowCap_all hcap (nodup_take hnodup hk.le) fresh, fun _ => hfree⟩
              ((ranksBefore_iff hspread).2 hranks)
          obtain ⟨m, hm, other, hother, heq⟩ := mem_take_ids.1 htaken
          rw [← heq, ← idAt_eq hother]
          refine mem_map_of_mem (mem_openSlots.2 ⟨hm, Option.eq_none_iff_forall_ne_some.2 fun back hsome => ?_⟩)
          refine hnever m ((hm.trans hk).trans hi) back hsome ?_
          rw [hback (hm.trans hk) hother back hsome, heq]
        have hle := (subperm_of_subset
          ((filter_sublist.map (fun row : FleetServer => row.id)).nodup hids) hsub).length_le
        have hopens : (openSlots p k ++ [k]).length ≤ (openSlots p i).length := by
          refine (subperm_of_subset ?_ fun m hm => ?_).length_le
          · rw [← concat_eq_append, nodup_concat]
            exact ⟨fun h => (mem_openSlots.1 h).1.ne rfl, nodup_openSlots p k⟩
          · obtain hm | hm := mem_append.1 hm
            · exact mem_openSlots.2 ⟨(mem_openSlots.1 hm).1.trans hk, (mem_openSlots.1 hm).2⟩
            · exact mem_openSlots.2 (mem_singleton.1 hm ▸ ⟨hk, hopen⟩)
        have hmany := hfresh i hi host hsticky
        simp only [length_append, length_map, length_singleton] at hle hopens
        rw [freshBefore] at hmany
        omega

end

/-- **Different hosts**, for the one listing of `n` hosts. -/
theorem Listing.hostsApart_iff (hlisting : Listing c p order) (hids : (p.eligible.map (·.id)).Nodup) :
    (order.map (·.id)).Nodup ↔ HostsApart c p order.length := by
  have hcapped : p.service.spec.maxReplicasPerNode = some 1 → (order.map (·.id)).Nodup := fun hcap =>
    nodup_of_take fun i server hserver _ => by
      have hbelow := (hlisting.draws hserver).belowCap 1 hcap
      exact count_eq_zero.1 (by omega)
  constructor
  · intro hnodup
    by_cases hcap : p.service.spec.maxReplicasPerNode = some 1
    · exact .cap hcap
    · by_cases hspread : p.service.spec.spreadKeys = []
      · cases hport : p.requireEmptyHost with
        | false => exact .homes hspread hport ((hlisting.homesApart_iff hids hcap hspread hport).1 hnodup)
        | true =>
          obtain ⟨hrecorded, hfresh⟩ := (hlisting.ports_iff hids hcap hspread hport).1 hnodup
          exact .ports hspread hport hrecorded hfresh
      · exact .spread hspread order rfl hlisting hnodup
  · intro h
    by_cases hcap : p.service.spec.maxReplicasPerNode = some 1
    · exact hcapped hcap
    · cases h with
      | cap hone => exact absurd hone hcap
      | homes hspread hport h => exact (hlisting.homesApart_iff hids hcap hspread hport).2 h
      | ports hspread hport hrecorded hfresh =>
        exact (hlisting.ports_iff hids hcap hspread hport).2 ⟨hrecorded, hfresh⟩
      | spread _ order' hlen hlisting' hnodup => rwa [hlisting.unique hids hlisting' hlen.symm]

end

/-! ## Global services -/

/-- A service runs once on every host of its group, and nowhere else. -/
structure OncePerHost (input : PlanEnvironmentInput) (plan : SchedulePlan) (row : PlannedService) : Prop where
  once : ∀ server, EligibleFor input row server → slotsOn plan row server.id = 1
  nowhere : ∀ serverId, slotsOn plan row serverId ≠ 0 → ∃ server, EligibleFor input row server ∧ server.id = serverId

theorem count_eq_one_iff_nodup {α : Type*} [DecidableEq α] {ids l : List α} (hids : ids.Nodup) (hl : ∀ a ∈ l, a ∈ ids)
    (hlen : l.length = ids.length) : (∀ id ∈ ids, l.count id = 1) ↔ l.Nodup := by
  constructor
  · intro h
    rw [nodup_iff_count_le_one]
    intro a
    by_cases ha : a ∈ l
    · rw [h a (hl a ha)]
    · rw [count_eq_zero_of_not_mem ha]
      omega
  · intro h id hid
    have hperm : l.Perm ids := (subperm_of_subset h hl).perm_of_length_le hlen.ge
    rw [hperm.count_eq, count_eq_one_of_mem hids hid]

/-- A service of this mode, with or without a published port. -/
def globalService (ports : List ℕ) : PlannedService where
  serviceId := "svc"
  spec :=
    { composeServiceName := "agent"
      mode := .global
      replicas := 1
      constraints := []
      spreadKeys := []
      publishedHostPorts := ports
      colocateWith := []
      maxReplicasPerNode := none }

/-- Two connected servers without labels. -/
def globalInput (ports : List ℕ) (existingTasks : List ExistingSlot) : PlanEnvironmentInput where
  pinServerId := none
  defaultServerId := none
  fabricEnabled := true
  servers := [⟨"s1", true, Map.empty, none, none⟩, ⟨"s2", true, Map.empty, none, none⟩]
  services := [globalService ports]
  existingTasks := existingTasks
  storagePins := Map.empty
  document := none
  pairSharesTrustedLan := none
  pairHasDirectTunnel := none

end TurboPanel.Schedule
