import TurboPanel.Js.Map
import TurboPanel.Fabric.Cidr

/-!
# Addresses of slots on spanning networks

The model of `assignSlotAddresses` of `src/features/schedule/slot-addresses.ts`. The spanning
networks are taken in the order of their keys; on each, the slots of the services that join it first
keep their earlier address, where that is still possible, and the rest are given the lowest free
host address of the segment of their server.

`NetworkInv` is what holds between any two steps of the two passes over a network: no two slots of a
server have the same address, every address is a good one (`GoodAddress`), and what is taken is
marked as used. Both passes are assignments of a fresh good address (`NetworkInv.assign`).
-/

namespace TurboPanel.Schedule

open Js Ip Fabric List

/-! ## The program -/

inductive SlotDesiredState
  | running
  | stopped
  | removed
  deriving DecidableEq

structure DesiredSlotInput where
  serviceId : String
  serverId : String
  slot : ℤ
  desiredState : Option SlotDesiredState
  address : Option Text
  deriving DecidableEq

structure SlotAddressExisting where
  serviceId : String
  slot : ℤ
  serverId : String
  address : Option Text
  deriving DecidableEq

def slotKey (serviceId : String) (slot : ℤ) : Text := serviceId.toList ++ ':' :: intText slot

def normalizeAddress (value : Option Text) : Option Text :=
  truthy ((truthy value).map stripInetPrefixSuffix)

def addressInCidrHostRange (cidr address : Text) : Bool :=
  match cidrHostRange cidr, ipToBigInt? address with
  | some range, some value => decide (range.first ≤ value) && decide (value ≤ range.last)
  | _, _ => false

/-- The set of a server; one that is not there yet is empty. -/
def usedSetForServer (occupied : Map String (List Text)) (serverId : String) : List Text :=
  (occupied.get? serverId).getD []

/-- `usedSetForServer(occupied, serverId).add(address)`. -/
def addUsed (occupied : Map String (List Text)) (serverId : String) (address : Text) :
    Map String (List Text) :=
  occupied.set serverId (setAdd (usedSetForServer occupied serverId) address)

structure ReservedAddresses where
  occupied : Map String (List Text)
  reservedByServer : Map String Text

/-- One round of `seedReservedAddresses`. -/
def seedReservedAddress (st : ReservedAddresses) (segment : String × Text) : ReservedAddresses :=
  match truthy (reservedManagedIngressAddress segment.2) with
  | none => st
  | some reserved =>
    { reservedByServer := st.reservedByServer.set segment.1 reserved
      occupied := addUsed st.occupied segment.1 reserved }

def seedReservedAddresses (segments : Map String Text) : ReservedAddresses :=
  segments.entries.foldl seedReservedAddress
    { occupied := Map.empty, reservedByServer := Map.empty }

def stickyAddressForSlot (task : DesiredSlotInput) (cidr : Text)
    (previous : Option SlotAddressExisting) (reserved : Option Text) : Option Text :=
  if previous.map (·.serverId) ≠ some task.serverId then none
  else
    match normalizeAddress (previous.bind (·.address)) with
    | none => none
    | some previousAddress =>
      if some previousAddress = reserved ∨ addressInCidrHostRange cidr previousAddress = false then
        none
      else some previousAddress

/-- What the two passes change. -/
structure AddressState where
  occupied : Map String (List Text)
  assigned : Map Text Text

/-- `assigned.set(key, address)`, and the address is used on the server. -/
def AddressState.assign (st : AddressState) (task : DesiredSlotInput) (address : Text) :
    AddressState where
  assigned := st.assigned.set (slotKey task.serviceId task.slot) address
  occupied := addUsed st.occupied task.serverId address

/-- One round of the loops below: a slot that has no address yet, on a server with a segment, takes
the address that `pick` finds on the segment. -/
def assignRound (segments : Map String Text)
    (pick : AddressState → DesiredSlotInput → Text → Option Text) (st : AddressState)
    (task : DesiredSlotInput) : AddressState :=
  if st.assigned.has (slotKey task.serviceId task.slot) then st
  else
    match truthy (segments.get? task.serverId) with
    | none => st
    | some cidr =>
      match truthy (pick st task cidr) with
      | none => st
      | some address => st.assign task address

/-- One round of `reuseStickyAddresses`. -/
def reuseStickyAddress (segments : Map String Text) (existingByKey : Map Text SlotAddressExisting)
    (reservedByServer : Map String Text) : AddressState → DesiredSlotInput → AddressState :=
  assignRound segments fun _ task cidr =>
    stickyAddressForSlot task cidr (existingByKey.get? (slotKey task.serviceId task.slot))
      (reservedByServer.get? task.serverId)

def reuseStickyAddresses (participating : List DesiredSlotInput) (segments : Map String Text)
    (existingByKey : Map Text SlotAddressExisting) (reservedByServer : Map String Text)
    (st : AddressState) : AddressState :=
  participating.foldl (reuseStickyAddress segments existingByKey reservedByServer) st

/-- One round of `allocateRemainingAddresses`. -/
def allocateRemainingAddress (segments : Map String Text) :
    AddressState → DesiredSlotInput → AddressState :=
  assignRound segments fun st task cidr =>
    -- on an address that cannot be read the source throws
    (nextFreeHostAddress cidr (usedSetForServer st.occupied task.serverId)).toOption.join

def allocateRemainingAddresses (participating : List DesiredSlotInput) (segments : Map String Text)
    (st : AddressState) : AddressState :=
  participating.foldl (allocateRemainingAddress segments) st

def assignAddressesForNetwork (slots : List DesiredSlotInput)
    (existingByKey : Map Text SlotAddressExisting) (segments : Map String Text)
    (serviceIds : List String) (assigned : Map Text Text) : Map Text Text :=
  if serviceIds.length = 0 then assigned
  else
    let seed := seedReservedAddresses segments
    let participating := slots.filter fun task =>
      serviceIds.contains task.serviceId && segments.has task.serverId
    let st := reuseStickyAddresses participating segments existingByKey seed.reservedByServer
      { occupied := seed.occupied, assigned }
    (allocateRemainingAddresses participating segments st).assigned

structure AssignParams where
  slots : List DesiredSlotInput
  existing : List SlotAddressExisting
  networkSegments : Map String (Map String Text)
  networkServiceIds : Map String (List String)

/-- One round of the loop over `composeKeys`. -/
def assignForComposeKey (params : AssignParams) (existingByKey : Map Text SlotAddressExisting)
    (assigned : Map Text Text) (composeKey : String) : Map Text Text :=
  match params.networkSegments.get? composeKey, params.networkServiceIds.get? composeKey with
  | some segments, some serviceIds =>
    assignAddressesForNetwork params.slots existingByKey segments serviceIds assigned
  | _, _ => assigned

def existingByKey (params : AssignParams) : Map Text SlotAddressExisting :=
  Map.ofEntries (params.existing.map fun row => (slotKey row.serviceId row.slot, row))

def assignedAddresses (c : Collation) (params : AssignParams) : Map Text Text :=
  (sortKeys c params.networkSegments.keys).foldl (assignForComposeKey params (existingByKey params))
    Map.empty

def assignSlotAddresses (c : Collation) (params : AssignParams) : List DesiredSlotInput :=
  let assigned := assignedAddresses c params
  params.slots.map fun task =>
    { task with address := assigned.get? (slotKey task.serviceId task.slot) }

/-! ## Keys -/

theorem slotKey_inj {a b : String} {i j : ℤ} (h : slotKey a i = slotKey b j) : a = b ∧ i = j := by
  have hcolon : ∀ n : ℤ, ':' ∉ (intText n).reverse := by
    intro n hm
    rcases mem_intText (mem_reverse.1 hm) with h | h
    · cases h
    · cases h
  have hrev : (intText i).reverse ++ ':' :: a.toList.reverse =
      (intText j).reverse ++ ':' :: b.toList.reverse := by
    simpa [slotKey] using congrArg List.reverse h
  obtain ⟨h₁, h₂⟩ := append_cons_inj (hcolon i) (hcolon j) hrev
  exact ⟨String.toList_inj.1 (reverse_injective h₂),
    intText_injective (reverse_injective h₁)⟩

/-- The key of a slot. -/
def DesiredSlotInput.key (t : DesiredSlotInput) : Text := slotKey t.serviceId t.slot

@[simp] theorem AddressState.get?_assign (st : AddressState) (t : DesiredSlotInput) (a : Text)
    (k : Text) : (st.assign t a).assigned.get? k =
      if k = t.key then some a else st.assigned.get? k :=
  Map.get?_set _ _ _ _

variable {a : Text}

theorem mem_usedSetForServer_addUsed {occupied : Map String (List Text)} {s s' : String}
    {b : Text} : b ∈ usedSetForServer (addUsed occupied s a) s' ↔
      b ∈ usedSetForServer occupied s' ∨ (s' = s ∧ b = a) := by
  rw [addUsed, usedSetForServer, Map.get?_set]
  by_cases h : s' = s
  · subst h
    simp
  · simp [h, usedSetForServer]

/-! ## What is assumed of the input -/

/-- `t` is on a segment of the network `k`, which its service joins. -/
def Joins (params : AssignParams) (k : String) (t : DesiredSlotInput) (cidr : Text) : Prop :=
  ∃ segments serviceIds, params.networkSegments.get? k = some segments ∧
    params.networkServiceIds.get? k = some serviceIds ∧ t.serviceId ∈ serviceIds ∧
    segments.get? t.serverId = some cidr

/-- Two rows of one server do not carry the same address. -/
def DistinctAddresses (r r' : SlotAddressExisting) : Prop :=
  r.serverId = r'.serverId → ∀ a, normalizeAddress r.address = some a →
    normalizeAddress r'.address ≠ some a

instance : Std.Symm DistinctAddresses :=
  ⟨fun _ _ h hs a ha ha' => h hs.symm a ha' ha⟩

/-- The rows have distinct identities, segments are IPv4 blocks, those of different networks are
disjoint on each server, and the earlier addresses of a server are distinct IPv4 addresses. -/
structure Admissible (params : AssignParams) : Prop where
  slots_nodup : (params.slots.map fun t => (t.serviceId, t.slot)).Nodup
  existing_nodup : (params.existing.map fun r => (r.serviceId, r.slot)).Nodup
  ipv4_segment : ∀ k segments s cidr, params.networkSegments.get? k = some segments →
    segments.get? s = some cidr → ∃ c, parseCidr cidr = some c ∧ c.version = .v4
  segments_disjoint : ∀ k k' segments segments' s cidr cidr', k ≠ k' →
    params.networkSegments.get? k = some segments →
    params.networkSegments.get? k' = some segments' → segments.get? s = some cidr →
    segments'.get? s = some cidr' → cidrsOverlap cidr cidr' = false
  existing_ipv4 : ∀ r ∈ params.existing, ∀ a, normalizeAddress r.address = some a →
    isIpv4Address a = true
  existing_distinct : params.existing.Pairwise DistinctAddresses

/-- An address that a slot on the segment may have. -/
structure GoodAddress (cidr a : Text) : Prop where
  ipv4 : isIpv4Address a = true
  in_range : addressInCidrHostRange cidr a = true
  not_reserved : reservedManagedIngressAddress cidr ≠ some a

/-- What is known of the assignment when the networks of `done` have been taken. -/
structure AssignedInv (params : AssignParams) (done : List String) (assigned : Map Text Text) :
    Prop where
  good : ∀ key a, assigned.get? key = some a → ∃ t ∈ params.slots, t.key = key ∧
    ∃ k ∈ done, ∃ cidr, Joins params k t cidr ∧ GoodAddress cidr a
  distinct : ∀ t ∈ params.slots, ∀ t' ∈ params.slots, t.key ≠ t'.key → t.serverId = t'.serverId →
    ∀ a, assigned.get? t.key = some a → assigned.get? t'.key ≠ some a

theorem AssignedInv.empty (params : AssignParams) : AssignedInv params [] Map.empty :=
  ⟨fun key a h => by simp at h, fun t _ t' _ _ _ a h => by simp at h⟩

variable {params : AssignParams}

theorem AssignedInv.mono {done : List String} {assigned : Map Text Text}
    (inv : AssignedInv params done assigned) (k : String) : AssignedInv params (k :: done) assigned := by
  refine ⟨fun key a ha => ?_, inv.distinct⟩
  obtain ⟨t, ht, hkey, k', hk', hrest⟩ := inv.good key a ha
  exact ⟨t, ht, hkey, k', mem_cons_of_mem _ hk', hrest⟩

/-- What holds between any two steps on a network: every address of the segments that a slot has,
and every reserved one, is marked as used. -/
structure NetworkInv (params : AssignParams) (done : List String) (segments : Map String Text)
    (st : AddressState) : Prop extends AssignedInv params done st.assigned where
  used : ∀ t ∈ params.slots, ∀ cidr a, segments.get? t.serverId = some cidr →
    st.assigned.get? t.key = some a → addressInCidrHostRange cidr a = true →
    a ∈ usedSetForServer st.occupied t.serverId
  reserved_used : ∀ s cidr r, segments.get? s = some cidr →
    reservedManagedIngressAddress cidr = some r → r ∈ usedSetForServer st.occupied s

variable {t : DesiredSlotInput}

theorem Admissible.slot_ext (adm : Admissible params)
    {t' : DesiredSlotInput} (ht : t ∈ params.slots) (ht' : t' ∈ params.slots)
    (h : t.key = t'.key) : t = t' := by
  obtain ⟨h₁, h₂⟩ := slotKey_inj h
  exact inj_on_of_nodup_map adm.slots_nodup ht ht' (Prod.ext h₁ h₂)

/-- **The step**: a slot is given a good address that no other slot of its server has. -/
theorem NetworkInv.assign (adm : Admissible params) {done : List String}
    {segments : Map String Text} {st : AddressState} (inv : NetworkInv params done segments st)
    (ht : t ∈ params.slots) {k : String} (hk : k ∈ done) {cidr : Text}
    (hjoin : Joins params k t cidr) (hgood : GoodAddress cidr a)
    (hfresh : ∀ t' ∈ params.slots, t'.key ≠ t.key → t'.serverId = t.serverId →
      st.assigned.get? t'.key ≠ some a) : NetworkInv params done segments (st.assign t a) where
  good key b hb := by
    rw [AddressState.get?_assign] at hb
    split at hb
    · rename_i hkey
      cases hb
      exact ⟨t, ht, hkey.symm, k, hk, cidr, hjoin, hgood⟩
    · exact inv.good key b hb
  distinct u hu u' hu' hne hserver b hb hb' := by
    rw [AddressState.get?_assign] at hb hb'
    split at hb <;> split at hb'
    · rename_i h₁ h₂
      exact hne (h₁.trans h₂.symm)
    · rename_i h₁ h₂
      cases hb
      obtain rfl := adm.slot_ext hu ht h₁
      exact hfresh u' hu' h₂ hserver.symm hb'
    · rename_i h₁ h₂
      cases hb'
      obtain rfl := adm.slot_ext hu' ht h₂
      exact hfresh u hu h₁ hserver hb
    · exact inv.distinct u hu u' hu' hne hserver b hb hb'
  used u hu cidr' b hseg' hb hrange := by
    rw [AddressState.get?_assign] at hb
    rw [AddressState.assign, mem_usedSetForServer_addUsed]
    split at hb
    · rename_i hkey
      cases hb
      obtain rfl := adm.slot_ext hu ht hkey
      exact .inr ⟨rfl, rfl⟩
    · exact .inl (inv.used u hu cidr' b hseg' hb hrange)
  reserved_used s cidr' r hs hr := by
    rw [AddressState.assign, mem_usedSetForServer_addUsed]
    exact .inl (inv.reserved_used s cidr' r hs hr)

/-! ## Reserved addresses -/

theorem truthy_reserved (cidr : Text) :
    truthy (reservedManagedIngressAddress cidr) = reservedManagedIngressAddress cidr := by
  cases h : reservedManagedIngressAddress cidr with
  | none => rfl
  | some r =>
    refine truthy_eq_some.2 ⟨rfl, ?_⟩
    simp only [reservedManagedIngressAddress, nthHostAddress, Option.bind_eq_some_iff,
      Option.ite_none_left_eq_some, Option.some.injEq] at h
    obtain ⟨-, -, -, -, -, -, -, rfl⟩ := h
    rw [intToIpv4_eq]
    exact bigIntToIpv4_ne_nil _

/-- The reserved addresses are those of the segments. -/
def ReservedOf (segments reservedByServer : Map String Text) : Prop :=
  ∀ s cidr, segments.get? s = some cidr →
    reservedByServer.get? s = reservedManagedIngressAddress cidr

theorem foldl_seedReservedAddress {l : List (String × Text)} (h : (l.map Prod.fst).Nodup) :
    (∀ s cidr, (s, cidr) ∈ l →
      (l.foldl seedReservedAddress ⟨Map.empty, Map.empty⟩).reservedByServer.get? s =
        reservedManagedIngressAddress cidr ∧
      ∀ r, reservedManagedIngressAddress cidr = some r →
        r ∈ usedSetForServer (l.foldl seedReservedAddress ⟨Map.empty, Map.empty⟩).occupied s) ∧
    ∀ s, s ∉ l.map Prod.fst →
      (l.foldl seedReservedAddress ⟨Map.empty, Map.empty⟩).reservedByServer.get? s = none := by
  induction l using List.reverseRecOn with
  | nil => simp
  | append_singleton l e ih =>
    rw [map_append, nodup_append] at h
    obtain ⟨hl, -, hdisj⟩ := h
    obtain ⟨ih₁, ih₂⟩ := ih hl
    have hnew : e.1 ∉ l.map Prod.fst := fun hm => hdisj e.1 hm e.1 (by simp) rfl
    rw [foldl_append, foldl_cons, foldl_nil, seedReservedAddress, truthy_reserved]
    cases hr : reservedManagedIngressAddress e.2 with
    | none =>
      refine ⟨fun s cidr hmem => ?_, fun s hs => ih₂ s fun hm => hs (by simp [hm])⟩
      rcases mem_append.1 hmem with hmem | hmem
      · exact ih₁ s cidr hmem
      · obtain rfl : (s, cidr) = e := by simpa using hmem
        exact ⟨by rw [ih₂ _ hnew, hr], fun r hr' => by rw [hr] at hr'; cases hr'⟩
    | some reserved =>
      refine ⟨fun s cidr hmem => ?_, fun s hs => ?_⟩
      · rcases mem_append.1 hmem with hmem | hmem
        · have hne : s ≠ e.1 := by
            rintro rfl
            exact hnew (mem_map.2 ⟨_, hmem, rfl⟩)
          obtain ⟨h₁, h₂⟩ := ih₁ s cidr hmem
          refine ⟨by rw [Map.get?_set_of_ne hne, h₁], fun r hr' => ?_⟩
          exact mem_usedSetForServer_addUsed.2 (.inl (h₂ r hr'))
        · obtain rfl : (s, cidr) = e := by simpa using hmem
          refine ⟨by rw [Map.get?_set_self, hr], fun r hr' => ?_⟩
          rw [hr] at hr'
          exact mem_usedSetForServer_addUsed.2 (.inr ⟨rfl, (Option.some.inj hr').symm⟩)
      · have hne : s ≠ e.1 := by
          rintro rfl
          exact hs (by simp)
        rw [Map.get?_set_of_ne hne]
        exact ih₂ s fun hm => hs (by simp [hm])

theorem seedReservedAddresses_spec (segments : Map String Text) :
    ReservedOf segments (seedReservedAddresses segments).reservedByServer ∧
      ∀ s cidr r, segments.get? s = some cidr → reservedManagedIngressAddress cidr = some r →
        r ∈ usedSetForServer (seedReservedAddresses segments).occupied s := by
  obtain ⟨h, -⟩ := foldl_seedReservedAddress segments.nodup
  exact ⟨fun s cidr hs => (h s cidr (Map.get?_eq_some_iff.1 hs)).1,
    fun s cidr r hs hr => (h s cidr (Map.get?_eq_some_iff.1 hs)).2 r hr⟩

/-! ## The pass that keeps addresses -/

theorem stickyAddressForSlot_eq_some {cidr : Text}
    {previous : Option SlotAddressExisting} {reserved : Option Text} :
    stickyAddressForSlot t cidr previous reserved = some a ↔ ∃ row, previous = some row ∧
      row.serverId = t.serverId ∧ normalizeAddress row.address = some a ∧ reserved ≠ some a ∧
      addressInCidrHostRange cidr a = true := by
  cases previous with
  | none => simp [stickyAddressForSlot]
  | some row =>
    simp only [stickyAddressForSlot, Option.map_some, ne_eq, Option.some.injEq, Option.bind_some,
      exists_eq_left']
    by_cases hs : row.serverId = t.serverId
    · rw [if_neg (not_not.2 hs)]
      cases hn : normalizeAddress row.address with
      | none => simp
      | some b =>
        simp only [Option.ite_none_left_eq_some, not_or, Bool.not_eq_false, Option.some.injEq, hs,
          true_and]
        constructor
        · rintro ⟨⟨h₁, h₂⟩, rfl⟩
          exact ⟨rfl, fun h => h₁ h.symm, h₂⟩
        · rintro ⟨rfl, h₁, h₂⟩
          exact ⟨⟨fun h => h₁ h.symm, h₂⟩, rfl⟩
    · simp [hs]

theorem get?_existingByKey (adm : Admissible params) {key : Text}
    {row : SlotAddressExisting} : (existingByKey params).get? key = some row ↔
      row ∈ params.existing ∧ slotKey row.serviceId row.slot = key := by
  have hnodup : ((params.existing.map fun r => (slotKey r.serviceId r.slot, r)).map
      Prod.fst).Nodup := by
    rw [map_map]
    have := adm.existing_nodup.map_on (f := fun p : String × ℤ => slotKey p.1 p.2)
      fun p _ q _ h => Prod.ext (slotKey_inj h).1 (slotKey_inj h).2
    rwa [map_map] at this
  rw [existingByKey, Map.get?_ofEntries hnodup]
  simp only [mem_map, Prod.mk.injEq]
  constructor
  · rintro ⟨r, hr, h, rfl⟩
    exact ⟨hr, h⟩
  · rintro ⟨hr, h⟩
    exact ⟨row, hr, h, rfl⟩

theorem assignRound_cases (segments : Map String Text)
    (pick : AddressState → DesiredSlotInput → Text → Option Text) (st : AddressState)
    (t : DesiredSlotInput) : assignRound segments pick st t = st ∨
      ∃ cidr a, st.assigned.get? t.key = none ∧ segments.get? t.serverId = some cidr ∧
        pick st t cidr = some a ∧ assignRound segments pick st t = st.assign t a := by
  simp only [assignRound]
  split
  · exact .inl rfl
  rename_i hhas
  split
  · exact .inl rfl
  rename_i cidr hcidr
  split
  · exact .inl rfl
  rename_i a ha
  exact .inr ⟨cidr, a, Map.has_eq_false.1 (Bool.eq_false_iff.2 hhas),
    (truthy_eq_some.1 hcidr).1, (truthy_eq_some.1 ha).1, rfl⟩

/-- During the pass, the addresses on the segments are those that the slots had before. -/
structure StickyInv (params : AssignParams) (done : List String) (segments : Map String Text)
    (st : AddressState) : Prop extends NetworkInv params done segments st where
  sticky : ∀ t ∈ params.slots, ∀ cidr a, segments.get? t.serverId = some cidr →
    st.assigned.get? t.key = some a → addressInCidrHostRange cidr a = true →
    ∃ row ∈ params.existing, row.serverId = t.serverId ∧
      slotKey row.serviceId row.slot = t.key ∧ normalizeAddress row.address = some a

section Passes

variable {params : AssignParams} (adm : Admissible params) {done : List String}
  {segments : Map String Text}

include adm

theorem Admissible.eq_row {r r' : SlotAddressExisting} (hr : r ∈ params.existing)
    (hr' : r' ∈ params.existing) (hserver : r.serverId = r'.serverId) {a : Text}
    (h : normalizeAddress r.address = some a) (h' : normalizeAddress r'.address = some a) :
    r = r' := by
  by_contra hne
  exact adm.existing_distinct.forall hr hr' hne hserver a h h'

theorem StickyInv.step {st : AddressState} (inv : StickyInv params done segments st)
    {reservedByServer : Map String Text} (hres : ReservedOf segments reservedByServer)
    {t : DesiredSlotInput} (ht : t ∈ params.slots) {k : String} (hk : k ∈ done)
    (hjoin : ∀ cidr, segments.get? t.serverId = some cidr → Joins params k t cidr) :
    StickyInv params done segments
      (reuseStickyAddress segments (existingByKey params) reservedByServer st t) := by
  rw [reuseStickyAddress]
  obtain h | ⟨cidr, a, -, hseg, hsticky, h⟩ := assignRound_cases segments _ st t
  · rwa [h]
  obtain ⟨row, hrow, hserver, hnorm, hreserved, hrange⟩ := stickyAddressForSlot_eq_some.1 hsticky
  obtain ⟨hmem, hkey⟩ := (get?_existingByKey adm).1 hrow
  have hgood : GoodAddress cidr a :=
    ⟨adm.existing_ipv4 row hmem a hnorm, hrange, (hres _ _ hseg) ▸ hreserved⟩
  rw [h]
  refine ⟨inv.toNetworkInv.assign adm ht hk (hjoin cidr hseg) hgood ?_, ?_⟩
  · intro t' ht' hne hs hassigned
    obtain ⟨row', hmem', hserver', hkey', hnorm'⟩ :=
      inv.sticky t' ht' cidr a (hs ▸ hseg) hassigned hrange
    obtain rfl := adm.eq_row hmem hmem' (by rw [hserver, hserver', hs]) hnorm hnorm'
    exact hne (hkey'.symm.trans hkey)
  · intro t' ht' cidr' b hseg' hb hrange'
    rw [AddressState.get?_assign] at hb
    split at hb
    · rename_i hkey'
      obtain rfl := adm.slot_ext ht' ht hkey'
      cases hb
      exact ⟨row, hmem, hserver, hkey, hnorm⟩
    · exact inv.sticky t' ht' cidr' b hseg' hb hrange'

/-! ## The pass that allocates -/

variable {assigned : Map Text Text} {pick : AddressState → DesiredSlotInput → Text → Option Text}
  {t : DesiredSlotInput} {st : AddressState} {k : String} {key a : Text}

theorem NetworkInv.allocate (inv : NetworkInv params done segments st) (ht : t ∈ params.slots) (hk : k ∈ done)
    (hjoin : ∀ cidr, segments.get? t.serverId = some cidr → Joins params k t cidr) :
    NetworkInv params done segments (allocateRemainingAddress segments st t) := by
  rw [allocateRemainingAddress]
  obtain h | ⟨cidr, a, -, hseg, ha, h⟩ := assignRound_cases segments _ st t
  · rwa [h]
  rw [h]
  obtain ⟨c, range, v, hc, hrange, rfl, hfirst, hlast, hunused⟩ := nextFreeHostAddress_eq_some (eq_ok_of_join ha)
  obtain ⟨segs, ids, hsegs, -, -, hcidr'⟩ := hjoin cidr hseg
  obtain ⟨c', hc', hv4⟩ := adm.ipv4_segment _ _ _ _ hsegs hcidr'
  obtain rfl : c = c' := Option.some.inj (hc.symm.trans hc')
  have hblock := isIpv4Block_of_parseCidr hc hv4
  have hmem := mem_numbers_of_hostRange hc hrange hfirst hlast
  have hv : v < 2 ^ 32 := lt_of_lt_of_le hmem.2 hblock.fits
  rw [hv4] at *
  have hnum : ipToBigInt? (bigIntToIp v .v4) = some v := ipToBigInt_bigIntToIpv4 hv
  have hin : addressInCidrHostRange cidr (bigIntToIp v .v4) = true := by
    simp [addressInCidrHostRange, hrange, hnum, hfirst, hlast]
  have hgood : GoodAddress cidr (bigIntToIp v .v4) := by
    refine ⟨isIpv4Address_bigIntToIpv4 v, hin, fun hres => ?_⟩
    exact hunused _ (inv.reserved_used _ _ _ hseg hres) hnum
  refine inv.assign adm ht hk (hjoin cidr hseg) hgood fun t' ht' _ hs hassigned => ?_
  have := inv.used t' ht' cidr _ (hs ▸ hseg) hassigned hin
  rw [hs] at this
  exact hunused _ this hnum

/-! ## One network -/

variable {cidr : Text}

theorem Admissible.not_in_range {k k' s : String} (hne : k ≠ k') {segs segs' : Map String Text}
    (hsegs : params.networkSegments.get? k = some segs)
    (hsegs' : params.networkSegments.get? k' = some segs') {cidr' a : Text}
    (hcidr : segs.get? s = some cidr) (hcidr' : segs'.get? s = some cidr')
    (h : addressInCidrHostRange cidr a = true) : addressInCidrHostRange cidr' a = false := by
  obtain ⟨c, hc, hv⟩ := adm.ipv4_segment _ _ _ _ hsegs hcidr
  obtain ⟨c', hc', hv'⟩ := adm.ipv4_segment _ _ _ _ hsegs' hcidr'
  have hover := adm.segments_disjoint _ _ _ _ _ _ _ hne hsegs hsegs' hcidr hcidr'
  rw [← Bool.not_eq_true] at hover ⊢
  intro h'
  refine hover ((cidrsOverlap_iff hc hc').2 ⟨hv.trans hv'.symm, Set.not_disjoint_iff.2 ?_⟩)
  simp only [addressInCidrHostRange] at h h'
  cases hr : cidrHostRange cidr with
  | none => simp [hr] at h
  | some range =>
    cases hr' : cidrHostRange cidr' with
    | none => simp [hr'] at h'
    | some range' =>
      cases hn : ipToBigInt? a with
      | none => simp [hn] at h
      | some v =>
        simp only [hr, hn, Bool.and_eq_true, decide_eq_true_eq] at h
        simp only [hr', hn, Bool.and_eq_true, decide_eq_true_eq] at h'
        exact ⟨v, mem_numbers_of_hostRange hc hr h.1 h.2,
          mem_numbers_of_hostRange hc' hr' h'.1 h'.2⟩

theorem AssignedInv.start (inv : AssignedInv params done assigned) (hk : k ∉ done)
    (hsegs : params.networkSegments.get? k = some segments) :
    StickyInv params (k :: done) segments
      ⟨(seedReservedAddresses segments).occupied, assigned⟩ := by
  have hnone : ∀ t ∈ params.slots, ∀ cidr a, segments.get? t.serverId = some cidr →
      assigned.get? t.key = some a → addressInCidrHostRange cidr a = true → False := by
    intro t ht cidr a hseg ha hrange
    obtain ⟨t', ht', hkey, k', hk', cidr', ⟨segs', -, hsegs', -, -, hcidr'⟩, hgood⟩ := inv.good _ _ ha
    obtain rfl := adm.slot_ext ht' ht hkey
    have hne : k' ≠ k := fun h => hk (h ▸ hk')
    rw [adm.not_in_range hne hsegs' hsegs hcidr' hseg hgood.in_range] at hrange
    exact Bool.noConfusion hrange
  exact ⟨⟨inv.mono k, fun t ht cidr a hseg ha hrange => (hnone t ht cidr a hseg ha hrange).elim,
    (seedReservedAddresses_spec segments).2⟩,
    fun t ht cidr a hseg ha hrange => (hnone t ht cidr a hseg ha hrange).elim⟩

/-- **One network**: both passes keep the invariant. -/
theorem AssignedInv.network (inv : AssignedInv params done assigned) (hk : k ∉ done) :
    AssignedInv params (k :: done)
      (assignForComposeKey params (existingByKey params) assigned k) := by
  simp only [assignForComposeKey]
  split
  · rename_i segs ids hsegs hids
    simp only [assignAddressesForNetwork]
    split
    · exact inv.mono k
    have hpart : ∀ t ∈ params.slots.filter fun task =>
        ids.contains task.serviceId && segs.has task.serverId, t ∈ params.slots ∧
          ∀ cidr, segs.get? t.serverId = some cidr → Joins params k t cidr := by
      intro t ht
      simp only [mem_filter, Bool.and_eq_true, contains_iff_mem] at ht
      exact ⟨ht.1, fun cidr hcidr => ⟨segs, ids, hsegs, hids, ht.2.1, hcidr⟩⟩
    have hsticky := List.foldlRecOn (motive := StickyInv params (k :: done) segs) _
      (reuseStickyAddress segs (existingByKey params) (seedReservedAddresses segs).reservedByServer)
      (inv.start adm hk hsegs) fun st hst t ht =>
        hst.step adm (seedReservedAddresses_spec segs).1 (hpart t ht).1 mem_cons_self
          (hpart t ht).2
    exact (List.foldlRecOn (motive := NetworkInv params (k :: done) segs) _
      (allocateRemainingAddress segs) hsticky.toNetworkInv fun st hst t ht =>
        hst.allocate adm (hpart t ht).1 mem_cons_self (hpart t ht).2).toAssignedInv
  · exact inv.mono k

/-- **Every run**: the invariant holds after any sequence of distinct networks. -/
theorem AssignedInv.run (inv : AssignedInv params done assigned) {keys : List String} (hnodup : keys.Nodup)
    (hdisj : ∀ k ∈ keys, k ∉ done) :
    AssignedInv params (keys.reverse ++ done)
      (keys.foldl (assignForComposeKey params (existingByKey params)) assigned) := by
  induction keys generalizing done assigned with
  | nil => exact inv
  | cons k keys ih =>
    obtain ⟨hk, hkeys⟩ := nodup_cons.1 hnodup
    rw [reverse_cons, append_assoc, singleton_append, foldl_cons]
    refine ih (inv.network adm (hdisj k (by simp))) hkeys fun k' hk' hmem => ?_
    rcases mem_cons.1 hmem with rfl | hmem
    · exact hk hk'
    · exact hdisj k' (by simp [hk']) hmem

/-! ## What is assigned stays -/

omit adm in
theorem assignRound_keeps (st : AddressState) (t : DesiredSlotInput) (h : st.assigned.get? key = some a) :
    (assignRound segments pick st t).assigned.get? key = some a := by
  obtain he | ⟨cidr, b, hnone, -, -, he⟩ := assignRound_cases segments pick st t
  · rwa [he]
  · have hne : key ≠ t.key := by
      rintro rfl
      rw [hnone] at h
      cases h
    rw [he, AddressState.get?_assign, if_neg hne, h]

omit adm in
theorem foldl_assignRound_keeps {l : List DesiredSlotInput} (h : st.assigned.get? key = some a) :
    (l.foldl (assignRound segments pick) st).assigned.get? key = some a :=
  List.foldlRecOn (motive := fun st : AddressState => st.assigned.get? key = some a) l _ h
    fun st hst t _ => assignRound_keeps st t hst

omit adm in
theorem assignForComposeKey_keeps {byKey : Map Text SlotAddressExisting} (k : String) (h : assigned.get? key =
      some a) :
    (assignForComposeKey params byKey assigned k).get? key = some a := by
  simp only [assignForComposeKey]
  split
  · simp only [assignAddressesForNetwork]
    split
    · exact h
    · exact foldl_assignRound_keeps (foldl_assignRound_keeps h)
  · exact h

theorem reuseStickyAddresses_sticky {reservedByServer : Map String Text} (ht : t ∈ params.slots) {a : Text}
    (hseg : truthy (segments.get? t.serverId) = some cidr)
    (hsticky : truthy (stickyAddressForSlot t cidr ((existingByKey params).get? t.key)
        (reservedByServer.get? t.serverId)) = some a)
    {l : List DesiredSlotInput} (hl : ∀ t' ∈ l, t' ∈ params.slots) (hmem : t ∈ l)
    (hst : st.assigned.get? t.key = none) :
    (reuseStickyAddresses l segments (existingByKey params) reservedByServer st).assigned.get? t.key =
      some a := by
  induction l generalizing st with
  | nil => cases hmem
  | cons t' l ih =>
    rw [reuseStickyAddresses, foldl_cons]
    by_cases heq : t' = t
    · subst heq
      refine foldl_assignRound_keeps ?_
      have hround : reuseStickyAddress segments (existingByKey params) reservedByServer st t' =
          st.assign t' a := by
        have hhas : st.assigned.has (slotKey t'.serviceId t'.slot) = false :=
          Map.has_eq_false.2 hst
        simp only [DesiredSlotInput.key] at hsticky
        simp only [reuseStickyAddress, assignRound, hhas, Bool.false_eq_true, if_false, hseg, hsticky]
      rw [hround, AddressState.get?_assign, if_pos rfl]
    · have hkey : t.key ≠ t'.key := fun h => heq (adm.slot_ext ht (hl t' (by simp)) h).symm
      refine ih (fun u hu => hl u (by simp [hu])) ((mem_cons.1 hmem).resolve_left (Ne.symm heq)) ?_
      rw [reuseStickyAddress]
      obtain he | ⟨_, _, -, -, -, he⟩ := assignRound_cases segments _ st t'
      · rwa [he]
      · rw [he, AddressState.get?_assign, if_neg hkey, hst]

theorem assignForComposeKey_sticky (ht : t ∈ params.slots) (hjoin : Joins params k t cidr)
    (hnone : assigned.get? t.key = none) {row : SlotAddressExisting} (hrow : row ∈ params.existing)
    (hkey : slotKey row.serviceId row.slot = t.key) (hserver : row.serverId = t.serverId) {a : Text}
    (hnorm : normalizeAddress row.address = some a) (hrange : addressInCidrHostRange cidr a = true)
    (hreserved : reservedManagedIngressAddress cidr ≠ some a) :
    (assignForComposeKey params (existingByKey params) assigned k).get? t.key = some a := by
  obtain ⟨segs, ids, hsegs, hids, hmem, hcidr⟩ := hjoin
  obtain ⟨c, hc, -⟩ := adm.ipv4_segment _ _ _ _ hsegs hcidr
  have hne : cidr ≠ [] := by
    rintro rfl
    exact absurd hc (by simp [show parseCidr [] = none from by decide])
  have hlen : ids.length ≠ 0 := by
    rw [ne_eq, length_eq_zero_iff]
    exact ne_nil_of_mem hmem
  have hsticky : stickyAddressForSlot t cidr ((existingByKey params).get? t.key)
      ((seedReservedAddresses segs).reservedByServer.get? t.serverId) = some a := by
    refine stickyAddressForSlot_eq_some.2 ⟨row, (get?_existingByKey adm).2 ⟨hrow, hkey⟩, hserver,
      hnorm, ?_, hrange⟩
    rwa [(seedReservedAddresses_spec segs).1 _ _ hcidr]
  simp only [assignForComposeKey, hsegs, hids, assignAddressesForNetwork, if_neg hlen]
  refine foldl_assignRound_keeps (reuseStickyAddresses_sticky adm ht
    (truthy_eq_some.2 ⟨hcidr, hne⟩) (truthy_eq_some.2 ⟨hsticky, ?_⟩) ?_ ?_ hnone)
  · rintro rfl
    have := adm.existing_ipv4 row hrow [] hnorm
    cases this
  · exact fun t' ht' => (mem_filter.1 ht').1
  · simp [ht, hmem, Map.has_iff.2 ⟨cidr, hcidr⟩]

end Passes

/-! ## The result -/

theorem isIpv4Address_inj {b : Text} (ha : isIpv4Address a = true) (hb : isIpv4Address b = true)
    (h : ipToBigInt? a = ipToBigInt? b) : a = b := by
  obtain ⟨v, hv, rfl⟩ := isIpv4Address_iff.1 ha
  obtain ⟨w, hw, rfl⟩ := isIpv4Address_iff.1 hb
  rw [ipToBigInt_bigIntToIpv4 hv, ipToBigInt_bigIntToIpv4 hw, Option.some.injEq] at h
  rw [h]

theorem assignedAddresses_inv (c : Collation) (adm : Admissible params) :
    AssignedInv params (sortKeys c params.networkSegments.keys).reverse (assignedAddresses c params) := by
  have hnodup : (sortKeys c params.networkSegments.keys).Nodup :=
    (sortKeys_perm c _).nodup_iff.2 params.networkSegments.nodup
  rw [assignedAddresses]
  simpa using (AssignedInv.empty params).run adm hnodup (by simp)

/-- **Slot addresses never clash.** For every admissible input and every collation: two slots of one
server that both have an address have different ones; an address is a host of the segment of the
slot's server on a network that its service joins, and is not the one reserved there; and a slot
that is still on the server of its earlier address keeps it, when that is a host of the segment of
the first network it joins and is not reserved. -/
theorem slot_addresses (c : Collation) {params : AssignParams} (adm : Admissible params) :
    ((assignSlotAddresses c params).Pairwise fun t t' => t.serverId = t'.serverId →
      ∀ a a', t.address = some a → t'.address = some a' → ipToBigInt? a ≠ ipToBigInt? a') ∧
    (∀ t ∈ assignSlotAddresses c params, ∀ a, t.address = some a → ∃ k cidr,
      Joins params k t cidr ∧ addressInCidrHostRange cidr a = true ∧
      reservedManagedIngressAddress cidr ≠ some a) ∧
    ∀ t ∈ params.slots, ∀ before k after cidr,
      sortKeys c params.networkSegments.keys = before ++ k :: after →
      (∀ k' ∈ before, ∀ cidr', ¬Joins params k' t cidr') → Joins params k t cidr →
      ∀ row ∈ params.existing, row.serviceId = t.serviceId → row.slot = t.slot →
      row.serverId = t.serverId → ∀ a, normalizeAddress row.address = some a →
      addressInCidrHostRange cidr a = true → reservedManagedIngressAddress cidr ≠ some a →
      { t with address := some a } ∈ assignSlotAddresses c params := by
  have inv := assignedAddresses_inv c adm
  refine ⟨?_, ?_, ?_⟩
  · rw [assignSlotAddresses, pairwise_map]
    refine (adm.slots_nodup.of_map _).imp_of_mem fun {t t'} ht ht' hne hserver a a' ha ha' heq => ?_
    obtain ⟨_, _, _, _, _, _, _, hgood⟩ := inv.good _ _ ha
    obtain ⟨_, _, _, _, _, _, _, hgood'⟩ := inv.good _ _ ha'
    obtain rfl := isIpv4Address_inj hgood.ipv4 hgood'.ipv4 heq
    exact inv.distinct t ht t' ht' (fun h => hne (adm.slot_ext ht ht' h)) hserver a ha ha'
  · intro t ht a ha
    obtain ⟨u, hu, rfl⟩ := mem_map.1 ht
    obtain ⟨u', hu', hkey, k, -, cidr, hjoin, hgood⟩ := inv.good _ _ ha
    obtain rfl := adm.slot_ext hu' hu hkey
    exact ⟨k, cidr, hjoin, hgood.in_range, hgood.not_reserved⟩
  · intro t ht before k after cidr hkeys hfirst hjoin row hrow hid hslot hserver a hnorm hrange hres
    refine mem_map.2 ⟨t, ht, ?_⟩
    have hkey : slotKey row.serviceId row.slot = t.key := by rw [hid, hslot]; rfl
    have hnodup : (before ++ k :: after).Nodup :=
      hkeys ▸ (sortKeys_perm c _).nodup_iff.2 params.networkSegments.nodup
    -- before the network, the slot has no address: it joins none of the earlier ones
    have hbefore : (before.foldl (assignForComposeKey params (existingByKey params))
        Map.empty).get? t.key = none := by
      rw [Option.eq_none_iff_forall_not_mem]
      intro b hb
      obtain ⟨u, hu, hukey, k', hk', cidr', hjoin', -⟩ :=
        ((AssignedInv.empty params).run adm (List.Nodup.of_append_left hnodup) (by simp)).good _ _ hb
      obtain rfl := adm.slot_ext hu ht hukey
      exact hfirst k' (by simpa using hk') cidr' hjoin'
    have hat := assignForComposeKey_sticky adm ht hjoin hbefore hrow hkey hserver hnorm hrange hres
    have hfinal : (assignedAddresses c params).get? t.key = some a := by
      rw [assignedAddresses, hkeys, foldl_append, foldl_cons]
      exact List.foldlRecOn (motive := fun m : Map Text Text => m.get? t.key = some a) after _ hat
        fun m hm k' _ => assignForComposeKey_keeps k' hm
    exact congrArg (fun x => { t with address := x }) hfinal

/-- Two slots of one service on one server, the second of which was there before. -/
def sampleAssignParams : AssignParams where
  slots := [⟨"web", "s1", 0, none, none⟩, ⟨"web", "s1", 1, none, none⟩]
  existing := [⟨"web", 1, "s1", some "10.9.0.1/32".toList⟩]
  networkSegments := Map.empty.set "mesh" (Map.empty.set "s1" "10.9.0.0/24".toList)
  networkServiceIds := Map.empty.set "mesh" ["web"]

theorem slot_addresses_sample : Admissible sampleAssignParams ∧
    (assignSlotAddresses Collation.codePoint sampleAssignParams).map (·.address) =
      [some "10.9.0.2".toList, some "10.9.0.1".toList] ∧
    (assignSlotAddresses Collation.codePoint sampleAssignParams).Pairwise fun t t' =>
      t.serverId = t'.serverId → ∀ a a', t.address = some a → t'.address = some a' →
        ipToBigInt? a ≠ ipToBigInt? a' := by
  have hseg : ∀ k segs s cidr, sampleAssignParams.networkSegments.get? k = some segs →
      segs.get? s = some cidr → k = "mesh" ∧ cidr = "10.9.0.0/24".toList := by
    intro k segs s cidr hk hs
    simp only [sampleAssignParams, Map.get?_set, Map.get?_empty, Option.ite_none_right_eq_some,
      Option.some.injEq] at hk
    obtain ⟨rfl, rfl⟩ := hk
    simp only [Map.get?_set, Map.get?_empty, Option.ite_none_right_eq_some,
      Option.some.injEq] at hs
    exact ⟨rfl, hs.2.symm⟩
  have adm : Admissible sampleAssignParams := by
    refine ⟨by decide, by decide, ?_, ?_, ?_, by simp [sampleAssignParams]⟩
    · intro k segs s cidr hk hs
      rw [(hseg k segs s cidr hk hs).2]
      exact ⟨⟨.v4, 10 * 2 ^ 24 + 9 * 2 ^ 16, 24⟩, by decide, rfl⟩
    · intro k k' segs segs' s cidr cidr' hne hk hk' hs hs'
      exact absurd ((hseg k segs s cidr hk hs).1.trans (hseg k' segs' s cidr' hk' hs').1.symm) hne
    · intro r hr a ha
      obtain rfl : r = ⟨"web", 1, "s1", some "10.9.0.1/32".toList⟩ := by
        simpa [sampleAssignParams] using hr
      obtain rfl : "10.9.0.1".toList = a := by
        rw [show normalizeAddress (some "10.9.0.1/32".toList) = some "10.9.0.1".toList from
          by decide] at ha
        exact Option.some.inj ha
      decide
  exact ⟨adm, by decide, (slot_addresses Collation.codePoint adm).1⟩

end TurboPanel.Schedule
