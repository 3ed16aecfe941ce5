import TurboPanel.Net.PrivateEndpoint

/-!
# What the private-path ladder keeps to

An address on a datacenter network is a pin of the target on a trusted network of both servers, in a
family that the source has there too (`pinAddressForDatacenter_eq_some`). A network whose link is
down is only used when no trusted network that is up has a common family, a trusted LAN pair has no
tunnel, and replication that can fail over never takes the public address (`private_path_ladder`).
The pair rule is symmetric because the partition is (`partition_comm`): both directions sort the
same ids by a comparison that tells them apart.
-/

namespace TurboPanel.Net

open Js Ip List

/-! ## Pins -/

/-- A pin of the network that has the family. -/
def HasFamily (pins : List DatacenterMembershipRow) (datacenterId : String)
    (family : IpAddressVersion) : Prop :=
  ∃ pin ∈ pins, pin.datacenterId = datacenterId ∧ pin.family = family

theorem mem_familiesInDatacenter {pins : List DatacenterMembershipRow} {datacenterId : String}
    {family : IpAddressVersion} :
    family ∈ familiesInDatacenter pins datacenterId ↔ HasFamily pins datacenterId family := by
  simp [familiesInDatacenter, mem_foldl_setAdd, HasFamily, and_assoc]

theorem DatacenterMembershipRow.address_ne (pin : DatacenterMembershipRow) : pin.address ≠ "" := by
  intro h
  have := pin.family_eq
  rw [h] at this
  exact absurd this (by cases pin.family <;> decide)

theorem DatacenterMembershipRow.contains_colon (pin : DatacenterMembershipRow) :
    pin.address.toList.contains ':' = true ↔ pin.family = .v6 := by
  have hfamily := pin.family_eq
  rw [contains_iff_mem]
  cases hf : pin.family with
  | v4 =>
    rw [hf] at hfamily
    simpa using colon_not_mem_of_v4 hfamily
  | v6 =>
    rw [hf] at hfamily
    simpa using colon_mem_of_v6 hfamily

theorem mem_preferredFamilyOrder (preference : DatacenterAddressPreference)
    (family : IpAddressVersion) : family ∈ preferredFamilyOrder preference := by
  cases preference <;> cases family <;> decide

section Pins

variable {fromPins toPins : List DatacenterMembershipRow} {datacenterId : String}
  {preference : DatacenterAddressPreference}

/-- **The address is a pin of the target** in the network, in a family the source has there. -/
theorem pinAddressForDatacenter_eq_some {address : String}
    (h : pinAddressForDatacenter fromPins toPins datacenterId preference = some address) :
    ∃ pin ∈ toPins, pin.address = address ∧ pin.datacenterId = datacenterId ∧
      HasFamily fromPins datacenterId pin.family := by
  obtain ⟨family, -, hfamily⟩ := exists_of_findSome?_eq_some h
  split_ifs at hfamily with hmem
  rw [mem_filter, mem_familiesInDatacenter] at hmem
  obtain ⟨haddress, -⟩ := Option.filter_eq_some_iff.1 hfamily
  obtain ⟨pin, hfind, rfl⟩ := Option.map_eq_some_iff.1 haddress
  obtain ⟨hdc, hpin⟩ : pin.datacenterId = datacenterId ∧ pin.family = family := by
    simpa using find?_some hfind
  exact ⟨pin, mem_of_find?_eq_some hfind, rfl, hdc, hpin ▸ hmem.1⟩

theorem exists_pinAddress {family : IpAddressVersion} (hfrom : HasFamily fromPins datacenterId family)
    (hto : HasFamily toPins datacenterId family) :
    ∃ address, pinAddressForDatacenter fromPins toPins datacenterId preference = some address := by
  rw [← Option.isSome_iff_exists, pinAddressForDatacenter, findSome?_isSome_iff]
  refine ⟨family, mem_preferredFamilyOrder preference family, ?_⟩
  have hmem : family ∈ (familiesInDatacenter fromPins datacenterId).filter
      fun family => family ∈ familiesInDatacenter toPins datacenterId := by
    simpa [mem_familiesInDatacenter] using ⟨hfrom, hto⟩
  rw [if_neg (not_not.2 hmem)]
  obtain ⟨pin, hpin, hdc, hfamily⟩ := hto
  cases hfind : toPins.find? fun row => row.datacenterId = datacenterId ∧ row.family = family with
  | none => exact absurd (find?_eq_none.1 hfind pin hpin) (by simp [hdc, hfamily])
  | some row => rw [Option.map_some, truthyString_some row.address_ne, Option.isSome_some]

theorem truthy_pinAddress :
    truthyString (pinAddressForDatacenter fromPins toPins datacenterId preference) =
      pinAddressForDatacenter fromPins toPins datacenterId preference := by
  cases h : pinAddressForDatacenter fromPins toPins datacenterId preference with
  | none => rfl
  | some address =>
    obtain ⟨pin, -, rfl, -⟩ := pinAddressForDatacenter_eq_some h
    exact truthyString_some pin.address_ne

theorem exists_ipv4_pinAddress_iff (hfrom : HasFamily fromPins datacenterId .v4) :
    (∃ address, pinAddressForDatacenter fromPins toPins datacenterId .ipv4 = some address ∧
      address.toList.contains ':' = false) ↔ HasFamily toPins datacenterId .v4 := by
  constructor
  · rintro ⟨address, haddress, hcolon⟩
    obtain ⟨pin, hpin, rfl, hdc, -⟩ := pinAddressForDatacenter_eq_some haddress
    refine ⟨pin, hpin, hdc, ?_⟩
    cases hf : pin.family with
    | v4 => rfl
    | v6 =>
      rw [pin.contains_colon.2 hf] at hcolon
      cases hcolon
  · rintro hto
    have hmem : .v4 ∈ (familiesInDatacenter fromPins datacenterId).filter
        fun family => family ∈ familiesInDatacenter toPins datacenterId := by
      simpa [mem_familiesInDatacenter] using ⟨hfrom, hto⟩
    obtain ⟨pin, hpin, hdc, hfamily⟩ := hto
    cases hfind : toPins.find? fun row => row.datacenterId = datacenterId ∧ row.family = .v4 with
    | none => exact absurd (find?_eq_none.1 hfind pin hpin) (by simp [hdc, hfamily])
    | some row =>
      obtain ⟨-, hrow⟩ : row.datacenterId = datacenterId ∧ row.family = .v4 := by
        simpa using find?_some hfind
      refine ⟨row.address, ?_, ?_⟩
      · rw [pinAddressForDatacenter, preferredFamilyOrder, findSome?_cons,
          if_neg (not_not.2 hmem), hfind, Option.map_some, truthyString_some row.address_ne]
      · rw [← Bool.not_eq_true, row.contains_colon, hrow]
        exact fun h => by cases h

end Pins

/-! ## The partition -/

section Partition

variable {collation : Collation} {policies : Map String DatacenterPolicyRow}
  {fromPins toPins : List DatacenterMembershipRow}

theorem mem_sharedDatacenterIds {id : String} : id ∈ sharedDatacenterIds collation fromPins toPins ↔
    (∃ pin ∈ fromPins, pin.datacenterId = id) ∧ ∃ pin ∈ toPins, pin.datacenterId = id := by
  rw [sharedDatacenterIds, (sortKeys_perm collation _).mem_iff, mem_foldl_setAdd]
  simp

theorem nodup_sharedDatacenterIds : (sharedDatacenterIds collation fromPins toPins).Nodup := by
  rw [sharedDatacenterIds, (sortKeys_perm collation _).nodup_iff]
  exact nodup_foldl_setAdd _ nodup_nil

theorem mem_trusted {id : String} :
    id ∈ (partitionSharedDatacenters collation policies fromPins toPins).trusted ↔
      ((∃ pin ∈ fromPins, pin.datacenterId = id) ∧ ∃ pin ∈ toPins, pin.datacenterId = id) ∧
        (policyFor policies id).trusted = true := by
  rw [partitionSharedDatacenters, (perm_insertionSort _ _).mem_iff, mem_filter,
    mem_sharedDatacenterIds]

theorem NotAfter.total (a b : String) :
    NotAfter collation policies a b ∨ NotAfter collation policies b a := by
  have hswap := collation.swap_compare a b
  unfold NotAfter
  rcases lt_trichotomy (policyFor policies a).priority (policyFor policies b).priority with h | h | h
  · exact .inl (.inl h)
  · by_cases hgt : collation.compare a b = .gt
    · refine .inr (.inr ⟨h.symm, ?_⟩)
      rw [← hswap, hgt]
      decide
    · exact .inl (.inr ⟨h, hgt⟩)
  · exact .inr (.inl h)

theorem NotAfter.trans {a b d : String} (h : NotAfter collation policies a b)
    (h' : NotAfter collation policies b d) : NotAfter collation policies a d := by
  unfold NotAfter at *
  rcases h with h | ⟨h, hc⟩ <;> rcases h' with h' | ⟨h', hc'⟩
  · exact .inl (by omega)
  · exact .inl (by omega)
  · exact .inl (by omega)
  · exact .inr ⟨by omega, collation.trans_compare a b d hc hc'⟩

theorem NotAfter.compare_eq {a b : String} (h : NotAfter collation policies a b)
    (h' : NotAfter collation policies b a) : collation.compare a b = .eq := by
  have hswap := collation.swap_compare a b
  unfold NotAfter at *
  have hc : collation.compare a b ≠ .gt := by
    rcases h with h | ⟨-, hc⟩
    · rcases h' with h' | ⟨h', -⟩ <;> omega
    · exact hc
  have hc' : collation.compare b a ≠ .gt := by
    rcases h' with h' | ⟨-, hc'⟩
    · rcases h with h | ⟨h, -⟩ <;> omega
    · exact hc'
  cases hcmp : collation.compare a b with
  | eq => rfl
  | gt => exact absurd hcmp hc
  | lt =>
    rw [hcmp] at hswap
    exact absurd hswap.symm hc'

instance : Std.Total (NotAfter collation policies) := ⟨NotAfter.total⟩

instance : IsTrans String (NotAfter collation policies) := ⟨fun _ _ _ => NotAfter.trans⟩

theorem insertionSort_eq_of_perm {ids ids' : List String} (hperm : ids.Perm ids')
    (hdistinct : ∀ a ∈ ids, ∀ b ∈ ids', collation.compare a b = .eq → a = b) :
    ids.insertionSort (NotAfter collation policies) =
      ids'.insertionSort (NotAfter collation policies) := by
  refine @List.Perm.eq_of_pairwise _ (NotAfter collation policies) _ _ ?_
    (pairwise_insertionSort _ ids) (pairwise_insertionSort _ ids') ?_
  · intro a b ha hb hab hba
    exact hdistinct a ((perm_insertionSort _ ids).mem_iff.1 ha) b
      ((perm_insertionSort _ ids').mem_iff.1 hb) (hab.compare_eq hba)
  · exact (perm_insertionSort _ ids).trans (hperm.trans (perm_insertionSort _ ids').symm)

end Partition

section Symmetry

variable {collation : Collation} (caches : PrivatePathCaches collation) (a b : String)

theorem PrivatePathCaches.compare_eq {a b : String} {pin pin' : DatacenterMembershipRow}
    (h : pin ∈ caches.pins a) (h' : pin' ∈ caches.pins b)
    (heq : collation.compare pin.datacenterId pin'.datacenterId = .eq) :
    pin.datacenterId = pin'.datacenterId := by
  have hget : ∀ {s : String} {p : DatacenterMembershipRow}, p ∈ caches.pins s →
      ∃ pins, caches.membershipsByServer.get? s = some pins ∧ p ∈ pins := by
    intro s p hp
    rw [PrivatePathCaches.pins] at hp
    cases hs : caches.membershipsByServer.get? s with
    | none =>
      rw [hs] at hp
      cases hp
    | some pins =>
      rw [hs] at hp
      exact ⟨pins, rfl, hp⟩
  obtain ⟨pins, hpins, hmem⟩ := hget h
  obtain ⟨pins', hpins', hmem'⟩ := hget h'
  exact caches.datacenterIds_distinct hpins hpins' pin hmem pin' hmem' heq

/-- **Both directions of a pair have one partition.** -/
theorem partition_comm : caches.partition a b = caches.partition b a := by
  have hperm : (sharedDatacenterIds collation (caches.pins a) (caches.pins b)).Perm
      (sharedDatacenterIds collation (caches.pins b) (caches.pins a)) := by
    rw [perm_ext_iff_of_nodup nodup_sharedDatacenterIds nodup_sharedDatacenterIds]
    intro id
    rw [mem_sharedDatacenterIds, mem_sharedDatacenterIds, and_comm]
  have hdistinct : ∀ id ∈ sharedDatacenterIds collation (caches.pins a) (caches.pins b),
      ∀ id' ∈ sharedDatacenterIds collation (caches.pins b) (caches.pins a),
        collation.compare id id' = .eq → id = id' := by
    intro id hid id' hid' heq
    obtain ⟨⟨pin, hpin, rfl⟩, -⟩ := mem_sharedDatacenterIds.1 hid
    obtain ⟨⟨pin', hpin', rfl⟩, -⟩ := mem_sharedDatacenterIds.1 hid'
    exact caches.compare_eq hpin hpin' heq
  have hsort : ∀ p : String → Bool, ((sharedDatacenterIds collation (caches.pins a)
      (caches.pins b)).filter p).insertionSort (NotAfter collation caches.policiesByDatacenter) =
      ((sharedDatacenterIds collation (caches.pins b) (caches.pins a)).filter p).insertionSort
        (NotAfter collation caches.policiesByDatacenter) := fun p =>
    insertionSort_eq_of_perm (hperm.filter p) fun id hid id' hid' =>
      hdistinct id (mem_of_mem_filter hid) id' (mem_of_mem_filter hid')
  simp only [PrivatePathCaches.partition, partitionSharedDatacenters, hsort]

/-! ## Links -/

/-- Some pin of either server in the network is down. -/
def LinkDown (fromPins toPins : List DatacenterMembershipRow) (id : String) : Prop :=
  ∃ pin ∈ fromPins ++ toPins, pin.linkDown = true ∧ pin.datacenterId = id

theorem mem_available {trusted : List String} {fromPins toPins : List DatacenterMembershipRow}
    {id : String} : id ∈ (splitTrustedByLink trusted fromPins toPins).available ↔
      id ∈ trusted ∧ ¬LinkDown fromPins toPins id := by
  simp only [splitTrustedByLink, mem_filter, decide_eq_true_eq, mem_foldl_setAdd,
    not_mem_nil, false_or, mem_map, LinkDown, and_assoc]

theorem mem_down {trusted : List String} {fromPins toPins : List DatacenterMembershipRow}
    {id : String} : id ∈ (splitTrustedByLink trusted fromPins toPins).down ↔
      id ∈ trusted ∧ LinkDown fromPins toPins id := by
  simp only [splitTrustedByLink, mem_filter, decide_eq_true_eq, mem_foldl_setAdd,
    not_mem_nil, false_or, mem_map, LinkDown, and_assoc]

theorem splitTrustedByLink_comm (trusted : List String)
    (fromPins toPins : List DatacenterMembershipRow) :
    splitTrustedByLink trusted fromPins toPins = splitTrustedByLink trusted toPins fromPins := by
  have hdown : ∀ id, (id ∈ (((fromPins ++ toPins).filter (·.linkDown)).map
      (·.datacenterId)).foldl setAdd []) ↔ id ∈ (((toPins ++ fromPins).filter (·.linkDown)).map
        (·.datacenterId)).foldl setAdd [] := by
    intro id
    simp only [mem_foldl_setAdd, mem_map, mem_filter, mem_append, or_comm]
  simp only [splitTrustedByLink, hdown]

/-- The networks of a pair in the order in which they are tried. -/
def PrivatePathCaches.byLink : TrustedByLink :=
  splitTrustedByLink (caches.partition a b).trusted (caches.pins a) (caches.pins b)

theorem byLink_comm : caches.byLink a b = caches.byLink b a := by
  rw [PrivatePathCaches.byLink, PrivatePathCaches.byLink, partition_comm, splitTrustedByLink_comm]

/-! ## The pair rule -/

theorem findSome?_map_eq_find? {α β : Type} {f : α → Option β} {g : β → α} {p : α → Bool} :
    ∀ {l : List α}, (∀ x ∈ l, (f x).map g = if p x then some x else none) →
      (l.findSome? f).map g = l.find? p
  | [], _ => rfl
  | x :: l, h => by
    have hx := h x mem_cons_self
    have ih := findSome?_map_eq_find? fun y hy => h y (mem_cons_of_mem x hy)
    rw [findSome?_cons, find?_cons]
    cases hf : f x with
    | none =>
      rw [hf, Option.map_none] at hx
      cases hp : p x with
      | true => simp [hp] at hx
      | false => exact ih
    | some y =>
      rw [hf, Option.map_some] at hx
      cases hp : p x with
      | true => simpa [hp] using hx
      | false => simp [hp] at hx

theorem trustedLanIpv4_datacenterId : (trustedLanIpv4 caches a b).map (·.datacenterId) =
    ((caches.byLink a b).available ++ (caches.byLink a b).down).find? fun id =>
      .v4 ∈ familiesInDatacenter (caches.pins a) id ∧
        .v4 ∈ familiesInDatacenter (caches.pins b) id := by
  refine findSome?_map_eq_find? fun id _ => ?_
  rw [truthy_pinAddress]
  by_cases hfrom : .v4 ∈ familiesInDatacenter (caches.pins a) id
  · have hiff := @exists_ipv4_pinAddress_iff (caches.pins a) (caches.pins b) id
      (mem_familiesInDatacenter.1 hfrom)
    rw [if_neg (not_not.2 hfrom)]
    by_cases hto : .v4 ∈ familiesInDatacenter (caches.pins b) id
    · obtain ⟨address, haddress, hcolon⟩ := hiff.2 (mem_familiesInDatacenter.1 hto)
      rw [if_pos (by simpa using ⟨hfrom, hto⟩)]
      simp only [haddress, hcolon, Bool.false_eq_true, if_false, Option.map_some]
    · rw [if_neg (by simpa using fun _ => hto)]
      cases haddress : pinAddressForDatacenter (caches.pins a) (caches.pins b) id .ipv4 with
      | none => rfl
      | some address =>
        have hcolon : address.toList.contains ':' = true := by
          rw [← Bool.not_eq_false]
          exact fun hc => hto (mem_familiesInDatacenter.2 (hiff.1 ⟨address, haddress, hc⟩))
        simp only [hcolon, if_true, Option.map_none]
  · rw [if_pos hfrom, if_neg (by simpa using fun h => absurd h hfrom)]
    rfl

theorem trustedLanIpv4_comm : (trustedLanIpv4 caches a b).map (·.datacenterId) =
    (trustedLanIpv4 caches b a).map (·.datacenterId) := by
  rw [trustedLanIpv4_datacenterId, trustedLanIpv4_datacenterId, byLink_comm]
  simp only [and_comm]

theorem serversShareTrustedLan_iff : serversShareTrustedLan caches a b = true ↔
    a ≠ b ∧ a ∈ caches.lanRouteServerIds.getD [] ∧ b ∈ caches.lanRouteServerIds.getD [] ∧
      (caches.partition a b).trusted ≠ [] ∧ (trustedLanIpv4 caches a b).isSome ∧
        (trustedLanIpv4 caches b a).isSome := by
  rw [serversShareTrustedLan, beq_iff_eq, trustedLanBlocker]
  split_ifs <;> simp_all [Option.isSome_iff_ne_none]

theorem serversShareTrustedLan_comm :
    serversShareTrustedLan caches a b = serversShareTrustedLan caches b a := by
  have hshare : ∀ {a b : String}, serversShareTrustedLan caches a b = true →
      serversShareTrustedLan caches b a = true := by
    intro a b h
    obtain ⟨hne, ha, hb, htrusted, hto, hfrom⟩ := (serversShareTrustedLan_iff caches a b).1 h
    exact (serversShareTrustedLan_iff caches b a).2
      ⟨hne.symm, hb, ha, partition_comm caches a b ▸ htrusted, hfrom, hto⟩
  exact Bool.eq_iff_iff.2 ⟨hshare, hshare⟩

end Symmetry

/-! ## The rungs -/

section Rungs

variable {collation : Collation} {caches : PrivatePathCaches collation} {a b : String}

/-- An address that the datacenter rung may return for the network. -/
def IsPinAddress (caches : PrivatePathCaches collation) (a b id address : String) : Prop :=
  ∃ pin ∈ caches.pins b, pin.address = address ∧ pin.datacenterId = id ∧
    HasFamily (caches.pins a) id pin.family

/-- Both servers have an address of one family in the network. -/
def CommonFamily (caches : PrivatePathCaches collation) (a b id : String) : Prop :=
  ∃ family, HasFamily (caches.pins a) id family ∧ HasFamily (caches.pins b) id family

theorem resolveDatacenterLoop_cases {ids : List String} {mismatch : Option String}
    (hids : ∀ id ∈ ids, id ≠ "") (hmismatch : mismatch ≠ some "") :
    (∃ id ∈ ids, ∃ address, IsPinAddress caches a b id address ∧
        resolveDatacenterLoop caches a b ids mismatch =
          some (.ok { address, transport := .datacenter, datacenterId := some id })) ∨
      (∀ id ∈ ids, ¬CommonFamily caches a b id) ∧
        ((∃ err, resolveDatacenterLoop caches a b ids mismatch = some (.error err)) ∨
          ids = [] ∧ mismatch = none ∧ resolveDatacenterLoop caches a b ids mismatch = none) := by
  induction ids generalizing mismatch with
  | nil =>
    refine .inr ⟨by simp, ?_⟩
    cases mismatch with
    | none => exact .inr ⟨rfl, rfl, rfl⟩
    | some id =>
      have hid : id ≠ "" := fun h => hmismatch (by rw [h])
      refine .inl ⟨.privateFamilyMismatch a b id, ?_⟩
      rw [resolveDatacenterLoop, truthyString_some hid]
      rfl
  | cons id ids ih =>
    rw [resolveDatacenterLoop, truthy_pinAddress]
    cases haddress : pinAddressForDatacenter (caches.pins a) (caches.pins b) id
        (policyFor caches.policiesByDatacenter id).addressPreference with
    | some address =>
      exact .inl ⟨id, mem_cons_self, address, pinAddressForDatacenter_eq_some haddress, rfl⟩
    | none =>
      have hnone : ¬CommonFamily caches a b id := by
        rintro ⟨family, hfrom, hto⟩
        obtain ⟨address, hsome⟩ := @exists_pinAddress _ _ _
          (policyFor caches.policiesByDatacenter id).addressPreference _ hfrom hto
        rw [haddress] at hsome
        cases hsome
      have hmismatch' : (mismatch.orElse fun _ => some id) ≠ some "" := by
        cases mismatch with
        | none => exact fun h => hids id mem_cons_self (Option.some.inj h)
        | some first => exact hmismatch
      rcases ih (fun x hx => hids x (mem_cons_of_mem id hx)) hmismatch' with
        ⟨x, hx, address, hpin, heq⟩ | ⟨hall, hrest⟩
      · exact .inl ⟨x, mem_cons_of_mem id hx, address, hpin, heq⟩
      · refine .inr ⟨fun x hx => ?_, .inl ?_⟩
        · rcases mem_cons.1 hx with rfl | hx
          · exact hnone
          · exact hall x hx
        · rcases hrest with herr | ⟨-, hm, -⟩
          · exact herr
          · cases mismatch with
            | none => cases hm
            | some first => cases hm

theorem ne_of_mem_trusted {id : String} (h : id ∈ (caches.partition a b).trusted) : id ≠ "" := by
  obtain ⟨⟨⟨pin, -, rfl⟩, -⟩, -⟩ := mem_trusted.1 h
  exact pin.datacenterId_ne

/-- The result of trying networks. -/
inductive Tried (caches : PrivatePathCaches collation) (a b : String) (ids : List String) :
    Resolution → Prop
  | found {id address : String} (mem : id ∈ ids) (pin : IsPinAddress caches a b id address) :
      Tried caches a b ids
        (some (.ok { address, transport := .datacenter, datacenterId := some id }))
  | mismatch {err : PrivateEndpointError} (none_common : ∀ id ∈ ids, ¬CommonFamily caches a b id) :
      Tried caches a b ids (some (.error err))
  | nothing (empty : ids = []) : Tried caches a b ids none

theorem tried_resolveDatacenterFromCaches {ids : List String} (hids : ∀ id ∈ ids, id ≠ "") :
    Tried caches a b ids (resolveDatacenterFromCaches caches a b ids) := by
  rw [resolveDatacenterFromCaches]
  rcases @resolveDatacenterLoop_cases _ caches a b ids none hids (by simp) with
    ⟨id, hid, address, hpin, heq⟩ | ⟨hall, ⟨err, heq⟩ | ⟨hnil, -, heq⟩⟩
  · rw [heq]
    exact .found hid hpin
  · rw [heq]
    exact .mismatch hall
  · rw [heq]
    exact .nothing hnil

theorem tried_available : Tried caches a b (caches.byLink a b).available
    (resolveDatacenterFromCaches caches a b (caches.byLink a b).available) :=
  tried_resolveDatacenterFromCaches fun _ hid => ne_of_mem_trusted (mem_available.1 hid).1

theorem tried_down : Tried caches a b (caches.byLink a b).down
    (resolveDatacenterFromCaches caches a b (caches.byLink a b).down) :=
  tried_resolveDatacenterFromCaches fun _ hid => ne_of_mem_trusted (mem_down.1 hid).1

theorem rungLastResort_cases :
    (∃ id ∈ (caches.byLink a b).down, ∃ address, IsPinAddress caches a b id address ∧
        rungLastResort (resolveDatacenterFromCaches caches a b) (caches.byLink a b) =
          some (.ok { address, transport := .datacenter, datacenterId := some id
                      linkDown := true })) ∨
      (∃ err, rungLastResort (resolveDatacenterFromCaches caches a b) (caches.byLink a b) =
        some (.error err)) ∨
      (caches.byLink a b).down = [] ∧
        rungLastResort (resolveDatacenterFromCaches caches a b) (caches.byLink a b) = none := by
  have htried := @tried_down _ caches a b
  rw [rungLastResort]
  generalize resolveDatacenterFromCaches caches a b (caches.byLink a b).down = r at htried ⊢
  cases htried with
  | found hmem hpin => exact .inl ⟨_, hmem, _, hpin, rfl⟩
  | mismatch => exact .inr (.inl ⟨_, rfl⟩)
  | nothing hnil => exact .inr (.inr ⟨hnil, rfl⟩)

theorem rungPreferred_cases :
    (∃ id ∈ (caches.byLink a b).available, ∃ address, IsPinAddress caches a b id address ∧
        rungPreferred (resolveDatacenterFromCaches caches a b) (caches.byLink a b) =
          some (.ok { address, transport := .datacenter, datacenterId := some id })) ∨
      (∃ id ∈ (caches.byLink a b).down, ∃ address, IsPinAddress caches a b id address ∧
        (∀ up ∈ (caches.byLink a b).available, ¬CommonFamily caches a b up) ∧
        rungPreferred (resolveDatacenterFromCaches caches a b) (caches.byLink a b) =
          some (.ok { address, transport := .datacenter, datacenterId := some id
                      linkDown := true })) ∨
      (∃ err, rungPreferred (resolveDatacenterFromCaches caches a b) (caches.byLink a b) =
        some (.error err)) ∨
      (caches.byLink a b).available = [] ∧
        rungPreferred (resolveDatacenterFromCaches caches a b) (caches.byLink a b) = none := by
  have htried := @tried_available _ caches a b
  rw [rungPreferred]
  generalize resolveDatacenterFromCaches caches a b (caches.byLink a b).available = r at htried ⊢
  cases htried with
  | found hmem hpin => exact .inl ⟨_, hmem, _, hpin, rfl⟩
  | mismatch hnone =>
    refine .inr ?_
    dsimp only
    rcases @rungLastResort_cases _ caches a b with ⟨id, hid, address, hpin, heq⟩ | ⟨err, heq⟩ | ⟨-, heq⟩
    · rw [heq]
      exact .inl ⟨id, hid, address, hpin, hnone, rfl⟩
    · rw [heq]
      exact .inr (.inl ⟨_, rfl⟩)
    · rw [heq]
      exact .inr (.inl ⟨_, rfl⟩)
  | nothing hnil => exact .inr (.inr (.inr ⟨hnil, rfl⟩))

theorem trusted_eq_nil (hup : (caches.byLink a b).available = [])
    (hdown : (caches.byLink a b).down = []) : (caches.partition a b).trusted = [] := by
  rw [eq_nil_iff_forall_not_mem]
  intro id hid
  by_cases hlink : LinkDown (caches.pins a) (caches.pins b) id
  · have : id ∈ (caches.byLink a b).down := mem_down.2 ⟨hid, hlink⟩
    rw [hdown] at this
    cases this
  · have : id ∈ (caches.byLink a b).available := mem_available.2 ⟨hid, hlink⟩
    rw [hup] at this
    cases this

theorem resolveFabricFromCaches_eq_some {parseDate : String → Option ℤ} {allow : Bool}
    {e : ResolvedPrivateEndpoint} (h : resolveFabricFromCaches caches parseDate a b allow = some e) :
    ∃ row tunnelDown, e = fabricEndpoint row tunnelDown := by
  unfold resolveFabricFromCaches at h
  dsimp only at h
  split at h
  · exact ⟨_, false, (Option.some.inj h).symm⟩
  · split_ifs at h
    obtain ⟨row, -, rfl⟩ := Option.map_eq_some_iff.1 h
    exact ⟨row, true, rfl⟩

end Rungs

/-! ## The ladder -/

section Ladder

variable {collation : Collation} {caches : PrivatePathCaches collation} {a b : String}
  {purpose : PrivateEndpointPurpose}

/-- The endpoints that the ladder returns for a pair of different servers. -/
inductive LadderOutcome (caches : PrivatePathCaches collation) (a b : String)
    (purpose : PrivateEndpointPurpose) : ResolvedPrivateEndpoint → Prop
  | up {id address : String} (mem : id ∈ (caches.byLink a b).available)
      (pin : IsPinAddress caches a b id address) : LadderOutcome caches a b purpose
        { address, transport := .datacenter, datacenterId := some id }
  | down {id address : String} (mem : id ∈ (caches.byLink a b).down)
      (pin : IsPinAddress caches a b id address)
      (none_up : ∀ up ∈ (caches.byLink a b).available, ¬CommonFamily caches a b up) :
      LadderOutcome caches a b purpose
        { address, transport := .datacenter, datacenterId := some id, linkDown := true }
  | fabric (row : RelayJoinRow) (tunnelDown : Bool)
      (unshared : serversShareTrustedLan caches a b = false) :
      LadderOutcome caches a b purpose (fabricEndpoint row tunnelDown)
  | publicHost (address : String) (other : purpose ≠ .failoverReplication) :
      LadderOutcome caches a b purpose (publicEndpoint address (caches.partition a b))

/-- **Every endpoint of a pair is one of these.** -/
theorem ladderOutcome {parseDate : String → Option ℤ} {e : ResolvedPrivateEndpoint} (hne : a ≠ b)
    (h : resolveOneFromCaches caches parseDate a b purpose = .ok e) :
    LadderOutcome caches a b purpose e := by
  unfold resolveOneFromCaches at h
  rw [if_neg hne] at h
  dsimp only at h
  have hbyLink : splitTrustedByLink (caches.partition a b).trusted (caches.pins a) (caches.pins b) =
      caches.byLink a b := rfl
  rw [hbyLink] at h
  rcases @rungPreferred_cases _ caches a b with ⟨id, hid, address, hpin, heq⟩ |
    ⟨id, hid, address, hpin, hnone, heq⟩ | ⟨err, heq⟩ | ⟨hup, heq⟩
  · rw [heq] at h
    cases h
    exact .up hid hpin
  · rw [heq] at h
    cases h
    exact .down hid hpin hnone
  · rw [heq] at h
    cases h
  · rw [heq] at h
    dsimp only at h
    have hnone_up : ∀ up ∈ (caches.byLink a b).available, ¬CommonFamily caches a b up := by
      rw [hup]
      simp
    by_cases hpurpose : purpose = .failoverReplication
    · rw [if_pos hpurpose] at h
      rcases @rungLastResort_cases _ caches a b with ⟨id, hid, address, hpin, heq⟩ | ⟨err, heq⟩ |
        ⟨hdown, heq⟩
      · rw [heq] at h
        cases h
        exact .down hid hpin hnone_up
      · rw [heq] at h
        cases h
      · rw [heq] at h
        dsimp only at h
        -- without trusted networks there is no LAN pair
        have hunshared : serversShareTrustedLan caches a b = false := by
          rw [← Bool.not_eq_true, serversShareTrustedLan_iff]
          exact fun hshare => hshare.2.2.2.1 (trusted_eq_nil hup hdown)
        split at h
        · split at h
          · rename_i viaFabric hfabric
            cases h
            obtain ⟨row, tunnelDown, rfl⟩ := resolveFabricFromCaches_eq_some hfabric
            exact .fabric row tunnelDown hunshared
          · cases h
        · cases h
    · rw [if_neg hpurpose] at h
      split at h
      · rename_i viaFabric hfabric
        cases h
        split at hfabric
        · cases hfabric
        · rename_i hshare
          obtain ⟨row, tunnelDown, rfl⟩ := resolveFabricFromCaches_eq_some hfabric
          exact .fabric row tunnelDown (Bool.eq_false_iff.2 hshare)
      · split at h
        · cases h
          exact .publicHost _ hpurpose
        · rcases @rungLastResort_cases _ caches a b with ⟨id, hid, address, hpin, heq⟩ | ⟨err, heq⟩ |
            ⟨hdown, heq⟩
          · rw [heq] at h
            cases h
            exact .down hid hpin hnone_up
          · rw [heq] at h
            cases h
          · rw [heq] at h
            cases h

/-- **The private-path ladder.** For two different servers, every purpose and every caches: a
datacenter address is a pin of the target in a trusted network of both servers, in a family that the
source has there; replication that can fail over never gets the public address; a trusted LAN pair
never gets the fabric; a network whose link is down is used only when no trusted network of both
that is up has a common family. The pair rule is symmetric, and both directions pick one network. -/
theorem private_path_ladder (caches : PrivatePathCaches collation) (parseDate : String → Option ℤ)
    (a b : String) (purpose : PrivateEndpointPurpose) (hne : a ≠ b) :
    (∀ e, resolveOneFromCaches caches parseDate a b purpose = .ok e →
      (e.transport = .datacenter → ∃ id pin, e.datacenterId = some id ∧ pin ∈ caches.pins b ∧
        pin.address = e.address ∧ pin.datacenterId = id ∧
        (∃ own ∈ caches.pins a, own.datacenterId = id ∧ own.family = pin.family) ∧
        (policyFor caches.policiesByDatacenter id).trusted = true) ∧
      (purpose = .failoverReplication → e.transport ≠ .publicHost) ∧
      (serversShareTrustedLan caches a b = true → e.transport ≠ .fabric) ∧
      (e.linkDown = true → ∀ id, (policyFor caches.policiesByDatacenter id).trusted = true →
        (∀ pin ∈ caches.pins a ++ caches.pins b, pin.datacenterId = id → pin.linkDown = false) →
        ¬∃ own ∈ caches.pins a, ∃ pin ∈ caches.pins b,
          own.datacenterId = id ∧ pin.datacenterId = id ∧ own.family = pin.family)) ∧
    serversShareTrustedLan caches a b = serversShareTrustedLan caches b a ∧
    (trustedLanIpv4 caches a b).map (·.datacenterId) =
      (trustedLanIpv4 caches b a).map (·.datacenterId) := by
  refine ⟨fun e h => ?_, serversShareTrustedLan_comm caches a b, trustedLanIpv4_comm caches a b⟩
  have hpinned : ∀ {id address : String}, id ∈ (caches.partition a b).trusted →
      IsPinAddress caches a b id address → ∃ id' pin, some id = some id' ∧ pin ∈ caches.pins b ∧
        pin.address = address ∧ pin.datacenterId = id' ∧
        (∃ own ∈ caches.pins a, own.datacenterId = id' ∧ own.family = pin.family) ∧
        (policyFor caches.policiesByDatacenter id').trusted = true := by
    rintro id address hid ⟨pin, hpin, haddress, hdc, hfamily⟩
    exact ⟨id, pin, rfl, hpin, haddress, hdc, hfamily, (mem_trusted.1 hid).2⟩
  cases ladderOutcome hne h with
  | up hid hpin =>
    exact ⟨fun _ => hpinned (mem_available.1 hid).1 hpin, fun _ h => (by cases h),
      fun _ h => (by cases h), fun h => (by cases h)⟩
  | down hid hpin hnone =>
    refine ⟨fun _ => hpinned (mem_down.1 hid).1 hpin, fun _ h => (by cases h), fun _ h => (by cases h),
      fun _ id htrusted hup => ?_⟩
    rintro ⟨own, hown, pin, hpin, hdc, hdc', hfamily⟩
    have hmem : id ∈ (caches.byLink a b).available := by
      refine mem_available.2 ⟨mem_trusted.2 ⟨⟨⟨own, hown, hdc⟩, pin, hpin, hdc'⟩, htrusted⟩, ?_⟩
      rintro ⟨p, hp, hdown, hid⟩
      rw [hup p hp hid] at hdown
      cases hdown
    exact hnone id hmem ⟨own.family, ⟨own, hown, hdc, rfl⟩, ⟨pin, hpin, hdc', hfamily.symm⟩⟩
  | fabric row tunnelDown hunshared =>
    refine ⟨fun h => (by cases h), fun _ h => (by cases h), fun hshare => ?_, fun h => (by cases h)⟩
    rw [hunshared] at hshare
    cases hshare
  | publicHost address hother =>
    exact ⟨fun h => (by cases h), fun h => absurd h hother, fun _ h => (by cases h),
      fun h => (by cases h)⟩

/-- The IPv4 pin of a server in one datacenter. -/
def lanPin (serverId address : String) (h : parseIpVersion address.toList = some .v4) :
    DatacenterMembershipRow :=
  { serverId, datacenterId := "dc", address, family := .v4, linkDown := false
    datacenterId_ne := by simp
    family_eq := h }

def lanPins : Map String (List DatacenterMembershipRow) :=
  .ofEntries [("web", [lanPin "web" "10.0.0.1" rfl]), ("db", [lanPin "db" "10.0.0.2" rfl])]

theorem datacenterId_of_lanPins {server : String} {pins : List DatacenterMembershipRow}
    (h : lanPins.get? server = some pins) {pin : DatacenterMembershipRow} (hpin : pin ∈ pins) :
    pin.datacenterId = "dc" := by
  rw [lanPins, Map.get?_ofEntries (by simp)] at h
  simp only [mem_cons, Prod.mk.injEq, not_mem_nil, or_false] at h
  rcases h with ⟨-, rfl⟩ | ⟨-, rfl⟩ <;> obtain rfl := mem_singleton.1 hpin <;> rfl

def lanCaches : PrivatePathCaches .codePoint :=
  { membershipsByServer := lanPins
    relays := []
    policiesByDatacenter := .empty
    publicAddressesByServer := .ofEntries [("db", "192.0.2.1")]
    lanRouteServerIds := some ["web", "db"]
    connectedServerIds := none
    nowMs := 0
    datacenterIds_distinct := fun h h' _ hr _ hr' _ =>
      (datacenterId_of_lanPins h hr).trans (datacenterId_of_lanPins h' hr').symm }

theorem lan_pair_ladder :
    resolveOneFromCaches lanCaches (fun _ => none) "web" "db" .clientBackend =
        .ok { address := "10.0.0.2", transport := .datacenter, datacenterId := some "dc" } ∧
      (policyFor lanCaches.policiesByDatacenter "dc").trusted = true ∧
      serversShareTrustedLan lanCaches "web" "db" = serversShareTrustedLan lanCaches "db" "web" := by
  have h := private_path_ladder lanCaches (fun _ => none) "web" "db" .clientBackend (by decide)
  have hok : resolveOneFromCaches lanCaches (fun _ => none) "web" "db" .clientBackend =
      .ok { address := "10.0.0.2", transport := .datacenter, datacenterId := some "dc" } := rfl
  obtain ⟨id, pin, hid, -, -, -, -, htrusted⟩ := (h.1 _ hok).1 rfl
  cases hid
  exact ⟨hok, htrusted, h.2.1⟩

end Ladder

end TurboPanel.Net
