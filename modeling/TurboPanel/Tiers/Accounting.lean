import TurboPanel.Tiers.Coverage

/-!
# The counts of a tier agree

Three gates count the seats of a tier: the walk over the servers says what is spare and who is
uncovered, the closed form of `freeAtTier` is asked before a seat is assigned, and `coverageLoss`
before seats are given up. They agree (`tier_accounting`), for quantities of every sign and however
many servers hold the tier.
-/

namespace TurboPanel.Tiers.Coverage

open Js Allotment List

/-! ## Spare seats -/

/-- The tier has an entry with seats. -/
def HasSeats (quantities : List TierQuantity) (tierId : TierId) : Prop :=
  ∃ entry ∈ quantities, entry.tierId = tierId ∧ 0 < entry.quantity

theorem get?_spareOf {quantities : List TierQuantity} {tierId : TierId} (h : HasSeats quantities tierId)
    (left : Map TierId ℤ) (reserved : Map TierId ℕ) : (spareOf quantities left reserved).get? tierId =
      some (max 0 (countAt left tierId - (reserved.get? tierId).getD 0)) := by
  unfold spareOf
  induction quantities using List.reverseRecOn with
  | nil =>
    obtain ⟨entry, hentry, -⟩ := h
    cases hentry
  | append_singleton quantities last ih =>
    rw [foldl_append, foldl_cons, foldl_nil]
    by_cases hlast : last.tierId = tierId ∧ 0 < last.quantity
    · obtain ⟨rfl, hpos⟩ := hlast
      rw [if_pos hpos, Map.get?_set, if_pos rfl]
    · have hrest : HasSeats quantities tierId := by
        obtain ⟨entry, hentry, htier, hpos⟩ := h
        obtain hentry | hentry := mem_append.1 hentry
        · exact ⟨entry, hentry, htier, hpos⟩
        · obtain rfl := mem_singleton.1 hentry
          exact absurd ⟨htier, hpos⟩ hlast
      split
      · rename_i hpos
        rw [Map.get?_set_of_ne fun he => hlast ⟨he.symm, hpos⟩]
        exact ih hrest
      · exact ih hrest

/-- The servers that hold the tier, in bind order. -/
def holders (c : Collation) (servers : List AssignableServer) (tierId : TierId) : List AssignableServer :=
  (sortByBindOrder c servers).filter fun server => decide (server.assignedTierId = some tierId)

theorem freeAtTier_eq (c : Collation) (quantities : List TierQuantity) (servers : List AssignableServer)
    (tierId : TierId) (reserved : Map TierId ℕ) : freeAtTier quantities servers tierId none reserved =
      boughtAt quantities tierId - (holders c servers tierId).length - (reserved.get? tierId).getD 0 := by
  have hperm := ((sortByBindOrder_perm c servers).filter fun server =>
    decide (server.assignedTierId = some tierId)).length_eq
  unfold freeAtTier holders
  rw [hperm]
  simp

/-- **What is spare is what is free.** -/
theorem spare_eq_freeAtTier (c : Collation) {quantities : List TierQuantity} (servers : List AssignableServer)
    (reserved : Map TierId ℕ) {tierId : TierId} (h : HasSeats quantities tierId) :
    (readAssignment c quantities servers reserved).spare.get? tierId =
      some (max 0 (freeAtTier quantities servers tierId none reserved)) := by
  obtain ⟨⟨left, hleft, hspare⟩, -⟩ := readAssignment_eq c quantities servers reserved
  have hseats := seatsAt_eq quantities tierId
  rw [hspare, get?_spareOf h, hleft tierId, leftover_eq, freeAtTier_eq c, ← hseats, countP_eq_length_filter]
  change some (max 0 (((seatsAt quantities tierId - (holders c servers tierId).length : ℕ) : ℤ) - _)) = _
  congr 1
  omega

/-! ## Uncovered servers -/

theorem filter_mem_drop {α : Type*} [DecidableEq α] {l : List α} (h : l.Nodup) (n : ℕ) :
    l.filter (fun a => decide (a ∈ l.drop n)) = l.drop n := by
  conv_lhs => rw [← take_append_drop n l]
  have hdisjoint : (l.take n).Disjoint (l.drop n) := by
    rw [← take_append_drop n l] at h
    exact disjoint_of_nodup_append h
  rw [filter_append, filter_eq_nil_iff.2, nil_append, filter_eq_self.2]
  · intro a ha
    rw [take_append_drop]
    exact decide_eq_true ha
  · intro a ha
    rw [take_append_drop, decide_eq_true_eq]
    exact hdisjoint ha

section

variable {c : Collation} {quantities : List TierQuantity} {servers : List AssignableServer}
  {reserved : Map TierId ℕ}

section

variable (hids : (servers.map (·.serverId)).Nodup)
include hids

theorem mem_uncovered_iff {server : AssignableServer}
    (hserver : server ∈ sortByBindOrder c servers) :
    server.serverId ∈ (readAssignment c quantities servers reserved).uncovered ↔
      server ∈ unserved AssignableServer.assignedTierId (seatsAt quantities) (sortByBindOrder c servers) := by
  have hsorted : ((sortByBindOrder c servers).map (·.serverId)).Nodup :=
    ((sortByBindOrder_perm c servers).map _).nodup_iff.2 hids
  rw [(readAssignment_eq c quantities servers reserved).2]
  constructor
  · intro h
    obtain ⟨other, hother, hid⟩ := mem_map.1 h
    have hmem := (unserved_sublist _ (seatsAt quantities)).subset hother
    rwa [inj_on_of_nodup_map hsorted hmem hserver hid] at hother
  · exact fun h => mem_map.2 ⟨server, h, rfl⟩

/-- **The uncovered holders of a tier are the last ones**, from the number of its seats on. -/
theorem uncovered_holders (tierId : TierId) : (holders c servers tierId).filter (fun server =>
        decide (server.serverId ∈ (readAssignment c quantities servers reserved).uncovered)) =
      (holders c servers tierId).drop (seatsAt quantities tierId) := by
  have hholders : (holders c servers tierId).Nodup :=
    ((sortByBindOrder_perm c servers).nodup_iff.2 (List.Nodup.of_map _ hids)).filter _
  have hlast : (unserved AssignableServer.assignedTierId (seatsAt quantities) (sortByBindOrder c servers)).filter
      (fun server => decide (server.assignedTierId = some tierId)) =
        (holders c servers tierId).drop (seatsAt quantities tierId) := filter_unserved tierId _ _
  conv_rhs => rw [← filter_mem_drop hholders (seatsAt quantities tierId)]
  refine filter_congr fun server hserver => ?_
  obtain ⟨hmem, htier⟩ := mem_filter.1 hserver
  rw [decide_eq_decide, mem_uncovered_iff hids hmem, ← hlast, mem_filter]
  exact (and_iff_left htier).symm

theorem length_uncovered_holders (tierId : TierId) :
    (((holders c servers tierId).filter fun server =>
        decide (server.serverId ∈ (readAssignment c quantities servers reserved).uncovered)).length : ℤ) =
      max 0 ((holders c servers tierId).length - boughtAt quantities tierId) := by
  have hseats := seatsAt_eq quantities tierId
  rw [uncovered_holders hids, length_drop]
  omega

end

theorem uncovered_subset {proposed : List TierQuantity}
    (hle : ∀ tierId, boughtAt quantities tierId ≤ boughtAt proposed tierId) {reserved' : Map TierId ℕ}
    {serverId : String} (h : serverId ∈ (readAssignment c proposed servers reserved').uncovered) :
    serverId ∈ (readAssignment c quantities servers reserved).uncovered := by
  rw [(readAssignment_eq c proposed servers reserved').2] at h
  rw [(readAssignment_eq c quantities servers reserved).2]
  obtain ⟨server, hserver, rfl⟩ := mem_map.1 h
  refine mem_map.2 ⟨server, unserved_subset (fun tierId => ?_) hserver, rfl⟩
  exact Int.toNat_le_toNat (hle tierId)

/-- **More seats lose nobody.** -/
theorem coverageLoss_eq_none {proposed : List TierQuantity}
    (hle : ∀ tierId, boughtAt quantities tierId ≤ boughtAt proposed tierId) :
    coverageLoss c quantities proposed servers servers = none := by
  unfold coverageLoss
  rw [Option.map_eq_none_iff, find?_eq_none]
  intro serverId h
  simpa using uncovered_subset hle h

end

/-- **Tier accounting agrees.** The spare seats of a tier are its free seats, the uncovered holders
of a tier are the last ones in bind order and as many as seats are missing, and a mix with as many
seats of each tier or more loses nobody. -/
theorem tier_accounting (c : Collation) (quantities : List TierQuantity) {servers : List AssignableServer}
    (reserved : Map TierId ℕ) (hids : (servers.map (·.serverId)).Nodup) :
    (∀ tierId, HasSeats quantities tierId → (readAssignment c quantities servers reserved).spare.get? tierId =
        some (max 0 (freeAtTier quantities servers tierId none reserved))) ∧
    (∀ tierId,
      (((holders c servers tierId).filter fun server =>
          decide (server.serverId ∈ (readAssignment c quantities servers reserved).uncovered)).length : ℤ) =
        max 0 ((holders c servers tierId).length - boughtAt quantities tierId) ∧
      (holders c servers tierId).filter (fun server =>
          decide (server.serverId ∈ (readAssignment c quantities servers reserved).uncovered)) =
        (holders c servers tierId).drop (seatsAt quantities tierId)) ∧
    ∀ proposed : List TierQuantity, (∀ tierId, boughtAt quantities tierId ≤ boughtAt proposed tierId) →
      coverageLoss c quantities proposed servers servers = none :=
  ⟨fun _ h => spare_eq_freeAtTier c servers reserved h,
    fun tierId => ⟨length_uncovered_holders hids tierId, uncovered_holders hids tierId⟩,
    fun _ hle => coverageLoss_eq_none hle⟩

/-- A server that holds the first tier. -/
def firstTierServer (serverId boundAt : String) : AssignableServer := ⟨serverId, some 0, none, none, boundAt⟩

theorem tier_accounting_two_holders :
    coverageLoss Collation.codePoint [⟨0, 1, 1⟩, ⟨0, 1, -1⟩] [⟨0, 1, 1⟩]
      [firstTierServer "a" "2026-01-02", firstTierServer "b" "2026-01-01"]
      [firstTierServer "a" "2026-01-02", firstTierServer "b" "2026-01-01"] = none := by
  refine (tier_accounting Collation.codePoint [⟨0, 1, 1⟩, ⟨0, 1, -1⟩] Map.empty (by decide)).2.2 _ fun tierId => ?_
  unfold boughtAt
  by_cases h : 0 = tierId
  · subst h
    decide
  · simp [h]

/-- What the entries of a tier add up to, those with a negative quantity included. -/
def plainTotal (quantities : List TierQuantity) (tierId : TierId) : ℤ :=
  ((quantities.filter fun entry => decide (entry.tierId = tierId)).map (·.quantity)).sum

/-- A negative entry takes no seat away: with plain totals a mix of as many seats can lose a server.
-/
theorem plain_totals_lose_server :
    (∀ tierId, plainTotal [⟨0, 1, 1⟩, ⟨0, 1, -1⟩] tierId ≤ plainTotal [] tierId) ∧
      coverageLoss Collation.codePoint [⟨0, 1, 1⟩, ⟨0, 1, -1⟩] [] [firstTierServer "a" "2026-01-02"]
        [firstTierServer "a" "2026-01-02"] = some ("a", 1) := by
  refine ⟨fun tierId => ?_, by decide⟩
  by_cases h : 0 = tierId
  · subst h
    decide
  · simp [plainTotal, h]

end TurboPanel.Tiers.Coverage
