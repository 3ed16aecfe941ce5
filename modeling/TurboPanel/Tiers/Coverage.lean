import TurboPanel.Data.Allotment
import TurboPanel.Tiers.Assignment

/-!
# Which servers are covered

The reading half of `src/features/tiers/assignment.ts`: the servers take the purchased seats of
their tiers in the order in which they were bound, and those that find none are uncovered. The walk
is an allotment of seats (`readAssignment_eq`), so what is spare and who is uncovered have a closed
form.

Times and ids of servers are texts, compared by a `Collation`; a tier is known by its id alone.
-/

namespace TurboPanel.Tiers.Coverage

open Js Allotment List

/-! ## Servers in bind order -/

structure AssignableServer where
  serverId : String
  /-- The tier that a manager assigned. -/
  assignedTierId : Option TierId
  requiredRank : Option ℤ
  recommendedRank : Option ℤ
  boundAt : String
  deriving DecidableEq

/-- `ENTRY_TIER_RANK`. -/
def entryTierRank : ℤ := 1

/-- Oldest first, then by id. -/
def compareBound (c : Collation) (a b : AssignableServer) : Ordering :=
  match c.compare a.boundAt b.boundAt with
  | .eq => c.compare a.serverId b.serverId
  | o => o

def sortByBindOrder (c : Collation) (servers : List AssignableServer) : List AssignableServer :=
  servers.insertionSort fun a b => compareBound c a b ≠ .gt

variable (c : Collation) (quantities : List TierQuantity) (servers : List AssignableServer) (tierId : TierId)

theorem sortByBindOrder_perm :
    (sortByBindOrder c servers).Perm servers :=
  perm_insertionSort _ servers

/-! ## Reading the assignment -/

structure TierAssignment where
  byServer : Map String (Option TierId)
  spare : Map TierId ℤ
  uncovered : List String
  unassigned : List String

/-- `map.get(key) ?? 0`. -/
def countAt {κ : Type*} [DecidableEq κ] (m : Map κ ℤ) (key : κ) : ℤ := (m.get? key).getD 0

/-- The seats of each tier; a negative quantity is none. -/
def seatsOf (quantities : List TierQuantity) : Map TierId ℤ :=
  quantities.foldl (fun left entry => left.set entry.tierId (countAt left entry.tierId + max 0 entry.quantity))
    Map.empty

/-- What the walk over the servers has found so far. -/
structure Walk where
  left : Map TierId ℤ
  byServer : Map String (Option TierId)
  uncovered : List String
  unassigned : List String

def Walk.next (walk : Walk) (server : AssignableServer) : Walk :=
  let byServer := walk.byServer.set server.serverId server.assignedTierId
  match server.assignedTierId with
  | none =>
    { walk with
      byServer
      uncovered := walk.uncovered ++ [server.serverId]
      unassigned := walk.unassigned ++ [server.serverId] }
  | some held =>
    if 0 < countAt walk.left held then
      { walk with byServer, left := walk.left.set held (countAt walk.left held - 1) }
    else { walk with byServer, uncovered := walk.uncovered ++ [server.serverId] }

/-- The seats that nobody holds, for the tiers that were bought. -/
def spareOf (quantities : List TierQuantity) (left : Map TierId ℤ) (reserved : Map TierId ℕ) : Map TierId ℤ :=
  quantities.foldl (fun spare entry =>
    if 0 < entry.quantity then
      spare.set entry.tierId (max 0 (countAt left entry.tierId - (reserved.get? entry.tierId).getD 0))
    else spare) Map.empty

/-- The assignment that the managers made, against what was bought; `reserved` counts the unused
registration keys of each tier. -/
def readAssignment (c : Collation) (quantities : List TierQuantity) (servers : List AssignableServer)
    (reserved : Map TierId ℕ) : TierAssignment :=
  let walk := (sortByBindOrder c servers).foldl Walk.next ⟨seatsOf quantities, Map.empty, [], []⟩
  { byServer := walk.byServer
    spare := spareOf quantities walk.left reserved
    uncovered := walk.uncovered
    unassigned := walk.unassigned }

/-- The seats of the tier that no server other than this one holds, less those of the unused keys.
-/
def freeAtTier (quantities : List TierQuantity) (servers : List AssignableServer) (tierId : TierId)
    (exceptServerId : Option String) (reserved : Map TierId ℕ) : ℤ :=
  boughtAt quantities tierId -
      (servers.filter fun entry =>
        decide (entry.assignedTierId = some tierId) && decide (some entry.serverId ≠ exceptServerId)).length -
    (reserved.get? tierId).getD 0

/-- Would this mix leave a server uncovered that is covered today? The first such server, with the
rank of its tier. -/
def coverageLoss (c : Collation) (current proposed : List TierQuantity)
    (servers futureServers : List AssignableServer) : Option (String × ℤ) :=
  let before := (readAssignment c current servers Map.empty).uncovered
  let after := readAssignment c proposed futureServers Map.empty
  let rankOf := Map.ofEntries ((current ++ proposed).map fun entry => (entry.tierId, entry.rank))
  (after.uncovered.find? fun serverId => !before.contains serverId).map fun serverId =>
    let held := (futureServers.find? fun entry => decide (entry.serverId = serverId)).bind (·.assignedTierId)
    (serverId, (held.bind rankOf.get?).getD entryTierRank)

/-! ## The walk is an allotment -/

/-- The purchased seats of a tier, as a number. -/
def seatsAt (quantities : List TierQuantity) (tierId : TierId) : ℕ := (boughtAt quantities tierId).toNat

theorem boughtAt_nonneg : 0 ≤ boughtAt quantities tierId := by
  unfold boughtAt
  refine sum_nonneg fun n hn => ?_
  obtain ⟨entry, -, rfl⟩ := mem_map.1 hn
  exact le_max_left 0 entry.quantity

theorem seatsAt_eq :
    (seatsAt quantities tierId : ℤ) = boughtAt quantities tierId :=
  Int.toNat_of_nonneg (boughtAt_nonneg quantities tierId)

theorem countAt_set {κ : Type*} [DecidableEq κ] (m : Map κ ℤ) (key key' : κ) (v : ℤ) :
    countAt (m.set key v) key' = if key' = key then v else countAt m key' := by
  unfold countAt
  rw [Map.get?_set]
  split <;> rfl

theorem countAt_seatsOf :
    countAt (seatsOf quantities) tierId = boughtAt quantities tierId := by
  unfold seatsOf
  induction quantities using List.reverseRecOn with
  | nil => rfl
  | append_singleton quantities entry ih =>
    rw [foldl_append, foldl_cons, foldl_nil, countAt_set]
    unfold boughtAt at ih ⊢
    rw [filter_append, map_append, sum_append]
    by_cases h : tierId = entry.tierId
    · subst h
      rw [if_pos rfl, ih, filter_cons_of_pos (by simp), filter_nil, map_cons, map_nil,
        sum_singleton]
    · rw [if_neg h, ih, filter_cons_of_neg (by simpa using Ne.symm h), filter_nil, map_nil,
        sum_nil, add_zero]

/-- The map of the seats that are left has these numbers. -/
def Holds (left : Map TierId ℤ) (units : TierId → ℕ) : Prop := ∀ tierId, countAt left tierId = units tierId

theorem foldl_walk : ∀ (servers : List AssignableServer) (walk : Walk) (units : TierId → ℕ),
    Holds walk.left units →
      Holds (servers.foldl Walk.next walk).left (leftover AssignableServer.assignedTierId units servers) ∧
      (servers.foldl Walk.next walk).uncovered =
        walk.uncovered ++ (unserved AssignableServer.assignedTierId units servers).map (·.serverId)
  | [], walk, units, h => ⟨h, (append_nil _).symm⟩
  | server :: servers, walk, units, h => by
    rw [foldl_cons]
    cases hheld : server.assignedTierId with
    | none =>
      rw [leftover_cons_of_none hheld, unserved_cons_of_none hheld]
      have hsame : (walk.next server).left = walk.left := by simp only [Walk.next, hheld]
      have hadded : (walk.next server).uncovered = walk.uncovered ++ [server.serverId] := by
        simp only [Walk.next, hheld]
      obtain ⟨hleft, huncovered⟩ := foldl_walk servers (walk.next server) units (hsame ▸ h)
      refine ⟨hleft, huncovered.trans ?_⟩
      rw [hadded, append_assoc]
      rfl
    | some held =>
      have hcount := h held
      by_cases hzero : units held = 0
      · rw [leftover_cons_of_zero hheld hzero, unserved_cons_of_zero hheld hzero]
        have hnone : ¬0 < countAt walk.left held := by omega
        have hsame : (walk.next server).left = walk.left := by simp only [Walk.next, hheld, hnone, if_false]
        have hadded : (walk.next server).uncovered = walk.uncovered ++ [server.serverId] := by
          simp only [Walk.next, hheld, hnone, if_false]
        obtain ⟨hleft, huncovered⟩ := foldl_walk servers (walk.next server) units (hsame ▸ h)
        refine ⟨hleft, huncovered.trans ?_⟩
        rw [hadded, append_assoc]
        rfl
      · rw [leftover_cons_of_pos hheld hzero, unserved_cons_of_pos hheld hzero]
        have hsome : 0 < countAt walk.left held := by omega
        have htaken : (walk.next server).left = walk.left.set held (countAt walk.left held - 1) := by
          simp only [Walk.next, hheld, hsome, if_true]
        have hsame : (walk.next server).uncovered = walk.uncovered := by
          simp only [Walk.next, hheld, hsome, if_true]
        rw [← hsame]
        refine foldl_walk servers (walk.next server) _ fun tierId => ?_
        rw [htaken, countAt_set, Function.update_apply]
        by_cases htier : tierId = held
        · rw [if_pos htier, if_pos htier, hcount]
          omega
        · rw [if_neg htier, if_neg htier, h tierId]

/-- **The reading is an allotment** of the purchased seats to the servers in bind order. -/
theorem readAssignment_eq (reserved : Map TierId ℕ) :
    (∃ left, Holds left (leftover AssignableServer.assignedTierId (seatsAt quantities) (sortByBindOrder c servers)) ∧
      (readAssignment c quantities servers reserved).spare = spareOf quantities left reserved) ∧
    (readAssignment c quantities servers reserved).uncovered =
      (unserved AssignableServer.assignedTierId (seatsAt quantities) (sortByBindOrder c servers)).map
        (·.serverId) := by
  obtain ⟨hleft, huncovered⟩ := foldl_walk (sortByBindOrder c servers) ⟨seatsOf quantities, Map.empty, [], []⟩
    (seatsAt quantities) fun tierId => (countAt_seatsOf quantities tierId).trans (seatsAt_eq quantities tierId).symm
  exact ⟨⟨_, hleft, rfl⟩, huncovered⟩

end TurboPanel.Tiers.Coverage
