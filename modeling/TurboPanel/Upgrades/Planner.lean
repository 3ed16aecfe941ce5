import Mathlib.Data.Rat.Floor
import TurboPanel.Js.Map
import TurboPanel.Js.Text
import TurboPanel.Upgrades.Steps

/-!
# The plan of an upgrade

The model of `src/features/upgrades/planner.ts`: the phases of a run and its batched steps. The
steps are the co-located daemon, the control plane and the fleet, connected servers first
(`plan_laid_out`). Every server has one daemon step, but for a co-located server that is set on a
runtime without a phase for it: the fleet leaves it out there as well (`plan_covers_iff`).
-/

namespace TurboPanel.Upgrades.Planner

open Js List

/-! ## The planner -/

inductive UpgradeBatchMode where
  | percent
  | count
  deriving DecidableEq

/-- The value is an integer, as the settings check it. -/
structure BatchPolicy where
  mode : UpgradeBatchMode
  value : ℤ

structure PlannedStep where
  serverId : String
  unit : UpgradeStepUnit
  phase : UpgradePhase
  batchIndex : ℤ

structure PlannedPhase where
  phase : UpgradePhase
  steps : List PlannedStep

structure UpgradePlan where
  phases : List PlannedPhase
  steps : List PlannedStep

structure PlanInput where
  runtime : UpgradeRuntime
  channelHasInstancePackage : Bool
  colocatedServerId : Option String
  fleetServerIds : List String
  connectedServerIds : Option (List String)
  batch : BatchPolicy

def clamp (value lo hi : ℤ) : ℤ := min (max value lo) hi

/-- How many fleet steps ride in one batch. -/
def computeBatchSize (policy : BatchPolicy) (stepCount : ℕ) : ℤ :=
  if stepCount = 0 then 0
  else
    match policy.mode with
    | .count => clamp policy.value 1 stepCount
    | .percent => clamp ⌈(stepCount * policy.value : ℚ) / 100⌉ 1 stepCount

def batchIndexFor (index : ℕ) (size : ℤ) : ℤ := if size ≤ 0 then 0 else index / size

/-- The ids that are set, each once; `seen` and `out` have the same ids. -/
def dedupeInOrder (ids : List String) : List String :=
  ids.foldl (fun out id => if id.length = 0 then out else setAdd out id) []

def orderServersConnectedFirst (ids connectedIds : List String) : List String :=
  ids.filter (· ∈ connectedIds) ++ ids.filter (· ∉ connectedIds)

def planFleetSteps (fleetServerIds : List String) (batch : BatchPolicy) (connectedIds : List String) :
    List PlannedStep :=
  let ordered := orderServersConnectedFirst fleetServerIds connectedIds
  let size := computeBatchSize batch ordered.length
  ordered.mapIdx fun index serverId => ⟨serverId, .daemon, .fleet, batchIndexFor index size⟩

def assemble (phases : List PlannedPhase) : UpgradePlan :=
  let nonEmpty := phases.filter (0 < ·.steps.length)
  ⟨nonEmpty, nonEmpty.flatMap (·.steps)⟩

/-- The phases of the co-located host. -/
def hostPhases (input : PlanInput) : List PlannedPhase :=
  match input.runtime, truthyString input.colocatedServerId with
  | .deno, some colocated =>
    ⟨.colocatedDaemon, [⟨colocated, .daemon, .colocatedDaemon, 0⟩]⟩ ::
      if input.channelHasInstancePackage then [⟨.controlPlane, [⟨colocated, .instance_, .controlPlane, 0⟩]⟩]
      else []
  | _, _ => []

/-- The fleet of a run: every server but the co-located one. -/
def planFleet (input : PlanInput) : List String :=
  (dedupeInOrder input.fleetServerIds).filter fun id => some id ≠ input.colocatedServerId

def planUpgrade (input : PlanInput) : UpgradePlan :=
  let fleet := planFleet input
  let connectedIds := input.connectedServerIds.getD fleet
  assemble (hostPhases input ++ [⟨.fleet, planFleetSteps fleet input.batch connectedIds⟩])

example : (planUpgrade ⟨.deno, true, some "cp", ["a", "a", "b", "c", "d", "cp"], some ["b"], ⟨.count, 2⟩⟩).steps.map
    (fun step => (step.serverId, step.batchIndex)) =
    [("cp", 0), ("cp", 0), ("b", 0), ("a", 0), ("c", 1), ("d", 1)] := by decide

/-! ## Batches -/

theorem clamp_bounds {value lo hi : ℤ} (h : lo ≤ hi) : lo ≤ clamp value lo hi ∧ clamp value lo hi ≤ hi := by
  unfold clamp
  omega

theorem computeBatchSize_bounds {policy : BatchPolicy} {stepCount : ℕ} (h : stepCount ≠ 0) :
    ∃ size : ℕ, computeBatchSize policy stepCount = size ∧ 0 < size ∧ size ≤ stepCount := by
  have hpos : (1 : ℤ) ≤ stepCount := by omega
  have hbounds : 1 ≤ computeBatchSize policy stepCount ∧ computeBatchSize policy stepCount ≤ stepCount := by
    rw [computeBatchSize, if_neg h]
    cases policy.mode <;> exact clamp_bounds hpos
  obtain ⟨size, hsize⟩ := Int.eq_ofNat_of_zero_le (show 0 ≤ computeBatchSize policy stepCount by omega)
  rw [hsize] at hbounds
  exact ⟨size, hsize, by omega, by omega⟩

theorem countP_range_div {size : ℕ} (hsize : 0 < size) (n k : ℕ) :
    (List.range n).countP (fun i => i / size = k) = min size (n - k * size) := by
  induction n with
  | zero => simp
  | succ n ih =>
    rw [range_succ, countP_append, ih, countP_singleton]
    have hiff : n / size = k ↔ k * size ≤ n ∧ n < k * size + size := by
      constructor
      · rintro rfl
        exact ⟨Nat.div_mul_le_self n size, Nat.lt_div_mul_add hsize⟩
      · rintro ⟨hle, hlt⟩
        exact Nat.div_eq_of_lt_le hle (by rwa [Nat.succ_mul])
    by_cases h : n / size = k
    · rw [if_pos (decide_eq_true h)]
      obtain ⟨hle, hlt⟩ := hiff.1 h
      omega
    · rw [if_neg (by simpa using h)]
      have := hiff.not.1 h
      omega

/-- How many steps ride in the batch `k`. -/
def stepsInBatch (steps : List PlannedStep) (k : ℕ) : ℕ := steps.countP fun step => step.batchIndex = (k : ℤ)

/-- The batches of a run: their indexes are `0, 1, 2, …` in order, all but the last one are full and
the last one has a step. -/
structure InBatches (steps : List PlannedStep) (size : ℤ) : Prop where
  ordered : steps.Pairwise fun a b => a.batchIndex ≤ b.batchIndex
  filled : ∃ batches : ℕ, (∀ step ∈ steps, 0 ≤ step.batchIndex ∧ step.batchIndex < batches) ∧
    ∀ k, (k + 1 < batches → stepsInBatch steps k = size) ∧
      (k + 1 = batches → 1 ≤ stepsInBatch steps k ∧ stepsInBatch steps k ≤ size)

/-- **Steps that are numbered by `batchIndexFor` are in batches.** -/
theorem inBatches_mapIdx {ids : List String} {policy : BatchPolicy} {step : ℕ → String → PlannedStep}
    (hstep : ∀ i id, (step i id).batchIndex = batchIndexFor i (computeBatchSize policy ids.length)) :
    InBatches (ids.mapIdx step) (computeBatchSize policy ids.length) := by
  rcases Nat.eq_zero_or_pos ids.length with hzero | hpos
  · obtain rfl := eq_nil_of_length_eq_zero hzero
    exact ⟨List.Pairwise.nil, 0, by simp, by simp⟩
  obtain ⟨size, hsize, hsize_pos, -⟩ := @computeBatchSize_bounds policy ids.length hpos.ne'
  rw [hsize] at hstep ⊢
  have hindex : ∀ i id, (step i id).batchIndex = (i / size : ℕ) := by
    intro i id
    rw [hstep, batchIndexFor, if_neg (by omega), Int.natCast_div]
  have hmap : (ids.mapIdx step).map (·.batchIndex) = (List.range ids.length).map fun i => ((i / size : ℕ) : ℤ) := by
    refine ext_getElem (by simp) fun i h _ => ?_
    simp only [getElem_map, getElem_mapIdx, getElem_range, hindex]
  have hcount : ∀ k : ℕ, stepsInBatch (ids.mapIdx step) k = min size (ids.length - k * size) := by
    intro k
    have hcomp := countP_map (p := fun index : ℤ => decide (index = k)) (f := PlannedStep.batchIndex)
      (l := ids.mapIdx step)
    rw [hmap, countP_map] at hcomp
    refine hcomp.symm.trans ((countP_congr fun i _ => ?_).trans (countP_range_div hsize_pos ids.length k))
    simp only [Function.comp_apply, decide_eq_true_eq, Nat.cast_inj]
  refine ⟨?_, (ids.length + size - 1) / size, fun s hs => ?_, fun k => ?_⟩
  · rw [← pairwise_map (f := PlannedStep.batchIndex) (R := (· ≤ ·)), hmap, pairwise_map]
    refine pairwise_lt_range.imp fun hij => ?_
    exact Int.ofNat_le.2 (Nat.div_le_div_right hij.le)
  · obtain ⟨i, hi, rfl⟩ := mem_mapIdx.1 hs
    rw [hindex]
    refine ⟨Int.natCast_nonneg _, Int.ofNat_lt.2 ((Nat.div_lt_iff_lt_mul hsize_pos).2 ?_)⟩
    have := Nat.lt_div_mul_add (a := ids.length + size - 1) hsize_pos
    omega
  · rw [hcount]
    have hlt := Nat.lt_div_mul_add (a := ids.length + size - 1) hsize_pos
    have hle := Nat.div_mul_le_self (ids.length + size - 1) size
    constructor
    · intro hk
      have := Nat.mul_le_mul_right size (Nat.succ_le_of_lt hk)
      rw [Nat.succ_mul, Nat.succ_mul] at this
      omega
    · rintro hk
      rw [← hk, Nat.succ_mul] at hlt hle
      omega

/-! ## The fleet -/

variable {id : String} (input : PlanInput)

theorem mem_dedupeInOrder {ids : List String} : id ∈ dedupeInOrder ids ↔ id ∈ ids ∧ id ≠ "" := by
  induction ids using List.reverseRecOn with
  | nil => simp [dedupeInOrder]
  | append_singleton ids last ih =>
    rw [dedupeInOrder, foldl_append, foldl_cons, foldl_nil, ← dedupeInOrder, mem_append,
      mem_singleton]
    split_ifs with hempty
    · rw [String.length_eq_zero_iff] at hempty
      rw [ih, hempty]
      tauto
    · rw [String.length_eq_zero_iff] at hempty
      rw [mem_setAdd, ih]
      constructor
      · rintro (h | rfl)
        · exact ⟨.inl h.1, h.2⟩
        · exact ⟨.inr rfl, hempty⟩
      · rintro ⟨h | h, hne⟩
        · exact .inl ⟨h, hne⟩
        · exact .inr h

theorem pairwise_dedupeInOrder (ids : List String) :
    (dedupeInOrder ids).Pairwise fun a b => ids.idxOf a < ids.idxOf b := by
  induction ids using List.reverseRecOn with
  | nil => exact List.Pairwise.nil
  | append_singleton ids last ih =>
    have hold : (dedupeInOrder ids).Pairwise fun a b => (ids ++ [last]).idxOf a < (ids ++ [last]).idxOf b := by
      refine ih.imp_of_mem fun {a b} ha hb hlt => ?_
      rwa [idxOf_append_of_mem (mem_dedupeInOrder.1 ha).1, idxOf_append_of_mem (mem_dedupeInOrder.1 hb).1]
    rw [dedupeInOrder, foldl_append, foldl_cons, foldl_nil, ← dedupeInOrder, setAdd]
    split_ifs with hempty hmem
    · exact hold
    · exact hold
    · rw [pairwise_append]
      refine ⟨hold, pairwise_singleton _ _, fun a ha b hb => ?_⟩
      obtain rfl := mem_singleton.1 hb
      have hnot : b ∉ ids := fun h => hmem (mem_dedupeInOrder.2 ⟨h, fun h => hempty (h ▸ rfl)⟩)
      rw [idxOf_append_of_mem (mem_dedupeInOrder.1 ha).1, idxOf_append_of_notMem hnot]
      exact (idxOf_lt_length_of_mem (mem_dedupeInOrder.1 ha).1).trans_le (Nat.le_add_right _ _)

theorem mem_planFleet {input : PlanInput} :
    id ∈ planFleet input ↔ id ∈ input.fleetServerIds ∧ id ≠ "" ∧ some id ≠ input.colocatedServerId := by
  rw [planFleet, mem_filter, mem_dedupeInOrder, and_assoc, decide_eq_true_eq]

theorem mem_orderServersConnectedFirst {ids connectedIds : List String} :
    id ∈ orderServersConnectedFirst ids connectedIds ↔ id ∈ ids := by
  rw [orderServersConnectedFirst, mem_append, mem_filter, mem_filter]
  by_cases h : id ∈ connectedIds <;> simp [h]

/-- The server is connected, as the plan takes it. -/
def IsConnected (input : PlanInput) (id : String) : Prop := ∀ ids, input.connectedServerIds = some ids → id ∈ ids

/-- `a` comes before `b`: connected first, and in the order they are listed. -/
def ComesBefore (input : PlanInput) (a b : String) : Prop :=
  IsConnected input a ∧ ¬IsConnected input b ∨
    (IsConnected input a ↔ IsConnected input b) ∧ input.fleetServerIds.idxOf a < input.fleetServerIds.idxOf b

/-- The ids of the fleet steps. -/
def fleetOrder (input : PlanInput) : List String :=
  orderServersConnectedFirst (planFleet input) (input.connectedServerIds.getD (planFleet input))

theorem isConnected_iff {input : PlanInput} (h : id ∈ planFleet input) :
    IsConnected input id ↔ id ∈ input.connectedServerIds.getD (planFleet input) := by
  unfold IsConnected
  cases input.connectedServerIds with
  | none => simpa using h
  | some ids => simp

theorem pairwise_fleetOrder : (fleetOrder input).Pairwise (ComesBefore input) := by
  have hplanned : (planFleet input).Pairwise fun a b =>
      input.fleetServerIds.idxOf a < input.fleetServerIds.idxOf b :=
    (pairwise_dedupeInOrder input.fleetServerIds).filter _
  rw [fleetOrder, orderServersConnectedFirst, pairwise_append]
  refine ⟨?_, ?_, fun a ha b hb => ?_⟩
  · refine (hplanned.filter _).imp_of_mem fun {a b} ha hb hlt => .inr ⟨?_, hlt⟩
    obtain ⟨ha, hac⟩ := mem_filter.1 ha
    obtain ⟨hb, hbc⟩ := mem_filter.1 hb
    rw [isConnected_iff ha, isConnected_iff hb]
    exact iff_of_true (of_decide_eq_true hac) (of_decide_eq_true hbc)
  · refine (hplanned.filter _).imp_of_mem fun {a b} ha hb hlt => .inr ⟨?_, hlt⟩
    obtain ⟨ha, hac⟩ := mem_filter.1 ha
    obtain ⟨hb, hbc⟩ := mem_filter.1 hb
    rw [isConnected_iff ha, isConnected_iff hb]
    exact iff_of_false (of_decide_eq_true hac) (of_decide_eq_true hbc)
  · obtain ⟨ha, hac⟩ := mem_filter.1 ha
    obtain ⟨hb, hbc⟩ := mem_filter.1 hb
    refine .inl ?_
    rw [isConnected_iff ha, isConnected_iff hb]
    exact ⟨of_decide_eq_true hac, of_decide_eq_true hbc⟩

theorem nodup_fleetOrder : (fleetOrder input).Nodup := by
  refine (pairwise_fleetOrder input).imp fun {a b} h => ?_
  rintro rfl
  rcases h with ⟨h, hnot⟩ | ⟨-, h⟩
  · exact hnot h
  · exact lt_irrefl _ h

/-! ## Plans -/

theorem steps_assemble (phases : List PlannedPhase) : (assemble phases).steps = phases.flatMap (·.steps) := by
  rw [assemble]
  induction phases with
  | nil => rfl
  | cons phase phases ih =>
    rw [filter_cons, flatMap_cons, ← ih]
    split_ifs with h
    · rfl
    · have hnil : phase.steps = [] := by simpa using h
      rw [hnil, nil_append]

/-- The step of the co-located daemon. -/
def colocatedSteps (input : PlanInput) : List PlannedStep :=
  match input.runtime, truthyString input.colocatedServerId with
  | .deno, some colocated => [⟨colocated, .daemon, .colocatedDaemon, 0⟩]
  | _, _ => []

/-- The step of the control plane. -/
def instanceSteps (input : PlanInput) : List PlannedStep :=
  match input.runtime, truthyString input.colocatedServerId, input.channelHasInstancePackage with
  | .deno, some colocated, true => [⟨colocated, .instance_, .controlPlane, 0⟩]
  | _, _, _ => []

/-- The steps of the fleet phase. -/
def fleetSteps (input : PlanInput) : List PlannedStep :=
  (planUpgrade input).steps.filter fun step => step.phase = .fleet

theorem steps_hostPhases :
    (hostPhases input).flatMap (·.steps) = colocatedSteps input ++ instanceSteps input := by
  rw [hostPhases, colocatedSteps, instanceSteps]
  cases input.runtime <;> cases truthyString input.colocatedServerId <;>
    cases input.channelHasInstancePackage <;> rfl

theorem phase_ne_fleet {input : PlanInput} {step : PlannedStep}
    (h : step ∈ colocatedSteps input ++ instanceSteps input) : step.phase ≠ .fleet := by
  rcases mem_append.1 h with h | h
  · rw [colocatedSteps] at h
    split at h
    · rw [mem_singleton.1 h]
      exact UpgradePhase.noConfusion
    · cases h
  · rw [instanceSteps] at h
    split at h
    · rw [mem_singleton.1 h]
      exact UpgradePhase.noConfusion
    · cases h

theorem steps_planUpgrade :
    fleetSteps input = planFleetSteps (planFleet input) input.batch
        (input.connectedServerIds.getD (planFleet input)) ∧
      (planUpgrade input).steps = colocatedSteps input ++ instanceSteps input ++ fleetSteps input := by
  have hsteps : (planUpgrade input).steps = colocatedSteps input ++ instanceSteps input ++
      planFleetSteps (planFleet input) input.batch (input.connectedServerIds.getD (planFleet input)) := by
    rw [planUpgrade, steps_assemble, flatMap_append, steps_hostPhases, flatMap_singleton]
  have hfleet : fleetSteps input = planFleetSteps (planFleet input) input.batch
      (input.connectedServerIds.getD (planFleet input)) := by
    rw [fleetSteps, hsteps, filter_append, filter_eq_nil_iff.2 fun step h => by
      simpa using phase_ne_fleet h, nil_append, filter_eq_self]
    intro step h
    obtain ⟨i, hi, rfl⟩ := mem_mapIdx.1 h
    rfl
  exact ⟨hfleet, hfleet ▸ hsteps⟩

theorem map_serverId_fleetSteps : (fleetSteps input).map (·.serverId) = fleetOrder input := by
  rw [(steps_planUpgrade input).1, planFleetSteps, fleetOrder]
  refine ext_getElem (by simp) fun i h _ => ?_
  simp only [getElem_map, getElem_mapIdx]

/-- What a plan looks like: the co-located daemon, the control plane, and the fleet in batches. -/
structure LaidOut (input : PlanInput) : Prop where
  order : (planUpgrade input).steps = colocatedSteps input ++ instanceSteps input ++ fleetSteps input
  daemons : ∀ step ∈ fleetSteps input, step.unit = .daemon
  members : ∀ id, id ∈ (fleetSteps input).map (·.serverId) ↔
    id ∈ input.fleetServerIds ∧ id ≠ "" ∧ some id ≠ input.colocatedServerId
  connectedFirst : ((fleetSteps input).map (·.serverId)).Pairwise (ComesBefore input)
  batches : InBatches (fleetSteps input) (computeBatchSize input.batch (fleetSteps input).length)

theorem plan_laid_out : LaidOut input := by
  obtain ⟨hfleet, hsteps⟩ := steps_planUpgrade input
  have hids := map_serverId_fleetSteps input
  have hlength : (fleetSteps input).length = (fleetOrder input).length := by
    rw [← hids, length_map]
  refine ⟨hsteps, fun step h => ?_, fun id => ?_, hids ▸ pairwise_fleetOrder input, ?_⟩
  · rw [hfleet] at h
    obtain ⟨i, hi, rfl⟩ := mem_mapIdx.1 h
    rfl
  · rw [hids, fleetOrder, mem_orderServersConnectedFirst, mem_planFleet]
  · rw [hlength, hfleet]
    exact inBatches_mapIdx fun i id => rfl

/-- How many daemon steps a server has. -/
def daemonSteps (input : PlanInput) (id : String) : ℕ :=
  (planUpgrade input).steps.countP fun step => step.serverId = id ∧ step.unit = .daemon

/-- Every server that is listed, and the co-located one, has one daemon step. -/
def CoversEveryServer (input : PlanInput) : Prop :=
  ∀ id, id ≠ "" → id ∈ input.fleetServerIds ∨ input.colocatedServerId = some id → daemonSteps input id = 1

theorem countP_instanceSteps (id : String) :
    (instanceSteps input).countP (fun step => step.serverId = id ∧ step.unit = .daemon) = 0 := by
  rw [countP_eq_zero]
  intro step h
  rw [instanceSteps] at h
  split at h
  · rw [mem_singleton.1 h]
    simp
  · cases h

theorem daemonSteps_eq (id : String) : daemonSteps input id =
    (colocatedSteps input).countP (fun step => step.serverId = id ∧ step.unit = .daemon) +
      if id ∈ fleetOrder input then 1 else 0 := by
  have hfleet : (fleetSteps input).countP (fun step => step.serverId = id ∧ step.unit = .daemon) =
      (fleetOrder input).count id := by
    rw [← map_serverId_fleetSteps, List.count, countP_map]
    refine countP_congr fun step h => ?_
    simp [(plan_laid_out input).daemons step h]
  rw [daemonSteps, (plan_laid_out input).order, countP_append, countP_append, countP_instanceSteps,
    Nat.add_zero, hfleet, (nodup_fleetOrder input).count]

/-- **A plan covers every server once exactly when a co-located server has a phase.** -/
theorem plan_covers_iff (input : PlanInput) : LaidOut input ∧
    (CoversEveryServer input ↔ input.runtime = .deno ∨ truthyString input.colocatedServerId = none) := by
  have hfleet : ∀ id, id ∈ fleetOrder input ↔
      id ∈ input.fleetServerIds ∧ id ≠ "" ∧ some id ≠ input.colocatedServerId := fun id => by
    rw [fleetOrder, mem_orderServersConnectedFirst, mem_planFleet]
  refine ⟨plan_laid_out input, fun h => ?_, fun h id hid hlisted => ?_⟩
  · by_contra hnot
    obtain ⟨hruntime, hcolocated⟩ := not_or.1 hnot
    obtain ⟨colocated, hsome⟩ := Option.ne_none_iff_exists'.1 hcolocated
    obtain ⟨hset, hne⟩ : input.colocatedServerId = some colocated ∧ colocated ≠ "" := by
      simpa [truthyString, Option.filter_eq_some_iff] using hsome
    have hnone : colocatedSteps input = [] := by
      rw [colocatedSteps]
      split
      · rename_i hdeno _
        exact absurd hdeno hruntime
      · rfl
    have hone := h colocated hne (.inr hset)
    rw [daemonSteps_eq, hnone, countP_nil, if_neg fun hmem => ((hfleet colocated).1 hmem).2.2 hset.symm] at hone
    cases hone
  · rw [daemonSteps_eq]
    by_cases hset : input.colocatedServerId = some id
    · have hsome : truthyString input.colocatedServerId = some id := by rw [hset, truthyString_some hid]
      have hdeno : input.runtime = .deno := h.resolve_right (by rw [hsome]; exact Option.some_ne_none id)
      rw [if_neg fun hmem => ((hfleet id).1 hmem).2.2 hset.symm, colocatedSteps, hsome, hdeno]
      simp
    · have hnone : (colocatedSteps input).countP (fun step => step.serverId = id ∧ step.unit = .daemon) = 0 := by
        rw [countP_eq_zero]
        intro step hstep
        rw [colocatedSteps] at hstep
        split at hstep
        · rename_i colocated _ hsome
          obtain ⟨hcolocated, -⟩ : input.colocatedServerId = some colocated ∧ colocated ≠ "" := by
            simpa [truthyString, Option.filter_eq_some_iff] using hsome
          rw [mem_singleton.1 hstep]
          simp only [decide_eq_true_eq, not_and]
          rintro rfl
          exact absurd hcolocated hset
        · cases hstep
      rw [hnone, if_pos ((hfleet id).2 ⟨hlisted.resolve_right hset, hid, fun h => hset h.symm⟩)]

/-- On workers the host of the instance has no step. -/
theorem colocated_on_workers_left_out :
    ¬CoversEveryServer ⟨.workers, false, some "cp", ["a", "cp"], none, ⟨.count, 1⟩⟩ := by
  intro h
  exact absurd (h "cp" (by decide) (.inr rfl)) (by decide)

end TurboPanel.Upgrades.Planner
