import TurboPanel.Js.Map
import TurboPanel.Js.Number

/-!
# The lanes of the command consumer

A lane is the queue of the tasks of one key. The scheduler keeps the lanes in a map, the keys of the
idle lanes with work in a queue, and counts the tasks that hold a lane. A task gives its lane up
when it ends, or before, and a lane without work is dropped: a later task of its key gets a new one,
while tasks of the old one may still go on. So the lanes are objects, given here by their number,
and a task that was started keeps the number of its lane.

The invariant is `Sound`: what the map, the queue and the counter say is what the tasks say. Each
operation keeps it, and the loop leaves no idle lane with work below the cap (`lane_discipline`).
-/

namespace TurboPanel.Commands

open List Js

/-! ## The scheduler -/

/-- A task that was queued. -/
structure Job where
  id : ℕ
  key : String
  deriving DecidableEq

structure Lane where
  pending : List Job
  running : Bool

/-- A job that was started, with the lane and the flag that its releaser closes over. -/
structure StartedJob where
  job : Job
  lane : ℕ
  released : Bool

structure LaneScheduler where
  /-- The lane objects, of which there are `nextLane`. -/
  laneAt : ℕ → Lane
  nextLane : ℕ
  lanes : Map String ℕ
  /-- Idle lanes that have work, oldest first. -/
  ready : List String
  active : ℤ
  /-- The jobs in the order in which they were queued. -/
  queued : List Job
  /-- The jobs in the order in which they were started. -/
  started : List StartedJob

/-- The cap on the tasks that hold a lane. -/
def laneCap (maxConcurrent : Number) : Number := (maxConcurrent.floor).maxInt 1

def createLaneScheduler : LaneScheduler where
  laneAt _ := ⟨[], false⟩
  nextLane := 0
  lanes := Map.empty
  ready := []
  active := 0
  queued := []
  started := []

namespace LaneScheduler

/-- Start the first job of a lane. -/
def startJob (s : LaneScheduler) (lane : ℕ) (job : Job) (pending : List Job) : LaneScheduler :=
  { s with
    laneAt := Function.update s.laneAt lane ⟨pending, true⟩
    active := s.active + 1
    started := s.started ++ [⟨job, lane, false⟩] }

/-- What a round of the loop does with the key that it took from the queue. -/
def pumpKey (s : LaneScheduler) (key : String) : LaneScheduler :=
  match s.lanes.get? key with
  | none => s
  | some lane =>
    match (s.laneAt lane).pending with
    | [] => s
    | job :: pending => s.startJob lane job pending

/-- The loop, on the keys of the queue. -/
def pumpKeys (cap : Number) : List String → LaneScheduler → LaneScheduler
  | [], s => s
  | key :: rest, s =>
    if Number.below s.active cap then pumpKeys cap rest ({ s with ready := rest }.pumpKey key) else s

def pump (cap : Number) (s : LaneScheduler) : LaneScheduler := pumpKeys cap s.ready s

/-- The lane of a key: a new one when it has none. -/
def laneFor (s : LaneScheduler) (key : String) : LaneScheduler × ℕ :=
  match s.lanes.get? key with
  | some lane => (s, lane)
  | none =>
    ({ s with
        laneAt := Function.update s.laneAt s.nextLane ⟨[], false⟩
        nextLane := s.nextLane + 1
        lanes := s.lanes.set key s.nextLane },
      s.nextLane)

/-- Queue a job in its lane, which is ready when it is idle. -/
def enqueue (s : LaneScheduler) (lane : ℕ) (job : Job) : LaneScheduler :=
  { s with
    laneAt := Function.update s.laneAt lane
      ⟨(s.laneAt lane).pending ++ [job], (s.laneAt lane).running⟩
    queued := s.queued ++ [job]
    ready :=
      if (s.laneAt lane).running = false ∧ job.key ∉ s.ready then s.ready ++ [job.key] else s.ready }

/-- `run(key, task)`. -/
def run (cap : Number) (s : LaneScheduler) (key : String) : LaneScheduler :=
  let (s, lane) := s.laneFor key
  (s.enqueue lane ⟨s.queued.length, key⟩).pump cap

/-- Free the lane of a started job. -/
def free (s : LaneScheduler) (t : StartedJob) : LaneScheduler :=
  let pending := (s.laneAt t.lane).pending
  { s with
    laneAt := Function.update s.laneAt t.lane ⟨pending, false⟩
    active := s.active - 1
    started := s.started.map fun u => if u.job = t.job then { u with released := true } else u
    ready := if pending = [] then s.ready else s.ready ++ [t.job.key]
    lanes := if pending = [] then s.lanes.delete t.job.key else s.lanes }

/-- A call of the releaser of a job, by its task or at its end. A job that was not started has none.
-/
def release (cap : Number) (s : LaneScheduler) (id : ℕ) : LaneScheduler :=
  match s.started.find? fun t => decide (t.job.id = id) with
  | none => s
  | some t => if t.released then s else (s.free t).pump cap

end LaneScheduler

/-- What happens to a scheduler: a call of `run`, or of the releaser of a job. -/
inductive LaneEvent where
  | run (key : String)
  | release (id : ℕ)
  deriving DecidableEq

def LaneScheduler.handle (cap : Number) (s : LaneScheduler) : LaneEvent → LaneScheduler
  | .run key => s.run cap key
  | .release id => s.release cap id

/-- The scheduler after the events. -/
def laneSchedulerAfter (maxConcurrent : Number) (events : List LaneEvent) : LaneScheduler :=
  events.foldl (LaneScheduler.handle (laneCap maxConcurrent)) createLaneScheduler

/-- The keys of the calls of `run`, in the order of the calls. -/
def runKeys (events : List LaneEvent) : List String :=
  events.filterMap fun
    | .run key => some key
    | .release _ => none

/-! ## What the tasks say -/

namespace LaneScheduler

/-- The tasks that hold a lane. -/
def holders (s : LaneScheduler) : List StartedJob := s.started.filter fun t => !t.released

def queuedOf (s : LaneScheduler) (key : String) : List Job :=
  s.queued.filter fun job => decide (job.key = key)

def startedOf (s : LaneScheduler) (key : String) : List Job :=
  (s.started.map StartedJob.job).filter fun job => decide (job.key = key)

/-- The lane of a key, empty and idle when the map has none. -/
def laneOf (s : LaneScheduler) (key : String) : Lane :=
  match s.lanes.get? key with
  | some lane => s.laneAt lane
  | none => ⟨[], false⟩

/-- The tasks of a key that wait. -/
def waitingOf (s : LaneScheduler) (key : String) : List Job := (s.laneOf key).pending

variable {s : LaneScheduler} {t : StartedJob}

theorem mem_holders : t ∈ s.holders ↔ t ∈ s.started ∧ t.released = false := by
  rw [holders, mem_filter, Bool.not_eq_true']

variable {key : String} {lane : ℕ}

theorem laneOf_of_get? (h : s.lanes.get? key = some lane) : s.laneOf key = s.laneAt lane := by
  rw [laneOf, h]

theorem laneOf_of_get?_none (h : s.lanes.get? key = none) : s.laneOf key = ⟨[], false⟩ := by
  rw [laneOf, h]

/-- **The invariant of the scheduler**: the map, the queue and the counter say what the tasks say.
-/
structure Sound (s : LaneScheduler) : Prop where
  active_eq : s.active = s.holders.length
  holder_keys : (s.holders.map fun t => t.job.key).Nodup
  lane_of_holder : ∀ t ∈ s.holders, s.lanes.get? t.job.key = some t.lane
  running_iff : ∀ key, (s.laneOf key).running = true ↔ ∃ t ∈ s.holders, t.job.key = key
  lane_injective : ∀ key key' lane, s.lanes.get? key = some lane → s.lanes.get? key' = some lane →
    key = key'
  lane_lt : ∀ key lane, s.lanes.get? key = some lane → lane < s.nextLane
  ready_nodup : s.ready.Nodup
  mem_ready : ∀ key, key ∈ s.ready ↔
    (s.laneOf key).running = false ∧ (s.laneOf key).pending ≠ []
  order : ∀ key, s.queuedOf key = s.startedOf key ++ (s.laneOf key).pending
  ids : s.queued.map Job.id = List.range s.queued.length

theorem sound_createLaneScheduler : createLaneScheduler.Sound where
  active_eq := rfl
  holder_keys := nodup_nil
  lane_of_holder _ ht := by cases ht
  running_iff key := by
    refine iff_of_false Bool.false_ne_true ?_
    intro ⟨t, ht, _⟩
    exact not_mem_nil ht
  lane_injective _ _ _ h := by cases h
  lane_lt _ _ h := by cases h
  ready_nodup := nodup_nil
  mem_ready key := iff_of_false not_mem_nil fun h => h.2 rfl
  order key := rfl
  ids := rfl

section

variable {s : LaneScheduler} (hs : s.Sound)

include hs

theorem Sound.started_nodup : (s.started.map StartedJob.job).Nodup := by
  rw [nodup_iff_sublist]
  intro job hjob
  have hqueued : s.queued.Nodup := List.Nodup.of_map Job.id (hs.ids ▸ nodup_range)
  have hof : (s.queuedOf job.key).Nodup := hqueued.filter _
  rw [hs.order job.key] at hof
  refine nodup_iff_sublist.1 (nodup_append.1 hof).1 job ?_
  simpa [startedOf] using hjob.filter fun j => decide (j.key = job.key)

theorem Sound.key_of_waiting {key : String} {job : Job} (h : job ∈ (s.laneOf key).pending) :
    job.key = key := by
  have hmem : job ∈ s.queuedOf key := hs.order key ▸ mem_append_right _ h
  exact of_decide_eq_true (mem_filter.1 hmem).2

theorem Sound.holder_of_waiting (hready : s.ready = []) {key : String} (h : s.waitingOf key ≠ []) :
    ∃ t ∈ s.holders, t.job.key = key := by
  refine (hs.running_iff key).1 ?_
  by_contra hidle
  have hmem := (hs.mem_ready key).2 ⟨Bool.eq_false_iff.2 hidle, h⟩
  rw [hready] at hmem
  exact not_mem_nil hmem

theorem Sound.laneOf_update {s' : LaneScheduler} {key : String} {lane : ℕ} {l : Lane}
    (hget : s.lanes.get? key = some lane) (hself : s'.laneOf key = l)
    (hlanes : ∀ key' ≠ key, s'.lanes.get? key' = s.lanes.get? key')
    (hlaneAt : ∀ lane' ≠ lane, s'.laneAt lane' = s.laneAt lane') :
    s'.laneOf = Function.update s.laneOf key l := by
  funext key'
  rw [Function.update_apply]
  by_cases hkey : key' = key
  · rw [if_pos hkey, hkey, hself]
  · rw [if_neg hkey, laneOf, hlanes key' hkey, laneOf]
    cases hget' : s.lanes.get? key' with
    | none => rfl
    | some lane' =>
      have hne : lane' ≠ lane := fun heq => hkey (hs.lane_injective key' key lane (heq ▸ hget') hget)
      exact hlaneAt lane' hne

end

/-! ## The loop -/

theorem Sound.pumpKey_eq (hs : s.Sound) {rest : List String}
    (hready : s.ready = key :: rest) : ∃ lane job pending, s.lanes.get? key = some lane ∧
      s.laneAt lane = ⟨job :: pending, false⟩ ∧
      { s with ready := rest }.pumpKey key = { s with ready := rest }.startJob lane job pending := by
  obtain ⟨hidle, hpending⟩ := (hs.mem_ready key).1 (hready ▸ mem_cons_self)
  cases hget : s.lanes.get? key with
  | none =>
    rw [laneOf_of_get?_none hget] at hpending
    exact absurd rfl hpending
  | some lane =>
    rw [laneOf_of_get? hget] at hidle hpending
    obtain ⟨job, pending, hcons⟩ := exists_cons_of_ne_nil hpending
    have hlane : s.laneAt lane = ⟨job :: pending, false⟩ := by
      rw [← hcons, ← hidle]
    refine ⟨lane, job, pending, rfl, hlane, ?_⟩
    rw [pumpKey]
    simp only [hget, hlane]

theorem Sound.startJob (hs : s.Sound) {rest : List String}
    (hready : s.ready = key :: rest) {job : Job} {pending : List Job}
    (hget : s.lanes.get? key = some lane) (hlane : s.laneAt lane = ⟨job :: pending, false⟩) :
    ({ s with ready := rest }.startJob lane job pending).Sound := by
  have hnodup : (key :: rest).Nodup := hready ▸ hs.ready_nodup
  have hlaneOf : s.laneOf key = ⟨job :: pending, false⟩ := (laneOf_of_get? hget).trans hlane
  have hkey : job.key = key := hs.key_of_waiting (by rw [hlaneOf]; exact mem_cons_self)
  -- the lane was idle, so no holder has its key
  have hfree : ∀ t ∈ s.holders, t.job.key ≠ key := by
    intro t ht heq
    have hrun := (hs.running_iff key).2 ⟨t, ht, heq⟩
    rw [hlaneOf] at hrun
    exact Bool.false_ne_true hrun
  generalize hs' : { s with ready := rest }.startJob lane job pending = s'
  have hlanes : s'.lanes = s.lanes := by rw [← hs']; rfl
  have hlaneAt : s'.laneAt = Function.update s.laneAt lane ⟨pending, true⟩ := by rw [← hs']; rfl
  have hview : s'.laneOf = Function.update s.laneOf key ⟨pending, true⟩ := by
    refine hs.laneOf_update hget ?_ (fun _ _ => by rw [hlanes]) fun lane' hne => ?_
    · rw [laneOf_of_get? (hlanes ▸ hget), hlaneAt, Function.update_self]
    · rw [hlaneAt, Function.update_of_ne hne]
  have hholders : s'.holders = s.holders ++ [⟨job, lane, false⟩] := by
    rw [← hs', holders, LaneScheduler.startJob, filter_append]
    rfl
  have hstarted : ∀ key', s'.startedOf key' =
      s.startedOf key' ++ [job].filter fun j => decide (j.key = key') := by
    intro key'
    rw [← hs', startedOf, LaneScheduler.startJob, map_append, filter_append]
    rfl
  constructor
  case active_eq =>
    rw [hholders, length_append, Nat.cast_add, ← hs.active_eq, ← hs']
    rfl
  case holder_keys =>
    rw [hholders, map_append, nodup_append]
    refine ⟨hs.holder_keys, nodup_singleton _, ?_⟩
    intro k hk k' hk' heq
    obtain ⟨t, ht, rfl⟩ := mem_map.1 hk
    rw [map_singleton, mem_singleton] at hk'
    exact hfree t ht (heq.trans (hk'.trans hkey))
  case lane_of_holder =>
    intro t ht
    rw [hholders, mem_append, mem_singleton] at ht
    rw [hlanes]
    obtain ht | rfl := ht
    · exact hs.lane_of_holder t ht
    · exact hkey ▸ hget
  case running_iff =>
    intro key'
    rw [hview, hholders, Function.update_apply]
    by_cases hne : key' = key
    · rw [if_pos hne]
      exact iff_of_true rfl ⟨⟨job, lane, false⟩, by simp, hkey.trans hne.symm⟩
    · rw [if_neg hne, hs.running_iff]
      simp [or_and_right, exists_or, show job.key ≠ key' from fun h => hne (h.symm.trans hkey)]
  case lane_injective => rw [hlanes]; exact hs.lane_injective
  case lane_lt => rw [hlanes, ← hs']; exact hs.lane_lt
  case ready_nodup => rw [← hs']; exact (nodup_cons.1 hnodup).2
  case mem_ready =>
    intro key'
    have hready' : s'.ready = rest := by rw [← hs']; rfl
    rw [hview, hready', Function.update_apply]
    by_cases hne : key' = key
    · rw [if_pos hne, hne]
      exact iff_of_false (nodup_cons.1 hnodup).1 (by simp)
    · rw [if_neg hne, ← hs.mem_ready key', hready, mem_cons, or_iff_right hne]
  case order =>
    intro key'
    have hqueued : s'.queuedOf key' = s.queuedOf key' := by rw [← hs']; rfl
    rw [hqueued, hs.order, hstarted, hview, Function.update_apply, append_assoc]
    by_cases hne : key' = key
    · rw [if_pos hne, hne, hlaneOf, filter_cons_of_pos (by simpa using hkey)]
      rfl
    · have hne' : ¬job.key = key' := fun h => hne (h.symm.trans hkey)
      rw [if_neg hne, filter_cons_of_neg (by simpa using hne')]
      rfl
  case ids => rw [← hs']; exact hs.ids

section

variable {cap : Number} (hcap : ∀ n, Number.below n cap = true → Number.above (n + 1) cap = false)

include hcap

theorem Sound.pumpKeys {keys : List String} {s : LaneScheduler} (hs : s.Sound)
    (hwithin : Number.above s.active cap = false) (hready : s.ready = keys) :
    (LaneScheduler.pumpKeys cap keys s).Sound ∧
      Number.above (LaneScheduler.pumpKeys cap keys s).active cap = false ∧
      ((LaneScheduler.pumpKeys cap keys s).ready = [] ∨
        Number.below (LaneScheduler.pumpKeys cap keys s).active cap = false) := by
  induction keys generalizing s with
  | nil => exact ⟨hs, hwithin, .inl hready⟩
  | cons key rest ih =>
    rw [LaneScheduler.pumpKeys]
    split
    · rename_i hbelow
      obtain ⟨lane, job, pending, hget, hlane, heq⟩ := hs.pumpKey_eq hready
      rw [heq]
      exact ih (hs.startJob hready hget hlane) (hcap s.active hbelow) rfl
    · rename_i hbelow
      exact ⟨hs, hwithin, .inr (Bool.eq_false_iff.2 hbelow)⟩

end

/-! ## Queueing a job -/

theorem Sound.laneFor (hs : s.Sound) (key : String) :
    (s.laneFor key).1.Sound ∧ (s.laneFor key).1.lanes.get? key = some (s.laneFor key).2 ∧
      (s.laneFor key).1.active = s.active := by
  rw [LaneScheduler.laneFor]
  cases hget : s.lanes.get? key with
  | some lane => exact ⟨hs, hget, rfl⟩
  | none =>
    refine ⟨?_, Map.get?_set_self .., rfl⟩
    generalize hs' : ({ s with laneAt := _, nextLane := _, lanes := _ } : LaneScheduler) = s'
    have hlanes : s'.lanes = s.lanes.set key s.nextLane := by rw [← hs']
    have hget? : ∀ key' lane, s'.lanes.get? key' = some lane →
        key' = key ∧ lane = s.nextLane ∨ key' ≠ key ∧ s.lanes.get? key' = some lane := by
      intro key' lane h
      rw [hlanes, Map.get?_set] at h
      by_cases hkey : key' = key
      · rw [if_pos hkey, Option.some.injEq] at h
        exact .inl ⟨hkey, h.symm⟩
      · rw [if_neg hkey] at h
        exact .inr ⟨hkey, h⟩
    -- a lane without jobs looks like no lane
    have hview : s'.laneOf = s.laneOf := by
      funext key'
      rw [laneOf, hlanes, Map.get?_set, ← hs']
      by_cases hkey : key' = key
      · rw [if_pos hkey, hkey, laneOf_of_get?_none hget]
        exact Function.update_self ..
      · rw [if_neg hkey, laneOf]
        cases hget' : s.lanes.get? key' with
        | none => rfl
        | some lane' => exact Function.update_of_ne (hs.lane_lt key' lane' hget').ne ..
    have hholders : s'.holders = s.holders := by rw [← hs']; rfl
    constructor
    case active_eq => rw [hholders, ← hs.active_eq, ← hs']
    case holder_keys => rw [hholders]; exact hs.holder_keys
    case lane_of_holder =>
      intro t ht
      rw [hholders] at ht
      have ht' := hs.lane_of_holder t ht
      have hne : t.job.key ≠ key := by
        intro heq
        rw [heq, hget] at ht'
        cases ht'
      rw [hlanes, Map.get?_set_of_ne hne, ht']
    case running_iff => rw [hview, hholders]; exact hs.running_iff
    case lane_injective =>
      intro k k' lane h h'
      obtain ⟨rfl, hl⟩ | ⟨-, hk⟩ := hget? k lane h <;> obtain ⟨rfl, hl'⟩ | ⟨-, hk'⟩ := hget? k' lane h'
      · rfl
      · exact absurd hl (hs.lane_lt k' lane hk').ne
      · exact absurd hl' (hs.lane_lt k lane hk).ne
      · exact hs.lane_injective k k' lane hk hk'
    case lane_lt =>
      intro k lane h
      have hnext : s'.nextLane = s.nextLane + 1 := by rw [← hs']
      change lane < s'.nextLane
      rw [hnext]
      obtain ⟨-, hl⟩ | ⟨-, hk⟩ := hget? k lane h
      · exact hl ▸ Nat.lt_succ_self s.nextLane
      · exact (hs.lane_lt k lane hk).trans (Nat.lt_succ_self s.nextLane)
    case ready_nodup => rw [← hs']; exact hs.ready_nodup
    case mem_ready => rw [hview, ← hs']; exact hs.mem_ready
    case order => rw [hview, ← hs']; exact hs.order
    case ids => rw [← hs']; exact hs.ids

theorem Sound.enqueue (hs : s.Sound) {job : Job}
    (hget : s.lanes.get? job.key = some lane) (hid : job.id = s.queued.length) :
    (s.enqueue lane job).Sound := by
  have hlane : s.laneAt lane = s.laneOf job.key := (laneOf_of_get? hget).symm
  generalize hs' : s.enqueue lane job = s'
  have hlanes : s'.lanes = s.lanes := by rw [← hs']; rfl
  have hholders : s'.holders = s.holders := by rw [← hs']; rfl
  have hlaneAt : s'.laneAt = Function.update s.laneAt lane
      ⟨(s.laneOf job.key).pending ++ [job], (s.laneOf job.key).running⟩ := by
    rw [← hs', ← hlane]
    rfl
  have hview : s'.laneOf = Function.update s.laneOf job.key
      ⟨(s.laneOf job.key).pending ++ [job], (s.laneOf job.key).running⟩ := by
    refine hs.laneOf_update hget ?_ (fun _ _ => by rw [hlanes]) fun lane' hne => ?_
    · rw [laneOf_of_get? (hlanes ▸ hget), hlaneAt, Function.update_self]
    · rw [hlaneAt, Function.update_of_ne hne]
  have hready : s'.ready = if (s.laneOf job.key).running = false ∧ job.key ∉ s.ready then
      s.ready ++ [job.key] else s.ready := by
    rw [← hs', ← hlane]
    rfl
  have hqueued : s'.queued = s.queued ++ [job] := by rw [← hs']; rfl
  constructor
  case active_eq => rw [hholders, ← hs.active_eq, ← hs']; rfl
  case holder_keys => rw [hholders]; exact hs.holder_keys
  case lane_of_holder => rw [hholders, hlanes]; exact hs.lane_of_holder
  case running_iff =>
    intro key
    rw [hview, hholders, ← hs.running_iff, Function.update_apply]
    split
    · rename_i hkey
      rw [hkey]
    · rfl
  case lane_injective => rw [hlanes]; exact hs.lane_injective
  case lane_lt => rw [hlanes, ← hs']; exact hs.lane_lt
  case ready_nodup =>
    rw [hready]
    split
    · rename_i hnew
      rw [← concat_eq_append, nodup_concat]
      exact ⟨hnew.2, hs.ready_nodup⟩
    · exact hs.ready_nodup
  case mem_ready =>
    intro key
    have hjob := hs.mem_ready job.key
    rw [hready, hview, Function.update_apply]
    by_cases hkey : key = job.key
    · rw [if_pos hkey, hkey]
      have hne : (s.laneOf job.key).pending ++ [job] ≠ [] := by simp
      rw [and_iff_left hne]
      split
      · rename_i hnew
        exact iff_of_true (by simp) hnew.1
      · rename_i hold
        rw [not_and, not_not] at hold
        exact ⟨fun h => (hjob.1 h).1, hold⟩
    · rw [if_neg hkey, ← hs.mem_ready]
      split
      · simp [hkey]
      · rfl
  case order =>
    intro key
    have hstarted : s'.startedOf key = s.startedOf key := by rw [← hs']; rfl
    rw [queuedOf, hqueued, filter_append, hstarted, hview, Function.update_apply, ← queuedOf,
      hs.order]
    by_cases hkey : key = job.key
    · rw [if_pos hkey, hkey, filter_cons_of_pos (by simp), append_assoc]
      rfl
    · rw [if_neg hkey, filter_cons_of_neg (by simpa using Ne.symm hkey), filter_nil,
        append_nil]
  case ids =>
    rw [hqueued, map_append, hs.ids, length_append, length_singleton,
      range_succ, map_singleton, hid]

/-! ## Freeing a lane -/

theorem Sound.free_started (hs : s.Sound) (ht : t ∈ s.started) :
    ∃ before after, s.started = before ++ t :: after ∧
      (s.free t).started = before ++ { t with released := true } :: after := by
  obtain ⟨before, after, hsplit⟩ := append_of_mem ht
  refine ⟨before, after, hsplit, ?_⟩
  have hnodup := hs.started_nodup
  rw [hsplit, map_append, map_cons, nodup_middle, nodup_cons,
    ← map_append] at hnodup
  have hother : ∀ u ∈ before ++ after,
      (if u.job = t.job then { u with released := true } else u) = u := by
    intro u hu
    exact if_neg fun heq => hnodup.1 (mem_map.2 ⟨u, hu, heq⟩)
  change s.started.map _ = _
  rw [hsplit, map_append, map_cons, if_pos rfl,
    map_congr_left fun u hu => hother u (mem_append_left after hu),
    map_congr_left fun u hu => hother u (mem_append_right before hu), map_id',
    map_id']

theorem Sound.free_holders (hs : s.Sound) (ht : t ∈ s.holders) :
    s.holders.length = (s.free t).holders.length + 1 ∧
      ((s.free t).holders.map fun u => u.job.key).Nodup ∧
      ∀ u, u ∈ (s.free t).holders ↔ u ∈ s.holders ∧ u.job.key ≠ t.job.key := by
  obtain ⟨hstarted, hreleased⟩ := mem_holders.1 ht
  obtain ⟨before, after, hsplit, hsplit'⟩ := hs.free_started hstarted
  have hold : s.holders = before.filter (fun u => !u.released) ++
      t :: after.filter fun u => !u.released := by
    rw [holders, hsplit, filter_append, filter_cons_of_pos (by simp [hreleased])]
  have hnew : (s.free t).holders = before.filter (fun u => !u.released) ++
      after.filter fun u => !u.released := by
    rw [holders, hsplit', filter_append, filter_cons_of_neg (by simp)]
  have hkeys := hs.holder_keys
  rw [hold, map_append, map_cons, nodup_middle, nodup_cons,
    ← map_append, ← hnew] at hkeys
  refine ⟨?_, hkeys.2, fun u => ⟨fun hu => ⟨?_, ?_⟩, fun ⟨hu, hne⟩ => ?_⟩⟩
  · rw [hold, hnew, length_append, length_cons, length_append, Nat.add_assoc]
  · rw [hnew, mem_append] at hu
    rw [hold, mem_append, mem_cons]
    exact hu.imp_right .inr
  · exact fun heq => hkeys.1 (mem_map.2 ⟨u, hu, heq⟩)
  · rw [hold, mem_append, mem_cons] at hu
    rw [hnew, mem_append]
    exact hu.imp_right fun h => h.resolve_left fun heq => hne (heq ▸ rfl)

theorem Sound.free (hs : s.Sound) (ht : t ∈ s.holders) : (s.free t).Sound := by
  obtain ⟨hlength, hkeys, hmem⟩ := hs.free_holders ht
  obtain ⟨before, after, hsplit, hsplit'⟩ := hs.free_started (mem_holders.1 ht).1
  have hget := hs.lane_of_holder t ht
  have hlane : s.laneAt t.lane = s.laneOf t.job.key := (laneOf_of_get? hget).symm
  have hbusy : (s.laneOf t.job.key).running = true := (hs.running_iff _).2 ⟨t, ht, rfl⟩
  have hnot : t.job.key ∉ s.ready := fun h =>
    Bool.false_ne_true (((hs.mem_ready _).1 h).1.symm.trans hbusy)
  have hactive : (s.free t).active = s.active - 1 := rfl
  have hlanes : (s.free t).lanes = if (s.laneOf t.job.key).pending = [] then
      s.lanes.delete t.job.key else s.lanes := by
    rw [← hlane]
    rfl
  have hready : (s.free t).ready = if (s.laneOf t.job.key).pending = [] then s.ready
      else s.ready ++ [t.job.key] := by
    rw [← hlane]
    rfl
  have hlaneAt : (s.free t).laneAt =
      Function.update s.laneAt t.lane ⟨(s.laneOf t.job.key).pending, false⟩ := by
    rw [← hlane]
    rfl
  have hstartedOf : ∀ key, (s.free t).startedOf key = s.startedOf key := by
    intro key
    rw [startedOf, startedOf, hsplit, hsplit', map_append, map_append]
    rfl
  have hqueuedOf : (s.free t).queuedOf = s.queuedOf := rfl
  have hids : (s.free t).queued = s.queued := rfl
  have hnext : (s.free t).nextLane = s.nextLane := rfl
  generalize s.free t = s' at *
  have hlanes_of_ne : ∀ key ≠ t.job.key, s'.lanes.get? key = s.lanes.get? key := by
    intro key hne
    rw [hlanes]
    split
    · rw [Map.get?_delete, if_neg hne]
    · rfl
  have hlanes_le : ∀ key lane, s'.lanes.get? key = some lane → s.lanes.get? key = some lane := by
    intro key lane h
    rw [hlanes] at h
    split at h
    · rw [Map.get?_delete] at h
      split at h
      · cases h
      · exact h
    · exact h
  have hview : s'.laneOf =
      Function.update s.laneOf t.job.key ⟨(s.laneOf t.job.key).pending, false⟩ := by
    refine hs.laneOf_update hget ?_ hlanes_of_ne fun lane' hne => ?_
    · by_cases hpending : (s.laneOf t.job.key).pending = []
      · rw [if_pos hpending] at hlanes
        rw [hpending, laneOf_of_get?_none]
        rw [hlanes, Map.get?_delete, if_pos rfl]
      · rw [if_neg hpending] at hlanes
        rw [laneOf_of_get? (hlanes ▸ hget), hlaneAt, Function.update_self]
    · rw [hlaneAt, Function.update_of_ne hne]
  constructor
  case active_eq =>
    rw [hactive, hs.active_eq, hlength, Nat.cast_add, Nat.cast_one, add_sub_cancel_right]
  case holder_keys => exact hkeys
  case lane_of_holder =>
    intro u hu
    obtain ⟨hu, hne⟩ := (hmem u).1 hu
    rw [hlanes_of_ne _ hne]
    exact hs.lane_of_holder u hu
  case running_iff =>
    intro key
    rw [hview, Function.update_apply]
    by_cases hkey : key = t.job.key
    · rw [if_pos hkey]
      refine iff_of_false Bool.false_ne_true ?_
      rintro ⟨u, hu, hukey⟩
      exact ((hmem u).1 hu).2 (hukey.trans hkey)
    · rw [if_neg hkey, hs.running_iff]
      refine exists_congr fun u => and_congr_left fun hukey => ?_
      rw [hmem, and_iff_left (hukey ▸ hkey)]
  case lane_injective =>
    intro k k' lane h h'
    exact hs.lane_injective k k' lane (hlanes_le k lane h) (hlanes_le k' lane h')
  case lane_lt =>
    intro k lane h
    rw [hnext]
    exact hs.lane_lt k lane (hlanes_le k lane h)
  case ready_nodup =>
    rw [hready]
    split
    · exact hs.ready_nodup
    · rw [← concat_eq_append, nodup_concat]
      exact ⟨hnot, hs.ready_nodup⟩
  case mem_ready =>
    intro key
    rw [hready, hview, Function.update_apply]
    by_cases hkey : key = t.job.key
    · rw [if_pos hkey, hkey]
      split
      · rename_i hpending
        exact iff_of_false hnot fun h => h.2 hpending
      · rename_i hpending
        exact iff_of_true (by simp) ⟨rfl, hpending⟩
    · rw [if_neg hkey, ← hs.mem_ready]
      split
      · rfl
      · simp [hkey]
  case order =>
    intro key
    rw [hqueuedOf, hstartedOf, hs.order, hview, Function.update_apply]
    split
    · rename_i hkey
      rw [hkey]
    · rfl
  case ids => rw [hids]; exact hs.ids

/-! ## Every run -/

/-- Between two events: the invariant, the cap, and no idle lane with work below it. -/
structure Settled (cap : Number) (s : LaneScheduler) : Prop where
  sound : s.Sound
  within : Number.above s.active cap = false
  pumped : s.ready = [] ∨ Number.below s.active cap = false

section

variable {cap : Number} (hcap : ∀ n, Number.below n cap = true → Number.above (n + 1) cap = false)

include hcap

theorem settled_pump {s : LaneScheduler} (hs : s.Sound) (hwithin : Number.above s.active cap = false) :
    (s.pump cap).Settled cap := by
  obtain ⟨hsound, hwithin, hpumped⟩ := hs.pumpKeys hcap hwithin rfl
  exact ⟨hsound, hwithin, hpumped⟩

theorem Settled.run {s : LaneScheduler} (hs : s.Settled cap) (key : String) :
    (s.run cap key).Settled cap := by
  obtain ⟨hsound, hget, hactive⟩ := hs.sound.laneFor key
  refine settled_pump hcap (hsound.enqueue hget rfl) ?_
  change Number.above (s.laneFor key).1.active cap = false
  rw [hactive]
  exact hs.within

theorem Settled.release {s : LaneScheduler} (hs : s.Settled cap) (id : ℕ) :
    (s.release cap id).Settled cap := by
  rw [LaneScheduler.release]
  split
  · exact hs
  · rename_i t hfind
    split
    · exact hs
    · rename_i hreleased
      have ht : t ∈ s.holders :=
        mem_holders.2 ⟨mem_of_find?_eq_some hfind, Bool.eq_false_iff.2 hreleased⟩
      refine settled_pump hcap (hs.sound.free ht) ?_
      exact Number.above_mono (sub_le_self s.active zero_le_one) hs.within

theorem Settled.handle {s : LaneScheduler} (hs : s.Settled cap) (event : LaneEvent) :
    (s.handle cap event).Settled cap := by
  cases event with
  | run key => exact hs.run hcap key
  | release id => exact hs.release hcap id

end

/-! ## What the events say -/

theorem pumpKey_frame (s : LaneScheduler) (key : String) : (s.pumpKey key).queued = s.queued ∧
    ∃ new, (s.pumpKey key).started = s.started ++ new ∧ ∀ t ∈ new, t.released = false := by
  have hsame : ∃ new, s.started = s.started ++ new ∧ ∀ t ∈ new, t.released = false :=
    ⟨[], (append_nil _).symm, fun t ht => absurd ht not_mem_nil⟩
  rw [LaneScheduler.pumpKey]
  split
  · exact ⟨rfl, hsame⟩
  · rename_i lane _
    split
    · exact ⟨rfl, hsame⟩
    · rename_i job _ _
      exact ⟨rfl, [⟨job, lane, false⟩], rfl, by simp⟩

theorem pumpKeys_frame (cap : Number) (keys : List String) (s : LaneScheduler) :
    (LaneScheduler.pumpKeys cap keys s).queued = s.queued ∧
    ∃ new, (LaneScheduler.pumpKeys cap keys s).started = s.started ++ new ∧ ∀ t ∈ new, t.released = false := by
  induction keys generalizing s with
  | nil => exact ⟨rfl, [], (append_nil _).symm, fun t ht => absurd ht not_mem_nil⟩
  | cons key rest ih =>
    rw [LaneScheduler.pumpKeys]
    split
    · obtain ⟨hqueued, new, hstarted, hnew⟩ := pumpKey_frame { s with ready := rest } key
      obtain ⟨hqueued', new', hstarted', hnew'⟩ := ih (({ s with ready := rest } : LaneScheduler).pumpKey key)
      refine ⟨hqueued'.trans hqueued, new ++ new', ?_, ?_⟩
      · rw [hstarted', hstarted, append_assoc]
      · exact fun t ht => (mem_append.1 ht).elim (hnew t) (hnew' t)
    · exact ⟨rfl, [], (append_nil _).symm, fun t ht => absurd ht not_mem_nil⟩

theorem laneFor_frame (s : LaneScheduler) (key : String) :
    (s.laneFor key).1.queued = s.queued ∧ (s.laneFor key).1.started = s.started := by
  rw [LaneScheduler.laneFor]
  split
  · exact ⟨rfl, rfl⟩
  · exact ⟨rfl, rfl⟩

/-- A call of `run` queues its task, and what it starts has its lane. -/
theorem run_frame (cap : Number) (s : LaneScheduler) (key : String) :
    (s.run cap key).queued.map Job.key = s.queued.map Job.key ++ [key] ∧
    ∃ new, (s.run cap key).started = s.started ++ new ∧ ∀ t ∈ new, t.released = false := by
  obtain ⟨hqueued, hstarted⟩ := laneFor_frame s key
  obtain ⟨hqueued', new, hnew, hfree⟩ := pumpKeys_frame cap
    ((s.laneFor key).1.enqueue (s.laneFor key).2 ⟨(s.laneFor key).1.queued.length, key⟩).ready
    ((s.laneFor key).1.enqueue (s.laneFor key).2 ⟨(s.laneFor key).1.queued.length, key⟩)
  refine ⟨?_, new, hnew.trans (congrArg (· ++ new) hstarted), hfree⟩
  refine (congrArg (List.map Job.key) hqueued').trans ?_
  change ((s.laneFor key).1.queued ++ [_]).map Job.key = _
  rw [hqueued, map_append]
  rfl

theorem Sound.job_eq_of_id (hs : s.Sound) {u : StartedJob} (ht : t ∈ s.started)
    (hu : u ∈ s.started) (h : t.job.id = u.job.id) : t.job = u.job := by
  have hqueued : ∀ v ∈ s.started, v.job ∈ s.queued := by
    intro v hv
    refine mem_of_mem_filter (p := fun job => decide (job.key = v.job.key)) ?_
    change v.job ∈ s.queuedOf v.job.key
    rw [hs.order, mem_append]
    exact .inl (mem_filter.2 ⟨mem_map_of_mem hv, decide_eq_true rfl⟩)
  exact inj_on_of_nodup_map (hs.ids ▸ nodup_range) (hqueued t ht) (hqueued u hu) h

/-- What an event does to the tasks that were started: they stay, a released one stays released, and
only a releaser releases its task. -/
theorem Sound.handle_started (hs : s.Sound) (cap : Number) (event : LaneEvent) :
    (∀ u ∈ s.started, ∃ t ∈ (s.handle cap event).started, t.job = u.job ∧
      (u.released = true ∨ event = .release u.job.id → t.released = true)) ∧
    ∀ t ∈ (s.handle cap event).started, t.released = true →
      ∃ u ∈ s.started, u.job = t.job ∧ (u.released = true ∨ event = .release t.job.id) := by
  cases event with
  | run key =>
    obtain ⟨-, new, hstarted, hnew⟩ := run_frame cap s key
    change (∀ u ∈ s.started, ∃ t ∈ (s.run cap key).started, _) ∧ ∀ t ∈ (s.run cap key).started, _
    rw [hstarted]
    refine ⟨fun u hu => ⟨u, mem_append_left _ hu, rfl, fun h => h.resolve_right fun heq => by cases heq⟩, ?_⟩
    intro t ht hreleased
    obtain ht | ht := mem_append.1 ht
    · exact ⟨t, ht, rfl, .inl hreleased⟩
    · exact absurd ((hnew t ht).symm.trans hreleased) Bool.false_ne_true
  | release id =>
    have hother : ∀ (s' : LaneScheduler), s'.started = s.started →
        (∀ u ∈ s.started, u.job.id = id → u.released = true) →
        (∀ u ∈ s.started, ∃ t ∈ s'.started, t.job = u.job ∧
          (u.released = true ∨ LaneEvent.release id = .release u.job.id → t.released = true)) ∧
        ∀ t ∈ s'.started, t.released = true →
          ∃ u ∈ s.started, u.job = t.job ∧ (u.released = true ∨ LaneEvent.release id = .release t.job.id) := by
      intro s' hstarted hall
      rw [hstarted]
      refine ⟨fun u hu => ⟨u, hu, rfl, fun h => h.elim (fun h => h) fun heq => ?_⟩,
        fun t ht hreleased => ⟨t, ht, rfl, .inl hreleased⟩⟩
      exact hall u hu (LaneEvent.release.inj heq).symm
    change (∀ u ∈ s.started, ∃ t ∈ (s.release cap id).started, _) ∧ ∀ t ∈ (s.release cap id).started, _
    rw [LaneScheduler.release]
    split
    · rename_i hnone
      refine hother s rfl fun u hu hid => ?_
      exact absurd (decide_eq_true hid) (List.find?_eq_none.1 hnone u hu)
    · rename_i found hfind
      have hfound := mem_of_find?_eq_some hfind
      have hid : found.job.id = id := by simpa using List.find?_some hfind
      split
      · rename_i hreleased
        refine hother s rfl fun u hu hu' => ?_
        have hsame := hs.job_eq_of_id hu hfound (hu'.trans hid.symm)
        rwa [inj_on_of_nodup_map hs.started_nodup hu hfound hsame]
      · obtain ⟨-, new, hstarted, hnew⟩ := pumpKeys_frame cap (s.free found).ready (s.free found)
        change (∀ u ∈ s.started, ∃ t ∈ (LaneScheduler.pumpKeys cap _ (s.free found)).started, _) ∧
          ∀ t ∈ (LaneScheduler.pumpKeys cap _ (s.free found)).started, _
        rw [hstarted]
        constructor
        · intro u hu
          refine ⟨if u.job = found.job then { u with released := true } else u,
            mem_append_left _ (mem_map_of_mem hu), ?_⟩
          split
          · exact ⟨rfl, fun _ => rfl⟩
          · rename_i hne
            refine ⟨rfl, fun h => h.resolve_right fun heq => hne (hs.job_eq_of_id hu hfound ?_)⟩
            rw [hid, LaneEvent.release.inj heq]
        · intro t ht hreleased
          obtain ht | ht := mem_append.1 ht
          · obtain ⟨u, hu, rfl⟩ := mem_map.1 ht
            refine ⟨u, hu, ?_⟩
            split
            · rename_i heq
              exact ⟨rfl, .inr (by rw [← hid, heq])⟩
            · rename_i hne
              rw [if_neg hne] at hreleased
              exact ⟨rfl, .inl hreleased⟩
          · exact absurd ((hnew t ht).symm.trans hreleased) Bool.false_ne_true

end LaneScheduler

open LaneScheduler

theorem above_laneCap_of_below {maxConcurrent : Number} (n : ℤ)
    (h : Number.below n (laneCap maxConcurrent) = true) :
    Number.above (n + 1) (laneCap maxConcurrent) = false := by
  cases maxConcurrent with
  | finite q =>
    rw [laneCap, Number.maxInt_floor_finite] at *
    simp only [Number.below, Number.above, decide_eq_true_eq, decide_eq_false_iff_not, not_lt,
      Int.cast_lt] at *
    exact h
  | posInf => rfl
  | negInf =>
    simp only [laneCap, Number.floor, Number.maxInt, Number.below, Number.above, decide_eq_true_eq,
      decide_eq_false_iff_not, not_lt, Int.cast_lt] at *
    exact h
  | nan => rfl

theorem settled_createLaneScheduler (maxConcurrent : Number) :
    createLaneScheduler.Settled (laneCap maxConcurrent) where
  sound := sound_createLaneScheduler
  within := by
    cases maxConcurrent with
    | finite q =>
      rw [laneCap, Number.maxInt_floor_finite]
      simp [Number.above, createLaneScheduler]
    | posInf => rfl
    | negInf => rfl
    | nan => rfl
  pumped := .inl rfl

theorem settled_laneSchedulerAfter (maxConcurrent : Number) (events : List LaneEvent) :
    (laneSchedulerAfter maxConcurrent events).Settled (laneCap maxConcurrent) := by
  induction events using List.reverseRecOn with
  | nil => exact settled_createLaneScheduler maxConcurrent
  | append_singleton events event ih =>
    rw [laneSchedulerAfter, foldl_append]
    exact ih.handle above_laneCap_of_below event

theorem laneSchedulerAfter_append (maxConcurrent : Number) (before after : List LaneEvent) :
    laneSchedulerAfter maxConcurrent (before ++ after) =
      after.foldl (LaneScheduler.handle (laneCap maxConcurrent)) (laneSchedulerAfter maxConcurrent before) :=
  foldl_append

theorem queued_laneSchedulerAfter (maxConcurrent : Number) (events : List LaneEvent) :
    (laneSchedulerAfter maxConcurrent events).queued.map Job.key = runKeys events := by
  induction events using List.reverseRecOn with
  | nil => rfl
  | append_singleton events event ih =>
    rw [laneSchedulerAfter_append, runKeys, filterMap_append, ← runKeys, ← ih]
    cases event with
    | run key => exact (run_frame _ _ key).1
    | release id =>
      change ((laneSchedulerAfter maxConcurrent events).release _ id).queued.map Job.key = _ ++ []
      rw [append_nil, LaneScheduler.release]
      split
      · rfl
      · split
        · rfl
        · exact congrArg (List.map Job.key) (pumpKeys_frame _ _ _).1

theorem released_stays (maxConcurrent : Number) (before after : List LaneEvent) {u : StartedJob}
    (hu : u ∈ (laneSchedulerAfter maxConcurrent before).started) (hreleased : u.released = true) :
    ∃ t ∈ (laneSchedulerAfter maxConcurrent (before ++ after)).started, t.job = u.job ∧ t.released = true := by
  induction after using List.reverseRecOn with
  | nil => exact ⟨u, by rwa [append_nil], rfl, hreleased⟩
  | append_singleton after event ih =>
    obtain ⟨v, hv, hjob, hvreleased⟩ := ih
    rw [← append_assoc, laneSchedulerAfter_append]
    obtain ⟨t, ht, htjob, hkeep⟩ :=
      ((settled_laneSchedulerAfter maxConcurrent (before ++ after)).sound.handle_started
        (laneCap maxConcurrent) event).1 v hv
    exact ⟨t, ht, htjob.trans hjob, hkeep (.inl hvreleased)⟩

/-- A task has given its lane up exactly when its releaser was called after it had been started. -/
theorem released_iff (maxConcurrent : Number) (events : List LaneEvent) {t : StartedJob}
    (ht : t ∈ (laneSchedulerAfter maxConcurrent events).started) : t.released = true ↔
      ∃ before after, events = before ++ .release t.job.id :: after ∧
        t.job ∈ (laneSchedulerAfter maxConcurrent before).started.map StartedJob.job := by
  constructor
  · intro hreleased
    induction events using List.reverseRecOn generalizing t with
    | nil => cases ht
    | append_singleton events event ih =>
      rw [laneSchedulerAfter_append] at ht
      obtain ⟨u, hu, hjob, hwhy⟩ := ((settled_laneSchedulerAfter maxConcurrent events).sound.handle_started
        (laneCap maxConcurrent) event).2 t ht hreleased
      obtain hureleased | rfl := hwhy
      · obtain ⟨before, after, rfl, hstarted⟩ := ih hu hureleased
        rw [hjob] at hstarted
        exact ⟨before, after ++ [event], by rw [hjob, append_assoc, cons_append], hstarted⟩
      · exact ⟨events, [], rfl, hjob ▸ mem_map_of_mem hu⟩
  · rintro ⟨before, after, rfl, hstarted⟩
    obtain ⟨u, hu, hjob⟩ := mem_map.1 hstarted
    obtain ⟨v, hv, hvjob, hrelease⟩ := ((settled_laneSchedulerAfter maxConcurrent before).sound.handle_started
      (laneCap maxConcurrent) (.release t.job.id)).1 u hu
    have hv' : v ∈ (laneSchedulerAfter maxConcurrent (before ++ [.release t.job.id])).started := by
      rwa [laneSchedulerAfter_append]
    obtain ⟨w, hw, hwjob, hwreleased⟩ :=
      released_stays maxConcurrent _ after hv' (hrelease (.inr (by rw [hjob])))
    rw [append_assoc, singleton_append] at hw
    have hs := (settled_laneSchedulerAfter maxConcurrent (before ++ .release t.job.id :: after)).sound
    rwa [← inj_on_of_nodup_map hs.started_nodup hw ht (hwjob.trans (hvjob.trans hjob))]

/-- **The discipline of the lanes.** After any calls of `run` and of releasers, in any order: the
tasks are those of the calls, one for each; a task that was started holds its lane until its
releaser is called; the tasks that hold a lane are not above the cap, and at most the cap when it is
a number; no two of them have one key; the tasks of a key are started in the order in which they
were queued; no task is started twice; and a key with a waiting task has a holder, unless the cap is
reached. -/
theorem lane_discipline (maxConcurrent : Number) (events : List LaneEvent) :
    let s := laneSchedulerAfter maxConcurrent events
    s.queued.map Job.key = runKeys events ∧
      s.queued.map Job.id = List.range s.queued.length ∧
      (∀ t ∈ s.started, t.released = true ↔ ∃ before after, events = before ++ .release t.job.id :: after ∧
        t.job ∈ (laneSchedulerAfter maxConcurrent before).started.map StartedJob.job) ∧
      Number.above s.holders.length (laneCap maxConcurrent) = false ∧
      (∀ q, maxConcurrent = .finite q → (s.holders.length : ℤ) ≤ max 1 ⌊q⌋) ∧
      (s.holders.map fun t => t.job.key).Nodup ∧
      (∀ key, s.queuedOf key = s.startedOf key ++ s.waitingOf key) ∧
      (s.queued.Nodup ∧ (s.started.map StartedJob.job).Nodup) ∧
      (Number.below s.holders.length (laneCap maxConcurrent) = true →
        ∀ key, s.waitingOf key ≠ [] → ∃ t ∈ s.holders, t.job.key = key) := by
  intro s
  have hs : s.Settled (laneCap maxConcurrent) := settled_laneSchedulerAfter maxConcurrent events
  have hwithin : Number.above s.holders.length (laneCap maxConcurrent) = false :=
    hs.sound.active_eq ▸ hs.within
  refine ⟨queued_laneSchedulerAfter maxConcurrent events, hs.sound.ids,
    fun t ht => released_iff maxConcurrent events ht, hwithin, ?_, hs.sound.holder_keys, hs.sound.order, ?_, ?_⟩
  · intro q hq
    rw [hq, laneCap, Number.maxInt_floor_finite] at hwithin
    simpa only [Number.above, decide_eq_false_iff_not, not_lt, Int.cast_le] using hwithin
  · exact ⟨List.Nodup.of_map Job.id (hs.sound.ids ▸ nodup_range), hs.sound.started_nodup⟩
  · intro hbelow key hwaiting
    refine hs.sound.holder_of_waiting (hs.pumped.resolve_right ?_) hwaiting
    rw [hs.sound.active_eq, hbelow]
    exact Bool.false_ne_true.symm

end TurboPanel.Commands
