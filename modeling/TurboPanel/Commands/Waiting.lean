import TurboPanel.Commands.Consumer

/-!
# A command that waits its turn does not expire

A look at a server that is busy stamps the command that waits: its row was just seen, and its expiry
moves on by the time since the last stamp, but never closer than a floor. Stamps are skipped while
the last one is recent. `Waits` is what holds after a look whether it stamped or not; the next look
comes within the longest delay, so it finds the row alive and restores it (`Waits.next`).
-/

namespace TurboPanel.CommandRecords

open List

/-! ## The delay between two looks -/

/-- `SERVER_BUSY_LONGEST_DELAY_SECONDS`. -/
def serverBusyLongestDelaySeconds : ℤ := 30

/-! ## One look -/

/-- A look at the turn of a command that finds its server busy: the unlocked check, or the stamp
behind the lock. -/
inductive BusyLook (id : String) (now : ℤ) (e : Env) (s : CommandStore) : Op → Prop
  | unlocked {input : ServerTurnInput} (hid : input.commandId = id)
      (hblocked : answer e s (.blockedAndStamped input now) = true) : BusyLook id now e s (.blockedAndStamped input now)
  | locked : BusyLook id now e s (.stampWaiting id now)

/-- The row after a look. -/
def lookedAt (now : ℤ) (row : CommandRow) : CommandRow :=
  if row.updatedAt < now - waitingStampIntervalMs then stampedRow now row else row

@[simp] theorem lookedAt_key (now : ℤ) (row : CommandRow) : (lookedAt now row).key = row.key := by
  unfold lookedAt
  split <;> rfl

@[simp] theorem lookedAt_status (now : ℤ) (row : CommandRow) : (lookedAt now row).status = row.status := by
  unfold lookedAt
  split <;> rfl

theorem onRow_of_busyLook {id : String} {now : ℤ} {e : Env} {s : CommandStore} {o : Op} {row : CommandRow}
    (h : BusyLook id now e s o) (hid : row.key.id = id) (hqueued : row.status = .queued) :
    o.onRow e s row = lookedAt now row := by
  unfold Op.onRow lookedAt
  cases h with
  | @unlocked input hinput hblocked =>
    have hblocked : s.blockingCommandExists s.clock input = true := hblocked
    by_cases hdue : row.updatedAt < now - waitingStampIntervalMs
    · rw [if_pos hdue, if_pos (by simp [Op.guard, hid, hinput, hqueued, hdue, hblocked])]
      rfl
    · rw [if_neg hdue, if_neg (by simp [Op.guard, hdue])]
  | locked =>
    by_cases hdue : row.updatedAt < now - waitingStampIntervalMs
    · rw [if_pos hdue, if_pos (by simp [Op.guard, hid, hqueued, hdue])]
      rfl
    · rw [if_neg hdue, if_neg (by simp [Op.guard, hdue])]

/-- The expiry did not move back, and there is none where there was none. -/
structure Credited (row row' : CommandRow) : Prop where
  none : row.expiresAt = none → row'.expiresAt = none
  later : ∀ expiry, row.expiresAt = some expiry → ∃ expiry', row'.expiresAt = some expiry' ∧ expiry ≤ expiry'

theorem credited_lookedAt (now : ℤ) (row : CommandRow) : Credited row (lookedAt now row) := by
  unfold lookedAt
  split
  · rename_i hdue
    refine ⟨fun hnone => ?_, fun expiry hsome => ?_⟩
    · simp [stampedRow, hnone]
    · refine ⟨max (expiry + (now - row.updatedAt)) (now + waitingExpiryFloorMs), by simp [stampedRow, hsome], ?_⟩
      have hcredit : 0 ≤ now - row.updatedAt := by
        unfold waitingStampIntervalMs at hdue
        omega
      exact le_max_of_le_left (by omega)
  · exact ⟨id, fun expiry hsome => ⟨expiry, hsome, le_rfl⟩⟩

/-! ## The invariant -/

/-- After a look at this time: the last stamp is recent, and the expiry is at the floor behind it or
later. -/
structure Waits (now : ℤ) (row : CommandRow) : Prop where
  recent : now ≤ row.updatedAt + waitingStampIntervalMs
  floor : ∀ expiry, row.expiresAt = some expiry → row.updatedAt + waitingExpiryFloorMs ≤ expiry

theorem Waits.stamped {now : ℤ} {row : CommandRow} (hdue : row.updatedAt < now - waitingStampIntervalMs) :
    Waits now (lookedAt now row) := by
  unfold lookedAt
  rw [if_pos hdue]
  refine ⟨?_, fun expiry hexpiry => ?_⟩
  · change now ≤ now + waitingStampIntervalMs
    unfold waitingStampIntervalMs
    omega
  · obtain ⟨before, -, rfl⟩ := Option.map_eq_some_iff.1 hexpiry
    exact le_max_right _ _

/-- **The next look finds the command alive**, and leaves it so. -/
theorem Waits.next {now now' : ℤ} {row : CommandRow} (h : Waits now row)
    (hgap : now' ≤ now + serverBusyLongestDelaySeconds * 1000) :
    (∀ expiry, row.expiresAt = some expiry → now' < expiry) ∧ now' - row.updatedAt < olderQueuedWaitMs ∧
      Waits now' (lookedAt now' row) := by
  have hrecent := h.recent
  unfold waitingStampIntervalMs at hrecent
  unfold serverBusyLongestDelaySeconds at hgap
  refine ⟨fun expiry hexpiry => ?_, ?_, ?_⟩
  · have hfloor := h.floor expiry hexpiry
    unfold waitingExpiryFloorMs at hfloor
    omega
  · unfold olderQueuedWaitMs
    omega
  · by_cases hdue : row.updatedAt < now' - waitingStampIntervalMs
    · exact Waits.stamped hdue
    · unfold lookedAt
      rw [if_neg hdue]
      exact ⟨by omega, h.floor⟩

/-! ## Sequences of looks -/

/-- One look of a sequence: the database at the time, and the statement. -/
structure Look where
  now : ℤ
  env : Env
  store : CommandStore
  op : Op

/-- The row after the looks of a sequence. -/
def rowAfter (row : CommandRow) (looks : List Look) : CommandRow :=
  looks.foldl (fun row look => look.op.onRow look.env look.store row) row

/-- Each look comes at most the longest delay after the one before it. -/
def Prompt (now : ℤ) : List Look → Prop
  | [] => True
  | look :: looks => look.now ≤ now + serverBusyLongestDelaySeconds * 1000 ∧ Prompt look.now looks

/-- The command is alive when it is looked at: its expiry lies ahead, and its place in the line is
kept. -/
structure Alive (look : Look) (row : CommandRow) : Prop where
  queued : row.status = .queued
  expiry : ∀ expiry, row.expiresAt = some expiry → look.now < expiry
  placed : look.now - row.updatedAt < olderQueuedWaitMs

theorem alive_of_waits {id : String} : ∀ {looks : List Look} {now : ℤ} {row : CommandRow}, Waits now row →
    row.key.id = id → row.status = .queued →
    (∀ look ∈ looks, BusyLook id look.now look.env look.store look.op) → Prompt now looks →
      ∀ {before look after}, looks = before ++ look :: after →
        Alive look (rowAfter row before) ∧ Credited (rowAfter row before) (rowAfter row (before ++ [look]))
  | [], _, _, _, _, _, _, _, _, _, _, h => by simp at h
  | first :: looks, now, row, hwaits, hid, hqueued, hbusy, hprompt, before, look, after, h => by
    obtain ⟨hexpiry, hplaced, hnext⟩ := hwaits.next hprompt.1
    have hrow := onRow_of_busyLook (hbusy first mem_cons_self) hid hqueued
    have hafter : ∀ before, rowAfter row (first :: before) = rowAfter (lookedAt first.now row) before := by
      intro before
      change rowAfter (first.op.onRow first.env first.store row) before = _
      rw [hrow]
    cases before with
    | nil =>
      cases h
      refine ⟨⟨hqueued, hexpiry, hplaced⟩, ?_⟩
      rw [nil_append, hafter]
      exact credited_lookedAt first.now row
    | cons first' before =>
      obtain ⟨rfl, hrest⟩ := List.cons.inj h
      rw [cons_append, hafter, hafter]
      exact alive_of_waits hnext (by simpa using hid) (by simpa using hqueued)
        (fun look hlook => hbusy look (mem_cons_of_mem _ hlook)) hprompt.2 hrest

/-- **Waiting never expires a command.** From a look that stamps it, every look that follows within
the longest delay of the one before finds the command alive, with its place in the line; and no look
moves its expiry back. -/
theorem waiting_never_expires {id : String} {row : CommandRow} {first : Look} {looks : List Look}
    (hid : row.key.id = id) (hqueued : row.status = .queued)
    (hstamps : row.updatedAt < first.now - waitingStampIntervalMs)
    (hbusy : ∀ look ∈ first :: looks, BusyLook id look.now look.env look.store look.op)
    (hprompt : Prompt first.now looks) :
    Credited row (rowAfter row [first]) ∧ ∀ before look after, looks = before ++ look :: after →
      Alive look (rowAfter row (first :: before)) ∧
        Credited (rowAfter row (first :: before)) (rowAfter row (first :: (before ++ [look]))) := by
  have hrow := onRow_of_busyLook (hbusy first mem_cons_self) hid hqueued
  have hafter : ∀ before, rowAfter row (first :: before) = rowAfter (lookedAt first.now row) before := by
    intro before
    change rowAfter (first.op.onRow first.env first.store row) before = _
    rw [hrow]
  refine ⟨?_, fun before look after hlooks => ?_⟩
  · rw [hafter]
    exact credited_lookedAt first.now row
  · rw [hafter, hafter]
    exact alive_of_waits (Waits.stamped hstamps) (by simpa using hid) (by simpa using hqueued)
      (fun look hlook => hbusy look (mem_cons_of_mem _ hlook)) hprompt hlooks

/-- A command that is valid for a minute. -/
def minuteCommand : CommandRow := newCommand ⟨"command", "server", .serverReboot, 0⟩ (some 60000)

/-- The database with the command alone. -/
def minuteStore : CommandStore where
  rows := [minuteCommand]
  ids_nodup := nodup_singleton _
  lock _ := none
  clock := 0

/-- A stamp behind the lock of the server. -/
def stampAt (now : ℤ) : Look := ⟨now, {}, minuteStore, .stampWaiting "command" now⟩

theorem waiting_never_expires_minute :
    Credited minuteCommand (rowAfter minuteCommand [stampAt 40000]) ∧
      Alive (stampAt 100000) (rowAfter minuteCommand [stampAt 40000, stampAt 70000]) := by
  have hrun := @waiting_never_expires "command" minuteCommand (stampAt 40000) [stampAt 70000, stampAt 100000] rfl rfl
    (by decide)
    (fun look hlook => by
      simp only [mem_cons, not_mem_nil, or_false] at hlook
      obtain rfl | rfl | rfl := hlook <;> exact .locked)
    ⟨by decide, by decide, trivial⟩
  exact ⟨hrun.1, (hrun.2 [stampAt 70000] _ [] rfl).1⟩

end TurboPanel.CommandRecords
