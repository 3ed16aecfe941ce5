import TurboPanel.Commands.Consumer
import TurboPanel.Compose.Json

/-!
# The waiter and the sweep of a deploy

Two functions give up on a deploy: `deployWaitVerdict` of `deploy-wait.ts`, by which the consumer
that sent it waits, and `isStaleCommand` of `stale-sweep.ts`, which finds the rows that nobody waits
for any more. Both are modelled here on what is stored: the texts of the times, and the progress as
the JSON that was reported.

`sweep_after_waiter` orders the two: the sweep is never first.
-/

namespace TurboPanel.DeployWait

open Compose (Json)
open CommandRecords (CommandType CommandStatus RequestStatus RunningSince CommandRow commandTimeoutMs deployRunCapMs
  deployReconcileWindowMs deployQueueLimitMs deployWaitLimitMs deploySignalGraceMs deployRunSilenceMs)

/-! ## Times as text -/

/-- The two directions between a time, in milliseconds, and its text. What `Date.parse` reads beside
ISO texts is left to the implementation; every time that it reads can be written. -/
structure Dates where
  /-- `Date.parse`; `none` is `NaN`. -/
  parse : String → Option ℤ
  toISOString : ℤ → String
  parse_empty : parse "" = none
  parse_toISOString : ∀ {text : String} {ms : ℤ}, parse text = some ms → parse (toISOString ms) = some ms

/-- `toMs` of the sweep. -/
def Dates.toMs (dates : Dates) (value : Option String) : Option ℤ := value.bind dates.parse

/-- `toMs` of the waiter, which asks first whether there is a text. -/
def Dates.toMsOfText (dates : Dates) (value : Option String) : Option ℤ :=
  match value with
  | none => none
  | some text => if text = "" then none else dates.parse text

theorem Dates.toMsOfText_eq (dates : Dates) (value : Option String) : dates.toMsOfText value = dates.toMs value := by
  cases value with
  | none => rfl
  | some text =>
    change (if text = "" then none else dates.parse text) = dates.parse text
    split
    · rename_i hempty
      rw [hempty, dates.parse_empty]
    · rfl

/-! ## Progress -/

/-- `parseStoredCommandProgress(progress)?.runningSince`; `none` is `undefined`. -/
def storedRunningSince (progress : Json) : Option Json :=
  match progress.fields? with
  | none => none
  | some record =>
    match record.lookup "version", record.lookup "steps", record.lookup "current", record.lookup "updatedAt" with
    | some (.num "1"), some (.arr _), some .null, some (.str _) => record.lookup "runningSince"
    | some (.num "1"), some (.arr _), some (.str _), some (.str _) => record.lookup "runningSince"
    | _, _, _, _ => none

inductive DeployRunState where
  | queued
  | running (sinceMs : ℤ)
  deriving DecidableEq

/-- Is a delivered deploy waiting or running, and since when does it run? -/
def deployRunState (dates : Dates) (progress : Json) (sentAt : Option String) (nowMs : ℤ) : DeployRunState :=
  let runningSince := storedRunningSince progress
  match (runningSince.bind Json.str?).bind fun text => dates.toMsOfText (some text) with
  | some sinceMs => .running sinceMs
  | none =>
    match runningSince, dates.toMsOfText sentAt with
    | none, some sentMs => if sentMs + deploySignalGraceMs ≤ nowMs then .running sentMs else .queued
    | _, _ => .queued

theorem deployRunState_congr (dates : Dates) (progress : Json) {sentAt sentAt' : Option String}
    (h : dates.toMs sentAt = dates.toMs sentAt') (nowMs : ℤ) :
    deployRunState dates progress sentAt nowMs = deployRunState dates progress sentAt' nowMs := by
  unfold deployRunState
  rw [dates.toMsOfText_eq sentAt, dates.toMsOfText_eq sentAt', h]

/-! ## The waiter -/

/-- `DEPLOY_OFFLINE_LIMIT_MS`. -/
def deployOfflineLimitMs : ℤ := 15 * 60000

/-- `DEPLOY_PAUSED_SILENCE_MS`. -/
def deployPausedSilenceMs : ℤ := 5 * 60000

/-- `DEPLOY_DEFAULT_TIMEOUT_MS`. -/
def deployDefaultTimeoutMs : ℤ := 30 * 60000

inductive DeployWaitVerdict where
  | none
  | runCap
  | unreachable
  | queueLimit
  | offline
  | silent
  | lost
  | settled
  | handoff
  deriving DecidableEq

/-- What the waiter looks at. -/
structure DeployWaitInput where
  requestStatus : RequestStatus
  progress : Json
  sentAt : Option String
  nowMs : ℤ
  holdUntilMs : ℤ
  endAtMs : ℤ
  silentMs : ℤ
  recovery : Bool
  runCapMs : Option ℤ

def runningVerdict (dates : Dates) (input : DeployWaitInput) (sinceMs : ℤ) : Option DeployWaitVerdict :=
  let handoff := if input.endAtMs ≤ input.nowMs then some .handoff else none
  if input.recovery = false then
    if sinceMs + deployRunCapMs ≤ input.nowMs then some .runCap else handoff
  else if deployReconcileWindowMs ≤ input.silentMs then some .unreachable
  else
    let quiet := decide (deployRunSilenceMs ≤ input.silentMs)
    let pastWait := (dates.toMsOfText input.sentAt).any fun sentMs => decide (sentMs + deployWaitLimitMs ≤ input.nowMs)
    if pastWait then some (if quiet then .unreachable else .runCap)
    else if !quiet && decide (sinceMs + input.runCapMs.getD deployDefaultTimeoutMs ≤ input.nowMs) then some .runCap
    else handoff

/-- What the waiter decides at one look; `none` means to keep waiting. -/
def deployWaitVerdict (dates : Dates) (input : DeployWaitInput) : Option DeployWaitVerdict :=
  let sentMs := (dates.toMsOfText input.sentAt).getD input.nowMs
  let handoff := if input.holdUntilMs ≤ input.nowMs then some .handoff else none
  if input.requestStatus = .queued then
    if sentMs + deployOfflineLimitMs ≤ input.nowMs then some .offline else handoff
  else
    match deployRunState dates input.progress input.sentAt input.nowMs with
    | .running sinceMs => runningVerdict dates input sinceMs
    | .queued =>
      if sentMs + deployQueueLimitMs ≤ input.nowMs then some .queueLimit
      else
        let paused := match storedRunningSince input.progress with
          | some .null => true
          | _ => false
        if paused && decide (deployPausedSilenceMs ≤ input.silentMs) then some .silent else handoff

/-! ## The sweep -/

structure StaleCommandCandidate where
  name : CommandType
  createdAt : String
  queuedAt : Option String
  dispatchStartedAt : Option String
  sentAt : Option String
  ackedAt : Option String
  startedAt : Option String
  metadata : Json
  status : Option CommandStatus
  progress : Json
  updatedAt : Option String
  recovery : Bool
  deployRunCapMs : Option ℤ

/-- `asRecord(row.metadata)?.[ENQUEUED_FLAG] !== undefined`. -/
def StaleCommandCandidate.onQueue (row : StaleCommandCandidate) : Bool :=
  (row.metadata.fields?.bind (·.lookup "enqueuedAt")).isSome

/-- A command that was not started yet is timed from the last time it was seen waiting. -/
def waitingSinceMs (dates : Dates) (row : StaleCommandCandidate) : Option ℤ :=
  let queued := dates.toMs row.queuedAt <|> dates.toMs (some row.createdAt)
  let lastSeen := if row.status = some .queued then dates.toMs row.updatedAt else none
  match queued, lastSeen with
  | none, lastSeen => lastSeen
  | some queued, none => some queued
  | some queued, some lastSeen => some (max queued lastSeen)

/-- A deploy is stale when the clock that it is on has run out. -/
def isStaleDeploy (dates : Dates) (row : StaleCommandCandidate) (nowMs graceMs : ℤ) : Bool :=
  let queueLimit := deployQueueLimitMs + graceMs
  match dates.toMs row.sentAt <|> dates.toMs row.dispatchStartedAt <|> dates.toMs row.queuedAt <|>
    dates.toMs (some row.createdAt) with
  | none => false
  | some waitingSince =>
    if row.status = some .queued ∨ row.status = some .dispatching then
      waitingSince + (if row.onQueue then queueLimit else commandTimeoutMs row.name + graceMs) ≤ nowMs
    else
      match deployRunState dates row.progress (some (dates.toISOString waitingSince)) nowMs with
      | .running sinceMs =>
        match if row.recovery then dates.toMs row.updatedAt else none with
        | none => sinceMs + deployRunCapMs + graceMs ≤ nowMs
        | some lastHeard =>
          (decide (nowMs - lastHeard < deployRunSilenceMs) &&
              decide (sinceMs + row.deployRunCapMs.getD deployDefaultTimeoutMs + graceMs ≤ nowMs)) ||
            decide (lastHeard + deployReconcileWindowMs + graceMs ≤ nowMs) ||
            decide (waitingSince + deployWaitLimitMs + graceMs ≤ nowMs)
      | .queued => waitingSince + queueLimit ≤ nowMs

/-- The row is stale when its latest lifecycle time is older than the budget of its type. -/
def isStaleCommand (dates : Dates) (row : StaleCommandCandidate) (nowMs graceMs : ℤ) : Bool :=
  if row.name = .environmentDeploy then isStaleDeploy dates row nowMs graceMs
  else
    match dates.toMs row.startedAt <|> dates.toMs row.ackedAt <|> dates.toMs row.sentAt <|>
      dates.toMs row.dispatchStartedAt <|> waitingSinceMs dates row with
    | none => false
    | some reference => reference + commandTimeoutMs row.name + graceMs ≤ nowMs

/-! ## The order of the two -/

section

variable {dates : Dates} {row : StaleCommandCandidate} {nowMs graceMs sentMs updatedMs : ℤ}

theorem isStaleDeploy_of_sent (hsent : dates.toMs row.sentAt = some sentMs)
    (hqueued : row.status ≠ some .queued) (hdispatching : row.status ≠ some .dispatching) :
    isStaleDeploy dates row nowMs graceMs =
      match deployRunState dates row.progress row.sentAt nowMs with
      | .running sinceMs =>
        match if row.recovery then dates.toMs row.updatedAt else none with
        | none => decide (sinceMs + deployRunCapMs + graceMs ≤ nowMs)
        | some lastHeard =>
          (decide (nowMs - lastHeard < deployRunSilenceMs) &&
              decide (sinceMs + row.deployRunCapMs.getD deployDefaultTimeoutMs + graceMs ≤ nowMs)) ||
            decide (lastHeard + deployReconcileWindowMs + graceMs ≤ nowMs) ||
            decide (sentMs + deployWaitLimitMs + graceMs ≤ nowMs)
      | .queued => decide (sentMs + (deployQueueLimitMs + graceMs) ≤ nowMs) := by
  obtain ⟨text, htext⟩ : ∃ text, row.sentAt = some text := by
    cases hrow : row.sentAt with
    | none =>
      rw [hrow] at hsent
      cases hsent
    | some text => exact ⟨text, rfl⟩
  have hparse : dates.parse text = some sentMs := by
    rw [htext] at hsent
    exact hsent
  have hrun : deployRunState dates row.progress (some (dates.toISOString sentMs)) nowMs =
      deployRunState dates row.progress row.sentAt nowMs :=
    deployRunState_congr dates row.progress (hsent ▸ dates.parse_toISOString hparse) nowMs
  unfold isStaleDeploy
  rw [hsent]
  change (if row.status = some .queued ∨ row.status = some .dispatching then _ else _) = _
  rw [if_neg (not_or.2 ⟨hqueued, hdispatching⟩), hrun]

/-- What the waiter is given for a row. -/
def waiterInput (row : StaleCommandCandidate) (requestStatus : RequestStatus)
    (nowMs updatedMs holdUntilMs endAtMs : ℤ) :
    DeployWaitInput where
  requestStatus := requestStatus
  progress := row.progress
  sentAt := row.sentAt
  nowMs := nowMs
  holdUntilMs := holdUntilMs
  endAtMs := endAtMs
  silentMs := nowMs - updatedMs
  recovery := row.recovery
  runCapMs := row.deployRunCapMs

/-- The waiter has given the deploy up. -/
def GivenUp (verdict : Option DeployWaitVerdict) : Prop :=
  verdict = some .runCap ∨ verdict = some .unreachable ∨ verdict = some .queueLimit ∨ verdict = some .silent

theorem runningVerdict_of_recovery {input : DeployWaitInput} {sinceMs : ℤ} (hrecovery : input.recovery = true)
    (hsent : dates.toMs input.sentAt = some sentMs)
    (hdue : input.silentMs < deployRunSilenceMs ∧
        sinceMs + input.runCapMs.getD deployDefaultTimeoutMs ≤ input.nowMs ∨
      deployReconcileWindowMs ≤ input.silentMs ∨ sentMs + deployWaitLimitMs ≤ input.nowMs) :
    GivenUp (runningVerdict dates input sinceMs) := by
  unfold runningVerdict
  rw [hrecovery, if_neg Bool.noConfusion, dates.toMsOfText_eq, hsent, Option.any_some]
  split
  · exact .inr (.inl rfl)
  · rename_i hheard
    dsimp only
    split
    · split
      · exact .inr (.inl rfl)
      · exact .inl rfl
    · rename_i hwait
      have hwait : ¬sentMs + deployWaitLimitMs ≤ input.nowMs := by simpa using hwait
      have hcap : input.silentMs < deployRunSilenceMs ∧
          sinceMs + input.runCapMs.getD deployDefaultTimeoutMs ≤ input.nowMs := by
        obtain h | h | h := hdue
        · exact h
        · exact absurd h hheard
        · exact absurd h hwait
      have hloud : ¬deployRunSilenceMs ≤ input.silentMs := by omega
      rw [if_pos (by simp [hloud, hcap.2])]
      exact .inl rfl

/-- **The sweep never gives up on a deploy that the waiter would keep waiting for**, nor on one that
it would hand on. -/
theorem sweep_after_waiter (dates : Dates) (row : StaleCommandCandidate) {requestStatus : RequestStatus}
    {nowMs graceMs sentMs updatedMs : ℤ} (holdUntilMs endAtMs : ℤ) (hname : row.name = .environmentDeploy)
    (hstatus : row.status = some .sent ∨ row.status = some .acked ∨ row.status = some .running)
    (hsent : dates.toMs row.sentAt = some sentMs) (hupdated : dates.toMs row.updatedAt = some updatedMs)
    (hrequest : requestStatus ≠ .queued) (hgrace : 0 ≤ graceMs)
    (hstale : isStaleCommand dates row nowMs graceMs = true) :
    GivenUp (deployWaitVerdict dates (waiterInput row requestStatus nowMs updatedMs holdUntilMs endAtMs)) := by
  have hqueued : row.status ≠ some .queued := by
    rintro h
    simp [h] at hstatus
  have hdispatching : row.status ≠ some .dispatching := by
    rintro h
    simp [h] at hstatus
  unfold isStaleCommand at hstale
  rw [if_pos hname, isStaleDeploy_of_sent hsent hqueued hdispatching] at hstale
  unfold deployWaitVerdict waiterInput
  rw [if_neg hrequest]
  dsimp only
  generalize hrun : deployRunState dates row.progress row.sentAt nowMs = run at hstale ⊢
  cases run with
  | queued =>
    have hlimit : sentMs + (deployQueueLimitMs + graceMs) ≤ nowMs := of_decide_eq_true hstale
    have hpast : (dates.toMsOfText row.sentAt).getD nowMs + deployQueueLimitMs ≤ nowMs := by
      rw [dates.toMsOfText_eq, hsent, Option.getD_some]
      omega
    dsimp only
    rw [if_pos hpast]
    exact .inr (.inr (.inl rfl))
  | running sinceMs =>
    cases hrecovery : row.recovery with
    | false =>
      rw [hrecovery] at hstale
      have hcap : sinceMs + deployRunCapMs + graceMs ≤ nowMs := of_decide_eq_true hstale
      have hpast : sinceMs + deployRunCapMs ≤ nowMs := by omega
      unfold runningVerdict
      dsimp only
      rw [if_pos rfl, if_pos hpast]
      exact .inl rfl
    | true =>
      rw [hrecovery, if_pos rfl, hupdated] at hstale
      simp only [Bool.or_eq_true, Bool.and_eq_true, decide_eq_true_eq] at hstale
      refine runningVerdict_of_recovery rfl hsent ?_
      dsimp only
      obtain (⟨hloud, hcap⟩ | hwindow) | hwait := hstale
      · exact .inl ⟨hloud, by omega⟩
      · exact .inr (.inl (by omega))
      · exact .inr (.inr (by omega))

end

/-- The dates of one text, enough for a row whose times are all the same. -/
def newYear : Dates where
  parse text := if text = "2026-01-01T00:00:00.000Z" then some 1767225600000 else none
  toISOString ms := if ms = 1767225600000 then "2026-01-01T00:00:00.000Z" else ""
  parse_empty := rfl
  parse_toISOString := by
    intro text ms h
    split at h
    · cases h
      rfl
    · cases h

/-- A deploy that was sent at the new year and not heard of since. -/
def silentDeploy : StaleCommandCandidate where
  name := .environmentDeploy
  createdAt := "2026-01-01T00:00:00.000Z"
  queuedAt := none
  dispatchStartedAt := none
  sentAt := some "2026-01-01T00:00:00.000Z"
  ackedAt := none
  startedAt := none
  metadata := .null
  status := some .sent
  progress := .null
  updatedAt := some "2026-01-01T00:00:00.000Z"
  recovery := false
  deployRunCapMs := none

theorem sweep_after_waiter_silent :
    isStaleCommand newYear silentDeploy (1767225600000 + 900000) 300000 = true ∧
      GivenUp (deployWaitVerdict newYear
        (waiterInput silentDeploy .sent (1767225600000 + 900000) 1767225600000 0 0)) :=
  ⟨rfl, sweep_after_waiter newYear silentDeploy 0 0 rfl (.inl rfl) rfl rfl (by decide) (by decide)
    (show isStaleCommand newYear silentDeploy (1767225600000 + 900000) 300000 = true from rfl)⟩

end TurboPanel.DeployWait
