import TurboPanel.Data.TokenBucket
import Mathlib.Algebra.Order.Floor.Ring

/-!
# The metrics ingest gate

`daemon/metrics/ingest-gate.ts`. A sample is stored if it is on time, a gap after the last stored
one, or for a token of a bucket that refills one a minute; events are stored for the tokens of
another bucket. Both buckets are refilled when a sample is stored (`TokenBucket.Draws`). In a window
of receive times there are then only so many samples and events stored, and refused requests leave
nothing behind (`ingest_gate_bound`).
-/

namespace TurboPanel.Metrics

open TokenBucket List

/-- Milliseconds. -/
abbrev Ms := ℤ

/-! ## The gate -/

/-- `GATE_MIN_GAP_SECONDS`. -/
def gateMinGapSeconds : ℤ := 50

/-- `GATE_SAMPLE_BURST`. -/
def gateSampleBurst : ℤ := 5

/-- `GATE_MAX_FUTURE_SECONDS`. -/
def gateMaxFutureSeconds : ℤ := 60

/-- `GATE_EVENTS_PER_HOUR`. -/
def gateEventsPerHour : ℤ := 120

/-- `MAX_METRICS_SKEW_MS` of the sample validator. -/
def maxMetricsSkewMs : Ms := 300000

inductive RefusalReason where
  | duplicate
  | future
  | tooSoon
  deriving DecidableEq

inductive GateDecision where
  | stored (eventsAllowed : ℤ)
  | refused (reason : RefusalReason) (retryAfterSeconds : ℤ)
  deriving DecidableEq

structure GateState where
  lastSampledMs : Ms
  sampleTokens : ℚ
  eventTokens : ℚ
  refreshedMs : Ms

structure GateRequest where
  /-- `Date.parse` of the text; `none` where that is not a number. -/
  sampledAt : Option Ms
  eventCount : ℚ

def seconds (ms : Ms) : ℚ := ms / 1000

/-- The gate has seen the server before. -/
def admitKnown (state : GateState) (sampledMs : Ms) (events : ℤ) (nowMs : Ms) :
    GateDecision × GateState :=
  let gapSeconds := seconds (sampledMs - state.lastSampledMs)
  if gapSeconds ≤ 0 then (.refused .duplicate gateMinGapSeconds, state)
  else
    let elapsedSeconds := max 0 (seconds (nowMs - state.refreshedMs))
    let refilledSamples := min (gateSampleBurst : ℚ) (state.sampleTokens + elapsedSeconds / 60)
    let onTime := decide ((gateMinGapSeconds : ℚ) ≤ gapSeconds)
    if !onTime && decide (refilledSamples < 1) then
      let untilToken := max 1 ⌈(1 - refilledSamples) * 60⌉
      let untilGap := max 1 ⌈(gateMinGapSeconds : ℚ) - gapSeconds⌉
      (.refused .tooSoon (min untilToken untilGap), state)
    else
      let eventBudget := min (gateEventsPerHour : ℚ)
        (state.eventTokens + elapsedSeconds * gateEventsPerHour / 3600)
      let allowed := min events ⌊eventBudget⌋
      (.stored allowed, {
        lastSampledMs := sampledMs
        sampleTokens := if onTime then refilledSamples else refilledSamples - 1
        eventTokens := eventBudget - allowed
        refreshedMs := nowMs })

def admitFirst (sampledMs : Ms) (events : ℤ) (nowMs : Ms) : GateDecision × GateState :=
  let allowed := min events gateEventsPerHour
  (.stored allowed, {
    lastSampledMs := sampledMs
    sampleTokens := gateSampleBurst
    eventTokens := gateEventsPerHour - allowed
    refreshedMs := nowMs })

def decideAdmission (state : Option GateState) (request : GateRequest) (nowMs : Ms) :
    GateDecision × Option GateState :=
  let events := max 0 ⌊request.eventCount⌋
  match request.sampledAt with
  | none => (.refused .duplicate gateMinGapSeconds, state)
  | some sampledMs =>
    if gateMaxFutureSeconds * 1000 < sampledMs - nowMs then
      (.refused .future gateMinGapSeconds, state)
    else match state with
      | none => (admitFirst sampledMs events nowMs).map id some
      | some state => (admitKnown state sampledMs events nowMs).map id some

/-! ## Admissions one after the other -/

structure Admission where
  request : GateRequest
  nowMs : Ms

/-- The sample validator lets the request pass: `parseTimestamp`. -/
def Admission.Validated (a : Admission) : Prop :=
  ∃ sampledMs ∈ a.request.sampledAt, |a.nowMs - sampledMs| ≤ maxMetricsSkewMs

/-- An admission, with what the gate decided and remembered before and after. -/
structure Outcome where
  admission : Admission
  before : Option GateState
  decision : GateDecision
  after : Option GateState

def Outcome.receivedSeconds (o : Outcome) : ℚ := seconds o.admission.nowMs

def Outcome.sampledMs (o : Outcome) : Ms := o.admission.request.sampledAt.getD 0

def outcome (state : Option GateState) (a : Admission) : Outcome :=
  ⟨a, state, (decideAdmission state a.request a.nowMs).1,
    (decideAdmission state a.request a.nowMs).2⟩

def outcomes : Option GateState → List Admission → List Outcome
  | _, [] => []
  | state, a :: rest => outcome state a :: outcomes (outcome state a).after rest

def Outcome.stored (o : Outcome) : Bool :=
  match o.decision with
  | .stored _ => true
  | .refused _ _ => false

def Outcome.eventsAllowed (o : Outcome) : ℤ :=
  match o.decision with
  | .stored eventsAllowed => eventsAllowed
  | .refused _ _ => 0

/-- The sample comes a gap after the last stored one, if there is one. -/
def Outcome.onTime (o : Outcome) : Bool :=
  match o.before with
  | none => true
  | some state => decide ((gateMinGapSeconds : ℚ) ≤ seconds (o.sampledMs - state.lastSampledMs))

/-- The receive time is in the window of `width` seconds from `start`. -/
def Outcome.within (start width : ℚ) (o : Outcome) : Bool :=
  decide (start ≤ o.receivedSeconds ∧ o.receivedSeconds ≤ start + width)

/-! ## One admission -/

/-- What is withdrawn from the two buckets. -/
def Outcome.sampleCost (o : Outcome) : ℚ := if o.stored && !o.onTime then 1 else 0

/-- The gate remembers tokens in their bounds, from an earlier time. -/
structure Remembered (state : GateState) (nowMs : Ms) : Prop where
  sampleTokens : 0 ≤ state.sampleTokens ∧ state.sampleTokens ≤ 5
  eventTokens : 0 ≤ state.eventTokens ∧ state.eventTokens ≤ 120
  refreshed : state.refreshedMs ≤ nowMs

def GateState.samples (state : GateState) : Bucket ℚ :=
    ⟨state.sampleTokens, seconds state.refreshedMs⟩

def GateState.events (state : GateState) : Bucket ℚ :=
    ⟨state.eventTokens, seconds state.refreshedMs⟩

/-- What the gate does when it stores the sample of a server that it has seen. -/
structure Stores (state : GateState) (o : Outcome) (next : GateState) : Prop where
  lastSampled : next.lastSampledMs = o.sampledMs
  later : state.lastSampledMs < o.sampledMs
  gap : o.onTime = true → state.lastSampledMs + 50000 ≤ o.sampledMs
  refreshed : next.refreshedMs = o.admission.nowMs
  sampleCost : o.sampleCost ≤ state.samples.refilled 5 (1 / 60) o.receivedSeconds
  sampleTokens : next.sampleTokens =
    state.samples.refilled 5 (1 / 60) o.receivedSeconds - o.sampleCost
  eventsAllowed : 0 ≤ o.eventsAllowed
  eventCost : (o.eventsAllowed : ℚ) ≤ state.events.refilled 120 (1 / 30) o.receivedSeconds
  eventTokens : next.eventTokens =
    state.events.refilled 120 (1 / 30) o.receivedSeconds - o.eventsAllowed

theorem seconds_le_seconds {a b : Ms} : seconds a ≤ seconds b ↔ a ≤ b := by
  rw [seconds, seconds, div_le_div_iff_of_pos_right (by norm_num), Int.cast_le]

theorem seconds_sub (a b : Ms) : seconds (a - b) = seconds a - seconds b := by
  rw [seconds, seconds, seconds, Int.cast_sub, sub_div]

theorem gap_iff {a b : Ms} : (gateMinGapSeconds : ℚ) ≤ seconds (a - b) ↔ b + 50000 ≤ a := by
  rw [seconds, le_div_iff₀ (by norm_num), gateMinGapSeconds,
    show ((50 : ℤ) : ℚ) * 1000 = ((50000 : ℤ) : ℚ) by norm_num, Int.cast_le]
  constructor <;> intro h <;> linarith

theorem gap_nonpos_iff {a b : Ms} : seconds (a - b) ≤ 0 ↔ a ≤ b := by
  rw [seconds_sub, sub_nonpos, seconds_le_seconds]

variable {admissions : List Admission} {a : Admission} {o : Outcome} {outs : List Outcome}
  (state : Option GateState)

/-- **A refusal leaves what is remembered as it was.** -/
theorem after_of_refused {state : Option GateState} (h : (outcome state a).stored = false) :
    (outcome state a).after = state := by
  obtain ⟨⟨sampledAt, eventCount⟩, nowMs⟩ := a
  rw [outcome, Outcome.stored] at h
  rw [outcome]
  simp only [decideAdmission] at h ⊢
  cases sampledAt with
  | none => rfl
  | some sampledMs =>
    dsimp only at h ⊢
    split
    · rfl
    · rename_i hfuture
      rw [if_neg hfuture] at h
      cases state with
      | none => cases h
      | some state =>
        dsimp only [admitKnown, Prod.map, id] at h ⊢
        split
        · rfl
        · rename_i hgap
          rw [if_neg hgap] at h
          split
          · rfl
          · rename_i hsoon
            rw [if_neg hsoon] at h
            cases h

theorem admitKnown_cases (state : GateState) (sampledMs : Ms) (events : ℤ) (nowMs : Ms) :
    (sampledMs ≤ state.lastSampledMs ∧
      admitKnown state sampledMs events nowMs = (.refused .duplicate gateMinGapSeconds, state)) ∨
    (state.lastSampledMs < sampledMs ∧ sampledMs < state.lastSampledMs + 50000 ∧
      min (5 : ℚ) (state.sampleTokens + max 0 (seconds (nowMs - state.refreshedMs)) / 60) < 1 ∧
      admitKnown state sampledMs events nowMs = (.refused .tooSoon
        (min (max 1 ⌈(1 - min (5 : ℚ)
        (state.sampleTokens + max 0 (seconds (nowMs - state.refreshedMs)) / 60)) * 60⌉)
          (max 1 ⌈(50 : ℚ) - seconds (sampledMs - state.lastSampledMs)⌉)), state)) ∨
    (state.lastSampledMs < sampledMs ∧ (state.lastSampledMs + 50000 ≤ sampledMs ∨
        1 ≤ min (5 : ℚ) (state.sampleTokens + max 0 (seconds (nowMs - state.refreshedMs)) / 60)) ∧
      ∃ budget : ℚ, budget = min (120 : ℚ)
          (state.eventTokens + max 0 (seconds (nowMs - state.refreshedMs)) * 120 / 3600) ∧
        admitKnown state sampledMs events nowMs = (.stored (min events ⌊budget⌋), {
          lastSampledMs := sampledMs
          sampleTokens :=
            if state.lastSampledMs + 50000 ≤ sampledMs then
              min (5 : ℚ) (state.sampleTokens + max 0 (seconds (nowMs - state.refreshedMs)) / 60)
            else min (5 : ℚ) (state.sampleTokens +
              max 0 (seconds (nowMs - state.refreshedMs)) / 60) - 1
          eventTokens := budget - (min events ⌊budget⌋ : ℤ)
          refreshedMs := nowMs })) := by
  have hburst : ((gateSampleBurst : ℤ) : ℚ) = 5 := by norm_num [gateSampleBurst]
  have hevents : ((gateEventsPerHour : ℤ) : ℚ) = 120 := by norm_num [gateEventsPerHour]
  have hgapSeconds : ((gateMinGapSeconds : ℤ) : ℚ) = 50 := by norm_num [gateMinGapSeconds]
  by_cases hgap : sampledMs ≤ state.lastSampledMs
  · refine .inl ⟨hgap, ?_⟩
    rw [admitKnown]
    exact if_pos (gap_nonpos_iff.2 hgap)
  · have hnot : ¬seconds (sampledMs - state.lastSampledMs) ≤ 0 := fun h => hgap (gap_nonpos_iff.1 h)
    rw [admitKnown]
    dsimp only
    rw [if_neg hnot, hburst, hevents]
    by_cases hon : state.lastSampledMs + 50000 ≤ sampledMs
    · refine .inr (.inr ⟨not_le.1 hgap, .inl hon, _, rfl, ?_⟩)
      rw [decide_eq_true (gap_iff.2 hon), if_neg (by simp), if_pos rfl, if_pos hon]
    · have hearly : decide ((gateMinGapSeconds : ℚ) ≤
        seconds (sampledMs - state.lastSampledMs)) = false :=
        decide_eq_false fun h => hon (gap_iff.1 h)
      rw [hearly, hgapSeconds]
      by_cases htokens : min (5 : ℚ)
        (state.sampleTokens + max 0 (seconds (nowMs - state.refreshedMs)) / 60) < 1
      · refine .inr (.inl ⟨not_le.1 hgap, not_le.1 hon, htokens, ?_⟩)
        rw [if_pos (by simpa using htokens)]
      · refine .inr (.inr ⟨not_le.1 hgap, .inr (not_lt.1 htokens), _, rfl, ?_⟩)
        rw [if_neg (by simpa using htokens), if_neg Bool.false_ne_true, if_neg hon]

/-- The events that a request carries. -/
def Admission.events (a : Admission) : ℤ := max 0 ⌊a.request.eventCount⌋

/-- What the gate decides by, where the sample is not from the future. -/
def Decides (state : Option GateState) (a : Admission) (sampledMs : Ms) : Prop :=
  (state = none ∧ outcome state a = ⟨a, none, (admitFirst sampledMs a.events a.nowMs).1,
    some (admitFirst sampledMs a.events a.nowMs).2⟩) ∨
  ∃ known, state = some known ∧ outcome state a = ⟨a, some known,
    (admitKnown known sampledMs a.events a.nowMs).1,
      some (admitKnown known sampledMs a.events a.nowMs).2⟩

theorem outcome_cases (a : Admission) :
    (a.request.sampledAt = none ∧
    (outcome state a).decision = .refused .duplicate gateMinGapSeconds) ∨
    ∃ sampledMs, a.request.sampledAt = some sampledMs ∧
      ((outcome state a).decision = .refused .future gateMinGapSeconds ∨
        sampledMs - a.nowMs ≤ 60000 ∧ Decides state a sampledMs) := by
  obtain ⟨⟨sampledAt, eventCount⟩, nowMs⟩ := a
  cases sampledAt with
  | none => exact .inl ⟨rfl, rfl⟩
  | some sampledMs =>
    refine .inr ⟨sampledMs, rfl, ?_⟩
    by_cases hfuture : gateMaxFutureSeconds * 1000 < sampledMs - nowMs
    · refine .inl ?_
      rw [outcome]
      dsimp only [decideAdmission]
      rw [if_pos hfuture]
    · refine .inr ⟨not_lt.1 hfuture, ?_⟩
      cases state with
      | none =>
        refine .inl ⟨rfl, ?_⟩
        rw [outcome, decideAdmission]
        dsimp only
        rw [if_neg hfuture]
        rfl
      | some known =>
        refine .inr ⟨known, rfl, ?_⟩
        rw [outcome, decideAdmission]
        dsimp only
        rw [if_neg hfuture]
        rfl

theorem stored_cases {state : Option GateState} (h : (outcome state a).stored = true) :
    ∃ sampledMs, a.request.sampledAt = some sampledMs ∧ sampledMs - a.nowMs ≤ 60000 ∧
    Decides state a sampledMs := by
  rw [Outcome.stored] at h
  obtain ⟨-, hrefused⟩ | ⟨sampledMs, hsampled, hrefused | hdecides⟩ := outcome_cases state a
  · rw [hrefused] at h
    cases h
  · rw [hrefused] at h
    cases h
  · exact ⟨sampledMs, hsampled, hdecides⟩

theorem sampledMs_eq {state : Option GateState} {sampledMs : Ms}
    (h : a.request.sampledAt = some sampledMs) :
    (outcome state a).sampledMs = sampledMs := by
  change a.request.sampledAt.getD 0 = sampledMs
  rw [h, Option.getD_some]

variable {nowMs : Ms}

theorem elapsed_eq {state : GateState} (hrefreshed : state.refreshedMs ≤ nowMs) :
    max 0 (seconds (nowMs - state.refreshedMs)) = seconds nowMs - seconds state.refreshedMs := by
  rw [seconds_sub, max_eq_right (sub_nonneg.2 (seconds_le_seconds.2 hrefreshed))]

theorem GateState.samples_refilled {state : GateState} (hrefreshed : state.refreshedMs ≤ nowMs) :
    min (5 : ℚ) (state.sampleTokens + max 0 (seconds (nowMs - state.refreshedMs)) / 60) =
      state.samples.refilled 5 (1 / 60) (seconds nowMs) := by
  rw [elapsed_eq hrefreshed, Bucket.refilled, GateState.samples]
  ring_nf

theorem GateState.events_refilled {state : GateState} (hrefreshed : state.refreshedMs ≤ nowMs) :
    min (120 : ℚ) (state.eventTokens + max 0 (seconds (nowMs - state.refreshedMs)) * 120 / 3600) =
      state.events.refilled 120 (1 / 30) (seconds nowMs) := by
  rw [elapsed_eq hrefreshed, Bucket.refilled, GateState.events]
  ring_nf

/-- **A stored sample** of a server that the gate has seen. -/
theorem stores_of_stored {state : GateState} (hknown : Remembered state a.nowMs)
    (h : (outcome (some state) a).stored = true) :
    ∃ next, (outcome (some state) a).after = some next ∧
    Stores state (outcome (some state) a) next := by
  obtain ⟨sampledMs, hsampled, -, ⟨hnone, -⟩ | ⟨known, hsome, heq⟩⟩ := stored_cases h
  · cases hnone
  cases hsome
  have hms : (outcome (some state) a).sampledMs = sampledMs := sampledMs_eq hsampled
  have hon : (outcome (some state) a).onTime =
    decide (state.lastSampledMs + 50000 ≤ sampledMs) := by
    rw [Outcome.onTime, hms, heq]
    exact decide_eq_decide.2 gap_iff
  have hreceived : (outcome (some state) a).receivedSeconds = seconds a.nowMs := rfl
  have hsamples := GateState.samples_refilled hknown.refreshed
  have hevents := GateState.events_refilled hknown.refreshed
  refine ⟨(admitKnown state sampledMs a.events a.nowMs).2, by rw [heq], ?_⟩
  obtain ⟨-, hdup⟩ | ⟨-, -, -, hsoon⟩ | ⟨hlater, hpass, budget, hbudget, hstores⟩ :=
    admitKnown_cases state sampledMs a.events a.nowMs
  · rw [heq, hdup] at h
    cases h
  · rw [heq, hsoon] at h
    cases h
  · have hallowed : (outcome (some state) a).eventsAllowed = min a.events ⌊budget⌋ := by
      rw [heq, hstores]
      rfl
    have hcost : (outcome (some state) a).sampleCost =
        if state.lastSampledMs + 50000 ≤ sampledMs then 0 else 1 := by
      rw [Outcome.sampleCost, h, hon, Bool.true_and]
      by_cases hlate : state.lastSampledMs + 50000 ≤ sampledMs
      · rw [if_pos hlate, decide_eq_true hlate, Bool.not_true, if_neg Bool.false_ne_true]
      · rw [if_neg hlate, decide_eq_false hlate, Bool.not_false, if_pos rfl]
    rw [hevents] at hbudget
    have hbudget_nonneg : 0 ≤ budget := by
      rw [hbudget]
      exact refilled_nonneg (by norm_num)
        (by norm_num) hknown.eventTokens.1 (seconds_le_seconds.2 hknown.refreshed)
    rw [hstores, hsamples]
    rw [hsamples] at hpass
    refine ⟨hms.symm, hms ▸ hlater, fun htrue => ?_, rfl, ?_, ?_, ?_, ?_, ?_⟩
    · rw [hms]
      exact of_decide_eq_true (hon.symm.trans htrue)
    · rw [hcost, hreceived]
      split
      · exact refilled_nonneg (by norm_num)
          (by norm_num) hknown.sampleTokens.1 (seconds_le_seconds.2 hknown.refreshed)
      · rename_i hearly
        exact hpass.resolve_left hearly
    · rw [hcost, hreceived]
      dsimp only
      split
      · rw [sub_zero]
      · rfl
    · rw [hallowed]
      exact le_min (le_max_left _ _) (Int.floor_nonneg.2 hbudget_nonneg)
    · rw [hallowed, hreceived, ← hbudget]
      exact le_trans (Int.cast_le.2 (min_le_right _ _)) (Int.floor_le _)
    · rw [hallowed, hreceived, ← hbudget]

theorem Stores.remembered {state next : GateState} (hstores : Stores state o next) :
    Remembered next o.admission.nowMs := by
  have hcost : 0 ≤ o.sampleCost := by
    rw [Outcome.sampleCost]
    split <;> norm_num
  have hallowed : (0 : ℚ) ≤ o.eventsAllowed := Int.cast_nonneg hstores.eventsAllowed
  refine ⟨⟨?_, ?_⟩, ⟨?_, ?_⟩, hstores.refreshed.le⟩
  · rw [hstores.sampleTokens]
    exact sub_nonneg.2 hstores.sampleCost
  · rw [hstores.sampleTokens]
    exact (sub_le_self _ hcost).trans (min_le_left _ _)
  · rw [hstores.eventTokens]
    exact sub_nonneg.2 hstores.eventCost
  · rw [hstores.eventTokens]
    exact (sub_le_self _ hallowed).trans (min_le_left _ _)

theorem first_stored (h : (outcome none a).stored = true) :
    ∃ next, (outcome none a).after = some next ∧ next.lastSampledMs = (outcome none a).sampledMs ∧
      next.refreshedMs = a.nowMs ∧ next.sampleTokens = 5 ∧
      next.eventTokens = 120 - (outcome none a).eventsAllowed ∧ 0 ≤ (outcome none a).eventsAllowed ∧
      (outcome none a).eventsAllowed ≤ 120 ∧ (outcome none a).sampleCost = 0 := by
  obtain ⟨sampledMs, hsampled, -, ⟨-, heq⟩ | ⟨known, hsome, -⟩⟩ := stored_cases h
  · have hallowed : (outcome none a).eventsAllowed = min a.events 120 := by
      rw [heq]
      rfl
    refine ⟨(admitFirst sampledMs a.events a.nowMs).2, by rw [heq], ?_, rfl, ?_, ?_, ?_, ?_, ?_⟩
    · exact (sampledMs_eq hsampled).symm
    · norm_num [admitFirst, gateSampleBurst]
    · rw [hallowed]
      norm_num [admitFirst, gateEventsPerHour]
    · rw [hallowed]
      exact le_min (le_max_left _ _) (by norm_num)
    · rw [hallowed]
      exact min_le_right _ _
    · rw [Outcome.sampleCost, show (outcome none a).onTime = true from rfl, Bool.not_true,
        Bool.and_false]
      rfl
  · cases hsome

/-! ## Runs -/

/-- What is remembered, if anything, is in its bounds and from an earlier time. -/
def Ready (state : Option GateState) (nowMs : Ms) : Prop := ∀ known ∈ state, Remembered known nowMs

theorem Remembered.mono {state : GateState} {nowMs' : Ms} (h : Remembered state nowMs)
    (hle : nowMs ≤ nowMs') : Remembered state nowMs' :=
  ⟨h.sampleTokens, h.eventTokens, h.refreshed.trans hle⟩

theorem Ready.after {state : Option GateState} (h : Ready state a.nowMs) :
    Ready (outcome state a).after a.nowMs := by
  cases hstored : (outcome state a).stored with
  | false =>
    rw [after_of_refused hstored]
    exact h
  | true =>
    cases state with
    | none =>
      obtain ⟨next, hafter, -, hrefreshed, hsamples, hevents, hnonneg, hle, -⟩ :=
        first_stored hstored
      rw [hafter]
      rintro known ⟨⟩
      refine ⟨⟨?_, hsamples.le⟩, ⟨?_, ?_⟩, hrefreshed.le⟩
      · rw [hsamples]
        norm_num
      · rw [hevents, sub_nonneg]
        exact_mod_cast hle
      · rw [hevents]
        exact sub_le_self _ (Int.cast_nonneg hnonneg)
    | some known =>
      obtain ⟨next, hafter, hstores⟩ := stores_of_stored (h known rfl) hstored
      rw [hafter]
      rintro known' ⟨⟩
      exact hstores.remembered

theorem Ready.mono {state : Option GateState} {nowMs' : Ms} (h : Ready state nowMs)
    (hle : nowMs ≤ nowMs') : Ready state nowMs' := fun known hknown => (h known hknown).mono hle

/-- The receive times do not decrease, from what is remembered on. -/
def InOrder (state : Option GateState) (admissions : List Admission) : Prop :=
  (∀ a ∈ admissions, Ready state a.nowMs) ∧ admissions.Pairwise fun a b => a.nowMs ≤ b.nowMs

theorem InOrder.tail {state : Option GateState} {rest : List Admission}
    (h : InOrder state (a :: rest)) :
    InOrder (outcome state a).after rest := by
  obtain ⟨hready, hpairwise⟩ := h
  obtain ⟨hle, hpairwise⟩ := pairwise_cons.1 hpairwise
  exact ⟨fun b hb => (hready a mem_cons_self).after.mono (hle b hb), hpairwise⟩

theorem InOrder.head {state : Option GateState} {rest : List Admission}
    (h : InOrder state (a :: rest)) :
    Ready state a.nowMs := h.1 a mem_cons_self

/-- What the stored samples of a run withdraw from a bucket. -/
def withdrawals (cost : Outcome → ℚ) (outs : List Outcome) : List (Withdrawal ℚ) :=
  (outs.filter (·.stored)).map fun o => ⟨o.receivedSeconds, cost o⟩

theorem withdrawals_cons_stored {cost : Outcome → ℚ} (h : o.stored = true) :
    withdrawals cost (o :: outs) = ⟨o.receivedSeconds, cost o⟩ :: withdrawals cost outs := by
  rw [withdrawals, filter_cons_of_pos h, map_cons, withdrawals]

theorem withdrawals_cons_refused {cost : Outcome → ℚ} (h : o.stored = false) :
    withdrawals cost (o :: outs) = withdrawals cost outs := by
  rw [withdrawals, filter_cons_of_neg (by simp [h]), withdrawals]

/-- **The stored samples draw on the two buckets.** -/
theorem draws_known {state : GateState} (h : InOrder (some state) admissions) :
    Draws 5 (1 / 60) state.samples
    (withdrawals Outcome.sampleCost (outcomes (some state) admissions)) ∧
    Draws 120 (1 / 30) state.events
      (withdrawals (fun o => (o.eventsAllowed : ℚ)) (outcomes (some state) admissions)) := by
  induction admissions generalizing state with
  | nil => exact ⟨.nil _, .nil _⟩
  | cons a rest ih =>
    have htail := h.tail
    rw [outcomes]
    cases hstored : (outcome (some state) a).stored with
    | false =>
      rw [withdrawals_cons_refused hstored, withdrawals_cons_refused hstored]
      rw [after_of_refused hstored] at htail ⊢
      exact ih htail
    | true =>
      have hknown := h.head state rfl
      obtain ⟨next, hafter, hstores⟩ := stores_of_stored hknown hstored
      rw [withdrawals_cons_stored hstored, withdrawals_cons_stored hstored]
      rw [hafter] at htail ⊢
      obtain ⟨hsamples, hevents⟩ := ih htail
      have htime : seconds state.refreshedMs ≤ (outcome (some state) a).receivedSeconds :=
        seconds_le_seconds.2 hknown.refreshed
      have hcost : 0 ≤ (outcome (some state) a).sampleCost := by
        rw [Outcome.sampleCost]
        split <;> norm_num
      rw [GateState.samples, hstores.sampleTokens, hstores.refreshed] at hsamples
      rw [GateState.events, hstores.eventTokens, hstores.refreshed] at hevents
      exact ⟨.cons htime hcost hstores.sampleCost hsamples,
        .cons htime (Int.cast_nonneg hstores.eventsAllowed) hstores.eventCost hevents⟩

theorem draws_first (h : InOrder none admissions) :
    (∃ b, Draws 5 (1 / 60) b (withdrawals Outcome.sampleCost (outcomes none admissions))) ∧
    ∃ b, Draws 120 (1 / 30) b (withdrawals (fun o => (o.eventsAllowed : ℚ))
    (outcomes none admissions)) := by
  induction admissions with
  | nil => exact ⟨⟨⟨0, 0⟩, .nil _⟩, ⟨⟨0, 0⟩, .nil _⟩⟩
  | cons a rest ih =>
    have htail := h.tail
    rw [outcomes]
    cases hstored : (outcome none a).stored with
    | false =>
      rw [withdrawals_cons_refused hstored, withdrawals_cons_refused hstored]
      rw [after_of_refused hstored] at htail ⊢
      exact ih htail
    | true =>
      obtain ⟨next, hafter, -, hrefreshed, hsamples, hevents, hnonneg, hle, hcost⟩ :=
        first_stored hstored
      rw [withdrawals_cons_stored hstored, withdrawals_cons_stored hstored]
      rw [hafter] at htail ⊢
      obtain ⟨hdraws, hdraws'⟩ := draws_known htail
      -- Both buckets are full when the first sample comes.
      have hfull : ∀ {c r t : ℚ}, (⟨c, t⟩ : Bucket ℚ).refilled c r t = c := by
        intro c r t
        rw [Bucket.refilled, sub_self, mul_zero, add_zero, min_self]
      refine ⟨⟨⟨5, (outcome none a).receivedSeconds⟩, .cons le_rfl hcost.ge ?_ ?_⟩,
        ⟨⟨120, (outcome none a).receivedSeconds⟩, .cons le_rfl (Int.cast_nonneg hnonneg) ?_ ?_⟩⟩
      · rw [hfull, hcost]
        norm_num
      · rw [hfull, hcost, sub_zero]
        rw [GateState.samples, hsamples, hrefreshed] at hdraws
        exact hdraws
      · rw [hfull]
        exact (by exact_mod_cast hle : ((outcome none a).eventsAllowed : ℚ) ≤ 120)
      · rw [hfull]
        rw [GateState.events, hevents, hrefreshed] at hdraws'
        exact hdraws'

/-- A later stored sample was taken later, and if it is on time, a gap later. -/
def Follows (sampledMs : Ms) (o : Outcome) : Prop :=
  sampledMs < o.sampledMs ∧ (o.onTime = true → sampledMs + 50000 ≤ o.sampledMs)

theorem follows_known {state : GateState} (h : InOrder (some state) admissions) :
    ∀ o ∈ (outcomes (some state) admissions).filter (·.stored), Follows state.lastSampledMs o := by
  induction admissions generalizing state with
  | nil => exact fun o ho => (nomatch ho)
  | cons a rest ih =>
    have htail := h.tail
    rw [outcomes]
    cases hstored : (outcome (some state) a).stored with
    | false =>
      rw [filter_cons_of_neg (by simp [hstored])]
      rw [after_of_refused hstored] at htail ⊢
      exact ih htail
    | true =>
      obtain ⟨next, hafter, hstores⟩ := stores_of_stored (h.head state rfl) hstored
      rw [filter_cons_of_pos hstored]
      rw [hafter] at htail ⊢
      intro o ho
      obtain rfl | ho := mem_cons.1 ho
      · exact ⟨hstores.later, hstores.gap⟩
      · obtain ⟨hlater, hgap⟩ := ih htail o ho
        rw [hstores.lastSampled] at hlater hgap
        exact ⟨hstores.later.trans hlater,
          fun hon => (Int.add_le_add_right hstores.later.le _).trans (hgap hon)⟩

theorem follows_pairwise {state : Option GateState} (h : InOrder state admissions) :
    ((outcomes state admissions).filter (·.stored)).Pairwise fun o o' =>
    Follows o.sampledMs o' := by
  induction admissions generalizing state with
  | nil => exact .nil
  | cons a rest ih =>
    have htail := h.tail
    rw [outcomes]
    cases hstored : (outcome state a).stored with
    | false =>
      rw [filter_cons_of_neg (by simp [hstored])]
      exact ih htail
    | true =>
      rw [filter_cons_of_pos hstored]
      refine List.Pairwise.cons ?_ (ih htail)
      have hlast : ∃ next, (outcome state a).after = some next ∧
          next.lastSampledMs = (outcome state a).sampledMs := by
        cases state with
        | none =>
          obtain ⟨next, hafter, hlast, -⟩ := first_stored hstored
          exact ⟨next, hafter, hlast⟩
        | some known =>
          obtain ⟨next, hafter, hstores⟩ := stores_of_stored (h.head known rfl) hstored
          exact ⟨next, hafter, hstores.lastSampled⟩
      obtain ⟨next, hafter, hlast⟩ := hlast
      rw [hafter] at htail ⊢
      rw [← hlast]
      exact follows_known htail

theorem length_mul_le_of_apart {gap low high : ℤ} {l : List ℤ}
    (hapart : l.Pairwise fun x y => x + gap ≤ y)
    (hlow : ∀ x ∈ l, low ≤ x) (hhigh : ∀ x ∈ l, x ≤ high) (hle : low ≤ high + gap) :
    gap * l.length ≤ high - low + gap := by
  induction l generalizing low with
  | nil =>
    rw [length_nil]
    simp only [Nat.cast_zero, mul_zero]
    linarith
  | cons x l ih =>
    obtain ⟨hx, hapart⟩ := pairwise_cons.1 hapart
    have hxhigh : x ≤ high := hhigh x mem_cons_self
    have hxlow : low ≤ x := hlow x mem_cons_self
    have hrest := ih hapart hx (fun y hy => hhigh y (mem_cons_of_mem _ hy)) (by linarith)
    rw [length_cons]
    push_cast
    linarith

theorem outcomes_split {state : Option GateState} (h : InOrder state admissions)
    {before after : List Outcome}
    (hsplit : outcomes state admissions = before ++ o :: after) :
    ∃ state' a rest, o = outcome state' a ∧ a ∈ admissions ∧ InOrder state' (a :: rest) ∧
      after = outcomes o.after rest ∧ ∀ b ∈ rest, b ∈ admissions := by
  induction before generalizing state admissions with
  | nil =>
    cases admissions with
    | nil => cases hsplit
    | cons a rest =>
      rw [outcomes] at hsplit
      cases hsplit
      exact ⟨state, a, rest, rfl, mem_cons_self, h, rfl, fun b hb => mem_cons_of_mem _ hb⟩
  | cons o' before ih =>
    cases admissions with
    | nil => cases hsplit
    | cons a rest =>
      rw [outcomes] at hsplit
      obtain ⟨-, hsplit⟩ := List.cons.inj hsplit
      obtain ⟨state', b, rest', heq, hb, horder, hafter, hrest⟩ := ih h.tail hsplit
      exact ⟨state', b, rest', heq, mem_cons_of_mem _ hb, horder, hafter,
        fun c hc => mem_cons_of_mem _ (hrest c hc)⟩

theorem outcomes_after_refusals {state : Option GateState} {refused after : List Outcome}
    (hrefused : ∀ r ∈ refused, r.stored = false)
    (hsplit : outcomes state admissions = refused ++ o :: after) :
    ∃ a ∈ admissions, o = outcome state a := by
  induction refused generalizing admissions with
  | nil =>
    cases admissions with
    | nil => cases hsplit
    | cons a rest =>
      rw [outcomes] at hsplit
      exact ⟨a, mem_cons_self, (List.cons.inj hsplit).1.symm⟩
  | cons r refused ih =>
    cases admissions with
    | nil => cases hsplit
    | cons a rest =>
      rw [outcomes] at hsplit
      obtain ⟨hhead, htail⟩ := List.cons.inj hsplit
      subst hhead
      rw [after_of_refused (hrefused _ mem_cons_self)] at htail
      obtain ⟨b, hb, heq⟩ := ih (fun r hr => hrefused r (mem_cons_of_mem _ hr)) htail
      exact ⟨b, mem_cons_of_mem _ hb, heq⟩

/-- **The refused requests leave no trace**: without them the run stores the same. -/
theorem outcomes_of_stored (admissions : List Admission) :
    outcomes state (((outcomes state admissions).filter (·.stored)).map (·.admission)) =
      (outcomes state admissions).filter (·.stored) := by
  induction admissions generalizing state with
  | nil => rfl
  | cons a rest ih =>
    rw [outcomes]
    cases hstored : (outcome state a).stored with
    | false =>
      rw [filter_cons_of_neg (by simp [hstored]), after_of_refused hstored]
      exact ih state
    | true =>
      rw [filter_cons_of_pos hstored, map_cons, outcomes]
      exact congrArg _ (ih _)

theorem InOrder.start (h : admissions.Pairwise fun a b => a.nowMs ≤ b.nowMs) :
    InOrder none admissions := ⟨fun _ _ _ hknown => (nomatch hknown), h⟩

/-! ## The bound -/

/-- The outcomes that were stored. -/
def storedOutcomes (admissions : List Admission) : List Outcome :=
    (outcomes none admissions).filter (·.stored)

theorem drawn_withdrawals (cost : Outcome → ℚ) (admissions : List Admission) (start width : ℚ) :
    drawn start (start + width) (withdrawals cost (outcomes none admissions)) =
      (((storedOutcomes admissions).filter (Outcome.within start width)).map cost).sum := by
  rw [drawn, withdrawals, filter_map, map_map]
  rfl

theorem sum_sampleCost (h : ∀ o ∈ outs, o.stored = true) (start width : ℚ) :
    ((outs.filter (Outcome.within start width)).map Outcome.sampleCost).sum =
      (outs.filter fun o => !o.onTime && o.within start width).length := by
  induction outs with
  | nil => rfl
  | cons o outs ih =>
    have hrest := ih fun o ho => h o (mem_cons_of_mem _ ho)
    have hcost : o.sampleCost = if o.onTime then 0 else 1 := by
      rw [Outcome.sampleCost, h o mem_cons_self, Bool.true_and]
      cases o.onTime <;> rfl
    cases hwithin : o.within start width with
    | false =>
      rw [filter_cons_of_neg (by simp [hwithin]), filter_cons_of_neg (by simp [hwithin])]
      exact hrest
    | true =>
      rw [filter_cons_of_pos hwithin, map_cons, sum_cons, hrest, hcost]
      cases hon : o.onTime with
      | true => rw [filter_cons_of_neg (by simp [hon]), if_pos rfl, zero_add]
      | false =>
        rw [filter_cons_of_pos (by simp [hon, hwithin]), if_neg Bool.false_ne_true, length_cons]
        push_cast
        ring

theorem outcomes_admission {state : Option GateState} (h : o ∈ outcomes state admissions) :
    ∃ state', o.admission ∈ admissions ∧ o = outcome state' o.admission := by
  induction admissions generalizing state with
  | nil => cases h
  | cons a rest ih =>
    obtain rfl | h := mem_cons.1 h
    · exact ⟨state, mem_cons_self, rfl⟩
    · obtain ⟨state', hmem, heq⟩ := ih h
      exact ⟨state', mem_cons_of_mem _ hmem, heq⟩

theorem sampled_bounds {state : Option GateState} (hvalid : a.Validated)
    (h : (outcome state a).stored = true) :
    a.nowMs - 300000 ≤ (outcome state a).sampledMs ∧
    (outcome state a).sampledMs ≤ a.nowMs + 60000 := by
  obtain ⟨sampledMs, hsampled, hfuture, -⟩ := stored_cases h
  obtain ⟨sampledMs', hsampled', hskew⟩ := hvalid
  cases hsampled.symm.trans hsampled'
  obtain ⟨-, hskew⟩ := abs_le.1 hskew
  rw [maxMetricsSkewMs] at hskew
  rw [sampledMs_eq hsampled]
  constructor <;> linarith

variable {width : ℚ}

section

variable (hsorted : admissions.Pairwise fun a b => a.nowMs ≤ b.nowMs)
include hsorted

theorem onTime_le (hvalid : ∀ a ∈ admissions, a.Validated) (start : ℚ) (hwidth : 0 ≤ width) :
    (((storedOutcomes admissions).filter fun o => o.onTime && o.within start width).length : ℚ) ≤
      (width + 360) / 50 + 1 := by
  set l := (storedOutcomes admissions).filter fun o => o.onTime && o.within start width with hl
  have hmem : ∀ o ∈ l, o.stored = true ∧ o.onTime = true ∧ o.within start width = true ∧
      o ∈ outcomes none admissions := by
    intro o ho
    obtain ⟨hstored, hcond⟩ := mem_filter.1 ho
    obtain ⟨hout, hstored⟩ := mem_filter.1 hstored
    obtain ⟨hon, hwithin⟩ := Bool.and_eq_true_iff.1 hcond
    exact ⟨hstored, hon, hwithin, hout⟩
  have hapart : (l.map (·.sampledMs)).Pairwise fun x y => x + 50000 ≤ y := by
    rw [pairwise_map]
    have hpairwise := (follows_pairwise (InOrder.start hsorted)).sublist
      (filter_sublist (p := fun o => o.onTime && o.within start width))
    exact hpairwise.imp_of_mem fun _ ho' hfollows => hfollows.2 (hmem _ ho').2.1
  have hbounds : ∀ x ∈ l.map (·.sampledMs), ⌈start * 1000⌉ - 300000 ≤ x ∧
      x ≤ ⌊(start + width) * 1000⌋ + 60000 := by
    intro x hx
    obtain ⟨o, ho, rfl⟩ := mem_map.1 hx
    obtain ⟨hstored, -, hwithin, hout⟩ := hmem o ho
    obtain ⟨state, hadmission, heq⟩ := outcomes_admission hout
    obtain ⟨hstart, hstop⟩ := of_decide_eq_true hwithin
    rw [Outcome.receivedSeconds, seconds] at hstart hstop
    have hlow : ⌈start * 1000⌉ ≤ o.admission.nowMs := Int.ceil_le.2 (by linarith)
    have hhigh : o.admission.nowMs ≤ ⌊(start + width) * 1000⌋ := Int.le_floor.2 (by linarith)
    have hkept : (outcome state o.admission).stored = true := heq ▸ hstored
    have hsampled := sampled_bounds (hvalid _ hadmission) hkept
    rw [← heq] at hsampled
    exact ⟨by linarith [hsampled.1], by linarith [hsampled.2]⟩
  have hceil : (⌈start * 1000⌉ : ℚ) < start * 1000 + 1 := Int.ceil_lt_add_one _
  have hceil' : start * 1000 ≤ (⌈start * 1000⌉ : ℚ) := Int.le_ceil _
  have hfloor : (⌊(start + width) * 1000⌋ : ℚ) ≤ (start + width) * 1000 := Int.floor_le _
  have hfloor' : (start + width) * 1000 < (⌊(start + width) * 1000⌋ : ℚ) + 1 :=
    Int.lt_floor_add_one _
  have horder : ⌈start * 1000⌉ - 300000 ≤ ⌊(start + width) * 1000⌋ + 60000 + 50000 := by
    have : (⌈start * 1000⌉ : ℚ) < ⌊(start + width) * 1000⌋ + 2 := by linarith
    have : ⌈start * 1000⌉ < ⌊(start + width) * 1000⌋ + 2 := by exact_mod_cast this
    omega
  have hlength := length_mul_le_of_apart hapart (fun x hx => (hbounds x hx).1)
    (fun x hx => (hbounds x hx).2) horder
  rw [length_map] at hlength
  have hcast : (50000 : ℚ) * l.length ≤
    (⌊(start + width) * 1000⌋ + 60000) - (⌈start * 1000⌉ - 300000) + 50000 := by
    exact_mod_cast hlength
  linarith

theorem early_le (start : ℚ) (hwidth : 0 ≤ width) :
    (((storedOutcomes admissions).filter fun o => !o.onTime && o.within start width).length : ℚ) ≤
      5 + width / 60 := by
  obtain ⟨⟨b, hdraws⟩, -⟩ := draws_first (InOrder.start hsorted)
  have hdrawn := hdraws.drawn_le (by norm_num) (by norm_num)
    (le_add_of_nonneg_right hwidth : start ≤ start + width)
  have hstored : ∀ o ∈ storedOutcomes admissions, o.stored = true := fun o ho => (mem_filter.1 ho).2
  rw [drawn_withdrawals, sum_sampleCost hstored] at hdrawn
  linarith

theorem events_le (start : ℚ)
    (hwidth : 0 ≤ width) : (((storedOutcomes admissions).filter (Outcome.within start width)).map
      fun o => (o.eventsAllowed : ℚ)).sum ≤ 120 + width * 120 / 3600 := by
  obtain ⟨-, ⟨b, hdraws⟩⟩ := draws_first (InOrder.start hsorted)
  have hdrawn := hdraws.drawn_le (by norm_num) (by norm_num)
    (le_add_of_nonneg_right hwidth : start ≤ start + width)
  rw [drawn_withdrawals] at hdrawn
  linarith

theorem tokens_bounded
    (ho : o ∈ outcomes none admissions) {known : GateState} (hknown : known ∈ o.after) :
    (0 ≤ known.sampleTokens ∧ known.sampleTokens ≤ 5) ∧ 0 ≤ known.eventTokens ∧
    known.eventTokens ≤ 120 := by
  obtain ⟨before, after, hsplit⟩ := append_of_mem ho
  obtain ⟨state, a, rest, rfl, -, horder, -⟩ := outcomes_split (InOrder.start hsorted) hsplit
  have hremembered := horder.head.after known hknown
  exact ⟨hremembered.sampleTokens, hremembered.eventTokens⟩

end

/-- **The retry time holds.** A sample that is taken and received so much later, with nothing stored
since, is stored. -/
theorem stored_after_retry {state : Option GateState} {a a' : Admission} {retryAfterSeconds : ℤ}
    (hready : Ready state a.nowMs)
    (hsoon : (outcome state a).decision = .refused .tooSoon retryAfterSeconds)
    (hvalid : a'.Validated)
    (hsampled : (outcome state a).sampledMs + retryAfterSeconds * 1000 ≤
    (outcome state a').sampledMs)
    (hreceived : a.nowMs + retryAfterSeconds * 1000 ≤ a'.nowMs)
    (hfuture : ∀ r, (outcome state a').decision ≠ .refused .future r) :
    (outcome state a').stored = true := by
  obtain ⟨-, hdup⟩ | ⟨sampledMs, hms, hdup | ⟨-, hdecides⟩⟩ := outcome_cases state a
  · cases hsoon.symm.trans hdup
  · cases hsoon.symm.trans hdup
  obtain ⟨sampledMs', hms', -⟩ := hvalid
  obtain ⟨hnone, -⟩ | ⟨sampledMs'', hms'', hfuture' | ⟨-, hdecides'⟩⟩ := outcome_cases state a'
  · cases hnone.symm.trans hms'
  · exact absurd hfuture' (hfuture _)
  cases hms'.symm.trans hms''
  rw [sampledMs_eq hms, sampledMs_eq hms'] at hsampled
  obtain ⟨-, heq⟩ | ⟨known, rfl, heq⟩ := hdecides
  · rw [heq] at hsoon
    cases hsoon
  obtain ⟨hnone, -⟩ | ⟨known', hknown', heq'⟩ := hdecides'
  · cases hnone
  cases hknown'
  have hrefreshed := (hready known rfl).refreshed
  rw [heq] at hsoon
  obtain ⟨-, hdup⟩ | ⟨hlater, hgap, htokens, hrefused⟩ | ⟨-, -, budget, -, hstores⟩ :=
    admitKnown_cases known sampledMs a.events a.nowMs
  · rw [hdup] at hsoon
    cases hsoon
  · rw [hrefused] at hsoon
    obtain ⟨-, hretry⟩ := GateDecision.refused.inj hsoon
    have hpos : 1 ≤ retryAfterSeconds := by
      rw [← hretry]
      exact le_min (le_max_left _ _) (le_max_left _ _)
    have hrefreshed' : known.refreshedMs ≤ a'.nowMs := by linarith
    -- Either the gap has passed, or a token has been refilled.
    have hpass : known.lastSampledMs + 50000 ≤ sampledMs' ∨
        1 ≤ min (5 : ℚ) (known.sampleTokens +
          max 0 (seconds (a'.nowMs - known.refreshedMs)) / 60) := by
      obtain hle | hle := min_le_iff.1 hretry.le
      · right
        have htoken : (1 - min (5 : ℚ) (known.sampleTokens +
            max 0 (seconds (a.nowMs - known.refreshedMs)) / 60)) * 60 ≤ retryAfterSeconds :=
          Int.ceil_le.1 ((le_max_right _ _).trans hle)
        have hfill : min (5 : ℚ)
          (known.sampleTokens + max 0 (seconds (a.nowMs - known.refreshedMs)) / 60) =
            known.sampleTokens + max 0 (seconds (a.nowMs - known.refreshedMs)) / 60 := by
          refine min_eq_right ?_
          obtain h | h := min_lt_iff.1 htokens
          · norm_num at h
          · linarith
        rw [hfill, elapsed_eq hrefreshed] at htoken
        rw [elapsed_eq hrefreshed']
        have hseconds : seconds a.nowMs + retryAfterSeconds ≤ seconds a'.nowMs := by
          have : ((a.nowMs + retryAfterSeconds * 1000 : ℤ) : ℚ) ≤ a'.nowMs :=
            Int.cast_le.2 hreceived
          push_cast at this
          rw [seconds, seconds]
          linarith
        refine le_min (by norm_num) ?_
        linarith
      · left
        have huntil : (50 : ℚ) - seconds (sampledMs - known.lastSampledMs) ≤ retryAfterSeconds :=
          Int.ceil_le.1 ((le_max_right _ _).trans hle)
        have hcast : ((sampledMs + retryAfterSeconds * 1000 : ℤ) : ℚ) ≤ sampledMs' :=
          Int.cast_le.2 hsampled
        push_cast at hcast
        rw [seconds] at huntil
        push_cast at huntil
        have : ((known.lastSampledMs + 50000 : ℤ) : ℚ) ≤ sampledMs' := by
          push_cast
          linarith
        exact Int.cast_le.1 this
    rw [heq']
    obtain ⟨hdup, -⟩ | ⟨-, hgap', htokens', -⟩ | ⟨-, -, budget, -, hstores⟩ :=
      admitKnown_cases known sampledMs' a'.events a'.nowMs
    · linarith
    · exact (hpass.elim (absurd · (not_le.2 hgap')) (absurd · (not_le.2 htokens')))
    · rw [hstores]
      rfl
  · rw [hstores] at hsoon
    cases hsoon

/-- **The bound of the metrics ingest gate.** In each window of receive times, so many samples are
stored on time, so many early ones and so many events; the sampled times increase; what is refused
leaves no trace; the tokens stay in their bounds; and a sample that was too soon is stored once it
keeps the retry time. -/
theorem ingest_gate_bound {admissions : List Admission}
    (hsorted : admissions.Pairwise fun a b => a.nowMs ≤ b.nowMs)
    (hvalid : ∀ a ∈ admissions, a.Validated) :
    (∀ start width : ℚ, 0 ≤ width →
      (((storedOutcomes admissions).filter fun o => o.onTime && o.within start width).length : ℚ) ≤
          (width + 360) / 50 + 1 ∧
        (((storedOutcomes admissions).filter fun o =>
        !o.onTime && o.within start width).length : ℚ) ≤
          5 + width / 60 ∧
        (((storedOutcomes admissions).filter (Outcome.within start width)).map
          fun o => (o.eventsAllowed : ℚ)).sum ≤ 120 + width * 120 / 3600) ∧
    ((storedOutcomes admissions).map (·.sampledMs)).Pairwise (· < ·) ∧
    ((∀ o ∈ outcomes none admissions, o.stored = false → o.after = o.before) ∧
      outcomes none ((storedOutcomes admissions).map (·.admission)) = storedOutcomes admissions) ∧
    (∀ o ∈ outcomes none admissions, ∀ known ∈ o.after,
      (0 ≤ known.sampleTokens ∧ known.sampleTokens ≤ 5) ∧ 0 ≤ known.eventTokens ∧
      known.eventTokens ≤ 120) ∧
    ∀ (before between after : List Outcome) (o o' : Outcome) (retryAfterSeconds : ℤ),
      outcomes none admissions = before ++ o :: (between ++ o' :: after) →
      o.decision = .refused .tooSoon retryAfterSeconds → (∀ b ∈ between, b.stored = false) →
      o.sampledMs + retryAfterSeconds * 1000 ≤ o'.sampledMs →
      o.admission.nowMs + retryAfterSeconds * 1000 ≤ o'.admission.nowMs →
      (∀ r, o'.decision ≠ .refused .future r) → o'.stored = true := by
  refine ⟨fun start width hwidth => ⟨onTime_le hsorted hvalid start hwidth,
    early_le hsorted start hwidth,
    events_le hsorted start hwidth⟩, ?_, ⟨fun o ho hrefused =>
      ?_, outcomes_of_stored none admissions⟩,
    fun o ho known hknown => tokens_bounded hsorted ho hknown, ?_⟩
  · rw [pairwise_map]
    exact (follows_pairwise (InOrder.start hsorted)).imp fun hfollows => hfollows.1
  · obtain ⟨state, -, heq⟩ := outcomes_admission ho
    rw [heq] at hrefused ⊢
    exact after_of_refused hrefused
  · intro before between after o o' retryAfterSeconds hsplit hsoon hbetween hsampled
      hreceived hfuture
    obtain ⟨state, a, rest, rfl, -, horder, hafter, hrest⟩ :=
      outcomes_split (InOrder.start hsorted) hsplit
    have hrefused : (outcome state a).stored = false := by
      rw [Outcome.stored, hsoon]
    rw [after_of_refused hrefused] at hafter
    obtain ⟨a', ha', rfl⟩ := outcomes_after_refusals hbetween hafter.symm
    exact stored_after_retry horder.head hsoon (hvalid a' (hrest a' ha')) hsampled hreceived hfuture

/-- The first sample, one that is on time and an early one. -/
def threeSamples : List Admission :=
  [⟨⟨some 0, 0⟩, 0⟩, ⟨⟨some 50000, 2⟩, 50000⟩, ⟨⟨some 60000, 0⟩, 60000⟩]

theorem ingest_gate_bound_threeSamples :
    (((storedOutcomes threeSamples).filter fun o => !o.onTime && o.within 0 60).length : ℚ) ≤
    5 + 60 / 60 ∧
      ((storedOutcomes threeSamples).map (·.sampledMs)).Pairwise (· < ·) := by
  have hsorted : threeSamples.Pairwise fun a b => a.nowMs ≤ b.nowMs := by simp [threeSamples]
  have hvalid : ∀ a ∈ threeSamples, a.Validated := by
    intro a ha
    obtain rfl | rfl | rfl : a = _ ∨ a = _ ∨ a = _ := by simpa [threeSamples] using ha
    · exact ⟨0, rfl, by norm_num [maxMetricsSkewMs]⟩
    · exact ⟨50000, rfl, by norm_num [maxMetricsSkewMs]⟩
    · exact ⟨60000, rfl, by norm_num [maxMetricsSkewMs]⟩
  have hbound := ingest_gate_bound hsorted hvalid
  exact ⟨(hbound.1 0 60 (by norm_num)).2.1, hbound.2.1⟩

end TurboPanel.Metrics
