import TurboPanel.Data.Timeline
import TurboPanel.Js.Number

/-!
# Uptime

The model of `src/daemon/metrics/query/uptime.ts`: the time that a server was connected, not
connected or of unknown state in a range. `Date.parse` is a parameter, and seconds are exact.
-/

namespace TurboPanel.Uptime

open TurboPanel.Js TurboPanel.Timeline

/-! ## The calculator -/

inductive ServerStatusTransitionReason
  | connect
  | disconnect
  | sweepStale
  | selfHeal
  deriving DecidableEq

structure StatusHistoryEvent where
  at_ : String
  connected : Bool
  reason : ServerStatusTransitionReason

structure ComputeStatusUptimeInput where
  fromMs : Number
  toMs : Number
  initialConnected : Option Bool
  events : List StatusHistoryEvent
  knownUntilMs : Option Number

structure ComputeStatusUptimeResult where
  uptimeSeconds : ℚ
  downtimeSeconds : ℚ
  unknownSeconds : ℚ
  uptimePercent : Option ℚ

structure TimedEvent where
  atMs : ℚ
  connected : Bool
  reason : ServerStatusTransitionReason

/-- The sums that the spans are added to. -/
structure Totals where
  uptimeSeconds : ℚ
  downtimeSeconds : ℚ
  unknownSeconds : ℚ

def attributeSpan (startMs endMs : ℚ) (state : Option Bool) (totals : Totals) : Totals :=
  let seconds := (endMs - startMs) / 1000
  if seconds ≤ 0 then totals
  else
    match state with
    | none => { totals with unknownSeconds := totals.unknownSeconds + seconds }
    | some true => { totals with uptimeSeconds := totals.uptimeSeconds + seconds }
    | some false => { totals with downtimeSeconds := totals.downtimeSeconds + seconds }

/-- Truncated event streams are known up to an instant only. -/
def resolveKnownEndMs (fromMs toMs : ℚ) : Option Number → ℚ
  | some (.finite knownUntilMs) =>
    if knownUntilMs < fromMs then fromMs else if knownUntilMs > toMs then toMs else knownUntilMs
  | _ => toMs

section Parsing

variable (dateParse : String → Number)

/-- An event with a valid time inside a range. -/
def timedEvent (fromMs toMs : ℚ) (event : StatusHistoryEvent) : Option TimedEvent :=
  match dateParse event.at_ with
  | .finite atMs =>
    if atMs < fromMs ∨ atMs > toMs then none
    else some { atMs, connected := event.connected, reason := event.reason }
  | _ => none

/-- The events that change the state. -/
def dropRepeats : Option Bool → List TimedEvent → List TimedEvent
  | _, [] => []
  | state, event :: events =>
    if state = some event.connected then dropRepeats state events
    else event :: dropRepeats (some event.connected) events

def collectInRangeTransitions (fromMs toMs : ℚ) (initialConnected : Option Bool)
    (events : List StatusHistoryEvent) : List TimedEvent :=
  dropRepeats initialConnected
    (inOrder TimedEvent.atMs (events.filterMap (timedEvent dateParse fromMs toMs)))

/-- What the loop over the transitions keeps. -/
structure Cursor where
  totals : Totals
  cursor : ℚ
  current : Option Bool

def Cursor.step (c : Cursor) (event : TimedEvent) : Cursor :=
  { totals := attributeSpan c.cursor event.atMs c.current c.totals
    cursor := event.atMs
    current := some event.connected }

def computeStatusUptime (input : ComputeStatusUptimeInput) : ComputeStatusUptimeResult :=
  match input.fromMs, input.toMs with
  | .finite fromMs, .finite toMs =>
    if toMs < fromMs then
      { uptimeSeconds := 0, downtimeSeconds := 0, unknownSeconds := 0, uptimePercent := none }
    else
      let knownEndMs := resolveKnownEndMs fromMs toMs input.knownUntilMs
      let timed := collectInRangeTransitions dateParse fromMs knownEndMs input.initialConnected
        input.events
      let last := timed.foldl Cursor.step
        { totals := { uptimeSeconds := 0, downtimeSeconds := 0, unknownSeconds := 0 }
          cursor := fromMs
          current := input.initialConnected }
      let totals := attributeSpan last.cursor knownEndMs last.current last.totals
      let totals := attributeSpan knownEndMs toMs none totals
      let denom := totals.uptimeSeconds + totals.downtimeSeconds
      { uptimeSeconds := totals.uptimeSeconds
        downtimeSeconds := totals.downtimeSeconds
        unknownSeconds := totals.unknownSeconds
        uptimePercent := if denom = 0 then none else some (totals.uptimeSeconds / denom) }
  | _, _ => { uptimeSeconds := 0, downtimeSeconds := 0, unknownSeconds := 0, uptimePercent := none }

end Parsing

/-! ## Totals as time in a state -/

/-- The totals of the time in each state. -/
def Totals.ofTimes (times : Option Bool → ℚ) : Totals :=
  { uptimeSeconds := times (some true) / 1000
    downtimeSeconds := times (some false) / 1000
    unknownSeconds := times none / 1000 }

/-- The totals of a range, with the time that is not known. -/
def ComputeStatusUptimeResult.ofTotals (totals : Totals) : ComputeStatusUptimeResult :=
  let denom := totals.uptimeSeconds + totals.downtimeSeconds
  { uptimeSeconds := totals.uptimeSeconds
    downtimeSeconds := totals.downtimeSeconds
    unknownSeconds := totals.unknownSeconds
    uptimePercent := if denom = 0 then none else some (totals.uptimeSeconds / denom) }

theorem attributeSpan_ofTimes {startMs endMs : ℚ} (hle : startMs ≤ endMs) (state : Option Bool)
    (times : Option Bool → ℚ) :
    attributeSpan startMs endMs state (.ofTimes times) =
    .ofTimes (times + span startMs endMs state) := by
  unfold attributeSpan
  dsimp only
  split_ifs with hnone
  · have heq : endMs - startMs = 0 := by linarith
    rw [span, heq, Pi.single_zero, add_zero]
  · cases state with
    | none => simp [Totals.ofTimes, span, add_div]
    | some connected => cases connected <;> simp [Totals.ofTimes, span, add_div]

/-- The state of an event. -/
def TimedEvent.state (event : TimedEvent) : Option Bool := some event.connected

/-- **The loop adds up the time in each state.** -/
theorem foldl_step {endMs : ℚ} {events : List TimedEvent}
    (hsorted : events.Pairwise fun x y => x.atMs ≤ y.atMs)
    {cursor : ℚ} (hle : cursor ≤ endMs) (hmem : ∀ event ∈ events,
    cursor ≤ event.atMs ∧ event.atMs ≤ endMs)
    (current : Option Bool) (times : Option Bool → ℚ) :
    let last := events.foldl Cursor.step { totals := .ofTimes times, cursor, current }
    attributeSpan last.cursor endMs last.current last.totals =
      .ofTimes (times + occupancy TimedEvent.atMs TimedEvent.state endMs cursor current
        events) := by
  induction events generalizing cursor current times with
  | nil => exact attributeSpan_ofTimes hle current times
  | cons event events ih =>
    obtain ⟨hfirst, hrest⟩ := List.pairwise_cons.1 hsorted
    obtain ⟨hlow, hhigh⟩ := hmem event List.mem_cons_self
    have hstep : Cursor.step { totals := .ofTimes times, cursor, current } event =
        { totals := .ofTimes (times + span cursor event.atMs current), cursor := event.atMs,
            current := event.state } := by
      rw [Cursor.step]
      exact congrArg (fun totals => Cursor.mk totals event.atMs event.state)
        (attributeSpan_ofTimes hlow current times)
    have hih := ih hrest hhigh (fun other hother =>
      ⟨hfirst other hother, (hmem other (List.mem_cons_of_mem _ hother)).2⟩) event.state
      (times + span cursor event.atMs current)
    rw [List.foldl_cons, hstep, occupancy, ← add_assoc]
    exact hih

theorem dropRepeats_sublist (state : Option Bool) (events : List TimedEvent) :
    (dropRepeats state events).Sublist events := by
  induction events generalizing state with
  | nil => exact List.Sublist.slnil
  | cons event events ih =>
    rw [dropRepeats]
    split_ifs
    · exact (ih state).cons event
    · exact (ih _).cons_cons event

theorem occupancy_dropRepeats (endMs start : ℚ) (state : Option Bool) (events : List TimedEvent) :
    occupancy TimedEvent.atMs TimedEvent.state endMs start state (dropRepeats state events) =
      occupancy TimedEvent.atMs TimedEvent.state endMs start state events := by
  induction events generalizing start state with
  | nil => rfl
  | cons event events ih =>
    rw [dropRepeats]
    split_ifs with hheld
    · rw [ih]
      exact (occupancy_repeat TimedEvent.atMs TimedEvent.state endMs start state (p := [])
        events hheld).symm
    · exact congrArg (span start event.atMs state + ·) (ih event.atMs (some event.connected))

/-! ## Ranges -/

section Ranges

variable {dateParse : String → Number} {fromMs toMs : ℚ}

/-- The events of a range in their order, with their times. -/
def timeline (dateParse : String → Number) (fromMs endMs : ℚ)
    (events : List StatusHistoryEvent) : List TimedEvent :=
  inOrder TimedEvent.atMs (events.filterMap (timedEvent dateParse fromMs endMs))

variable {timed : TimedEvent} {event : StatusHistoryEvent} (initialConnected : Option Bool)
  (events : List StatusHistoryEvent) (knownUntilMs : Option Number)

variable {endMs : ℚ}

theorem timedEvent_mem (h : timedEvent dateParse fromMs endMs event = some timed) :
    fromMs ≤ timed.atMs ∧ timed.atMs ≤ endMs := by
  unfold timedEvent at h
  split at h
  · split_ifs at h with hout
    rw [not_or, not_lt, not_lt] at hout
    rw [← Option.some.inj h]
    exact hout
  · cases h

theorem timeline_mem {events : List StatusHistoryEvent}
    (h : timed ∈ timeline dateParse fromMs endMs events) :
    fromMs ≤ timed.atMs ∧ timed.atMs ≤ endMs := by
  obtain ⟨event, -, hevent⟩ := List.mem_filterMap.1 ((mem_inOrder TimedEvent.atMs).1 h)
  exact timedEvent_mem hevent

theorem resolveKnownEndMs_mem (hle : fromMs ≤ toMs) (knownUntilMs : Option Number) :
    fromMs ≤ resolveKnownEndMs fromMs toMs knownUntilMs ∧
    resolveKnownEndMs fromMs toMs knownUntilMs ≤ toMs := by
  unfold resolveKnownEndMs
  split
  · split_ifs with hlow hhigh
    · exact ⟨le_rfl, hle⟩
    · exact ⟨hle, le_rfl⟩
    · exact ⟨not_lt.1 hlow, not_lt.1 hhigh⟩
  · exact ⟨hle, le_rfl⟩

/-- The time in each state over a range: what is known of it, and the rest. -/
def times (dateParse : String → Number) (fromMs toMs : ℚ) (initialConnected : Option Bool)
    (events : List StatusHistoryEvent) (knownUntilMs : Option Number) : Option Bool → ℚ :=
  let knownEndMs := resolveKnownEndMs fromMs toMs knownUntilMs
  occupancy TimedEvent.atMs TimedEvent.state knownEndMs fromMs initialConnected
    (timeline dateParse fromMs knownEndMs events) + span knownEndMs toMs none

/-- **The totals are the time in each state.** -/
theorem computeStatusUptime_eq (hle : fromMs ≤ toMs) (initialConnected : Option Bool)
    (events : List StatusHistoryEvent) (knownUntilMs : Option Number) :
    computeStatusUptime dateParse
        { fromMs := .finite fromMs, toMs := .finite toMs, initialConnected, events, knownUntilMs } =
      .ofTotals (.ofTimes (times dateParse fromMs toMs initialConnected events knownUntilMs)) := by
  obtain ⟨hlow, hhigh⟩ := resolveKnownEndMs_mem hle knownUntilMs
  have hsub := dropRepeats_sublist initialConnected
    (timeline dateParse fromMs (resolveKnownEndMs fromMs toMs knownUntilMs) events)
  have hsorted := (sorted_inOrder TimedEvent.atMs (events.filterMap
    (timedEvent dateParse fromMs (resolveKnownEndMs fromMs toMs knownUntilMs)))).sublist hsub
  have hloop := foldl_step hsorted hlow (fun timed htimed =>
    timeline_mem (hsub.subset htimed)) initialConnected 0
  have hzero : Totals.ofTimes 0 =
    { uptimeSeconds := 0, downtimeSeconds := 0, unknownSeconds := 0 } := by
    simp [Totals.ofTimes]
  rw [hzero] at hloop
  unfold computeStatusUptime collectInRangeTransitions
  dsimp only at hloop ⊢
  rw [if_neg (not_lt.2 hle)]
  unfold timeline at hloop
  rw [hloop, attributeSpan_ofTimes hhigh, zero_add, occupancy_dropRepeats]
  rfl

/-- An event has a valid time inside a range. -/
def InRange (dateParse : String → Number) (fromMs endMs : ℚ) (event : StatusHistoryEvent)
    (atMs : ℚ) : Prop :=
  dateParse event.at_ = .finite atMs ∧ fromMs ≤ atMs ∧ atMs ≤ endMs

theorem timedEvent_eq_some : timedEvent dateParse fromMs endMs event = some timed ↔
      InRange dateParse fromMs endMs event timed.atMs ∧ timed.connected = event.connected ∧
        timed.reason = event.reason := by
  unfold timedEvent InRange
  split
  · rename_i atMs hparse
    rw [hparse, Number.finite.injEq]
    split_ifs with hout
    · refine ⟨fun h => absurd h (by simp), fun ⟨⟨heq, hlow, hhigh⟩, _⟩ => ?_⟩
      rw [← heq] at hlow hhigh
      rcases hout with hout | hout
      · exact absurd hlow (not_le.2 hout)
      · exact absurd hhigh (not_le.2 hout)
    · rw [not_or, not_lt, not_lt] at hout
      rw [Option.some.injEq]
      constructor
      · rintro rfl
        exact ⟨⟨rfl, hout⟩, rfl, rfl⟩
      · rintro ⟨⟨heq, -⟩, hconnected, hreason⟩
        obtain ⟨atMs', connected, reason⟩ := timed
        dsimp only at heq hconnected hreason
        rw [heq, hconnected, hreason]
  · rename_i hparse
    refine ⟨fun h => absurd h (by simp), fun ⟨⟨heq, _⟩, _⟩ => absurd heq (hparse _)⟩

/-- **The times depend on the set of the events in the range only**, where no two of them have one
time. -/
theorem times_congr {events events' : List StatusHistoryEvent}
    (hmem : ∀ event atMs, InRange dateParse fromMs (resolveKnownEndMs fromMs toMs knownUntilMs)
    event atMs →
      (event ∈ events ↔ event ∈ events'))
    (hdistinct : ∀ x ∈ events, ∀ y ∈ events, ∀ atMs,
      InRange dateParse fromMs (resolveKnownEndMs fromMs toMs knownUntilMs) x atMs →
      InRange dateParse fromMs (resolveKnownEndMs fromMs toMs knownUntilMs) y atMs → x = y) :
    times dateParse fromMs toMs initialConnected events knownUntilMs =
      times dateParse fromMs toMs initialConnected events' knownUntilMs := by
  unfold times timeline
  dsimp only
  congr 1
  refine occupancy_congr TimedEvent.atMs TimedEvent.state _ fromMs initialConnected
    (fun timed => ?_) ?_
  · rw [List.mem_filterMap, List.mem_filterMap]
    refine exists_congr fun event => and_congr_left fun hevent => ?_
    exact hmem event timed.atMs (timedEvent_eq_some.1 hevent).1
  · intro x hx y hy htime
    obtain ⟨event, hevent, hx⟩ := List.mem_filterMap.1 hx
    obtain ⟨event', hevent', hy⟩ := List.mem_filterMap.1 hy
    have hrange := (timedEvent_eq_some.1 hx).1
    have hrange' := (timedEvent_eq_some.1 hy).1
    rw [← htime] at hrange'
    rw [hdistinct event hevent event' hevent' x.atMs hrange hrange'] at hx
    exact Option.some.inj (hx.symm.trans hy)

theorem times_filter :
    times dateParse fromMs toMs initialConnected
        (events.filter fun event =>
          (timedEvent dateParse fromMs (resolveKnownEndMs fromMs toMs knownUntilMs) event).isSome)
            knownUntilMs =
      times dateParse fromMs toMs initialConnected events knownUntilMs := by
  unfold times timeline
  dsimp only
  rw [List.filterMap_filter]
  congr 3
  refine List.filterMap_congr fun event _ => ?_
  cases timedEvent dateParse fromMs (resolveKnownEndMs fromMs toMs knownUntilMs) event <;> rfl

/-- The state that is held just before an event that other events are in front of and behind. -/
def heldBefore (dateParse : String → Number) (fromMs endMs : ℚ) (initialConnected : Option Bool)
    (front : List StatusHistoryEvent) (timed : TimedEvent) (back : List StatusHistoryEvent) :
    Option Bool :=
  held TimedEvent.state initialConnected (inOrder TimedEvent.atMs
    (before TimedEvent.atMs (front.filterMap (timedEvent dateParse fromMs endMs)) timed
      (back.filterMap (timedEvent dateParse fromMs endMs))))

theorem times_repeat {initialConnected : Option Bool} {front back : List StatusHistoryEvent}
    (htimed : timedEvent dateParse fromMs (resolveKnownEndMs fromMs toMs knownUntilMs)
    event = some timed)
    (hheld : heldBefore dateParse fromMs (resolveKnownEndMs fromMs toMs knownUntilMs)
        initialConnected front timed back = some event.connected) :
    times dateParse fromMs toMs initialConnected (front ++ event :: back) knownUntilMs =
      times dateParse fromMs toMs initialConnected (front ++ back) knownUntilMs := by
  have hstate : timed.state = some event.connected :=
    congrArg some (timedEvent_eq_some.1 htimed).2.1
  unfold times timeline
  dsimp only
  rw [List.filterMap_append, List.filterMap_append, List.filterMap_cons_some htimed]
  obtain ⟨hwith, hwithout⟩ := inOrder_append_cons TimedEvent.atMs
    (front.filterMap (timedEvent dateParse fromMs (resolveKnownEndMs fromMs toMs knownUntilMs)))
      timed
    (back.filterMap (timedEvent dateParse fromMs (resolveKnownEndMs fromMs toMs knownUntilMs)))
  rw [hwith, hwithout, occupancy_repeat TimedEvent.atMs TimedEvent.state _ fromMs initialConnected _
    (hheld.trans hstate.symm)]

theorem filter_timed {start finish : ℚ} {p : TimedEvent → Bool} (hlow : fromMs ≤ start)
    (hhigh : finish ≤ endMs)
    (hp : ∀ timed : TimedEvent, fromMs ≤ timed.atMs → timed.atMs ≤ endMs →
      (p timed = true ↔ start ≤ timed.atMs ∧ timed.atMs ≤ finish)) :
    (events.filterMap (timedEvent dateParse fromMs endMs)).filter p =
      events.filterMap (timedEvent dateParse start finish) := by
  rw [List.filter_filterMap]
  refine List.filterMap_congr fun event _ => Option.ext fun timed => ?_
  rw [Option.filter_eq_some_iff, timedEvent_eq_some, timedEvent_eq_some, InRange, InRange]
  constructor
  · rintro ⟨⟨⟨hparse, hfrom, hend⟩, hrest⟩, hpart⟩
    exact ⟨⟨hparse, (hp timed hfrom hend).1 hpart⟩, hrest⟩
  · rintro ⟨⟨hparse, hstart, hfinish⟩, hrest⟩
    have hfrom := hlow.trans hstart
    have hend := hfinish.trans hhigh
    exact ⟨⟨⟨hparse, hfrom, hend⟩, hrest⟩, (hp timed hfrom hend).2 ⟨hstart, hfinish⟩⟩

theorem resolveKnownEndMs_split {m : ℚ} (hlow : fromMs ≤ m) (hhigh : m ≤ toMs)
    (knownUntilMs : Option Number) :
    resolveKnownEndMs fromMs m knownUntilMs = min (resolveKnownEndMs fromMs toMs knownUntilMs) m ∧
      resolveKnownEndMs m toMs knownUntilMs =
      max (resolveKnownEndMs fromMs toMs knownUntilMs) m := by
  have hend : toMs = max toMs m ∧ m = min toMs m :=
    ⟨(max_eq_left hhigh).symm, (min_eq_right hhigh).symm⟩
  unfold resolveKnownEndMs
  split
  · rename_i knownUntil
    constructor
    · split_ifs <;> simp only [min_def] <;> split_ifs <;> linarith
    · split_ifs <;> simp only [max_def] <;> split_ifs <;> linarith
  · exact ⟨hend.2, hend.1⟩

/-- **The time of a range is that of its first part and that of its second one**, which starts with
the state that the first one ends in; which state that is does not matter after the known end. -/
theorem times_split {m : ℚ} (hlow : fromMs ≤ m) (hhigh : m ≤ toMs) (initialConnected : Option Bool)
    (events : List StatusHistoryEvent) (knownUntilMs : Option Number) {state : Option Bool}
    (hstate : state = held TimedEvent.state initialConnected
        (timeline dateParse fromMs (resolveKnownEndMs fromMs m knownUntilMs) events) ∨
      resolveKnownEndMs fromMs toMs knownUntilMs < m) :
    times dateParse fromMs toMs initialConnected events knownUntilMs =
      times dateParse fromMs m initialConnected events knownUntilMs +
        times dateParse m toMs state events knownUntilMs := by
  obtain ⟨hfirst, hsecond⟩ := @resolveKnownEndMs_split fromMs toMs m hlow hhigh knownUntilMs
  obtain ⟨hfrom, -⟩ := resolveKnownEndMs_mem (hlow.trans hhigh) knownUntilMs
  unfold times
  dsimp only
  rw [hfirst] at hstate ⊢
  rw [hsecond]
  generalize resolveKnownEndMs fromMs toMs knownUntilMs = knownEndMs at hstate hfrom ⊢
  obtain hknown | hunknown := le_or_gt m knownEndMs
  · obtain hstate | hless := hstate
    · rw [min_eq_right hknown] at hstate ⊢
      rw [max_eq_left hknown, span_self, add_zero, ← add_assoc]
      congr 1
      -- the events up to the point, and those after it
      have hupTo : (events.filterMap (timedEvent dateParse fromMs knownEndMs)).filter (fun x =>
        x.atMs ≤ m) =
          events.filterMap (timedEvent dateParse fromMs m) :=
        filter_timed events le_rfl hknown fun timed hlow' _ => by simp [hlow']
      have hfromOn : (events.filterMap (timedEvent dateParse fromMs knownEndMs)).filter (fun x =>
        m ≤ x.atMs) =
          events.filterMap (timedEvent dateParse m knownEndMs) :=
        filter_timed events hlow le_rfl fun timed _ hhigh' => by simp [hhigh']
      have hat : (events.filterMap (timedEvent dateParse m knownEndMs)).filter (fun x =>
        x.atMs ≤ m) =
          events.filterMap (timedEvent dateParse m m) :=
        filter_timed events le_rfl hknown fun timed hlow' _ => by simp [hlow']
      have hat' : (events.filterMap (timedEvent dateParse fromMs m)).filter (fun x => m ≤ x.atMs) =
          events.filterMap (timedEvent dateParse m m) :=
        filter_timed events hlow le_rfl fun timed _ hhigh' => by simp [hhigh']
      have hsplit : ∀ l, inOrder TimedEvent.atMs l =
          inOrder TimedEvent.atMs (l.filter fun x => x.atMs ≤ m) ++
            inOrder TimedEvent.atMs (l.filter fun x => !decide (x.atMs ≤ m)) := by
        refine inOrder_split TimedEvent.atMs fun x y hx hy => ?_
        exact (of_decide_eq_true hx).trans_lt (not_le.1 (of_decide_eq_false hy))
      have hsplit' : ∀ l, inOrder TimedEvent.atMs l =
          inOrder TimedEvent.atMs (l.filter fun x => !decide (m ≤ x.atMs)) ++
            inOrder TimedEvent.atMs (l.filter fun x => m ≤ x.atMs) := by
        intro l
        have hsplit := inOrder_split TimedEvent.atMs (p := fun x => !decide (m ≤ x.atMs))
          (fun x y hx hy => ?_) l
        · simpa only [Bool.not_not] using hsplit
        · simp only [Bool.not_eq_true', Bool.not_eq_false', decide_eq_false_iff_not,
            decide_eq_true_eq] at hx hy
          exact (not_le.1 hx).trans_le hy
      have hlater : (events.filterMap (timedEvent dateParse m knownEndMs)).filter (fun x =>
        !decide (x.atMs ≤ m)) =
          (events.filterMap (timedEvent dateParse fromMs knownEndMs)).filter fun x =>
            !decide (x.atMs ≤ m) := by
        rw [← hfromOn, List.filter_filter]
        refine List.filter_congr fun x _ => ?_
        by_cases hx : x.atMs ≤ m
        · simp [hx]
        · simp [hx, (not_le.1 hx).le]
      have hwhole : timeline dateParse fromMs knownEndMs events =
        timeline dateParse fromMs m events ++
          inOrder TimedEvent.atMs
            ((events.filterMap (timedEvent dateParse fromMs knownEndMs)).filter
            fun x => !decide (x.atMs ≤ m)) := by
        rw [timeline, hsplit, hupTo]
        rfl
      have hsecond' : timeline dateParse m knownEndMs events = timeline dateParse m m events ++
          inOrder TimedEvent.atMs
            ((events.filterMap (timedEvent dateParse fromMs knownEndMs)).filter
            fun x => !decide (x.atMs ≤ m)) := by
        rw [timeline, hsplit, hat, hlater]
        rfl
      -- the events at the point itself end the first part and start the second one, which changes
      -- no state
      have hheld : held TimedEvent.state state (timeline dateParse m m events) = state := by
        have hfirst' : timeline dateParse fromMs m events =
            inOrder TimedEvent.atMs ((events.filterMap (timedEvent dateParse fromMs m)).filter
              fun x => !decide (m ≤ x.atMs)) ++ timeline dateParse m m events := by
          rw [timeline, hsplit', hat']
          rfl
        rw [hstate, hfirst', held_append, held_held]
      have hnone : occupancy TimedEvent.atMs TimedEvent.state m m state
        (timeline dateParse m m events) = 0 :=
        occupancy_at TimedEvent.atMs TimedEvent.state
          (fun timed htimed => le_antisymm (timeline_mem htimed).2 (timeline_mem htimed).1) state
      rw [hwhole, hsecond', occupancy_append TimedEvent.atMs TimedEvent.state knownEndMs m,
        occupancy_append TimedEvent.atMs TimedEvent.state knownEndMs m m, hnone, zero_add,
          hheld, ← hstate]
    · exact absurd hknown (not_le.2 hless)
  · rw [min_eq_left hunknown.le, max_eq_right hunknown.le]
    have hnone : occupancy TimedEvent.atMs TimedEvent.state m m state
      (timeline dateParse m m events) = 0 := by
      refine occupancy_at TimedEvent.atMs TimedEvent.state (fun timed htimed => ?_) state
      exact le_antisymm (timeline_mem htimed).2 (timeline_mem htimed).1
    rw [hnone, zero_add, add_assoc, span_add]

theorem times_known (hle : fromMs ≤ toMs) (initialConnected : Option Bool)
    (events : List StatusHistoryEvent)
    (knownUntilMs : Option Number) :
    times dateParse fromMs toMs initialConnected events knownUntilMs =
      times dateParse fromMs (resolveKnownEndMs fromMs toMs knownUntilMs) initialConnected events
      knownUntilMs +
        span (resolveKnownEndMs fromMs toMs knownUntilMs) toMs none := by
  obtain ⟨hlow, hhigh⟩ := resolveKnownEndMs_mem hle knownUntilMs
  obtain ⟨hfirst, -⟩ := @resolveKnownEndMs_split fromMs toMs _ hlow hhigh knownUntilMs
  rw [min_self] at hfirst
  unfold times
  dsimp only
  rw [hfirst, span_self, add_zero]

theorem sum_times (initialConnected : Option Bool) (events : List StatusHistoryEvent)
    (knownUntilMs : Option Number) :
    ∑ state, times dateParse fromMs toMs initialConnected events knownUntilMs state =
    toMs - fromMs := by
  unfold times
  simp only [Pi.add_apply, Finset.sum_add_distrib, sum_occupancy]
  simp [span]

theorem times_nonneg (hle : fromMs ≤ toMs) (initialConnected : Option Bool)
    (events : List StatusHistoryEvent)
    (knownUntilMs : Option Number) (state : Option Bool) :
    0 ≤ times dateParse fromMs toMs initialConnected events knownUntilMs state := by
  obtain ⟨hlow, hhigh⟩ := resolveKnownEndMs_mem hle knownUntilMs
  unfold times
  rw [Pi.add_apply]
  refine add_nonneg ?_ ?_
  · exact occupancy_nonneg TimedEvent.atMs TimedEvent.state initialConnected hlow
      (sorted_inOrder _ _)
      (fun timed htimed => timeline_mem htimed) state
  · have hunknown := occupancy_nonneg TimedEvent.atMs TimedEvent.state (l := []) none hhigh
      List.Pairwise.nil
      (fun timed htimed => absurd htimed List.not_mem_nil) state
    exact hunknown

end Ranges

/-! ## Main result -/

/-- **Uptime accounting is exact.** The totals are the times in each state; they add up to the range
and are not negative; they depend on the set of the events with a valid time up to the known end,
without those that repeat the state that is held; what comes after the known end is unknown; and the
totals of a range are the sums of those of its parts. -/
theorem uptime_exact (dateParse : String → Number) {fromMs toMs : ℚ} (hle : fromMs ≤ toMs)
    (initialConnected : Option Bool) (events : List StatusHistoryEvent)
    (knownUntilMs : Option Number) :
    let uptime := fun (fromMs toMs : ℚ) (initialConnected : Option Bool)
      (events : List StatusHistoryEvent) =>
      computeStatusUptime dateParse
        { fromMs := .finite fromMs, toMs := .finite toMs, initialConnected, events, knownUntilMs }
    let knownEndMs := resolveKnownEndMs fromMs toMs knownUntilMs
    let result := uptime fromMs toMs initialConnected events
    let known := uptime fromMs knownEndMs initialConnected events
    result = .ofTotals (.ofTimes
      (times dateParse fromMs toMs initialConnected events knownUntilMs)) ∧
      result.uptimeSeconds + result.downtimeSeconds + result.unknownSeconds =
        (toMs - fromMs) / 1000 ∧
      (0 ≤ result.uptimeSeconds ∧ 0 ≤ result.downtimeSeconds ∧ 0 ≤ result.unknownSeconds) ∧
      (∀ events', (∀ event atMs, InRange dateParse fromMs knownEndMs event atMs →
        (event ∈ events ↔ event ∈ events')) →
        (∀ x ∈ events, ∀ y ∈ events, ∀ atMs, InRange dateParse fromMs knownEndMs x atMs →
          InRange dateParse fromMs knownEndMs y atMs → x = y) →
        uptime fromMs toMs initialConnected events' = result) ∧
      uptime fromMs toMs initialConnected
          (events.filter fun event =>
            (timedEvent dateParse fromMs knownEndMs event).isSome) = result ∧
      (∀ front event back timed, events = front ++ event :: back →
        timedEvent dateParse fromMs knownEndMs event = some timed →
        heldBefore dateParse fromMs knownEndMs initialConnected front timed back =
          some event.connected →
        uptime fromMs toMs initialConnected (front ++ back) = result) ∧
      (result.uptimeSeconds = known.uptimeSeconds ∧ result.downtimeSeconds = known.downtimeSeconds ∧
        result.unknownSeconds = known.unknownSeconds + (toMs - knownEndMs) / 1000) ∧
      ∀ m, fromMs ≤ m → m ≤ toMs → ∀ state,
        state = held TimedEvent.state initialConnected
            (timeline dateParse fromMs (resolveKnownEndMs fromMs m knownUntilMs) events) ∨
              knownEndMs < m →
        let first := uptime fromMs m initialConnected events
        let second := uptime m toMs state events
        result.uptimeSeconds = first.uptimeSeconds + second.uptimeSeconds ∧
          result.downtimeSeconds = first.downtimeSeconds + second.downtimeSeconds ∧
          result.unknownSeconds = first.unknownSeconds + second.unknownSeconds := by
  intro uptime knownEndMs result known
  have heq : ∀ {a b : ℚ}, a ≤ b → ∀ initialConnected events, uptime a b initialConnected events =
      .ofTotals (.ofTimes (times dateParse a b initialConnected events knownUntilMs)) :=
    fun hab initialConnected events =>
      computeStatusUptime_eq hab initialConnected events knownUntilMs
  have hresult : result = .ofTotals
    (.ofTimes (times dateParse fromMs toMs initialConnected events knownUntilMs)) :=
    heq hle initialConnected events
  obtain ⟨hlow, hhigh⟩ := resolveKnownEndMs_mem hle knownUntilMs
  refine ⟨hresult, ?_, ?_, ?_, ?_, ?_, ?_, ?_⟩
  · have hsum := @sum_times dateParse fromMs toMs initialConnected events knownUntilMs
    rw [Fintype.sum_option, Fintype.sum_bool] at hsum
    rw [hresult, ← hsum]
    simp only [ComputeStatusUptimeResult.ofTotals, Totals.ofTimes]
    ring
  · have hnonneg := @times_nonneg dateParse fromMs toMs hle initialConnected events knownUntilMs
    rw [hresult]
    exact ⟨div_nonneg (hnonneg _) (by norm_num), div_nonneg (hnonneg _) (by norm_num),
      div_nonneg (hnonneg _) (by norm_num)⟩
  · intro events' hmem hdistinct
    rw [heq hle, hresult, times_congr initialConnected knownUntilMs hmem hdistinct]
  · rw [heq hle, hresult]
    exact congrArg _ (congrArg _ (times_filter initialConnected events knownUntilMs))
  · rintro front event back timed rfl htimed hheld
    rw [heq hle, hresult, times_repeat knownUntilMs htimed hheld]
  · have hknown : known = .ofTotals (.ofTimes (times dateParse fromMs knownEndMs initialConnected
        events knownUntilMs)) :=
      heq hlow initialConnected events
    have hsplit : times dateParse fromMs toMs initialConnected events knownUntilMs =
        times dateParse fromMs knownEndMs initialConnected events knownUntilMs +
          span knownEndMs toMs none :=
      times_known hle initialConnected events knownUntilMs
    have hother : ∀ connected, span knownEndMs toMs (none : Option Bool)
      (some connected) = 0 := fun connected =>
      Pi.single_eq_of_ne (by simp) _
    have hnone : span knownEndMs toMs (none : Option Bool) none = toMs - knownEndMs :=
      Pi.single_eq_same _ _
    rw [hresult, hknown, hsplit]
    simp only [ComputeStatusUptimeResult.ofTotals, Totals.ofTimes, Pi.add_apply, hother, hnone,
      add_zero, add_div]
    exact ⟨trivial, trivial, trivial⟩
  · intro m hm hm' state hstate
    dsimp only
    rw [hresult, heq hm, heq hm', times_split hm hm' initialConnected events knownUntilMs hstate]
    simp only [ComputeStatusUptimeResult.ofTotals, Totals.ofTimes, Pi.add_apply, add_div]
    exact ⟨trivial, trivial, trivial⟩

theorem uptime_exact_connect :
    let dateParse := fun at_ : String =>
      if at_ = "1970-01-01T00:00:04Z" then Number.finite 4000 else .nan
    let events : List StatusHistoryEvent :=
      [{ at_ := "1970-01-01T00:00:04Z", connected := true, reason := .connect }]
    let result := computeStatusUptime dateParse
      { fromMs := .finite 0, toMs := .finite 10000, initialConnected := some false, events,
        knownUntilMs := none }
    result.uptimeSeconds + result.downtimeSeconds + result.unknownSeconds = (10000 - 0) / 1000 ∧
      0 ≤ result.uptimeSeconds := by
  intro dateParse events
  have hexact := uptime_exact dateParse (by norm_num : (0 : ℚ) ≤ 10000) (some false) events none
  exact ⟨hexact.2.1, hexact.2.2.1.1⟩

end TurboPanel.Uptime
