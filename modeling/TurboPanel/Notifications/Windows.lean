import TurboPanel.Js.Calendar

/-!
# Digest windows

A channel that holds its events sends them when a window closes: at the top of the local hour, or at
08:00 of a local day. The moment at which a wall clock shows a time is found from two guesses of the
offset, 14 hours on either side of that time read as UTC. What `Intl` reports of a zone is an offset
in minutes at every instant; instants are in milliseconds. That `Date` ends in the year 275760 is
left out.
-/

namespace TurboPanel.DigestWindows

open TurboPanel.Js

/-! ## Zones -/

/-- A zone's offset changes at an instant. -/
def Changes (offset : ℤ → ℤ) (t : ℤ) : Prop := offset t ≠ offset (t - 1)

/-- What `Intl` reports of a zone: its offset at every instant, in minutes. -/
structure Zone where
  offset : ℤ → ℤ
  bounds : ∀ t, -720 ≤ offset t ∧ offset t ≤ 840
  oneChange : ∀ t t', Changes offset t → Changes offset t' → t < t' → 60 * 3600000 ≤ t' - t
  small : ∀ t, |offset t - offset (t - 1)| ≤ 180

namespace Zone

variable (z : Zone)

/-- The local time at an instant, as the milliseconds of the same reading in UTC. -/
def localMs (t : ℤ) : ℤ := t + z.offset t * 60000

/-- The clock changes between two minutes. -/
def OnMinutes : Prop := ∀ t, Changes z.offset t → 60000 ∣ t

end Zone

/-! ## The local clock -/

structure LocalClock where
  year : ℤ
  month : ℤ
  day : ℤ
  hour : ℤ
  minute : ℤ
  second : ℤ

/-- The `year` part of a date: `Intl` counts the years before the first from one again, as years of
the other era. -/
def intlYear (year : ℤ) : ℤ := if year ≤ 0 then 1 - year else year

def localClock (z : Zone) (instantMs : ℤ) : LocalClock :=
  let reading := z.localMs instantMs
  let day := reading / msPerDay
  { year := intlYear (yearFromDay day)
    month := monthFromDay day + 1
    day := dateFromDay day
    hour := reading % msPerDay / 3600000
    minute := reading % 3600000 / 60000
    second := reading % 60000 / 1000 }

/-- Zone offset from UTC at an instant, in ms. -/
def zoneOffsetMs (z : Zone) (instantMs : ℤ) : ℤ :=
  let c := localClock z instantMs
  let wall := dateUtc c.year (c.month - 1) c.day c.hour c.minute c.second
  wall - instantMs / 1000 * 1000

/-- The local minute-of-day at an instant. -/
def localMinuteOfDay (z : Zone) (instantMs : ℤ) : ℤ :=
  let c := localClock z instantMs
  c.hour * 60 + c.minute

structure WallTime where
  year : ℤ
  month : ℤ
  day : ℤ
  minuteOfDay : ℤ
  deriving DecidableEq

/-- The instant a wall-clock time falls on in a zone. -/
def zonedTimeToInstant (z : Zone) (wall : WallTime) : ℤ :=
  let asUtc := dateUtc wall.year (wall.month - 1) wall.day 0 wall.minuteOfDay 0
  let early := asUtc - zoneOffsetMs z (asUtc - 14 * 3600000)
  let late := asUtc - zoneOffsetMs z (asUtc + 14 * 3600000)
  let earlyReads := localMinuteOfDay z early = wall.minuteOfDay
  let lateReads := localMinuteOfDay z late = wall.minuteOfDay
  if earlyReads ∧ lateReads then min early late
  else if earlyReads then early
  else if lateReads then late
  else max early late

/-! ## Windows -/

structure QuietHours where
  startMinute : ℤ
  endMinute : ℤ

/-- The instant falls inside the quiet window, which may wrap midnight. -/
def inQuietHours (z : Zone) (instantMs : ℤ) (quiet : QuietHours) : Bool :=
  let minute := localMinuteOfDay z instantMs
  if quiet.startMinute < quiet.endMinute then decide (minute ≥ quiet.startMinute ∧ minute < quiet.endMinute)
  else decide (minute ≥ quiet.startMinute ∨ minute < quiet.endMinute)

def dailyDigestMinute : ℤ := 480

def dailyBoundary (z : Zone) (instantMs : ℤ) : ℤ :=
  let c := localClock z instantMs
  let today := zonedTimeToInstant z
    { year := c.year, month := c.month, day := c.day, minuteOfDay := dailyDigestMinute }
  if today ≤ instantMs then today
  else
    let yesterday := dateUtc c.year (c.month - 1) (c.day - 1) 0 0 0 / msPerDay
    zonedTimeToInstant z
      { year := yearFromDay yesterday, month := monthFromDay yesterday + 1, day := dateFromDay yesterday,
        minuteOfDay := dailyDigestMinute }

inductive NotificationDigestCadence
  | hourly
  | daily
  deriving DecidableEq

/-- The most recent moment a digest window closed. -/
def lastDigestBoundary (z : Zone) (instantMs : ℤ) : NotificationDigestCadence → ℤ
  | .daily => dailyBoundary z instantMs
  | .hourly =>
    let offset := zoneOffsetMs z instantMs
    (instantMs + offset) / 3600000 * 3600000 - offset

structure HoldSettings where
  digestCadence : Option NotificationDigestCadence
  quiet : Option QuietHours

/-- An event that arrives now waits for a later send. -/
def shouldHoldNow (z : Zone) (instantMs : ℤ) (s : HoldSettings) : Bool :=
  s.digestCadence.isSome || s.quiet.any (inQuietHours z instantMs)

/-- Which held events may go out: those created at or before the returned instant. -/
def releaseCutoff (z : Zone) (instantMs : ℤ) (s : HoldSettings) : Option ℤ :=
  if s.quiet.any (inQuietHours z instantMs) then none
  else
    match s.digestCadence with
    | none => some instantMs
    | some cadence => some (lastDigestBoundary z instantMs cadence)

/-! ## What a wall time stands for -/

/-- The date and the minute of a local time. -/
def WallTime.ofLocal (reading : ℤ) : WallTime :=
  let day := reading / msPerDay
  { year := yearFromDay day
    month := monthFromDay day + 1
    day := dateFromDay day
    minuteOfDay := reading % msPerDay / 60000 }

/-- A date of the calendar and a minute of a day. -/
structure WallTime.Valid (wall : WallTime) : Prop where
  month : 1 ≤ wall.month ∧ wall.month ≤ 12
  day : 1 ≤ wall.day ∧ wall.day ≤ daysInMonth wall.year (wall.month - 1)
  minuteOfDay : 0 ≤ wall.minuteOfDay ∧ wall.minuteOfDay < 1440

/-- A wall time, as the milliseconds of the same reading in UTC. -/
def WallTime.ms (wall : WallTime) : ℤ :=
  makeDay wall.year (wall.month - 1) wall.day * msPerDay + wall.minuteOfDay * 60000

/-- The date and the minute that the clock shows at an instant. -/
def Zone.reading (z : Zone) (t : ℤ) : WallTime := WallTime.ofLocal (z.localMs t)

/-- The clock is put forward at an instant, over a wall time. -/
def Zone.Skips (z : Zone) (wall : WallTime) (change : ℤ) : Prop :=
  change + z.offset (change - 1) * 60000 ≤ wall.ms ∧ wall.ms < change + z.offset change * 60000

/-- The instant of a wall time: the first at which the clock shows it, and where the clock skips it
the one later by the length of the gap. -/
def IsWallInstant (z : Zone) (wall : WallTime) (x : ℤ) : Prop :=
  IsLeast {t | z.reading t = wall} x ∨
    (∀ t, z.reading t ≠ wall) ∧ ∃ change, z.Skips wall change ∧ change ≤ x ∧
      z.localMs x = wall.ms + (z.offset change - z.offset (change - 1)) * 60000

/-- 08:00 of a day. -/
def eightOn (day : ℤ) : WallTime :=
  { year := yearFromDay day, month := monthFromDay day + 1, day := dateFromDay day, minuteOfDay := dailyDigestMinute }

/-- The 08:00 of a local day closes. -/
def Closes (z : Zone) (x : ℤ) : Prop := ∃ day, IsWallInstant z (eightOn day) x

/-! ## Offsets -/

theorem eq_of_not_changes {offset : ℤ → ℤ} {s t : ℤ} (hle : s ≤ t)
    (h : ∀ u, s < u → u ≤ t → ¬ Changes offset u) : offset t = offset s := by
  induction t, hle using Int.leInduction with
  | base => rfl
  | succ t hle ih =>
    have hlast : ¬ Changes offset (t + 1) := h (t + 1) (by omega) le_rfl
    rw [Changes, not_not, add_sub_cancel_right] at hlast
    rw [hlast]
    exact ih fun u hlt hle' => h u hlt (by omega)

namespace Zone

variable (z : Zone)

theorem span_cases (s : ℤ) :
    (∀ t, s ≤ t → t < s + 60 * 3600000 → z.offset t = z.offset s) ∨
      ∃ change, Changes z.offset change ∧ s < change ∧ change < s + 60 * 3600000 ∧
        ∀ t, s ≤ t → t < s + 60 * 3600000 →
          (t < change ∧ z.offset t = z.offset (change - 1)) ∨ (change ≤ t ∧ z.offset t = z.offset change) := by
  by_cases hchange : ∃ change, Changes z.offset change ∧ s < change ∧ change < s + 60 * 3600000
  · obtain ⟨change, hchanges, hlow, hhigh⟩ := hchange
    refine .inr ⟨change, hchanges, hlow, hhigh, fun t hle hlt => ?_⟩
    by_cases hbefore : t < change
    · refine .inl ⟨hbefore, ?_⟩
      refine (eq_of_not_changes (by omega : t ≤ change - 1) fun u hu hu' hother => ?_).symm
      have hgap := z.oneChange u change hother hchanges (by omega)
      omega
    · refine .inr ⟨by omega, ?_⟩
      refine eq_of_not_changes (by omega : change ≤ t) fun u hu hu' hother => ?_
      have hgap := z.oneChange change u hchanges hother hu
      omega
  · refine .inl fun t hle hlt => ?_
    refine eq_of_not_changes hle fun u hu hu' hchanges => ?_
    exact hchange ⟨u, hchanges, hu, by omega⟩

theorem change_le (t : ℤ) : z.offset t ≤ z.offset (t - 1) + 180 ∧ z.offset (t - 1) ≤ z.offset t + 180 := by
  have hsmall := abs_le.1 (z.small t)
  omega

theorem offset_le {t t' : ℤ} (hnear : t' - t < 60 * 3600000) (hnear' : t - t' < 60 * 3600000) :
    z.offset t ≤ z.offset t' + 180 := by
  have hspan := z.span_cases (min t t')
  have hle := min_le_left t t'
  have hle' := min_le_right t t'
  have hor := min_choice t t'
  generalize min t t' = s at *
  obtain hsame | ⟨change, -, -, -, hspan⟩ := hspan
  · rw [hsame t hle (by omega), hsame t' hle' (by omega)]
    omega
  · have hchange := z.change_le change
    have ht := hspan t hle (by omega)
    have ht' := hspan t' hle' (by omega)
    omega

theorem localMs_le {y x : ℤ} (hle : y ≤ x) : z.localMs y ≤ z.localMs x + 3 * 3600000 := by
  rw [localMs, localMs]
  by_cases hnear : x - y < 60 * 3600000
  · have hoffset : z.offset y ≤ z.offset x + 180 := z.offset_le hnear (by omega)
    omega
  · have hy := z.bounds y
    have hx := z.bounds x
    omega

end Zone

/-! ## Readings -/

theorem ms_dvd (wall : WallTime) : 60000 ∣ wall.ms := by
  rw [WallTime.ms, msPerDay]
  omega

theorem ms_ofLocal (reading : ℤ) : (WallTime.ofLocal reading).ms = reading / 60000 * 60000 := by
  simp only [WallTime.ofLocal, WallTime.ms, add_sub_cancel_right, makeDay_ofDay, msPerDay]
  omega

variable {wall : WallTime} {t : ℤ}

theorem ofLocal_ms (hvalid : wall.Valid) : WallTime.ofLocal wall.ms = wall := by
  obtain ⟨hmonth, hday, hminute⟩ := hvalid
  obtain ⟨year, month, day, minuteOfDay⟩ := wall
  dsimp only at hmonth hday hminute
  obtain ⟨hyear, hmonth', hdate⟩ := ofDay_makeDay ⟨by omega, by omega⟩ hday
  have hms : WallTime.ms ⟨year, month, day, minuteOfDay⟩ / msPerDay = makeDay year (month - 1) day := by
    simp only [WallTime.ms, msPerDay]
    omega
  have hrest : WallTime.ms ⟨year, month, day, minuteOfDay⟩ % msPerDay / 60000 = minuteOfDay := by
    simp only [WallTime.ms, msPerDay]
    omega
  simp only [WallTime.ofLocal, hms, hrest, hyear, hmonth', hdate, sub_add_cancel]

/-- **The clock shows a wall time for one minute of local time.** -/
theorem reading_eq_iff (z : Zone) (hvalid : wall.Valid) (t : ℤ) :
    z.reading t = wall ↔ wall.ms ≤ z.localMs t ∧ z.localMs t < wall.ms + 60000 := by
  have hdvd := ms_dvd wall
  constructor
  · intro hreading
    have hms := ms_ofLocal (z.localMs t)
    rw [← Zone.reading, hreading] at hms
    omega
  · rintro ⟨hle, hlt⟩
    have hms : z.localMs t / 60000 * 60000 = wall.ms := by omega
    rw [Zone.reading, ← ofLocal_ms hvalid, ← hms]
    simp only [WallTime.ofLocal, msPerDay]
    have hday : z.localMs t / 86400000 = z.localMs t / 60000 * 60000 / 86400000 := by omega
    have hrest : z.localMs t % 86400000 / 60000 = z.localMs t / 60000 * 60000 % 86400000 / 60000 := by omega
    rw [← hday, ← hrest]

theorem localMinuteOfDay_eq (z : Zone) (t : ℤ) : localMinuteOfDay z t = z.localMs t % msPerDay / 60000 := by
  simp only [localMinuteOfDay, localClock, msPerDay]
  omega

theorem localMinuteOfDay_eq_iff (z : Zone) (hvalid : wall.Valid) {t gap : ℤ}
    (ht : z.localMs t = wall.ms + gap * 60000) (hgap : gap ≤ 180 ∧ -180 ≤ gap) :
    localMinuteOfDay z t = wall.minuteOfDay ↔ gap = 0 := by
  have hminute := hvalid.minuteOfDay
  rw [localMinuteOfDay_eq, ht, WallTime.ms, msPerDay]
  omega

theorem zoneOffsetMs_eq (z : Zone) (ht : dayFromYear 100 * msPerDay ≤ z.localMs t) :
    zoneOffsetMs z t = z.offset t * 60000 := by
  have hday : dayFromYear 100 ≤ z.localMs t / msPerDay := by
    rw [msPerDay] at *
    omega
  have hyear := le_yearFromDay hday
  have hintl : intlYear (yearFromDay (z.localMs t / msPerDay)) = yearFromDay (z.localMs t / msPerDay) := by
    rw [intlYear, if_neg (by omega)]
  simp only [zoneOffsetMs, localClock, hintl, add_sub_cancel_right]
  rw [dateUtc_of_lt (by omega), makeDay_ofDay]
  simp only [msPerDay, Zone.localMs]
  omega

/-! ## The instant of a wall time -/

/-- The two guesses of `zonedTimeToInstant` and its choice, in terms of the offsets. -/
def wallInstant (z : Zone) (asUtc : ℤ) : ℤ :=
  let early := asUtc - z.offset (asUtc - 14 * 3600000) * 60000
  let late := asUtc - z.offset (asUtc + 14 * 3600000) * 60000
  let earlyReads := z.offset early = z.offset (asUtc - 14 * 3600000)
  let lateReads := z.offset late = z.offset (asUtc + 14 * 3600000)
  if earlyReads ∧ lateReads then min early late
  else if earlyReads then early
  else if lateReads then late
  else max early late

theorem hundred_le (hvalid : wall.Valid) (hyear : 101 ≤ wall.year) :
    dayFromYear 100 * msPerDay + 48 * 3600000 ≤ wall.ms := by
  have hday : dayFromYear wall.year ≤ makeDay wall.year (wall.month - 1) wall.day :=
    dayFromYear_le_makeDay (by have hmonth := hvalid.month; omega) hvalid.day.1
  have hmono : dayFromYear 101 ≤ dayFromYear wall.year := dayFromYear_mono hyear
  have hfirst : dayFromYear 101 = dayFromYear 100 + 365 := by decide
  have hminute := hvalid.minuteOfDay
  rw [WallTime.ms, msPerDay]
  omega

theorem zonedTimeToInstant_eq (z : Zone) (hvalid : wall.Valid)
    (hfirst : dayFromYear 100 * msPerDay + 48 * 3600000 ≤ wall.ms) :
    zonedTimeToInstant z wall = wallInstant z wall.ms := by
  have hminute := hvalid.minuteOfDay
  have hday : dayFromYear 100 ≤ makeDay wall.year (wall.month - 1) wall.day := by
    rw [WallTime.ms, msPerDay] at hfirst
    omega
  have hyear := le_yearFromDay hday
  rw [(ofDay_makeDay (by have hmonth := hvalid.month; omega) hvalid.day).1] at hyear
  have hutc : dateUtc wall.year (wall.month - 1) wall.day 0 wall.minuteOfDay 0 = wall.ms := by
    rw [dateUtc_of_lt (by omega), WallTime.ms]
    omega
  have hbefore := z.bounds (wall.ms - 14 * 3600000)
  have hafter := z.bounds (wall.ms + 14 * 3600000)
  have hearly : zoneOffsetMs z (wall.ms - 14 * 3600000) = z.offset (wall.ms - 14 * 3600000) * 60000 := by
    apply zoneOffsetMs_eq
    rw [Zone.localMs]
    omega
  have hlate : zoneOffsetMs z (wall.ms + 14 * 3600000) = z.offset (wall.ms + 14 * 3600000) * 60000 := by
    apply zoneOffsetMs_eq
    rw [Zone.localMs]
    omega
  -- a guess shows the minute exactly when its own offset is the one it was made with
  have hreads : ∀ s, wall.ms - 14 * 3600000 ≤ s → s ≤ wall.ms + 14 * 3600000 →
      (localMinuteOfDay z (wall.ms - z.offset s * 60000) = wall.minuteOfDay ↔
        z.offset (wall.ms - z.offset s * 60000) = z.offset s) := by
    intro s hs hs'
    have hbound := z.bounds s
    have hle : z.offset (wall.ms - z.offset s * 60000) ≤ z.offset s + 180 := z.offset_le (by omega) (by omega)
    have hle' : z.offset s ≤ z.offset (wall.ms - z.offset s * 60000) + 180 := z.offset_le (by omega) (by omega)
    have hlocal : z.localMs (wall.ms - z.offset s * 60000) =
        wall.ms + (z.offset (wall.ms - z.offset s * 60000) - z.offset s) * 60000 := by
      rw [Zone.localMs]
      ring
    rw [localMinuteOfDay_eq_iff z hvalid hlocal (by omega)]
    omega
  simp only [zonedTimeToInstant, hutc, hearly, hlate, wallInstant, hreads (wall.ms - 14 * 3600000) le_rfl (by omega),
    hreads (wall.ms + 14 * 3600000) (by omega) le_rfl]

/-- **`zonedTimeToInstant` finds the instant of a wall time.** -/
theorem isWallInstant_wallInstant (z : Zone) (hmin : z.OnMinutes) (hvalid : wall.Valid) :
    IsWallInstant z wall (wallInstant z wall.ms) := by
  have hdvd := ms_dvd wall
  have hbefore := z.bounds (wall.ms - 14 * 3600000)
  have hafter := z.bounds (wall.ms + 14 * 3600000)
  -- what an instant that shows the wall time is close to
  have hclose : ∀ t, z.reading t = wall → wall.ms ≤ t + z.offset t * 60000 ∧
      t + z.offset t * 60000 < wall.ms + 60000 ∧ wall.ms - 14 * 3600000 ≤ t ∧ t < wall.ms + 13 * 3600000 := by
    intro t ht
    have hbound := z.bounds t
    obtain ⟨hle, hlt⟩ := (reading_eq_iff z hvalid t).1 ht
    rw [Zone.localMs] at hle hlt
    omega
  -- an instant that shows the first moment of the wall time, and before which no other shows the
  -- wall time
  have hleast : ∀ x, x + z.offset x * 60000 = wall.ms → (∀ t, z.reading t = wall → x ≤ t) →
      IsWallInstant z wall x := by
    intro x hx hfirst
    refine .inl ⟨(reading_eq_iff z hvalid x).2 ?_, fun t ht => hfirst t ht⟩
    rw [Zone.localMs]
    omega
  obtain hsame | ⟨change, hchanges, hlow, hhigh, hspan⟩ := z.span_cases (wall.ms - 14 * 3600000)
  · -- one offset all the time: both guesses are the same
    have hlate := hsame (wall.ms + 14 * 3600000) (by omega) (by omega)
    have hguess := hsame (wall.ms - z.offset (wall.ms - 14 * 3600000) * 60000) (by omega) (by omega)
    rw [wallInstant]
    simp only [hlate, hguess, and_self, if_true, min_self]
    refine hleast _ (by rw [hguess]; ring) fun t ht => ?_
    have ht' := hclose t ht
    have hoffset := hsame t (by omega) (by omega)
    omega
  · have hmin' := hmin change hchanges
    have hfirst : z.offset (wall.ms - 14 * 3600000) = z.offset (change - 1) := by
      have hor := hspan (wall.ms - 14 * 3600000) (by omega) (by omega)
      omega
    have hlast := hspan (wall.ms + 14 * 3600000) (by omega) (by omega)
    have hearly := hspan (wall.ms - z.offset (change - 1) * 60000) (by omega) (by omega)
    have hlate := hspan (wall.ms - z.offset (wall.ms + 14 * 3600000) * 60000) (by omega) (by omega)
    rw [Changes] at hchanges
    simp only [wallInstant, hfirst]
    by_cases hreads : wall.ms - z.offset (change - 1) * 60000 < change
    · -- the earlier guess is before the change, and the later one is not before the earlier
      have hguess : z.offset (wall.ms - z.offset (change - 1) * 60000) = z.offset (change - 1) := by omega
      have hchoice : (if z.offset (wall.ms - z.offset (change - 1) * 60000) = z.offset (change - 1) ∧
          z.offset (wall.ms - z.offset (wall.ms + 14 * 3600000) * 60000) = z.offset (wall.ms + 14 * 3600000) then
          min (wall.ms - z.offset (change - 1) * 60000) (wall.ms - z.offset (wall.ms + 14 * 3600000) * 60000)
          else wall.ms - z.offset (change - 1) * 60000) = wall.ms - z.offset (change - 1) * 60000 := by
        split_ifs with hboth
        · exact min_eq_left (by omega)
        · rfl
      rw [if_pos hguess, hchoice]
      refine hleast _ (by omega) fun t ht => ?_
      have ht' := hclose t ht
      have hoffset := hspan t (by omega) (by omega)
      omega
    · have hguess : z.offset (wall.ms - z.offset (change - 1) * 60000) ≠ z.offset (change - 1) := by omega
      have hafter' : z.offset (wall.ms + 14 * 3600000) = z.offset change := by omega
      rw [hafter'] at hlate ⊢
      rw [if_neg fun h => hguess h.1, if_neg hguess]
      by_cases hreads' : change ≤ wall.ms - z.offset change * 60000
      · -- the later guess is after the change
        rw [if_pos (by omega)]
        refine hleast _ (by omega) fun t ht => ?_
        have ht' := hclose t ht
        have hoffset := hspan t (by omega) (by omega)
        omega
      · -- the clock is put forward over the wall time
        rw [if_neg (by omega), max_eq_left (by omega)]
        refine .inr ⟨fun t ht => ?_, change, ⟨by omega, by omega⟩, by omega, ?_⟩
        · have ht' := hclose t ht
          have hoffset := hspan t (by omega) (by omega)
          omega
        · rw [Zone.localMs]
          omega

theorem skips_near {z : Zone} {change : ℤ} (hskips : z.Skips wall change) :
    Changes z.offset change ∧ wall.ms - 14 * 3600000 < change ∧ change ≤ wall.ms + 12 * 3600000 := by
  have hbefore := z.bounds (change - 1)
  have hafter := z.bounds change
  obtain ⟨hle, hlt⟩ := hskips
  rw [Changes]
  omega

/-- **A wall time has one instant.** -/
theorem isWallInstant_unique {z : Zone} {x x' : ℤ} (hx : IsWallInstant z wall x) (hx' : IsWallInstant z wall x') :
    x = x' := by
  rcases hx with hleast | ⟨hnone, change, hskips, hle, hlocal⟩
  · rcases hx' with hleast' | ⟨hnone', -⟩
    · exact hleast.unique hleast'
    · exact absurd hleast.1 (hnone' x)
  · rcases hx' with hleast' | ⟨-, change', hskips', hle', hlocal'⟩
    · exact absurd hleast'.1 (hnone x')
    · obtain ⟨hchanges, hlow, hhigh⟩ := skips_near hskips
      obtain ⟨hchanges', hlow', hhigh'⟩ := skips_near hskips'
      have heq : change = change' := by
        obtain hlt | heq | hgt := lt_trichotomy change change'
        · have hgap := z.oneChange change change' hchanges hchanges' hlt
          omega
        · exact heq
        · have hgap := z.oneChange change' change hchanges' hchanges hgt
          omega
      subst heq
      -- the offset after the change lasts until the instant
      have hoffset : ∀ y, change ≤ y → z.localMs y =
          wall.ms + (z.offset change - z.offset (change - 1)) * 60000 → z.offset y = z.offset change := by
        intro y hy hlocal
        refine eq_of_not_changes hy fun u hu hu' hother => ?_
        have hgap := z.oneChange change u hchanges hother hu
        have hsmall := z.change_le change
        have hbound := z.bounds y
        rw [Zone.localMs] at hlocal
        omega
      have h := hoffset x hle hlocal
      have h' := hoffset x' hle' hlocal'
      rw [Zone.localMs] at hlocal hlocal'
      omega

theorem localMs_isWallInstant {z : Zone} (hvalid : wall.Valid) {x : ℤ} (hx : IsWallInstant z wall x) :
    wall.ms ≤ z.localMs x ∧ z.localMs x ≤ wall.ms + 3 * 3600000 := by
  rcases hx with hleast | ⟨-, change, ⟨hle, hlt⟩, -, hlocal⟩
  · have hreading := (reading_eq_iff z hvalid x).1 hleast.1
    omega
  · have hsmall := z.change_le change
    omega

theorem wallInstant_cases (z : Zone) (asUtc : ℤ) :
    ∃ s, asUtc - 14 * 3600000 ≤ s ∧ s ≤ asUtc + 14 * 3600000 ∧ wallInstant z asUtc = asUtc - z.offset s * 60000 := by
  have hearly : ∃ s, asUtc - 14 * 3600000 ≤ s ∧ s ≤ asUtc + 14 * 3600000 ∧
      asUtc - z.offset (asUtc - 14 * 3600000) * 60000 = asUtc - z.offset s * 60000 :=
    ⟨_, le_rfl, by omega, rfl⟩
  have hlate : ∃ s, asUtc - 14 * 3600000 ≤ s ∧ s ≤ asUtc + 14 * 3600000 ∧
      asUtc - z.offset (asUtc + 14 * 3600000) * 60000 = asUtc - z.offset s * 60000 :=
    ⟨_, by omega, le_rfl, rfl⟩
  simp only [wallInstant]
  split_ifs
  · obtain h | h := min_choice (asUtc - z.offset (asUtc - 14 * 3600000) * 60000)
      (asUtc - z.offset (asUtc + 14 * 3600000) * 60000)
    · rw [h]
      exact hearly
    · rw [h]
      exact hlate
  · exact hearly
  · exact hlate
  · obtain h | h := max_choice (asUtc - z.offset (asUtc - 14 * 3600000) * 60000)
      (asUtc - z.offset (asUtc + 14 * 3600000) * 60000)
    · rw [h]
      exact hearly
    · rw [h]
      exact hlate

/-! ## The closing of a day -/

theorem valid_eightOn (day : ℤ) : (eightOn day).Valid := by
  have hmonth := monthFromDay_mem day
  refine ⟨?_, ?_, ?_⟩
  · simp only [eightOn]
    omega
  · simp only [eightOn, add_sub_cancel_right]
    exact dateFromDay_mem day
  · exact (by decide : 0 ≤ dailyDigestMinute ∧ dailyDigestMinute < 1440)

theorem ms_eightOn (day : ℤ) : (eightOn day).ms = day * 86400000 + 8 * 3600000 := by
  simp only [eightOn, WallTime.ms, add_sub_cancel_right, makeDay_ofDay, msPerDay, dailyDigestMinute]
  norm_num

/-- The local day at an instant. -/
def localDay (z : Zone) (t : ℤ) : ℤ := z.localMs t / 86400000

theorem localDay_spec (z : Zone) (t : ℤ) :
    localDay z t * 86400000 ≤ z.localMs t ∧ z.localMs t < localDay z t * 86400000 + 86400000 := by
  rw [localDay]
  omega

section Closing

variable {z : Zone} {day : ℤ} {x : ℤ} (hx : IsWallInstant z (eightOn day) x)

include hx

theorem localMs_closing : day * 86400000 + 8 * 3600000 ≤ z.localMs x ∧
    z.localMs x ≤ day * 86400000 + 11 * 3600000 := by
  have hlocal := localMs_isWallInstant (valid_eightOn day) hx
  rw [ms_eightOn] at hlocal
  omega

theorem closing_lt {t : ℤ} (hday : day < localDay z t) : x < t := by
  have hlocal := localMs_closing hx
  have ht := localDay_spec z t
  by_contra hle
  have hback := z.localMs_le (not_lt.1 hle)
  omega

theorem lt_closing {t : ℤ} (hday : localDay z t < day) : t < x := by
  have hlocal := localMs_closing hx
  have ht := localDay_spec z t
  by_contra hle
  have hback := z.localMs_le (not_lt.1 hle)
  omega

theorem closing_lt_closing {day' x' : ℤ} (hx' : IsWallInstant z (eightOn day') x') (hday : day < day') : x < x' := by
  have hlocal := localMs_closing hx
  have hlocal' := localMs_closing hx'
  by_contra hle
  have hback := z.localMs_le (not_lt.1 hle)
  omega

end Closing

variable {z : Zone} (hmin : z.OnMinutes)

/-- The instant at which 08:00 of a day closes. -/
def closing (z : Zone) (day : ℤ) : ℤ := wallInstant z (eightOn day).ms

include hmin in
theorem isWallInstant_closing (day : ℤ) : IsWallInstant z (eightOn day) (closing z day) :=
  isWallInstant_wallInstant z hmin (valid_eightOn day)

theorem closing_succ_le (z : Zone) (day : ℤ) : closing z (day + 1) ≤ closing z day + 27 * 3600000 := by
  obtain ⟨s, hs, hs', heq⟩ := wallInstant_cases z (eightOn day).ms
  obtain ⟨s', hle, hle', heq'⟩ := wallInstant_cases z (eightOn (day + 1)).ms
  rw [ms_eightOn] at hs hs' hle hle'
  have hoffset : z.offset s ≤ z.offset s' + 180 := z.offset_le (by omega) (by omega)
  rw [closing, closing, heq, heq', ms_eightOn, ms_eightOn]
  omega

theorem dailyBoundary_eq (z : Zone) (hyear : 101 ≤ (z.reading t).year) :
    dailyBoundary z t =
      if closing z (localDay z t) ≤ t then closing z (localDay z t) else closing z (localDay z t - 1) := by
  have hday : dayFromYear 100 + 365 ≤ localDay z t := by
    have hmono : dayFromYear 101 ≤ dayFromYear (yearFromDay (localDay z t)) := dayFromYear_mono hyear
    have hfirst : dayFromYear 101 = dayFromYear 100 + 365 := by decide
    have hspec := yearFromDay_spec (localDay z t)
    omega
  have hzoned : ∀ day, dayFromYear 100 + 2 ≤ day →
      zonedTimeToInstant z
        { year := yearFromDay day, month := monthFromDay day + 1, day := dateFromDay day,
          minuteOfDay := dailyDigestMinute } = closing z day := by
    intro day hle
    have hfirst : dayFromYear 100 * msPerDay + 48 * 3600000 ≤ (eightOn day).ms := by
      rw [ms_eightOn, msPerDay]
      omega
    exact zonedTimeToInstant_eq z (valid_eightOn day) hfirst
  have hyear' : 101 ≤ yearFromDay (localDay z t) := hyear
  have hintl : intlYear (yearFromDay (localDay z t)) = yearFromDay (localDay z t) := by
    rw [intlYear, if_neg (by omega)]
  have hyesterday : makeDay (yearFromDay (localDay z t)) (monthFromDay (localDay z t))
      (dateFromDay (localDay z t) - 1) = localDay z t - 1 := by
    have hofDay := makeDay_ofDay (localDay z t)
    simp only [makeDay] at hofDay ⊢
    omega
  have hutc : dateUtc (yearFromDay (localDay z t)) (monthFromDay (localDay z t)) (dateFromDay (localDay z t) - 1) 0 0 0
      / msPerDay = localDay z t - 1 := by
    rw [dateUtc_of_lt (by omega), hyesterday, msPerDay]
    omega
  have hlocal : z.localMs t / msPerDay = localDay z t := rfl
  simp only [dailyBoundary, localClock, hlocal, hintl, add_sub_cancel_right, hutc]
  rw [hzoned _ (by omega), hzoned _ (by omega)]

include hmin in
/-- **A daily boundary is the last closing.** -/
theorem isGreatest_dailyBoundary (hyear : 101 ≤ (z.reading t).year) :
    IsGreatest {x | x ≤ t ∧ Closes z x} (dailyBoundary z t) := by
  rw [dailyBoundary_eq z hyear]
  have hclosing := isWallInstant_closing hmin
  split_ifs with htoday
  · refine ⟨⟨htoday, localDay z t, hclosing _⟩, ?_⟩
    rintro x ⟨hle, day, hx⟩
    obtain hlt | rfl | hgt := lt_trichotomy day (localDay z t)
    · exact (closing_lt_closing hx (hclosing _) hlt).le
    · exact (isWallInstant_unique hx (hclosing _)).le
    · have hlater := lt_closing hx hgt
      omega
  · refine ⟨⟨(closing_lt (hclosing _) (by omega)).le, localDay z t - 1, hclosing _⟩, ?_⟩
    rintro x ⟨hle, day, hx⟩
    obtain hlt | heq | hgt := lt_trichotomy day (localDay z t - 1)
    · exact (closing_lt_closing hx (hclosing _) hlt).le
    · subst heq
      exact (isWallInstant_unique hx (hclosing _)).le
    · obtain heq | hgt' := eq_or_lt_of_le (by omega : localDay z t ≤ day)
      · subst heq
        rw [isWallInstant_unique hx (hclosing _)] at hle
        exact absurd hle htoday
      · have hlater := lt_closing hx hgt'
        omega

include hmin in
theorem sub_dailyBoundary_lt (hyear : 101 ≤ (z.reading t).year) :
    t - dailyBoundary z t < 27 * 3600000 := by
  rw [dailyBoundary_eq z hyear]
  have hclosing := isWallInstant_closing hmin
  split_ifs with htoday
  · have hnext := closing_succ_le z (localDay z t)
    have hlater := lt_closing (hclosing (localDay z t + 1)) (t := t) (by omega)
    omega
  · have hnext := closing_succ_le z (localDay z t - 1)
    rw [sub_add_cancel] at hnext
    omega

include hmin in
/-- **The next closing releases an event that a daily digest holds**, and it is less than 27 hours
away. -/
theorem exists_next_closing {created : ℤ} (hyear : 101 ≤ (z.reading created).year) {s : HoldSettings}
    (hdaily : s.digestCadence = some .daily) :
    ∃ next, IsLeast {x | created ≤ x ∧ Closes z x} next ∧ next < created + 27 * 3600000 ∧
      ∀ t, next ≤ t → s.quiet.any (inQuietHours z t) = false →
        ∃ cutoff, releaseCutoff z t s = some cutoff ∧ created ≤ cutoff := by
  have hclosing := isWallInstant_closing hmin
  have hbefore : closing z (localDay z created - 1) < created := closing_lt (hclosing _) (by omega)
  have hafter : created < closing z (localDay z created + 1) := lt_closing (hclosing _) (by omega)
  -- from the closing of this day on, the local year is not an earlier one
  have hyears : ∀ day t, localDay z created ≤ day → closing z day ≤ t → 101 ≤ (z.reading t).year := by
    intro day t hday hle
    have hlocal := localMs_closing (hclosing day)
    have hback := z.localMs_le hle
    have ht := localDay_spec z t
    have hmono : dayFromYear 101 ≤ dayFromYear (yearFromDay (localDay z created)) := dayFromYear_mono hyear
    have hspec := yearFromDay_spec (localDay z created)
    exact le_yearFromDay (by omega : dayFromYear 101 ≤ localDay z t)
  have hrelease : ∀ day, localDay z created ≤ day → created ≤ closing z day → ∀ t, closing z day ≤ t →
      s.quiet.any (inQuietHours z t) = false → ∃ cutoff, releaseCutoff z t s = some cutoff ∧ created ≤ cutoff := by
    intro day hday hcreated t hle hquiet
    have hgreatest := isGreatest_dailyBoundary hmin (hyears day t hday hle)
    refine ⟨dailyBoundary z t, ?_, hcreated.trans (hgreatest.2 ⟨hle, day, hclosing day⟩)⟩
    rw [releaseCutoff, hquiet, hdaily]
    rfl
  by_cases htoday : created ≤ closing z (localDay z created)
  · refine ⟨closing z (localDay z created), ⟨⟨htoday, _, hclosing _⟩, ?_⟩, ?_, hrelease _ le_rfl htoday⟩
    · rintro x ⟨hle, day, hx⟩
      obtain hlt | rfl | hgt := lt_trichotomy day (localDay z created)
      · have hearlier := closing_lt hx hlt
        omega
      · exact (isWallInstant_unique (hclosing _) hx).le
      · exact (closing_lt_closing (hclosing _) hx hgt).le
    · have hnext := closing_succ_le z (localDay z created - 1)
      rw [sub_add_cancel] at hnext
      omega
  · refine ⟨closing z (localDay z created + 1), ⟨⟨hafter.le, _, hclosing _⟩, ?_⟩, ?_,
      hrelease _ (by omega) hafter.le⟩
    · rintro x ⟨hle, day, hx⟩
      obtain hlt | heq | hgt := lt_trichotomy day (localDay z created + 1)
      · obtain heq | hlt' := eq_or_lt_of_le (by omega : day ≤ localDay z created)
        · subst heq
          rw [← isWallInstant_unique (hclosing _) hx] at hle
          exact absurd hle htoday
        · have hearlier := closing_lt hx hlt'
          omega
      · subst heq
        exact (isWallInstant_unique (hclosing _) hx).le
      · exact (closing_lt_closing (hclosing _) hx hgt).le
    · have hnext := closing_succ_le z (localDay z created)
      omega

/-! ## Main result -/

/-- **Digest windows follow the local clock**, in a zone whose clock changes between two minutes and
from the local year 101 on: a wall time is found at the first instant that shows it, or else later
by the gap; the daily boundary is the last closing, it never goes back and it is less than 27 hours
old; and the next closing releases what is held. -/
theorem windows_follow_clock (z : Zone) (hmin : z.OnMinutes) :
    (∀ wall : WallTime, wall.Valid → 101 ≤ wall.year → IsWallInstant z wall (zonedTimeToInstant z wall)) ∧
      (∀ t, 101 ≤ (z.reading t).year →
        IsGreatest {x | x ≤ t ∧ Closes z x} (lastDigestBoundary z t .daily) ∧
          t - lastDigestBoundary z t .daily < 27 * 3600000) ∧
      (∀ t t', 101 ≤ (z.reading t).year → 101 ≤ (z.reading t').year → t ≤ t' →
        lastDigestBoundary z t .daily ≤ lastDigestBoundary z t' .daily) ∧
      ∀ created s, 101 ≤ (z.reading created).year → s.digestCadence = some .daily →
        shouldHoldNow z created s = true ∧
          ∃ next, IsLeast {x | created ≤ x ∧ Closes z x} next ∧ next < created + 27 * 3600000 ∧
            ∀ t, next ≤ t → s.quiet.any (inQuietHours z t) = false →
              ∃ cutoff, releaseCutoff z t s = some cutoff ∧ created ≤ cutoff := by
  refine ⟨fun wall hvalid hyear => ?_, fun t hyear => ?_, fun t t' hyear hyear' hle => ?_,
    fun created s hyear hdaily => ⟨?_, exists_next_closing hmin hyear hdaily⟩⟩
  · rw [zonedTimeToInstant_eq z hvalid (hundred_le hvalid hyear)]
    exact isWallInstant_wallInstant z hmin hvalid
  · exact ⟨isGreatest_dailyBoundary hmin hyear, sub_dailyBoundary_lt hmin hyear⟩
  · have hgreatest := isGreatest_dailyBoundary hmin hyear
    have hgreatest' := isGreatest_dailyBoundary hmin hyear'
    exact hgreatest'.2 ⟨hgreatest.1.1.trans hle, hgreatest.1.2⟩
  · rw [shouldHoldNow, hdaily]
    rfl

/-! ## Zones whose clock changes once -/

/-- A zone whose clock changes once. -/
def Zone.once (change before after : ℤ) (hbefore : -720 ≤ before ∧ before ≤ 840) (hafter : -720 ≤ after ∧ after ≤ 840)
    (hsmall : after ≤ before + 180 ∧ before ≤ after + 180) : Zone where
  offset t := if t < change then before else after
  bounds t := by
    split_ifs
    · exact hbefore
    · exact hafter
  oneChange t t' ht ht' hlt := by
    rw [Changes] at ht ht'
    split_ifs at ht ht' <;> omega
  small t := by
    rw [abs_le]
    split_ifs <;> omega

theorem Zone.once_changes {change before after : ℤ} {hbefore : -720 ≤ before ∧ before ≤ 840}
    {hafter : -720 ≤ after ∧ after ≤ 840} {hsmall : after ≤ before + 180 ∧ before ≤ after + 180}
    (h : Changes (Zone.once change before after hbefore hafter hsmall).offset t) : t = change := by
  rw [Changes] at h
  simp only [Zone.once] at h
  split_ifs at h <;> omega

/-- New York, where the clock was put forward by an hour on 9 March 2025 at 07:00 UTC. -/
def newYork : Zone := Zone.once 1741503600000 (-300) (-240) (by decide) (by decide) (by decide)

theorem windows_follow_clock_newYork :
    IsWallInstant newYork ⟨2025, 3, 9, 150⟩ 1741505400000 ∧
      IsGreatest {x | x ≤ 1741550000000 ∧ Closes newYork x} 1741521600000 := by
  have hmin : newYork.OnMinutes := by
    intro t ht
    rw [Zone.once_changes ht]
    decide
  obtain ⟨hwall, hboundary, -⟩ := windows_follow_clock newYork hmin
  have hinstant : zonedTimeToInstant newYork ⟨2025, 3, 9, 150⟩ = 1741505400000 := by decide +kernel
  have hlast : lastDigestBoundary newYork 1741550000000 .daily = 1741521600000 := by decide +kernel
  refine ⟨?_, ?_⟩
  · rw [← hinstant]
    exact hwall _ ⟨by decide, by decide +kernel, by decide⟩ (by decide)
  · rw [← hlast]
    exact (hboundary _ (by decide +kernel)).1

/-- A clock that is put forward by an hour half a minute into 07:00 of 4 October 2024. -/
def midMinute : Zone := Zone.once 1728025230000 0 60 (by decide) (by decide) (by decide)

def utc : Zone := Zone.once 0 0 0 (by decide) (by decide) (by decide)

/-- **A clock put forward within a minute shows 08:00 for the rest of that minute**, which
`zonedTimeToInstant` takes for skipped; and it reads the year 50 as 1950. -/
theorem within_minute_misread :
    ¬ IsWallInstant midMinute ⟨2024, 10, 4, 480⟩ (zonedTimeToInstant midMinute ⟨2024, 10, 4, 480⟩) ∧
      ¬ IsWallInstant utc ⟨50, 1, 1, 480⟩ (zonedTimeToInstant utc ⟨50, 1, 1, 480⟩) := by
  have hmid : zonedTimeToInstant midMinute ⟨2024, 10, 4, 480⟩ = 1728028800000 := by decide +kernel
  have hshown : midMinute.reading 1728025230000 = ⟨2024, 10, 4, 480⟩ := by decide +kernel
  have hutc : utc.reading (zonedTimeToInstant utc ⟨50, 1, 1, 480⟩) = ⟨1950, 1, 1, 480⟩ := by decide +kernel
  have hfifty : utc.reading (makeDay 50 0 1 * msPerDay + 28800000) = ⟨50, 1, 1, 480⟩ := by decide +kernel
  constructor
  · rw [hmid]
    rintro (hleast | ⟨hnone, -⟩)
    · exact absurd (hleast.2 hshown) (by decide)
    · exact hnone _ hshown
  · rintro (hleast | ⟨hnone, -⟩)
    · have hreading : utc.reading (zonedTimeToInstant utc ⟨50, 1, 1, 480⟩) = ⟨50, 1, 1, 480⟩ := hleast.1
      rw [hutc] at hreading
      cases hreading
    · exact hnone _ hfifty

end TurboPanel.DigestWindows
