import Mathlib.Tactic

/-!
# Dates

The arithmetic of `Date`: days are counted from the beginning of 1970, months from zero, and a date
outside its month is one of another month. A time value is in milliseconds. That `Date` ends some
100 million days before and after 1970 is left out.
-/

namespace TurboPanel.Js

open List

def msPerDay : ℤ := 86400000

/-! ## Days -/

/-- `DayFromYear`: the first day of a year. -/
def dayFromYear (y : ℤ) : ℤ :=
  365 * (y - 1970) + (y - 1969) / 4 - (y - 1901) / 100 + (y - 1601) / 400

/-- `YearFromTime`: the last year whose first day is not later. A year has 146097 days in 400 on
average, so that the guess is off by one at most. -/
def yearFromDay (d : ℤ) : ℤ :=
  let y := 1970 + 400 * d / 146097
  if d < dayFromYear y then y - 1 else if dayFromYear (y + 1) ≤ d then y + 1 else y

/-- `InLeapYear`. -/
def inLeapYear (y : ℤ) : ℤ := if y % 4 = 0 ∧ (y % 100 ≠ 0 ∨ y % 400 = 0) then 1 else 0

theorem near_year {d y : ℤ} (hle : 146097 * (y - 1970) ≤ 400 * d) (hlt : 400 * d < 146097 * (y - 1970) + 146097) :
    dayFromYear (y - 1) ≤ d ∧ d < dayFromYear (y + 2) := by
  rw [dayFromYear, dayFromYear]
  omega

theorem yearFromDay_spec (d : ℤ) : dayFromYear (yearFromDay d) ≤ d ∧ d < dayFromYear (yearFromDay d + 1) := by
  rw [yearFromDay]
  have hnear : dayFromYear (1970 + 400 * d / 146097 - 1) ≤ d ∧ d < dayFromYear (1970 + 400 * d / 146097 + 2) :=
    near_year (by omega) (by omega)
  generalize 1970 + 400 * d / 146097 = y at hnear
  split
  · rename_i hlow
    rw [sub_add_cancel]
    exact ⟨hnear.1, hlow⟩
  · rename_i hlow
    split
    · rename_i hhigh
      exact ⟨hhigh, by rw [add_assoc]; exact hnear.2⟩
    · rename_i hhigh
      exact ⟨not_lt.1 hlow, not_le.1 hhigh⟩

theorem inLeapYear_cases (y : ℤ) : inLeapYear y = 0 ∨ inLeapYear y = 1 := by
  rw [inLeapYear]
  split_ifs
  · exact .inr rfl
  · exact .inl rfl

theorem dayFromYear_succ (y : ℤ) : dayFromYear (y + 1) = dayFromYear y + 365 + inLeapYear y := by
  rw [inLeapYear, dayFromYear, dayFromYear]
  split_ifs <;> omega

theorem dayFromYear_mono {y y' : ℤ} (h : y ≤ y') : dayFromYear y ≤ dayFromYear y' := by
  rw [dayFromYear, dayFromYear]
  omega

theorem le_yearFromDay {d y : ℤ} (h : dayFromYear y ≤ d) : y ≤ yearFromDay d := by
  by_contra hlt
  have hmono : dayFromYear (yearFromDay d + 1) ≤ dayFromYear y := dayFromYear_mono (by omega)
  have hspec := yearFromDay_spec d
  omega

/-! ## Months -/

/-- The days of a year on which its months begin, after January. -/
def laterMonths (leap : ℤ) : List ℤ :=
  [31, 59 + leap, 90 + leap, 120 + leap, 151 + leap, 181 + leap, 212 + leap, 243 + leap, 273 + leap, 304 + leap,
    334 + leap]

/-- The day of the year on which a month begins. -/
def monthStart (y month : ℤ) : ℤ := (0 :: laterMonths (inLeapYear y)).getD month.toNat 0

/-- `MonthFromTime`: how many of the later months have begun. -/
def monthFromDay (d : ℤ) : ℤ :=
  let y := yearFromDay d
  ((laterMonths (inLeapYear y)).countP fun start => decide (start ≤ d - dayFromYear y) : ℕ)

/-- `DateFromTime`. -/
def dateFromDay (d : ℤ) : ℤ := d - dayFromYear (yearFromDay d) - monthStart (yearFromDay d) (monthFromDay d) + 1

/-- `MakeDay`, of any month and date. -/
def makeDay (year month date : ℤ) : ℤ :=
  let y := year + month / 12
  dayFromYear y + monthStart y (month % 12) + date - 1

theorem monthFromDay_mem (d : ℤ) : 0 ≤ monthFromDay d ∧ monthFromDay d < 12 := by
  have hle : ((laterMonths (inLeapYear (yearFromDay d))).countP fun start =>
      decide (start ≤ d - dayFromYear (yearFromDay d))) ≤ 11 := countP_le_length
  rw [monthFromDay]
  omega

/-- **A day is the day of its date.** -/
theorem makeDay_ofDay (d : ℤ) : makeDay (yearFromDay d) (monthFromDay d) (dateFromDay d) = d := by
  obtain ⟨hle, hlt⟩ := monthFromDay_mem d
  rw [makeDay, dateFromDay]
  simp only [Int.ediv_eq_zero_of_lt hle hlt, Int.emod_eq_of_lt hle hlt, add_zero]
  ring

theorem monthStart_nonneg (y month : ℤ) : 0 ≤ monthStart y month := by
  have hleap : 0 ≤ inLeapYear y := by
    obtain hleap | hleap := inLeapYear_cases y <;> omega
  have hall : ∀ start ∈ 0 :: laterMonths (inLeapYear y), 0 ≤ start := by
    intro start hstart
    simp only [laterMonths, mem_cons, not_mem_nil, or_false] at hstart
    omega
  rw [monthStart]
  generalize (0 :: laterMonths (inLeapYear y)) = starts at hall
  rw [getD_eq_getElem?_getD]
  cases hget : starts[month.toNat]? with
  | none => exact le_rfl
  | some start => exact hall start (mem_of_getElem? hget)

/-- The days of the months of a year. -/
def monthLengths (leap : ℤ) : List ℤ := [31, 28 + leap, 31, 30, 31, 30, 31, 31, 30, 31, 30, 31]

/-- The days of a month. -/
def daysInMonth (y month : ℤ) : ℤ := (monthLengths (inLeapYear y)).getD month.toNat 0

theorem lt_countP_iff {starts : List ℤ} (hsorted : starts.Pairwise (· ≤ ·)) (bound : ℤ) (i : ℕ) :
    i < (starts.countP fun start => decide (start ≤ bound)) ↔ ∃ start, starts[i]? = some start ∧ start ≤ bound := by
  induction hsorted generalizing i with
  | nil => simp
  | cons hfirst _ ih =>
    rename_i first rest _
    rw [countP_cons]
    by_cases hle : first ≤ bound
    · cases i with
      | zero => simp [hle]
      | succ i => simp [hle, ih]
    · have hnone : (rest.countP fun start => decide (start ≤ bound)) = 0 := by
        refine countP_eq_zero.2 fun start hstart => ?_
        have hle' := hfirst start hstart
        simp only [decide_eq_true_eq]
        omega
      have habove : ∀ start, (first :: rest)[i]? = some start → ¬ start ≤ bound := by
        intro start hget
        obtain rfl | hmem := mem_cons.1 (mem_of_getElem? hget)
        · exact hle
        · have hle' := hfirst start hmem
          omega
      simp only [hnone, hle, decide_false, Bool.false_eq_true, if_false, add_zero, Nat.not_lt_zero, false_iff,
        not_exists, not_and]
      exact habove

theorem monthFromDay_spec (d : ℤ) :
    monthStart (yearFromDay d) (monthFromDay d) ≤ d - dayFromYear (yearFromDay d) ∧
      d - dayFromYear (yearFromDay d) <
        monthStart (yearFromDay d) (monthFromDay d) + daysInMonth (yearFromDay d) (monthFromDay d) := by
  have hmem := monthFromDay_mem d
  have hyear := yearFromDay_spec d
  rw [dayFromYear_succ] at hyear
  have hleap := inLeapYear_cases (yearFromDay d)
  have hsorted : (laterMonths (inLeapYear (yearFromDay d))).Pairwise (· ≤ ·) := by
    obtain hleap | hleap := hleap <;> rw [hleap] <;> decide
  have hcount := lt_countP_iff hsorted (d - dayFromYear (yearFromDay d))
  rw [monthFromDay] at hmem ⊢
  simp only [monthStart, daysInMonth, Int.toNat_natCast]
  generalize ((laterMonths (inLeapYear (yearFromDay d))).countP fun start =>
    decide (start ≤ d - dayFromYear (yearFromDay d))) = k at hcount hmem ⊢
  have hlow := hcount (k - 1)
  have hhigh := hcount k
  have hk : k < 12 := by omega
  have ho : 0 ≤ d - dayFromYear (yearFromDay d) ∧
      d - dayFromYear (yearFromDay d) < 365 + inLeapYear (yearFromDay d) := by omega
  generalize inLeapYear (yearFromDay d) = leap at hlow hhigh ho hleap ⊢
  generalize d - dayFromYear (yearFromDay d) = o at hlow hhigh ho ⊢
  clear hcount hyear hmem
  interval_cases k <;> simp [laterMonths, monthLengths] at hlow hhigh ⊢ <;> omega

theorem monthStart_le {leap : ℤ} (hleap : leap = 0 ∨ leap = 1) {k month : ℕ} (hk : k < month) (hmonth : month < 12) :
    (0 :: laterMonths leap).getD k 0 + (monthLengths leap).getD k 0 ≤ (0 :: laterMonths leap).getD month 0 := by
  obtain rfl | rfl := hleap
  · exact (by decide : ∀ month < 12, ∀ k < month, (0 :: laterMonths 0).getD k 0 + (monthLengths 0).getD k 0 ≤
      (0 :: laterMonths 0).getD month 0) month hmonth k hk
  · exact (by decide : ∀ month < 12, ∀ k < month, (0 :: laterMonths 1).getD k 0 + (monthLengths 1).getD k 0 ≤
      (0 :: laterMonths 1).getD month 0) month hmonth k hk

theorem monthEnd_le {leap : ℤ} (hleap : leap = 0 ∨ leap = 1) {month : ℕ} (hmonth : month < 12) :
    (0 :: laterMonths leap).getD month 0 + (monthLengths leap).getD month 0 ≤ 365 + leap := by
  obtain rfl | rfl := hleap
  · exact (by decide : ∀ month < 12, (0 :: laterMonths 0).getD month 0 + (monthLengths 0).getD month 0 ≤ (365 : ℤ) + 0)
      month hmonth
  · exact (by decide : ∀ month < 12, (0 :: laterMonths 1).getD month 0 + (monthLengths 1).getD month 0 ≤ (365 : ℤ) + 1)
      month hmonth

theorem yearFromDay_eq {d y : ℤ} (hle : dayFromYear y ≤ d) (hlt : d < dayFromYear (y + 1)) : yearFromDay d = y := by
  refine le_antisymm ?_ (le_yearFromDay hle)
  by_contra hgt
  have hmono : dayFromYear (y + 1) ≤ dayFromYear (yearFromDay d) := dayFromYear_mono (by omega)
  have hspec := yearFromDay_spec d
  omega

/-- **The date of a day that a date names is that date**, where the month has it. -/
theorem ofDay_makeDay {year month date : ℤ} (hmonth : 0 ≤ month ∧ month < 12)
    (hdate : 1 ≤ date ∧ date ≤ daysInMonth year month) :
    yearFromDay (makeDay year month date) = year ∧ monthFromDay (makeDay year month date) = month ∧
      dateFromDay (makeDay year month date) = date := by
  have hday : makeDay year month date = dayFromYear year + monthStart year month + date - 1 := by
    rw [makeDay]
    simp only [Int.ediv_eq_zero_of_lt hmonth.1 hmonth.2, Int.emod_eq_of_lt hmonth.1 hmonth.2, add_zero]
  have hleap := inLeapYear_cases year
  have hstart := monthStart_nonneg year month
  have hend : monthStart year month + daysInMonth year month ≤ 365 + inLeapYear year :=
    monthEnd_le hleap (by omega)
  have hyear : yearFromDay (makeDay year month date) = year := by
    apply yearFromDay_eq
    · omega
    · rw [dayFromYear_succ]
      omega
  have hspec := monthFromDay_spec (makeDay year month date)
  rw [hyear] at hspec
  obtain ⟨hnonneg, hlt⟩ := monthFromDay_mem (makeDay year month date)
  have heq : monthFromDay (makeDay year month date) = month := by
    obtain hless | heq | hmore := lt_trichotomy (monthFromDay (makeDay year month date)) month
    · have hle : monthStart year (monthFromDay (makeDay year month date)) +
          daysInMonth year (monthFromDay (makeDay year month date)) ≤ monthStart year month :=
        monthStart_le hleap (by omega) (by omega)
      omega
    · exact heq
    · have hle : monthStart year month + daysInMonth year month ≤
          monthStart year (monthFromDay (makeDay year month date)) :=
        monthStart_le hleap (by omega) (by omega)
      omega
  refine ⟨hyear, heq, ?_⟩
  rw [dateFromDay, hyear, heq]
  omega

theorem dateFromDay_mem (d : ℤ) :
    1 ≤ dateFromDay d ∧ dateFromDay d ≤ daysInMonth (yearFromDay d) (monthFromDay d) := by
  have hspec := monthFromDay_spec d
  rw [dateFromDay]
  omega

theorem dayFromYear_le_makeDay {year month date : ℤ} (hmonth : 0 ≤ month ∧ month < 12) (hdate : 1 ≤ date) :
    dayFromYear year ≤ makeDay year month date := by
  have hstart := monthStart_nonneg year month
  rw [makeDay]
  simp only [Int.ediv_eq_zero_of_lt hmonth.1 hmonth.2, Int.emod_eq_of_lt hmonth.1 hmonth.2, add_zero]
  generalize dayFromYear year = first
  generalize monthStart year month = start at hstart
  omega

/-! ## Times -/

/-- `Date.UTC(year, month, date, hours, minutes, seconds)`: a year of two digits is one of the last
century. -/
def dateUtc (year month date hours minutes seconds : ℤ) : ℤ :=
  let year := if 0 ≤ year ∧ year ≤ 99 then 1900 + year else year
  makeDay year month date * msPerDay + hours * 3600000 + minutes * 60000 + seconds * 1000

theorem dateUtc_of_lt {year : ℤ} (h : 99 < year) (month date hours minutes seconds : ℤ) :
    dateUtc year month date hours minutes seconds =
      makeDay year month date * msPerDay + hours * 3600000 + minutes * 60000 + seconds * 1000 := by
  rw [dateUtc, if_neg (by omega)]

end TurboPanel.Js
