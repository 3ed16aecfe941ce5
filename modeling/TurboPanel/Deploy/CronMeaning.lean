import TurboPanel.Js.Text

/-!
# What cron expressions and calendar events mean

Two languages for sets of minutes, each with its own meaning, stated without reference to the program
that translates one to the other.

* A cron expression has five fields of items; `SpellsCron` says which texts spell it, and
  `CronExpr.Matches` at which minutes it fires. A field matches when one of its items does; 7 is
  Sunday; the two day fields are united when both are restricted, and otherwise both must match.
* A calendar event of systemd is a text, `[days] year-month-day hour:minute:second [zone]`, whose
  components are lists of `*`, `a`, `a..b`, `a/s` and `a..b/s`; `onCalendarMatches` decides whether it
  elapses at a minute.
-/

namespace TurboPanel.Deploy

open Js

/-- A minute of the calendar, in the zone of the schedule. Weekdays count from Sunday. -/
structure CalendarMinute where
  year : ℕ
  month : ℕ
  day : ℕ
  weekday : ℕ
  hour : ℕ
  minute : ℕ
  month_mem : 1 ≤ month ∧ month ≤ 12
  day_mem : 1 ≤ day ∧ day ≤ 31
  weekday_lt : weekday < 7
  hour_lt : hour < 24
  minute_lt : minute < 60

/-! ## Cron -/

inductive CronField
  | minute
  | hour
  | dayOfMonth
  | month
  | dayOfWeek
  deriving DecidableEq

/-- The smallest value of a field. -/
def CronField.first : CronField → ℕ
  | .dayOfMonth | .month => 1
  | _ => 0

/-- The largest value of a field. -/
def CronField.last : CronField → ℕ
  | .minute => 59
  | .hour => 23
  | .dayOfMonth => 31
  | .month => 12
  | .dayOfWeek => 7

/-- The names that a field knows for its values. -/
def CronField.names : CronField → List (String × ℕ)
  | .month => [("jan", 1), ("feb", 2), ("mar", 3), ("apr", 4), ("may", 5), ("jun", 6), ("jul", 7),
      ("aug", 8), ("sep", 9), ("oct", 10), ("nov", 11), ("dec", 12)]
  | .dayOfWeek => [("sun", 0), ("mon", 1), ("tue", 2), ("wed", 3), ("thu", 4), ("fri", 5), ("sat", 6)]
  | _ => []

/-- One item of a field: `*`, `*/n`, `v`, `v/n`, `v-w` or `v-w/n`. -/
inductive CronItem
  | all
  | every (n : ℕ)
  | value (v : ℕ)
  | upward (v n : ℕ)
  | range (v w : ℕ)
  | stepped (v w n : ℕ)
  deriving DecidableEq

/-- The values that an item selects. -/
def CronItem.Matches (f : CronField) (x : ℕ) : CronItem → Prop
  | .all => True
  | .every n => f.first ≤ x ∧ x ≤ f.last ∧ n ∣ x - f.first
  | .value v => x = v
  | .upward v n => v ≤ x ∧ x ≤ f.last ∧ n ∣ x - v
  | .range v w => v ≤ x ∧ x ≤ w
  | .stepped v w n => v ≤ x ∧ x ≤ w ∧ n ∣ x - v

/-- A field matches when one of its items does. -/
def FieldMatches (f : CronField) (items : List CronItem) (x : ℕ) : Prop :=
  ∃ item ∈ items, item.Matches f x

/-- The weekday field: Sunday is 0 and 7. -/
def WeekdayMatches (items : List CronItem) (d : ℕ) : Prop :=
  FieldMatches .dayOfWeek items d ∨ d = 0 ∧ FieldMatches .dayOfWeek items 7

/-- A field is restricted when it has no `*`. -/
def CronRestricted (items : List CronItem) : Prop := CronItem.all ∉ items

structure CronExpr where
  minute : List CronItem
  hour : List CronItem
  dayOfMonth : List CronItem
  month : List CronItem
  dayOfWeek : List CronItem

/-- The expression fires at the minute. -/
def CronExpr.Matches (e : CronExpr) (m : CalendarMinute) : Prop :=
  FieldMatches .minute e.minute m.minute ∧ FieldMatches .hour e.hour m.hour ∧
    FieldMatches .month e.month m.month ∧
    (CronRestricted e.dayOfMonth ∧ CronRestricted e.dayOfWeek ∧
        (FieldMatches .dayOfMonth e.dayOfMonth m.day ∨ WeekdayMatches e.dayOfWeek m.weekday) ∨
      ¬(CronRestricted e.dayOfMonth ∧ CronRestricted e.dayOfWeek) ∧
        FieldMatches .dayOfMonth e.dayOfMonth m.day ∧ WeekdayMatches e.dayOfWeek m.weekday)

/-! ## The spelling of cron -/

/-- A decimal number. -/
structure SpellsNumber (t : Text) (n : ℕ) : Prop where
  ne_nil : t ≠ []
  digits : ∀ c ∈ t, isDigitOf 10 c = true
  value : ofDigits 10 t = n

/-- A value of a field: a number, or a name in any case. -/
inductive SpellsValue (f : CronField) : Text → ℕ → Prop
  | number {t : Text} {n : ℕ} : SpellsNumber t n → SpellsValue f t n
  | name {t : Text} {name : String} {n : ℕ} : (name, n) ∈ f.names →
      t.map Char.toLower = name.toList → SpellsValue f t n

inductive SpellsItem (f : CronField) : Text → CronItem → Prop
  | all : SpellsItem f ['*'] .all
  | every {s : Text} {n : ℕ} : SpellsNumber s n → SpellsItem f ('*' :: '/' :: s) (.every n)
  | value {t : Text} {v : ℕ} : SpellsValue f t v → SpellsItem f t (.value v)
  | upward {t s : Text} {v n : ℕ} : SpellsValue f t v → SpellsNumber s n →
      SpellsItem f (t ++ '/' :: s) (.upward v n)
  | range {t u : Text} {v w : ℕ} : SpellsValue f t v → SpellsValue f u w →
      SpellsItem f (t ++ '-' :: u) (.range v w)
  | stepped {t u s : Text} {v w n : ℕ} : SpellsValue f t v → SpellsValue f u w →
      SpellsNumber s n → SpellsItem f (t ++ '-' :: u ++ '/' :: s) (.stepped v w n)

/-- Items joined by commas. -/
inductive SpellsField (f : CronField) : Text → List CronItem → Prop
  | mk {parts : List Text} {items : List CronItem} : parts ≠ [] →
      List.Forall₂ (SpellsItem f) parts items → SpellsField f ([','].intercalate parts) items

/-- White space that separates two fields. -/
structure Separator (w : Text) : Prop where
  ne_nil : w ≠ []
  space : ∀ c ∈ w, isSpace c = true

/-- The shorthands, and the expressions they stand for. -/
def shorthands : List (String × CronExpr) :=
  [("@yearly", ⟨[.value 0], [.value 0], [.value 1], [.value 1], [.all]⟩),
    ("@annually", ⟨[.value 0], [.value 0], [.value 1], [.value 1], [.all]⟩),
    ("@monthly", ⟨[.value 0], [.value 0], [.value 1], [.all], [.all]⟩),
    ("@weekly", ⟨[.value 0], [.value 0], [.all], [.all], [.value 0]⟩),
    ("@daily", ⟨[.value 0], [.value 0], [.all], [.all], [.all]⟩),
    ("@midnight", ⟨[.value 0], [.value 0], [.all], [.all], [.all]⟩),
    ("@hourly", ⟨[.value 0], [.all], [.all], [.all], [.all]⟩)]

/-- Five fields with white space between them. -/
inductive SpellsFields : Text → CronExpr → Prop
  | mk {t₁ t₂ t₃ t₄ t₅ w₁ w₂ w₃ w₄ : Text} {e : CronExpr} :
      SpellsField .minute t₁ e.minute → SpellsField .hour t₂ e.hour →
      SpellsField .dayOfMonth t₃ e.dayOfMonth → SpellsField .month t₄ e.month →
      SpellsField .dayOfWeek t₅ e.dayOfWeek → Separator w₁ → Separator w₂ → Separator w₃ →
      Separator w₄ → SpellsFields (t₁ ++ w₁ ++ (t₂ ++ w₂ ++ (t₃ ++ w₃ ++ (t₄ ++ w₄ ++ t₅)))) e

/-- A cron expression: five fields, or a shorthand in any case, with white space around it. -/
inductive SpellsCron : Text → CronExpr → Prop
  | fields {w t w' : Text} {e : CronExpr} : (∀ c ∈ w, isSpace c = true) →
      (∀ c ∈ w', isSpace c = true) → SpellsFields t e → SpellsCron (w ++ t ++ w') e
  | shorthand {w t w' : Text} {name : String} {e : CronExpr} : (∀ c ∈ w, isSpace c = true) →
      (∀ c ∈ w', isSpace c = true) → (name, e) ∈ shorthands → t.map Char.toLower = name.toList →
      SpellsCron (w ++ t ++ w') e

/-! ## Calendar events -/

def readNumber (t : Text) : Option ℕ := if isDecimal t then some (ofDigits 10 t) else none

/-- The bounds of `a` or `a..b`; the second is missing in the first form. -/
def readBounds (t : Text) : Option (ℕ × Option ℕ) :=
  match splitPair '.' '.' t with
  | [a] => (readNumber a).map (·, none)
  | [a, b] => (readNumber a).bind fun a => (readNumber b).map fun b => (a, some b)
  | _ => none

/-- One item of a component whose largest value is `last`. A single value with a step goes on to the
end of the component. -/
def calendarItemMatches (last : ℕ) (t : Text) (x : ℕ) : Bool :=
  match t.splitOn '/' with
  | [body] =>
    if body = ['*'] then true
    else
      match readBounds body with
      | some (a, none) => x == a
      | some (a, some b) => decide (a ≤ x ∧ x ≤ b)
      | none => false
  | [body, step] =>
    match readBounds body, readNumber step with
    | some (a, b), some n => decide (a ≤ x ∧ x ≤ b.getD last ∧ n ∣ x - a)
    | _, _ => false
  | _ => false

def componentMatches (last : ℕ) (t : Text) (x : ℕ) : Bool :=
  (t.splitOn ',').any fun item => calendarItemMatches last item x

def dayNames : List Text :=
  [['S', 'u', 'n'], ['M', 'o', 'n'], ['T', 'u', 'e'], ['W', 'e', 'd'], ['T', 'h', 'u'],
    ['F', 'r', 'i'], ['S', 'a', 't']]

/-- A list of weekdays. -/
def daysMatch (t : Text) (d : ℕ) : Bool := (t.splitOn ',').any fun name => dayNames[d]? == some name

/-- `year-month-day` and `hour:minute:second`, at the first second of the minute, and a zone or
nothing behind them. -/
def dateTimeMatches (tokens : List Text) (m : CalendarMinute) : Bool :=
  match tokens with
  | date :: time :: zone =>
    decide (zone.length ≤ 1) &&
      (match date.splitOn '-', time.splitOn ':' with
        | [year, month, day], [hour, minute, second] =>
          componentMatches m.year year m.year && componentMatches 12 month m.month &&
            componentMatches 31 day m.day && componentMatches 23 hour m.hour &&
            componentMatches 59 minute m.minute && componentMatches 59 second 0
        | _, _ => false)
  | _ => false

/-- The event elapses at the minute. The days, where there are any, start with a letter, and the
date does not. -/
def onCalendarMatches (t : Text) (m : CalendarMinute) : Bool :=
  match t.splitOn ' ' with
  | [] => false
  | token :: tokens =>
    if token.head?.any Char.isAlpha then daysMatch token m.weekday && dateTimeMatches tokens m
    else dateTimeMatches (token :: tokens) m

end TurboPanel.Deploy
