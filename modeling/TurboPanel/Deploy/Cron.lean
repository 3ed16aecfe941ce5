import TurboPanel.Js.Text

/-!
# Cron schedules

The model of the schedule half of `src/features/deploy/cron.ts`, and of `isValidTimezone` of
`src/lib/timezones.ts`, which it calls. A result of the source, `{ ok, value }` or `{ ok, error }`,
is an `Except String`, with the texts of its errors.

A field value is read from a table with `spec.aliases?.[token]`, which also finds the members that
every object inherits. Lower-case tokens reach two of them, `constructor` and `__proto__`; the value
is then an object and not a number, and `FieldValue.inherited` keeps the text it is printed as.
Here, where a schedule is checked for any daemon, `__proto__` is the accessor of the standard; Deno
has removed it.
-/

namespace TurboPanel.Deploy

open Js

/-! ## Time zones -/

def timezoneMaxLength : ℕ := 64

/-- The characters of a segment of `TIMEZONE_RE`. -/
def isTimezoneChar (c : Char) : Bool :=
  c.isAlpha || isDigitOf 10 c || c == '_' || c == '+' || c == '-'

/-- `TIMEZONE_RE`: a letter first, then segments that are not empty, joined by slashes. -/
def timezoneShape (value : Text) : Bool :=
  match value.splitOn '/' with
  | first :: rest =>
    (match first with
      | c :: cs => c.isAlpha && cs.all isTimezoneChar
      | [] => false) &&
      rest.all fun segment => !segment.isEmpty && segment.all isTimezoneChar
  | [] => false

/-- `SHELL_METACHAR_RE`. -/
def isShellMetachar (c : Char) : Bool := ";|&$`()<>\\\"'!*?\x7b\x7d".toList.contains c

def isValidTimezone (value : Text) : Bool :=
  if value.isEmpty then false
  else if timezoneMaxLength < utf16Length value then false
  else if value.any isSpace then false
  else if value.any isShellMetachar then false
  else timezoneShape value

/-! ## Fields -/

/-- What a token of a field stands for. -/
inductive FieldValue
  | number (n : ℕ)
  | inherited (text : Text)
  deriving DecidableEq

/-- `String(value)`. -/
def FieldValue.text : FieldValue → Text
  | .number n => Nat.toDigits 10 n
  | .inherited t => t

/-- `a < b`: numbers as numbers, objects by their texts, and no answer between the two. -/
def FieldValue.lt : FieldValue → FieldValue → Bool
  | .number a, .number b => decide (a < b)
  | .inherited a, .inherited b => decide (a < b)
  | _, _ => false

/-- `a <= b`. -/
def FieldValue.le : FieldValue → FieldValue → Bool
  | .number a, .number b => decide (a ≤ b)
  | .inherited a, .inherited b => !decide (b < a)
  | _, _ => false

/-- `a += 1`: on an object this appends to its text. -/
def FieldValue.succ : FieldValue → FieldValue
  | .number a => .number (a + 1)
  | .inherited a => .inherited (a ++ ['1'])

structure FieldSpec where
  label : String
  min : ℕ
  max : ℕ
  aliases : List (String × ℕ)

def monthAliases : List (String × ℕ) :=
  [("jan", 1), ("feb", 2), ("mar", 3), ("apr", 4), ("may", 5), ("jun", 6), ("jul", 7), ("aug", 8),
    ("sep", 9), ("oct", 10), ("nov", 11), ("dec", 12)]

def weekdayAliases : List (String × ℕ) :=
  [("sun", 0), ("mon", 1), ("tue", 2), ("wed", 3), ("thu", 4), ("fri", 5), ("sat", 6)]

def cronAliases : List (String × String) :=
  [("@yearly", "0 0 1 1 *"), ("@annually", "0 0 1 1 *"), ("@monthly", "0 0 1 * *"),
    ("@weekly", "0 0 * * 0"), ("@daily", "0 0 * * *"), ("@midnight", "0 0 * * *"),
    ("@hourly", "0 * * * *")]

def minuteSpec : FieldSpec := { label := "minute", min := 0, max := 59, aliases := [] }

def hourSpec : FieldSpec := { label := "hour", min := 0, max := 23, aliases := [] }

def dayOfMonthSpec : FieldSpec := { label := "day of month", min := 1, max := 31, aliases := [] }

def monthSpec : FieldSpec := { label := "month", min := 1, max := 12, aliases := monthAliases }

def dayOfWeekSpec : FieldSpec :=
  -- 7 is Sunday as well as 0
  { label := "day of week", min := 0, max := 7, aliases := weekdayAliases }

/-- `spec.aliases?.[token]`: an own property, or what every object inherits when there is a table at
all (the numeric fields have none). -/
def FieldSpec.alias (spec : FieldSpec) (token : Text) : Option FieldValue :=
  if spec.aliases.isEmpty then none
  else
    match spec.aliases.lookup (String.ofList token) with
    | some n => some (.number n)
    | none =>
      if token = "constructor".toList then
        some (.inherited "function Object() \x7b [native code] \x7d".toList)
      else if token = "__proto__".toList then some (.inherited "[object Object]".toList)
      else none

inductive FieldItem
  | all
  | single (value : FieldValue)
  | range (first last : FieldValue)
  | step (first last : FieldValue) (step : ℕ) (wholeField : Bool)
  deriving DecidableEq

/-- `/^\d{1,n}$/`. -/
def isShortDecimal (n : ℕ) (t : Text) : Bool := isDecimal t && decide (t.length ≤ n)

def readFieldValue (raw : Text) (spec : FieldSpec) : Option FieldValue :=
  let token := toLowerCase (trim raw)
  if token.isEmpty then none
  else
    match spec.alias token with
    | some value => some value
    | none =>
      if isShortDecimal 2 token then
        let value := ofDigits 10 token
        if value < spec.min ∨ spec.max < value then none else some (.number value)
      else none

/-- `"${raw}"`. -/
def quoted (raw : Text) : String := "\"" ++ String.ofList raw ++ "\""

/-- The `/N` suffix, bounded by the field's own range. -/
def parseStepSuffix (raw stepRaw : Text) (spec : FieldSpec) : Except String ℕ :=
  if isShortDecimal 3 stepRaw = false ∨ ofDigits 10 stepRaw < 1 then
    .error (quoted raw ++ " has an invalid step for the " ++ spec.label)
  else
    let step := ofDigits 10 stepRaw
    if spec.max - spec.min + 1 < step then
      .error (quoted raw ++ " steps by more than the whole " ++ spec.label ++ " range")
    else .ok step

/-- `*` or `*` with a step: the item spans the whole field. -/
def wholeFieldItem (spec : FieldSpec) : Option ℕ → FieldItem
  | none => .all
  | some step => .step (.number spec.min) (.number spec.max) step true

def notValid (raw : Text) (spec : FieldSpec) : String := quoted raw ++ " is not a valid " ++ spec.label

/-- `5`, `5-9`, `5/10`, `5-9/2`: an item anchored at a real value. -/
def parseAnchoredItem (raw body : Text) (spec : FieldSpec) (step : Option ℕ) :
    Except String FieldItem :=
  match body.splitOn '-' with
  | [fromRaw] =>
    match readFieldValue fromRaw spec with
    | none => .error (notValid raw spec)
    | some first =>
      match step with
      | none => .ok (.single first)
      | some step => .ok (.step first (.number spec.max) step false)
  | [fromRaw, toRaw] =>
    match readFieldValue fromRaw spec with
    | none => .error (notValid raw spec)
    | some first =>
      match readFieldValue toRaw spec with
      | none => .error (notValid raw spec)
      | some last =>
        if last.lt first then
          .error (quoted raw ++ " runs backwards; write it as two items (e.g. \"5-6,0\") instead")
        else
          match step with
          | none => .ok (.range first last)
          | some step => .ok (.step first last step false)
  | _ => .error (notValid raw spec)

def parseFieldBody (raw body : Text) (spec : FieldSpec) (step : Option ℕ) :
    Except String FieldItem :=
  if trim body = ['*'] then .ok (wholeFieldItem spec step)
  else parseAnchoredItem raw body spec step

def parseFieldItem (raw : Text) (spec : FieldSpec) : Except String FieldItem :=
  match raw.splitOn '/' with
  | [body] => parseFieldBody raw body spec none
  | [body, stepRaw] => do
    let step ← parseStepSuffix raw stepRaw spec
    parseFieldBody raw body spec (some step)
  | _ => .error (notValid raw spec)

def parseField (raw : Text) (spec : FieldSpec) : Except String (List FieldItem) :=
  (raw.splitOn ',').mapM (parseFieldItem · spec)

/-- True when the field constrains anything at all. -/
def isRestricted (items : List FieldItem) : Bool := !items.any (· == .all)

/-! ## Rendering -/

def renderNumericItem : FieldItem → Text
  | .single value => value.text
  | .range first last => first.text ++ '.' :: '.' :: last.text
  | .step first last step wholeField =>
    if wholeField then first.text ++ '/' :: Nat.toDigits 10 step
    else first.text ++ '.' :: '.' :: last.text ++ '/' :: Nat.toDigits 10 step
  | .all => ['*']

/-- Render a numeric field (minute, hour, day, month) in systemd syntax. -/
def renderNumericField (items : List FieldItem) : Text :=
  if isRestricted items = false then ['*'] else [','].intercalate (items.map renderNumericItem)

def weekdayNames : List String := ["Sun", "Mon", "Tue", "Wed", "Thu", "Fri", "Sat"]

/-- `WEEKDAY_NAMES[value === 7 ? 0 : value]`; `none` is `undefined`. -/
def nameOf : FieldValue → Option String
  | .number n => weekdayNames[if n = 7 then 0 else n]?
  | .inherited _ => none

/-- The loop over a range of weekdays. Numbers of the field reach their end in eight rounds, and so
does every pair of inherited values but `__proto__-constructor`, on which the source does not
return. -/
def rangeNames (last : FieldValue) : ℕ → FieldValue → List (Option String)
  | 0, _ => []
  | fuel + 1, value =>
    if value.le last then nameOf value :: rangeNames last fuel value.succ else []

def itemNames : FieldItem → Except String (List (Option String))
  | .step _ _ _ _ => .error ("a step in the day-of-week field has no systemd equivalent; " ++
      "list the days instead (e.g. \"mon,wed,fri\")")
  | .single value => .ok [nameOf value]
  | .range first last => .ok (rangeNames last 8 first)
  | .all => .ok []

/-- `WEEKDAY_NAMES.indexOf(name)`; `undefined` is sorted to the end. -/
def weekdayRank (name : Option String) : ℕ :=
  match name with
  | some n => weekdayNames.idxOf n
  | none => weekdayNames.length

/-- Render the weekday field as systemd names, in week order and without repetition. -/
def renderWeekdayField (items : List FieldItem) : Except String Text :=
  if isRestricted items = false then .ok []
  else do
    let names ← items.mapM itemNames
    let unique := names.flatten.dedup.insertionSort fun a b => weekdayRank a ≤ weekdayRank b
    return [','].intercalate (unique.map fun name => (name.getD "").toList)

/-! ## Schedules -/

def expandCronAlias (trimmed : Text) : Except String Text :=
  let lowered := toLowerCase trimmed
  match cronAliases.lookup (String.ofList lowered) with
  | some expansion => .ok expansion.toList
  | none =>
    if lowered = "@reboot".toList then
      .error ("`@reboot` is not a schedule a timer can express. Use a real time, or run the work " ++
        "from the service itself on start.")
    else
      .error ("unknown shorthand " ++ quoted trimmed ++ " — supported: " ++
        ", ".intercalate (cronAliases.map Prod.fst))

structure CronFields where
  minute : List FieldItem
  hour : List FieldItem
  dom : List FieldItem
  month : List FieldItem
  dow : List FieldItem

/-- All five fields, or the first one that did not parse. -/
def parseCronFields (trimmed : Text) : Except String CronFields :=
  match splitSpaces trimmed with
  | [minuteRaw, hourRaw, domRaw, monthRaw, dowRaw] => do
    let minute ← parseField minuteRaw minuteSpec
    let hour ← parseField hourRaw hourSpec
    let dom ← parseField domRaw dayOfMonthSpec
    let month ← parseField monthRaw monthSpec
    let dow ← parseField dowRaw dayOfWeekSpec
    return { minute, hour, dom, month, dow }
  | fields =>
    .error ("expected 5 fields (minute hour day-of-month month day-of-week), got " ++
      String.ofList (Nat.toDigits 10 fields.length))

/-- The checks that both entry points make first. -/
def checkSchedule (trimmed : Text) : Except String Unit :=
  if trimmed.isEmpty then .error "a schedule is required"
  else if 200 < utf16Length trimmed then .error "that schedule is too long to be one"
  else .ok ()

/-- Validate a stored scheduled-task cron expression. -/
def parseCronSchedule (input : Text) : Except String Text := do
  let trimmed := trim input
  checkSchedule trimmed
  if trimmed.head? = some '@' then
    let _ ← expandCronAlias trimmed
    return trimmed
  else
    let _ ← parseCronFields trimmed
    return trimmed

def bothDaysRestricted : String :=
  "cron runs a job when the day-of-month **or** the day-of-week matches; a systemd timer needs " ++
    "both to match. Restrict one field and leave the other as \"*\", or split this into two jobs."

/-- The trailing zone of a calendar value. -/
def zoneText (timezone : Option Text) : Text :=
  match truthy timezone with
  | some name => ' ' :: name
  | none => []

/-- The calendar value of parsed fields. -/
def renderCronFields (fields : CronFields) (timezone : Option Text) : Except String Text :=
  if isRestricted fields.dom && isRestricted fields.dow then .error bothDaysRestricted
  else do
    let weekday ← renderWeekdayField fields.dow
    let date := '*' :: '-' :: renderNumericField fields.month ++ '-' :: renderNumericField fields.dom
    let time := renderNumericField fields.hour ++ ':' :: renderNumericField fields.minute ++
      [':', '0', '0']
    let day := if weekday.isEmpty then [] else weekday ++ [' ']
    return day ++ date ++ ' ' :: time ++ zoneText timezone

/-- The body of `cronToOnCalendar`, with the function that is called on the expansion of a
shorthand. -/
def cronStep (self : Text → Except String Text) (timezone : Option Text) (input : Text) :
    Except String Text := do
  let trimmed := trim input
  checkSchedule trimmed
  if timezone.any (fun name => !isValidTimezone name) then
    .error "that is not a timezone name systemd will accept"
  else if trimmed.head? = some '@' then
    let expansion ← expandCronAlias trimmed
    self expansion
  else
    let fields ← parseCronFields trimmed
    renderCronFields fields timezone

/-- Translate a cron expression into a systemd `OnCalendar` value. An expansion is no shorthand, so
the second call is the last one. -/
def cronToOnCalendar (input : Text) (timezone : Option Text) : Except String Text :=
  cronStep (cronStep (fun _ => .error "") timezone) timezone input

end TurboPanel.Deploy
