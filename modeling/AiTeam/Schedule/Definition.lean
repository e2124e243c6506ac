/-
Conversation schedules: the stored JSON object, its validation, and which
occurrence is due between two scheduler ticks.  The Temporal library is a
parameter; instants are epoch milliseconds.
-/
import AiTeam.Scope

namespace AiTeam.Schedule

inductive CalendarMode where
  | daily | weekly | monthly
deriving DecidableEq

structure CalendarRule where
  mode : CalendarMode
  timezone : String
  time : String
  weekday : Option Nat
  dayOfMonth : Option Nat
  skipsInvalidDates : Bool
deriving DecidableEq

/-- What the code uses of Temporal and Intl.  A plain date is its day number. -/
structure Temporal where
  knownZone : String → Bool
  toPlainDate : String → Int → Int
  dayOfWeek : Int → Nat
  day : Int → Nat
  /-- The instant of a local date and time, the earlier one in a fold. -/
  toZonedDateTime : String → Int → String → Int
  /-- That instant reads back as the same local time: false in a gap. -/
  readsBack : String → Int → String → Bool

def isDigit (c : Char) : Bool := '0' ≤ c && c ≤ '9'

/-- `/^([01]\d|2[0-3]):[0-5]\d:[0-5]\d$/`. -/
def validTime (time : String) : Bool :=
  match time.toList with
  | [h, h', ':', m, m', ':', s, s'] =>
      (((h == '0' || h == '1') && isDigit h') ||
        (h == '2' && '0' ≤ h' && h' ≤ '3')) &&
      '0' ≤ m && m ≤ '5' && isDigit m' && '0' ≤ s && s ≤ '5' && isDigit s'
  | _ => false

/-- `validateCalendar` on a rule with the fields of the three modes. -/
def validateCalendar (temporal : Temporal) (rule : CalendarRule) :
    Except String CalendarRule :=
  if (rule.mode != .weekly && rule.weekday.isSome) ||
      (rule.mode != .monthly &&
        (rule.dayOfMonth.isSome || rule.skipsInvalidDates)) then
    .error "Unsupported calendar fields"
  else if rule.timezone.startsWith "+" || rule.timezone.startsWith "-" ||
      !temporal.knownZone rule.timezone then
    .error "IANA timezone required"
  else if !validTime rule.time then .error "time must be HH:mm:ss"
  else if rule.mode == .weekly &&
      !rule.weekday.any (fun d => 1 ≤ d && d ≤ 7) then
    .error "weekday must be 1–7"
  else if rule.mode == .monthly &&
      (!rule.dayOfMonth.any (fun d => 1 ≤ d && d ≤ 31) ||
        !rule.skipsInvalidDates) then
    .error "monthly requires day_of_month 1–31 and invalid_date_policy skip"
  else .ok rule

inductive Direction where
  | forward | backward
deriving DecidableEq

def Direction.days : Direction → Int
  | .forward => 1
  | .backward => -1

/-- The date is one the rule fires on. -/
def CalendarRule.selects (temporal : Temporal) (rule : CalendarRule)
    (date : Int) : Bool :=
  match rule.mode with
  | .daily => true
  | .weekly => rule.weekday == some (temporal.dayOfWeek date)
  | .monthly => rule.dayOfMonth == some (temporal.day date)

/-- The loop of `calendarOccurrence`, for the given number of days. -/
def searchOccurrence (temporal : Temporal) (rule : CalendarRule)
    (timestamp : Int) (direction : Direction) : Nat → Int → Option Int
  | 0, _ => none
  | days + 1, date =>
      let candidate := temporal.toZonedDateTime rule.timezone date rule.time
      if rule.selects temporal date &&
          temporal.readsBack rule.timezone date rule.time &&
          (match direction with
            | .forward => timestamp < candidate
            | .backward => candidate ≤ timestamp) then some candidate
      else searchOccurrence temporal rule timestamp direction days
        (date + direction.days)

/-- `calendarOccurrence`: the search is bounded to 370 days. -/
def calendarOccurrence (temporal : Temporal) (rule : CalendarRule)
    (timestamp : Int) (direction : Direction) : Option Int :=
  searchOccurrence temporal rule timestamp direction 370
    (temporal.toPlainDate rule.timezone timestamp)

/-- The stored `schedule_json` object.  A present field has its documented
JSON type and `atInstant` is the parsed `at`; `unsupported` is the first key that
is not one of the supported ones. -/
structure ScheduleJson where
  scheduleId : Option String
  revision : Option Int
  enabled : Option Bool
  atInstant : Option Int
  intervalSeconds : Option Int
  oneShot : Option Bool
  calendar : Option CalendarRule
  promptTemplate : Option String
  unsupported : Option String
deriving DecidableEq

/-- The `{}` that `COALESCE(schedule_json, '{}')` starts from. -/
def ScheduleJson.empty : ScheduleJson :=
  ⟨none, none, none, none, none, none, none, none, none⟩

structure ConversationSchedule where
  scheduleId : String
  revision : Int
  enabled : Bool
  atInstant : Option Int
  intervalSeconds : Option Int
  oneShot : Bool
  calendar : Option CalendarRule
  promptTemplate : String
deriving DecidableEq

/-- `/^[A-Za-z0-9._:-]{1,128}$/`. -/
def safeScheduleId (id : String) : Bool :=
  id.toList.all (fun c => ('A' ≤ c && c ≤ 'Z') || ('a' ≤ c && c ≤ 'z') ||
    isDigit c || c == '.' || c == '_' || c == ':' || c == '-') &&
  1 ≤ id.length && id.length ≤ 128

/-- The characters `String.prototype.trim` removes. -/
def isTrimmed (c : Char) : Bool :=
  [0x9, 0xA, 0xB, 0xC, 0xD, 0x20, 0xA0, 0x1680, 0x2028, 0x2029, 0x202F,
    0x205F, 0x3000, 0xFEFF].contains c.toNat ||
  (0x2000 ≤ c.toNat && c.toNat ≤ 0x200A)

/-- `if (condition) throw new Error(message)`. -/
def reject (condition : Bool) (message : String) : Except String Unit :=
  if condition then .error message else .ok ()

/-- The value of a required field. -/
def require (value : Option String) (message : String) :
    Except String String :=
  match value with
  | some value => .ok value
  | none => .error message

def validateSchedule (temporal : Temporal) (raw : ScheduleJson) :
    Except String ConversationSchedule := do
  reject raw.unsupported.isSome
    ("schedule field is not supported: " ++ raw.unsupported.getD "")
  let scheduleId ← require (raw.scheduleId.filter safeScheduleId)
    "schedule_id must be a safe non-empty string"
  let revision := raw.revision.getD 1
  reject (revision < 1) "revision must be a positive integer"
  let oneShot := raw.oneShot.getD false
  let calendar ← raw.calendar.mapM (validateCalendar temporal)
  reject (calendar.isSome &&
      (raw.atInstant.isSome || raw.intervalSeconds.isSome || oneShot))
    "calendar cannot be combined with at, interval or one_shot"
  reject (raw.intervalSeconds.any (· < 1))
    "interval_seconds must be a positive integer"
  reject (oneShot && raw.atInstant.isNone) "one_shot schedules require at"
  reject (calendar.isNone && raw.atInstant.isNone &&
      raw.intervalSeconds.isNone)
    "schedule requires at or interval_seconds"
  reject (raw.atInstant.isSome && raw.intervalSeconds.isNone && !oneShot)
    "repeating schedules require interval_seconds"
  reject (raw.atInstant.isSome && raw.intervalSeconds.isSome && oneShot)
    "one_shot cannot be combined with interval_seconds"
  let promptTemplate ← require
    (raw.promptTemplate.filter fun text =>
      !text.toList.all isTrimmed && utf16Length text ≤ 200000)
    "prompt_template must be a non-empty string <= 200000 characters"
  return {
    scheduleId, revision, enabled := raw.enabled.getD true,
    atInstant := raw.atInstant, intervalSeconds := raw.intervalSeconds,
    oneShot, calendar, promptTemplate }

theorem bind_ok {α β : Type} {value : Except String α}
    {next : α → Except String β} {result : β}
    (h : (value >>= next) = .ok result) :
    ∃ found, value = .ok found ∧ next found = .ok result := by
  cases value with
  | error message => exact nomatch h
  | ok found => exact ⟨found, rfl, h⟩

/-- A schedule without an enabled flag counts as enabled. -/
theorem validateSchedule_enabled {temporal : Temporal} {raw : ScheduleJson}
    {schedule : ConversationSchedule}
    (h : validateSchedule temporal raw = .ok schedule) :
    schedule.enabled = raw.enabled.getD true := by
  unfold validateSchedule at h
  -- one result for each of the eleven checks
  iterate 11 obtain ⟨_, _, h⟩ := bind_ok h
  rw [← Except.ok.inj h]

/-- `occurrenceBetween`: the occurrence due in `(previous, now]`. -/
def occurrenceBetween (temporal : Temporal) (schedule : ConversationSchedule)
    (previous now : Int) : Option Int :=
  match schedule.calendar with
  | some rule =>
      (calendarOccurrence temporal rule now .backward).filter (previous < ·)
  | none =>
      let anchor := schedule.atInstant.getD 0
      if schedule.oneShot then
        if previous < anchor && anchor ≤ now then some anchor else none
      else
        let interval := schedule.intervalSeconds.getD 0 * 1000
        if interval == 0 then none
        else
          let index := (now - anchor).fdiv interval
          if index < 0 then none
          else
            let occurrence := anchor + index * interval
            if previous < occurrence && occurrence ≤ now then some occurrence
            else none

end AiTeam.Schedule
