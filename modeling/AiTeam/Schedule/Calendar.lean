/-
The calendar search: the day-by-day loop of `calendarOccurrence` against the
instants that a rule denotes, in a zone given by an arbitrary offset function.
-/
import AiTeam.LocalTime
import AiTeam.Schedule.Definition

namespace AiTeam.Schedule

open LocalTime

/-- The milliseconds of a local day. -/
def dayLength : Int := 86400000

def digitValue (c : Char) : Int := c.toNat - '0'.toNat

/-- `Temporal.PlainTime.from`, on `HH:mm:ss`: milliseconds since midnight. -/
def plainTime (time : String) : Int :=
  match time.toList with
  | [h, h', ':', m, m', ':', s, s'] =>
      ((digitValue h * 10 + digitValue h') * 3600 +
        (digitValue m * 10 + digitValue m') * 60 +
        (digitValue s * 10 + digitValue s')) * 1000
  | _ => 0

/-- `date.toPlainDateTime(time)`. -/
def plainDateTime (date : Int) (time : String) : Int :=
  date * dayLength + plainTime time

/-- Temporal resolves the local times of the zones with these offsets as it
documents: what a local time in a gap resolves to is left open. -/
structure Temporal.Resolves (temporal : Temporal)
    (offset : String → Int → Int) : Prop where
  toPlainDate : ∀ zone instant,
    temporal.toPlainDate zone instant =
      reading (offset zone) instant / dayLength
  readsBack : ∀ zone date time,
    temporal.readsBack zone date time = true ↔
      ∃ instant, reading (offset zone) instant = plainDateTime date time
  toZonedDateTime : ∀ zone date time,
    temporal.readsBack zone date time = true →
      Earliest (offset zone) (plainDateTime date time)
        (temporal.toZonedDateTime zone date time)

/-- The rule fires on the date, at the instant its local time stands for. -/
structure CalendarRule.Denotes (rule : CalendarRule) (temporal : Temporal)
    (offset : String → Int → Int) (date instant : Int) : Prop where
  selects : rule.selects temporal date = true
  earliest : Earliest (offset rule.timezone) (plainDateTime date rule.time)
    instant

/-- The date so many days on in the direction of the search. -/
def Direction.onward (direction : Direction) (date : Int) (days : Nat) : Int :=
  date + direction.days * days

@[simp]
theorem Direction.onward_zero (direction : Direction) (date : Int) :
    direction.onward date 0 = date := by
  simp [onward]

theorem Direction.onward_succ (direction : Direction) (date : Int)
    (days : Nat) :
    direction.onward date (days + 1) =
      direction.onward (date + direction.days) days := by
  cases direction <;> simp only [onward, Direction.days] <;> omega

/-- The comparison of the loop body: strictly later, or not later. -/
def Direction.admits (direction : Direction) (timestamp candidate : Int) :
    Bool :=
  match direction with
  | .forward => timestamp < candidate
  | .backward => candidate ≤ timestamp

/-- The 370 local days that begin with the date of the timestamp and run in the
direction of the search. -/
def InWindow (temporal : Temporal) (rule : CalendarRule) (timestamp : Int)
    (direction : Direction) (date : Int) : Prop :=
  ∃ days, days < 370 ∧ date =
    direction.onward (temporal.toPlainDate rule.timezone timestamp) days

/-- The instants of the window that lie in the direction of the search. -/
def candidates (temporal : Temporal) (offset : String → Int → Int)
    (rule : CalendarRule) (timestamp : Int) (direction : Direction) : Set Int :=
  {instant | (∃ date, InWindow temporal rule timestamp direction date ∧
      rule.Denotes temporal offset date instant) ∧
    direction.admits timestamp instant = true}

/-- The nearest of the instants in a direction, nothing if there are none. -/
def Direction.IsNearest (direction : Direction) (instants : Set Int) :
    Option Int → Prop
  | none => instants = ∅
  | some instant =>
      match direction with
      | .forward => IsLeast instants instant
      | .backward => IsGreatest instants instant

/-- The test of the loop body on one date. -/
def hits (temporal : Temporal) (rule : CalendarRule) (timestamp : Int)
    (direction : Direction) (date : Int) : Bool :=
  rule.selects temporal date &&
    temporal.readsBack rule.timezone date rule.time &&
    direction.admits timestamp
      (temporal.toZonedDateTime rule.timezone date rule.time)

variable {date instant : Int}

section search

variable {temporal : Temporal} {rule : CalendarRule} {timestamp : Int}
  {direction : Direction}

theorem searchOccurrence_succ (days : Nat) (date : Int) :
    searchOccurrence temporal rule timestamp direction (days + 1) date =
      if hits temporal rule timestamp direction date then
        some (temporal.toZonedDateTime rule.timezone date rule.time)
      else searchOccurrence temporal rule timestamp direction days
        (date + direction.days) := by
  cases direction <;> rfl

/-- The search answers with the first date that hits. -/
theorem searchOccurrence_some {days : Nat}
    (h : searchOccurrence temporal rule timestamp direction days date =
      some instant) :
    ∃ n, n < days ∧
      hits temporal rule timestamp direction (direction.onward date n) = true ∧
      temporal.toZonedDateTime rule.timezone (direction.onward date n)
        rule.time = instant ∧
      ∀ m, m < n → hits temporal rule timestamp direction
        (direction.onward date m) = false := by
  induction days generalizing date with
  | zero => simp [searchOccurrence] at h
  | succ days ih =>
      rw [searchOccurrence_succ] at h
      by_cases hhit : hits temporal rule timestamp direction date = true
      · rw [if_pos hhit] at h
        refine ⟨0, Nat.succ_pos days, ?_, ?_, fun m hm => absurd hm (by omega)⟩
        · simpa using hhit
        · simpa using h
      · rw [if_neg hhit] at h
        obtain ⟨n, hn, hfound, hinstant, hbefore⟩ := ih h
        refine ⟨n + 1, by omega, ?_, ?_, ?_⟩
        · rwa [Direction.onward_succ]
        · rwa [Direction.onward_succ]
        · intro m hm
          cases m with
          | zero => simpa using hhit
          | succ m =>
              rw [Direction.onward_succ]
              exact hbefore m (by omega)

theorem searchOccurrence_none {days : Nat}
    (h : searchOccurrence temporal rule timestamp direction days date = none)
    {n : Nat} (hn : n < days) :
    hits temporal rule timestamp direction (direction.onward date n) =
      false := by
  induction days generalizing date n with
  | zero => exact absurd hn (Nat.not_lt_zero n)
  | succ days ih =>
      rw [searchOccurrence_succ] at h
      by_cases hhit : hits temporal rule timestamp direction date = true
      · simp [hhit] at h
      · rw [if_neg hhit] at h
        cases n with
        | zero => simpa using hhit
        | succ n =>
            rw [Direction.onward_succ]
            exact ih h (by omega)

end search

section resolves

variable {temporal : Temporal} {offset : String → Int → Int}
  {rule : CalendarRule} {timestamp : Int} {direction : Direction}

/-- A date denotes at most one instant, the one Temporal resolves it to. -/
theorem CalendarRule.Denotes.eq_resolved (hresolves : temporal.Resolves offset)
    (h : rule.Denotes temporal offset date instant) :
    temporal.readsBack rule.timezone date rule.time = true ∧
      temporal.toZonedDateTime rule.timezone date rule.time = instant := by
  have hreads : temporal.readsBack rule.timezone date rule.time = true :=
    (hresolves.readsBack _ _ _).mpr ⟨instant, h.earliest.1⟩
  exact ⟨hreads,
    (hresolves.toZonedDateTime _ _ _ hreads).unique h.earliest⟩

theorem hits_denotes (hresolves : temporal.Resolves offset)
    (h : hits temporal rule timestamp direction date = true) :
    rule.Denotes temporal offset date
      (temporal.toZonedDateTime rule.timezone date rule.time) := by
  simp only [hits, Bool.and_eq_true] at h
  exact ⟨h.1.1, hresolves.toZonedDateTime _ _ _ h.1.2⟩

theorem hits_of_denotes (hresolves : temporal.Resolves offset)
    (h : rule.Denotes temporal offset date instant)
    (hadmits : direction.admits timestamp instant = true) :
    hits temporal rule timestamp direction date = true := by
  obtain ⟨hreads, hinstant⟩ := h.eq_resolved hresolves
  simp [hits, h.selects, hreads, hinstant, hadmits]

/-- Instants come in the order of their dates. -/
theorem CalendarRule.Denotes.lt
    (hspan : SetBackLess (offset rule.timezone) dayLength)
    {date' instant' : Int} (h : rule.Denotes temporal offset date instant)
    (h' : rule.Denotes temporal offset date' instant') (hdate : date < date') :
    instant < instant' := by
  apply h.earliest.lt hspan h'.earliest
  simp only [plainDateTime, dayLength]
  omega

theorem CalendarRule.Denotes.le
    (hspan : SetBackLess (offset rule.timezone) dayLength)
    {date' instant' : Int} (h : rule.Denotes temporal offset date instant)
    (h' : rule.Denotes temporal offset date' instant') (hdate : date ≤ date') :
    instant ≤ instant' := by
  rcases hdate.eq_or_lt with rfl | hlt
  · exact (h.earliest.unique h'.earliest).le
  · exact (h.lt hspan h' hlt).le

/-- In a zone whose clock is never set back by a whole day the search finds the
nearest instant of its window. -/
theorem calendarOccurrence_nearest (hresolves : temporal.Resolves offset)
    (hspan : SetBackLess (offset rule.timezone) dayLength) :
    direction.IsNearest
      (candidates temporal offset rule timestamp direction)
      (calendarOccurrence temporal rule timestamp direction) := by
  cases h : calendarOccurrence temporal rule timestamp direction with
  | none =>
      apply Set.eq_empty_of_forall_notMem
      rintro instant ⟨⟨date, ⟨n, hn, rfl⟩, hdenotes⟩, hadmits⟩
      have hmiss := searchOccurrence_none h hn
      rw [hits_of_denotes hresolves hdenotes hadmits] at hmiss
      exact Bool.noConfusion hmiss
  | some instant =>
      obtain ⟨n, hn, hhit, rfl, hbefore⟩ := searchOccurrence_some h
      have hfound := hits_denotes hresolves hhit
      have hadmits : direction.admits timestamp _ = true :=
        (Bool.and_eq_true _ _ ▸ hhit : _ ∧ _).2
      have hmem : _ ∈ candidates temporal offset rule timestamp direction :=
        ⟨⟨_, ⟨n, hn, rfl⟩, hfound⟩, hadmits⟩
      -- no candidate stems from a date met before the hit
      have hlater : ∀ other ∈
          candidates temporal offset rule timestamp direction,
          ∃ m, n ≤ m ∧ rule.Denotes temporal offset
            (direction.onward
              (temporal.toPlainDate rule.timezone timestamp) m) other := by
        rintro other ⟨⟨date, ⟨m, hm, rfl⟩, hdenotes⟩, hother⟩
        refine ⟨m, ?_, hdenotes⟩
        by_contra hlt
        have hmiss := hbefore m (by omega)
        rw [hits_of_denotes hresolves hdenotes hother] at hmiss
        exact Bool.noConfusion hmiss
      cases direction with
      | forward =>
          refine ⟨hmem, fun other hother => ?_⟩
          obtain ⟨m, hm, hdenotes⟩ := hlater other hother
          apply hfound.le hspan hdenotes
          simp only [Direction.onward, Direction.days]
          omega
      | backward =>
          refine ⟨hmem, fun other hother => ?_⟩
          obtain ⟨m, hm, hdenotes⟩ := hlater other hother
          apply hdenotes.le hspan hfound
          simp only [Direction.onward, Direction.days]
          omega

end resolves

/-- The day of the month of a day number, in the Gregorian calendar counted in
years that begin in March. -/
def dayOfMonth (date : Int) : Nat :=
  let dayOfEra := (date + 719468) % 146097
  let yearOfEra := (dayOfEra - dayOfEra / 1460 + dayOfEra / 36524 -
    dayOfEra / 146096) / 365
  let dayOfYear := dayOfEra - (365 * yearOfEra + yearOfEra / 4 - yearOfEra / 100)
  let month := (5 * dayOfYear + 2) / 153
  (dayOfYear - (153 * month + 2) / 5 + 1).toNat

/-- Temporal over zones that each use finitely many offsets. -/
def Temporal.ofOffsets (offsets : String → List Int)
    (offset : String → Int → Int) : Temporal where
  knownZone zone := !(offsets zone).isEmpty
  toPlainDate zone instant := reading (offset zone) instant / dayLength
  dayOfWeek date := ((date + 3) % 7 + 1).toNat
  day := dayOfMonth
  -- nothing reads the instant of a local time in a gap
  toZonedDateTime zone date time :=
    (earliest (offsets zone) (offset zone) (plainDateTime date time)).getD 0
  readsBack zone date time :=
    (earliest (offsets zone) (offset zone) (plainDateTime date time)).isSome

theorem Temporal.ofOffsets_resolves {offsets : String → List Int}
    {offset : String → Int → Int}
    (hoffsets : ∀ zone instant, offset zone instant ∈ offsets zone) :
    (Temporal.ofOffsets offsets offset).Resolves offset where
  toPlainDate _ _ := rfl
  readsBack zone _ _ := earliest_isSome_iff (hoffsets zone)
  toZonedDateTime zone date time hreads := by
    obtain ⟨instant, hinstant⟩ := Option.isSome_iff_exists.mp hreads
    have hearliest := (earliest_eq_some_iff (hoffsets zone)).mp hinstant
    simpa [ofOffsets, hinstant] using hearliest

namespace CalendarWitness

/-- A daily rule. -/
def daily (timezone time : String) : CalendarRule :=
  ⟨.daily, timezone, time, none, none, false⟩

/-- New York in 2026: daylight saving time from March 8 to November 1. -/
def newYorkOffset (_ : String) (instant : Int) : Int :=
  if 1772953200000 ≤ instant ∧ instant < 1793512800000 then -14400000
  else -18000000

def newYork : Temporal :=
  Temporal.ofOffsets (fun _ => [-14400000, -18000000]) newYorkOffset

theorem newYork_resolves : newYork.Resolves newYorkOffset := by
  apply Temporal.ofOffsets_resolves
  intro zone instant
  simp only [newYorkOffset]
  split <;> simp

/-- A clock set thirteen hours ahead of the common time for two hours, and
thirteen hours behind it before and after: set back by twenty-six hours, it
shows the afternoon of the skipped day only after that of the next one. -/
def seamOffset (_ : String) (instant : Int) : Int :=
  if 0 ≤ instant ∧ instant < 7200000 then 46800000 else -46800000

def seam : Temporal :=
  Temporal.ofOffsets (fun _ => [46800000, -46800000]) seamOffset

theorem seam_resolves : seam.Resolves seamOffset := by
  apply Temporal.ofOffsets_resolves
  intro zone instant
  simp only [seamOffset]
  split <;> simp

end CalendarWitness

open CalendarWitness in
/-- Over the gap of March 8 the daily 02:30 in New York comes next on March 9. -/
theorem calendarOccurrence_nearest_new_york :
    IsLeast (candidates newYork newYorkOffset
      (daily "America/New_York" "02:30:00") 1772928000000 .forward)
      1773037800000 := by
  have hspan : SetBackLess (newYorkOffset "America/New_York") dayLength := by
    intro i j hij
    simp only [reading, newYorkOffset, dayLength]
    split <;> split <;> omega
  have hnearest : Direction.forward.IsNearest
      (candidates newYork newYorkOffset
        (daily "America/New_York" "02:30:00") 1772928000000 .forward)
      (calendarOccurrence newYork (daily "America/New_York" "02:30:00")
        1772928000000 .forward) :=
    calendarOccurrence_nearest newYork_resolves hspan
  have hfound : calendarOccurrence newYork
      (daily "America/New_York" "02:30:00") 1772928000000 .forward =
        some 1773037800000 := by decide
  rw [hfound] at hnearest
  exact hnearest

open CalendarWitness in
/-- In a zone set back by more than a day the first date found is not the one
of the nearest instant. -/
theorem set_back_misorders :
    seam.Resolves seamOffset ∧
      ¬ Direction.forward.IsNearest
        (candidates seam seamOffset (daily "Seam" "14:00:00") (-1) .forward)
        (calendarOccurrence seam (daily "Seam" "14:00:00") (-1) .forward) := by
  refine ⟨seam_resolves, fun hnearest => ?_⟩
  have hfound : calendarOccurrence seam (daily "Seam" "14:00:00") (-1)
      .forward = some 10800000 := by decide
  rw [hfound] at hnearest
  have hreads : Earliest (seamOffset "Seam")
      (plainDateTime 0 "14:00:00") 3600000 := by
    constructor
    · decide
    · intro i hi
      have hlocal : plainDateTime 0 "14:00:00" = 50400000 := by decide
      have hread : reading (seamOffset "Seam") i = 50400000 := hi.trans hlocal
      simp only [reading, seamOffset] at hread
      split at hread <;> omega
  have hmem : (3600000 : Int) ∈ candidates seam seamOffset
      (daily "Seam" "14:00:00") (-1) .forward :=
    ⟨⟨0, ⟨1, by decide, by decide⟩, ⟨rfl, hreads⟩⟩, by decide⟩
  have hle : (10800000 : Int) ≤ 3600000 := hnearest.2 hmem
  omega

end AiTeam.Schedule
