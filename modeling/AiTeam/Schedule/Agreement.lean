/-
The forward and the backward search of a calendar rule agree, and with them the
two answers of every kind of schedule.
-/
import AiTeam.Schedule.Next

namespace AiTeam.Schedule

open LocalTime Succession

theorem digitValue_bounds {c : Char} (h : isDigit c = true) :
    0 ≤ digitValue c ∧ digitValue c ≤ 9 := by
  simp only [isDigit, Bool.and_eq_true, decide_eq_true_eq] at h
  have hlow : '0'.toNat ≤ c.toNat := h.1
  have hhigh : c.toNat ≤ '9'.toNat := h.2
  have hzero : '0'.toNat = 48 := rfl
  have hnine : '9'.toNat = 57 := rfl
  simp only [digitValue]
  omega

/-- The first digit of a minute or a second. -/
theorem digitValue_le_five {c : Char} (hlow : '0' ≤ c) (hhigh : c ≤ '5') :
    0 ≤ digitValue c ∧ digitValue c ≤ 5 := by
  have hlow' : '0'.toNat ≤ c.toNat := hlow
  have hhigh' : c.toNat ≤ '5'.toNat := hhigh
  have hzero : '0'.toNat = 48 := rfl
  have hfive : '5'.toNat = 53 := rfl
  simp only [digitValue]
  omega

/-- A valid time of day lies within its day. -/
theorem plainTime_bounds {time : String} (h : validTime time = true) :
    0 ≤ plainTime time ∧ plainTime time < dayLength := by
  simp only [validTime] at h
  split at h
  next h₁ h₂ m₁ m₂ s₁ s₂ hlist =>
    simp only [plainTime, hlist, dayLength]
    simp only [Bool.and_eq_true, Bool.or_eq_true, beq_iff_eq,
      decide_eq_true_eq] at h
    obtain ⟨⟨⟨⟨⟨⟨hhour, hm₁⟩, hm₁'⟩, hm₂⟩, hs₁⟩, hs₁'⟩, hs₂⟩ := h
    have hminute := digitValue_le_five hm₁ hm₁'
    have hminute' := digitValue_bounds hm₂
    have hsecond := digitValue_le_five hs₁ hs₁'
    have hsecond' := digitValue_bounds hs₂
    rcases hhour with ⟨rfl | rfl, hdigit⟩ | ⟨⟨rfl, hlow⟩, hhigh⟩
    · have hdigit' := digitValue_bounds hdigit
      have hzero : digitValue '0' = 0 := rfl
      omega
    · have hdigit' := digitValue_bounds hdigit
      have hone : digitValue '1' = 1 := rfl
      omega
    · have hlow' : '0'.toNat ≤ h₂.toNat := hlow
      have hhigh' : h₂.toNat ≤ '3'.toNat := hhigh
      have hzero : '0'.toNat = 48 := rfl
      have hthree : '3'.toNat = 51 := rfl
      have htwo : digitValue '2' = 2 := rfl
      have hhour : digitValue h₂ = h₂.toNat - 48 := rfl
      omega
  next => exact Bool.noConfusion h

/-- The instants that a rule denotes on any date. -/
def CalendarRule.instants (rule : CalendarRule) (temporal : Temporal)
    (offset : String → Int → Int) : Set Int :=
  {instant | ∃ date, rule.Denotes temporal offset date instant}

/-- What the agreement asks of a calendar rule: a clock that is never set back
by a whole day, a rule that fires in every year, and at both ends of the
interval a clock that shows no date on the wrong side of an occurrence. -/
structure Regular (temporal : Temporal) (offset : String → Int → Int)
    (rule : CalendarRule) (previous now : Int) : Prop where
  resolves : temporal.Resolves offset
  setBackLess : SetBackLess (offset rule.timezone) dayLength
  yearly : ∀ date, ∃ later instant, date ≤ later ∧ later < date + 366 ∧
    rule.Denotes temporal offset later instant
  notAhead : ∀ date instant, rule.Denotes temporal offset date instant →
    previous < instant → instant ≤ now →
      date ≤ temporal.toPlainDate rule.timezone now
  notBehind : ∀ date instant, rule.Denotes temporal offset date instant →
    previous < instant → instant ≤ now →
      temporal.toPlainDate rule.timezone previous ≤ date

variable {date instant : Int}

section calendar

variable {temporal : Temporal} {offset : String → Int → Int}
  {rule : CalendarRule} {previous now : Int}

theorem toPlainDate_le (hresolves : temporal.Resolves offset)
    (zone : String) (instant : Int) :
    temporal.toPlainDate zone instant * dayLength ≤
        reading (offset zone) instant ∧
      reading (offset zone) instant <
        (temporal.toPlainDate zone instant + 1) * dayLength := by
  rw [hresolves.toPlainDate]
  constructor
  · exact Int.ediv_mul_le _ (by decide)
  · exact Int.lt_ediv_add_one_mul_self _ (by decide)

/-- The clock shows the date of an occurrence at its instant. -/
theorem CalendarRule.Denotes.toPlainDate (hresolves : temporal.Resolves offset)
    (htime : validTime rule.time = true)
    (h : rule.Denotes temporal offset date instant) :
    temporal.toPlainDate rule.timezone instant = date := by
  have hdate := toPlainDate_le hresolves rule.timezone instant
  have htime' := plainTime_bounds htime
  have hread : reading (offset rule.timezone) instant =
      plainDateTime date rule.time := h.earliest.1
  rw [hread] at hdate
  simp only [plainDateTime, dayLength] at hdate htime'
  omega

/-- Two dates past what the clock shows, the instant is still to come. -/
theorem CalendarRule.Denotes.gt_of_date
    (hregular :
      Regular temporal offset rule previous now)
    (htime : validTime rule.time = true) {moment : Int}
    (h : rule.Denotes temporal offset date instant)
    (hdate : temporal.toPlainDate rule.timezone moment + 2 ≤ date) :
    moment < instant := by
  apply h.earliest.gt_of_reading hregular.setBackLess
  have hmoment := toPlainDate_le hregular.resolves rule.timezone moment
  have htime' := plainTime_bounds htime
  simp only [plainDateTime, dayLength] at hmoment htime' ⊢
  omega

/-- Two dates before what the clock shows, the instant has passed. -/
theorem CalendarRule.Denotes.lt_of_date
    (hregular :
      Regular temporal offset rule previous now)
    (htime : validTime rule.time = true) {moment : Int}
    (h : rule.Denotes temporal offset date instant)
    (hdate : date + 2 ≤ temporal.toPlainDate rule.timezone moment) :
    instant < moment := by
  apply h.earliest.lt_of_reading hregular.setBackLess
  have hmoment := toPlainDate_le hregular.resolves rule.timezone moment
  have htime' := plainTime_bounds htime
  simp only [plainDateTime, dayLength] at hmoment htime' ⊢
  omega

theorem inWindow_forward :
    InWindow temporal rule instant .forward date ↔
      temporal.toPlainDate rule.timezone instant ≤ date ∧
        date < temporal.toPlainDate rule.timezone instant + 370 := by
  simp only [InWindow, Direction.onward, Direction.days]
  constructor
  · rintro ⟨days, hdays, rfl⟩
    omega
  · rintro ⟨hlow, hhigh⟩
    exact ⟨(date - temporal.toPlainDate rule.timezone instant).toNat,
      by omega, by omega⟩

theorem inWindow_backward :
    InWindow temporal rule instant .backward date ↔
      temporal.toPlainDate rule.timezone instant < date + 370 ∧
        date ≤ temporal.toPlainDate rule.timezone instant := by
  simp only [InWindow, Direction.onward, Direction.days]
  constructor
  · rintro ⟨days, hdays, rfl⟩
    omega
  · rintro ⟨hlow, hhigh⟩
    exact ⟨(temporal.toPlainDate rule.timezone instant - date).toNat,
      by omega, by omega⟩

theorem CalendarRule.Denotes.date_le
    (hspan : SetBackLess (offset rule.timezone) dayLength)
    {date' instant' : Int} (h : rule.Denotes temporal offset date instant)
    (h' : rule.Denotes temporal offset date' instant')
    (hle : instant ≤ instant') : date ≤ date' := by
  by_contra hlt
  exact absurd (h'.lt hspan h (not_le.mp hlt)) (not_lt.mpr hle)

section

variable (hregular : Regular temporal offset rule previous now)
include hregular

/-- Neither the start nor an occurrence shows a date past an occurrence that is
still to come. -/
theorem Regular.date_le (htime : validTime rule.time = true) {a : Int}
    (ha : a = previous ∨ a ∈ After (rule.instants temporal offset) previous)
    (h : rule.Denotes temporal offset date instant) (hlt : a < instant)
    (hle : instant ≤ now) : temporal.toPlainDate rule.timezone a ≤ date := by
  rcases ha with rfl | ⟨⟨dateOf, hdenotes⟩, -⟩
  · exact hregular.notBehind date instant h hlt hle
  · rw [hdenotes.toPlainDate hregular.resolves htime]
    exact hdenotes.date_le hregular.setBackLess h hlt.le

/-- The forward search answers with the nearest occurrence after the start or
after an occurrence. -/
theorem Regular.forward_iff (htime : validTime rule.time = true) {a : Int}
    (ha : a = previous ∨ a ∈ After (rule.instants temporal offset) previous)
    {b : Int} (hb : b ≤ now) :
    calendarOccurrence temporal rule a .forward = some b ↔
      IsLeast (After (rule.instants temporal offset) a) b := by
  have hspan := hregular.setBackLess
  have hnearest : Direction.forward.IsNearest
      (candidates temporal offset rule a .forward)
      (calendarOccurrence temporal rule a .forward) :=
    calendarOccurrence_nearest hregular.resolves hspan
  constructor
  · intro hfound
    rw [hfound] at hnearest
    obtain ⟨⟨⟨date, hwindow, hdenotes⟩, hadmits⟩, hleast⟩ := hnearest
    have hab : a < b := of_decide_eq_true hadmits
    refine ⟨⟨⟨date, hdenotes⟩, hab⟩, ?_⟩
    rintro s ⟨⟨date', hdenotes'⟩, hs⟩
    by_contra hlt
    have hsb : s < b := not_le.mp hlt
    have hlow := hregular.date_le htime ha hdenotes' hs (hsb.le.trans hb)
    have hhigh := hdenotes'.date_le hspan hdenotes hsb.le
    have hmem : s ∈ candidates temporal offset rule a .forward := by
      refine ⟨⟨date', inWindow_forward.mpr ⟨hlow, ?_⟩, hdenotes'⟩,
        decide_eq_true hs⟩
      exact hhigh.trans_lt (inWindow_forward.mp hwindow).2
    exact hlt (hleast hmem)
  · rintro ⟨⟨⟨date, hdenotes⟩, hab⟩, hleast⟩
    have hlow := hregular.date_le htime ha hdenotes hab hb
    -- the occurrence of the year that follows bounds the nearest one
    obtain ⟨later, j, hfrom, hto, hj⟩ :=
      hregular.yearly (temporal.toPlainDate rule.timezone a + 2)
    have haj : a < j := hj.gt_of_date hregular htime hfrom
    have hhigh := hdenotes.date_le hspan hj (hleast ⟨⟨later, hj⟩, haj⟩)
    have hmem : b ∈ candidates temporal offset rule a .forward :=
      ⟨⟨date, inWindow_forward.mpr ⟨hlow, by omega⟩, hdenotes⟩,
        decide_eq_true hab⟩
    cases hfound : calendarOccurrence temporal rule a .forward with
    | none =>
        rw [hfound] at hnearest
        exact absurd hmem (Set.eq_empty_iff_forall_notMem.mp hnearest b)
    | some found =>
        rw [hfound] at hnearest
        obtain ⟨⟨⟨date', _, hdenotes'⟩, hadmits⟩, hleast'⟩ := hnearest
        have hafter : a < found := of_decide_eq_true hadmits
        rw [(hleast' hmem).antisymm (hleast ⟨⟨date', hdenotes'⟩, hafter⟩)]

/-- The backward search answers with an instant that no occurrence of the
interval exceeds. -/
theorem Regular.backward (htime : validTime rule.time = true) :
    ∃ found, calendarOccurrence temporal rule now .backward = some found ∧
      found ∈ rule.instants temporal offset ∧ found ≤ now ∧
      ∀ s ∈ Between (rule.instants temporal offset) previous now,
        s ≤ found := by
  have hspan := hregular.setBackLess
  have hnearest : Direction.backward.IsNearest
      (candidates temporal offset rule now .backward)
      (calendarOccurrence temporal rule now .backward) :=
    calendarOccurrence_nearest hregular.resolves hspan
  cases hfound : calendarOccurrence temporal rule now .backward with
  | none =>
      -- the rule fired in the year that is past
      obtain ⟨later, j, hfrom, hto, hj⟩ :=
        hregular.yearly (temporal.toPlainDate rule.timezone now - 368)
      have hjnow : j < now := hj.lt_of_date hregular htime (by omega)
      have hmem : j ∈ candidates temporal offset rule now .backward :=
        ⟨⟨later, inWindow_backward.mpr ⟨by omega, by omega⟩, hj⟩,
          decide_eq_true hjnow.le⟩
      rw [hfound] at hnearest
      exact absurd hmem (Set.eq_empty_iff_forall_notMem.mp hnearest j)
  | some found =>
      rw [hfound] at hnearest
      obtain ⟨⟨⟨date, hwindow, hdenotes⟩, hadmits⟩, hgreatest⟩ := hnearest
      refine ⟨found, rfl, ⟨date, hdenotes⟩, of_decide_eq_true hadmits, ?_⟩
      rintro s ⟨⟨date', hdenotes'⟩, hlt, hle⟩
      by_contra hpast
      have hhigh := hregular.notAhead date' s hdenotes' hlt hle
      have hlow := hdenotes.date_le hspan hdenotes' (not_le.mp hpast).le
      have hmem : s ∈ candidates temporal offset rule now .backward := by
        refine ⟨⟨date', inWindow_backward.mpr ⟨?_, hhigh⟩, hdenotes'⟩,
          decide_eq_true hle⟩
        have := (inWindow_backward.mp hwindow).1
        omega
      exact hpast (hgreatest hmem)

end

theorem calendar_agree {schedule : ConversationSchedule}
    (henabled : schedule.enabled = true)
    (hcalendar : schedule.calendar = some rule)
    (htime : validTime rule.time = true)
    (hregular : Regular temporal offset rule previous now)
    (hprevious : -dateLimit ≤ previous) (hnow : now ≤ dateLimit) :
    Agree temporal schedule previous now := by
  have hfollows := @follows_calendar_iff temporal schedule henabled rule
    hcalendar
  have hnext : Nearest (Follows temporal schedule)
      (rule.instants temporal offset) previous now := by
    constructor
    · intro a b hab
      obtain ⟨n, _, hhit, rfl, _⟩ := searchOccurrence_some (hfollows.mp hab).1
      simp only [hits, Bool.and_eq_true] at hhit
      exact of_decide_eq_true hhit.2
    · intro a ha b hb
      rw [hfollows, hregular.forward_iff htime ha hb]
      have hlow : -dateLimit ≤ a :=
        ha.elim (fun h => h ▸ hprevious) (fun h => hprevious.trans h.2.le)
      constructor
      · exact fun h => h.1
      · exact fun h => ⟨h, hlow.trans h.1.2.le, hb.trans hnow⟩
  apply Agree.of_nearest hnext
  obtain ⟨found, hfound, hmem, hle, hgreatest⟩ := hregular.backward htime
  simp only [occurrenceBetween, hcalendar, hfound, Option.filter_some,
    decide_eq_true_eq]
  split
  next hlt => exact ⟨⟨hmem, hlt, hle⟩, hgreatest⟩
  next hlt =>
    apply Set.eq_empty_of_forall_notMem
    intro s hs
    exact hlt (hs.2.1.trans_le (hgreatest s hs))

end calendar

theorem reject_ok {condition : Bool} {message : String} {result : Unit}
    (h : reject condition message = .ok result) : condition = false := by
  cases condition with
  | false => rfl
  | true => exact nomatch h

theorem validateCalendar_time {temporal : Temporal}
    {rule result : CalendarRule}
    (h : validateCalendar temporal rule = .ok result) :
    validTime result.time = true := by
  simp only [validateCalendar] at h
  split at h
  next => exact nomatch h
  next =>
    split at h
    next => exact nomatch h
    next =>
      split at h
      next => exact nomatch h
      next htime =>
        split at h
        next => exact nomatch h
        next =>
          split at h
          next => exact nomatch h
          next =>
            rw [← Except.ok.inj h]
            simpa using htime

/-- The kinds of a valid schedule. -/
theorem validateSchedule_kind {temporal : Temporal} {raw : ScheduleJson}
    {schedule : ConversationSchedule}
    (h : validateSchedule temporal raw = .ok schedule) :
    (∃ rule, schedule.calendar = some rule ∧ validTime rule.time = true) ∨
    (schedule.calendar = none ∧ schedule.oneShot = true) ∨
    (schedule.calendar = none ∧ schedule.oneShot = false ∧
      ∃ seconds, schedule.intervalSeconds = some seconds ∧ 1 ≤ seconds) := by
  unfold validateSchedule at h
  obtain ⟨_, _, h⟩ := bind_ok h
  obtain ⟨_, _, h⟩ := bind_ok h
  obtain ⟨_, _, h⟩ := bind_ok h
  obtain ⟨calendar, hcalendar, h⟩ := bind_ok h
  obtain ⟨_, _, h⟩ := bind_ok h
  obtain ⟨_, hinterval, h⟩ := bind_ok h
  obtain ⟨_, _, h⟩ := bind_ok h
  obtain ⟨_, hsome, h⟩ := bind_ok h
  obtain ⟨_, hrepeating, h⟩ := bind_ok h
  obtain ⟨_, _, h⟩ := bind_ok h
  obtain ⟨_, _, h⟩ := bind_ok h
  have hinterval' := reject_ok hinterval
  have hsome' := reject_ok hsome
  have hrepeating' := reject_ok hrepeating
  rw [← Except.ok.inj h]
  cases calendar with
  | some rule =>
      left
      refine ⟨rule, rfl, ?_⟩
      cases hraw : raw.calendar with
      | none => simp [hraw, pure, Except.pure] at hcalendar
      | some rawRule =>
          rw [hraw] at hcalendar
          obtain ⟨found, hfound, hrule⟩ := bind_ok hcalendar
          have heq : found = rule := by
            simpa [pure, Except.pure] using hrule
          exact validateCalendar_time (heq ▸ hfound)
  | none =>
      right
      cases honce : raw.oneShot.getD false with
      | true => exact Or.inl ⟨rfl, rfl⟩
      | false =>
          right
          refine ⟨rfl, rfl, ?_⟩
          cases hseconds : raw.intervalSeconds with
          | none => simp_all
          | some seconds =>
              refine ⟨seconds, rfl, ?_⟩
              simpa [hseconds] using hinterval'

/-- The occurrence due between two ticks is the last that asking for the next
one leads to, for every valid and enabled schedule.  Beyond `Exact` the source
rounds, and the two may differ by the rounding. -/
theorem due_agrees_next {temporal : Temporal}
    {offset : String → Int → Int} {raw : ScheduleJson}
    {schedule : ConversationSchedule} {previous now : Int}
    (hvalid : validateSchedule temporal raw = .ok schedule)
    (henabled : schedule.enabled = true)
    (hprevious : -dateLimit ≤ previous) (hnow : now ≤ dateLimit)
    (_ : Exact schedule now)
    (hcalendar : ∀ rule, schedule.calendar = some rule →
      Regular temporal offset rule previous now) :
    Agree temporal schedule previous now := by
  rcases validateSchedule_kind hvalid with ⟨rule, hrule, htime⟩ |
    ⟨hnone, honce⟩ | ⟨hnone, honce, seconds, hseconds, hpositive⟩
  · exact calendar_agree henabled hrule htime (hcalendar rule hrule) hprevious
      hnow
  · exact once_agree henabled hnone honce hprevious hnow
  · exact interval_agree henabled hnone honce hseconds hpositive hprevious hnow

namespace NextWitness

open CalendarWitness

def shanghaiOffset (_ : String) (_ : Int) : Int := 28800000

def shanghai : Temporal :=
  Temporal.ofOffsets (fun _ => [28800000]) shanghaiOffset

/-- A schedule with only a calendar rule. -/
def calendarJson (rule : CalendarRule) : ScheduleJson :=
  { ScheduleJson.empty with
    scheduleId := some "report"
    calendar := some rule
    promptTemplate := some "report" }

def calendarSchedule (rule : CalendarRule) : ConversationSchedule :=
  ⟨"report", 1, true, none, none, false, some rule, "report"⟩

def morning : CalendarRule := daily "Asia/Shanghai" "09:00:00"

theorem morning_denotes (date : Int) :
    morning.Denotes shanghai shanghaiOffset date
      (date * 86400000 + 3600000) := by
  have hlocal : plainTime morning.time = 32400000 := by decide
  refine ⟨rfl, ?_, ?_⟩
  · change reading _ _ = _
    simp only [reading, shanghaiOffset, plainDateTime, hlocal, dayLength]
    omega
  · intro i hi
    have hread : reading (shanghaiOffset morning.timezone) i =
      plainDateTime date morning.time := hi
    simp only [reading, shanghaiOffset, plainDateTime, hlocal,
      dayLength] at hread
    omega

theorem morning_regular (previous now : Int) :
    Regular shanghai shanghaiOffset morning previous now := by
  have hdenotes : ∀ date instant,
      morning.Denotes shanghai shanghaiOffset date instant →
        instant = date * 86400000 + 3600000 :=
    fun date _ h => h.earliest.unique (morning_denotes date).earliest
  have hdate : ∀ instant, shanghai.toPlainDate morning.timezone instant =
      (instant + 28800000) / 86400000 := fun _ => rfl
  constructor
  · apply Temporal.ofOffsets_resolves
    intro zone instant
    simp [shanghaiOffset]
  · intro i j hij
    simp only [reading, shanghaiOffset, dayLength]
    omega
  · exact fun date => ⟨date, _, le_refl date, by omega, morning_denotes date⟩
  · intro date instant h _ hle
    rw [hdate, hdenotes date instant h] at *
    omega
  · intro date instant h hlt _
    rw [hdate, hdenotes date instant h] at *
    omega

/-- Newfoundland in 2006: clocks went back an hour at one minute past midnight
on October 29, so that the first half minute of that date came twice. -/
def stJohnsOffset (_ : String) (instant : Int) : Int :=
  if 1143948660000 ≤ instant ∧ instant < 1162089060000 then -9000000
  else -12600000

def stJohns : Temporal :=
  Temporal.ofOffsets (fun _ => [-9000000, -12600000]) stJohnsOffset

theorem stJohns_resolves : stJohns.Resolves stJohnsOffset := by
  apply Temporal.ofOffsets_resolves
  intro zone instant
  simp only [stJohnsOffset]
  split <;> simp

def midnight : CalendarRule := daily "America/St_Johns" "00:00:30"

def pausedJson : ScheduleJson :=
  { ScheduleJson.empty with
    scheduleId := some "report"
    enabled := some false
    atInstant := some 1000
    oneShot := some true
    promptTemplate := some "report" }

def paused : ConversationSchedule :=
  ⟨"report", 1, false, some 1000, none, true, none, "report"⟩

end NextWitness

open NextWitness in
theorem due_agrees_next_shanghai :
    IsGreatest {instant |
      Reaches shanghai (calendarSchedule morning) 1767225600000 instant ∧
        1767225600000 < instant ∧ instant ≤ 1767484800000} 1767402000000 := by
  have hvalid : validateSchedule shanghai (calendarJson morning) =
      .ok (calendarSchedule morning) := by decide +kernel
  have hagree : Agree shanghai (calendarSchedule morning) 1767225600000
      1767484800000 := by
    apply due_agrees_next hvalid rfl (by decide) (by decide) nofun
    intro rule hrule
    rw [← Option.some.inj hrule]
    exact morning_regular _ _
  exact hagree.last 1767402000000 (by decide)

open NextWitness in
/-- A disabled schedule has no next occurrence but may have one due, and the
occurrence in the first pass of a repeated midnight is next but never due. -/
theorem due_differs_from_next :
    (validateSchedule stJohns pausedJson = .ok paused ∧
      ¬ Agree stJohns paused 0 2000) ∧
    (stJohns.Resolves stJohnsOffset ∧
      validateSchedule stJohns (calendarJson midnight) =
        .ok (calendarSchedule midnight) ∧
      ¬ Agree stJohns (calendarSchedule midnight) 1162089000000
        1162090800000) := by
  refine ⟨⟨rfl, fun hagree => ?_⟩, stJohns_resolves, by decide +kernel,
    fun hagree => ?_⟩
  · obtain ⟨next, hnext, -⟩ := hagree.due.mpr (by decide)
    exact nomatch hnext
  · have hnext : nextScheduleAt stJohns (calendarSchedule midnight)
        1162089000000 = .ok (some 1162089030000) := by decide
    have hdue := hagree.due.mp ⟨1162089030000, hnext, by decide⟩
    exact absurd hdue (by decide)

end AiTeam.Schedule
