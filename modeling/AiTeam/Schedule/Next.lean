/-
The next occurrence of a schedule, as the listing plans it, and how it fits the
occurrence that the scheduler finds due between two ticks.
-/
import AiTeam.Schedule.Calendar
import AiTeam.Succession

namespace AiTeam.Schedule

open LocalTime Succession

/-- The instant in milliseconds up to which a Date reaches, either way. -/
def dateLimit : Int := 8640000000000000

/-- `new Date(instant).toISOString()`, as the instant that the text names. -/
def toISOString (instant : Int) : Except String Int :=
  if -dateLimit ≤ instant ∧ instant ≤ dateLimit then .ok instant
  else .error "Invalid time value"

/-- `nextScheduleAt`. -/
def nextScheduleAt (temporal : Temporal) (schedule : ConversationSchedule)
    (now : Int) : Except String (Option Int) :=
  if !schedule.enabled then .ok none
  else
    match schedule.calendar with
    | some rule =>
        match calendarOccurrence temporal rule now .forward with
        | none => .ok none
        | some next => some <$> toISOString next
    | none =>
        let anchor := schedule.atInstant.getD 0
        if schedule.oneShot then
          if now < anchor then some <$> toISOString anchor else .ok none
        else
          match schedule.intervalSeconds with
          -- an absent interval makes the sum NaN
          | none => .error "Invalid time value"
          | some seconds =>
              let step := seconds * 1000
              some <$> toISOString
                (anchor + max 0 ((now - anchor).fdiv step + 1) * step)

/-- The doubles of the source divide and multiply an interval exactly: the time
since its anchor and the interval itself are integers below 2^53. -/
def Exact (schedule : ConversationSchedule) (now : Int) : Prop :=
  schedule.calendar = none → schedule.oneShot = false →
    now - schedule.atInstant.getD 0 < 2 ^ 53 ∧
      ∀ seconds ∈ schedule.intervalSeconds, seconds * 1000 < 2 ^ 53

/-- The schedule answers the first instant with the second. -/
def Follows (temporal : Temporal) (schedule : ConversationSchedule)
    (instant next : Int) : Prop :=
  nextScheduleAt temporal schedule instant = .ok (some next)

/-- The instants that asking for the next one again and again leads to. -/
def Reaches (temporal : Temporal) (schedule : ConversationSchedule) :
    Int → Int → Prop :=
  Relation.TransGen (Follows temporal schedule)

/-- Looking forward from one instant and back from a later one agree. -/
structure Agree (temporal : Temporal) (schedule : ConversationSchedule)
    (previous now : Int) : Prop where
  due : (∃ next, nextScheduleAt temporal schedule previous = .ok (some next) ∧
      next ≤ now) ↔
    (occurrenceBetween temporal schedule previous now).isSome = true
  last : ∀ occurrence,
    occurrenceBetween temporal schedule previous now = some occurrence →
      IsGreatest {instant | Reaches temporal schedule previous instant ∧
        previous < instant ∧ instant ≤ now} occurrence

/-- The forward answers lead through a set of occurrences up to `now`, and the
backward answer is the last of them. -/
theorem Agree.of_nearest {temporal : Temporal}
    {schedule : ConversationSchedule} {occurs : Set Int} {previous now : Int}
    (hnext : Nearest (Follows temporal schedule) occurs previous now)
    (hlast : Direction.backward.IsNearest (Between occurs previous now)
      (occurrenceBetween temporal schedule previous now)) :
    Agree temporal schedule previous now := by
  have hreached : {instant | Reaches temporal schedule previous instant ∧
      previous < instant ∧ instant ≤ now} = Between occurs previous now := by
    rw [← hnext.reached_eq]
    ext instant
    constructor
    · exact fun h => ⟨h.1, h.2.2⟩
    · exact fun h => ⟨h.1, (hnext.mem_of_reaches h.1 h.2).2, h.2⟩
  constructor
  · refine hnext.exists_next_iff.trans ?_
    cases hfound : occurrenceBetween temporal schedule previous now with
    | none =>
        rw [hfound] at hlast
        simp [show Between occurs previous now = ∅ from hlast]
    | some occurrence =>
        rw [hfound] at hlast
        simpa using (show IsGreatest _ occurrence from hlast).nonempty
  · intro occurrence hfound
    rw [hfound] at hlast
    rw [hreached]
    exact hlast

theorem map_toISOString_iff {instant next : Int} :
    some <$> toISOString instant = .ok (some next) ↔
      next = instant ∧ -dateLimit ≤ instant ∧ instant ≤ dateLimit := by
  by_cases h : -dateLimit ≤ instant ∧ instant ≤ dateLimit
  · simp [toISOString, h, eq_comm]
  · simp [toISOString, h]

section kinds

variable {temporal : Temporal} {schedule : ConversationSchedule}

theorem follows_once_iff (henabled : schedule.enabled = true)
    (hcalendar : schedule.calendar = none) (honce : schedule.oneShot = true)
    {instant next : Int} :
    Follows temporal schedule instant next ↔
      instant < schedule.atInstant.getD 0 ∧
        next = schedule.atInstant.getD 0 ∧
        -dateLimit ≤ next ∧ next ≤ dateLimit := by
  simp only [Follows, nextScheduleAt, henabled, hcalendar, honce]
  by_cases hlt : instant < schedule.atInstant.getD 0
  · simp only [Bool.not_true, Bool.false_eq_true, if_false, if_true, hlt,
      map_toISOString_iff, true_and]
    constructor
    · rintro ⟨rfl, hlow, hhigh⟩
      exact ⟨rfl, hlow, hhigh⟩
    · rintro ⟨rfl, hlow, hhigh⟩
      exact ⟨rfl, hlow, hhigh⟩
  · simp [hlt]

theorem follows_interval_iff (henabled : schedule.enabled = true)
    (hcalendar : schedule.calendar = none) (honce : schedule.oneShot = false)
    {seconds : Int} (hseconds : schedule.intervalSeconds = some seconds)
    {instant next : Int} :
    Follows temporal schedule instant next ↔
      next = schedule.atInstant.getD 0 +
          max 0 ((instant - schedule.atInstant.getD 0).fdiv (seconds * 1000) + 1)
            * (seconds * 1000) ∧
        -dateLimit ≤ next ∧ next ≤ dateLimit := by
  simp only [Follows, nextScheduleAt, henabled, hcalendar, honce, hseconds,
    Bool.not_true, Bool.false_eq_true, if_false, map_toISOString_iff]
  constructor
  · rintro ⟨rfl, hlow, hhigh⟩
    exact ⟨rfl, hlow, hhigh⟩
  · rintro ⟨rfl, hlow, hhigh⟩
    exact ⟨rfl, hlow, hhigh⟩

theorem follows_calendar_iff (henabled : schedule.enabled = true)
    {rule : CalendarRule} (hcalendar : schedule.calendar = some rule)
    {instant next : Int} :
    Follows temporal schedule instant next ↔
      calendarOccurrence temporal rule instant .forward = some next ∧
        -dateLimit ≤ next ∧ next ≤ dateLimit := by
  simp only [Follows, nextScheduleAt, henabled, hcalendar, Bool.not_true,
    Bool.false_eq_true, if_false]
  cases calendarOccurrence temporal rule instant .forward with
  | none => simp
  | some found =>
      simp only [map_toISOString_iff, Option.some.injEq]
      constructor
      · rintro ⟨rfl, hlow, hhigh⟩
        exact ⟨rfl, hlow, hhigh⟩
      · rintro ⟨rfl, hlow, hhigh⟩
        exact ⟨rfl, hlow, hhigh⟩

end kinds

section agreement

variable {temporal : Temporal} {schedule : ConversationSchedule}
  {previous now : Int}

theorem once_agree (henabled : schedule.enabled = true)
    (hcalendar : schedule.calendar = none) (honce : schedule.oneShot = true)
    (hprevious : -dateLimit ≤ previous) (hnow : now ≤ dateLimit) :
    Agree temporal schedule previous now := by
  have hfollows := @follows_once_iff temporal schedule henabled hcalendar honce
  have hnext : Nearest (Follows temporal schedule)
      {schedule.atInstant.getD 0} previous now := by
    constructor
    · intro a b hab
      obtain ⟨hlt, rfl, -⟩ := hfollows.mp hab
      exact hlt
    · intro a ha b hb
      rw [hfollows]
      constructor
      · rintro ⟨hlt, rfl, -⟩
        exact ⟨⟨rfl, hlt⟩, fun s hs => hs.1.ge⟩
      · rintro ⟨⟨rfl, hlt⟩, -⟩
        refine ⟨hlt, rfl, ?_, hb.trans hnow⟩
        rcases ha with rfl | ⟨rfl, -⟩
        · exact hprevious.trans hlt.le
        · exact absurd hlt (lt_irrefl _)
  apply Agree.of_nearest hnext
  simp only [occurrenceBetween, hcalendar, honce, if_true,
    Bool.and_eq_true, decide_eq_true_eq]
  split
  next hdue =>
    exact ⟨⟨rfl, hdue⟩, fun s hs => hs.1.le⟩
  next hdue =>
    apply Set.eq_empty_of_forall_notMem
    rintro s ⟨rfl, hs⟩
    exact hdue hs

end agreement

/-- The instants of an interval: an anchor and every step after it. -/
def Steps (anchor step : Int) : Set Int :=
  {instant | ∃ k : Nat, instant = anchor + k * step}

section interval

variable {anchor step : Int}

theorem isLeast_after_steps (hstep : 0 < step) (instant : Int) :
    IsLeast (After (Steps anchor step) instant)
      (anchor + max 0 ((instant - anchor).fdiv step + 1) * step) := by
  rw [Int.fdiv_eq_ediv_of_nonneg _ hstep.le]
  have hpast : instant - anchor < ((instant - anchor) / step + 1) * step :=
    Int.lt_ediv_add_one_mul_self _ hstep
  have hmax : ((instant - anchor) / step + 1) * step ≤
      max 0 ((instant - anchor) / step + 1) * step :=
    Int.mul_le_mul_of_nonneg_right (le_max_right _ _) hstep.le
  constructor
  · refine ⟨⟨(max 0 ((instant - anchor) / step + 1)).toNat, ?_⟩, by omega⟩
    rw [Int.toNat_of_nonneg (le_max_left _ _)]
  · rintro s ⟨⟨k, rfl⟩, hs⟩
    have hk : (instant - anchor) / step < k :=
      Int.ediv_lt_of_lt_mul hstep (by omega)
    have hcount : max 0 ((instant - anchor) / step + 1) ≤ (k : Int) :=
      max_le (Int.natCast_nonneg k) hk
    have hmul := Int.mul_le_mul_of_nonneg_right hcount hstep.le
    omega

/-- No step up to `now` lies beyond the one the division finds. -/
theorem steps_le_index (hstep : 0 < step) {now s : Int}
    (hs : s ∈ Steps anchor step) (hnow : s ≤ now) :
    0 ≤ (now - anchor).fdiv step ∧
      s ≤ anchor + (now - anchor).fdiv step * step := by
  rw [Int.fdiv_eq_ediv_of_nonneg _ hstep.le]
  obtain ⟨k, rfl⟩ := hs
  have hk : (k : Int) ≤ (now - anchor) / step :=
    (Int.le_ediv_iff_mul_le hstep).mpr (by omega)
  have hmul := Int.mul_le_mul_of_nonneg_right hk hstep.le
  constructor
  · exact (Int.natCast_nonneg k).trans hk
  · omega

end interval

section agreement

variable {temporal : Temporal} {schedule : ConversationSchedule}
  {previous now : Int}

theorem interval_agree (henabled : schedule.enabled = true)
    (hcalendar : schedule.calendar = none) (honce : schedule.oneShot = false)
    {seconds : Int} (hseconds : schedule.intervalSeconds = some seconds)
    (hpositive : 1 ≤ seconds) (hprevious : -dateLimit ≤ previous)
    (hnow : now ≤ dateLimit) : Agree temporal schedule previous now := by
  have hstep : 0 < seconds * 1000 := by omega
  have hfollows := @follows_interval_iff temporal schedule henabled hcalendar
    honce seconds hseconds
  have hleast := @isLeast_after_steps (schedule.atInstant.getD 0)
    (seconds * 1000) hstep
  have hnext : Nearest (Follows temporal schedule)
      (Steps (schedule.atInstant.getD 0) (seconds * 1000)) previous now := by
    constructor
    · intro a b hab
      obtain ⟨rfl, -⟩ := hfollows.mp hab
      exact (hleast a).1.2
    · intro a ha b hb
      have hlow : -dateLimit ≤ a :=
        ha.elim (fun h => h ▸ hprevious) (fun h => hprevious.trans h.2.le)
      rw [hfollows]
      constructor
      · rintro ⟨rfl, -⟩
        exact hleast a
      · intro hb'
        exact ⟨hb'.unique (hleast a), hlow.trans hb'.1.2.le, hb.trans hnow⟩
  apply Agree.of_nearest hnext
  have hindex : ∀ s ∈ Between
      (Steps (schedule.atInstant.getD 0) (seconds * 1000)) previous now, _ :=
    fun s hs => steps_le_index hstep hs.1 hs.2.2
  have hne : (seconds * 1000 == 0) = false := by simp; omega
  simp only [occurrenceBetween, hcalendar, honce, hseconds, Option.getD_some,
    Bool.false_eq_true, if_false, hne, Bool.and_eq_true, decide_eq_true_eq]
  split
  next hnegative =>
    apply Set.eq_empty_of_forall_notMem
    intro s hs
    have := (hindex s hs).1
    omega
  next hindexed =>
    split
    next hdue =>
      refine ⟨⟨⟨((now - schedule.atInstant.getD 0).fdiv
        (seconds * 1000)).toNat, ?_⟩, hdue⟩, fun s hs => (hindex s hs).2⟩
      rw [Int.toNat_of_nonneg (by omega)]
    next hdue =>
      apply Set.eq_empty_of_forall_notMem
      intro s hs
      apply hdue
      have hle := (hindex s hs).2
      refine ⟨hs.2.1.trans_le hle, ?_⟩
      rw [Int.fdiv_eq_ediv_of_nonneg _ hstep.le]
      have := Int.ediv_mul_le (now - schedule.atInstant.getD 0) hstep.ne'
      omega

end agreement

end AiTeam.Schedule
