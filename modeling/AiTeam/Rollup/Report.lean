/-
The governance report of the Operator: totals, time buckets, ranking and
trends over the stored summaries of a window.  Datetimes are aware; they
compare by instant and are labelled by their own calendar date.
-/
import Mathlib.Data.List.Sort
import AiTeam.Accumulation
import AiTeam.Digits
import AiTeam.Rollup.Summary

namespace AiTeam.Rollup

open AiTeam.Accumulation

/-! ### Datetimes -/

/-- An aware datetime: a date, the microseconds since its midnight and the
offset from UTC in microseconds. -/
structure DateTime where
  year : Nat
  month : Nat
  day : Nat
  micros : Nat
  utcoffset : Int
deriving DecidableEq

namespace DateTime

def isLeap (year : Nat) : Bool :=
  year % 4 = 0 && (year % 100 ≠ 0 || year % 400 = 0)

def daysBeforeYear (year : Nat) : Nat :=
  (year - 1) * 365 + (year - 1) / 4 - (year - 1) / 100 + (year - 1) / 400

def daysBeforeMonth (year month : Nat) : Nat :=
  [0, 31, 59, 90, 120, 151, 181, 212, 243, 273, 304, 334].getD (month - 1) 0 +
    if month > 2 ∧ isLeap year then 1 else 0

/-- `date.toordinal`. -/
def ymd2ord (year month day : Nat) : Nat :=
  daysBeforeYear year + daysBeforeMonth year month + day

def microsPerDay : Int := 86400000000

/-- Microseconds since 0001-01-01 on the local clock. -/
def clock (dt : DateTime) : Int :=
  ((ymd2ord dt.year dt.month dt.day : Int) - 1) * microsPerDay + dt.micros

/-- What aware datetimes compare by. -/
def instant (dt : DateTime) : Int := dt.clock - dt.utcoffset

/-- The first microsecond after 9999-12-31. -/
def clockEnd : Int := 3652059 * microsPerDay

def isoweek1monday (year : Nat) : Nat :=
  let firstday := ymd2ord year 1 1
  let firstweekday := (firstday + 6) % 7
  let week1monday := firstday - firstweekday
  if firstweekday > 3 then week1monday + 7 else week1monday

/-- The year and the week of `isocalendar`. -/
def isocalendar (dt : DateTime) : Nat × Nat :=
  let today := ymd2ord dt.year dt.month dt.day
  if today < isoweek1monday dt.year then
    (dt.year - 1, (today - isoweek1monday (dt.year - 1)) / 7 + 1)
  else
    let week := (today - isoweek1monday dt.year) / 7
    if week ≥ 52 ∧ today ≥ isoweek1monday (dt.year + 1) then (dt.year + 1, 1)
    else (dt.year, week + 1)

end DateTime

inductive AggregationPeriod where
  | day
  | week
  | month
deriving DecidableEq

def twoDigits (value : Nat) : String :=
  if value < 10 then "0" ++ toString value else toString value

/-- `_period_label`. -/
def periodLabel (dt : DateTime) : AggregationPeriod → String
  | .day => toString dt.year ++ "-" ++ twoDigits dt.month ++ "-" ++
      twoDigits dt.day
  | .week => toString dt.isocalendar.1 ++ "-W" ++ twoDigits dt.isocalendar.2
  | .month => toString dt.year ++ "-" ++ twoDigits dt.month

/-! ### What is summed -/

inductive RollupMetric where
  | runCount
  | tokenTotal
  | costTotal
  | errorCount
  | durationSeconds
deriving DecidableEq

/-- The counters that every part of the report carries. -/
@[ext] structure Counters where
  runCount : Int
  tokenTotal : Int
  costTotal : Option ℚ
  errorCount : Int
  durationSecondsTotal : Int
deriving DecidableEq

def knownCosts (items : List (Figures DateTime)) : List ℚ :=
  items.filterMap (·.pricing.cost)

/-- `_sum_known_cost`: Decimals are added with the 28 digits of the default
context. -/
def decimalSum (items : List (Figures DateTime)) : Option ℚ :=
  if knownCosts items = [] then none
  else some (Digits.total 28 (knownCosts items))

/-- One more known cost, added as a Decimal. -/
def addDecimal (total : Option ℚ) : Option ℚ → Option ℚ
  | none => total
  | some cost => some (Digits.roundTo 28 (total.getD 0 + cost))

/-- The sums of a bucket and of the totals. -/
def countersOf (items : List (Figures DateTime)) : Counters where
  runCount := (items.map (·.runCount)).sum
  tokenTotal := (items.map (·.tokenTotal)).sum
  costTotal := decimalSum items
  errorCount := (items.map (·.errorCount)).sum
  durationSecondsTotal := (items.map (·.durationSecondsTotal)).sum

/-- `_metric_value`. -/
def metricValue (s : Figures DateTime) : RollupMetric → Option ℚ
  | .runCount => some s.runCount
  | .tokenTotal => some s.tokenTotal
  | .costTotal => s.pricing.cost
  | .errorCount => some s.errorCount
  | .durationSeconds => some s.durationSecondsTotal

/-- `_metric_value_from_map`. -/
def Counters.metricValue (counters : Counters) : RollupMetric → Option ℚ
  | .runCount => some counters.runCount
  | .tokenTotal => some counters.tokenTotal
  | .costTotal => counters.costTotal
  | .errorCount => some counters.errorCount
  | .durationSeconds => some counters.durationSecondsTotal

/-- `_zero_metric`. -/
def zeroMetric (metric : RollupMetric) : Option ℚ :=
  if metric = .costTotal then none else some 0

/-! ### The report -/

/-- A stored summary with its enterprise, as `all_summaries` answers them. -/
abbrev Pair := String × UsageSummary DateTime

structure TimeBucket where
  periodLabel : String
  counters : Counters
  summaryCount : Nat
deriving DecidableEq

structure EnterpriseRankRow where
  rank : Nat
  enterpriseId : String
  tenantId : String
  counters : Counters
  metricValue : Option ℚ
deriving DecidableEq

/-- `growthPct` is computed as a Decimal and a double, here exactly. -/
structure EnterpriseTrend where
  enterpriseId : String
  tenantId : String
  current : Option ℚ
  previous : Option ℚ
  growthPct : Option ℚ
deriving DecidableEq

structure RollupReport where
  period : AggregationPeriod
  metric : RollupMetric
  windowStart : Option DateTime
  windowEnd : Option DateTime
  totals : TimeBucket
  buckets : List TimeBucket
  ranking : List EnterpriseRankRow
  trends : List EnterpriseTrend
deriving DecidableEq

/-- Summaries that start in `[start, stop)`. -/
def within (start stop : Int) (pairs : List Pair) : List Pair :=
  pairs.filter fun pair =>
    start ≤ pair.2.figures.windowStart.instant ∧
      pair.2.figures.windowStart.instant < stop

/-- `_time_buckets`. -/
def timeBuckets (pairs : List Pair) (period : AggregationPeriod) :
    List TimeBucket :=
  let grouped := accumulate
    (fun pair : Pair => periodLabel pair.2.figures.windowStart period)
    (fun pair => [pair.2.figures])
    (fun items pair => items ++ [pair.2.figures]) pairs
  (grouped.insertionSort fun left right => left.1 ≤ right.1).map fun entry =>
    { periodLabel := entry.1
      counters := countersOf entry.2
      summaryCount := entry.2.length }

/-- `_aggregate_totals`. -/
def aggregateTotals (pairs : List Pair) : TimeBucket where
  periodLabel := "total"
  counters := countersOf (pairs.map (·.2.figures))
  summaryCount := pairs.length

/-- The increments of the ranking. -/
def Counters.add (counters : Counters) (s : Figures DateTime) : Counters where
  runCount := counters.runCount + s.runCount
  tokenTotal := counters.tokenTotal + s.tokenTotal
  costTotal := addDecimal counters.costTotal s.pricing.cost
  errorCount := counters.errorCount + s.errorCount
  durationSecondsTotal := counters.durationSecondsTotal + s.durationSecondsTotal

def Counters.zero : Counters := ⟨0, 0, none, 0, 0⟩

/-- The order of `_metric_sort_key`: null comes below every value. -/
def sortsBelow : Option ℚ → Option ℚ → Bool
  | none, none => false
  | none, some _ => true
  | some _, none => false
  | some left, some right => decide (left < right)

/-- The counters of every enterprise, with the tenant it is first seen with. -/
def enterpriseCounters (pairs : List Pair) :
    List (String × String × Counters) :=
  accumulate Prod.fst
    (fun pair : Pair => (pair.2.tenantId, Counters.zero.add pair.2.figures))
    (fun value pair => (value.1, value.2.add pair.2.figures)) pairs

/-- `_rank_enterprises`: sorted in reverse, which keeps the order of equals. -/
def rankEnterprises (pairs : List Pair) (metric : RollupMetric) :
    List EnterpriseRankRow :=
  let rows := (enterpriseCounters pairs).insertionSort fun left right =>
    sortsBelow (left.2.2.metricValue metric) (right.2.2.metricValue metric)
      = false
  rows.zipIdx.map fun (entry, i) =>
    { rank := i + 1
      enterpriseId := entry.1
      tenantId := entry.2.1
      counters := entry.2.2
      metricValue := entry.2.2.metricValue metric }

/-- What `_accumulate_trend_value` does to the value of a known enterprise:
costs are Decimals, the others integers. -/
def addTrend (metric : RollupMetric) (current value : Option ℚ) : Option ℚ :=
  if metric = .costTotal then addDecimal current value
  else addCost current value

/-- `_accumulate_trend_value` over a period. -/
def trendValues (pairs : List Pair) (metric : RollupMetric) :
    List (String × String × Option ℚ) :=
  accumulate Prod.fst
    (fun pair : Pair => (pair.2.tenantId, metricValue pair.2.figures metric))
    (fun target pair =>
      (target.1, addTrend metric target.2
        (metricValue pair.2.figures metric))) pairs

/-- The growth in percent, where there is a baseline. -/
def growth : Option ℚ → Option ℚ → Option ℚ
  | some cur, some prev =>
    if prev = 0 then none else some ((cur - prev) / prev * 100)
  | _, _ => none

/-- `_enterprise_trends`. -/
def enterpriseTrends (curPairs prevPairs : List Pair)
    (metric : RollupMetric) : List EnterpriseTrend :=
  let prev := trendValues prevPairs metric
  let trends := (trendValues curPairs metric).map
    fun (enterpriseId, tenantId, current) =>
      let previous := match prev.lookup enterpriseId with
        | some value => value.2
        | none => zeroMetric metric
      ({ enterpriseId := enterpriseId
         tenantId := tenantId
         current := current
         previous := previous
         growthPct := growth current previous } : EnterpriseTrend)
  trends.insertionSort fun left right => left.enterpriseId ≤ right.enterpriseId

/-- `min(..., key)` and `max(..., key)`: the first of the extreme ones. -/
def extreme (before : Int → Int → Bool) :
    List DateTime → Option DateTime
  | [] => none
  | first :: rest => some <| rest.foldl
      (fun best dt => if before dt.instant best.instant then dt else best) first

/-- The window asked for, or the envelope of the stored summaries. -/
def reportWindow (pairs : List Pair) :
    Option (DateTime × DateTime) → Option (DateTime × DateTime)
  | some window => some window
  | none => do
    let start ← extreme (· < ·) (pairs.map (·.2.figures.windowStart))
    let stop ← extreme (· > ·) (pairs.map (·.2.figures.windowEnd))
    some (start, stop)

/-- `report`; none where `start - span` lies outside the years 1 to 9999 and
Python raises `OverflowError`. -/
def report (stored : List Pair) (period : AggregationPeriod)
    (metric : RollupMetric) (window : Option (DateTime × DateTime)) :
    Option RollupReport :=
  match stored, reportWindow stored window with
  | [], _ => some
      { period := period
        metric := metric
        windowStart := none
        windowEnd := none
        totals := aggregateTotals []
        buckets := []
        ranking := []
        trends := [] }
  | _, none => none
  | _, some (start, stop) =>
    let span := stop.instant - start.instant
    if start.clock - span < 0 ∨ DateTime.clockEnd ≤ start.clock - span then none
    else
      let cur := within start.instant stop.instant stored
      let prev := within (start.instant - span) start.instant stored
      some
        { period := period
          metric := metric
          windowStart := some start
          windowEnd := some stop
          totals := aggregateTotals cur
          buckets := timeBuckets cur period
          ranking := rankEnterprises cur metric
          trends := enterpriseTrends cur prev metric }

end AiTeam.Rollup
