/-
The parts of a report agree: every counter of the totals is the sum over the
buckets and over the ranking, costs as long as 28 digits hold them, and each
part counts its own summaries.
-/
import AiTeam.Rollup.Report

namespace AiTeam.Rollup

open AiTeam.Accumulation Digits

/-! ### Counters add up -/

/-- Costs add where both are known; a null one adds nothing. -/
def mergeCosts : Option ℚ → Option ℚ → Option ℚ
  | none, right => right
  | some left, none => some left
  | some left, some right => some (left + right)

namespace Counters

instance : Zero Counters := ⟨Counters.zero⟩

instance : Add Counters where
  add left right :=
    { runCount := left.runCount + right.runCount
      tokenTotal := left.tokenTotal + right.tokenTotal
      costTotal := mergeCosts left.costTotal right.costTotal
      errorCount := left.errorCount + right.errorCount
      durationSecondsTotal :=
        left.durationSecondsTotal + right.durationSecondsTotal }

theorem add_def (left right : Counters) : left + right =
    { runCount := left.runCount + right.runCount
      tokenTotal := left.tokenTotal + right.tokenTotal
      costTotal := mergeCosts left.costTotal right.costTotal
      errorCount := left.errorCount + right.errorCount
      durationSecondsTotal :=
        left.durationSecondsTotal + right.durationSecondsTotal } := rfl

theorem zero_def : (0 : Counters) = ⟨0, 0, none, 0, 0⟩ := rfl

instance : AddCommMonoid Counters where
  add_assoc := by
    rintro ⟨_, _, _ | a, _, _⟩ ⟨_, _, _ | b, _, _⟩ ⟨_, _, _ | c, _, _⟩ <;>
      simp [add_def, mergeCosts, add_assoc]
  zero_add := by
    rintro ⟨_, _, cost, _, _⟩
    simp [add_def, zero_def, mergeCosts]
  add_zero := by
    rintro ⟨_, _, _ | cost, _, _⟩ <;> simp [add_def, zero_def, mergeCosts]
  add_comm := by
    rintro ⟨_, _, _ | a, _, _⟩ ⟨_, _, _ | b, _, _⟩ <;>
      simp [add_def, mergeCosts, add_comm]
  nsmul := nsmulRec

/-- The counters of one summary. -/
def one (s : Figures DateTime) : Counters where
  runCount := s.runCount
  tokenTotal := s.tokenTotal
  costTotal := s.pricing.cost
  errorCount := s.errorCount
  durationSecondsTotal := s.durationSecondsTotal

/-- The counters without the cost. -/
def withoutCost : Counters →+ Counters where
  toFun counters := { counters with costTotal := none }
  map_zero' := rfl
  map_add' _ _ := rfl

/-- Counters that agree, their costs at least where they are exact. -/
structure Agree (exact : Prop) (left right : Counters) : Prop where
  counts : withoutCost left = withoutCost right
  costs : exact → left.costTotal = right.costTotal

end Counters

theorem mergeCosts_eq (total cost : Option ℚ) :
    mergeCosts total cost = addCost total cost := by
  cases total <;> cases cost <;> simp [mergeCosts, addCost]

/-- The exact sum differs from the counters in the cost at most. -/
theorem sum_one (items : List (Figures DateTime)) :
    (items.map Counters.one).sum =
      { countersOf items with costTotal := sumKnownCost items } := by
  induction items using List.reverseRecOn with
  | nil => rfl
  | append_singleton items s ih =>
      rw [List.map_append, List.sum_append, ih, List.map_singleton,
        List.sum_singleton, sumKnownCost_append]
      simp [Counters.add_def, Counters.one, countersOf, mergeCosts_eq]

variable {items : List (Figures DateTime)} {view : Counters →+ Counters}
  {metric : RollupMetric}

theorem decimalSum_eq (h : Fits 28 (knownCosts items)) :
    decimalSum items = sumKnownCost items := by
  rw [decimalSum, h.total]
  rfl

/-- What a view of counters adds up exactly: it leaves out the cost, or the
digits hold it. -/
theorem countersOf_view
    (h : view = Counters.withoutCost ∨ Fits 28 (knownCosts items)) :
    view (countersOf items) = (items.map fun s => view (Counters.one s)).sum := by
  have hsum : view (countersOf items) = view (items.map Counters.one).sum := by
    rw [sum_one]
    rcases h with rfl | hfits
    · rfl
    · rw [← decimalSum_eq hfits]
      rfl
  rw [hsum, map_list_sum, List.map_map]
  rfl

theorem Counters.Agree.of_views {exact : Prop} {left right : Counters}
    (h : ∀ view : Counters →+ Counters, view = withoutCost ∨ exact →
      view left = view right) : Agree exact left right where
  counts := h withoutCost (.inl rfl)
  costs hexact := congrArg costTotal (h (.id Counters) (.inr hexact))

theorem decimalSum_append (items : List (Figures DateTime))
    (s : Figures DateTime) :
    decimalSum (items ++ [s]) =
      addDecimal (decimalSum items) s.pricing.cost := by
  have hcosts : knownCosts (items ++ [s]) =
      knownCosts items ++ s.pricing.cost.toList := by
    rw [knownCosts, List.filterMap_append]
    cases hcost : s.pricing.cost <;> simp [hcost, knownCosts]
  rw [decimalSum, hcosts]
  cases s.pricing.cost with
  | none => simp [addDecimal, decimalSum]
  | some cost =>
      rw [if_neg (by simp), Option.toList_some, total_append, addDecimal]
      by_cases hnil : knownCosts items = []
      · simp [decimalSum, hnil, total]
      · simp [decimalSum, hnil]

theorem countersOf_append (items : List (Figures DateTime))
    (s : Figures DateTime) :
    countersOf (items ++ [s]) = (countersOf items).add s := by
  simp [countersOf, Counters.add, decimalSum_append]

theorem decimalSum_eq_none :
    decimalSum items = none ↔ ∀ s ∈ items, s.pricing.cost = none := by
  simp [decimalSum, knownCosts]

/-! ### What a report should say -/

def Pair.label (period : AggregationPeriod) (pair : Pair) : String :=
  periodLabel pair.2.figures.windowStart period

def figures (pairs : List Pair) : List (Figures DateTime) :=
  pairs.map (·.2.figures)

theorem figures_append (pairs : List Pair) (pair : Pair) :
    figures (pairs ++ [pair]) = figures pairs ++ [pair.2.figures] :=
  List.map_append

/-- The stored summaries that start in the window of the report. -/
def RollupReport.counted (report : RollupReport) (stored : List Pair) :
    List Pair :=
  match report.windowStart, report.windowEnd with
  | some start, some stop => within start.instant stop.instant stored
  | _, _ => []

/-- The stored summaries of the window of the same length before. -/
def RollupReport.prior (report : RollupReport) (stored : List Pair) :
    List Pair :=
  match report.windowStart, report.windowEnd with
  | some start, some stop =>
    within (start.instant - (stop.instant - start.instant)) start.instant stored
  | _, _ => []

/-- The summaries of a bucket, and of an enterprise. -/
def inBucket (period : AggregationPeriod) (label : String)
    (pairs : List Pair) : List Pair :=
  group (Pair.label period) pairs label

def ofEnterprise (enterpriseId : String) (pairs : List Pair) : List Pair :=
  group Prod.fst pairs enterpriseId

/-- The digits of a Decimal hold the known costs of some summaries and every
sum of them. -/
def Exact (pairs : List Pair) : Prop := Fits 28 (knownCosts (figures pairs))

theorem Exact.sublist {pairs part : List Pair} (h : Exact pairs)
    (hpart : part.Sublist pairs) : Exact part :=
  Fits.sublist h ((hpart.map _).filterMap _)

/-- What the parts of a report have to do with each other and with what is
stored. -/
structure Conserved (stored : List Pair) (report : RollupReport) : Prop where
  totals : report.totals.counters = countersOf (figures (report.counted stored))
  totalCount : report.totals.summaryCount = (report.counted stored).length
  bySum : Counters.Agree (Exact (report.counted stored))
    report.totals.counters (report.buckets.map (·.counters)).sum
  byRank : Counters.Agree (Exact (report.counted stored))
    report.totals.counters (report.ranking.map (·.counters)).sum
  labels : (report.buckets.map (·.periodLabel)).Nodup
  placed : ∀ pair ∈ report.counted stored, ∃! bucket,
    bucket ∈ report.buckets ∧ pair ∈ inBucket report.period
      bucket.periodLabel (report.counted stored)
  bucket : ∀ bucket ∈ report.buckets,
    bucket.counters = countersOf (figures
      (inBucket report.period bucket.periodLabel (report.counted stored))) ∧
    bucket.summaryCount =
      (inBucket report.period bucket.periodLabel (report.counted stored)).length
  enterprises : (report.ranking.map (·.enterpriseId)).Nodup
  ranked : ∀ row ∈ report.ranking,
    row.counters = countersOf (figures
      (ofEnterprise row.enterpriseId (report.counted stored))) ∧
    row.metricValue = row.counters.metricValue report.metric
  trend : ∀ row ∈ report.ranking, ∃ trend ∈ report.trends,
    trend.enterpriseId = row.enterpriseId ∧
      ((report.metric = .costTotal → Exact (report.counted stored)) →
        trend.current = row.metricValue)
  trended : ∀ trend ∈ report.trends, ∃ row ∈ report.ranking,
    trend.enterpriseId = row.enterpriseId ∧
      ((report.metric = .costTotal → Exact (report.counted stored)) →
        trend.current = row.metricValue)
  totalCost : report.totals.counters.costTotal = none ↔
    ∀ pair ∈ report.counted stored, pair.2.figures.pricing.cost = none
  bucketCost : ∀ bucket ∈ report.buckets, bucket.counters.costTotal = none ↔
    ∀ pair ∈ inBucket report.period bucket.periodLabel
      (report.counted stored), pair.2.figures.pricing.cost = none
  rankedCost : ∀ row ∈ report.ranking, row.counters.costTotal = none ↔
    ∀ pair ∈ ofEnterprise row.enterpriseId (report.counted stored),
      pair.2.figures.pricing.cost = none
  previousCost : report.metric = .costTotal → ∀ trend ∈ report.trends,
    (trend.previous = none ↔
      ∀ pair ∈ ofEnterprise trend.enterpriseId (report.prior stored),
        pair.2.figures.pricing.cost = none)

/-! ### The time buckets -/

section Buckets

variable {pairs : List Pair} {period : AggregationPeriod}

/-- The groups that `_time_buckets` makes its buckets of. -/
def bucketGroups (pairs : List Pair) (period : AggregationPeriod) :
    List (String × List (Figures DateTime)) :=
  accumulate (Pair.label period) (fun pair => [pair.2.figures])
    (fun items pair => items ++ [pair.2.figures]) pairs

def bucketOf (entry : String × List (Figures DateTime)) : TimeBucket where
  periodLabel := entry.1
  counters := countersOf entry.2
  summaryCount := entry.2.length

theorem timeBuckets_perm (pairs : List Pair) (period : AggregationPeriod) :
    (timeBuckets pairs period).Perm
      ((bucketGroups pairs period).map bucketOf) :=
  (List.perm_insertionSort _ _).map bucketOf

theorem bucketGroups_figures :
    ∀ entry ∈ bucketGroups pairs period,
      entry.2 = figures (inBucket period entry.1 pairs) := by
  have hfirst : ∀ pair : Pair, [pair.2.figures] = figures [pair] :=
    fun _ => rfl
  have hstep : ∀ (items : List (Figures DateTime)) (taken : List Pair)
      (pair : Pair), items = figures taken →
      items ++ [pair.2.figures] = figures (taken ++ [pair]) := by
    rintro items taken pair rfl
    exact (figures_append taken pair).symm
  exact accumulate_induction (fun items taken => items = figures taken)
    hfirst hstep pairs

theorem timeBuckets_sum (h : view = Counters.withoutCost ∨ Exact pairs) :
    view (countersOf (figures pairs)) =
      view ((timeBuckets pairs period).map (·.counters)).sum := by
  have hsorted := ((timeBuckets_perm pairs period).map (·.counters)).sum_eq
  have hgroup : ∀ entry ∈ bucketGroups pairs period,
      view (countersOf entry.2) =
        ((inBucket period entry.1 pairs).map
          fun pair => view (Counters.one pair.2.figures)).sum := by
    intro entry hentry
    have hpart : (inBucket period entry.1 pairs).Sublist pairs :=
      List.filter_sublist
    rw [bucketGroups_figures entry hentry,
      countersOf_view (h.imp_right fun hexact => hexact.sublist hpart), figures,
      List.map_map]
    rfl
  have hsum := sum_accumulate (fun items => view (countersOf items))
    (fun pair : Pair => view (Counters.one pair.2.figures)) hgroup
  rw [hsorted, List.map_map, map_list_sum, List.map_map, countersOf_view h,
    figures, List.map_map]
  exact hsum.symm

theorem timeBuckets_labels (pairs : List Pair) (period : AggregationPeriod) :
    ((timeBuckets pairs period).map (·.periodLabel)).Nodup := by
  have hsorted := (timeBuckets_perm pairs period).map (·.periodLabel)
  rw [List.map_map] at hsorted
  exact hsorted.nodup_iff.mpr (nodup_keys_accumulate pairs)

/-- Each summary belongs to exactly one bucket. -/
theorem timeBuckets_placed {pair : Pair} (hpair : pair ∈ pairs) :
    ∃! bucket, bucket ∈ timeBuckets pairs period ∧
      pair ∈ inBucket period bucket.periodLabel pairs := by
  have hkey : Pair.label period pair ∈
      (bucketGroups pairs period).map Prod.fst :=
    mem_keys_accumulate.mpr ⟨pair, hpair, rfl⟩
  obtain ⟨entry, hentry, hlabel⟩ := List.mem_map.mp hkey
  have hbucket : bucketOf entry ∈ timeBuckets pairs period :=
    (timeBuckets_perm pairs period).mem_iff.mpr (List.mem_map_of_mem hentry)
  refine ⟨bucketOf entry, ⟨hbucket, ?_⟩, ?_⟩
  · exact List.mem_filter.mpr ⟨hpair, decide_eq_true hlabel.symm⟩
  · rintro other ⟨hother, hmem⟩
    have hsame : Pair.label period pair = other.periodLabel :=
      of_decide_eq_true (List.mem_filter.mp hmem).2
    exact List.inj_on_of_nodup_map (timeBuckets_labels pairs period) hother
      hbucket (hsame.symm.trans hlabel.symm)

theorem timeBuckets_bucket {bucket : TimeBucket}
    (hbucket : bucket ∈ timeBuckets pairs period) :
    bucket.counters =
        countersOf (figures (inBucket period bucket.periodLabel pairs)) ∧
      bucket.summaryCount =
        (inBucket period bucket.periodLabel pairs).length := by
  have hmem := (timeBuckets_perm pairs period).mem_iff.mp hbucket
  obtain ⟨entry, hentry, rfl⟩ := List.mem_map.mp hmem
  have hfigures := bucketGroups_figures entry hentry
  constructor
  · exact congrArg countersOf hfigures
  · have hlength := congrArg List.length hfigures
    rw [figures, List.length_map] at hlength
    exact hlength

end Buckets

/-! ### The ranking and the trends -/

section Ranking

variable {pairs : List Pair} {metric : RollupMetric}

theorem enterpriseCounters_counters :
    ∀ entry ∈ enterpriseCounters pairs,
      entry.2.2 = countersOf (figures (ofEnterprise entry.1 pairs)) := by
  have hone : ∀ pair : Pair, Counters.zero.add pair.2.figures =
      countersOf (figures [pair]) :=
    fun pair => (countersOf_append [] pair.2.figures).symm
  have hmore : ∀ (value : String × Counters) (taken : List Pair)
      (pair : Pair), value.2 = countersOf (figures taken) →
      value.2.add pair.2.figures = countersOf (figures (taken ++ [pair])) := by
    intro value taken pair hvalue
    rw [hvalue, figures_append, countersOf_append]
  exact accumulate_induction
    (fun (value : String × Counters) taken =>
      value.2 = countersOf (figures taken)) hone hmore pairs

/-- The rows of the ranking are the entries of the enterprises, in another
order and with their place. -/
theorem rankEnterprises_entries (pairs : List Pair) (metric : RollupMetric) :
    ((rankEnterprises pairs metric).map fun row =>
      (row.enterpriseId, row.tenantId, row.counters)).Perm
        (enterpriseCounters pairs) := by
  have hplaced : ∀ (rows : List (String × String × Counters)) (n : Nat),
      (rows.zipIdx n).map Prod.fst = rows := fun rows n => by simp
  rw [rankEnterprises, List.map_map]
  refine (List.Perm.of_eq (hplaced _ 0)).trans (List.perm_insertionSort _ _)

theorem rankEnterprises_sum (h : view = Counters.withoutCost ∨ Exact pairs) :
    view (countersOf (figures pairs)) =
      view ((rankEnterprises pairs metric).map (·.counters)).sum := by
  have hrows := (rankEnterprises_entries pairs metric).map (·.2.2)
  rw [List.map_map] at hrows
  have hgroup : ∀ entry ∈ enterpriseCounters pairs,
      view entry.2.2 = ((ofEnterprise entry.1 pairs).map
        fun pair => view (Counters.one pair.2.figures)).sum := by
    intro entry hentry
    have hpart : (ofEnterprise entry.1 pairs).Sublist pairs :=
      List.filter_sublist
    rw [enterpriseCounters_counters entry hentry,
      countersOf_view (h.imp_right fun hexact => hexact.sublist hpart), figures,
      List.map_map]
    rfl
  have hsum := sum_accumulate
    (fun value : String × Counters => view value.2)
    (fun pair : Pair => view (Counters.one pair.2.figures)) hgroup
  have hrank := congrArg view hrows.sum_eq
  rw [countersOf_view h, figures, List.map_map]
  refine hsum.symm.trans (Eq.trans ?_ hrank.symm)
  rw [map_list_sum, List.map_map]
  rfl

theorem rankEnterprises_enterprises (pairs : List Pair)
    (metric : RollupMetric) :
    ((rankEnterprises pairs metric).map (·.enterpriseId)).Perm
      ((enterpriseCounters pairs).map Prod.fst) := by
  have hrows := (rankEnterprises_entries pairs metric).map Prod.fst
  rw [List.map_map] at hrows
  exact hrows

theorem rankEnterprises_row {row : EnterpriseRankRow}
    (hrow : row ∈ rankEnterprises pairs metric) :
    row.counters =
        countersOf (figures (ofEnterprise row.enterpriseId pairs)) ∧
      row.metricValue = row.counters.metricValue metric := by
  constructor
  · have hentry : (row.enterpriseId, row.tenantId, row.counters) ∈
        enterpriseCounters pairs :=
      (rankEnterprises_entries pairs metric).mem_iff.mp
        (List.mem_map_of_mem hrow)
    exact enterpriseCounters_counters _ hentry
  · obtain ⟨⟨entry, i⟩, hentry, rfl⟩ := List.mem_map.mp hrow
    rfl

theorem metricValue_one {s : Figures DateTime}
    (h : metric = .costTotal → Fits 28 (knownCosts [s])) :
    metricValue s metric = (countersOf [s]).metricValue metric := by
  cases metric with
  | costTotal =>
      change s.pricing.cost = decimalSum [s]
      rw [decimalSum_eq (h rfl)]
      cases hcost : s.pricing.cost <;> simp [sumKnownCost, hcost]
  | runCount | tokenTotal | errorCount | durationSeconds =>
      simp [metricValue, Counters.metricValue, countersOf]

theorem addTrend_metricValue (counters : Counters) (s : Figures DateTime)
    (metric : RollupMetric) :
    addTrend metric (counters.metricValue metric) (metricValue s metric) =
      (counters.add s).metricValue metric := by
  cases metric with
  | costTotal => rfl
  | runCount | tokenTotal | errorCount | durationSeconds =>
      simp [addTrend, addCost, Counters.metricValue, metricValue, Counters.add]

/-- What a trend compares is the metric of the summaries of its enterprise. -/
theorem trendValues_value (h : metric = .costTotal → Exact pairs) :
    ∀ entry ∈ trendValues pairs metric, entry.2.2 =
      (countersOf (figures (ofEnterprise entry.1 pairs))).metricValue
        metric := by
  have hone : ∀ pair : Pair, (metric = .costTotal → Exact [pair]) →
      metricValue pair.2.figures metric =
        (countersOf (figures [pair])).metricValue metric :=
    fun pair => metricValue_one
  have hmore : ∀ (target : String × Option ℚ) (taken : List Pair)
      (pair : Pair),
      ((metric = .costTotal → Exact taken) →
        target.2 = (countersOf (figures taken)).metricValue metric) →
      (metric = .costTotal → Exact (taken ++ [pair])) →
      addTrend metric target.2 (metricValue pair.2.figures metric) =
        (countersOf (figures (taken ++ [pair]))).metricValue metric := by
    intro target taken pair htarget hexact
    rw [htarget fun hcost =>
        (hexact hcost).sublist (List.sublist_append_left _ _),
      addTrend_metricValue, figures_append, countersOf_append]
  intro entry hentry
  exact accumulate_induction
    (fun (target : String × Option ℚ) taken =>
      (metric = .costTotal → Exact taken) →
        target.2 = (countersOf (figures taken)).metricValue metric)
    hone hmore pairs entry hentry
    fun hcost => (h hcost).sublist List.filter_sublist

/-- The value of a cost trend is null exactly where no known cost is added. -/
theorem trendValues_none :
    ∀ entry ∈ trendValues pairs .costTotal, entry.2.2 = none ↔
      ∀ pair ∈ ofEnterprise entry.1 pairs,
        pair.2.figures.pricing.cost = none := by
  have hone : ∀ pair : Pair, metricValue pair.2.figures .costTotal = none ↔
      ∀ other ∈ [pair], other.2.figures.pricing.cost = none := by
    simp [metricValue]
  have hmore : ∀ (target : String × Option ℚ) (taken : List Pair)
      (pair : Pair),
      (target.2 = none ↔
        ∀ other ∈ taken, other.2.figures.pricing.cost = none) →
      (addTrend .costTotal target.2
          (metricValue pair.2.figures .costTotal) = none ↔
        ∀ other ∈ taken ++ [pair],
          other.2.figures.pricing.cost = none) := by
    intro target taken pair htarget
    cases hcost : pair.2.figures.pricing.cost <;>
      simp [addTrend, addDecimal, metricValue, hcost, htarget, or_imp,
        forall_and]
  intro entry hentry
  exact accumulate_induction
    (fun (target : String × Option ℚ) taken => target.2 = none ↔
      ∀ pair ∈ taken, pair.2.figures.pricing.cost = none)
    hone hmore pairs entry hentry

/-- The ranking and the trends know the same enterprises. -/
theorem mem_trendValues_keys {enterpriseId : String} :
    enterpriseId ∈ (trendValues pairs metric).map Prod.fst ↔
      enterpriseId ∈ (enterpriseCounters pairs).map Prod.fst :=
  mem_keys_accumulate.trans mem_keys_accumulate.symm

/-- The trend of one entry of the current period. -/
def trendOf (prevPairs : List Pair) (metric : RollupMetric)
    (entry : String × String × Option ℚ) : EnterpriseTrend :=
  let previous := match (trendValues prevPairs metric).lookup entry.1 with
    | some value => value.2
    | none => zeroMetric metric
  { enterpriseId := entry.1
    tenantId := entry.2.1
    current := entry.2.2
    previous := previous
    growthPct := growth entry.2.2 previous }

theorem enterpriseTrends_perm (curPairs prevPairs : List Pair)
    (metric : RollupMetric) :
    (enterpriseTrends curPairs prevPairs metric).Perm
      ((trendValues curPairs metric).map (trendOf prevPairs metric)) :=
  List.perm_insertionSort _ _

/-- Each row of the ranking has its trend, which starts from the value of the
row. -/
theorem trend_of_row (prevPairs : List Pair) {row : EnterpriseRankRow}
    (hrow : row ∈ rankEnterprises pairs metric) :
    ∃ trend ∈ enterpriseTrends pairs prevPairs metric,
      trend.enterpriseId = row.enterpriseId ∧
        ((metric = .costTotal → Exact pairs) →
          trend.current = row.metricValue) := by
  have hranked : row.enterpriseId ∈ (enterpriseCounters pairs).map Prod.fst :=
    (rankEnterprises_enterprises pairs metric).mem_iff.mp
      (List.mem_map_of_mem hrow)
  obtain ⟨entry, hentry, hkey⟩ :=
    List.mem_map.mp (mem_trendValues_keys.mpr hranked)
  have htrend : trendOf prevPairs metric entry ∈
      enterpriseTrends pairs prevPairs metric :=
    (enterpriseTrends_perm pairs prevPairs metric).mem_iff.mpr
      (List.mem_map_of_mem hentry)
  obtain ⟨hcounters, hmetric⟩ := rankEnterprises_row hrow
  refine ⟨trendOf prevPairs metric entry, htrend, hkey, fun hexact => ?_⟩
  rw [hmetric, hcounters, ← hkey]
  exact trendValues_value hexact entry hentry

theorem row_of_trend {prevPairs : List Pair} {trend : EnterpriseTrend}
    (htrend : trend ∈ enterpriseTrends pairs prevPairs metric) :
    ∃ row ∈ rankEnterprises pairs metric,
      trend.enterpriseId = row.enterpriseId ∧
        ((metric = .costTotal → Exact pairs) →
          trend.current = row.metricValue) := by
  have hmem := (enterpriseTrends_perm pairs prevPairs metric).mem_iff.mp htrend
  obtain ⟨entry, hentry, rfl⟩ := List.mem_map.mp hmem
  have hknown : entry.1 ∈ (rankEnterprises pairs metric).map
      (·.enterpriseId) :=
    (rankEnterprises_enterprises pairs metric).mem_iff.mpr
      (mem_trendValues_keys.mp (List.mem_map_of_mem hentry))
  obtain ⟨row, hrow, hkey⟩ := List.mem_map.mp hknown
  obtain ⟨hcounters, hmetric⟩ := rankEnterprises_row hrow
  refine ⟨row, hrow, hkey.symm, fun hexact => ?_⟩
  rw [hmetric, hcounters, hkey]
  exact trendValues_value hexact entry hentry

/-- The baseline of a trend is null exactly when the period before has no
known cost of the enterprise. -/
theorem previous_eq_none {prevPairs : List Pair} {trend : EnterpriseTrend}
    (htrend : trend ∈ enterpriseTrends pairs prevPairs .costTotal) :
    trend.previous = none ↔
      ∀ pair ∈ ofEnterprise trend.enterpriseId prevPairs,
        pair.2.figures.pricing.cost = none := by
  have hmem :=
    (enterpriseTrends_perm pairs prevPairs .costTotal).mem_iff.mp htrend
  obtain ⟨entry, hentry, rfl⟩ := List.mem_map.mp hmem
  show (match (trendValues prevPairs .costTotal).lookup entry.1 with
    | some value => value.2
    | none => zeroMetric .costTotal) = none ↔ _
  cases hlookup : (trendValues prevPairs .costTotal).lookup entry.1 with
  | none =>
      have hempty : ∀ pair, pair ∉ ofEnterprise entry.1 prevPairs := by
        intro pair hpair
        obtain ⟨hpair, hkey⟩ := List.mem_filter.mp hpair
        have hknown : entry.1 ∈
            (trendValues prevPairs .costTotal).map Prod.fst :=
          mem_keys_accumulate.mpr ⟨pair, hpair, of_decide_eq_true hkey⟩
        obtain ⟨known, hmem, hsame⟩ := List.mem_map.mp hknown
        have hother := List.lookup_eq_none_iff.mp hlookup known hmem
        simp [hsame] at hother
      exact iff_of_true rfl fun pair hpair => absurd hpair (hempty pair)
  | some value =>
      obtain ⟨before, after, hsplit, -⟩ :=
        List.lookup_eq_some_iff.mp hlookup
      have hknown : (entry.1, value) ∈ trendValues prevPairs .costTotal := by
        simp [hsplit]
      exact trendValues_none _ hknown

end Ranking

/-! ### The report -/

/-- A report that is answered is the empty one of no summaries or reads the
window it states and the one of the same length before. -/
theorem report_cases {stored : List Pair} {period : AggregationPeriod}
    {window : Option (DateTime × DateTime)} {answer : RollupReport}
    (h : report stored period metric window = some answer) :
    answer.period = period ∧ answer.metric = metric ∧
      answer.totals = aggregateTotals (answer.counted stored) ∧
      answer.buckets = timeBuckets (answer.counted stored) period ∧
      answer.ranking = rankEnterprises (answer.counted stored) metric ∧
      answer.trends = enterpriseTrends (answer.counted stored)
        (answer.prior stored) metric := by
  unfold report at h
  split at h
  · obtain rfl := Option.some.inj h
    exact ⟨rfl, rfl, rfl, rfl, rfl, rfl⟩
  · exact nomatch h
  · dsimp only at h
    split at h
    · exact nomatch h
    · obtain rfl := Option.some.inj h
      exact ⟨rfl, rfl, rfl, rfl, rfl, rfl⟩

/-- A report over a window counts what starts in it. -/
theorem counted_eq {stored : List Pair} {period : AggregationPeriod}
    {start stop : DateTime} {answer : RollupReport}
    (h : report stored period metric (some (start, stop)) = some answer) :
    answer.counted stored = within start.instant stop.instant stored := by
  unfold report at h
  split at h
  · obtain rfl := Option.some.inj h
    rfl
  · exact nomatch h
  · next hwindow =>
      obtain ⟨rfl, rfl⟩ := Prod.mk.inj (Option.some.inj hwindow)
      dsimp only at h
      split at h
      · exact nomatch h
      · obtain rfl := Option.some.inj h
        rfl

theorem report_conserved {stored : List Pair} {period : AggregationPeriod}
    {metric : RollupMetric} {window : Option (DateTime × DateTime)}
    {answer : RollupReport}
    (h : report stored period metric window = some answer) :
    Conserved stored answer ∧
      ∀ start stop, window = some (start, stop) →
        answer.counted stored = within start.instant stop.instant stored := by
  refine ⟨?_, fun start stop hwindow => counted_eq (hwindow ▸ h)⟩
  obtain ⟨hperiod, hmetric, htotals, hbuckets, hranking, htrends⟩ :=
    report_cases h
  subst hperiod hmetric
  have hcounters : answer.totals.counters =
      countersOf (figures (answer.counted stored)) := by
    rw [htotals]
    rfl
  have hranked : ∀ row ∈ answer.ranking,
      row.counters = countersOf (figures
          (ofEnterprise row.enterpriseId (answer.counted stored))) ∧
        row.metricValue = row.counters.metricValue answer.metric := by
    intro row hrow
    rw [hranking] at hrow
    exact rankEnterprises_row hrow
  have hbucket : ∀ bucket ∈ answer.buckets,
      bucket.counters = countersOf (figures (inBucket answer.period
          bucket.periodLabel (answer.counted stored))) ∧
        bucket.summaryCount = (inBucket answer.period bucket.periodLabel
          (answer.counted stored)).length := by
    intro bucket hbucket
    rw [hbuckets] at hbucket
    exact timeBuckets_bucket hbucket
  constructor
  case totals => exact hcounters
  case totalCount =>
    rw [htotals]
    rfl
  case bySum =>
    rw [hcounters, hbuckets]
    exact .of_views fun _ => timeBuckets_sum
  case byRank =>
    rw [hcounters, hranking]
    exact .of_views fun _ => rankEnterprises_sum
  case labels =>
    rw [hbuckets]
    exact timeBuckets_labels _ _
  case placed =>
    intro pair hpair
    rw [hbuckets]
    exact timeBuckets_placed hpair
  case bucket => exact hbucket
  case enterprises =>
    rw [hranking]
    exact (rankEnterprises_enterprises _ _).nodup_iff.mpr
      (nodup_keys_accumulate _)
  case ranked => exact hranked
  case trend =>
    intro row hrow
    rw [hranking] at hrow
    rw [htrends]
    exact trend_of_row _ hrow
  case trended =>
    intro trend htrend
    rw [htrends] at htrend
    rw [hranking]
    exact row_of_trend htrend
  case totalCost =>
    rw [hcounters]
    exact decimalSum_eq_none.trans List.forall_mem_map
  case bucketCost =>
    intro bucket hmem
    rw [(hbucket bucket hmem).1]
    exact decimalSum_eq_none.trans List.forall_mem_map
  case rankedCost =>
    intro row hrow
    rw [(hranked row hrow).1]
    exact decimalSum_eq_none.trans List.forall_mem_map
  case previousCost =>
    intro hcost trend htrend
    rw [htrends, hcost] at htrend
    exact previous_eq_none htrend

namespace ReportWitness

def may (day : Nat) : DateTime := ⟨2024, 5, day, 0, 0⟩

def summary (summaryId : String) (day : Nat) (pricing : Pricing) :
    UsageSummary DateTime where
  summaryId := summaryId
  tenantId := "t"
  employeeId := none
  figures :=
    { windowStart := may day
      windowEnd := may (day + 1)
      runCount := 1
      tokenTotal := 10
      pricing := pricing
      pricingVersion := some 1
      errorCount := 0
      durationSecondsTotal := 5 }

/-- Two days of one enterprise, a day of another, and one before the window. -/
def stored : List Pair :=
  [("e1", summary "a" 10 (.known 2)), ("e2", summary "b" 10 .unknown),
    ("e1", summary "c" 11 (.known 3)), ("e1", summary "d" 8 (.known 1))]

/-- A third to 28 digits. -/
def third : ℚ := 3333333333333333333333333333 / 10 ^ 28

/-- A whole cost on one day and two long ones on the next. -/
def long : List Pair :=
  [("e1", summary "a" 10 (.known 3)), ("e1", summary "b" 11 (.known third)),
    ("e1", summary "c" 11 (.known third))]

def answerOf (stored : List Pair) : RollupReport :=
  (report stored .day .costTotal (some (may 10, may 12))).getD
    ⟨.day, .costTotal, none, none, aggregateTotals [], [], [], []⟩

end ReportWitness

open ReportWitness in
theorem report_conserved_days :
    report stored .day .costTotal (some (may 10, may 12)) =
        some (answerOf stored) ∧
      (answerOf stored).totals.counters.costTotal = some 5 ∧
      Counters.Agree True (answerOf stored).totals.counters
        ((answerOf stored).buckets.map (·.counters)).sum ∧
      (answerOf stored).buckets.map (·.periodLabel) =
        ["2024-05-10", "2024-05-11"] ∧
      Conserved stored (answerOf stored) := by
  have h : report stored .day .costTotal (some (may 10, may 12)) =
      some (answerOf stored) := by decide +kernel
  have hexact : Exact ((answerOf stored).counted stored) := by
    have hcosts : knownCosts (figures ((answerOf stored).counted stored)) =
        [2, 3] := by decide +kernel
    rw [Exact, hcosts]
    refine ⟨0, List.forall_mem_cons.mpr ⟨⟨2, by norm_num⟩, ?_⟩, by norm_num⟩
    exact List.forall_mem_singleton.mpr ⟨3, by norm_num⟩
  have hconserved := (report_conserved h).1
  exact ⟨h, by decide +kernel, ⟨hconserved.bySum.counts,
    fun _ => hconserved.bySum.costs hexact⟩, by decide +kernel, hconserved⟩

open ReportWitness in
/-- The cost of the totals is not the sum over the buckets, neither exactly nor
added as Decimals. -/
theorem long_costs_part :
    report long .day .costTotal (some (may 10, may 12)) =
        some (answerOf long) ∧
      (answerOf long).totals.counters ≠
        ((answerOf long).buckets.map (·.counters)).sum ∧
      (answerOf long).totals.counters.costTotal ≠
        ((answerOf long).buckets.map (·.counters.costTotal)).foldl
          addDecimal none := by
  decide +kernel

end AiTeam.Rollup
