/-
The two rollup repositories of the Operator: the one in memory, which skips an
id it has seen and adds to counters, and the PostgreSQL one, which overwrites
the row of an id and recomputes the counters.
-/
import Mathlib.Data.List.Sort
import AiTeam.Rollup.Summary
import AiTeam.Table

namespace AiTeam.Rollup

variable {T : Type} [LinearOrder T]

/-- One call of `apply_summary`.  An enterprise is named by its UUID in
canonical text. -/
structure Call (T : Type) where
  enterpriseId : String
  tenantId : String
  summary : UsageSummary T

/-- The public fields of `EnterpriseRollupRow`. -/
structure RollupView (T : Type) where
  enterpriseId : String
  tenantId : String
  totals : Totals T
deriving DecidableEq

/-! ### In memory -/

structure EnterpriseRollupRow (T : Type) where
  enterpriseId : String
  tenantId : String
  totals : Totals T
  seenIds : List String
  summaries : List (UsageSummary T)

def Totals.zero : Totals T where
  runCount := 0
  tokenTotal := 0
  costTotal := none
  unknownPricingTokens := 0
  unknownPricingRuns := 0
  errorCount := 0
  durationSecondsTotal := 0
  summaryCount := 0
  windowStart := none
  windowEnd := none

def earlier (current : Option T) (start : T) : Option T :=
  match current with
  | none => some start
  | some old => if start < old then some start else some old

def later (current : Option T) (stop : T) : Option T :=
  match current with
  | none => some stop
  | some old => if old < stop then some stop else some old

/-- The increments of `EnterpriseRollupRow.apply`. -/
def Totals.add (totals : Totals T) (s : Figures T) : Totals T where
  runCount := totals.runCount + s.runCount
  tokenTotal := totals.tokenTotal + s.tokenTotal
  costTotal := addCost totals.costTotal s.pricing.cost
  unknownPricingTokens :=
    if s.pricing = .unknown then totals.unknownPricingTokens + s.tokenTotal
    else totals.unknownPricingTokens
  unknownPricingRuns :=
    if s.pricing = .unknown then totals.unknownPricingRuns + s.runCount
    else totals.unknownPricingRuns
  errorCount := totals.errorCount + s.errorCount
  durationSecondsTotal := totals.durationSecondsTotal + s.durationSecondsTotal
  summaryCount := totals.summaryCount + 1
  windowStart := earlier totals.windowStart s.windowStart
  windowEnd := later totals.windowEnd s.windowEnd

namespace EnterpriseRollupRow

def fresh (enterpriseId tenantId : String) : EnterpriseRollupRow T where
  enterpriseId := enterpriseId
  tenantId := tenantId
  totals := .zero
  seenIds := []
  summaries := []

/-- `apply`: an id that was seen is skipped. -/
def apply (row : EnterpriseRollupRow T) (s : UsageSummary T) :
    EnterpriseRollupRow T :=
  if s.summaryId ∈ row.seenIds then row
  else
    { row with
      totals := row.totals.add s.figures
      seenIds := s.summaryId :: row.seenIds
      summaries := row.summaries ++ [s] }

def view (row : EnterpriseRollupRow T) : RollupView T where
  enterpriseId := row.enterpriseId
  tenantId := row.tenantId
  totals := row.totals

end EnterpriseRollupRow

/-- `CrossEnterpriseRollupRepository`: a dictionary in insertion order. -/
structure MemoryRepository (T : Type) where
  rows : List (EnterpriseRollupRow T)

namespace MemoryRepository

def empty : MemoryRepository T := ⟨[]⟩

def row (repo : MemoryRepository T) (enterpriseId : String) :
    Option (EnterpriseRollupRow T) :=
  lookup EnterpriseRollupRow.enterpriseId enterpriseId repo.rows

def applySummary (repo : MemoryRepository T) (call : Call T) :
    MemoryRepository T :=
  let row := (repo.row call.enterpriseId).getD
    (.fresh call.enterpriseId call.tenantId)
  ⟨upsert EnterpriseRollupRow.enterpriseId (row.apply call.summary) repo.rows⟩

/-- `get`, none where it raises `NotFound`. -/
def get (repo : MemoryRepository T) (enterpriseId : String) :
    Option (RollupView T) :=
  (repo.row enterpriseId).map (·.view)

def listAll (repo : MemoryRepository T) : List (RollupView T) :=
  repo.rows.map (·.view)

def summariesFor (repo : MemoryRepository T) (enterpriseId : String) :
    List (UsageSummary T) :=
  match repo.row enterpriseId with
  | none => []
  | some row => row.summaries

def allSummaries (repo : MemoryRepository T) :
    List (String × UsageSummary T) :=
  repo.rows.flatMap fun row => row.summaries.map (row.enterpriseId, ·)

end MemoryRepository

/-! ### PostgreSQL -/

/-- A row of `operation_rollup_seen`.  `created_at` grows with the place in the
table: an overwritten row keeps both. -/
structure SeenRow (T : Type) where
  enterpriseId : String
  summaryId : String
  tenantId : String
  employeeId : Option String
  figures : Figures T

def SeenRow.key (row : SeenRow T) : String × String :=
  (row.enterpriseId, row.summaryId)

/-- A row of `cross_enterprise_usage_rollup`. -/
structure RollupRow (T : Type) where
  enterpriseId : String
  tenantId : String
  runCount : Int
  tokenTotal : Int
  costTotal : Option ℚ
  errorCount : Int
  durationSecondsTotal : Int
  summaryCount : Nat
  windowStart : Option T
  windowEnd : Option T

/-- A value of the type `integer`. -/
def isInteger (value : Int) : Prop :=
  -2147483648 ≤ value ∧ value ≤ 2147483647

instance (value : Int) : Decidable (isInteger value) :=
  inferInstanceAs (Decidable (_ ∧ _))

/-- The integer columns of a seen row hold the figures. -/
def Figures.Fits (figures : Figures T) : Prop :=
  isInteger figures.runCount ∧ isInteger figures.tokenTotal ∧
    isInteger figures.errorCount ∧ isInteger figures.durationSecondsTotal ∧
    ∀ version ∈ figures.pricingVersion, isInteger version

instance (figures : Figures T) : Decidable figures.Fits :=
  inferInstanceAs (Decidable (_ ∧ _ ∧ _ ∧ _ ∧ _))

/-- The aggregates of the statements over the seen rows of an enterprise. -/
def aggregate (items : List (Figures T)) : Totals T where
  runCount := (items.map (·.runCount)).sum
  tokenTotal := (items.map (·.tokenTotal)).sum
  costTotal := sumKnownCost items
  unknownPricingTokens :=
    ((items.filter (·.pricing = .unknown)).map (·.tokenTotal)).sum
  unknownPricingRuns :=
    ((items.filter (·.pricing = .unknown)).map (·.runCount)).sum
  errorCount := (items.map (·.errorCount)).sum
  durationSecondsTotal := (items.map (·.durationSecondsTotal)).sum
  summaryCount := items.length
  windowStart := (items.map (·.windowStart)).min?
  windowEnd := (items.map (·.windowEnd)).max?

/-- The integer columns of a rollup row hold the totals. -/
def Totals.Fits (totals : Totals T) : Prop :=
  isInteger totals.runCount ∧ isInteger totals.tokenTotal ∧
    isInteger totals.errorCount ∧ isInteger totals.durationSecondsTotal ∧
    isInteger totals.summaryCount

instance (totals : Totals T) : Decidable totals.Fits :=
  inferInstanceAs (Decidable (_ ∧ _ ∧ _ ∧ _ ∧ _))

structure PgRepository (T : Type) where
  seen : List (SeenRow T)
  rollups : List (RollupRow T)

namespace PgRepository

def empty : PgRepository T := ⟨[], []⟩

def seenOf (seen : List (SeenRow T)) (enterpriseId : String) :
    List (SeenRow T) :=
  seen.filter (·.enterpriseId = enterpriseId)

/-- The second statement: an enterprise that has a row keeps its tenant. -/
def recompute (rollups : List (RollupRow T)) (enterpriseId tenantId : String)
    (totals : Totals T) : List (RollupRow T) :=
  let kept := (lookup RollupRow.enterpriseId enterpriseId rollups).map
    (·.tenantId)
  upsert RollupRow.enterpriseId
    { enterpriseId := enterpriseId
      tenantId := kept.getD tenantId
      runCount := totals.runCount
      tokenTotal := totals.tokenTotal
      costTotal := totals.costTotal
      errorCount := totals.errorCount
      durationSecondsTotal := totals.durationSecondsTotal
      summaryCount := totals.summaryCount
      windowStart := totals.windowStart
      windowEnd := totals.windowEnd } rollups

def seenRow (call : Call T) : SeenRow T where
  enterpriseId := call.enterpriseId
  summaryId := call.summary.summaryId
  tenantId := call.tenantId
  employeeId := call.summary.employeeId
  figures := call.summary.figures

/-- `apply_summary`, one transaction; none where a statement raises because a
value is out of the range of its integer column. -/
def applySummary (repo : PgRepository T) (call : Call T) :
    Option (PgRepository T) :=
  let seen := upsert SeenRow.key (seenRow call) repo.seen
  let totals := aggregate ((seenOf seen call.enterpriseId).map (·.figures))
  if call.summary.figures.Fits ∧ totals.Fits then
    some
      { seen := seen
        rollups := recompute repo.rollups call.enterpriseId call.tenantId
          totals }
  else none

/-- The columns read from the rollup row, with the cost and the unknown
pricing from the seen rows. -/
def view (repo : PgRepository T) (row : RollupRow T) : RollupView T :=
  let read := aggregate ((seenOf repo.seen row.enterpriseId).map (·.figures))
  { enterpriseId := row.enterpriseId
    tenantId := row.tenantId
    totals :=
      { runCount := row.runCount
        tokenTotal := row.tokenTotal
        costTotal := read.costTotal
        unknownPricingTokens := read.unknownPricingTokens
        unknownPricingRuns := read.unknownPricingRuns
        errorCount := row.errorCount
        durationSecondsTotal := row.durationSecondsTotal
        summaryCount := row.summaryCount
        windowStart := row.windowStart
        windowEnd := row.windowEnd } }

def row (repo : PgRepository T) (enterpriseId : String) :
    Option (RollupRow T) :=
  lookup RollupRow.enterpriseId enterpriseId repo.rollups

def get (repo : PgRepository T) (enterpriseId : String) :
    Option (RollupView T) :=
  (repo.row enterpriseId).map repo.view

def listAll (repo : PgRepository T) : List (RollupView T) :=
  repo.rollups.map repo.view

/-- `_to_summary`: neither the employee nor the tenant of the seen row is
read back. -/
def toSummary (tenantId : String) (row : SeenRow T) : UsageSummary T where
  summaryId := row.summaryId
  tenantId := tenantId
  employeeId := none
  figures := row.figures

def tenantOf (repo : PgRepository T) (enterpriseId : String) : String :=
  ((repo.row enterpriseId).map (·.tenantId)).getD ""

def summariesFor (repo : PgRepository T) (enterpriseId : String) :
    List (UsageSummary T) :=
  (seenOf repo.seen enterpriseId).map (toSummary (repo.tenantOf enterpriseId))

/-- `ORDER BY s.enterprise_id, s.created_at`. -/
def allSummaries (repo : PgRepository T) : List (String × UsageSummary T) :=
  (repo.seen.insertionSort
      fun left right => left.enterpriseId ≤ right.enterpriseId).map
    fun row => (row.enterpriseId, toSummary (repo.tenantOf row.enterpriseId) row)

end PgRepository

end AiTeam.Rollup
