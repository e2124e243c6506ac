/-
Usage summaries as the Operator receives them, and what is aggregated from
them.  Costs are rationals, which add up exactly here.
-/
import Mathlib.Data.Rat.Defs
import Mathlib.Algebra.Order.Ring.Rat
import Mathlib.Algebra.BigOperators.Group.List.Basic
import Mathlib.Data.List.Induction
import Mathlib.Order.MinMax

namespace AiTeam.Rollup

variable {T : Type}

/-- `pricing_status` with `cost_total`: a known price has a cost, an unknown
one has none. -/
inductive Pricing where
  | unknown
  | known (cost : ℚ)
deriving DecidableEq

/-- `_known_cost`. -/
def Pricing.cost : Pricing → Option ℚ
  | .unknown => none
  | .known cost => some cost

/-- The figures of a summary, over the instants `T`. -/
structure Figures (T : Type) where
  windowStart : T
  windowEnd : T
  runCount : Int
  tokenTotal : Int
  pricing : Pricing
  pricingVersion : Option Int
  errorCount : Int
  durationSecondsTotal : Int
deriving DecidableEq

structure UsageSummary (T : Type) where
  summaryId : String
  tenantId : String
  employeeId : Option String
  figures : Figures T
deriving DecidableEq

/-- What is kept per enterprise. -/
structure Totals (T : Type) where
  runCount : Int
  tokenTotal : Int
  costTotal : Option ℚ
  unknownPricingTokens : Int
  unknownPricingRuns : Int
  errorCount : Int
  durationSecondsTotal : Int
  summaryCount : Nat
  windowStart : Option T
  windowEnd : Option T
deriving DecidableEq

/-- The sum of the known costs, null when there is none. -/
def sumKnownCost (items : List (Figures T)) : Option ℚ :=
  let costs := items.filterMap (·.pricing.cost)
  if costs = [] then none else some costs.sum

/-- One more known cost. -/
def addCost (total : Option ℚ) : Option ℚ → Option ℚ
  | none => total
  | some cost => some (total.getD 0 + cost)

theorem sumKnownCost_append (items : List (Figures T)) (item : Figures T) :
    sumKnownCost (items ++ [item]) =
      addCost (sumKnownCost items) item.pricing.cost := by
  cases hcost : item.pricing.cost with
  | none => simp [sumKnownCost, List.filterMap_append, hcost, addCost]
  | some cost =>
      by_cases hnil : items.filterMap (·.pricing.cost) = []
      · simp [sumKnownCost, List.filterMap_append, hcost, addCost, hnil]
      · simp [sumKnownCost, List.filterMap_append, hcost, addCost, hnil]

end AiTeam.Rollup
