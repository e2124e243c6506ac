/-
Soft quota evaluation of the Manager: the usage of a window against the
dimensions of a policy (`evaluate_quota`).
-/
import Mathlib.Data.Rat.Floor
import Mathlib.Algebra.Order.Group.Nat
import Mathlib.Tactic.Linarith

namespace AiTeam.Quota

/-- A JSON value of `dimensions`.  A number stands for what its key reads: its
decimal text or the double, taken as the rational it denotes. -/
inductive Dimension where
  | null
  | bool (value : Bool)
  | number (value : ℚ)
  | text (value : String)
  | compound
deriving DecidableEq

/-- How Python reads a text as a number; `none` is also a text that reads as
an infinity or as no number. -/
structure Numerals where
  decimal : String → Option ℚ
  float : String → Option ℚ

inductive Enforcement where
  | soft
  | hard
deriving DecidableEq

structure QuotaPolicyRow where
  policyId : String
  tenantId : String
  policySlug : String
  dimensions : List (String × Dimension)
  enforcement : Enforcement

/-- `dims.get(key)`, which answers `None` for a missing key as for a null. -/
def QuotaPolicyRow.dimension (policy : QuotaPolicyRow) (key : String) :
    Dimension :=
  (policy.dimensions.lookup key).getD .null

inductive PricingStatus where
  | known
  | unknown
deriving DecidableEq

structure UsageRollupRow where
  tenantId : String
  windowStart : Int
  windowEnd : Int
  runCount : Nat
  tokenTotal : Nat
  costTotal : Option ℚ
  pricingStatus : PricingStatus

/-- The fields of the aggregate that the evaluation reads.  An adapter may
leave the cost unknown; the SQL one answers the sum of the known costs. -/
structure Aggregate where
  runCount : Nat
  tokenTotal : Nat
  costTotal : Option ℚ
deriving DecidableEq

structure Repository where
  policies : List QuotaPolicyRow
  usage : List UsageRollupRow

structure TenantContext where
  tenantId : String

def Repository.getQuota (repo : Repository) (ctx : TenantContext)
    (policyId : String) : Option QuotaPolicyRow :=
  repo.policies.find? fun row =>
    row.tenantId = ctx.tenantId ∧ row.policyId = policyId

def UsageRollupRow.knownCost (row : UsageRollupRow) : ℚ :=
  if row.pricingStatus = .known then row.costTotal.getD 0 else 0

def Repository.aggregateUsage (repo : Repository) (ctx : TenantContext)
    (windowStart windowEnd : Int) : Aggregate :=
  let rows := repo.usage.filter fun row =>
    row.tenantId = ctx.tenantId ∧
      windowStart ≤ row.windowStart ∧ row.windowEnd ≤ windowEnd
  { runCount := (rows.map (·.runCount)).sum
    tokenTotal := (rows.map (·.tokenTotal)).sum
    costTotal := some (rows.map (·.knownCost)).sum }

inductive Failure where
  | notFound (message : String)
  | validation (message : String)
  /-- Python's own `TypeError` of a comparison, which nothing catches. -/
  | typeError
deriving DecidableEq

inductive ActionLabel where
  | alertThreshold
  | notifyOwner
  | suggestThrottle
  | blockNewRuns
  | withinBudget
deriving DecidableEq

inductive Severity where
  | info
  | warn
  | alert
deriving DecidableEq

/-- One part of the detail text, with the values it prints. -/
inductive DetailPart where
  | threshold (bound : Dimension)
  | cost (costTotal costCap : ℚ)
  | token (tokenTotal : Nat) (tokenCap : Dimension)
  | run (runCount : Nat) (runCap : Dimension)
  | within
deriving DecidableEq

structure QuotaEnforcementActionOut where
  policyId : String
  policySlug : String
  enforcement : Enforcement
  actions : List ActionLabel
  severity : Severity
  detail : List DetailPart
deriving DecidableEq

/-- What `str` prints for the values of a detail. -/
structure Printer where
  decimal : ℚ → String
  dimension : Dimension → String

def DetailPart.text (print : Printer) : DetailPart → String
  | .threshold bound => "已达告警阈值 threshold=" ++ print.dimension bound
  | .cost costTotal costCap =>
    "成本 " ++ print.decimal costTotal ++ " >= cap " ++ print.decimal costCap
  | .token tokenTotal tokenCap =>
    "token " ++ toString tokenTotal ++ " >= cap " ++ print.dimension tokenCap
  | .run runCount runCap =>
    "run_count " ++ toString runCount ++ " >= cap " ++ print.dimension runCap
  | .within => "配额内，无治理动作"

/-- The `detail` field of the answer. -/
def QuotaEnforcementActionOut.detailText (print : Printer)
    (out : QuotaEnforcementActionOut) : Option String :=
  if out.detail = [] then none
  else some ("; ".intercalate (out.detail.map (·.text print)))

section

variable (numerals : Numerals)

def notDecimal : Failure :=
  .validation "cost_total must be a non-negative decimal"

/-- `_to_decimal`: a missing value is zero. -/
def toDecimal : Dimension → Except Failure ℚ
  | .null => .ok 0
  | .bool _ => .error notDecimal
  | .number value => if value < 0 then .error notDecimal else .ok value
  | .text value =>
    match numerals.decimal value with
    | none => .error notDecimal
    | some value => if value < 0 then .error notDecimal else .ok value
  | .compound => .error notDecimal

/-- `float(denominator)`, a `TypeError` or `ValueError` of which is caught. -/
def toFloat : Dimension → Option ℚ
  | .null => none
  | .bool value => some (if value then 1 else 0)
  | .number value => some value
  | .text value => numerals.float value
  | .compound => none

/-- `_ratio`. -/
def ratio (numerator : ℚ) (denominator : Dimension) : Option ℚ :=
  match toFloat numerals denominator with
  | none => none
  | some d => if d ≤ 0 then none else some (numerator / d)

/-- Python's `or`: neither `None` nor zero counts as true. -/
def orElse (first second : Option ℚ) : Option ℚ :=
  match first with
  | some value => if value = 0 then second else some value
  | none => second

/-- The ratio compared with one, absent without a threshold. -/
def usageRatio (threshold : Dimension) (runCount : Nat) (costTotal : ℚ) :
    Option ℚ :=
  if threshold = .null then none
  else
    orElse (ratio numerals runCount threshold)
      (ratio numerals ⌊costTotal⌋ threshold)

/-- `cap is not None and used >= cap` of a counter. -/
def reaches (used : Nat) : Dimension → Except Failure Bool
  | .null => .ok false
  | .bool value => .ok (decide ((if value then 1 else 0) ≤ used))
  | .number value => .ok (decide (value ≤ used))
  | .text _ => .error .typeError
  | .compound => .error .typeError

end

/-- The lists and the severity that the evaluation builds up. -/
structure Draft where
  actions : List ActionLabel
  severity : Severity
  detail : List DetailPart

def Draft.empty : Draft where
  actions := []
  severity := .info
  detail := []

/-- One `if` of the evaluation: what it appends and the severity it sets. -/
def Draft.note (draft : Draft) (hit : Bool) (action : ActionLabel)
    (severity : Severity) (part : DetailPart) : Draft :=
  if hit then
    { actions := draft.actions ++ [action]
      severity := severity
      detail := draft.detail ++ [part] }
  else draft

/-- `if severity != "alert": severity = "warn"`. -/
def Draft.warned (draft : Draft) : Severity :=
  if draft.severity = .alert then .alert else .warn

/-- The hard mode, the answer without an action, and the output. -/
def Draft.conclude (draft : Draft) (policy : QuotaPolicyRow) :
    QuotaEnforcementActionOut :=
  let blocked : Draft :=
    if policy.enforcement = .hard ∧ draft.actions ≠ [] then
      { draft with
        actions := draft.actions ++ [.blockNewRuns]
        severity := .alert }
    else draft
  let final : Draft :=
    if blocked.actions = [] then
      { blocked with
        actions := [.withinBudget]
        detail := blocked.detail ++ [.within] }
    else blocked
  { policyId := policy.policyId
    policySlug := policy.policySlug
    enforcement := policy.enforcement
    actions := final.actions
    severity := final.severity
    detail := final.detail }

/-- `evaluate_quota` after the policy and the aggregate are read. -/
def evaluate (numerals : Numerals) (policy : QuotaPolicyRow)
    (agg : Aggregate) : Except Failure QuotaEnforcementActionOut := do
  let costTotal ← toDecimal numerals (agg.costTotal.elim .null .number)
  let costCap ← toDecimal numerals (policy.dimension "cost_cap_usd")
  let tokenCap := policy.dimension "token_cap"
  let runCap := policy.dimension "run_cap"
  let threshold := policy.dimension "alert_threshold"
  let draft := Draft.empty
  let ratio := usageRatio numerals threshold agg.runCount costTotal
  let draft := draft.note (ratio.any fun ratio => decide (1 ≤ ratio))
    .alertThreshold .warn (.threshold threshold)
  -- `cost_cap is not None` always holds here
  let draft := draft.note (decide (costCap ≤ costTotal))
    .notifyOwner .alert (.cost costTotal costCap)
  let tokenHit ← reaches agg.tokenTotal tokenCap
  let draft := draft.note tokenHit
    .notifyOwner draft.warned (.token agg.tokenTotal tokenCap)
  let runHit ← reaches agg.runCount runCap
  let draft := draft.note runHit
    .suggestThrottle draft.warned (.run agg.runCount runCap)
  return draft.conclude policy

def evaluateQuota (numerals : Numerals) (repo : Repository)
    (ctx : TenantContext) (policyId : String) (windowStart windowEnd : Int) :
    Except Failure QuotaEnforcementActionOut := do
  match repo.getQuota ctx policyId with
  | none => .error (.notFound "quota policy not found in this tenant")
  | some policy =>
    evaluate numerals policy (repo.aggregateUsage ctx windowStart windowEnd)

end AiTeam.Quota
