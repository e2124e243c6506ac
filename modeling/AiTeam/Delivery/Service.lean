/-
The delivery workers of the Manager and the Operator they upload to.  The
Operator handles one request at a time: `ingest_rollup` runs the transaction
of `apply_summary` without yielding.
-/
import AiTeam.Courier
import AiTeam.Machine
import AiTeam.Delivery.Repository

namespace AiTeam.Delivery

open Courier (Lanes Thread)
open Usage (PricingStatus)

/-! ### The Operator -/

/-- A row of `operation_rollup_seen`. -/
structure SeenRow where
  enterpriseId : String
  summaryId : String
  tenantId : String
  employeeId : Option String
  runCount : Nat
  tokenTotal : Nat
  costTotal : Option Decimal
  errorCount : Nat
  durationSecondsTotal : Nat
  pricingVersion : Option Nat
  pricingStatus : PricingStatus
  windowStart : Int
  windowEnd : Int
deriving DecidableEq

def SeenRow.key (row : SeenRow) : String × String :=
  (row.enterpriseId, row.summaryId)

/-- A row of `cross_enterprise_usage_rollup`. -/
structure EnterpriseRollup where
  enterpriseId : String
  tenantId : String
  runCount : Nat
  tokenTotal : Nat
  costTotal : Option Decimal
  errorCount : Nat
  durationSecondsTotal : Nat
  summaryCount : Nat
  windowStart : Option Int
  windowEnd : Option Int
deriving DecidableEq

def seenRow (enterpriseId : String) (summary : OperatorSummary) : SeenRow where
  enterpriseId := enterpriseId
  summaryId := summary.summaryId
  tenantId := summary.tenantId
  employeeId := summary.employeeId
  runCount := summary.runCount
  tokenTotal := summary.tokenTotal
  costTotal := summary.costTotal
  errorCount := summary.errorCount
  durationSecondsTotal := summary.durationSecondsTotal
  pricingVersion := summary.pricingVersion
  pricingStatus := summary.pricingStatus
  windowStart := summary.windowStart
  windowEnd := summary.windowEnd

def upsertSeen (seen : List SeenRow) (row : SeenRow) : List SeenRow :=
  match lookup SeenRow.key row.key seen with
  | none => seen ++ [row]
  | some _ => updateWhere (fun old => decide (old.key = row.key))
      (fun _ => row) seen

def ofEnterprise (enterpriseId : String) (seen : List SeenRow) :
    List SeenRow :=
  seen.filter fun row => decide (row.enterpriseId = enterpriseId)

/-- `cost_total` of a row whose price is known. -/
def knownCost (row : SeenRow) : Option Decimal :=
  if row.pricingStatus = .known then row.costTotal else none

/-- `SUM` of decimals; no rows have no sum. -/
def sumDecimals : List Decimal → Option Decimal
  | [] => none
  | first :: rest => some (rest.foldl Decimal.add first)

/-- The subqueries of the recompute, over the rows of one enterprise. -/
def recompute (enterpriseId tenantId : String) (rows : List SeenRow) :
    EnterpriseRollup where
  enterpriseId := enterpriseId
  tenantId := tenantId
  runCount := (rows.map (·.runCount)).sum
  tokenTotal := (rows.map (·.tokenTotal)).sum
  costTotal := sumDecimals (rows.filterMap knownCost)
  errorCount := (rows.map (·.errorCount)).sum
  durationSecondsTotal := (rows.map (·.durationSecondsTotal)).sum
  summaryCount := rows.length
  windowStart := (rows.map (·.windowStart)).min?
  windowEnd := (rows.map (·.windowEnd)).max?

/-- The tables of the Operator. -/
structure Operator where
  seen : List SeenRow
  rollups : List EnterpriseRollup
deriving DecidableEq

/-- `apply_summary`: the tenant of an existing rollup stays. -/
def applySummary (operator : Operator) (enterpriseId tenantId : String)
    (summary : OperatorSummary) : Operator :=
  let seen := upsertSeen operator.seen (seenRow enterpriseId summary)
  let rows := ofEnterprise enterpriseId seen
  { seen
    rollups :=
      match lookup EnterpriseRollup.enterpriseId enterpriseId
          operator.rollups with
      | none => operator.rollups ++ [recompute enterpriseId tenantId rows]
      | some _ => updateWhere
          (fun old => decide (old.enterpriseId = enterpriseId))
          (fun old => recompute enterpriseId old.tenantId rows)
          operator.rollups }

/-! ### The workers -/

/-- `_operator_payload`: the enterprise and summary to upload, or nothing when
it raises. -/
def operatorPayload (claimed : Claimed) : Option (String × OperatorSummary) :=
  let summary := normalizePricing claimed.payload
  if summary.tenantId ≠ claimed.tenantId then none
  else claimed.enterpriseId.map fun enterpriseId => (enterpriseId, summary)

/-- `draws` numbers the claim tokens; the answer of an upload tells whether
the Operator accepted it. -/
structure World where
  rows : List DeliveryRow
  draws : Nat
  lanes : Lanes Claimed Bool Unit
  operator : Operator
deriving DecidableEq

def World.empty : World := ⟨[], 0, .empty, ⟨[], []⟩⟩

/-- The loop of `deliver_due` up to its next upload. -/
def advance (now : Int) : List Claimed → World → World
  | [], world => world
  | claimed :: rest, world =>
      match operatorPayload claimed with
      | none => advance now rest
          { world with rows := markFailed world.rows claimed now }
      | some _ => { world with lanes := world.lanes.start claimed rest () }

/-- The upload returned or raised: settle the receipt and go on. -/
def resume (worker : Thread Claimed Unit) (accepted : Bool) (now : Int)
    (world : World) : World :=
  advance now worker.rest
    { world with
      rows :=
        if accepted then markSent world.rows worker.row
        else markFailed world.rows worker.row now }

def deliver (operator : Operator) (claimed : Claimed) : Operator :=
  match operatorPayload claimed with
  | some (enterpriseId, summary) =>
      applySummary operator enterpriseId summary.tenantId summary
  | none => operator

inductive Action where
  /-- An Agent upload was retained and its receipt is enqueued with it. -/
  | enqueue (tenantId : String) (item : UsageItem)
      (enterpriseId : Option String) (now : Int)
  /-- `deliver_due` resolved the enterprise of the tenant. -/
  | assign (tenantId enterpriseId : String)
  /-- `deliver_due` claims, and uploads what it claimed. -/
  | claim (tenantId : String) (limit : Int) (locked : List String) (now : Int)
  /-- An upload reaches the Operator, which may refuse it. -/
  | arrive (upload : Nat) (accepted : Bool)
  | answer (upload : Nat) (now : Int)
  /-- The client times out or its connection fails. -/
  | giveUp (upload : Nat) (now : Int)
  | restart
deriving DecidableEq

def stepWorld (world : World) : Action → World
  | .enqueue tenantId item enterpriseId now =>
      match enqueueInSession world.rows tenantId item enterpriseId now with
      | .ok rows => { world with rows }
      | .error _ => world
  | .assign tenantId enterpriseId =>
      { world with
        rows := assignEnterpriseId world.rows tenantId enterpriseId }
  | .claim tenantId limit locked now =>
      let result := claimDue world.rows tenantId limit locked now world.draws
      advance now result.2
        { world with rows := result.1, draws := world.draws + 1 }
  | .arrive index accepted =>
      match world.lanes.wire[index]? with
      | some ⟨claimed, .travelling⟩ =>
          { world with
            operator :=
              if accepted then deliver world.operator claimed
              else world.operator
            lanes := world.lanes.answer index claimed accepted }
      | _ => world
  | .answer index now =>
      match world.lanes.waiting index, world.lanes.wire[index]? with
      | some worker, some ⟨_, .answered accepted⟩ =>
          resume worker accepted now
            { world with lanes := world.lanes.leave index }
      | _, _ => world
  | .giveUp index now =>
      match world.lanes.waiting index with
      | some worker => resume worker false now
          { world with lanes := world.lanes.leave index }
      | none => world
  | .restart => { world with lanes := world.lanes.crash }

def machine : Machine World Action Unit :=
  ⟨fun world action => (stepWorld world action, [])⟩

end AiTeam.Delivery
