/-
The Manager's delivery receipts for the Operator: the table
`usage_operator_delivery` and the statements of its repository.  Times are
milliseconds of the database clock.
-/
import Mathlib.Data.List.Sort
import AiTeam.Usage.Summary

namespace AiTeam.Delivery

open Usage (PricingStatus)

/-- A decimal numeral: digits, and how many of them follow the point. -/
structure Decimal where
  digits : Nat
  scale : Nat
deriving DecidableEq

/-- Addition of SQL numerics keeps the larger scale. -/
def Decimal.add (left right : Decimal) : Decimal :=
  let scale := max left.scale right.scale
  ⟨left.digits * 10 ^ (scale - left.scale) +
    right.digits * 10 ^ (scale - right.scale), scale⟩

/-- The fields of a normalized usage item that a delivery reads. -/
structure UsageItem where
  summaryId : String
  employeeId : Option String
  memberId : Option String
  windowStart : Int
  windowEnd : Int
  runCount : Nat
  tokenTotal : Nat
  costTotal : Option Decimal
  pricingVersion : Option Nat
  pricingStatus : PricingStatus
  errorCount : Nat
  durationSecondsTotal : Nat
deriving DecidableEq

/-- `NullableUsageSummaryPayload`.  The currency is a constant. -/
structure OperatorSummary where
  summaryId : String
  tenantId : String
  employeeId : Option String
  windowStart : Int
  windowEnd : Int
  runCount : Nat
  tokenTotal : Nat
  costTotal : Option Decimal
  pricingVersion : Option Nat
  pricingStatus : PricingStatus
  errorCount : Nat
  durationSecondsTotal : Nat
deriving DecidableEq

/-- `normalize_pricing_cost`: a known price without a cost is unknown, and an
unknown price has neither cost nor version. -/
def normalizePricing (summary : OperatorSummary) : OperatorSummary :=
  if summary.pricingStatus = .known ∧ summary.costTotal.isSome then summary
  else { summary with
    pricingStatus := .unknown, pricingVersion := none, costTotal := none }

def operatorSummaryPayload (item : UsageItem) (tenantId : String) :
    OperatorSummary :=
  normalizePricing
    { summaryId := item.summaryId, tenantId, employeeId := item.employeeId,
      windowStart := item.windowStart, windowEnd := item.windowEnd,
      runCount := item.runCount, tokenTotal := item.tokenTotal,
      costTotal :=
        if item.pricingStatus = .unknown then none else item.costTotal
      pricingVersion := item.pricingVersion,
      pricingStatus := item.pricingStatus, errorCount := item.errorCount,
      durationSecondsTotal := item.durationSecondsTotal }

theorem normalizePricing_idem (summary : OperatorSummary) :
    normalizePricing (normalizePricing summary) =
      normalizePricing summary := by
  by_cases h : summary.pricingStatus = .known ∧ summary.costTotal.isSome
  · simp [normalizePricing, h]
  · simp [normalizePricing, h]

theorem normalizePricing_ids (summary : OperatorSummary) :
    (normalizePricing summary).summaryId = summary.summaryId ∧
      (normalizePricing summary).tenantId = summary.tenantId := by
  rw [normalizePricing]
  split <;> exact ⟨rfl, rfl⟩

inductive DeliveryStatus where
  | pending
  | sending
  | sent
  | failed
deriving DecidableEq

/-- A receipt.  It is found by its tenant and summary, which are unique, in
place of its random id. -/
structure DeliveryRow where
  tenantId : String
  enterpriseId : Option String
  summaryId : String
  payload : OperatorSummary
  status : DeliveryStatus
  attempts : Nat
  nextAttemptAt : Option Int
  claimToken : Option Nat
  claimedAt : Option Int
  createdAt : Int
  memberId : Option String
  employeeId : Option String
deriving DecidableEq

def DeliveryRow.key (row : DeliveryRow) : String × String :=
  (row.tenantId, row.summaryId)

def maxDeliveryAttempts : Nat := 8

def deliveryBackoffBaseSeconds : Nat := 5

def deliveryBackoffMaxSeconds : Nat := 300

def deliveryClaimLeaseSeconds : Nat := 300

def retryDelaySeconds (attempts : Nat) : Nat :=
  min deliveryBackoffMaxSeconds
    (deliveryBackoffBaseSeconds * 2 ^ min (attempts - 1) 30)

/-- The conflict clause of the enqueue: a changed payload starts over. -/
def enqueueRow (payload : OperatorSummary) (item : UsageItem)
    (enterpriseId : Option String) (now : Int) (row : DeliveryRow) :
    DeliveryRow :=
  let row := { row with
    enterpriseId := enterpriseId.or row.enterpriseId
    memberId := item.memberId.or row.memberId
    employeeId := item.employeeId.or row.employeeId }
  if row.payload = payload then row
  else { row with
    payload, status := .pending, attempts := 0, nextAttemptAt := some now,
    claimToken := none, claimedAt := none }

/-- `WHERE (EXCLUDED.x IS NULL OR usage_operator_delivery.x = EXCLUDED.x)`. -/
def attributed (stored excluded : Option String) : Bool :=
  excluded = none || stored = excluded

def enqueueInSession (rows : List DeliveryRow) (tenantId : String)
    (item : UsageItem) (enterpriseId : Option String) (now : Int) :
    Except String (List DeliveryRow) :=
  let payload := operatorSummaryPayload item tenantId
  match lookup DeliveryRow.key (tenantId, item.summaryId) rows with
  | none => .ok (rows ++ [
      { tenantId, enterpriseId, summaryId := item.summaryId, payload,
        status := .pending, attempts := 0, nextAttemptAt := some now,
        claimToken := none, claimedAt := none, createdAt := now,
        memberId := item.memberId, employeeId := item.employeeId }])
  | some row =>
      if attributed row.employeeId item.employeeId &&
          attributed row.memberId item.memberId then
        .ok (updateWhere
          (fun row => decide (row.key = (tenantId, item.summaryId)))
          (enqueueRow payload item enterpriseId now) rows)
      else .error "usage delivery attribution is immutable once assigned"

def assignRow (enterpriseId : String) (row : DeliveryRow) : DeliveryRow :=
  { row with enterpriseId := some enterpriseId }

/-- `assign_enterprise_id`. -/
def assignEnterpriseId (rows : List DeliveryRow)
    (tenantId enterpriseId : String) : List DeliveryRow :=
  updateWhere (fun row => row.tenantId = tenantId && row.status ≠ .sent &&
      row.status ≠ .sending && row.enterpriseId ≠ some enterpriseId)
    (assignRow enterpriseId) rows

def leaseExpired (now : Int) (row : DeliveryRow) : Bool :=
  match row.claimedAt with
  | some claimedAt => claimedAt < now - deliveryClaimLeaseSeconds * 1000
  | none => false

/-- The rows whose last attempt ran out of its lease. -/
def exhausted (tenantId : String) (now : Int) (row : DeliveryRow) : Bool :=
  row.tenantId = tenantId && row.status = .sending &&
    row.attempts ≥ maxDeliveryAttempts && leaseExpired now row

def failRow (row : DeliveryRow) : DeliveryRow :=
  { row with
    status := .failed, nextAttemptAt := none, claimToken := none,
    claimedAt := none }

/-- `next_attempt_at <= now()`. -/
def attemptDue (now : Int) (row : DeliveryRow) : Bool :=
  match row.nextAttemptAt with
  | some nextAttemptAt => nextAttemptAt ≤ now
  | none => false

def due (tenantId : String) (now : Int) (row : DeliveryRow) : Bool :=
  row.tenantId = tenantId && row.enterpriseId ≠ none &&
    row.attempts < maxDeliveryAttempts &&
    (((row.status = .pending || row.status = .failed) &&
        attemptDue now row) ||
      (row.status = .sending && leaseExpired now row))

/-- `ORDER BY next_attempt_at, created_at`; nulls come last. -/
def dueBefore (left right : DeliveryRow) : Bool :=
  match left.nextAttemptAt, right.nextAttemptAt with
  | some first, some second =>
      first < second || (first = second && left.createdAt ≤ right.createdAt)
  | some _, none => true
  | none, some _ => false
  | none, none => left.createdAt ≤ right.createdAt

/-- The rows a claim takes.  `locked` are the rows other sessions hold, which
`SKIP LOCKED` passes over. -/
def selectDue (rows : List DeliveryRow) (tenantId : String) (limit : Int)
    (locked : List String) (now : Int) : List DeliveryRow :=
  ((rows.filter fun row => due tenantId now row &&
      decide (row.summaryId ∉ locked)).insertionSort
    fun left right => dueBefore left right).take (max 1 (min limit 32)).toNat

def claimRow (token : Nat) (now : Int) (row : DeliveryRow) : DeliveryRow :=
  { row with
    status := .sending, attempts := row.attempts + 1,
    claimToken := some token, claimedAt := some now }

/-- A claimed row as the worker holds it. -/
structure Claimed where
  tenantId : String
  enterpriseId : Option String
  summaryId : String
  payload : OperatorSummary
  attempts : Nat
  claimToken : Nat
deriving DecidableEq

def Claimed.key (claimed : Claimed) : String × String :=
  (claimed.tenantId, claimed.summaryId)

def claimDue (rows : List DeliveryRow) (tenantId : String) (limit : Int)
    (locked : List String) (now : Int) (token : Nat) :
    List DeliveryRow × List Claimed :=
  let taken := selectDue rows tenantId limit locked now
  (updateWhere (fun row => decide (row.key ∈ taken.map DeliveryRow.key))
      (claimRow token now)
      (updateWhere (exhausted tenantId now) failRow rows),
    taken.map fun row => ⟨row.tenantId, row.enterpriseId, row.summaryId,
      row.payload, row.attempts + 1, token⟩)

/-- `WHERE id = ? AND status = 'sending' AND claim_token = ?`. -/
def holdsClaim (claimed : Claimed) (row : DeliveryRow) : Bool :=
  row.key = claimed.key && row.status = .sending &&
    row.claimToken = some claimed.claimToken

def sentRow (row : DeliveryRow) : DeliveryRow :=
  { row with
    status := .sent, nextAttemptAt := none, claimToken := none,
    claimedAt := none }

def markSent (rows : List DeliveryRow) (claimed : Claimed) :
    List DeliveryRow :=
  updateWhere (holdsClaim claimed) sentRow rows

def retryRow (claimed : Claimed) (now : Int) (row : DeliveryRow) :
    DeliveryRow :=
  { row with
    status := .failed
    nextAttemptAt :=
      if row.attempts ≥ maxDeliveryAttempts then none
      else some (now + retryDelaySeconds claimed.attempts * 1000)
    claimToken := none
    claimedAt := none }

def markFailed (rows : List DeliveryRow) (claimed : Claimed) (now : Int) :
    List DeliveryRow :=
  updateWhere (holdsClaim claimed) (retryRow claimed now) rows

/-! ### How the statements change a row -/

@[simp] theorem enqueueRow_key (payload : OperatorSummary) (item : UsageItem)
    (enterpriseId : Option String) (now : Int) (row : DeliveryRow) :
    (enqueueRow payload item enterpriseId now row).key = row.key := by
  simp only [enqueueRow]
  split <;> rfl

variable {tenantId : String} {now : Int} {row : DeliveryRow}

theorem selectDue_mem {rows : List DeliveryRow} {limit : Int}
    {locked : List String} (h : row ∈ selectDue rows tenantId limit locked now)
    : row ∈ rows ∧ due tenantId now row := by
  have hsorted := List.mem_of_mem_take h
  rw [List.mem_insertionSort, List.mem_filter, Bool.and_eq_true] at hsorted
  exact ⟨hsorted.1, hsorted.2.1⟩

theorem due_enterpriseId (h : due tenantId now row) :
    row.enterpriseId ≠ none := by
  simp only [due, Bool.and_eq_true, decide_eq_true_eq] at h
  exact h.1.1.2

/-- A row out of attempts is not due. -/
theorem due_not_exhausted (h : due tenantId now row) :
    exhausted tenantId now row = false := by
  simp only [due, exhausted, Bool.and_eq_true, decide_eq_true_eq,
    Bool.and_eq_false_iff, decide_eq_false_iff_not] at h ⊢
  exact .inl (.inr (by omega))

end AiTeam.Delivery
