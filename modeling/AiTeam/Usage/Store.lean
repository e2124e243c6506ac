/-
The usage outbox of the Agent: the table `usage_summary_outbox` and the
statements that accumulate into it, claim its rows and settle the claims.
-/
import Mathlib.Data.List.Sort
import AiTeam.Usage.Summary

namespace AiTeam.Usage

/-- Absolute verdict counts of one employee hour; replaced, not added to. -/
structure SegmentOutcomeSummary where
  summaryId : String
  tenantId : String
  memberId : String
  employeeId : String
  windowStart : String
  windowEnd : String
  evaluatedCount : Nat
  resolvedCount : Nat
deriving DecidableEq

inductive Kind where
  | usage
  | segmentOutcome
deriving DecidableEq

inductive Payload where
  | usage (summary : UsageSummary)
  | segmentOutcome (summary : SegmentOutcomeSummary)
deriving DecidableEq

def Payload.kind : Payload → Kind
  | .usage _ => .usage
  | .segmentOutcome _ => .segmentOutcome

def Payload.memberId : Payload → String
  | .usage summary => summary.memberId
  | .segmentOutcome summary => summary.memberId

inductive OutboxStatus where
  | pending
  | sending
  | sent
  | failed
  | rejected
deriving DecidableEq

/-- A row; `claimToken` numbers the UUIDs that were drawn. -/
structure OutboxRow where
  summaryId : String
  tenantId : String
  memberId : String
  status : OutboxStatus
  attempts : Nat
  payload : Payload
  createdAt : Int
  claimToken : Option Nat
  costTotalDecimal : Option String
deriving DecidableEq

/-- The ids of the two kinds hash texts of different form, so a row is found
by its kind and its id. -/
def OutboxRow.key (row : OutboxRow) : Kind × String :=
  (row.payload.kind, row.summaryId)

/-- `json_object(...)` of the conflict clause: counters are added, the
attribution and the pricing of the row are kept. -/
def mergeSummary (config : Config) (old excluded : UsageSummary)
    (cumulativeCost : Option String) : UsageSummary where
  summaryId := excluded.summaryId
  tenantId := excluded.tenantId
  memberId := old.memberId
  employeeId := old.employeeId
  windowStart := old.windowStart
  windowEnd := old.windowEnd
  counters := old.counters + excluded.counters
  costMinor := cumulativeCost.map config.roundedMinor
  pricingVersion := old.pricingVersion
  pricingStatus := old.pricingStatus
  costTotal := cumulativeCost.map Amount.real

/-- `COALESCE(cost_total_decimal, json_extract(payload_json, '$.cost_total'))`
added to the new cost. -/
def cumulativeCost (config : Config) (row : OutboxRow) (old : UsageSummary)
    (cost : Option String) : Option String :=
  addUsageCost config
    ((row.costTotalDecimal.map Amount.text).or old.costTotal)
    (cost.map Amount.text)

/-- `ON CONFLICT(summary_id) DO UPDATE`. -/
def accumulateRow (config : Config) (summary : UsageSummary)
    (cost : Option String) (row : OutboxRow) : OutboxRow :=
  match row.payload with
  | .usage old =>
      { row with
        payload := .usage
          (mergeSummary config old summary (cumulativeCost config row old cost))
        costTotalDecimal := cumulativeCost config row old cost
        status := .pending }
  | .segmentOutcome _ => row

/-- The decimal cost a contribution is recorded with. -/
def recordedCost (config : Config) (summary : UsageSummary)
    (preciseCost : Option String) : Option String :=
  (usdUnits config ((preciseCost.map Amount.text).or summary.costTotal)).map
    usdDecimal

def upsertUsageSummary (config : Config) (outbox : List OutboxRow)
    (summary : UsageSummary) (preciseCost : Option String) (now : Int) :
    List OutboxRow :=
  let cost := recordedCost config summary preciseCost
  match lookup OutboxRow.key (.usage, summary.summaryId) outbox with
  | none => outbox ++ [
      { summaryId := summary.summaryId, tenantId := summary.tenantId,
        memberId := summary.memberId, status := .pending, attempts := 0,
        payload := .usage summary, createdAt := now, claimToken := none,
        costTotalDecimal := cost }]
  | some _ => updateWhere
      (fun row => decide (row.key = (Kind.usage, summary.summaryId)))
      (accumulateRow config summary cost) outbox

def replaceOutcome (summary : SegmentOutcomeSummary) (row : OutboxRow) :
    OutboxRow :=
  match row.payload with
  | .segmentOutcome _ =>
      { row with payload := .segmentOutcome summary, status := .pending }
  | .usage _ => row

/-- One bucket of `publishSegmentOutcomes`. -/
def publishSegmentOutcome (outbox : List OutboxRow)
    (summary : SegmentOutcomeSummary) (now : Int) : List OutboxRow :=
  let key := (Kind.segmentOutcome, summary.summaryId)
  match lookup OutboxRow.key key outbox with
  | some _ => updateWhere (fun row => decide (row.key = key))
      (replaceOutcome summary) outbox
  | none =>
      if summary.evaluatedCount = 0 then outbox
      else outbox ++ [
        { summaryId := summary.summaryId, tenantId := summary.tenantId,
          memberId := summary.memberId, status := .pending, attempts := 0,
          payload := .segmentOutcome summary, createdAt := now,
          claimToken := none, costTotalDecimal := none }]

/-- `ClaimedUsageOutboxRow`. -/
structure ClaimedRow where
  summaryId : String
  tenantId : String
  payload : Payload
  claimToken : Nat
deriving DecidableEq

def ClaimedRow.key (row : ClaimedRow) : Kind × String :=
  (row.payload.kind, row.summaryId)

def OutboxStatus.claimable (status : OutboxStatus) : Bool :=
  status = .pending || status = .failed

/-- The `WHERE` clause of the claim, for a flush that names its member. -/
def claimable (tenantId memberId : String) (outcomes : Bool)
    (row : OutboxRow) : Bool :=
  row.tenantId = tenantId && row.memberId ≠ "" && row.memberId = memberId &&
    row.status.claimable && (row.payload.kind = .usage || outcomes)

/-- `Math.min(Math.max(limit, 1), 100)`. -/
def claimLimit (limit : Int) : Nat :=
  (min (max limit 1) 100).toNat

/-- The rows a claim selects, oldest first. -/
def selectClaimable (outbox : List OutboxRow) (tenantId memberId : String)
    (limit : Int) (outcomes : Bool) : List OutboxRow :=
  ((outbox.filter (claimable tenantId memberId outcomes)).insertionSort
    fun left right => left.createdAt ≤ right.createdAt).take (claimLimit limit)

def claimRow (token : Nat) (row : OutboxRow) : OutboxRow :=
  { row with
    status := .sending, attempts := row.attempts + 1,
    claimToken := some token }

/-- `claimUsageOutbox`: the selected rows turn to sending under one token, and
the copies read before that are returned. -/
def claimUsageOutbox (outbox : List OutboxRow) (tenantId memberId : String)
    (limit : Int) (outcomes : Bool) (token : Nat) :
    List OutboxRow × List ClaimedRow :=
  let rows := selectClaimable outbox tenantId memberId limit outcomes
  (updateWhere (fun row => decide (row.key ∈ rows.map OutboxRow.key) &&
      row.status.claimable) (claimRow token) outbox,
    rows.map fun row => ⟨row.summaryId, row.tenantId, row.payload, token⟩)

/-- `WHERE summary_id = ? AND status = 'sending' AND claim_token = ?`. -/
def holdsClaim (claimed : ClaimedRow) (row : OutboxRow) : Bool :=
  row.key = claimed.key && row.status = .sending &&
    row.claimToken = some claimed.claimToken

/-- The statements that settle a claim differ in the status they leave and in
what they do to the number of attempts. -/
def settleRow (status : OutboxStatus) (attempts : Nat → Nat)
    (row : OutboxRow) : OutboxRow :=
  { row with status, attempts := attempts row.attempts, claimToken := none }

def settleClaim (status : OutboxStatus) (attempts : Nat → Nat)
    (outbox : List OutboxRow) (claimed : ClaimedRow) : List OutboxRow :=
  updateWhere (holdsClaim claimed) (settleRow status attempts) outbox

def markUsageSent : List OutboxRow → ClaimedRow → List OutboxRow :=
  settleClaim .sent fun attempts => attempts

def markUsageFailed : List OutboxRow → ClaimedRow → List OutboxRow :=
  settleClaim .failed fun attempts => attempts

def markUsageRejected : List OutboxRow → ClaimedRow → List OutboxRow :=
  settleClaim .rejected fun attempts => attempts

def releaseUsageClaim : List OutboxRow → ClaimedRow → List OutboxRow :=
  settleClaim .pending fun attempts => attempts - 1

def fillMember (row : OutboxRow) : OutboxRow :=
  { row with memberId := row.payload.memberId }

def failUnfinished (row : OutboxRow) : OutboxRow :=
  { row with status := .failed, claimToken := none }

/-- What opening the store does to the outbox after a restart. -/
def recoverOutbox (outbox : List OutboxRow) : List OutboxRow :=
  updateWhere (fun row => row.status = .sending) failUnfinished
    (updateWhere (fun row => row.memberId = "") fillMember outbox)

/-! ### How the statements change a row -/

@[simp] theorem accumulateRow_key (config : Config) (summary : UsageSummary)
    (cost : Option String) (row : OutboxRow) :
    (accumulateRow config summary cost row).key = row.key := by
  cases hpayload : row.payload <;>
    simp [accumulateRow, OutboxRow.key, Payload.kind, hpayload]

@[simp] theorem accumulateRow_tenantId (config : Config)
    (summary : UsageSummary) (cost : Option String) (row : OutboxRow) :
    (accumulateRow config summary cost row).tenantId = row.tenantId := by
  cases hpayload : row.payload <;> simp [accumulateRow, hpayload]

@[simp] theorem replaceOutcome_key (summary : SegmentOutcomeSummary)
    (row : OutboxRow) : (replaceOutcome summary row).key = row.key := by
  cases hpayload : row.payload <;>
    simp [replaceOutcome, OutboxRow.key, Payload.kind, hpayload]

@[simp] theorem replaceOutcome_tenantId (summary : SegmentOutcomeSummary)
    (row : OutboxRow) :
    (replaceOutcome summary row).tenantId = row.tenantId := by
  cases hpayload : row.payload <;> simp [replaceOutcome, hpayload]

theorem lookup_settleClaim (status : OutboxStatus) (attempts : Nat → Nat)
    (outbox : List OutboxRow) (claimed : ClaimedRow) (key : Kind × String) :
    lookup OutboxRow.key key (settleClaim status attempts outbox claimed) =
      (lookup OutboxRow.key key outbox).map fun row =>
        if holdsClaim claimed row then settleRow status attempts row
        else row :=
  lookup_updateWhere OutboxRow.key key (holdsClaim claimed)
    (settleRow status attempts) (fun _ => rfl) outbox

theorem lookup_claim (outbox : List OutboxRow) (tenantId memberId : String)
    (limit : Int) (outcomes : Bool) (token : Nat) (key : Kind × String) :
    lookup OutboxRow.key key (claimUsageOutbox outbox tenantId memberId limit
        outcomes token).1 =
      (lookup OutboxRow.key key outbox).map fun row =>
        if decide (row.key ∈ (selectClaimable outbox tenantId memberId limit
            outcomes).map OutboxRow.key) && row.status.claimable then
          claimRow token row
        else row :=
  lookup_updateWhere OutboxRow.key key _ (claimRow token) (fun _ => rfl)
    outbox

variable {tenantId : String} {outcomes : Bool} {row : OutboxRow}

theorem selectClaimable_mem {outbox : List OutboxRow} {memberId : String}
    {limit : Int}
    (h : row ∈ selectClaimable outbox tenantId memberId limit outcomes) :
    row ∈ outbox ∧ claimable tenantId memberId outcomes row := by
  have hsorted := List.mem_of_mem_take h
  rw [List.mem_insertionSort, List.mem_filter] at hsorted
  exact hsorted

theorem claimable_tenantId {memberId : String}
    (h : claimable tenantId memberId outcomes row) :
    row.tenantId = tenantId := by
  simp only [claimable, Bool.and_eq_true, decide_eq_true_eq] at h
  exact h.1.1.1.1

theorem claimable_memberId {memberId : String}
    (h : claimable tenantId memberId outcomes row) : row.memberId ≠ "" := by
  simp only [claimable, Bool.and_eq_true, decide_eq_true_eq] at h
  exact h.1.1.1.2

theorem claimable_status {memberId : String}
    (h : claimable tenantId memberId outcomes row) : row.status.claimable := by
  simp only [claimable, Bool.and_eq_true] at h
  exact h.1.2

end AiTeam.Usage
