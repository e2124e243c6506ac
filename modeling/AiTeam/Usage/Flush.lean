/-
`UsageFlushService` and the Manager it uploads to.  A flush is a thread that
waits for one upload at a time; uploads travel on their own, so one may reach
the Manager long after its call timed out.  What the Manager decides before it
stores anything, timeouts and clock readings are inputs.
-/
import AiTeam.Courier
import AiTeam.Machine
import AiTeam.Usage.Store

namespace AiTeam.Usage

open Courier (Lanes Thread)

structure Caller where
  tenantId : String
  memberId : String
deriving DecidableEq

/-- What the flush reads of an upload that failed. -/
structure UploadError where
  status : Option Nat
  problemCode : Option String
  message : String
deriving DecidableEq

def isEmployeeNotGranted (error : UploadError) : Bool :=
  error.problemCode = some "employee_not_granted"

def isEndpointMissing (error : UploadError) : Bool :=
  error.status = some 404

def isWordChar (c : Char) : Bool :=
  c.isAlphanum || c = '_'

/-- The status, or the text, of the error is 401 or 403: the pattern
`\b(?:401|403)\b` matches a maximal run of word characters. -/
def isAccessDenial (error : UploadError) : Bool :=
  error.status = some 401 || error.status = some 403 ||
    (error.message.toList.splitOnP fun c => !isWordChar c).any fun word =>
      word = "401".toList || word = "403".toList

/-! ### The Manager -/

/-- A row of `usage_rollup`. -/
structure UsageRollup where
  tenantId : String
  summaryId : String
  employeeId : Option String
  memberId : Option String
  windowStart : String
  windowEnd : String
  counters : Counters
  costTotal : Option Amount
  pricingVersion : Option Int
  pricingStatus : PricingStatus
deriving DecidableEq

def UsageRollup.key (row : UsageRollup) : String × String :=
  (row.tenantId, row.summaryId)

def nonEmpty (text : String) : Option String :=
  if text = "" then none else some text

/-- `_usage_payload` of an accepted item, as the row it is stored in.  A known
price without a cost counts as unknown, and an unknown price has neither cost
nor version. -/
def usageRollup (tenantId : String) (item : UsageSummary) : UsageRollup where
  tenantId := tenantId
  summaryId := item.summaryId
  employeeId := nonEmpty item.employeeId
  memberId := nonEmpty item.memberId
  windowStart := item.windowStart
  windowEnd := item.windowEnd
  counters := item.counters
  costTotal := if item.pricingStatus = .known then item.costTotal else none
  pricingVersion :=
    if item.pricingStatus = .known ∧ item.costTotal.isSome then
      item.pricingVersion
    else none
  pricingStatus :=
    if item.pricingStatus = .known ∧ item.costTotal.isSome then .known
    else .unknown

def problem (status : Nat) (code detail : String) : UploadError :=
  { status := some status, problemCode := some code,
    message := "Manager returned HTTP " ++ toString status ++
      " for /api/manager/usage/upload: " ++ detail }

/-- `WHERE (EXCLUDED.x IS NULL OR usage_rollup.x = EXCLUDED.x)`. -/
def attributionMatches (stored excluded : Option String) : Bool :=
  excluded = none || stored = excluded

/-- `_upsert_usage_in_session`. -/
def upsertUsage (rollups : List UsageRollup) (row : UsageRollup) :
    Except UploadError (List UsageRollup) :=
  match lookup UsageRollup.key row.key rollups with
  | none => .ok (rollups ++ [row])
  | some stored =>
      if attributionMatches stored.employeeId row.employeeId &&
          attributionMatches stored.memberId row.memberId then
        .ok (updateWhere (fun old => decide (old.key = row.key))
          (fun old => { row with
            employeeId := row.employeeId.or old.employeeId
            memberId := row.memberId.or old.memberId }) rollups)
      else .error (problem 409 "conflict"
        "usage summary attribution is immutable once assigned")

/-- `ingest_upload` of one current summary.  `granted` is the answer of the
tenant's employee and grant tables. -/
def ingestUpload (rollups : List UsageRollup) (ctx : Caller) (granted : Bool)
    (item : UsageSummary) : Except UploadError (List UsageRollup) :=
  if item.tenantId ≠ ctx.tenantId then
    .error (problem 403 "forbidden"
      "usage tenant_id must match the authenticated tenant")
  else if item.memberId ≠ "" ∧ item.memberId ≠ ctx.memberId then
    .error (problem 403 "forbidden"
      "UsageSummary member_id must match the authenticated member")
  else if item.employeeId = "" then
    .error (problem 422 "validation_error"
      "current UsageSummary employee_id is required")
  else if granted = false then
    .error (problem 403 "employee_not_granted"
      "usage employee is not granted to the authenticated member")
  else upsertUsage rollups (usageRollup ctx.tenantId item)

/-! ### Flushes and uploads -/

/-- A claimed row and the identity its upload runs under. -/
structure Upload where
  caller : Caller
  row : ClaimedRow
deriving DecidableEq

/-- `draws` numbers the claim tokens.  A flush remembers whether the Manager
lacks the endpoint for outcomes; an answer without an error accepts. -/
structure World where
  outbox : List OutboxRow
  draws : Nat
  lanes : Lanes Upload (Option UploadError) Bool
  rollups : List UsageRollup
deriving DecidableEq

def World.empty : World := ⟨[], 0, .empty, []⟩

/-- The loop of `flushInternal` up to its next await.  Once the Manager has no
endpoint for outcomes, outcome rows go back to pending. -/
def advance (unsupported : Bool) : List Upload → World → World
  | [], world => world
  | upload :: rest, world =>
      if upload.row.payload.kind = .segmentOutcome ∧ unsupported = true then
        advance unsupported rest
          { world with outbox := releaseUsageClaim world.outbox upload.row }
      else { world with lanes := world.lanes.start upload rest unsupported }

/-- The rest of the loop once access was denied. -/
def abandon (unsupported : Bool) : List Upload → World → World
  | [], world => world
  | upload :: rest, world =>
      abandon unsupported rest
        { world with
          outbox :=
            if upload.row.payload.kind = .segmentOutcome ∧
                unsupported = true then
              releaseUsageClaim world.outbox upload.row
            else markUsageFailed world.outbox upload.row }

/-- The awaited upload resolved or threw: settle its row and go on. -/
def resume (flush : Thread Upload Bool) (reply : Option UploadError)
    (world : World) : World :=
  let claimed := flush.row.row
  match reply with
  | none =>
      advance flush.memo flush.rest
        { world with outbox := markUsageSent world.outbox claimed }
  | some error =>
      if claimed.payload.kind = .segmentOutcome ∧ isEndpointMissing error then
        advance true flush.rest
          { world with outbox := releaseUsageClaim world.outbox claimed }
      else if isEmployeeNotGranted error then
        advance flush.memo flush.rest
          { world with outbox := markUsageRejected world.outbox claimed }
      else if isAccessDenial error then
        abandon flush.memo flush.rest
          { world with outbox := markUsageFailed world.outbox claimed }
      else
        advance flush.memo flush.rest
          { world with outbox := markUsageFailed world.outbox claimed }

/-- The Manager handles an upload.  `verdict` is an error it answers before
storing anything; outcomes go to a table of their own. -/
def deliver (upload : Upload) (verdict : Option UploadError) (granted : Bool)
    (rollups : List UsageRollup) : List UsageRollup × Option UploadError :=
  match verdict, upload.row.payload with
  | some error, _ => (rollups, some error)
  | none, .segmentOutcome _ => (rollups, none)
  | none, .usage item =>
      match ingestUpload rollups upload.caller granted item with
      | .ok stored => (stored, none)
      | .error error => (rollups, some error)

inductive Action where
  /-- A finished run is accumulated into the outbox. -/
  | accumulate (capture : UsageCapture) (now : Int)
  | publish (summary : SegmentOutcomeSummary) (now : Int)
  /-- `flush`, by the timer or by a request; outcomes may be held back. -/
  | flush (caller : Caller) (limit : Int) (outcomes : Bool)
  /-- An upload reaches the Manager. -/
  | arrive (upload : Nat) (verdict : Option UploadError) (granted : Bool)
  /-- The answer of an upload reaches the flush that waits for it. -/
  | answer (upload : Nat)
  /-- The call times out or its connection fails. -/
  | giveUp (upload : Nat) (error : UploadError)
  | restart
deriving DecidableEq

def stepWorld (config : Config) (world : World) : Action → World
  | .accumulate capture now =>
      { world with
        outbox := upsertUsageSummary config world.outbox
          (aggregateUsage config capture)
          ((measureWorkUsage capture.entries capture.pricing).bind
            (·.costTotal)) now }
  | .publish summary now =>
      { world with outbox := publishSegmentOutcome world.outbox summary now }
  | .flush caller limit outcomes =>
      let claimed := claimUsageOutbox world.outbox caller.tenantId
        caller.memberId limit outcomes world.draws
      advance false (claimed.2.map fun row => ⟨caller, row⟩)
        { world with outbox := claimed.1, draws := world.draws + 1 }
  | .arrive index verdict granted =>
      match world.lanes.wire[index]? with
      | some ⟨upload, .travelling⟩ =>
          let result := deliver upload verdict granted world.rollups
          { world with
            rollups := result.1
            lanes := world.lanes.answer index upload result.2 }
      | _ => world
  | .answer index =>
      match world.lanes.waiting index, world.lanes.wire[index]? with
      | some flush, some ⟨_, .answered reply⟩ =>
          resume flush reply { world with lanes := world.lanes.leave index }
      | _, _ => world
  | .giveUp index error =>
      match world.lanes.waiting index with
      | some flush => resume flush (some error)
          { world with lanes := world.lanes.leave index }
      | none => world
  | .restart =>
      { world with
        outbox := recoverOutbox world.outbox, lanes := world.lanes.crash }

def machine (config : Config) : Machine World Action Unit :=
  ⟨fun world action => (stepWorld config world action, [])⟩

end AiTeam.Usage
