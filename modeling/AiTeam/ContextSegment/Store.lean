/-
Context segments of the Agent: one row per context reset with the member's
verdict on it, and the counts of each employee hour that a change of verdicts
publishes.  Times are milliseconds since the epoch.
-/
import AiTeam.Usage.Linked

namespace AiTeam.ContextSegment

open Usage (Config OutboxRow SegmentOutcomeSummary publishSegmentOutcome)

inductive SegmentOutcome where
  | resolved | unresolved
deriving DecidableEq

inductive SegmentOutcomeReason where
  | offTopic | missingInfo | executionFailed | wrongResult | tooSlow | other
deriving DecidableEq

/-- `SEGMENT_EDIT_WINDOW_MS`. -/
def segmentEditWindowMs : Nat := 7 * 24 * 60 * 60 * 1000

def hourMs : Nat := 60 * 60 * 1000

structure SegmentOwner where
  tenantId : String
  memberId : String
deriving DecidableEq

structure SegmentEvaluation where
  outcome : Option SegmentOutcome
  reasons : List SegmentOutcomeReason
  note : Option String
  followUp : Bool
deriving DecidableEq

structure SegmentRow where
  owner : SegmentOwner
  conversationId : String
  segmentId : String
  employeeIds : List String
  messageCount : Nat
  outcome : Option SegmentOutcome
  reasons : List SegmentOutcomeReason
  note : Option String
  followUp : Bool
  revision : Nat
  createdAt : Nat
  evaluatedAt : Option Nat
  updatedAt : Nat
deriving DecidableEq

/-- The primary key of `context_segment`. -/
structure SegmentKey where
  owner : SegmentOwner
  conversationId : String
  segmentId : String
deriving DecidableEq

def SegmentRow.key (row : SegmentRow) : SegmentKey :=
  ⟨row.owner, row.conversationId, row.segmentId⟩

/-- One employee's UTC hour whose counts may have changed. -/
structure SegmentOutcomeBucket where
  employeeId : String
  hourStart : Nat
deriving DecidableEq

inductive ContextSegmentError where
  | segmentNotFound | revisionConflict | editWindowClosed
deriving DecidableEq

/-- `createdAt - (createdAt % HOUR_MS)`. -/
def hourStart (createdAt : Nat) : Nat :=
  createdAt - createdAt % hourMs

/-- The rows `hourlyCounts` selects, whatever their verdict. -/
def covers (owner : SegmentOwner) (employeeId : String) (start : Nat)
    (row : SegmentRow) : Bool :=
  row.owner = owner && start ≤ row.createdAt &&
    row.createdAt < start + hourMs && row.employeeIds.contains employeeId

structure Counts where
  evaluated : Nat
  resolved : Nat
deriving DecidableEq

def hourlyCounts (rows : List SegmentRow) (owner : SegmentOwner)
    (employeeId : String) (start : Nat) : Counts where
  evaluated := rows.countP fun row =>
    covers owner employeeId start row && row.outcome.isSome
  resolved := rows.countP fun row =>
    covers owner employeeId start row && row.outcome = some .resolved

/-- The text whose hash is the summary id. -/
def summaryText (config : Config) (owner : SegmentOwner)
    (employeeId : String) (start : Nat) : String :=
  "segment_outcome:" ++ owner.tenantId ++ ":" ++ owner.memberId ++ ":" ++
    employeeId ++ ":" ++ config.toISOString start

/-- `setUTCMinutes(0, 0, 0)` leaves the start of an hour as it is. -/
def segmentOutcomeSummary (config : Config) (owner : SegmentOwner)
    (employeeId : String) (start : Nat) (counts : Counts) :
    SegmentOutcomeSummary where
  summaryId := config.sha256
    (summaryText config owner employeeId (hourStart start))
  tenantId := owner.tenantId
  memberId := owner.memberId
  employeeId := employeeId
  windowStart := config.toISOString (hourStart start : Nat)
  windowEnd := config.toISOString (hourStart start + hourMs : Nat)
  evaluatedCount := counts.evaluated
  resolvedCount := counts.resolved

/-- The buckets of `notify`: each employee hour once, in the order of the
first segment that has it. -/
def outcomeBuckets (segments : List SegmentRow) : List SegmentOutcomeBucket :=
  (segments.flatMap fun segment => segment.employeeIds.map fun employeeId =>
    ⟨employeeId, hourStart segment.createdAt⟩).eraseDups

/-- `publishSegmentOutcomes`, over the segments as they are by then. -/
def publishSegmentOutcomes (config : Config) (rows : List SegmentRow)
    (owner : SegmentOwner) (now : Int) :
    List SegmentOutcomeBucket → List OutboxRow → List OutboxRow
  | [], outbox => outbox
  | bucket :: rest, outbox =>
      publishSegmentOutcomes config rows owner now rest
        (publishSegmentOutcome outbox (segmentOutcomeSummary config owner
          bucket.employeeId bucket.hourStart (hourlyCounts rows owner
            bucket.employeeId bucket.hourStart)) now)

/-- What an operation leaves: the table, the buckets it notifies of, and the
segment its caller gets back. -/
structure Change where
  rows : List SegmentRow
  owner : SegmentOwner
  buckets : List SegmentOutcomeBucket
  segment : Option SegmentRow
deriving DecidableEq

structure RecordInput where
  conversationId : String
  segmentId : String
  employeeIds : List String
  messageCount : Nat
  endedAt : Nat
  evaluation : Option SegmentEvaluation
deriving DecidableEq

def newSegment (owner : SegmentOwner) (input : RecordInput) : SegmentRow where
  owner := owner
  conversationId := input.conversationId
  segmentId := input.segmentId
  employeeIds := input.employeeIds
  messageCount := input.messageCount
  outcome := input.evaluation.bind SegmentEvaluation.outcome
  reasons := (input.evaluation.map SegmentEvaluation.reasons).getD []
  note := input.evaluation.bind SegmentEvaluation.note
  followUp := (input.evaluation.map SegmentEvaluation.followUp).getD false
  revision := 1
  createdAt := input.endedAt
  evaluatedAt := (input.evaluation.bind SegmentEvaluation.outcome).map
    fun _ => input.endedAt
  updatedAt := input.endedAt

/-- `record`: a replayed request changes nothing. -/
def record (rows : List SegmentRow) (owner : SegmentOwner)
    (input : RecordInput) : Change :=
  let row := newSegment owner input
  match lookup SegmentRow.key row.key rows with
  | some stored => ⟨rows, owner, [], some stored⟩
  | none => ⟨rows ++ [row], owner,
      if row.outcome.isSome then outcomeBuckets [row] else [], some row⟩

def setEvaluation (evaluation : SegmentEvaluation) (now : Nat)
    (row : SegmentRow) : SegmentRow :=
  let cleared := evaluation.outcome.isNone
  { row with
    outcome := evaluation.outcome
    reasons := if cleared then [] else evaluation.reasons
    note := if cleared then none else evaluation.note
    followUp := !cleared && evaluation.followUp
    revision := row.revision + 1
    evaluatedAt := if cleared then none else some now
    updatedAt := now }

/-- `evaluate`: only a changed outcome moves the counts. -/
def evaluate (rows : List SegmentRow) (key : SegmentKey)
    (evaluation : SegmentEvaluation) (expectedRevision now : Nat) :
    Except ContextSegmentError Change :=
  match lookup SegmentRow.key key rows with
  | none => .error .segmentNotFound
  | some current =>
      if current.revision ≠ expectedRevision then .error .revisionConflict
      else if current.createdAt + segmentEditWindowMs < now then
        .error .editWindowClosed
      else .ok
        { rows := updateWhere (fun row => decide (row.key = key) &&
            row.revision = expectedRevision) (setEvaluation evaluation now)
              rows
          owner := key.owner
          buckets := if current.outcome = evaluation.outcome then []
            else outcomeBuckets [current]
          segment := some (setEvaluation evaluation now current) }

def isOfConversation (owner : SegmentOwner) (conversationId : String)
    (row : SegmentRow) : Bool :=
  row.owner = owner && row.conversationId = conversationId

/-- `deleteConversation` of the segments. -/
def deleteConversation (rows : List SegmentRow) (owner : SegmentOwner)
    (conversationId : String) : Change where
  rows := rows.filter fun row => !isOfConversation owner conversationId row
  owner := owner
  buckets := outcomeBuckets (rows.filter fun row =>
    isOfConversation owner conversationId row && row.outcome.isSome)
  segment := none

end AiTeam.ContextSegment
