/-
The usage ledger of the Agent: work records start and finish, and a finished
record with a usage summary is accumulated in the same transaction, while
flushes claim, upload and settle the rows of the outbox.
-/
import AiTeam.Usage.Linked
import AiTeam.WorkRecord.Repository

namespace AiTeam.Usage

open WorkRecord (Conversation Participant Repository WorkFinish
  WorkHistorySegment WorkOwner WorkStart)

/-- The Agent's store and the uploads that are under way. -/
structure Ledger where
  repository : Repository
  usage : World
deriving DecidableEq

def Ledger.empty : Ledger := ⟨.empty, .empty⟩

/-- A finish that was committed with a usage summary. -/
structure Recorded where
  recordId : Nat
  capture : UsageCapture
deriving DecidableEq

inductive LedgerAction where
  | saveConversation (conversation : Conversation)
  | start (input : WorkStart)
  /-- `finish` as the session host calls it: the usage and the summary are
  those of its capture, and the model stub has none. -/
  | finish (recordId : Nat) (owner : WorkOwner) (finish : WorkFinish)
      (capture : Option UsageCapture) (now : Int)
  | importHistory (input : Participant) (segments : List WorkHistorySegment)
      (now : Int)
  | deleteConversation (conversationId : String)
      (tenantId memberId : Option String)
  | publish (summary : SegmentOutcomeSummary) (now : Int)
  | flush (caller : Caller) (limit : Int) (outcomes : Bool)
  | arrive (upload : Nat) (verdict : Option UploadError) (granted : Bool)
  | answer (upload : Nat)
  | giveUp (upload : Nat) (error : UploadError)
  | restart (now : Int)
deriving DecidableEq

/-- The `WorkFinish` of a capture. -/
def finishOf (finish : WorkFinish) (capture : Option UsageCapture) :
    WorkFinish :=
  { finish with
    usage := capture.bind fun capture =>
      measureWorkUsage capture.entries capture.pricing }

/-- What a committed finish leaves: with a capture, its summary is
accumulated. -/
def commitFinish (config : Config) (ledger : Ledger) (repository : Repository)
    (recordId : Nat) (capture : Option UsageCapture) (now : Int) :
    Ledger × List Recorded :=
  match capture with
  | none => ({ ledger with repository }, [])
  | some capture =>
      ({ repository,
         usage := stepWorld config ledger.usage (.accumulate capture now) },
        [⟨recordId, capture⟩])

def finishWork (config : Config) (ledger : Ledger) (recordId : Nat)
    (owner : WorkOwner) (finish : WorkFinish) (capture : Option UsageCapture)
    (now : Int) : Ledger × List Recorded :=
  match ledger.repository.finish recordId owner (finishOf finish capture)
      (capture.map (aggregateUsage config)) with
  | .ok (repository, true) =>
      commitFinish config ledger repository recordId capture now
  | _ => (ledger, [])

def stepLedger (config : Config) (ledger : Ledger) :
    LedgerAction → Ledger × List Recorded
  | .saveConversation conversation =>
      ({ ledger with
        repository := ledger.repository.saveConversation conversation }, [])
  | .start input =>
      match ledger.repository.start input with
      | .ok (repository, _) => ({ ledger with repository }, [])
      | .error _ => (ledger, [])
  | .finish recordId owner finish capture now =>
      finishWork config ledger recordId owner finish capture now
  | .importHistory input segments now =>
      match ledger.repository.importHistory input segments now with
      | .ok repository => ({ ledger with repository }, [])
      | .error _ => (ledger, [])
  | .deleteConversation conversationId tenantId memberId =>
      ({ ledger with
        repository := (ledger.repository.deleteConversation conversationId
          tenantId memberId).1 }, [])
  | .publish summary now =>
      ({ ledger with
        usage := stepWorld config ledger.usage (.publish summary now) }, [])
  | .flush caller limit outcomes =>
      ({ ledger with
        usage := stepWorld config ledger.usage
          (.flush caller limit outcomes) }, [])
  | .arrive upload verdict granted =>
      ({ ledger with
        usage := stepWorld config ledger.usage
          (.arrive upload verdict granted) }, [])
  | .answer upload =>
      ({ ledger with
        usage := stepWorld config ledger.usage (.answer upload) }, [])
  | .giveUp upload error =>
      ({ ledger with
        usage := stepWorld config ledger.usage (.giveUp upload error) }, [])
  | .restart now =>
      ({ repository := ledger.repository.restart now,
         usage := stepWorld config ledger.usage .restart }, [])

def ledgerMachine (config : Config) :
    Machine Ledger LedgerAction Recorded :=
  ⟨stepLedger config⟩

/-! ### Keys and folds -/

/-- What one row of the ledger stands for: an owner, an employee and an hour,
split by the version and the status of the pricing. -/
structure LedgerKey where
  tenantId : String
  memberId : String
  employeeId : String
  windowStart : String
  pricingVersion : Option Int
  pricingStatus : PricingStatus
deriving DecidableEq

def UsageSummary.key (summary : UsageSummary) : LedgerKey where
  tenantId := summary.tenantId
  memberId := summary.memberId
  employeeId := summary.employeeId
  windowStart := summary.windowStart
  pricingVersion := summary.pricingVersion
  pricingStatus := summary.pricingStatus

/-- The key a capture is accumulated under. -/
def UsageCapture.key (config : Config) (capture : UsageCapture) : LedgerKey :=
  (aggregateUsage config capture).key

def OutboxRow.ledgerKey (row : OutboxRow) : Option LedgerKey :=
  match row.payload with
  | .usage summary => some summary.key
  | .segmentOutcome _ => none

/-- The exact cost of a capture in USD units, when it is known. -/
def UsageCapture.units (capture : UsageCapture) : Option Nat :=
  if assistants capture.entries = [] then none
  else (measureTotals (assistants capture.entries) ⟨0, 0, 0, 0⟩).bind
    (measuredCost capture.pricing)

/-- The recorded captures of a key, oldest first. -/
def contributions (config : Config) (key : LedgerKey)
    (recorded : List Recorded) : List UsageCapture :=
  (recorded.map Recorded.capture).filter fun capture =>
    decide (capture.key config = key)

def countersOf (config : Config) (captures : List UsageCapture) : Counters :=
  (captures.map fun capture => (aggregateUsage config capture).counters).sum

def unitsOf (captures : List UsageCapture) : Nat :=
  (captures.filterMap UsageCapture.units).sum

/-- The decimal text behind an amount. -/
def Amount.decimal : Amount → String
  | .text decimal => decimal
  | .real decimal => decimal

/-- Payload and decimal cost of a row are the fold of a list of captures:
counters and exact cost are sums, and an unknown cost is shown nowhere as an
amount. -/
structure IsFold (config : Config) (key : LedgerKey)
    (captures : List UsageCapture) (payload : Payload) (cost : Option String)
    (summary : UsageSummary) : Prop where
  shows : payload = .usage summary
  attributed : summary.key = key
  counters : summary.counters = countersOf config captures
  known : key.pricingStatus = .known →
    cost = some (usdDecimal (unitsOf captures)) ∧
    summary.costTotal.map Amount.decimal =
      some (usdDecimal (unitsOf captures))
  unknown : key.pricingStatus = .unknown →
    cost = none ∧ summary.costTotal = none ∧ summary.costMinor = none

/-- The rows of a key: none without contributions, and otherwise one, which is
the fold of the contributions taken in any order. -/
def Books (config : Config) (key : LedgerKey) (captures : List UsageCapture)
    (rows : List OutboxRow) : Prop :=
  (captures = [] ∧ rows = []) ∨
    (captures ≠ [] ∧ ∃ row ∈ rows, (∀ other ∈ rows, other = row) ∧
      ∀ order : List UsageCapture, order.Perm captures →
        ∃ summary, IsFold config key order row.payload
          row.costTotalDecimal summary)

/-- Every record is recorded once, and the rows of every key are the fold of
what was recorded for it. -/
def Conserved (config : Config) (ledger : Ledger) (past : List Recorded) :
    Prop :=
  (past.map Recorded.recordId).Nodup ∧ ∀ key : LedgerKey,
    Books config key (contributions config key past)
      (ledger.usage.outbox.filter fun row => row.ledgerKey = some key)

end AiTeam.Usage
