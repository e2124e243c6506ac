/-
Prompt receipts of the Agent store: the tables a reservation touches and the
statements of `storage/sqlite.ts` and `storage/automation-tasks.ts` on them.
-/
import AiTeam.Schedule.Definition
import AiTeam.Table
import AiTeam.Unicode

namespace AiTeam.Receipt

open AiTeam.Schedule

/-- The columns of `conversation` that scheduling reads. -/
structure Conversation where
  id : String
  tenantId : Option String
  memberId : Option String
  scheduleJson : Option ScheduleJson
  scheduleGeneration : Nat
deriving DecidableEq

structure ReceiptKey where
  conversationId : String
  callerId : String
  key : String
deriving DecidableEq

inductive ReceiptState where
  | accepted | completed | unknown
deriving DecidableEq

/-- A row of `idempotency_receipt`.  Owner instances are fresh numbers in
place of the random UUIDs. -/
structure IdempotencyReceipt where
  key : ReceiptKey
  fingerprint : String
  state : ReceiptState
  ownerInstance : Nat
  leaseExpiresAt : Option Int
  lastEntryId : Option String
  failureCode : Option String
  failureDetail : Option String
deriving DecidableEq

/-- A row of `schedule_retry`. -/
structure Retry where
  conversationId : String
  scheduleId : String
  occurrenceAt : Int
  revision : Int
  scheduleGeneration : Nat
  blockReason : String
deriving DecidableEq

/-- A row of `schedule_occurrence`. -/
structure Occurrence where
  id : String
  conversationId : String
  tenantId : String
  memberId : String
  scheduleId : String
  scheduledAt : Int
  revision : Int
  callerId : Option String
  receiptKey : Option String
  reason : Option String
deriving DecidableEq

structure Store where
  conversations : List Conversation
  receipts : List IdempotencyReceipt
  retries : List Retry
  occurrences : List Occurrence
  /-- The instance id of this process. -/
  instanceId : Nat
  /-- The next random UUID. -/
  nextInstance : Nat
deriving DecidableEq

def getConversation (store : Store) (id : String) : Option Conversation :=
  lookup Conversation.id id store.conversations

def getReceipt (store : Store) (key : ReceiptKey) :
    Option IdempotencyReceipt :=
  lookup IdempotencyReceipt.key key store.receipts

def clearScheduleRetry (store : Store) (conversationId : String) : Store :=
  { store with
    retries := store.retries.filter (·.conversationId != conversationId) }

/-- `INSERT INTO schedule_retry ... ON CONFLICT(conversation_id) DO UPDATE`. -/
def setScheduleRetry (store : Store) (retry : Retry) : Store :=
  { store with
    retries :=
      store.retries.filter (·.conversationId != retry.conversationId) ++
        [retry] }

/-- `AutomationTaskRepository.occurrence`: the upsert on the unique occurrence
key.  A primary key taken by another occurrence fails the statement. -/
def upsertOccurrence (store : Store) (row : Occurrence) : Option Store :=
  let sameOccurrence (old : Occurrence) : Bool :=
    old.conversationId == row.conversationId &&
    old.scheduleId == row.scheduleId && old.scheduledAt == row.scheduledAt
  let replaceable (old : Occurrence) : Bool :=
    old.receiptKey.isNone || row.receiptKey.isSome ||
    !store.receipts.any fun receipt =>
      receipt.key.conversationId == old.conversationId &&
      some receipt.key.callerId == old.callerId &&
      some receipt.key.key == old.receiptKey
  if store.occurrences.any sameOccurrence then
    some { store with
      occurrences := updateWhere
        (fun old => sameOccurrence old && replaceable old)
        (fun old => { old with
          callerId := row.callerId.or old.callerId,
          receiptKey := row.receiptKey.or old.receiptKey,
          reason := row.reason }) store.occurrences }
  else if store.occurrences.any (·.id == row.id) then none
  else some { store with occurrences := store.occurrences ++ [row] }

/-- `saveConversation`: the generation counts schedule mutations. -/
def saveConversation (store : Store) (record : Conversation)
    (scheduleMutation : Bool) : Store :=
  match getConversation store record.id with
  | none =>
      { store with
        conversations :=
          store.conversations ++ [{ record with scheduleGeneration := 0 }] }
  | some previous =>
      let bump : Nat := if scheduleMutation ||
        previous.scheduleJson != record.scheduleJson then 1 else 0
      { store with
        conversations := updateWhere (·.id == record.id)
          (fun row => { row with
            tenantId := record.tenantId, memberId := record.memberId,
            scheduleJson := record.scheduleJson,
            scheduleGeneration := previous.scheduleGeneration + bump })
          store.conversations }

/-- `updateConversation` with a schedule in its patch, after the task guard. -/
def updateSchedule (store : Store) (id : String)
    (schedule : Option ScheduleJson) : Store :=
  match getConversation store id with
  | none => store
  | some current =>
      clearScheduleRetry (saveConversation store
        { current with scheduleJson := schedule } true) id

/-! ### Reservations -/

structure ReserveInput where
  key : ReceiptKey
  fingerprint : String
  leaseMs : Option Int
  oneShot : Bool
  scheduleId : Option String
  scheduleRevision : Option Int
  scheduleGeneration : Option Nat
  clearScheduleRetry : Bool
  occurrenceAt : Option Int
deriving DecidableEq

inductive ReserveError where
  /-- `IdempotencyConflictError`. -/
  | conflict
  /-- `IdempotencyUnknownError`. -/
  | unknown
  /-- `ScheduleRevisionConflictError`. -/
  | scheduleRevision
  /-- A failed statement or a missing conversation. -/
  | failed
deriving DecidableEq

/-- The returned receipt: whether it is new, its state and owner, and the
generation a one-shot reservation leaves behind. -/
structure Reservation where
  key : ReceiptKey
  state : ReceiptState
  ownerInstance : Nat
  isNew : Bool
  scheduleGeneration : Option Nat
deriving DecidableEq

def defaultLeaseMs : Int := 30000

/-- The schedule a caller names is the stored one. -/
def scheduleIs (conversation : Conversation) (scheduleId : String)
    (revision : Int) : Bool :=
  conversation.scheduleJson.any fun schedule =>
    schedule.scheduleId == some scheduleId &&
    schedule.revision == some revision

/-- `json_set(COALESCE(schedule_json, '{}'), '$.enabled', ...)` and the next
generation. -/
def setEnabled (enabled : Bool) (conversation : Conversation) :
    Conversation :=
  { conversation with
    scheduleJson := some
      { conversation.scheduleJson.getD .empty with enabled := some enabled },
    scheduleGeneration := conversation.scheduleGeneration + 1 }

/-- The rows the one-shot `UPDATE` selects: absent arguments match all. -/
def oneShotSelects (input : ReserveInput) (row : Conversation) : Bool :=
  row.id == input.key.conversationId &&
  input.scheduleId.all (fun id =>
    row.scheduleJson.any (·.scheduleId == some id)) &&
  input.scheduleRevision.all (fun revision =>
    row.scheduleJson.any (·.revision == some revision)) &&
  input.scheduleGeneration.all (· == row.scheduleGeneration)

/-- The check before a one-shot reservation: schedule id, revision, enabled
flag and, when given, the generation. -/
def scheduleCurrent (store : Store) (input : ReserveInput)
    (scheduleId : String) (revision : Int) : Bool :=
  (getConversation store input.key.conversationId).any fun current =>
    scheduleIs current scheduleId revision &&
    current.scheduleJson.any (·.enabled == some true) &&
    input.scheduleGeneration.all (· == current.scheduleGeneration)

/-- The check after the one-shot update. -/
def scheduleClosed (store : Store) (input : ReserveInput)
    (scheduleId : String) (revision : Int) : Bool :=
  (getConversation store input.key.conversationId).any fun current =>
    scheduleIs current scheduleId revision &&
    current.scheduleJson.any (·.enabled == some false) &&
    input.scheduleGeneration.all (· + 1 == current.scheduleGeneration)

def newReceipt (store : Store) (input : ReserveInput) (now : Int) :
    IdempotencyReceipt where
  key := input.key
  fingerprint := input.fingerprint
  state := .accepted
  ownerInstance := store.nextInstance
  leaseExpiresAt := some (now + input.leaseMs.getD defaultLeaseMs)
  lastEntryId := none
  failureCode := none
  failureDetail := none

/-- `if (scheduleId !== undefined && scheduleRevision !== undefined)`: run a
check on the named schedule. -/
def checkSchedule (input : ReserveInput)
    (check : String → Int → Bool) : Except ReserveError Unit :=
  match input.scheduleId, input.scheduleRevision with
  | some scheduleId, some revision =>
      if check scheduleId revision then .ok () else .error .scheduleRevision
  | _, _ => .ok ()

/-- The occurrence row of a scheduled reservation. -/
def recordOccurrence (store : Store) (input : ReserveInput) :
    Except ReserveError Store :=
  match input.occurrenceAt, input.scheduleId with
  | some occurrenceAt, some scheduleId =>
      if scheduleId == "" then .ok store else
      match getConversation store input.key.conversationId with
      | some ⟨id, some tenantId, some memberId, _, _⟩ =>
          match input.scheduleRevision.bind fun revision =>
              upsertOccurrence store
                { id := input.key.key, conversationId := id, tenantId,
                  memberId, scheduleId, scheduledAt := occurrenceAt, revision,
                  callerId := some input.key.callerId,
                  receiptKey := some input.key.key, reason := none } with
          | some next => .ok next
          | none => .error .failed
      | _ => .error .failed
  | _, _ => .ok store

def insertReceipt (store : Store) (input : ReserveInput) (now : Int) :
    Store :=
  { store with
    receipts := store.receipts ++ [newReceipt store input now],
    nextInstance := store.nextInstance + 1 }

/-- A one-shot reservation closes its schedule. -/
def closeOneShot (store : Store) (input : ReserveInput) : Store :=
  if input.oneShot then
    { store with
      conversations := updateWhere (oneShotSelects input) (setEnabled false)
        store.conversations }
  else store

/-- The new-receipt branch of `reservePrompt`, inside its transaction. -/
def reserveNew (store : Store) (input : ReserveInput) (now : Int) :
    Except ReserveError Store := do
  let inserted := insertReceipt store input now
  checkSchedule input (scheduleCurrent inserted input)
  let closed := closeOneShot inserted input
  checkSchedule input fun scheduleId revision =>
    !input.oneShot || scheduleClosed closed input scheduleId revision
  let recorded ← recordOccurrence closed input
  return if input.clearScheduleRetry then
    Receipt.clearScheduleRetry recorded input.key.conversationId
    else recorded

def leaseExpired (receipt : IdempotencyReceipt) (now : Int) : Bool :=
  receipt.leaseExpiresAt.all (· ≤ now)

def expiredDetail : String :=
  "Accepted execution lease expired; outcome is unknown and will not be " ++
  "replayed"

/-- `UPDATE ... SET state = 'unknown' ... WHERE key AND state = 'accepted'`. -/
def expireReceipt (store : Store) (key : ReceiptKey) : Store :=
  { store with
    receipts := updateWhere
      (fun row => row.key == key && row.state == .accepted)
      (fun row => { row with
        state := .unknown, leaseExpiresAt := none,
        failureCode := some "execution_unknown",
        failureDetail := some expiredDetail }) store.receipts }

def toReservation (receipt : IdempotencyReceipt) : Reservation :=
  ⟨receipt.key, receipt.state, receipt.ownerInstance, false, none⟩

/-- `reservePrompt`.  A raised error rolls the transaction back, except that
an uncertain receipt is committed as unknown before its error. -/
def reservePrompt (store : Store) (input : ReserveInput) (now : Int) :
    Store × Except ReserveError Reservation :=
  match getReceipt store input.key with
  | some existing =>
      if existing.fingerprint != input.fingerprint then
        (store, .error .conflict)
      else
        match existing.state with
        | .completed => (store, .ok (toReservation existing))
        | .unknown => (store, .error .unknown)
        | .accepted =>
            if !leaseExpired existing now then
              (store, .ok (toReservation existing))
            else (expireReceipt store input.key, .error .unknown)
  | none =>
      match reserveNew store input now with
      | .error error => (store, .error error)
      | .ok next =>
          (next, .ok ⟨input.key, .accepted, store.nextInstance, true,
            if input.oneShot then input.scheduleGeneration.map (· + 1)
            else none⟩)

/-! ### The rest of the receipt's life -/

/-- The receipt an owner may still change. -/
def owned (key : ReceiptKey) (owner : Nat) (row : IdempotencyReceipt) :
    Bool :=
  row.key == key && row.state == .accepted && row.ownerInstance == owner

def renewLease (store : Store) (key : ReceiptKey) (owner : Option Nat)
    (leaseMs : Option Int) (now : Int) : Store :=
  { store with
    receipts := updateWhere (owned key (owner.getD store.instanceId))
      (fun row => { row with
        leaseExpiresAt := some (now + leaseMs.getD defaultLeaseMs) })
      store.receipts }

def markCompleted (store : Store) (key : ReceiptKey)
    (lastEntryId : Option String) (owner : Option Nat) : Store :=
  { store with
    receipts := updateWhere (owned key (owner.getD store.instanceId))
      (fun row => { row with
        state := .completed, leaseExpiresAt := none, lastEntryId,
        failureCode := none, failureDetail := none }) store.receipts }

/-- `text.slice(0, n)`, which counts UTF-16 units; half a pair is stored as the
replacement character. -/
def slice (n : Nat) (text : String) : String :=
  let units := (Unicode.utf16 (Unicode.lit text)).take n
  String.ofList ((Unicode.points units).map
    fun c => Char.ofNat (Unicode.replaced c))

def markUnknown (store : Store) (key : ReceiptKey) (owner : Option Nat)
    (retryAfterMs : Option Int) (code detail : Option String) (now : Int) :
    Store :=
  { store with
    receipts := updateWhere (owned key (owner.getD store.instanceId))
      (fun row => { row with
        state := .unknown,
        leaseExpiresAt := some (now + retryAfterMs.getD defaultLeaseMs),
        failureCode := some ((code.map (slice 96)).getD "execution_unknown"),
        failureDetail := some ((detail.map (slice 300)).getD
          "Execution outcome is unknown; do not retry automatically") })
      store.receipts }

structure RetryInput where
  scheduleId : String
  occurrenceAt : Int
  revision : Int
  scheduleGeneration : Nat
  blockReason : Option String
deriving DecidableEq

/-- The captured schedule identity is still the stored one. -/
def scheduleMatches (store : Store) (conversationId : String)
    (retry : RetryInput) : Bool :=
  (getConversation store conversationId).any fun current =>
    scheduleIs current retry.scheduleId retry.revision &&
    current.scheduleGeneration == retry.scheduleGeneration

/-- The two statements that reopen a released one-shot schedule. -/
def reopenSchedule (store : Store) (conversationId : String)
    (retry : RetryInput) : Store :=
  setScheduleRetry
    { store with
      conversations := updateWhere
        (fun row => row.id == conversationId &&
          scheduleIs row retry.scheduleId retry.revision &&
          row.scheduleGeneration == retry.scheduleGeneration)
        (setEnabled true) store.conversations }
    { conversationId, scheduleId := retry.scheduleId,
      occurrenceAt := retry.occurrenceAt, revision := retry.revision,
      scheduleGeneration := retry.scheduleGeneration + 1,
      blockReason := slice 96
        (retry.blockReason.getD "authorization_required") }

/-- `releasePreExecutionPrompt`.  The deletion is committed whether or not the
schedule still matches; only the returned flag tells the two apart. -/
def releasePreExecutionPrompt (store : Store) (key : ReceiptKey)
    (owner : Option Nat) (oneShot : Bool) (retry : Option RetryInput) :
    Store × Bool :=
  let owns := owned key (owner.getD store.instanceId)
  let deleted := { store with
    receipts := store.receipts.filter (fun row => !owns row) }
  if store.receipts.any owns then
    match oneShot, retry with
    | true, some retry =>
        if scheduleMatches store key.conversationId retry then
          (reopenSchedule deleted key.conversationId retry, true)
        else (deleted, false)
    | _, _ => (deleted, true)
  else (deleted, false)

/-- `normalizeReceiptOnRead`. -/
def normalizeReceiptOnRead (store : Store) (row : IdempotencyReceipt)
    (now : Int) : Store :=
  if row.state == .accepted && leaseExpired row now then
    expireReceipt store row.key
  else store

/-- `getPromptReceipt`. -/
def getPromptReceipt (store : Store) (key : ReceiptKey) (now : Int) : Store :=
  match getReceipt store key with
  | some row => normalizeReceiptOnRead store row now
  | none => store

/-- `listPromptReceipts`: every row of the caller is normalized. -/
def listPromptReceipts (store : Store) (conversationId callerId : String)
    (now : Int) : Store :=
  (store.receipts.filter fun row =>
    row.key.conversationId == conversationId &&
    row.key.callerId == callerId).foldl
      (fun store row => normalizeReceiptOnRead store row now) store

/-- The start of a process: a new instance id, and every accepted receipt of
another instance or with an expired lease is uncertain. -/
def restart (store : Store) (now : Int) : Store :=
  { store with
    receipts := updateWhere
      (fun row => row.state == .accepted &&
        (row.ownerInstance != store.nextInstance || leaseExpired row now))
      (fun row => { row with
        state := .unknown, leaseExpiresAt := none,
        failureCode := some "process_restart",
        failureDetail :=
          some "Execution state was not proven across Agent restart" })
      store.receipts,
    instanceId := store.nextInstance,
    nextInstance := store.nextInstance + 1 }

end AiTeam.Receipt
