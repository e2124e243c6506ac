/-
`ScheduleService`: what one tick does to one conversation, and how the prompts
it launched settle.  Clock readings, authorization answers and prompt outcomes
are inputs.
-/
import AiTeam.Machine
import AiTeam.Receipt.Store

namespace AiTeam.Schedule

open AiTeam.Receipt

structure Config where
  temporal : Temporal
  /-- The hex SHA-256 of a text. -/
  digest : String → String
  /-- `new Date(instant).toISOString()`. -/
  isoString : Int → String
  /-- `JSON.stringify` of the prompt text, schedule id and occurrence. -/
  fingerprintJson : String → String → String → String
  /-- An authorization registry is configured. -/
  authorization : Bool

/-- A configuration that runs: UTC days and texts in place of their hashes. -/
def Config.plain : Config where
  temporal :=
    { knownZone := fun _ => true
      toPlainDate := fun _ instant => instant / 86400000
      dayOfWeek := fun date => ((date + 3) % 7).toNat + 1
      day := fun date => (date % 31).toNat + 1
      toZonedDateTime := fun _ date _ => date * 86400000
      readsBack := fun _ _ _ => true }
  digest := id
  isoString := fun instant => toString instant
  fingerprintJson := fun text id occurrence => text ++ id ++ occurrence
  authorization := true

/-- An entry of `retryableOccurrences`. -/
structure Retryable where
  conversationId : String
  scheduleId : String
  occurrence : Int
  revision : Int
  scheduleGeneration : Nat
deriving DecidableEq

/-- A launched prompt whose promise is not settled. -/
structure Prompt where
  key : ReceiptKey
  ownerInstance : Nat
  tenantId : String
  memberId : String
  schedule : ConversationSchedule
  occurrence : Int
  scheduleGeneration : Option Nat
deriving DecidableEq

/-- The store and the memory of the service.  `draws` numbers the random
UUIDs: every step that may draw one draws its own. -/
structure Service where
  store : Store
  lastTick : Option Int
  retryable : List Retryable
  prompts : List Prompt
  draws : Nat
deriving DecidableEq

/-- A row of `listScheduledConversations`, with its retry marker. -/
structure Record where
  conversation : Conversation
  tenantId : String
  memberId : String
  scheduleJson : ScheduleJson
  retry : Option Retry
deriving DecidableEq

def listScheduledConversations (store : Store) : List Record :=
  store.conversations.filterMap fun row =>
    match row.tenantId, row.memberId, row.scheduleJson with
    | some tenantId, some memberId, some scheduleJson =>
        some ⟨row, tenantId, memberId, scheduleJson,
          lookup Retry.conversationId row.id store.retries⟩
    | _, _, _ => none

/-- What an observer of the scheduler sees.  `generation` is the one of the
snapshot that produced the occurrence. -/
inductive Event where
  | launched (conversationId memberId scheduleId : String) (occurrence : Int)
      (generation owner : Nat)
  | skipped (conversationId memberId scheduleId : String) (occurrence : Int)
      (reason : String)
  | released (conversationId scheduleId : String) (occurrence : Int)
      (owner : Nat)
deriving DecidableEq

/-- The receipt key and occurrence id of an occurrence. -/
def occurrenceKey (config : Config) (scheduleId : String) (occurrence : Int)
    (conversationId : String) : String :=
  config.digest (encodeScope [scheduleId, config.isoString occurrence,
    conversationId])

/-- The identity a scheduled prompt runs as: a registered caller is known
under its member id. -/
def callerId (config : Config) (tenantId memberId : String) : String :=
  if config.authorization then memberId
  else "schedule:" ++ tenantId ++ ":" ++ memberId

/-- `observe`. -/
def observe (config : Config) (store : Store) (conversationId tenantId
    memberId : String) (schedule : ConversationSchedule) (occurrence : Int)
    (reason : String) : Option Store :=
  upsertOccurrence store
    { id := occurrenceKey config schedule.scheduleId occurrence
        conversationId
      conversationId, tenantId, memberId, scheduleId := schedule.scheduleId,
      scheduledAt := occurrence, revision := schedule.revision,
      callerId := none, receiptKey := none, reason := some reason }

def dropRetryable (service : Service) (conversationId : String) : Service :=
  { service with
    retryable :=
      service.retryable.filter (·.conversationId != conversationId) }

def setRetryable (service : Service) (retry : Retryable) : Service :=
  { service with
    retryable := service.retryable.filter
      (·.conversationId != retry.conversationId) ++ [retry] }

def Retryable.current (retry : Retryable) (schedule : ConversationSchedule)
    (generation : Nat) : Bool :=
  retry.revision == schedule.revision &&
  retry.scheduleId == schedule.scheduleId &&
  retry.scheduleGeneration == generation

/-- `persistedRetryMatches`. -/
def retryCurrent (retry : Retry) (schedule : ConversationSchedule)
    (generation : Nat) : Bool :=
  retry.scheduleId == schedule.scheduleId &&
  retry.revision == schedule.revision &&
  retry.scheduleGeneration == generation

/-- The occurrence a tick finds due, and whether it is a retry. -/
def dueOccurrence (config : Config) (service : Service) (record : Record)
    (schedule : ConversationSchedule) (previous now : Int) :
    Option (Int × Bool) :=
  let generation := record.conversation.scheduleGeneration
  let remembered := (lookup Retryable.conversationId record.conversation.id
    service.retryable).filter (·.current schedule generation)
  let persisted := record.retry.filter
    (retryCurrent · schedule generation)
  match remembered, persisted with
  | some retry, _ => some (retry.occurrence, true)
  | none, some retry => some (retry.occurrenceAt, true)
  | none, none =>
      (occurrenceBetween config.temporal schedule previous now).map (·, false)

def reserveInput (config : Config) (record : Record)
    (schedule : ConversationSchedule) (occurrence : Int) : ReserveInput where
  key := ⟨record.conversation.id,
    callerId config record.tenantId record.memberId,
    occurrenceKey config schedule.scheduleId occurrence
      record.conversation.id⟩
  fingerprint := config.digest (config.fingerprintJson
    schedule.promptTemplate schedule.scheduleId (config.isoString occurrence))
  leaseMs := none
  oneShot := schedule.oneShot
  scheduleId := some schedule.scheduleId
  scheduleRevision := some schedule.revision
  scheduleGeneration := some record.conversation.scheduleGeneration
  clearScheduleRetry := true
  occurrenceAt := some occurrence

/-- `launch` with a resolved identity: the outcome is the returned flag, or
none when the store failed. -/
def launch (config : Config) (service : Service) (record : Record)
    (schedule : ConversationSchedule) (occurrence clock : Int) :
    Service × Option Bool × List Event :=
  let conversationId := record.conversation.id
  match reservePrompt service.store
      (reserveInput config record schedule occurrence) clock with
  | (store, .error .failed) => ({ service with store }, none, [])
  | (store, .error _) =>
      (dropRetryable { service with store } conversationId, some false, [])
  | (store, .ok receipt) =>
      if receipt.isNew then
        ({ service with
            store,
            prompts := service.prompts ++
              [⟨receipt.key, receipt.ownerInstance, record.tenantId,
                record.memberId, schedule, occurrence,
                receipt.scheduleGeneration⟩] },
          some true,
          [.launched conversationId record.memberId schedule.scheduleId
            occurrence record.conversation.scheduleGeneration
            receipt.ownerInstance])
      else
        (dropRetryable { service with store } conversationId, some false, [])

/-- The answers a visit gets: whether the conversation is prompting, and the
registry at the check before the launch, in the launch and after it. -/
structure Answers where
  prompting : Bool
  check : Bool
  launch : Bool
  after : Bool
deriving DecidableEq

/-- How the loop body ends for one conversation. -/
inductive Visited where
  | passed
  /-- The watermark is kept behind an occurrence without identity. -/
  | blocked
  /-- At the await of `launch`. -/
  | awaiting (launched retrying : Bool)
  /-- The store failed and the tick is rejected. -/
  | aborted
deriving DecidableEq

/-- The loop body for a due occurrence. -/
def visitDue (config : Config) (service : Service) (record : Record)
    (schedule : ConversationSchedule) (occurrence : Int) (retrying : Bool)
    (answers : Answers) (clock : Int) : Service × Visited × List Event :=
  let id := record.conversation.id
  let skip (reason : String) (ended : Visited) :
      Service × Visited × List Event :=
    match observe config service.store id record.tenantId record.memberId
        schedule occurrence reason with
    | none => (service, .aborted, [])
    | some store =>
        ({ service with store }, ended,
          [.skipped id record.memberId schedule.scheduleId occurrence reason])
  if answers.prompting then skip "overlap_skip" .passed
  else if config.authorization && !answers.check then
    skip "authorization_required" .blocked
  else if config.authorization && !answers.launch then
    (service, .awaiting false retrying, [])
  else
    match launch config service record schedule occurrence clock with
    | (service, none, events) => (service, .aborted, events)
    | (service, some launched, events) =>
        (service, .awaiting launched retrying, events)

/-- Drop the retry markers of another schedule or generation. -/
def dropStaleRetries (service : Service) (record : Record)
    (schedule : ConversationSchedule) : Service :=
  let id := record.conversation.id
  let generation := record.conversation.scheduleGeneration
  let service :=
    if (lookup Retryable.conversationId id service.retryable).any
      (fun retry => !retry.current schedule generation)
    then dropRetryable service id else service
  if record.retry.any (fun retry => !retryCurrent retry schedule generation)
  then { service with store := clearScheduleRetry service.store id }
  else service

/-- Drop the retry markers of a disabled schedule. -/
def dropRetries (service : Service) (record : Record) : Service :=
  let id := record.conversation.id
  let service := dropRetryable service id
  if record.retry.isSome then
    { service with store := clearScheduleRetry service.store id }
  else service

/-- The loop body of `tick` for one conversation, up to the await of
`launch`. -/
def visit (config : Config) (service : Service) (previous now : Int)
    (record : Record) (answers : Answers) (clock : Int) :
    Service × Visited × List Event :=
  match validateSchedule config.temporal record.scheduleJson with
  | .error _ => (service, .passed, [])
  | .ok schedule =>
      if record.tenantId == "" || record.memberId == "" then
        (service, .passed, [])
      else
        let fresh := dropStaleRetries service record schedule
        if !schedule.enabled then (dropRetries fresh record, .passed, [])
        else
          match dueOccurrence config service record schedule previous now with
          | none => (fresh, .passed, [])
          | some (occurrence, retrying) =>
              visitDue config fresh record schedule occurrence retrying
                answers clock

/-- After the await: a launched retry is forgotten. -/
def resume (service : Service) (conversationId : String)
    (launched retrying : Bool) : Service :=
  if launched && retrying then dropRetryable service conversationId
  else service

/-! ### Settled prompts -/

inductive Outcome where
  | completed (lastEntryId : String)
  | notSettled
  /-- `PreExecutionAuthorizationError`. -/
  | preExecution (detail : String)
  | failed (detail : String)
deriving DecidableEq

/-- The in-memory retry of a released prompt. -/
def rememberRetry (service : Service) (prompt : Prompt) : Service :=
  match getConversation service.store prompt.key.conversationId with
  | some current =>
      if scheduleIs current prompt.schedule.scheduleId
          prompt.schedule.revision then
        setRetryable service
          ⟨prompt.key.conversationId, prompt.schedule.scheduleId,
            prompt.occurrence, prompt.schedule.revision,
            current.scheduleGeneration⟩
      else service
  | none => service

def retryInput (prompt : Prompt) (generation : Nat) : RetryInput :=
  ⟨prompt.schedule.scheduleId, prompt.occurrence, prompt.schedule.revision,
    generation, some "authorization_required"⟩

/-- The rejection handler of `launch` for a pre-execution failure. -/
def releasePrompt (config : Config) (service : Service) (prompt : Prompt)
    (generation : Nat) (detail : String) (clock : Int) :
    Service × List Event :=
  match releasePreExecutionPrompt service.store prompt.key
      (some prompt.ownerInstance) prompt.schedule.oneShot
      (some (retryInput prompt generation)) with
  | (store, true) =>
      let next := match observe config store prompt.key.conversationId
          prompt.tenantId prompt.memberId prompt.schedule prompt.occurrence
          "authorization_required" with
        | some observed =>
            rememberRetry { service with store := observed } prompt
        | none => { service with store }
      (next, [.released prompt.key.conversationId prompt.schedule.scheduleId
        prompt.occurrence prompt.ownerInstance])
  | (store, false) =>
      ({ service with
          store := markUnknown store prompt.key (some prompt.ownerInstance)
            none (some "execution_failed") (some detail) clock }, [])

/-- The handlers of one settled prompt. -/
def settle (config : Config) (service : Service) (prompt : Prompt)
    (outcome : Outcome) (clock : Int) : Service × List Event :=
  let owner := some prompt.ownerInstance
  match outcome with
  | .completed lastEntryId =>
      ({ service with
          store := markCompleted service.store prompt.key (some lastEntryId)
            owner }, [])
  | .notSettled =>
      ({ service with
          store := markUnknown service.store prompt.key owner none
            (some "prompt_not_settled")
            (some "Prompt did not produce a proven terminal entry") clock },
        [])
  | .preExecution detail =>
      match prompt.scheduleGeneration with
      | some generation =>
          releasePrompt config service prompt generation detail clock
      | none =>
          ({ service with
              store := markUnknown service.store prompt.key owner none
                (some "execution_failed") (some detail) clock }, [])
  | .failed detail =>
      ({ service with
          store := markUnknown service.store prompt.key owner none
            (some "execution_failed") (some detail) clock }, [])

/-! ### Other clients of the store -/

/-- Requests of the HTTP side: prompts with their own receipts, receipt reads,
new conversations and schedule edits. -/
inductive Request where
  | reserve (key : ReceiptKey) (fingerprint : String)
  | renew (key : ReceiptKey) (owner : Nat)
  | complete (key : ReceiptKey) (lastEntryId : String) (owner : Nat)
  | markUnknown (key : ReceiptKey) (owner : Nat) (code detail : String)
  | read (key : ReceiptKey)
  | list (conversationId callerId : String)
  | create (id : String) (tenantId memberId : Option String)
      (schedule : Option ScheduleJson)
  | editSchedule (id : String) (schedule : Option ScheduleJson)
deriving DecidableEq

/-- A reservation without a schedule. -/
def plainReserve (key : ReceiptKey) (fingerprint : String) :
    ReserveInput where
  key := key
  fingerprint := fingerprint
  leaseMs := none
  oneShot := false
  scheduleId := none
  scheduleRevision := none
  scheduleGeneration := none
  clearScheduleRetry := false
  occurrenceAt := none

def serve (store : Store) (clock : Int) : Request → Store
  | .reserve key fingerprint =>
      (reservePrompt store (plainReserve key fingerprint) clock).1
  | .renew key owner => renewLease store key (some owner) none clock
  | .complete key lastEntryId owner =>
      markCompleted store key (some lastEntryId) (some owner)
  | .markUnknown key owner code detail =>
      Receipt.markUnknown store key (some owner) none (some code)
        (some detail) clock
  | .read key => getPromptReceipt store key clock
  | .list conversationId callerId =>
      listPromptReceipts store conversationId callerId clock
  | .create id tenantId memberId schedule =>
      -- an id in use is refused
      if (getConversation store id).isSome then store
      else saveConversation store ⟨id, tenantId, memberId, schedule, 0⟩ false
  | .editSchedule id schedule => updateSchedule store id schedule

/-- Number the UUID this step may draw. -/
def draw (service : Service) : Service :=
  { service with
    store := { service.store with nextInstance := service.draws },
    draws := service.draws + 1 }

/-- The process ends: the memory of the service is lost. -/
def restartService (service : Service) (clock : Int) : Service :=
  { service with
    store := restart service.store clock, lastTick := none, retryable := [],
    prompts := [] }

def initialService : Service :=
  ⟨⟨[], [], [], [], 0, 1⟩, none, [], [], 1⟩

end AiTeam.Schedule
