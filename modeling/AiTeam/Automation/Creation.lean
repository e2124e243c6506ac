/-
`create` of the automation task service: the validated request, the idempotency
row of `automation_creation`, and the two transactions around the await of the
participants.
-/
import AiTeam.Automation.Disturbed

namespace AiTeam.Automation.Creating

open AiTeam.Receipt AiTeam.Schedule AiTeam.Automation

/-- An `AutomationError`. -/
structure Problem where
  status : Nat
  code : String
  detail : String
deriving DecidableEq

/-- `fail`. -/
def fail {α : Type} (code detail : String) : Except Problem α :=
  .error ⟨422, code, detail⟩

/-- `if (condition) fail(code, detail)`. -/
def failIf (condition : Bool) (code detail : String) : Except Problem Unit :=
  if condition then fail code detail else .ok ()

/-! ### The request -/

/-- `body.schedule`.  `keys` are its keys in their order; a field of another
JSON type than the documented one is none, and instants are parsed. -/
structure RuleJson where
  keys : List String
  mode : Option String
  timezone : Option String
  time : Option String
  weekday : Option Nat
  dayOfMonth : Option Nat
  skipsInvalidDates : Bool
  runAt : Option Int
  startsAt : Option Int
  intervalSeconds : Option Int
deriving DecidableEq

/-- The body of a creation.  `category` is `String(body.category)`;
`connectorIds` is none when it is absent, and holds none when it is no array of
strings. -/
structure CreateBody where
  keys : List String
  name : Option String
  prompt : Option String
  category : String
  employeeId : Option String
  connectorIds : Option (Option (List String))
  schedule : Option RuleJson
deriving DecidableEq

def text (value : Option String) (name : String) (max : Nat) :
    Except Problem String :=
  match value.filter fun value =>
      !value.toList.all isTrimmed && utf16Length value ≤ max with
  | some value => .ok value
  | none => fail (name ++ "_invalid")
      (name ++ " must contain 1–" ++ toString max ++ " characters")

def onlyKeys (keys supported : List String) : Except Problem Unit :=
  failIf (keys.any (!supported.contains ·)) "validation_error"
    "Unsupported field"

def categories : List String := ["report", "monitor", "reminder", "other"]

def category (value : String) : Except Problem String :=
  if categories.contains value then .ok value
  else fail "category_invalid" "Unsupported category"

/-- `/^[a-z][a-z0-9_-]{0,63}$/`. -/
def isConnectorId (id : String) : Bool :=
  match id.toList with
  | [] => false
  | head :: tail => 'a' ≤ head && head ≤ 'z' && tail.length ≤ 63 &&
      tail.all fun c => ('a' ≤ c && c ≤ 'z') || isDigit c || c == '_' ||
        c == '-'

def connectorIds (value : Option (List String)) :
    Except Problem (List String) :=
  match value.filter fun ids =>
      ids.length ≤ 10 && ids.all isConnectorId && decide ids.Nodup with
  | some ids => .ok (ids.mergeSort fun a b => decide (a ≤ b))
  | none => fail "connector_unavailable"
      "Expected at most 10 distinct connector references"

/-- The calendar fields of a rule. -/
def RuleJson.calendar (rule : RuleJson) (mode : CalendarMode) : CalendarRule :=
  ⟨mode, rule.timezone.getD "", rule.time.getD "", rule.weekday,
    rule.dayOfMonth, rule.skipsInvalidDates⟩

/-- The keys `validateCalendar` admits. -/
def calendarKeys : CalendarMode → List String
  | .daily => ["mode", "timezone", "time"]
  | .weekly => ["mode", "timezone", "time", "weekday"]
  | .monthly =>
      ["mode", "timezone", "time", "day_of_month", "invalid_date_policy"]

def calendarMode (mode : Option String) : Option CalendarMode :=
  match mode with
  | some "daily" => some .daily
  | some "weekly" => some .weekly
  | some "monthly" => some .monthly
  | _ => none

/-- The body of the `try` in `taskSchedule`. -/
def ruleSchedule (temporal : Temporal) (rule : RuleJson)
    (prompt id : String) (revision : Int) (enabled : Bool) :
    Except String ConversationSchedule := do
  let base : ScheduleJson := { ScheduleJson.empty with
    scheduleId := some id, revision := some revision, enabled := some enabled,
    promptTemplate := some prompt }
  let timezone ← require (rule.timezone.filter fun zone =>
    !(zone.startsWith "+" || zone.startsWith "-")) "IANA timezone required"
  reject (!temporal.knownZone timezone)
    ("Invalid time zone specified: " ++ timezone)
  match calendarMode rule.mode with
  | some mode =>
      reject (rule.keys.any (!(calendarKeys mode).contains ·))
        "Unsupported calendar fields"
      let calendar ← validateCalendar temporal (rule.calendar mode)
      validateSchedule temporal { base with calendar := some calendar }
  | none =>
      if rule.mode = some "once" then
        reject (rule.keys.any
          (! ["mode", "timezone", "run_at"].contains ·))
          "Unsupported field"
        reject rule.runAt.isNone "An ISO timestamp with offset is required"
        validateSchedule temporal { base with
          oneShot := some true, atInstant := rule.runAt }
      else if rule.mode = some "interval" then
        reject (rule.keys.any
          (! ["mode", "timezone", "interval_seconds", "starts_at"].contains ·))
          "Unsupported field"
        reject (!rule.intervalSeconds.any fun seconds =>
            300 ≤ seconds && seconds ≤ 315360000)
          "interval_seconds must be 300–315360000"
        reject rule.startsAt.isNone "An ISO timestamp with offset is required"
        validateSchedule temporal { base with
          atInstant := rule.startsAt, intervalSeconds := rule.intervalSeconds }
      else throw "Unsupported schedule mode"

def taskSchedule (temporal : Temporal) (rule : Option RuleJson)
    (prompt id : String) (revision : Int) (enabled : Bool) :
    Except Problem ConversationSchedule :=
  match rule with
  | none => fail "validation_error" "Expected an object"
  | some rule =>
      (ruleSchedule temporal rule prompt id revision enabled).mapError
        (⟨422, "task_schedule_invalid", ·⟩)

/-- What `create` hashes.  A calendar rule is hashed as the client wrote it, so
the order of its keys counts. -/
structure CreateInput where
  name : String
  prompt : String
  category : String
  employeeId : String
  connectorIds : List String
  schedule : ConversationSchedule
  calendarKeys : List String
deriving DecidableEq

/-- `/^[\x21-\x7e]{1,128}$/`. -/
def isIdempotencyKey (key : String) : Bool :=
  1 ≤ key.length && key.length ≤ 128 &&
    key.toList.all fun c => 0x21 ≤ c.toNat && c.toNat ≤ 0x7e

/-- The checks of `create` up to its first read of the tables: the key and the
input to be hashed. -/
def parseCreate (temporal : Temporal) (body : CreateBody)
    (key : Option String) : Except Problem (String × CreateInput) := do
  onlyKeys body.keys ["name", "prompt", "category", "employee_id",
    "connector_ids", "schedule"]
  failIf (!key.any isIdempotencyKey) "idempotency_key_required"
    "Idempotency-Key is required (1–128 printable characters)"
  let name ← text body.name "task_name" 120
  let prompt ← text body.prompt "prompt" 20000
  let category ← category body.category
  let employeeId ← text body.employeeId "employee_id" 256
  let connectorIds ← connectorIds (body.connectorIds.getD (some []))
  let schedule ← taskSchedule temporal body.schedule prompt "fingerprint" 1
    true
  return (key.getD "", {
    name, prompt, category, employeeId, connectorIds, schedule,
    calendarKeys := if schedule.calendar.isSome then
      body.schedule.elim [] RuleJson.keys else [] })

/-! ### The tables and the calls -/

/-- What `get` shows of a task and its conversation. -/
structure TaskView where
  taskId : String
  conversationId : Option String
  schedule : Option ConversationSchedule
  etag : Nat × Nat
  createdBy : String
deriving DecidableEq

def get (config : Config) (state : State) (id : String) (owner : Owner) :
    Option TaskView := do
  let (task, conversation) ← resolve state id owner
  let schedule ← parsedSchedule config conversation
  return {
    taskId := id
    conversationId := conversation.map Conversation.id
    schedule
    etag := (task.elim 0 Task.revision,
      conversation.elim 0 Conversation.scheduleGeneration)
    createdBy := owner.memberId }

/-- A row of `automation_creation`; its `completed` column is with the
tables. -/
structure Row (Digest : Type) where
  owner : Owner
  key : String
  fingerprint : Digest
  taskId : String
  conversationId : String
  response : Option TaskView
deriving DecidableEq

/-- The primary key. -/
def Row.id {Digest : Type} (row : Row Digest) : Owner × String :=
  (row.owner, row.key)

/-- A call of `create` that awaits `initializeConversationParticipants`. -/
structure Call where
  owner : Owner
  key : String
  taskId : String
  prompt : String
  rule : Option RuleJson
deriving DecidableEq

/-- The task ids of `creating` are the set of the same name. -/
structure Service (Digest : Type) where
  tables : State
  rows : List (Row Digest)
  creating : List Call
deriving DecidableEq

inductive Event where
  /-- A patch has committed. -/
  | patched (id : String) (owner : Owner) (etag : Nat × Nat)
  /-- The first transaction of a creation has committed. -/
  | created (owner : Owner) (key : String) (input : CreateInput)
      (taskId conversationId : String)
  | answered (owner : Owner) (key : String) (view : TaskView)
  | refused (problem : Problem)
deriving DecidableEq

def keyReused : Problem :=
  ⟨409, "idempotency_key_reused",
    "Idempotency key was used with a different request"⟩

def creationPending : Problem :=
  ⟨409, "task_creation_pending",
    "Task creation is in progress; retry with the same key"⟩

def creationCancelled : Problem :=
  ⟨409, "task_creation_cancelled", "Task creation was cancelled"⟩

def initializationPending : Problem :=
  ⟨409, "task_creation_pending", "Task initialization is not complete"⟩

def bindingRetired : Problem :=
  ⟨409, "task_binding_retired", "This task binding is no longer active"⟩

def pastOneShot : Problem :=
  ⟨422, "task_schedule_invalid",
    "A new one-shot task must be scheduled in the future"⟩

/-- What the host and a rolled back transaction throw. -/
def internalError : Problem := ⟨500, "internal_error", "Internal error"⟩

section Service

variable {Digest : Type} [DecidableEq Digest]

def findRow (state : Service Digest) (owner : Owner) (key : String) :
    Option (Row Digest) :=
  lookup Row.id (owner, key) state.rows

/-- `existing?.completed && existing.response_json`. -/
def storedResponse (state : Service Digest) (row : Row Digest) :
    Option TaskView :=
  if uninitialized state.tables row.taskId then none else row.response

/-- `create` up to its await.  `selection` is what `employee` and
`validateConnectorSelection` find, `ids` the two random UUIDs. -/
def create (config : Config) (digest : CreateInput → Digest)
    (state : Service Digest) (owner : Owner) (body : CreateBody)
    (key : Option String) (selection : Except Problem Unit)
    (ids : String × String) (now : Int) : Service Digest × List Event :=
  match parseCreate config.temporal body key with
  | .error problem => (state, [.refused problem])
  | .ok (key, input) =>
      match findRow state owner key with
      | some row =>
          if row.fingerprint ≠ digest input then (state, [.refused keyReused])
          else match storedResponse state row, selection with
            | some view, _ => (state, [.answered owner key view])
            | none, .error problem => (state, [.refused problem])
            | none, .ok () =>
                if state.creating.any (·.taskId == row.taskId) then
                  (state, [.refused creationPending])
                else
                  ({ state with
                    creating := state.creating ++
                      [⟨owner, key, row.taskId, input.prompt, body.schedule⟩] },
                    [])
      | none =>
          match selection with
          | .error problem => (state, [.refused problem])
          | .ok () =>
              if input.schedule.oneShot &&
                  input.schedule.atInstant.any (· ≤ now) then
                (state, [.refused pastOneShot])
              else if state.creating.any (·.taskId == ids.1) then
                (state, [.refused creationPending])
              else match beginCreate state.tables ids.1 ids.2 owner with
                -- a random id that is taken: the transaction rolls back
                | none => (state, [.refused internalError])
                | some tables =>
                    ({ tables
                       rows := state.rows ++ [⟨owner, key, digest input, ids.1,
                         ids.2, none⟩]
                       creating := state.creating ++
                         [⟨owner, key, ids.1, input.prompt, body.schedule⟩] },
                      [.created owner key input ids.1 ids.2])

/-- What `guardSchedule` throws at the conversation of a creation, whose own
row is completed by then. -/
def guardProblem (tables : State) (taskId : String) : Problem :=
  let bound := (tables.creations.find? (·.taskId == taskId)).bind fun row =>
    forConversation tables row.conversationId
  if bound.any fun task =>
      task.id != taskId && uninitialized tables task.id then
    initializationPending
  else bindingRetired

/-- The second transaction of `create`. -/
def completeCall (config : Config) (tables : State) (call : Call) :
    Except Problem (State × TaskView) :=
  if (getOwnedTask tables call.taskId call.owner).any (!·.deleted) then do
    let schedule ← taskSchedule config.temporal call.rule call.prompt
      call.taskId 1 true
    match finishCreate tables call.taskId call.owner schedule with
    | none => throw (guardProblem tables call.taskId)
    | some next =>
        match get config next call.taskId call.owner with
        | none => throw internalError
        | some view => return (next, view)
  else throw creationCancelled

/-- `create` after its await, which ends well or throws. -/
def initialized (config : Config) (state : Service Digest) (taskId : String)
    (ok : Bool) : Service Digest × List Event :=
  match state.creating.find? (·.taskId == taskId) with
  | none => (state, [])
  | some call =>
      let creating := state.creating.filter (·.taskId != taskId)
      if ok then
        match completeCall config state.tables call with
        | .error problem => ({ state with creating }, [.refused problem])
        | .ok (tables, view) =>
            ({ tables
               rows := updateWhere (·.id == (call.owner, call.key))
                 (fun row => { row with response := some view }) state.rows
               creating },
              [.answered call.owner call.key view])
      else ({ state with creating }, [.refused internalError])

inductive Action where
  /-- Every other operation on the two tables, with the scheduler. -/
  | operation (action : Automation.Action)
  | create (owner : Owner) (body : CreateBody) (key : Option String)
      (selection : Except Problem Unit) (ids : String × String) (now : Int)
  | initialized (taskId : String) (ok : Bool)

/-- The transactions of `create` are no operations of their own. -/
def isOperation : Automation.Action → Bool
  | .beginCreate .. | .finishCreate .. => false
  | _ => true

def isRestart : Automation.Action → Bool
  | .scheduler (.restart _) => true
  | _ => false

def patchedEvents (config : Config) (state : State) :
    Automation.Action → List Event
  | .patch id owner expected patch busy =>
      if (patchTask config state id owner expected patch busy).isSome then
        [.patched id owner expected]
      else []
  | _ => []

def operate (config : Config) (state : Service Digest)
    (action : Automation.Action) : Service Digest × List Event :=
  if isOperation action then
    ({ state with
      tables := (Automation.step config state.tables action).1
      -- a restart loses the calls that wait
      creating := if isRestart action then [] else state.creating },
      patchedEvents config state.tables action)
  else (state, [])

def step (config : Config) (digest : CreateInput → Digest)
    (state : Service Digest) : Action → Service Digest × List Event
  | .operation action => operate config state action
  | .create owner body key selection ids now =>
      create config digest state owner body key selection ids now
  | .initialized taskId ok => initialized config state taskId ok

def machine (config : Config) (digest : CreateInput → Digest) :
    Machine (Service Digest) Action Event where
  step := step config digest

def initial : Service Digest := ⟨Automation.initial, [], []⟩

end Service

end AiTeam.Automation.Creating
