/-
Automation tasks: `AutomationTaskService` over its task, binding and creation
tables, on top of the scheduler whose conversations the tasks drive.
-/
import AiTeam.Schedule.Scheduler

namespace AiTeam.Automation

open AiTeam.Receipt AiTeam.Schedule

structure Owner where
  tenantId : String
  memberId : String
deriving DecidableEq

/-- The columns of `automation_task` that scheduling depends on. -/
structure Task where
  id : String
  owner : Owner
  conversationId : String
  revision : Nat
  deleted : Bool
deriving DecidableEq

/-- A row of `automation_creation`. -/
structure Creation where
  taskId : String
  conversationId : String
  completed : Bool
deriving DecidableEq

/-- `bindings` is `automation_binding`: conversation id and task id. -/
structure State where
  scheduler : Scheduler
  tasks : List Task
  bindings : List (String × String)
  creations : List Creation
deriving DecidableEq

def State.store (state : State) : Store := state.scheduler.service.store

def State.withStore (state : State) (store : Store) : State :=
  { state with
    scheduler := { state.scheduler with
      service := { state.scheduler.service with store } } }

def getTask (state : State) (id : String) : Option Task :=
  lookup Task.id id state.tasks

/-- `SELECT ... WHERE id = ? AND tenant_id = ? AND member_id = ?`. -/
def getOwnedTask (state : State) (id : String) (owner : Owner) :
    Option Task :=
  (getTask state id).filter (·.owner == owner)

def getOwnedConversation (store : Store) (id : String) (owner : Owner) :
    Option Conversation :=
  (getConversation store id).filter fun row =>
    row.tenantId == some owner.tenantId && row.memberId == some owner.memberId

/-- `forConversation`: the task a conversation is bound to. -/
def forConversation (state : State) (conversationId : String) : Option Task :=
  (lookup Prod.fst conversationId state.bindings).bind fun binding =>
    getTask state binding.2

def uninitialized (state : State) (taskId : String) : Bool :=
  state.creations.any fun row => row.taskId == taskId && !row.completed

/-- `guardSchedule`: whether a schedule edit passes. -/
def guardSchedule (state : State) (conversationId : String) : Bool :=
  match forConversation state conversationId with
  | none => true
  | some task => !uninitialized state task.id && !task.deleted &&
      task.conversationId == conversationId

/-- `updateConversation` with a schedule; none when the guard throws. -/
def updateConversation (state : State) (id : String)
    (schedule : Option ScheduleJson) : Option State :=
  if (getConversation state.store id).isNone then some state
  else if guardSchedule state id then
    some (state.withStore (updateSchedule state.store id schedule))
  else none

/-- `resolve`: the task, if it is materialized, and its conversation. -/
def resolve (state : State) (id : String) (owner : Owner) :
    Option (Option Task × Option Conversation) :=
  match getOwnedTask state id owner with
  | some task =>
      if task.deleted then none
      else some (some task,
        getOwnedConversation state.store task.conversationId owner)
  | none =>
      match getOwnedConversation state.store id owner with
      | none => none
      | some conversation =>
          if conversation.scheduleJson.isNone ||
              (forConversation state id).isSome then none
          else some (none, some conversation)

/-- The parsed schedule of a conversation; none when it does not validate. -/
def parsedSchedule (config : Config) (conversation : Option Conversation) :
    Option (Option ConversationSchedule) :=
  match conversation.bind Conversation.scheduleJson with
  | none => some none
  | some json =>
      match validateSchedule config.temporal json with
      | .error _ => none
      | .ok schedule => some (some schedule)

/-- The `etag` of `get`: task revision and schedule generation. -/
def etag (config : Config) (state : State) (id : String) (owner : Owner) :
    Option (Nat × Nat) := do
  let (task, conversation) ← resolve state id owner
  let _ ← parsedSchedule config conversation
  return (task.elim 0 Task.revision,
    conversation.elim 0 Conversation.scheduleGeneration)

/-- `checkVersion`. -/
def checkVersion (config : Config) (state : State) (id : String)
    (owner : Owner) (expected : Nat × Nat) : Bool :=
  etag config state id owner == some expected

/-- A validated schedule as it is stored again. -/
def scheduleJson (schedule : ConversationSchedule) : ScheduleJson where
  scheduleId := some schedule.scheduleId
  revision := some schedule.revision
  enabled := some schedule.enabled
  atInstant := schedule.atInstant
  intervalSeconds := schedule.intervalSeconds
  oneShot := some schedule.oneShot
  calendar := schedule.calendar
  promptTemplate := some schedule.promptTemplate
  unsupported := none

def bind (state : State) (taskId conversationId : String) : Option State :=
  if (lookup Prod.fst conversationId state.bindings).isSome then none
  else some { state with
    bindings := state.bindings ++ [(conversationId, taskId)] }

/-- `insert`: the task row and its binding. -/
def insertTask (state : State) (task : Task) : Option State :=
  if (getTask state task.id).isSome then none
  else bind { state with tasks := state.tasks ++ [task] } task.id
    task.conversationId

/-- `UPDATE automation_task SET ..., revision = revision + 1`. -/
def updateTask (state : State) (id : String) (conversationId : String)
    (deleted : Bool) : State :=
  { state with
    tasks := updateWhere (·.id == id)
      (fun row => { row with
        conversationId, deleted, revision := row.revision + 1 })
      state.tasks }

/-- `materialize`: a scheduled conversation becomes a task of its own id. -/
def materialize (state : State) (id : String) (owner : Owner)
    (task : Option Task) (conversation : Option Conversation) :
    Option (State × Task) :=
  match task, conversation with
  | some task, _ => some (state, task)
  | none, some conversation =>
      let row : Task := ⟨id, owner, conversation.id, 1, false⟩
      (insertTask state row).map (·, row)
  | none, none => none

inductive TaskAction where
  | enable | pause | delete
deriving DecidableEq

/-- `if (schedule && schedule.enabled !== enabled)` the schedule is stored
with the flag. -/
def toggle (state : State) (conversation : Option Conversation)
    (schedule : Option ConversationSchedule) (enabled : Bool) :
    Option State :=
  match conversation, schedule with
  | some conversation, some schedule =>
      if schedule.enabled != enabled then
        updateConversation state conversation.id
          (some (scheduleJson { schedule with enabled }))
      else some state
  | _, _ => some state

/-- `action`, as one transaction: none when it throws and rolls back.
`completed` is whether the shown status is completed. -/
def act (config : Config) (state : State) (id : String)
    (action : TaskAction) (owner : Owner) (expected : Nat × Nat)
    (completed : Bool) : Option State := do
  guard (checkVersion config state id owner expected)
  guard (action == .delete || !uninitialized state id)
  let (task, conversation) ← resolve state id owner
  let (state, row) ← materialize state id owner task conversation
  let schedule ← parsedSchedule config conversation
  guard (action != .enable || (schedule.isSome && !completed))
  let state ← toggle state conversation schedule (action == .enable)
  return if action == .delete then updateTask state id row.conversationId true
    else state

/-- The parts of a patch that reach the schedule: a new rule, a new prompt and
the conversation of a new employee. -/
structure Patch where
  rule : Option ConversationSchedule
  prompt : Option String
  nextId : Option String
deriving DecidableEq

/-- The schedule a patch stores: a new rule keeps the id and the enabled flag
of the old one; none when a prompt has no schedule to go to. -/
def patchedSchedule (id : String) (schedule : Option ConversationSchedule)
    (patch : Patch) : Option (Option ConversationSchedule) :=
  match patch.rule, patch.prompt with
  | some rule, prompt => some (some { rule with
      scheduleId := schedule.elim id ConversationSchedule.scheduleId,
      revision := schedule.elim 0 ConversationSchedule.revision + 1,
      enabled := schedule.elim true ConversationSchedule.enabled,
      promptTemplate := prompt.getD
        (schedule.elim "" ConversationSchedule.promptTemplate) })
  | none, some prompt => schedule.map fun schedule => some { schedule with
      promptTemplate := prompt, revision := schedule.revision + 1 }
  | none, none => some schedule

/-- The transaction of `patch`.  The conversation of a new employee was created
before it; `busy` is `isPrompting`. -/
def patchTask (config : Config) (state : State) (id : String) (owner : Owner)
    (expected : Nat × Nat) (patch : Patch) (busy : Bool) : Option State := do
  guard (checkVersion config state id owner expected)
  guard (!uninitialized state id && !busy)
  let (task, conversation) ← resolve state id owner
  let conversation ← conversation
  let current ← parsedSchedule config (some conversation)
  let schedule ← patchedSchedule id current patch
  let (state, _) ← materialize state id owner task (some conversation)
  match patch.nextId with
  | some nextId =>
      guard (getOwnedConversation state.store nextId owner).isSome
      let state ← updateConversation state conversation.id none
      let state ← bind state id nextId
      updateConversation (updateTask state id nextId false) nextId
        (schedule.map scheduleJson)
  | none =>
      let state := updateTask state id conversation.id false
      if patch.rule.isSome || patch.prompt.isSome then
        updateConversation state conversation.id (schedule.map scheduleJson)
      else return state

/-- The first transaction of `create`, with its fresh ids. -/
def beginCreate (state : State) (taskId conversationId : String)
    (owner : Owner) : Option State := do
  guard (getConversation state.store conversationId).isNone
  guard (!state.creations.any (·.taskId == taskId))
  let store := saveConversation state.store
    ⟨conversationId, some owner.tenantId, some owner.memberId, none, 0⟩ false
  let inserted ← insertTask (state.withStore store)
    ⟨taskId, owner, conversationId, 1, false⟩
  return { inserted with
    creations := state.creations ++ [⟨taskId, conversationId, false⟩] }

/-- The second transaction of `create`: the task gets its schedule. -/
def finishCreate (state : State) (taskId : String) (owner : Owner)
    (schedule : ConversationSchedule) : Option State := do
  let creation ← state.creations.find? fun row =>
    row.taskId == taskId && !row.completed
  let task ← getOwnedTask state taskId owner
  guard (!task.deleted)
  let state := { state with
    creations := updateWhere (·.taskId == taskId)
      (fun row => { row with completed := true }) state.creations }
  updateConversation state creation.conversationId
    (some (scheduleJson { schedule with
      scheduleId := taskId, revision := 1, enabled := true }))

/-- The statements of `deleteConversation` on the receipt store. -/
def forgetConversation (store : Store) (id : String) : Store :=
  { store with
    conversations := store.conversations.filter (·.id != id),
    receipts := store.receipts.filter (·.key.conversationId != id),
    retries := store.retries.filter (·.conversationId != id),
    occurrences := updateWhere (·.conversationId == id)
      (fun row => { row with reason := some "conversation_deleted" })
      store.occurrences }

/-- The conversation goes, and `conversationDeleted` deletes its task. -/
def dropConversation (state : State) (id : String) : State :=
  { scheduler := (state.withStore
      (forgetConversation state.store id)).scheduler
    tasks := updateWhere (·.conversationId == id)
      (fun row => { row with deleted := true, revision := row.revision + 1 })
      state.tasks
    bindings := state.bindings
    creations := state.creations }

def deleteConversation (state : State) (id : String) (owner : Owner) :
    State :=
  if (getOwnedConversation state.store id owner).isNone then state
  else dropConversation state id

inductive Action where
  /-- The scheduler and the other clients of the store. -/
  | scheduler (action : Schedule.Action)
  | beginCreate (taskId conversationId : String) (owner : Owner)
  | finishCreate (taskId : String) (owner : Owner)
      (schedule : ConversationSchedule)
  | patch (id : String) (owner : Owner) (expected : Nat × Nat) (patch : Patch)
      (busy : Bool)
  | act (id : String) (action : TaskAction) (owner : Owner)
      (expected : Nat × Nat) (completed : Bool)
  | deleteConversation (id : String) (owner : Owner)

/-- The scheduler action passes the schedule guard. -/
def admits (state : State) : Schedule.Action → Bool
  | .request (.editSchedule id _) _ =>
      (getConversation state.store id).isNone || guardSchedule state id
  | _ => true

def step (config : Config) (state : State) :
    Action → State × List Schedule.Event
  | .scheduler action =>
      if admits state action then
        let (scheduler, events) := Schedule.step config state.scheduler action
        ({ state with scheduler }, events)
      else (state, [])
  | .beginCreate taskId conversationId owner =>
      ((Automation.beginCreate state taskId conversationId owner).getD state,
        [])
  | .finishCreate taskId owner schedule =>
      ((Automation.finishCreate state taskId owner schedule).getD state, [])
  | .patch id owner expected patch busy =>
      ((patchTask config state id owner expected patch busy).getD state, [])
  | .act id action owner expected completed =>
      ((Automation.act config state id action owner expected completed).getD
        state, [])
  | .deleteConversation id owner =>
      (Automation.deleteConversation state id owner, [])

def machine (config : Config) : Machine State Action Schedule.Event where
  step := step config

def initial : State := ⟨Schedule.initial, [], [], []⟩

end AiTeam.Automation
