/-
The calls of `LocalDirectoryService`, interleaving at their awaits over the
rows, the registry of identities, the citations and the tasks of one process.
The answers of the directory host are choices.
-/
import AiTeam.Attempt
import AiTeam.Interleaving
import AiTeam.LocalDirectory.Hits

namespace AiTeam.LocalDirectory

open AiTeam.Attempt (require demand answer recover)
open AiTeam.Unicode (Text lit utf16)

/-- `verified` is `isVerifiedCaller`, or what the service was given for it. -/
structure Env where
  verified : Caller → Bool
  locale : Locale

/-- `DirectoryExecution`. -/
structure DirectoryExecution where
  caller : Caller
  employeeId : String
  conversationId : String
  sessionId : String
  turnId : String
  snapshotVersion : String
  generation : Nat
  permissionMode : String
  background : Bool
deriving DecidableEq

/-- `id` stands for the UUID of its handle. -/
structure Citation where
  id : Nat
  context : DirectoryExecution
  owner : DirectoryOwner
  resource : DirectoryResource
  title : Text
  relative : Text
  snippet : Text
  version : String
  authority : String
  bindingRevision : Nat
  expires : Int
deriving DecidableEq

/-- `id` stands for the object. -/
structure ActiveTask where
  id : Nat
  owner : DirectoryOwner
  employeeId : String
  directoryIds : List String
  aborted : Bool
deriving DecidableEq

structure Agent where
  db : Db
  registry : Registry
  citations : List Citation
  tasks : List ActiveTask
  /-- How many ids were made for citations and tasks. -/
  drawn : Nat
deriving DecidableEq

structure Listing where
  authority : String
  entries : List Entry
  isPartial : Bool
deriving DecidableEq

structure Source where
  authority : String
  contentVersion : String
  text : Text
deriving DecidableEq

/-- What a statement finds: `Date.now()`, the Manager's clock, the date and the
id it may write, and what the host has answered to the call it awaited. -/
structure Choice where
  now : Int
  managerNow : Int
  date : String
  directoryId : String
  check : Except String String
  list : Except String Listing
  read : Except String Source
  consume : Except String HostDirectory

/-! ### Calls -/

inductive Request where
  | search (context : DirectoryExecution) (query : Text) (limit : Int)
      (signalled : Bool)
  | read (context : DirectoryExecution) (id : Nat) (offset : Int)
      (signalled : Bool)
  /-- The route, which calls `verifyCitation` and sends what it returns. -/
  | verifyCitation (caller : Caller) (id : Nat) (offset : Int)
  | register (caller : Caller)
  | bind (caller : Caller) (id employee : String) (enabled : Bool)
      (revision : Int)
  | revoke (caller : Caller) (id : String)
deriving DecidableEq

structure Coverage where
  filesExamined : Nat
  filesSkipped : Nat
  entriesExamined : Nat
  bytesRead : Nat
deriving DecidableEq

/-- A directory a search has opened. -/
structure Opened where
  resource : DirectoryResource
  bindingRevision : Nat
  authority : String
deriving DecidableEq

/-- The variables of a search that lives on. -/
structure Search where
  context : DirectoryExecution
  terms : List Text
  limit : Nat
  owner : DirectoryOwner
  task : Nat
  deadline : Int
  coverage : Coverage
  isPartial : Bool
  candidates : List Candidate
  checks : List Opened
  remaining : List DirectoryResource
deriving DecidableEq

/-- The walk through a directory: the folders still to be listed. -/
structure Walk where
  search : Search
  opened : Opened
  queue : List Text
deriving DecidableEq

/-- A file in the listing of a folder, with what follows it. -/
structure File where
  directory : Text
  name : Text
  path : Text
  rest : List Entry
deriving DecidableEq

structure DeliveredHit where
  citationId : Nat
  hit : Hit
deriving DecidableEq

structure Found where
  isPartial : Bool
  coverage : Coverage
  items : List DeliveredHit
deriving DecidableEq

/-- What `read` returns. -/
structure Excerpt where
  citationId : Nat
  contentVersion : String
  text : Text
  offset : Nat
  nextOffset : Option Nat
deriving DecidableEq

/-- What `verifyCitation` returns. -/
structure Verified where
  citationId : Nat
  directoryId : String
  directoryDisplayName : String
  conversationId : String
  employeeId : String
  turnId : String
  title : Text
  relativePath : Text
  contentVersion : String
  snippet : Text
  text : Text
  offset : Nat
  nextOffset : Option Nat
deriving DecidableEq

def Citation.verified (citation : Citation) (source : Excerpt) : Verified where
  citationId := citation.id
  directoryId := citation.resource.directoryId
  directoryDisplayName := citation.resource.displayName
  conversationId := citation.context.conversationId
  employeeId := citation.context.employeeId
  turnId := citation.context.turnId
  title := citation.title
  relativePath := citation.relative
  contentVersion := citation.version
  snippet := citation.snippet
  text := source.text
  offset := source.offset
  nextOffset := source.nextOffset

/-- Who reads: a tool, or `verifyCitation` with the citation it has found. -/
inductive Asked where
  | tool
  | verify (caller : Caller) (id : Nat) (citation : Citation)
deriving DecidableEq

structure Read where
  asked : Asked
  context : DirectoryExecution
  id : Nat
  offset : Nat
  citation : Citation
  task : Nat
deriving DecidableEq

/-- How a tracked task has ended. -/
inductive Ended where
  | failed (code : String)
  | found (found : Found)
  | read (asked : Asked) (source : Excerpt)
deriving DecidableEq

/-- What a call does next: it has just arrived, or it awaits something. -/
inductive Stage where
  | start (request : Request)
  | consumeTicket (caller : Caller) (owner : DirectoryOwner)
  | checkBinding (caller : Caller) (owner : DirectoryOwner)
      (id employee : String) (revision : Int)
  | openDirectory (search : Search) (resource : DirectoryResource)
      (bindingRevision : Nat)
  | checkFolder (walk : Walk) (directory : Text)
  | listFolder (walk : Walk) (directory : Text)
  | checkFile (walk : Walk) (file : File)
  | readFile (walk : Walk) (file : File)
  | confirm (search : Search) (item : Opened) (rest : List Opened)
  | checkRead (read : Read)
  | readSource (read : Read)
  | recheckRead (read : Read) (source : Excerpt)
  | leave (task : Nat) (ended : Ended)
  | assertCitation (caller : Caller) (id : Nat) (citation : Citation)
      (source : Excerpt)
  | send (caller : Caller) (id : Nat) (result : Verified)
  | returned
  | failed (code : String)
deriving DecidableEq

inductive Event where
  /-- A search has made the citation. -/
  | cited (citation : Citation)
  | found (found : Found)
  | read (source : Excerpt)
  /-- `verifyCitation` has returned. -/
  | verified (result : Verified)
  /-- The route has answered. -/
  | sent (result : Verified)
deriving DecidableEq

/-- What happens besides the calls: identities come and go, other services
write their rows, a caller's signal aborts its task. -/
inductive Outside where
  | registerIdentity (caller : Caller) (now : Int)
  | resolveIdentity (tenantId memberId : String) (now : Int)
  | invalidateIdentity (tenantId memberId : String)
  | clearIdentities
  | invalidate (owner : DirectoryOwner)
  | employees (experts : List ExpertRow) (snapshots : List SnapshotRow)
  | conversations (conversations : List Conversation)
      (participants : List Participant)
  | abort (task : Nat)
deriving DecidableEq

/-- What a call does between two awaits. -/
abbrev Step := Attempt Agent String

abbrev Progress := Stage × List Event

def go (stage : Stage) : Step Progress := pure (stage, [])

/-! ### Authorization -/

def owner (env : Env) (now : Int) (caller : Caller) : Option DirectoryOwner :=
  match Registry.filled caller.tenantId, Registry.filled caller.userId,
      caller.exp with
  | some tenantId, some memberId, some exp =>
      if env.verified caller && now < exp * 1000 then
        some ⟨tenantId, memberId⟩
      else none
  | _, _, _ => none

def isCurrentIdentity (env : Env) (context : DirectoryExecution)
    (identity : Option ExecutionIdentity) : Bool :=
  identity.any fun identity =>
    identity.generation = context.generation && env.verified identity.caller

def conversationAllows (db : Db) (owner : DirectoryOwner)
    (context : DirectoryExecution) : Bool :=
  match lookup Conversation.id context.conversationId db.conversations with
  | none => false
  | some conversation =>
      conversation.tenantId = some owner.tenantId &&
        conversation.memberId = some owner.memberId &&
        conversation.permissionMode = context.permissionMode &&
        if conversation.kind = "group" then
          (listConversationParticipants db context.conversationId).any
            fun row => row.employeeId = context.employeeId
        else conversation.entryEmployeeId = some context.employeeId

/-- `authorize` once the identity is there; `none` when it throws. -/
def permitted (env : Env) (db : Db) (owner : DirectoryOwner)
    (context : DirectoryExecution) (tool : Tool)
    (identity : Option ExecutionIdentity) : Option FrozenSnapshot :=
  if isCurrentIdentity env context identity && !context.background &&
      ["read-only", "workspace-write"].contains context.permissionMode &&
      conversationAllows db owner context then
    (employee db owner context.employeeId).filter fun snapshot =>
      snapshot.snapshotVersion = context.snapshotVersion &&
        (localDirectoryTools snapshot).contains tool
  else none

def resolveIdentity (owner : DirectoryOwner) (now : Int) (agent : Agent) :
    Option ExecutionIdentity × Agent :=
  let (identity, registry) := agent.registry.get owner.tenantId owner.memberId
    now
  (identity, { agent with registry })

def authorize (env : Env) (choice : Choice) (context : DirectoryExecution)
    (tool : Tool) : Step FrozenSnapshot := do
  let owner ← demand (owner env choice.now context.caller) "unauthorized"
  let identity ← modifyGet (resolveIdentity owner choice.managerNow)
  let agent ← get
  demand (permitted env agent.db owner context tool identity) "unauthorized"

/-- The directory and the employee's binding to it. -/
def boundTo (db : Db) (owner : DirectoryOwner) (id employee : String) :
    Option (DirectoryResource × DirectoryBinding) :=
  (LocalDirectoryStore.get db owner id).bind fun resource =>
    ((LocalDirectoryStore.bindings db owner id).bind fun rows =>
      LocalDirectoryStore.bindingOf rows employee).map fun binding =>
        (resource, binding)

def isAborted (agent : Agent) (task : Nat) : Bool :=
  agent.tasks.any fun active => active.id = task && active.aborted

def requireRunning (task : Nat) : Step PUnit := do
  let agent ← get
  require (isAborted agent task = false) "cancelled"

/-- `check` until it awaits the host. -/
def checkBefore (env : Env) (choice : Choice) (context : DirectoryExecution)
    (resource : DirectoryResource) (bindingRevision : Nat) (tool : Tool)
    (task : Nat) : Step PUnit := do
  requireRunning task
  let _ ← authorize env choice context tool
  let owner ← demand (owner env choice.now context.caller) "unauthorized"
  let agent ← get
  let (current, binding) ← demand
    (boundTo agent.db owner resource.directoryId context.employeeId)
    "unauthorized"
  require (current.revision = resource.revision ∧ binding.enabled = true ∧
    binding.revision = bindingRevision) "unauthorized"

/-- `check` from the answer of the host: a revoke may have completed
meanwhile. -/
def checkAfter (env : Env) (choice : Choice) (context : DirectoryExecution)
    (resource : DirectoryResource) (bindingRevision : Nat)
    (authority : Option String) (tool : Tool) (task : Nat) :
    Step String := do
  let actual ← answer choice.check
  requireRunning task
  let _ ← authorize env choice context tool
  let owner ← demand (owner env choice.now context.caller) "unauthorized"
  let agent ← get
  let (_, binding) ← demand
    (boundTo agent.db owner resource.directoryId context.employeeId)
    "unauthorized"
  require (binding.enabled = true ∧ binding.revision = bindingRevision ∧
    authority.all (fun authority => authority = actual) = true) "unauthorized"
  pure actual

/-- `assertCitationCurrent`. -/
def assertCitationCurrent (env : Env) (choice : Choice) (caller : Caller)
    (id : Nat) : Step Citation := do
  let owner ← demand (owner env choice.now caller) "unauthorized"
  let agent ← get
  let citation ← demand (lookup Citation.id id agent.citations)
    "citation_expired"
  require (choice.now < citation.expires) "citation_expired"
  require (citation.owner = owner) "unauthorized"
  let context := { citation.context with caller := caller }
  let _ ← authorize env choice context .read
  let agent ← get
  let (resource, binding) ← demand
    (boundTo agent.db owner citation.resource.directoryId context.employeeId)
    "unauthorized"
  require (resource.revision = citation.resource.revision ∧
    binding.enabled = true ∧ binding.revision = citation.bindingRevision)
    "unauthorized"
  pure citation

/-! ### Tasks -/

/-- The part of `trackTask` before the task runs. -/
def enter (owner : DirectoryOwner) (employee : String) (signalled : Bool) :
    Step Nat := do
  require (signalled = false) "cancelled"
  modifyGet fun agent => (agent.drawn, { agent with
    tasks := agent.tasks ++ [⟨agent.drawn, owner, employee, [], false⟩],
    drawn := agent.drawn + 1 })

/-- `task.directoryIds.add(id)`. -/
def touch (task : Nat) (id : String) (agent : Agent) : Agent :=
  { agent with
    tasks := updateWhere (fun active => active.id = task)
      (fun active => { active with
        directoryIds := active.directoryIds.insert id }) agent.tasks }

/-- A task that throws ends, and `finally` follows. -/
def tracked (task : Nat) (x : Step Progress) : Step Progress :=
  recover x fun code => (.leave task (.failed code), [])

/-- `invalidate`: tasks are aborted and citations dropped. -/
def invalidate (owner : DirectoryOwner) (id employee : Option String)
    (agent : Agent) : Agent :=
  { agent with
    tasks := updateWhere
      (fun active => active.owner = owner &&
        employee.all (fun employee => active.employeeId = employee) &&
        (active.directoryIds.isEmpty || id.all fun id =>
          active.directoryIds.contains id))
      (fun active => { active with aborted := true }) agent.tasks
    citations := agent.citations.filter fun citation =>
      !(citation.owner = owner &&
        id.all (fun id => citation.resource.directoryId = id) &&
        employee.all fun employee =>
          citation.context.employeeId = employee) }

end AiTeam.LocalDirectory
