/-
What an access to a local directory is authorized by: `LocalDirectoryStore`,
`ExecutionAuthorizationRegistry` and the rows of the Agent's store that name
employees, snapshots and conversations.
-/
import Mathlib.Algebra.Group.Int.Defs
import Mathlib.Data.List.Sort
import AiTeam.Scope
import AiTeam.Table

namespace AiTeam.LocalDirectory

/-! ### Directories and bindings -/

structure DirectoryOwner where
  tenantId : String
  memberId : String
deriving DecidableEq

/-- A row of `local_directory_resource`. -/
structure DirectoryResource where
  directoryId : String
  tenantId : String
  memberId : String
  canonicalPath : String
  displayName : String
  rootIdentity : String
  revision : Nat
  createdAt : String
  revokedAt : Option String
deriving DecidableEq

def DirectoryResource.owner (row : DirectoryResource) : DirectoryOwner :=
  ⟨row.tenantId, row.memberId⟩

/-- A row of `local_directory_binding`. -/
structure DirectoryBinding where
  tenantId : String
  memberId : String
  employeeId : String
  directoryId : String
  enabled : Bool
  revision : Nat
  updatedAt : String
deriving DecidableEq

/-- The primary key of a binding. -/
structure BindingKey where
  owner : DirectoryOwner
  employeeId : String
  directoryId : String
deriving DecidableEq

def DirectoryBinding.key (row : DirectoryBinding) : BindingKey :=
  ⟨⟨row.tenantId, row.memberId⟩, row.employeeId, row.directoryId⟩

/-! ### Employees and conversations -/

/-- `lifecycle_status` of a projection. -/
inductive Lifecycle where
  | absent
  | active
  | other
deriving DecidableEq

/-- A row of `loaded_employee_projection` with what is read of its JSON. -/
structure ExpertRow where
  tenantId : String
  memberId : String
  revoked : Bool
  employeeId : String
  version : String
  lifecycleStatus : Lifecycle
  projectedMemberId : Option String
  projectedRevoked : Bool
deriving DecidableEq

/-- `LoadedExpertProjection`. -/
structure Expert where
  employeeId : String
  tenantId : String
  memberId : Option String
  version : String
  lifecycleStatus : Lifecycle
  revoked : Bool
deriving DecidableEq

/-- `knowledge_policy`: a `state` that is a text, an `allowed_operations` that
is a list, and of its items the texts. -/
structure KnowledgePolicy where
  state : Option String
  allowedOperations : Option (List (Option String))
deriving DecidableEq

/-- `FrozenSnapshot`; `allowedTools` is the list of `tool_policy`. -/
structure FrozenSnapshot where
  employeeId : String
  version : String
  snapshotVersion : String
  tenantId : Option String
  memberId : Option String
  knowledgePolicy : Option KnowledgePolicy
  allowedTools : Option (List (Option String))
deriving DecidableEq

/-- A row of `frozen_snapshot`. -/
structure SnapshotRow where
  tenantId : String
  memberId : String
  projection : FrozenSnapshot
deriving DecidableEq

/-- A row of `conversation`. -/
structure Conversation where
  id : String
  kind : String
  tenantId : Option String
  memberId : Option String
  permissionMode : String
  entryEmployeeId : Option String
deriving DecidableEq

/-- A row of `conversation_participant_session`. -/
structure Participant where
  conversationId : String
  employeeId : String
  removed : Bool
deriving DecidableEq

structure Db where
  directories : List DirectoryResource
  bindings : List DirectoryBinding
  experts : List ExpertRow
  snapshots : List SnapshotRow
  conversations : List Conversation
  participants : List Participant
deriving DecidableEq

/-! ### `LocalDirectoryStore` -/

/-- `HostDirectory`, the receipt of a registration. -/
structure HostDirectory where
  canonicalPath : String
  displayName : String
  rootIdentity : String
deriving DecidableEq

/-- `ORDER BY created_at, directory_id`. -/
def resourceLe (a b : DirectoryResource) : Prop :=
  a.createdAt < b.createdAt ∨
    (a.createdAt = b.createdAt ∧ a.directoryId ≤ b.directoryId)

instance : DecidableRel resourceLe := fun a b =>
  inferInstanceAs (Decidable (a.createdAt < b.createdAt ∨
    (a.createdAt = b.createdAt ∧ a.directoryId ≤ b.directoryId)))

namespace LocalDirectoryStore

def list (db : Db) (owner : DirectoryOwner) : List DirectoryResource :=
  (db.directories.filter fun row =>
    row.owner = owner && row.revokedAt.isNone).insertionSort resourceLe

/-- `get`; `none` when it throws. -/
def get (db : Db) (owner : DirectoryOwner) (id : String) :
    Option DirectoryResource :=
  (lookup DirectoryResource.directoryId id db.directories).filter fun row =>
    row.owner = owner && row.revokedAt.isNone

/-- `bindings`; `none` when it throws. -/
def bindings (db : Db) (owner : DirectoryOwner) (id : String) :
    Option (List DirectoryBinding) :=
  (get db owner id).map fun _ => db.bindings.filter fun row =>
    row.key.owner = owner && row.directoryId = id

/-- `find((row) => row.employee_id === employee)`. -/
def bindingOf (rows : List DirectoryBinding) (employee : String) :
    Option DirectoryBinding :=
  rows.find? fun row => row.employeeId = employee

/-- `register` with the id and the date it makes. -/
def register (db : Db) (owner : DirectoryOwner) (host : HostDirectory)
    (id now : String) : Except String Db :=
  match (list db owner).find? fun row =>
      row.canonicalPath = host.canonicalPath with
  | some existing =>
      if existing.rootIdentity = host.rootIdentity then .ok db
      else .error "source_changed"
  | none =>
      if (lookup DirectoryResource.directoryId id db.directories).isSome then
        .error "constraint"
      else .ok { db with
        directories := db.directories ++ [⟨id, owner.tenantId,
          owner.memberId, host.canonicalPath, host.displayName,
          host.rootIdentity, 1, now, none⟩] }

def maxSafeInteger : Int := 2 ^ 53 - 1

/-- `Number.isSafeInteger(value) && value >= 0`. -/
def isSafeCount (value : Int) : Bool := 0 ≤ value && value ≤ maxSafeInteger

def bind (db : Db) (owner : DirectoryOwner) (id employee : String)
    (enabled : Bool) (expectedRevision : Int) (now : String) :
    Except String Db :=
  match bindings db owner id with
  | none => .error "unauthorized"
  | some rows =>
      let current := bindingOf rows employee
      let revision := (current.map DirectoryBinding.revision).getD 0
      if !isSafeCount expectedRevision then .error "invalid_revision"
      else if (revision : Int) ≠ expectedRevision then
        .error "revision_conflict"
      else if current.map DirectoryBinding.enabled = some enabled then .ok db
      else .ok { db with
        bindings := upsert DirectoryBinding.key ⟨owner.tenantId,
          owner.memberId, employee, id, enabled, revision + 1, now⟩
          db.bindings }

def revoke (db : Db) (owner : DirectoryOwner) (id now : String) :
    Except String Db :=
  match get db owner id with
  | none => .error "unauthorized"
  | some _ => .ok { db with
      directories := updateWhere
        (fun row => row.directoryId = id && row.owner = owner)
        (fun row => { row with
          revokedAt := some now
          revision := row.revision + 1 }) db.directories
      bindings := updateWhere
        (fun row => row.directoryId = id && row.key.owner = owner)
        (fun row => { row with
          enabled := false
          revision := row.revision + 1
          updatedAt := now }) db.bindings }

end LocalDirectoryStore

/-! ### `ExecutionAuthorizationRegistry` -/

/-- `AuthenticatedCaller`; `id` tells the objects apart, `exp` is the claim in
seconds when it is a number. -/
structure Caller where
  id : Nat
  callerId : String
  tenantId : Option String
  userId : Option String
  exp : Option Int
deriving DecidableEq

/-- `expiresAt` is `none` for infinity. -/
structure ExecutionIdentity where
  caller : Caller
  tenantId : String
  memberId : String
  expiresAt : Option Int
  generation : Nat
deriving DecidableEq

structure Registry where
  identities : List (String × ExecutionIdentity)
  generations : List (String × Nat)
deriving DecidableEq

namespace Registry

def key (tenantId memberId : String) : String :=
  encodeScope [tenantId, memberId]

def generation (registry : Registry) (key : String) : Nat :=
  (valueAt key registry.generations).getD 0

/-- A text that is there and not empty. -/
def filled (text : Option String) : Option String :=
  text.filter fun text => text ≠ ""

def register (registry : Registry) (caller : Caller) (now : Int) :
    Registry :=
  match filled caller.tenantId,
      filled (some (caller.userId.getD caller.callerId)) with
  | some tenantId, some memberId =>
      let expiry := caller.exp.map fun exp => exp * 1000
      if expiry.any (fun expiry => expiry ≤ now) then registry
      else
        let key := key tenantId memberId
        { registry with
          identities := assign key ⟨caller, tenantId, memberId, expiry,
            generation registry key⟩ registry.identities }
  | _, _ => registry

/-- The identity is of an older generation or has expired. -/
def stale (registry : Registry) (key : String) (now : Int)
    (identity : ExecutionIdentity) : Bool :=
  identity.generation ≠ generation registry key ||
    identity.expiresAt.any fun expiry => expiry ≤ now

/-- `get`, which drops a stale identity as `resolve` does. -/
def get (registry : Registry) (tenantId memberId : String) (now : Int) :
    Option ExecutionIdentity × Registry :=
  let key := key tenantId memberId
  match valueAt key registry.identities with
  | none => (none, registry)
  | some identity =>
      if stale registry key now identity then
        (none, { registry with
          identities := discard key registry.identities })
      else (some identity, registry)

def bump (registry : Registry) (key : String) : Registry :=
  { registry with
    generations := assign key (generation registry key + 1)
      registry.generations }

def invalidate (registry : Registry) (tenantId memberId : String) :
    Registry :=
  let key := key tenantId memberId
  bump { registry with identities := discard key registry.identities } key

def clear (registry : Registry) : Registry :=
  { (registry.identities.map Prod.fst).foldl bump registry with
    identities := [] }

end Registry

/-! ### What an employee may use -/

/-- `LocalDirectoryTool`. -/
inductive Tool where
  | search
  | read
deriving DecidableEq

def Tool.name : Tool → String
  | .search => "local_dir_search"
  | .read => "local_dir_read"

/-- `KNOWLEDGE_ALIAS`. -/
def Tool.knowledgeAlias : Tool → String
  | .search => "knowledge_search"
  | .read => "knowledge_get"

def granted (allowed : List (Option String)) (tool : Tool) : Bool :=
  allowed.isEmpty || allowed.contains (some tool.name) ||
    allowed.contains (some tool.knowledgeAlias)

def localDirectoryTools (snapshot : FrozenSnapshot) : List Tool :=
  match snapshot.knowledgePolicy with
  | some ⟨some state, some operations⟩ =>
      if state ≠ "inherit" && state ≠ "allow" then []
      else if (snapshot.allowedTools.getD []).contains none then []
      else [Tool.search, Tool.read].filter fun tool =>
        operations.contains (some tool.knowledgeAlias) &&
          granted (snapshot.allowedTools.getD []) tool
  | _ => []

/-- `(? IS NULL OR member_id = '' OR member_id = ?)`. -/
def columnMatches (column value : String) : Bool :=
  column = "" || column = value

def filledOr (column : String) (projected : Option String) : Option String :=
  if column = "" then projected else some column

def listLoadedExperts (db : Db) (owner : DirectoryOwner) : List Expert :=
  (db.experts.filter fun row => !row.revoked &&
    row.tenantId = owner.tenantId &&
    columnMatches row.memberId owner.memberId).map fun row =>
      ⟨row.employeeId, row.tenantId,
        filledOr row.memberId row.projectedMemberId, row.version,
        row.lifecycleStatus, row.revoked || row.projectedRevoked⟩

def listSnapshots (db : Db) (owner : DirectoryOwner) : List FrozenSnapshot :=
  (db.snapshots.filter fun row => columnMatches row.tenantId owner.tenantId &&
    columnMatches row.memberId owner.memberId).map fun row =>
      { row.projection with
        tenantId := filledOr row.tenantId row.projection.tenantId
        memberId := filledOr row.memberId row.projection.memberId }

/-- `employee`: the snapshot of the version that is loaded; `none` when it
throws. -/
def employee (db : Db) (owner : DirectoryOwner) (id : String) :
    Option FrozenSnapshot :=
  match (listLoadedExperts db owner).find? fun row =>
      row.employeeId = id && row.tenantId = owner.tenantId &&
        row.memberId = some owner.memberId && !row.revoked with
  | none => none
  | some expert =>
      if expert.lifecycleStatus = .other then none
      else (listSnapshots db owner).find? fun row =>
        row.employeeId = id && row.tenantId = some owner.tenantId &&
          row.memberId = some owner.memberId && row.version = expert.version

/-- `listConversationParticipants`. -/
def listConversationParticipants (db : Db) (id : String) : List Participant :=
  db.participants.filter fun row => row.conversationId = id && !row.removed

end AiTeam.LocalDirectory
