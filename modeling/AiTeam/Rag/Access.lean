/-
Who may ask what: `KnowledgeAccessPolicy.resolve` and
`RagAccessService.authorize` over the rows they read.
-/
import AiTeam.Knowledge.Store
import Mathlib.Data.List.Sort
import AiTeam.Rag.Payload

namespace AiTeam.Rag

open Knowledge (DocumentStatus BindingStatus)

inductive Failure where
  | unauthorized (detail : String)
  | forbidden (detail : String)
  /-- `RagUnavailable("knowledge service unavailable")`. -/
  | unavailable
  /-- Any other exception of a port. -/
  | raised (detail : String)
deriving DecidableEq

/-! ### Rows -/

structure Claims where
  tenantId : String
  userId : String
deriving DecidableEq

structure Member where
  id : String
  tenantId : String
  status : String
deriving DecidableEq

inductive EmployeeStatus where
  | draft
  | provisioning
  | active
  | paused
  | archived
  | provisioningFailed
deriving DecidableEq

structure EmployeeConfig where
  tools : List String
  version : Nat
  status : EmployeeStatus
deriving DecidableEq

structure PolicySnapshot where
  denied : Bool
  allowedOperations : List String
deriving DecidableEq

structure Snapshot where
  employeeId : String
  knowledgeRefs : List String
  knowledgePolicy : Option PolicySnapshot
deriving DecidableEq

/-- A row of `employee_knowledge_binding`. -/
structure WholeBinding where
  bindingId : String
  employeeId : String
  knowledgeSpaceId : String
  enabled : Bool
  policyRevision : Nat
  revokedAt : Option Int
deriving DecidableEq

/-- A row of `knowledge_document_binding`. -/
structure DocumentBinding where
  tenantId : String
  knowledgeSpaceId : String
  documentId : String
  employeeId : String
  ragDocumentId : Option String
  status : BindingStatus
  enabled : Option Bool
  policyRevision : Nat
  revokedAt : Option Int
deriving DecidableEq

structure Document where
  id : String
  tenantId : String
  knowledgeSpaceId : String
  displayName : String
  sourceType : String
  fileName : String
  storageKey : String
  status : DocumentStatus
  updatedAt : Option Int
deriving DecidableEq

structure Space where
  tenantId : String
  knowledgeSpaceId : String
deriving DecidableEq

structure RagHandle where
  tenantId : String
  knowledgeSpaceId : String
  workspace : String
  instanceId : String
deriving DecidableEq

/-- A storage key resolved under the storage root: the parts of its path, and
what reading the file gives when that does not fail. -/
structure StoredFile where
  parts : List String
  isFile : Bool
  sha256 : Option String
  text : Option Text
deriving DecidableEq

/-- The LightRAG endpoints: the instance of a handle, when there is one. -/
structure Instances where
  registry : Bool
  instanceId : RagHandle → Option String

/-- What the service reads at one moment; the ports answer by tenant.  The
document rows are in the order of their creation. -/
structure World where
  member : String → String → Option Member
  employee : String → String → Option EmployeeConfig
  snapshot : String → String → String → Except Failure Snapshot
  whole : String → String → List WholeBinding
  bindings : List DocumentBinding
  documents : List Document
  keyed : Keyed Document.id documents
  space : Option (String → String → Option Space)
  defaultSpace : String → Option String
  isEnterprise : String → String → Bool
  handle : String → String → Except Failure (Option RagHandle)
  instances : Option Instances
  file : String → Option StoredFile

namespace World

/-- `KnowledgeDocumentRepository.get`. -/
def document (world : World) (tenantId id : String) : Option Document :=
  (lookup Document.id id world.documents).filter (·.tenantId == tenantId)

/-- `list_by_space`. -/
def bySpace (world : World) (tenantId spaceId : String) : List Document :=
  world.documents.filter fun document =>
    document.tenantId == tenantId && document.knowledgeSpaceId == spaceId

/-- `list_by_employee`. -/
def byEmployee (world : World) (tenantId employeeId : String) :
    List DocumentBinding :=
  world.bindings.filter fun row =>
    row.tenantId == tenantId && row.employeeId == employeeId

end World

/-! ### The policy -/

def defaultEmployeeTools : List String :=
  ["bash", "read", "write", "edit", "todo_update", "knowledge_search",
    "knowledge_get", "hindsight_recall", "hindsight_retain"]

def knowledgeTools : List String := ["knowledge_search", "knowledge_get"]

inductive PolicyState where
  | deny
  | allow
  | inherit
deriving DecidableEq

structure Fingerprint where
  version : Nat
  state : PolicyState
  tools : List String
  whole : List (String × Bool × Nat × Option Int)
  documents :
    List (String × BindingStatus × Option Bool × Nat × Option Int)
deriving DecidableEq

structure KnowledgeAccess where
  state : PolicyState
  allowedOperations : List String
  deniedDocuments : List String
  fingerprint : Fingerprint
deriving DecidableEq

def WholeBinding.entry (row : WholeBinding) :
    String × Bool × Nat × Option Int :=
  (row.bindingId, row.enabled, row.policyRevision, row.revokedAt)

def DocumentBinding.entry (row : DocumentBinding) :
    String × BindingStatus × Option Bool × Nat × Option Int :=
  (row.documentId, row.status, row.enabled, row.policyRevision,
    row.revokedAt)

/-- `sorted`: a row has its own first component. -/
def sortedEntries {E : Type} (entries : List (String × E)) :
    List (String × E) :=
  entries.insertionSort fun left right => left.1 ≤ right.1

def deniesDocument (row : DocumentBinding) : Bool :=
  row.enabled == some false || row.revokedAt.isSome || row.status == .revoked

/-- `KnowledgeAccessPolicy.resolve`. -/
def resolve (world : World) (tenantId employeeId : String)
    (tools : List String) (version : Nat) : Except Failure KnowledgeAccess :=
  let whole := world.whole tenantId employeeId
  let documents := world.byEmployee tenantId employeeId
  if whole.all (·.employeeId == employeeId) &&
      documents.all (fun row => row.tenantId == tenantId &&
        row.employeeId == employeeId) then
    let denied := whole.any fun row => !row.enabled || row.revokedAt.isSome
    let state := if denied then .deny else if whole = [] then .inherit
      else .allow
    let configured := if tools = [] then defaultEmployeeTools else tools
    let effectiveTools :=
      if denied then configured.filter (!knowledgeTools.contains ·)
      else configured
    .ok
      { state
        allowedOperations := knowledgeTools.filter effectiveTools.contains
        deniedDocuments :=
          (documents.filter deniesDocument).map (·.documentId)
        fingerprint :=
          { version, state, tools := effectiveTools
            whole := sortedEntries (whole.map WholeBinding.entry)
            documents :=
              sortedEntries (documents.map DocumentBinding.entry) } }
  else .error (.forbidden "employee knowledge policy scope mismatch")

namespace KnowledgeAccess

/-- `require`. -/
def require (access : KnowledgeAccess) (operation : Option String) :
    Except Failure Unit :=
  if access.state = .deny ∨ access.allowedOperations = [] then
    .error (.forbidden "employee knowledge access denied")
  else if operation.any (!access.allowedOperations.contains ·) then
    .error (.forbidden "employee knowledge operation denied")
  else .ok ()

def permitsDocument (access : KnowledgeAccess) (documentId : String) : Bool :=
  !access.deniedDocuments.contains documentId

end KnowledgeAccess

/-! ### Authorization -/

structure Authorized where
  tenantId : String
  employeeId : String
  handles : List RagHandle
  bindings : List DocumentBinding
  policy : KnowledgeAccess
deriving DecidableEq

/-- `_valid_binding`. -/
def validBinding (tenantId employeeId spaceId : String)
    (row : DocumentBinding) : Bool :=
  row.tenantId == tenantId && row.employeeId == employeeId &&
    row.knowledgeSpaceId == spaceId && row.status == .ready &&
    row.enabled != some false && row.documentId != ""

/-- The projected policy of the snapshot. -/
def requireProjected (projected : Option PolicySnapshot)
    (operation : Option String) : Except Failure Unit :=
  match projected with
  | none => .ok ()
  | some projected =>
      if projected.denied ∨ projected.allowedOperations = [] then
        .error (.forbidden "employee knowledge access denied")
      else if operation.any (!projected.allowedOperations.contains ·) then
        .error (.forbidden "employee knowledge operation denied")
      else .ok ()

/-- The spaces to search: those of the snapshot, else the enterprise's. -/
def spaceRefs (world : World) (tenantId : String) (snapshot : Snapshot) :
    List String :=
  let refs := (snapshot.knowledgeRefs.filter (· != "")).eraseDups
  if refs = [] then
    ((world.defaultSpace tenantId).filter (· != "")).toList
  else refs

def bindingUnavailable : Failure :=
  .forbidden "employee knowledge binding is unavailable"

/-- The endpoint of a handle is configured. -/
def reachable (world : World) (handle : RagHandle) : Bool :=
  world.instances.all fun instances =>
    (instances.instanceId handle).any fun instanceId =>
      !instances.registry || handle.instanceId == instanceId

/-- One space of `authorize`: its handle and its bindings. -/
def authorizeSpace (world : World) (tenantId employeeId spaceId : String) :
    Except Failure (RagHandle × List DocumentBinding) :=
  let enterprise := world.isEnterprise tenantId spaceId
  let bindings := (world.byEmployee tenantId employeeId).filter
    (validBinding tenantId employeeId spaceId)
  if bindings = [] ∧ enterprise = false then .error bindingUnavailable
  else if enterprise = false ∧ world.space.any (fun spaces =>
      !(spaces tenantId spaceId).any fun space =>
        space.tenantId == tenantId && space.knowledgeSpaceId == spaceId) then
    .error bindingUnavailable
  else do
    match ← world.handle tenantId spaceId with
    | none => .error bindingUnavailable
    | some handle =>
        if handle.tenantId ≠ tenantId ∨ handle.knowledgeSpaceId ≠ spaceId then
          .error bindingUnavailable
        else if reachable world handle then .ok (handle, bindings)
        else .error bindingUnavailable

/-- The loop over the spaces. -/
def authorizeSpaces (world : World) (tenantId employeeId : String) :
    List String → Except Failure (List RagHandle × List DocumentBinding)
  | [] => .ok ([], [])
  | spaceId :: rest => do
      let (handle, bindings) ←
        authorizeSpace world tenantId employeeId spaceId
      let (handles, others) ← authorizeSpaces world tenantId employeeId rest
      .ok (handle :: handles, bindings ++ others)

/-- `require_active` and the identity checks. -/
def activeMember (claims : Claims) (member : Option Member) :
    Except Failure Unit :=
  match member with
  | none => .error (.unauthorized "account no longer exists")
  | some member =>
      if member.status ≠ "active" then
        .error (.forbidden "account is not active")
      else if member.tenantId ≠ claims.tenantId ∨ member.id ≠ claims.userId
      then .error (.forbidden "member is not active")
      else .ok ()

/-- `authorize`. -/
def authorize (world : World) (claims : Claims) (employeeId : String)
    (operation : Option String) : Except Failure Authorized :=
  if claims.tenantId = "" ∨ claims.userId = "" ∨ employeeId = "" ∨
      256 < employeeId.length then
    .error (.unauthorized "invalid RAG identity")
  else do
    activeMember claims (world.member claims.tenantId claims.userId)
    match world.employee claims.tenantId employeeId with
    | none => .error (.forbidden "employee is not runnable")
    | some config =>
        if config.status ≠ .active then
          .error (.forbidden "employee is not runnable")
        else
          let snapshot ←
            world.snapshot claims.tenantId claims.userId employeeId
          if snapshot.employeeId ≠ employeeId then
            .error (.forbidden "employee is not authorized")
          else
            let policy ← resolve world claims.tenantId employeeId config.tools
              config.version
            policy.require operation
            requireProjected snapshot.knowledgePolicy operation
            let refs := spaceRefs world claims.tenantId snapshot
            if refs = [] then .error bindingUnavailable
            else
              let (handles, bindings) ←
                authorizeSpaces world claims.tenantId employeeId refs
              .ok ⟨claims.tenantId, employeeId, handles, bindings, policy⟩

end AiTeam.Rag
