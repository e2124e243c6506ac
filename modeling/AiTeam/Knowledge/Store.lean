/-
Knowledge intake, the rows of one document: its `knowledge_document` row, its
`knowledge_ingestion_job`, `knowledge_document_binding` and
`knowledge_document_operation` rows.  One definition per transaction of the
repositories; `now` is the start of the transaction, `none` a rollback.
-/
import Mathlib.Algebra.Group.Nat.Defs
import AiTeam.Table

namespace AiTeam.Knowledge

inductive DocumentStatus where
  | uploaded
  | parsing
  | indexing
  | ready
  | failed
  | reindexRequested
  | deleting
  | deleted
deriving DecidableEq

inductive JobStatus where
  | parsing
  | indexing
  | done
  | failed
  | reindexRequested
deriving DecidableEq

inductive SubmissionState where
  | notSubmitted
  | submitted
  | terminal
deriving DecidableEq

inductive BindingStatus where
  | pending
  | ready
  | stale
  | revoked
deriving DecidableEq

inductive OperationKind where
  | delete
  | reindex
deriving DecidableEq

inductive OperationStatus where
  | pending
  | accepted
  | failed
  | completed
deriving DecidableEq

def submissionUnknown : String := "SUBMISSION_UNKNOWN"

structure Document where
  id : String
  status : DocumentStatus
  textChars : Option Nat
  errorCode : Option String
  errorMessage : Option String
deriving DecidableEq

/-- The id is a uuid, ordered as a number. -/
structure Job where
  id : Nat
  status : JobStatus
  errorCode : Option String
  errorMessage : Option String
  chunkCount : Option Nat
  completedAt : Option Int
  createdAt : Int
  claimOwner : Option String
  leaseUntil : Option Int
  attempts : Nat
  nextAttemptAt : Int
  submissionState : SubmissionState
  fileSource : String
  trackId : Option String
  upstreamDocumentId : Option String
  textChars : Option Nat
  operationId : Option Nat
deriving DecidableEq

structure Binding where
  employeeId : String
  ragDocumentId : Option String
  status : BindingStatus
  enabled : Option Bool
  revoked : Bool
deriving DecidableEq

structure Operation where
  id : Nat
  kind : OperationKind
  idempotencyKey : String
  status : OperationStatus
  upstreamStatus : Option String
  errorCode : Option String
  errorMessage : Option String
  createdAt : Int
deriving DecidableEq

structure Store where
  document : Option Document
  jobs : List Job
  bindings : List Binding
  operations : List Operation
deriving DecidableEq

namespace Store

/-! ### Jobs -/

def insertedJob (documentId : String) (id : Nat) (status : JobStatus)
    (operationId : Option Nat) (now : Int) : Job :=
  { id, status
    errorCode := none
    errorMessage := none
    chunkCount := none
    completedAt := none
    createdAt := now
    claimOwner := none
    leaseUntil := none
    attempts := 0
    nextAttemptAt := now
    submissionState := .notSubmitted
    fileSource := documentId ++ "/" ++ toString id
    trackId := none
    upstreamDocumentId := none
    textChars := none
    operationId }

/-- `create` with its job; `status` is `uploaded` or `parsing`. -/
def create (store : Store) (documentId : String) (parsing : Bool)
    (jobId : Nat) (now : Int) : Option Store :=
  if store.document.isNone && store.jobs.all (·.id != jobId) then
    some { store with
      document := some ⟨documentId,
        if parsing then .parsing else .uploaded, none, none, none⟩
      jobs := store.jobs ++ [insertedJob documentId jobId .parsing none now] }
  else none

def operationOf (store : Store) (kind : OperationKind) (key : String) :
    Option Operation :=
  store.operations.find? fun operation =>
    operation.kind == kind && operation.idempotencyKey == key

def insertedOperation (id : Nat) (kind : OperationKind) (key : String)
    (now : Int) : Operation :=
  ⟨id, kind, key, .pending, none, none, none, now⟩

/-- The guard of `prepare_reindex` on the document. -/
def reindexable (document : Document) : Bool :=
  (document.status == .ready || document.status == .failed) &&
    document.errorCode != some submissionUnknown

/-- A key that has a receipt is only read. -/
def prepareReindex (store : Store) (key : String) (operationId jobId : Nat)
    (now : Int) : Option Store :=
  match store.operationOf .reindex key with
  | some _ => some store
  | none =>
      match store.document with
      | none => none
      | some document =>
          if reindexable document && store.jobs.all (·.id != jobId) then
            some
              { document := some { document with
                  status := .reindexRequested
                  errorCode := none
                  errorMessage := none }
                jobs := store.jobs ++ [insertedJob document.id jobId
                  .reindexRequested (some operationId) now]
                bindings := updateWhere (·.status != .revoked)
                  (fun binding => { binding with status := .stale })
                  store.bindings
                operations := store.operations ++
                  [insertedOperation operationId .reindex key now] }
          else none

/-- `ORDER BY created_at DESC, id DESC LIMIT 1`. -/
def newest (jobs : List Job) : Option Job :=
  jobs.find? fun job => jobs.all fun other =>
    other.createdAt < job.createdAt ||
      (other.createdAt == job.createdAt && other.id ≤ job.id)

/-- The document states in which a job may be claimed. -/
def claimableIn : DocumentStatus → Bool
  | .uploaded | .parsing | .indexing | .reindexRequested | .failed => true
  | _ => false

/-- Not finished, or submitted with an unknown outcome. -/
def unsettled (job : Job) : Bool :=
  (job.status != .done && job.status != .failed) ||
    job.submissionState == .submitted

def claimable (store : Store) (now : Int) (job : Job) : Bool :=
  job.nextAttemptAt ≤ now && job.leaseUntil.all (· ≤ now) &&
    unsettled job &&
    store.document.any (claimableIn ·.status) &&
    (newest store.jobs).any (·.id == job.id)

def claimed (owner : String) (now : Int) (job : Job) : Job :=
  { job with
    claimOwner := some owner
    leaseUntil := some (now + 90)
    attempts := job.attempts + 1 }

def claim (store : Store) (owner : String) (jobId : Nat) (now : Int) :
    Option (Store × Job) :=
  match lookup Job.id jobId store.jobs with
  | none => none
  | some job =>
      if claimable store now job then
        some ({ store with
          jobs := updateWhere (·.id == jobId) (claimed owner now) store.jobs },
          claimed owner now job)
      else none

/-- `_owned`. -/
def owned (store : Store) (jobId : Nat) (owner : String) (now : Int) : Bool :=
  store.jobs.any fun job => job.id == jobId &&
    job.claimOwner == some owner && job.leaseUntil.any (now < ·)

def fenced (textChars : Nat) (now : Int) (job : Job) : Job :=
  { job with
    submissionState := .submitted
    status := .indexing
    textChars := some textChars
    leaseUntil := some (now + 90) }

/-- `none` when the claim is lost or the job was fenced before. -/
def fenceSubmission (store : Store) (jobId : Nat) (owner : String)
    (textChars : Nat) (now : Int) : Option Store :=
  if store.owned jobId owner now then
    if store.jobs.any fun job => job.id == jobId &&
        job.submissionState == .notSubmitted then
      some { store with
        jobs := updateWhere (fun job => job.id == jobId &&
          job.submissionState == .notSubmitted) (fenced textChars now)
          store.jobs
        document := store.document.map fun document => { document with
          status := .indexing
          textChars := some textChars
          errorCode := none
          errorMessage := none } }
    else none
  else none

def recordTrack (store : Store) (jobId : Nat) (owner trackId : String)
    (now : Int) : Option Store :=
  if store.owned jobId owner now then
    some { store with
      jobs := updateWhere (·.id == jobId) (fun job => { job with
        trackId := some trackId
        leaseUntil := some (now + 90) }) store.jobs }
  else none

inductive UpstreamState where
  | processed
  | pending
  | failed
  | unknown
deriving DecidableEq

/-- The arguments of `settle`; an unknown outcome gets no other code. -/
structure Settlement where
  state : UpstreamState
  errorCode : Option String
  upstreamDocumentId : Option String
  unknown_code : state = .unknown →
    errorCode = none ∨ errorCode = some submissionUnknown

namespace Settlement

/-- `unknown_terminal`; `attempts` is read from the worker's copy. -/
def unknownTerminal (settlement : Settlement) (attempts : Nat) : Bool :=
  settlement.state == .unknown && 6 ≤ attempts

def code (settlement : Settlement) (attempts : Nat) : Option String :=
  settlement.errorCode.or
    (if settlement.unknownTerminal attempts then some submissionUnknown
      else none)

def closes (settlement : Settlement) (attempts : Nat) : Bool :=
  settlement.state == .failed || settlement.unknownTerminal attempts

def message (settlement : Settlement) (attempts : Nat) : Option String :=
  (settlement.code attempts).map fun _ => "Knowledge reconciliation required"

end Settlement

def settledJob (settlement : Settlement) (attempts : Nat) (now : Int)
    (job : Job) : Job :=
  { job with
    status := if settlement.closes attempts then .failed else .indexing
    submissionState :=
      if settlement.state = .failed then .terminal else job.submissionState
    errorCode := settlement.code attempts
    errorMessage := settlement.message attempts
    upstreamDocumentId :=
      settlement.upstreamDocumentId.or job.upstreamDocumentId
    claimOwner := none
    leaseUntil := none
    nextAttemptAt := now + (min 300 (2 ^ min attempts 8) : Nat)
    completedAt := if settlement.closes attempts then some now else none }

def settledDocument (settlement : Settlement) (attempts : Nat)
    (document : Document) : Document :=
  { document with
    status := if settlement.closes attempts then .failed else .indexing
    errorCode := settlement.code attempts
    errorMessage := settlement.message attempts }

/-- `settle` of the job a worker holds a copy of. -/
def settle (store : Store) (job : Job) (owner : String)
    (settlement : Settlement) (now : Int) : Option Store :=
  if store.owned job.id owner now then
    some { store with
      jobs := updateWhere (·.id == job.id)
        (settledJob settlement job.attempts now) store.jobs
      document := store.document.map
        (settledDocument settlement job.attempts)
      operations :=
        if settlement.closes job.attempts then
          updateWhere (some ·.id == job.operationId) (fun operation =>
            { operation with
              status := .failed
              errorCode := settlement.code job.attempts
              errorMessage := some "Knowledge processing failed" })
            store.operations
        else store.operations }
  else none

/-! ### Bindings -/

/-- `_upsert_ready_many_in_session`, one employee. -/
def upsertReady (ragDocumentId : String) (bindings : List Binding)
    (employeeId : String) : List Binding :=
  if bindings.any (·.employeeId == employeeId) then
    updateWhere (·.employeeId == employeeId) (fun binding => { binding with
      ragDocumentId := some ragDocumentId
      status := .ready }) bindings
  else bindings ++ [⟨employeeId, some ragDocumentId, .ready, none, false⟩]

structure Publication where
  ragDocumentId : String
  chunkCount : Option Nat
  textChars : Nat
  employeeIds : List String
deriving DecidableEq

def publishedJob (publication : Publication) (now : Int) (job : Job) : Job :=
  { job with
    status := .done
    chunkCount := publication.chunkCount
    completedAt := some now
    submissionState := .terminal
    claimOwner := none
    leaseUntil := none
    errorCode := none
    errorMessage := none
    upstreamDocumentId := some publication.ragDocumentId }

/-- `publish_ready` under a claim: the job passes through `indexing`, and so
does a document that is `indexing` or `failed`; any other is refused. -/
def publishReady (store : Store) (job : Job) (owner : String)
    (publication : Publication) (now : Int) : Option Store :=
  if store.owned job.id owner now then
    match store.document with
    | none => none
    | some document =>
        if document.status = .indexing ∨ document.status = .failed then
          some
            { document := some { document with
                status := .ready
                textChars := some publication.textChars
                errorCode := none
                errorMessage := none }
              jobs := updateWhere (·.id == job.id)
                (publishedJob publication now) store.jobs
              bindings := publication.employeeIds.foldl
                (upsertReady publication.ragDocumentId) store.bindings
              operations := updateWhere (some ·.id ==
                (lookup Job.id job.id store.jobs).bind Job.operationId)
                (fun operation => { operation with
                  status := .completed
                  upstreamStatus := some "processed" }) store.operations }
        else none
  else none

/-- The document is ready, for `backfill_ready_for_employee` and
`set_policy`. -/
def isReady (store : Store) : Bool :=
  store.document.any (·.status == .ready)

def backfillReady (store : Store) (employeeId : String) : Store :=
  match store.document with
  | none => store
  | some document =>
      if document.status = .ready then
        { store with
          bindings := upsertReady document.id store.bindings employeeId }
      else store

def policyApplied (ready enabled revoke : Bool) (binding : Binding) :
    Binding :=
  { binding with
    enabled := some enabled
    status := if ready then .ready else binding.status
    revoked := revoke }

/-- A revoked binding is not enabled: the table refuses any other row. -/
def setPolicy (store : Store) (employeeId : String) (enabled revoke : Bool) :
    Store :=
  if store.document.isNone || (revoke && enabled) then store
  else if store.bindings.any (·.employeeId == employeeId) then
    { store with
      bindings := updateWhere (fun binding =>
        binding.employeeId == employeeId &&
          (binding.enabled != some enabled || binding.revoked != revoke))
        (policyApplied store.isReady enabled revoke) store.bindings }
  else
    { store with
      bindings := store.bindings ++ [⟨employeeId, none,
        if store.isReady then .ready else .pending, some enabled, revoke⟩] }

/-- `mark_revoked_by_document`. -/
def markRevoked (store : Store) : Store :=
  { store with
    bindings := updateWhere (·.status != .revoked)
      (fun binding => { binding with status := .revoked }) store.bindings }

/-! ### Documents and receipts -/

/-- `transition_status`. -/
def transitionStatus (store : Store) (expected : List DocumentStatus)
    (status : DocumentStatus) : Option Store :=
  match store.document with
  | none => none
  | some document =>
      if document.status ∈ expected then
        some { store with
          document := some { document with
            status
            errorCode := none
            errorMessage := none } }
      else none

/-- `KnowledgeOperationRepository.create`. -/
def createOperation (store : Store) (id : Nat) (kind : OperationKind)
    (key : String) (now : Int) : Store × Operation :=
  match store.operationOf kind key with
  | some operation => (store, operation)
  | none =>
      let operation := insertedOperation id kind key now
      ({ store with operations := store.operations ++ [operation] }, operation)

def updateOperation (store : Store) (id : Nat) (status : OperationStatus)
    (upstreamStatus errorCode errorMessage : Option String) : Store :=
  { store with
    operations := updateWhere (·.id == id) (fun operation => { operation with
      status, upstreamStatus, errorCode, errorMessage }) store.operations }

/-- `get_latest_by_document` for a delete. -/
def latestDelete (store : Store) : Option Operation :=
  let deletes := store.operations.filter (·.kind == .delete)
  deletes.find? fun operation => deletes.all fun other =>
    other.createdAt < operation.createdAt ||
      (other.createdAt == operation.createdAt && other.id ≤ operation.id)

/-- `_delete_operation_retryable`. -/
def retryable (operation : Operation) : Bool :=
  operation.status == .pending ||
    (operation.status == .failed &&
      (operation.errorCode == some "LIGHTRAG_UNAVAILABLE" ||
        operation.errorCode == some "SOURCE_DELETE_FAILED"))

end Store

end AiTeam.Knowledge
