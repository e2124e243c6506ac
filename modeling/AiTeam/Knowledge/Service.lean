/-
Recovery workers and requests on one document: `KnowledgeIntakeRecovery.process`,
`delete` and `reconcile_delete`, cut at their transactions and upstream calls.
Every action is one of these; upstream answers and failures are its inputs.
-/
import AiTeam.Machine
import AiTeam.Knowledge.Store

namespace AiTeam.Knowledge

/-! ### Workers -/

/-- Where a worker is in `process`, with its copy of the job and the
`text_chars` of the document it read. -/
inductive Phase where
  | claimed (job : Job)
  | read (job : Job) (textChars : Option Nat)
  | working (job : Job) (textChars : Option Nat)
  | fenced (job : Job) (textChars : Option Nat)
  /-- `submit_text` returned a track id. -/
  | accepted (job : Job) (textChars : Option Nat) (trackId : String)
  | tracked (job : Job) (textChars : Option Nat)
  /-- The job has been submitted; its outcome is to be reconciled. -/
  | submitted (job : Job) (textChars : Option Nat)
  | settling (job : Job) (settlement : Store.Settlement)
  | publishing (job : Job) (publication : Store.Publication)
  /-- In the exception handler. -/
  | broken (job : Job)

def Phase.job : Phase → Job
  | .claimed job => job
  | .read job _ => job
  | .working job _ => job
  | .fenced job _ => job
  | .accepted job _ _ => job
  | .tracked job _ => job
  | .submitted job _ => job
  | .settling job _ => job
  | .publishing job _ => job
  | .broken job => job

/-- `RagIngestionStatus`. -/
structure Status where
  state : Store.UpstreamState
  upstreamDocumentId : Option String
  chunkCount : Option Nat
deriving DecidableEq

inductive WorkerAction where
  | readDocument
  /-- The check on jobs whose `file_source` is the document id. -/
  | checkGenerations
  /-- The text cannot be extracted. -/
  | reject (code : String)
  | fence (textChars : Nat) (now : Int)
  /-- `submit_text`, and the track id unless it raises. -/
  | submit (trackId : Option String)
  | recordTrack (now : Int)
  | reload
  /-- `reconcile_ingestion`, and the employees of the space. -/
  | reconcile (status : Status) (employeeIds : List String)
  | settle (now : Int)
  | publish (now : Int)
  /-- Anything in the `try` raises. -/
  | fail
  /-- The handler reads the job again. -/
  | inspect
  | crash

inductive Event where
  | submitted (jobId : Nat)
  | revoked
deriving DecidableEq

def failedWith (code : String) : Store.Settlement :=
  ⟨.failed, some code, none, fun h => nomatch h⟩

def unknownOutcome (code : Option String)
    (h : code = none ∨ code = some submissionUnknown) : Store.Settlement :=
  ⟨.unknown, code, none, fun _ => h⟩

/-- What `process` does with a reconciled status. -/
def reconciled (job : Job) (textChars : Option Nat) (status : Status)
    (employeeIds : List String) : Phase :=
  match status.state, status.upstreamDocumentId with
  | .processed, some upstreamDocumentId =>
      .publishing job ⟨upstreamDocumentId, status.chunkCount,
        (job.textChars.or textChars).getD 0, employeeIds⟩
  | .failed, upstreamDocumentId =>
      .settling job ⟨.failed, some "INDEX_FAILED", upstreamDocumentId,
        fun h => nomatch h⟩
  | state, upstreamDocumentId =>
      .settling job ⟨state, none, upstreamDocumentId, fun _ => .inl rfl⟩

/-- One step of a worker: the store, the phase it goes on in, and events. -/
def work (store : Store) (owner : String) :
    Phase → WorkerAction → Store × Option Phase × List Event
  | _, .crash => (store, none, [])
  | .claimed job, .readDocument =>
      match store.document with
      | none => (store, none, [])
      | some document => (store, some (.read job document.textChars), [])
  | .read job textChars, .checkGenerations =>
      if store.document.any (·.id == job.fileSource) &&
          store.jobs.length != 1 then
        (store, some (.settling job
          (unknownOutcome (some submissionUnknown) (.inr rfl))), [])
      else if job.submissionState = .notSubmitted then
        (store, some (.working job textChars), [])
      else (store, some (.submitted job textChars), [])
  | .working job _, .reject code =>
      (store, some (.settling job (failedWith code)), [])
  | .working job textChars, .fence chars now =>
      match store.fenceSubmission job.id owner chars now with
      | none => (store, none, [])
      | some store => (store, some (.fenced job textChars), [])
  | .fenced job textChars, .submit trackId =>
      (store, some (match trackId with
        | some trackId => .accepted job textChars trackId
        | none => .broken job), [.submitted job.id])
  | .accepted job textChars trackId, .recordTrack now =>
      match store.recordTrack job.id owner trackId now with
      | none => (store, none, [])
      | some store => (store, some (.tracked job textChars), [])
  | .tracked job textChars, .reload =>
      match lookup Job.id job.id store.jobs with
      | none => (store, none, [])
      | some job => (store, some (.submitted job textChars), [])
  | .submitted job textChars, .reconcile status employeeIds =>
      (store, some (reconciled job textChars status employeeIds), [])
  | .settling job settlement, .settle now =>
      ((store.settle job owner settlement now).getD store, none, [])
  | .publishing job publication, .publish now =>
      match store.publishReady job owner publication now with
      | none => (store, some (.broken job), [])
      | some store => (store, none, [])
  -- The document is read outside the `try`, and the handler is not in it.
  | .claimed job, .fail => (store, some (.claimed job), [])
  | .broken job, .fail => (store, some (.broken job), [])
  | phase, .fail => (store, some (.broken phase.job), [])
  | .broken job, .inspect =>
      (store, some (.settling job
        (if (lookup Job.id job.id store.jobs).any
            (·.submissionState == .notSubmitted)
          then failedWith "INDEX_UNCONFIGURED"
          else unknownOutcome none (.inl rfl))), [])
  | phase, _ => (store, some phase, [])

/-! ### Deletion -/

/-- Where a delete or reconcile request is. -/
inductive Request where
  /-- The document was read and is not protected. -/
  | deleteRead (status : DocumentStatus)
  | deleteAdmitted (status : DocumentStatus)
  | deleteRecorded (operationId : Nat) (status : DocumentStatus)
  | deleteMoved (operationId : Nat)
  | deleteRevoked (operationId : Nat)
  | reconcileRead (status : DocumentStatus)
  /-- The document was deleting and the receipt is retryable. -/
  | reconcileAdmitted (operationId : Nat)
  /-- Upstream has no copy and the source file is gone. -/
  | reconcileAbsent (operationId : Nat)
  | reconcilePublished (operationId : Nat)
deriving DecidableEq

/-- How the calls to LightRAG ended. -/
inductive Upstream where
  | absent
  | started
  | busy
  | unavailable
  | sourceUnavailable
deriving DecidableEq

def Upstream.name : Upstream → String
  | .absent => "absent"
  | .started => "deletion_started"
  | .busy => "busy"
  | .unavailable => "unavailable"
  | .sourceUnavailable => "source_unavailable"

def Upstream.errorCode : Upstream → Option String
  | .unavailable => some "LIGHTRAG_UNAVAILABLE"
  | .sourceUnavailable => some "SOURCE_DELETE_FAILED"
  | _ => none

inductive RequestAction where
  | readDelete
  | admitDelete (key : String)
  | recordDelete (operationId : Nat) (key : String) (now : Int)
  | moveDelete
  | revokeDelete
  | answerDelete (upstream : Upstream)
  | readReconcile
  | admitReconcile (key : Option String)
  | probeReconcile (upstream : Upstream)
  | publishDeleted
  | completeDelete
  | abandon
deriving DecidableEq

/-- The receipt after the calls to LightRAG. -/
def answered (store : Store) (operationId : Nat) (upstream : Upstream) :
    Store :=
  store.updateOperation operationId
    (if upstream.errorCode.isSome then .failed else .pending)
    (some upstream.name) upstream.errorCode
    (upstream.errorCode.map fun _ => "knowledge deletion unavailable")

/-- `delete` on the document it read. -/
def deletable : DocumentStatus → Bool
  | .ready | .failed | .deleting => true
  | _ => false

/-- One step of a request; `none` when there is no request yet. -/
def request (store : Store) :
    Option Request → RequestAction → Store × Option Request × List Event
  | none, .readDelete =>
      match store.document with
      | none => (store, none, [])
      | some document =>
          if document.errorCode = some submissionUnknown then
            (store, none, [])
          else (store, some (.deleteRead document.status), [])
  | some (.deleteRead status), .admitDelete key =>
      if (store.operationOf .delete key).isNone && deletable status then
        (store, some (.deleteAdmitted status), [])
      else (store, none, [])
  | some (.deleteAdmitted status), .recordDelete operationId key now =>
      let (store, operation) :=
        store.createOperation operationId .delete key now
      if operation.status = .pending then
        (store, some (.deleteRecorded operation.id status), [])
      else (store, none, [])
  | some (.deleteRecorded operationId status), .moveDelete =>
      if status = .deleting then
        (store, some (.deleteMoved operationId), [])
      else match store.transitionStatus [.ready, .failed] .deleting with
        | none =>
            (store.updateOperation operationId .failed none
              (some "STATE_CONFLICT")
              (some "document changed while deletion was requested"),
              none, [])
        | some store => (store, some (.deleteMoved operationId), [])
  | some (.deleteMoved operationId), .revokeDelete =>
      (store.markRevoked, some (.deleteRevoked operationId), [.revoked])
  | some (.deleteRevoked operationId), .answerDelete upstream =>
      (answered store operationId upstream, none, [])
  | none, .readReconcile =>
      (store, store.document.map (.reconcileRead ·.status), [])
  | some (.reconcileRead status), .admitReconcile key =>
      match (key.bind (store.operationOf .delete)).or store.latestDelete with
      | none => (store, none, [])
      | some operation =>
          if status = .deleted then
            -- The completion receipt is repaired.
            if operation.status ≠ .completed ∧ Store.retryable operation then
              (store.updateOperation operation.id .completed
                (some "deleted") none none, none, [])
            else (store, none, [])
          else if status = .deleting ∧ Store.retryable operation then
            (store, some (.reconcileAdmitted operation.id), [])
          else (store, none, [])
  | some (.reconcileAdmitted operationId), .probeReconcile upstream =>
      if upstream = .absent then
        (store, some (.reconcileAbsent operationId), [])
      else (answered store operationId upstream, none, [])
  | some (.reconcileAbsent operationId), .publishDeleted =>
      match store.transitionStatus [.deleting] .deleted with
      | some store => (store, some (.reconcilePublished operationId), [])
      | none =>
          if store.document.any (·.status == .deleted) &&
              store.operations.any (fun operation =>
                operation.id == operationId &&
                  operation.status == .completed) then
            (store, none, [])
          else
            (store.updateOperation operationId .failed
              (some "state_conflict") (some "STATE_CONFLICT")
              (some "document changed while deletion was reconciled"),
              none, [])
  | some (.reconcilePublished operationId), .completeDelete =>
      (store.updateOperation operationId .completed (some "deleted") none
        none, none, [])
  | _, .abandon => (store, none, [])
  | request, _ => (store, request, [])

/-! ### The machine -/

structure State where
  store : Store
  workers : List (String × Phase)
  requests : List (Nat × Request)

inductive Action where
  | create (documentId : String) (parsing : Bool) (jobId : Nat) (now : Int)
  | reindex (key : String) (operationId jobId : Nat) (now : Int)
  | claim (owner : String) (jobId : Nat) (now : Int)
  | worker (owner : String) (action : WorkerAction)
  | request (id : Nat) (action : RequestAction)
  | backfill (employeeId : String)
  | setPolicy (employeeId : String) (enabled revoke : Bool)

def put {K V : Type} [DecidableEq K] (key : K) (value : Option V)
    (entries : List (K × V)) : List (K × V) :=
  match value with
  | some value => assign key value entries
  | none => discard key entries

def step (state : State) : Action → State × List Event
  | .create documentId parsing jobId now =>
      ({ state with
        store := (state.store.create documentId parsing jobId now).getD
          state.store }, [])
  | .reindex key operationId jobId now =>
      ({ state with
        store := (state.store.prepareReindex key operationId jobId now).getD
          state.store }, [])
  | .claim owner jobId now =>
      match state.store.claim owner jobId now with
      | none => (state, [])
      | some (store, job) =>
          ({ state with
            store, workers := assign owner (.claimed job) state.workers }, [])
  | .worker owner action =>
      match valueAt owner state.workers with
      | none => (state, [])
      | some phase =>
          let (store, phase, events) := work state.store owner phase action
          ({ state with store, workers := put owner phase state.workers },
            events)
  | .request id action =>
      let (store, next, events) :=
        request state.store (valueAt id state.requests) action
      ({ state with store, requests := put id next state.requests }, events)
  | .backfill employeeId =>
      ({ state with store := state.store.backfillReady employeeId }, [])
  | .setPolicy employeeId enabled revoke =>
      ({ state with store := state.store.setPolicy employeeId enabled revoke },
        [])

def machine : Machine State Action Event where
  step := step

def State.empty : State := ⟨⟨none, [], [], []⟩, [], []⟩

end AiTeam.Knowledge
