/-
`MemoryRetentionService`: what a retain request hands over, what a recall may
return, what a worker reports of its job, and the machine in which requests,
policy writers and cleanup workers interleave.
-/
import Mathlib.Algebra.Group.Nat.Defs
import AiTeam.Machine
import AiTeam.Retention.Repository

namespace AiTeam.Retention

/-- What the service takes from its runtime. -/
structure Runtime where
  isoformat : Int → String
  isSpace : Char → Bool
  /-- The digest of the sorted ids of a batch of facts. -/
  batchSha256 : List String → String

/-- `deadline(row, policy)`. -/
def deadline (row : Row) (policy : Projection) : Option Int :=
  match policy.retentionDays with
  | none => row.expiresAt
  | some days => some (least row.expiresAt (row.acceptedAt + days * day))

def isRetentionGuarded (policy : Projection) : Bool :=
  policy.retentionDays.isSome || policy.retentionGuarded

/-! ### Recall -/

/-- A native fact; a field is `none` when it is missing or of another type. -/
structure Fact where
  kind : Option String
  documentId : Option String
  metadata : Option (List (String × String))
  id : Option String
  text : Option String
deriving DecidableEq

/-- What a guarded recall returns of a fact. -/
structure Answer where
  id : String
  text : String
  kind : String
deriving DecidableEq

inductive Recalled where
  /-- The response as the backend gave it. -/
  | response (results : Option (List (Option Fact)))
  | facts (answers : List Answer)
deriving DecidableEq

def acceptanceMetadata (runtime : Runtime) (row : Row) :
    List (String × String) :=
  [("aiteam_operation", row.operationId),
    ("aiteam_policy_revision", toString row.policyRevision),
    ("aiteam_accepted_at", runtime.isoformat row.acceptedAt)]

def provesFact (runtime : Runtime) (row : Row) (fact : Fact) : Bool :=
  fact.metadata.any fun metadata =>
    fact.documentId == some row.documentId &&
      (acceptanceMetadata runtime row).all fun entry =>
        valueAt entry.1 metadata == some entry.2

/-- The row a fact is shown for. -/
def recallable (runtime : Runtime) (rows : List Row) (policy : Projection)
    (fact : Fact) (now : Int) : Option (Row × String) :=
  match fact.kind, fact.documentId with
  | some kind, some documentId =>
      if kind = "world" ∨ kind = "experience" then
        ((lookup Row.documentId documentId rows).filter fun row =>
          provesFact runtime row fact && row.operationState == .completed &&
            row.cleanupState == .waiting &&
            (deadline row policy).all (now < ·)).map (·, kind)
      else none
  | _, _ => none

/-- What a turn of the loop reads: the table, in a transaction of its own, and
the clock. -/
structure Reading where
  rows : List Row
  now : Int
deriving DecidableEq

/-- The loop of `filter_recall`; `none` is `HindsightUnavailable`. -/
def collect (runtime : Runtime) (policy : Projection) (readings : Nat → Reading) :
    List (Option Fact) → Option (List (Answer × Option Int))
  | [] => some []
  | none :: rest => collect runtime policy (readings ∘ Nat.succ) rest
  | some fact :: rest =>
      match recallable runtime (readings 0).rows policy fact
        (readings 0).now with
      | none => collect runtime policy (readings ∘ Nat.succ) rest
      | some (row, kind) =>
          match fact.id, fact.text with
          | some id, some text =>
              if 1 ≤ id.length ∧ id.length ≤ 256 ∧
                  text.toList.any (!runtime.isSpace ·) ∧
                  text.length ≤ 131072 then
                (collect runtime policy (readings ∘ Nat.succ) rest).map
                  ((⟨id, text, kind⟩, deadline row policy) :: ·)
              else none
          | _, _ => none

/-- `filter_recall` with a policy that was read before: `ready` says whether
`require_ready` passes, and `now` is the clock after the loop. -/
def filterRecall (runtime : Runtime) (policy : Projection) (ready : Bool)
    (response : Option (List (Option Fact))) (readings : Nat → Reading)
    (now : Int) : Option Recalled :=
  if isRetentionGuarded policy then
    match ready, response with
    | true, some results =>
        if results.length ≤ 256 then
          (collect runtime policy readings results).map fun output =>
            .facts ((output.filter fun entry =>
              entry.2.all (now < ·)).map Prod.fst)
        else none
    | _, _ => none
  else some (.response response)

/-! ### Cleanup -/

/-- How the invalidation of a page ended. -/
inductive Sweep where
  | completed
  | outOfTime
  /-- `owned` answered that the claim is lost. -/
  | lost
  | unconfirmed
deriving DecidableEq

/-- What the backend and the clocks gave one worker. -/
structure Reply where
  startedAt : Int
  checkedAt : Int
  /-- The clock in the exception handler. -/
  failedAt : Int
  /-- `require_ready` and the operation's status were confirmed. -/
  confirmed : Bool
  /-- The ids of the page and its total, `none` when it is unconfirmed. -/
  page : Option (List String × Nat)
  sweep : Sweep
deriving DecidableEq

/-- `now + timedelta(seconds=min(300, 2 ** min(attempts, 8)))`. -/
def backoff (job : Row) (failedAt : Int) : Int :=
  failedAt + (min 300 (2 ^ min job.attempts 8) : Nat)

def failure (job : Row) (state : OperationState) (cleanup : CleanupState)
    (reply : Reply) : Store.Finish :=
  ⟨state, cleanup, backoff job reply.failedAt,
    some "memory_retention_reconciliation_failed", none⟩

/-- What the worker reports, once `state` is what it knows of the operation;
`none` when it gives up its claim without a report. -/
def maintainJob (runtime : Runtime) (job : Row) (state : OperationState)
    (reply : Reply) : Option Store.Finish :=
  let soon := reply.startedAt + 5
  if !reply.confirmed then
    some (failure job state job.cleanupState reply)
  else if state = .failed ∨ state = .cancelled ∨
      (state = .completed ∧ job.expiresAt.any (· ≤ reply.checkedAt)) then
    match reply.page with
    | none => some (failure job state .invalidating reply)
    | some ([], total) =>
        if total = 0 then some ⟨state, .cleaned, soon, none, none⟩
        else some (failure job state .invalidating reply)
    | some (ids, _) =>
        if job.lastBatchSha256 = some (runtime.batchSha256 ids) then
          some (failure job state .invalidating reply)
        else match reply.sweep with
          | .completed => some ⟨state, .invalidating, soon, none,
              some (runtime.batchSha256 ids)⟩
          | .outOfTime => some ⟨state, .invalidating, soon, none, none⟩
          | .lost => none
          | .unconfirmed => some (failure job state .invalidating reply)
  else if state.terminal then
    -- `datetime(9999, 1, 1)` when nothing is to be cleaned.
    some ⟨state, job.cleanupState, job.expiresAt.getD 253370764800, none,
      none⟩
  else some ⟨state, job.cleanupState, soon, none, none⟩

/-! ### The machine -/

/-- A worker between its transactions: its copy of the row, and the state of
the operation as far as it knows. -/
structure Job where
  row : Row
  state : OperationState
deriving DecidableEq

structure State (R : Type) where
  store : Store R
  /-- The policies that requests have read. -/
  held : List Projection
  /-- The claimed jobs, by owner. -/
  jobs : List (String × Job)
deriving DecidableEq

inductive Action (R : Type) where
  | read
  | write (patch : Store.Patch R) (requireExisting : Bool) (now : Int)
  /-- `prepare` on one item, with a policy that was read. -/
  | prepare (policy : Nat) (memberId documentId operationId : String)
      (now clock : Int)
  | claim (owner documentId : String) (now : Int)
  /-- The backend confirmed a status; a terminal one is persisted. -/
  | settle (owner : String) (status : OperationState) (now : Int)
  | finish (owner : String) (reply : Reply) (now : Int)
  | crash (owner : String)

inductive Event where
  | inForce (days : Option Nat) (time : Int)
  | accepted (documentId : String) (days : Option Nat)
  /-- The item goes to the backend. -/
  | handedOver (documentId : String)
  | attempted (documentId : String) (time : Int)
deriving DecidableEq

variable {R : Type} [DecidableEq R] [Inhabited R]

def inForce (store : Store R) : Option Nat :=
  store.setting.bind (·.policy.retentionDays)

def prepare (state : State R) (policy : Projection)
    (memberId documentId operationId : String) (now clock : Int) :
    State R × List Event :=
  match state.store.accept policy memberId documentId operationId now with
  | none => (state, [])
  | some (store, row) =>
      let accepted :=
        if (lookup Row.documentId documentId state.store.rows).isNone
          then [.accepted documentId (inForce state.store)] else []
      let refused := row.cleanupState == .cleaned ||
        (deadline row policy).any (· ≤ clock)
      ({ state with store },
        accepted ++ if refused then [] else [.handedOver documentId])

def step (runtime : Runtime) (state : State R) :
    Action R → State R × List Event
  | .read => ({ state with
      held := state.held ++ state.store.effective.toList }, [])
  | .write patch requireExisting now =>
      match state.store.writePolicy patch requireExisting now with
      | none => (state, [])
      | some store =>
          ({ state with store }, [.inForce (inForce store) now])
  | .prepare policy memberId documentId operationId now clock =>
      match state.held[policy]? with
      | none => (state, [])
      | some policy =>
          prepare state policy memberId documentId operationId now clock
  | .claim owner documentId now =>
      match state.store.claim owner documentId now with
      | none => (state, [])
      | some (store, row) =>
          ({ state with
            store, jobs := assign owner ⟨row, row.operationState⟩ state.jobs },
            [])
  | .settle owner status now =>
      match valueAt owner state.jobs with
      | none => (state, [])
      | some job =>
          if job.state.terminal then (state, [])
          else if status.terminal then
            let (store, persisted) :=
              state.store.settled job.row owner status now
            ({ state with
              store
              jobs := if persisted then assign owner ⟨job.row, status⟩ state.jobs
                else discard owner state.jobs }, [])
          else if status = .unknown then (state, [])
          else ({ state with
            jobs := assign owner ⟨job.row, status⟩ state.jobs }, [])
  | .finish owner reply now =>
      match valueAt owner state.jobs with
      | none => (state, [])
      | some job =>
          let jobs := discard owner state.jobs
          match maintainJob runtime job.row job.state reply with
          | none => ({ state with jobs }, [])
          | some report =>
              ({ state with
                store := state.store.finish job.row owner report now, jobs },
                if state.store.rows.any (Store.owned job.row owner now)
                  then [.attempted job.row.documentId now] else [])
  | .crash owner => ({ state with jobs := discard owner state.jobs }, [])

def machine (R : Type) [DecidableEq R] [Inhabited R] (runtime : Runtime) :
    Machine (State R) (Action R) Event where
  step := step runtime

def State.empty : State R := ⟨⟨none, false, []⟩, [], []⟩

/-! ### What a run has seen -/

def Event.days : Event → Option Nat
  | .inForce days _ => days
  | .accepted _ days => days
  | _ => none

def Event.accepts (documentId : String) : Event → Bool
  | .accepted document _ => document == documentId
  | _ => false

/-- The retentions in force at the acceptance of a document and after it. -/
def daysSince (documentId : String) (past : List Event) : List Nat :=
  (past.dropWhile fun event => !event.accepts documentId).filterMap Event.days

def lastAttempt (documentId : String) (past : List Event) : Option Int :=
  (past.filterMap fun
    | .attempted document time =>
        if document = documentId then some time else none
    | _ => none).getLast?

/-- The last policy write that left a finite retention. -/
def lastShortening (past : List Event) : Option Int :=
  (past.filterMap fun
    | .inForce (some _) time => some time
    | _ => none).getLast?

end AiTeam.Retention
