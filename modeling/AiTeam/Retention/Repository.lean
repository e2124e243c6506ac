/-
Memory acceptances of one employee: `memory_acceptance` rows of its bank, its
`employee_memory_setting` row and whether `memory_bank_guard` has its bank.
One definition per transaction of `MemoryRetentionRepository` and of
`write_policy_in_session`; times are seconds.
-/
import AiTeam.Table

namespace AiTeam.Retention

def day : Int := 86400

inductive OperationState where
  | pending
  | processing
  | completed
  | failed
  | cancelled
  | unknown
deriving DecidableEq

/-- `_TERMINAL`. -/
def OperationState.terminal : OperationState → Bool
  | .completed | .failed | .cancelled => true
  | _ => false

inductive CleanupState where
  | waiting
  | invalidating
  | cleaned
deriving DecidableEq

structure Row where
  documentId : String
  memberId : String
  operationId : String
  policyRevision : Nat
  acceptedAt : Int
  expiresAt : Option Int
  operationState : OperationState
  terminalAt : Option Int
  cleanupState : CleanupState
  claimOwner : Option String
  claimUntil : Option Int
  attempts : Nat
  nextAttempt : Int
  lastErrorCode : Option String
  lastBatchSha256 : Option String
deriving DecidableEq

/-- `LEAST(stored, value)`: a null is ignored. -/
def least (stored : Option Int) (value : Int) : Int :=
  match stored with
  | none => value
  | some stored => min stored value

/-- The normalized policy; `rest` is everything but the retention, the seed
memories included. -/
structure Policy (R : Type) where
  retentionDays : Option Nat
  rest : R
deriving DecidableEq

structure Setting (R : Type) where
  policy : Policy R
  revision : Nat
deriving DecidableEq

/-- What a request is given of the effective policy. -/
structure Projection where
  retentionDays : Option Nat
  revision : Nat
  retentionGuarded : Bool
deriving DecidableEq

structure Store (R : Type) where
  setting : Option (Setting R)
  guarded : Bool
  rows : List Row
deriving DecidableEq

variable {R : Type}

namespace Store

/-- `MemoryPolicyService.effective`. -/
def effective (store : Store R) : Option Projection :=
  store.setting.map fun setting =>
    ⟨setting.policy.retentionDays, setting.revision, store.guarded⟩

/-! ### `write_policy_in_session` -/

/-- A field is `none` when the patch does not name it. -/
structure Patch (R : Type) where
  retentionDays : Option (Option Nat)
  rest : Option R

/-- `validate_policy_patch` on `retention_days`. -/
def validDays : Option Nat → Bool
  | none => true
  | some days => 1 ≤ days && days ≤ 36500

def mergePolicy (current : Policy R) (patch : Patch R) : Option (Policy R) :=
  if patch.retentionDays.all validDays then
    some ⟨patch.retentionDays.getD current.retentionDays,
      patch.rest.getD current.rest⟩
  else none

/-- `SET expires_at = LEAST(...), next_attempt = LEAST(next_attempt, now())`. -/
def shortened (days : Nat) (now : Int) (row : Row) : Row :=
  { row with
    expiresAt := some (least row.expiresAt (row.acceptedAt + days * day))
    nextAttempt := min row.nextAttempt now }

def shorten (days : Nat) (now : Int) (rows : List Row) : List Row :=
  updateWhere (·.cleanupState != .cleaned) (shortened days now) rows

def nextRevision [DecidableEq R] (previous : Option (Setting R))
    (policy : Policy R) : Nat :=
  match previous with
  | none => 1
  | some previous =>
      if policy = previous.policy then previous.revision
        else previous.revision + 1

/-- The upsert, and the acceptances under a finite retention. -/
def install (store : Store R) (setting : Setting R) (now : Int) : Store R :=
  match setting.policy.retentionDays with
  | none => { store with setting := some setting }
  | some days => ⟨some setting, true, shorten days now store.rows⟩

/-- `none` when the write is refused. -/
def writePolicy [DecidableEq R] [Inhabited R] (store : Store R)
    (patch : Patch R) (requireExisting : Bool) (now : Int) :
    Option (Store R) :=
  if store.setting.isNone && requireExisting then none
  else
    let current := (store.setting.map Setting.policy).getD ⟨none, default⟩
    (mergePolicy current patch).map fun policy =>
      store.install ⟨policy, nextRevision store.setting policy⟩ now

/-! ### `MemoryRetentionRepository` -/

/-- `none` is the conflict; the transaction leaves nothing behind then. -/
def accept (store : Store R) (policy : Projection)
    (memberId documentId operationId : String) (now : Int) :
    Option (Store R × Row) :=
  if store.setting.map Setting.revision = some policy.revision then
    match lookup Row.documentId documentId store.rows with
    | some row =>
        if row.memberId = memberId ∧ row.operationId = operationId then
          some ({ store with
            guarded := store.guarded || row.expiresAt.isSome }, row)
        else none
    | none =>
        let row : Row :=
          { documentId, memberId, operationId
            policyRevision := policy.revision
            acceptedAt := now
            expiresAt := policy.retentionDays.map fun days : Nat =>
              now + days * day
            operationState := .pending
            terminalAt := none
            cleanupState := .waiting
            claimOwner := none
            claimUntil := none
            attempts := 0
            nextAttempt := now
            lastErrorCode := none
            lastBatchSha256 := none }
        some (⟨store.setting, store.guarded || row.expiresAt.isSome,
          store.rows ++ [row]⟩, row)
  else none

/-- The rows a claim may take. -/
def due (row : Row) (now : Int) : Bool :=
  row.nextAttempt ≤ now && row.cleanupState != .cleaned &&
    row.claimUntil.all (· ≤ now)

def claimed (owner : String) (now : Int) (row : Row) : Row :=
  { row with
    claimOwner := some owner
    claimUntil := some (now + 60)
    attempts := row.attempts + 1 }

/-- `FOR UPDATE SKIP LOCKED LIMIT 1` may take any due row. -/
def claim (store : Store R) (owner documentId : String) (now : Int) :
    Option (Store R × Row) :=
  match lookup Row.documentId documentId store.rows with
  | none => none
  | some row =>
      if due row now then
        some ({ store with
          rows := updateWhere (·.documentId == documentId)
            (claimed owner now) store.rows }, claimed owner now row)
      else none

/-- `claim_owner = owner AND claim_until > now()` on the job's row. -/
def owned (job : Row) (owner : String) (now : Int) (row : Row) : Bool :=
  row.documentId == job.documentId && row.operationId == job.operationId &&
    row.claimOwner == some owner && row.claimUntil.any (now < ·)

/-- What a worker reports of its job. -/
structure Finish where
  operationState : OperationState
  cleanupState : CleanupState
  nextAttempt : Int
  error : Option String
  batchSha256 : Option String
deriving DecidableEq

def finished (job : Row) (report : Finish) (now : Int) (row : Row) : Row :=
  { row with
    operationState := report.operationState
    terminalAt :=
      if report.operationState.terminal then row.terminalAt.or (some now)
        else row.terminalAt
    cleanupState := report.cleanupState
    nextAttempt :=
      if row.expiresAt ≠ job.expiresAt
        then least row.expiresAt report.nextAttempt
        else report.nextAttempt
    lastErrorCode := report.error
    lastBatchSha256 := report.batchSha256.or row.lastBatchSha256
    claimOwner := none
    claimUntil := none }

def finish (store : Store R) (job : Row) (owner : String) (report : Finish)
    (now : Int) : Store R :=
  { store with
    rows := updateWhere (owned job owner now) (finished job report now)
      store.rows }

def settledGuard (job : Row) (owner : String) (state : OperationState)
    (now : Int) (row : Row) : Bool :=
  owned job owner now row &&
    (row.terminalAt.isNone || row.operationState == state)

def settled (store : Store R) (job : Row) (owner : String)
    (state : OperationState) (now : Int) : Store R × Bool :=
  if state.terminal then
    ({ store with
      rows := updateWhere (settledGuard job owner state now)
        (fun row => { row with
          operationState := state
          terminalAt := row.terminalAt.or (some now) }) store.rows },
      store.rows.any (settledGuard job owner state now))
  else (store, false)

end Store

end AiTeam.Retention
