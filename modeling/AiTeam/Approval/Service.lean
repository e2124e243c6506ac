/-
The approval gate around tool execution: `ApprovalService.execute` as a state
machine whose steps are the synchronous segments between two awaits, with the
waiters, timers, aborts, cancellations and restarts that interleave with it.
-/
import AiTeam.Approval.Store
import AiTeam.Machine
import AiTeam.Scope

namespace AiTeam.Approval

universe u

inductive PermissionMode where
  | readOnly | workspaceWrite | fullAccess
deriving DecidableEq

structure ApprovalRequest (Args : Type u) where
  tenantId : String
  memberId : String
  conversationId : String
  participantEmployeeId : Option String
  sessionId : String
  snapshotVersion : String
  permissionRevision : String
  toolCallId : String
  toolCallEntryId : Option String
  promptReceiptRef : Option String
  toolName : String
  args : Args
  riskLevel : ApprovalRisk
  permissionMode : Option PermissionMode
  /-- The finite lease or JWT cutoff, when there is one. -/
  expiresAt : Option Int

inductive ApprovalError where
  | cancelled | denied | expired | permission | constraint
deriving DecidableEq

/-- How a waiter's promise was settled. -/
inductive Wakeup where
  | resolved
  | rejected (error : ApprovalError)
deriving DecidableEq

/-- Where one `execute` call stands. -/
inductive Phase where
  /-- In `waitForDecision`; `wakeup` is set once the promise is settled. -/
  | waiting (current : ApprovalRecord) (wakeup : Option Wakeup)
  /-- `waitAndClaim` returned the claimed record. -/
  | claimed (record : ApprovalRecord)
  /-- The guarded operation is in flight. -/
  | running (record : ApprovalRecord)
  | finished
  | failed (error : ApprovalError)
  /-- The process that ran the call is gone. -/
  | lost

structure Call (Args : Type u) where
  request : ApprovalRequest Args
  aborted : Bool
  phase : Phase

structure State (Args : Type u) where
  rows : List ApprovalRecord
  calls : List (Call Args)

/-- What an auditor sees.  `approved` carries the row as it was approved,
`claimed` the row the claim found. -/
inductive Event (Args : Type u) where
  | approved (record : ApprovalRecord)
  | claimed (call : Nat) (request : ApprovalRequest Args)
      (record : ApprovalRecord) (now : Int)
  | ran (call : Nat) (id : String)

/-- The configuration of one service: its hash functions and clamped TTL. -/
structure Config (Args : Type u) where
  canonicalArgsHmac : Args → String
  /-- The first 32 hex digits of the SHA-256 of an encoded scope. -/
  digest : String → String
  ttlMs : Option Int

variable {Args : Type u}

/-- `Math.min(Math.max(options.ttlMs ?? 600000, 1000), 600000)`. -/
def Config.ttl (config : Config Args) : Int :=
  min (max (config.ttlMs.getD 600000) 1000) 600000

def toolKey (config : Config Args) (request : ApprovalRequest Args) :
    ToolKey where
  tenantId := request.tenantId
  memberId := request.memberId
  conversationId := request.conversationId
  sessionId := request.sessionId
  participantEmployeeId := request.participantEmployeeId
  toolCallId := request.toolCallId
  canonicalArgsHmac := config.canonicalArgsHmac request.args
  snapshotVersion := request.snapshotVersion

def autoApprove (request : ApprovalRequest Args) : Bool :=
  request.permissionMode == some .fullAccess &&
  (request.riskLevel == .bash || request.riskLevel == .write ||
    request.riskLevel == .edit)

/-- The record `create` inserts, for the given expiry. -/
def newRecord (config : Config Args) (request : ApprovalRequest Args)
    (now expiry : Int) : ApprovalRecord :=
  let hash := config.canonicalArgsHmac request.args
  { id := config.digest (encodeScope [request.tenantId, request.memberId,
      request.conversationId, request.sessionId, request.toolCallId, hash,
      request.snapshotVersion])
    approvalBatchId := encodeScope [request.sessionId,
      request.promptReceiptRef.getD request.toolCallId]
    tenantId := request.tenantId
    memberId := request.memberId
    conversationId := request.conversationId
    participantEmployeeId := request.participantEmployeeId
    sessionId := request.sessionId
    snapshotVersion := request.snapshotVersion
    permissionRevision := request.permissionRevision
    toolCallId := request.toolCallId
    toolCallEntryId := request.toolCallEntryId
    promptReceiptRef := request.promptReceiptRef
    toolName := request.toolName
    canonicalArgsHmac := hash
    riskLevel := request.riskLevel
    status := if autoApprove request then .approved else .pending
    approvedBy := if autoApprove request then some "policy:full-access"
      else none
    approvedAt := if autoApprove request then some now else none
    expiresAt := expiry
    decisionRevision := 0
    consumed := false
    idempotencyKey := encodeScope [request.conversationId, request.sessionId,
      request.toolCallId]
    createdAt := now
    updatedAt := now }

/-- `create`: the expiry is capped by the TTL and by the request's cutoff. -/
def create (config : Config Args) (rows : List ApprovalRecord)
    (request : ApprovalRequest Args) (now : Int) :
    Except ApprovalError (List ApprovalRecord × ApprovalRecord) :=
  let maxExpiry := now + config.ttl
  let expiry := (request.expiresAt.map (min maxExpiry)).getD maxExpiry
  if expiry ≤ now then .error .expired
  else
    let record := newRecord config request now expiry
    match createApprovalRecord rows record with
    | none => .error .constraint
    | some next => .ok (next, record)

/-- `waitForDecision` up to its first await. -/
def waitForDecision (rows : List ApprovalRecord) (current : ApprovalRecord)
    (aborted : Bool) (now : Int) : List ApprovalRecord × Phase :=
  if aborted then
    let conversation := (getApprovalRecord rows current.id).elim ""
      ApprovalRecord.conversationId
    (invalidateApprovalsForConversation rows conversation none none now,
      .failed .cancelled)
  else (rows, .waiting current none)

def claimInput (request : ApprovalRequest Args) (current : ApprovalRecord) :
    ClaimInput where
  id := current.id
  tenantId := request.tenantId
  memberId := request.memberId
  conversationId := request.conversationId
  expectedRevision := current.decisionRevision
  snapshotVersion := request.snapshotVersion
  permissionRevision := request.permissionRevision

/-- The part of the `waitAndClaim` loop body after the claim attempt. -/
def awaitOrThrow (rows : List ApprovalRecord) (current : ApprovalRecord)
    (aborted : Bool) (now : Int) : List ApprovalRecord × Phase :=
  match current.status with
  | .rejected | .invalidated | .succeeded | .executing =>
      (rows, .failed .denied)
  | .expired => (expireApproval rows current.id now, .failed .expired)
  | .pending | .approved | .uncertain =>
      if current.expiresAt ≤ now then
        (expireApproval rows current.id now, .failed .expired)
      else if current.status == .uncertain then (rows, .failed .denied)
      else waitForDecision rows current aborted now

/-- One iteration of the `waitAndClaim` loop: it returns the claimed record,
throws, or waits. -/
def waitAndClaim (rows : List ApprovalRecord) (request : ApprovalRequest Args)
    (current : ApprovalRecord) (aborted : Bool) (now : Int) :
    List ApprovalRecord × Phase :=
  if current.status == .approved then
    let (next, result) := claimApproval rows (claimInput request current) now
    match result.filter (fun r => r.status == .executing && r.consumed) with
    | some record => (next, .claimed record)
    | none =>
        let reread := (getApprovalRecord next current.id).getD current
        if reread.status == .executing || reread.consumed then
          (next, .failed .denied)
        else awaitOrThrow next reread aborted now
  else awaitOrThrow rows current aborted now

/-- The claim event of a segment: the segment ended in `claimed` and the row
it found is the one stored before. -/
def claimEvents (call : Nat) (request : ApprovalRequest Args)
    (rows : List ApprovalRecord) (phase : Phase) (now : Int) :
    List (Event Args) :=
  match phase with
  | .claimed record =>
      (getApprovalRecord rows record.id).elim []
        fun found => [.claimed call request found now]
  | _ => []

/-- `execute` up to its first await. -/
def execute (config : Config Args) (state : State Args)
    (request : ApprovalRequest Args) (aborted : Bool) (now : Int) :
    State Args × List (Event Args) :=
  let call := state.calls.length
  let finish (rows : List ApprovalRecord) (phase : Phase)
      (events : List (Event Args)) : State Args × List (Event Args) :=
    (⟨rows, state.calls ++ [⟨request, aborted, phase⟩]⟩, events)
  if (request.riskLevel == .write || request.riskLevel == .edit) &&
      request.permissionMode == some .readOnly then
    finish state.rows (.failed .permission) []
  else
    match findApprovalForTool state.rows (toolKey config request) with
    | some existing =>
        if existing.permissionRevision != request.permissionRevision ||
            existing.toolName != request.toolName then
          finish state.rows (.failed .denied) []
        else
          let (rows, phase) :=
            waitAndClaim state.rows request existing aborted now
          finish rows phase (claimEvents call request state.rows phase now)
    | none =>
        match create config state.rows request now with
        | .error error => finish state.rows (.failed error) []
        | .ok (created, record) =>
            let (rows, phase) := waitAndClaim created request record aborted now
            finish rows phase
              ((if record.status == .approved then [.approved record] else [])
                ++ claimEvents call request created phase now)

/-- Settle the promise of a waiter that `selects` accepts; a settled promise
stays as it is. -/
def Phase.settle (selects : ApprovalRecord → Bool) (wakeup : Wakeup) :
    Phase → Phase
  | .waiting current none =>
      .waiting current (if selects current then some wakeup else none)
  | phase => phase

def settleWaiters (selects : ApprovalRecord → Bool) (wakeup : Wakeup)
    (calls : List (Call Args)) : List (Call Args) :=
  calls.map fun call =>
    { call with phase := call.phase.settle selects wakeup }

/-- `wake`. -/
def wake (id : String) (wakeup : Wakeup) (calls : List (Call Args)) :
    List (Call Args) :=
  settleWaiters (fun current => current.id == id) wakeup calls

/-- `cancelBatch`: waiters on other records of the rejected batch. -/
def cancelBatch (rows : List ApprovalRecord) (batchId exceptId : String)
    (calls : List (Call Args)) : List (Call Args) :=
  settleWaiters (fun current => current.id != exceptId &&
    (getApprovalRecord rows current.id).any
      (fun record => record.approvalBatchId == batchId))
    (.rejected .denied) calls

/-- `expireDue`: expire and wake every due record of one conversation. -/
def expireDue (state : State Args) (conversationId tenantId memberId : String)
    (now : Int) : State Args :=
  let due := state.rows.filter fun row =>
    row.conversationId == conversationId && row.tenantId == tenantId &&
    row.memberId == memberId && row.status.undecided && row.expiresAt ≤ now
  due.foldl (fun state record =>
    ⟨expireApproval state.rows record.id now,
      wake record.id (.rejected .expired) state.calls⟩) state

/-- `decide`. -/
def decideRequest (state : State Args) (input : DecideInput)
    (now storeNow : Int) : State Args × List (Event Args) :=
  let swept := expireDue state input.conversationId input.tenantId
    input.memberId now
  let wasPending := (getApprovalRecord swept.rows input.id).any
    fun row => row.status == .pending
  match decideApproval swept.rows input storeNow with
  | (rows, .error _) => (⟨rows, swept.calls⟩, [])
  | (rows, .ok record) =>
      let calls := if record.status == .rejected then
        cancelBatch rows record.approvalBatchId record.id swept.calls
        else swept.calls
      let wakeup := if record.status == .approved then Wakeup.resolved
        else .rejected .denied
      (⟨rows, wake record.id wakeup calls⟩,
        if record.status == .approved && wasPending then [.approved record]
        else [])

/-- `cancelConversation`. -/
def cancelConversation (state : State Args) (conversationId : String)
    (tenantId memberId : Option String) (now : Int) : State Args :=
  let rows := invalidateApprovalsForConversation state.rows conversationId
    tenantId memberId now
  ⟨rows, settleWaiters (fun current =>
    (getApprovalRecord rows current.id).any fun record =>
      record.conversationId == conversationId &&
      tenantId.all (· == record.tenantId) &&
      memberId.all (· == record.memberId)) (.rejected .cancelled) state.calls⟩

/-- `cancelOwner`. -/
def cancelOwner (state : State Args) (tenantId memberId : String)
    (now : Int) : State Args :=
  let rows := invalidateApprovalsForOwner state.rows tenantId memberId now
  ⟨rows, settleWaiters (fun current =>
    (getApprovalRecord rows current.id).any fun record =>
      record.tenantId == tenantId && record.memberId == memberId)
    (.rejected .cancelled) state.calls⟩

/-- The expiry timer of one waiting call. -/
def timerFires (state : State Args) (current : ApprovalRecord) (now : Int) :
    State Args :=
  ⟨expireApproval state.rows current.id now,
    wake current.id (.rejected .expired) state.calls⟩

/-- The abort signal of one waiting call. -/
def abortFires (state : State Args) (current : ApprovalRecord) (now : Int) :
    State Args :=
  let conversation := (getApprovalRecord state.rows current.id).elim ""
    ApprovalRecord.conversationId
  ⟨invalidateApprovalsForConversation state.rows conversation none none now,
    wake current.id (.rejected .cancelled) state.calls⟩

def setPhase (calls : List (Call Args)) (index : Nat) (phase : Phase) :
    List (Call Args) :=
  calls.modify index fun call => { call with phase := phase }

inductive Action (Args : Type u) where
  | execute (request : ApprovalRequest Args) (aborted : Bool) (now : Int)
  | decide (input : DecideInput) (now storeNow : Int)
  | list (conversationId tenantId memberId : String) (now : Int)
  | cancelConversation (conversationId : String)
      (tenantId memberId : Option String) (now : Int)
  | cancelOwner (tenantId memberId : String) (now : Int)
  /-- `clear`: every waiter is rejected. -/
  | clear
  /-- The expiry timer of a waiting call. -/
  | timer (call : Nat) (now : Int)
  /-- The abort signal of a call. -/
  | abort (call : Nat) (now : Int)
  /-- A settled waiter continues its `waitAndClaim` loop. -/
  | resume (call : Nat) (now : Int)
  /-- `execute` invokes the guarded operation. -/
  | startOperation (call : Nat)
  /-- The operation settles and the record is finished. -/
  | finishOperation (call : Nat) (succeeded : Bool) (now : Int)
  /-- Store statements issued on their own. -/
  | expire (id : String) (now : Int)
  | finish (id : String) (status : FinishStatus) (now : Int)
  /-- The process ends and the store is opened again. -/
  | restart (now : Int)

def step (config : Config Args) (state : State Args) :
    Action Args → State Args × List (Event Args)
  | .execute request aborted now => execute config state request aborted now
  | .decide input now storeNow => decideRequest state input now storeNow
  | .list conversationId tenantId memberId now =>
      (expireDue state conversationId tenantId memberId now, [])
  | .cancelConversation conversationId tenantId memberId now =>
      (cancelConversation state conversationId tenantId memberId now, [])
  | .cancelOwner tenantId memberId now =>
      (cancelOwner state tenantId memberId now, [])
  | .clear =>
      (⟨state.rows, settleWaiters (fun _ => true) (.rejected .cancelled)
        state.calls⟩, [])
  | .timer call now =>
      match state.calls[call]?.map Call.phase with
      | some (.waiting current none) => (timerFires state current now, [])
      | _ => (state, [])
  | .abort call now =>
      let calls := state.calls.modify call fun c => { c with aborted := true }
      match state.calls[call]?.map Call.phase with
      | some (.waiting current none) =>
          (abortFires ⟨state.rows, calls⟩ current now, [])
      | _ => (⟨state.rows, calls⟩, [])
  | .resume call now =>
      match state.calls[call]? with
      | some ⟨_, _, .waiting _ (some (.rejected error))⟩ =>
          (⟨state.rows, setPhase state.calls call (.failed error)⟩, [])
      | some ⟨request, aborted, .waiting current (some .resolved)⟩ =>
          let reread := (getApprovalRecord state.rows current.id).getD current
          let (rows, phase) :=
            waitAndClaim state.rows request reread aborted now
          (⟨rows, setPhase state.calls call phase⟩,
            claimEvents call request state.rows phase now)
      | _ => (state, [])
  | .startOperation call =>
      match state.calls[call]?.map Call.phase with
      | some (.claimed record) =>
          (⟨state.rows, setPhase state.calls call (.running record)⟩,
            [.ran call record.id])
      | _ => (state, [])
  | .finishOperation call succeeded now =>
      match state.calls[call]?.map Call.phase with
      | some (.running record) =>
          (⟨finishApproval state.rows record.id
              (if succeeded then .succeeded else .uncertain) now,
            setPhase state.calls call .finished⟩, [])
      | _ => (state, [])
  | .expire id now => (⟨expireApproval state.rows id now, state.calls⟩, [])
  | .finish id status now =>
      (⟨finishApproval state.rows id status now, state.calls⟩, [])
  | .restart now =>
      (⟨restartApprovals state.rows now,
        state.calls.map fun call => { call with phase := .lost }⟩, [])

/-- The approval service over an initially empty store. -/
def machine (config : Config Args) :
    Machine (State Args) (Action Args) (Event Args) where
  step := step config

def initial : State Args := ⟨[], []⟩

end AiTeam.Approval
