/-
Approval records of the Agent store: the row, its statements in
`storage/sqlite.ts`, and what each statement can do to one row.
-/
import AiTeam.Table

namespace AiTeam.Approval

inductive ApprovalStatus where
  | pending | approved | executing | succeeded
  | rejected | invalidated | expired | uncertain
deriving DecidableEq

/-- `status IN ('pending', 'approved', 'executing')`. -/
def ApprovalStatus.live : ApprovalStatus → Bool
  | .pending | .approved | .executing => true
  | _ => false

/-- `status IN ('pending', 'approved')`. -/
def ApprovalStatus.undecided : ApprovalStatus → Bool
  | .pending | .approved => true
  | _ => false

inductive ApprovalRisk where
  | bash | write | edit | external | unknown
deriving DecidableEq

/-- A row of `approval_record`.  Timestamps are epoch milliseconds; the ISO
texts the database stores order in the same way. -/
structure ApprovalRecord where
  id : String
  approvalBatchId : String
  tenantId : String
  memberId : String
  conversationId : String
  participantEmployeeId : Option String
  sessionId : String
  snapshotVersion : String
  permissionRevision : String
  toolCallId : String
  toolCallEntryId : Option String
  promptReceiptRef : Option String
  toolName : String
  canonicalArgsHmac : String
  riskLevel : ApprovalRisk
  status : ApprovalStatus
  approvedBy : Option String
  approvedAt : Option Int
  expiresAt : Int
  decisionRevision : Nat
  consumed : Bool
  idempotencyKey : String
  createdAt : Int
  updatedAt : Int
deriving DecidableEq

def getApprovalRecord (rows : List ApprovalRecord) (id : String) :
    Option ApprovalRecord :=
  lookup ApprovalRecord.id id rows

def getOwnedApprovalRecord (rows : List ApprovalRecord)
    (id tenantId memberId conversationId : String) : Option ApprovalRecord :=
  (getApprovalRecord rows id).filter fun row => row.tenantId == tenantId &&
    row.memberId == memberId && row.conversationId == conversationId

/-- The unique index `approval_record_call_idx`; SQLite treats null
participants as distinct. -/
def sameCall (left right : ApprovalRecord) : Bool :=
  left.tenantId == right.tenantId && left.memberId == right.memberId &&
  left.conversationId == right.conversationId &&
  left.sessionId == right.sessionId &&
  left.participantEmployeeId.isSome &&
  left.participantEmployeeId == right.participantEmployeeId &&
  left.toolCallId == right.toolCallId &&
  left.canonicalArgsHmac == right.canonicalArgsHmac &&
  left.snapshotVersion == right.snapshotVersion

/-- `createApprovalRecord`: the insert fails on the primary key or on the
unique call index. -/
def createApprovalRecord (rows : List ApprovalRecord)
    (input : ApprovalRecord) : Option (List ApprovalRecord) :=
  if (getApprovalRecord rows input.id).isSome || rows.any (sameCall input)
  then none
  else some (rows ++ [input])

/-- The columns `findApprovalForTool` selects on. -/
structure ToolKey where
  tenantId : String
  memberId : String
  conversationId : String
  sessionId : String
  participantEmployeeId : Option String
  toolCallId : String
  canonicalArgsHmac : String
  snapshotVersion : String

def ToolKey.selects (key : ToolKey) (row : ApprovalRecord) : Bool :=
  row.tenantId == key.tenantId && row.memberId == key.memberId &&
  row.conversationId == key.conversationId &&
  row.sessionId == key.sessionId &&
  row.participantEmployeeId == key.participantEmployeeId &&
  row.toolCallId == key.toolCallId &&
  row.canonicalArgsHmac == key.canonicalArgsHmac &&
  row.snapshotVersion == key.snapshotVersion

/-- `ORDER BY created_at DESC LIMIT 1`. -/
def newest : List ApprovalRecord → Option ApprovalRecord
  | [] => none
  | row :: rest =>
      match newest rest with
      | none => some row
      | some other =>
          if row.createdAt < other.createdAt then some other else some row

def findApprovalForTool (rows : List ApprovalRecord) (key : ToolKey) :
    Option ApprovalRecord :=
  newest (rows.filter key.selects)

inductive Decision where
  | approve | deny
deriving DecidableEq

structure DecideInput where
  id : String
  tenantId : String
  memberId : String
  conversationId : String
  decision : Decision
  expectedRevision : Option Nat
  approvedBy : String
  idempotencyKey : String

inductive DecideError where
  | notFound | expired | revisionConflict | decisionConflict
deriving DecidableEq

def setExpired (now : Int) (row : ApprovalRecord) : ApprovalRecord :=
  { row with
    status := .expired, decisionRevision := row.decisionRevision + 1,
    updatedAt := now }

def setDecision (input : DecideInput) (now : Int) (row : ApprovalRecord) :
    ApprovalRecord :=
  match input.decision with
  | .approve =>
      { row with
        status := .approved, approvedBy := some input.approvedBy,
        approvedAt := some now, decisionRevision := row.decisionRevision + 1,
        idempotencyKey := input.idempotencyKey, updatedAt := now }
  | .deny =>
      { row with
        status := .rejected, approvedBy := none, approvedAt := none,
        decisionRevision := row.decisionRevision + 1,
        idempotencyKey := input.idempotencyKey, updatedAt := now }

def setInvalidated (now : Int) (row : ApprovalRecord) : ApprovalRecord :=
  { row with
    status := .invalidated, decisionRevision := row.decisionRevision + 1,
    updatedAt := now }

/-- A repeated decision with the same idempotency key is a replay. -/
def isReplay (input : DecideInput) (current : ApprovalRecord) : Bool :=
  current.idempotencyKey == input.idempotencyKey &&
  match input.decision with
  | .approve =>
      [ApprovalStatus.approved, .executing, .succeeded, .uncertain].contains
        current.status
  | .deny => current.status == .rejected

/-- The two updates of an accepted decision: the row itself and, for a denial,
the rest of its batch. -/
def applyDecision (rows : List ApprovalRecord) (current : ApprovalRecord)
    (input : DecideInput) (now : Int) : List ApprovalRecord :=
  let decided := updateWhere
    (fun row => row.id == input.id && row.status == .pending)
    (setDecision input now) rows
  match input.decision with
  | .approve => decided
  | .deny => updateWhere
      (fun row => row.approvalBatchId == current.approvalBatchId &&
        row.id != input.id && row.status.undecided)
      (setInvalidated now) decided

/-- `decideApproval`.  An expired row is committed as expired before the error
is thrown; every other error rolls back. -/
def decideApproval (rows : List ApprovalRecord) (input : DecideInput)
    (now : Int) : List ApprovalRecord × Except DecideError ApprovalRecord :=
  match getOwnedApprovalRecord rows input.id input.tenantId input.memberId
      input.conversationId with
  | none => (rows, .error .notFound)
  | some current =>
      if current.expiresAt ≤ now && current.status.undecided then
        (updateWhere (fun row => row.id == input.id) (setExpired now) rows,
          .error .expired)
      else if isReplay input current then (rows, .ok current)
      else if input.expectedRevision.any (· != current.decisionRevision) then
        (rows, .error .revisionConflict)
      else if current.status == .approved && input.decision == .approve then
        (rows, .ok current)
      else if current.status == .rejected && input.decision == .deny then
        (rows, .ok current)
      else if current.status != .pending then
        (rows, .error .decisionConflict)
      else
        let next := applyDecision rows current input now
        (next, .ok ((getApprovalRecord next input.id).getD current))

/-- The arguments of `claimApproval` besides the clock. -/
structure ClaimInput where
  id : String
  tenantId : String
  memberId : String
  conversationId : String
  expectedRevision : Nat
  snapshotVersion : String
  permissionRevision : String

def ClaimInput.claimable (claim : ClaimInput) (now : Int)
    (row : ApprovalRecord) : Bool :=
  row.id == claim.id && row.tenantId == claim.tenantId &&
  row.memberId == claim.memberId &&
  row.conversationId == claim.conversationId &&
  row.status == .approved && !row.consumed &&
  row.decisionRevision == claim.expectedRevision &&
  row.snapshotVersion == claim.snapshotVersion &&
  row.permissionRevision == claim.permissionRevision &&
  now < row.expiresAt

def setExecuting (now : Int) (row : ApprovalRecord) : ApprovalRecord :=
  { row with
    status := .executing, consumed := true,
    decisionRevision := row.decisionRevision + 1, updatedAt := now }

/-- `claimApproval`: the row is returned only when the update changed it. -/
def claimApproval (rows : List ApprovalRecord) (claim : ClaimInput)
    (now : Int) : List ApprovalRecord × Option ApprovalRecord :=
  let next := updateWhere (claim.claimable now) (setExecuting now) rows
  if (getApprovalRecord rows claim.id).any (claim.claimable now) then
    (next, getOwnedApprovalRecord next claim.id claim.tenantId claim.memberId
      claim.conversationId)
  else (next, none)

inductive FinishStatus where
  | succeeded | uncertain | invalidated
deriving DecidableEq

def FinishStatus.toStatus : FinishStatus → ApprovalStatus
  | .succeeded => .succeeded
  | .uncertain => .uncertain
  | .invalidated => .invalidated

def finishApproval (rows : List ApprovalRecord) (id : String)
    (status : FinishStatus) (now : Int) : List ApprovalRecord :=
  updateWhere (fun row => row.id == id && row.status == .executing)
    (fun row => { row with status := status.toStatus, updatedAt := now }) rows

def expireApproval (rows : List ApprovalRecord) (id : String) (now : Int) :
    List ApprovalRecord :=
  updateWhere
    (fun row => row.id == id && row.status.undecided && row.expiresAt ≤ now)
    (setExpired now) rows

/-- `CASE WHEN status = 'executing' THEN 'uncertain' ELSE 'invalidated' END`. -/
def setCancelled (now : Int) (row : ApprovalRecord) : ApprovalRecord :=
  { row with
    status := if row.status == .executing then .uncertain else .invalidated,
    decisionRevision := row.decisionRevision + 1, updatedAt := now }

def invalidateApprovalsForConversation (rows : List ApprovalRecord)
    (conversationId : String) (tenantId memberId : Option String)
    (now : Int) : List ApprovalRecord :=
  updateWhere
    (fun row => row.conversationId == conversationId &&
      tenantId.all (· == row.tenantId) && memberId.all (· == row.memberId) &&
      row.status.live)
    (setCancelled now) rows

def invalidateApprovalsForOwner (rows : List ApprovalRecord)
    (tenantId memberId : String) (now : Int) : List ApprovalRecord :=
  updateWhere
    (fun row => row.tenantId == tenantId && row.memberId == memberId &&
      row.status.live)
    (setCancelled now) rows

def setUncertain (now : Int) (row : ApprovalRecord) : ApprovalRecord :=
  { row with status := .uncertain, consumed := true, updatedAt := now }

/-- The restart update of the store constructor: nothing that was live can be
claimed again. -/
def restartApprovals (rows : List ApprovalRecord) (now : Int) :
    List ApprovalRecord :=
  updateWhere (fun row => row.status.live) (setUncertain now) rows

/-! ### What a statement does to one row -/

/-- The columns no statement ever changes. -/
def ApprovalRecord.identity (row : ApprovalRecord) : ApprovalRecord :=
  { row with
    status := .pending, approvedBy := none, approvedAt := none,
    decisionRevision := 0, consumed := false, idempotencyKey := "",
    updatedAt := 0 }

theorem ApprovalRecord.canonicalArgsHmac_of_identity
    {left right : ApprovalRecord} (h : left.identity = right.identity) :
    left.canonicalArgsHmac = right.canonicalArgsHmac := by
  have hfield := congrArg ApprovalRecord.canonicalArgsHmac h
  exact hfield

/-- A row that is left alone, or a live row that reaches a terminal status
without losing its consumed mark. -/
def Settles (before after : ApprovalRecord) : Prop :=
  after = before ∨
    (before.status.live = true ∧ after.status.live = false ∧
      (before.consumed = true → after.consumed = true) ∧
      after.identity = before.identity)

theorem Settles.refl (row : ApprovalRecord) : Settles row row := Or.inl rfl

theorem Settles.identity_eq {before after : ApprovalRecord}
    (h : Settles before after) : after.identity = before.identity := by
  rcases h with rfl | ⟨_, _, _, hidentity⟩
  · rfl
  · exact hidentity

theorem Settles.consumed {before after : ApprovalRecord}
    (h : Settles before after) (hconsumed : before.consumed = true) :
    after.consumed = true := by
  rcases h with rfl | ⟨_, _, hkeep, _⟩
  · exact hconsumed
  · exact hkeep hconsumed

theorem Settles.trans {first second third : ApprovalRecord}
    (hfirst : Settles first second) (hsecond : Settles second third) :
    Settles first third := by
  rcases hfirst with rfl | ⟨hlive, hdead, hconsumed, hidentity⟩
  · exact hsecond
  · rcases hsecond with rfl | ⟨hlive', _, _, _⟩
    · exact Or.inr ⟨hlive, hdead, hconsumed, hidentity⟩
    · rw [hdead] at hlive'
      exact absurd hlive' Bool.false_ne_true

/-- No row appears or disappears and every row settles. -/
structure Quiet (before after : List ApprovalRecord) : Prop where
  keyed : Keyed ApprovalRecord.id before → Keyed ApprovalRecord.id after
  settles : ∀ {id row}, getApprovalRecord before id = some row →
    ∃ next, getApprovalRecord after id = some next ∧ Settles row next
  absent : ∀ {id}, getApprovalRecord before id = none →
    getApprovalRecord after id = none

theorem Quiet.refl (rows : List ApprovalRecord) : Quiet rows rows :=
  ⟨id, fun {_ row} h => ⟨row, h, Settles.refl row⟩, id⟩

theorem Quiet.trans {first second third : List ApprovalRecord}
    (hfirst : Quiet first second) (hsecond : Quiet second third) :
    Quiet first third := by
  constructor
  · exact fun h => hsecond.keyed (hfirst.keyed h)
  · intro id row hrow
    obtain ⟨middle, hmiddle, hstep⟩ := hfirst.settles hrow
    obtain ⟨last, hlast, hstep'⟩ := hsecond.settles hmiddle
    exact ⟨last, hlast, hstep.trans hstep'⟩
  · intro id hnone
    exact hsecond.absent (hfirst.absent hnone)

/-- An update whose selected rows are live and are closed by it is quiet. -/
theorem quiet_updateWhere (guard : ApprovalRecord → Bool)
    (change : ApprovalRecord → ApprovalRecord) (rows : List ApprovalRecord)
    (hguard : ∀ row, getApprovalRecord rows row.id = some row →
      guard row = true → row.status.live = true)
    (hclosed : ∀ row, guard row = true → (change row).status.live = false)
    (hconsumed : ∀ row, row.consumed = true → (change row).consumed = true)
    (hidentity : ∀ row, (change row).identity = row.identity) :
    Quiet rows (updateWhere guard change rows) := by
  have hkey : ∀ row, (change row).id = row.id := by
    intro row
    have hfield := congrArg ApprovalRecord.id (hidentity row)
    exact hfield
  constructor
  · exact fun h => h.updateWhere guard change hkey
  · intro id row hrow
    have hid : row.id = id := lookup_key hrow
    have hfound : getApprovalRecord rows row.id = some row := by
      rw [hid]
      exact hrow
    rw [getApprovalRecord] at hrow
    rw [getApprovalRecord,
      lookup_updateWhere ApprovalRecord.id id guard change hkey, hrow]
    refine ⟨if guard row then change row else row, rfl, ?_⟩
    by_cases hmatch : guard row = true
    · rw [if_pos hmatch]
      exact Or.inr ⟨hguard row hfound hmatch, hclosed row hmatch,
        hconsumed row, hidentity row⟩
    · rw [if_neg hmatch]
      exact Settles.refl row
  · intro id hnone
    rw [getApprovalRecord] at hnone
    rw [getApprovalRecord,
      lookup_updateWhere ApprovalRecord.id id guard change hkey, hnone]
    rfl

theorem ApprovalStatus.live_of_undecided {status : ApprovalStatus}
    (h : status.undecided = true) : status.live = true := by
  cases status <;> first | rfl | exact absurd h Bool.false_ne_true

theorem expireApproval_quiet (rows : List ApprovalRecord) (id : String)
    (now : Int) : Quiet rows (expireApproval rows id now) := by
  apply quiet_updateWhere
  · intro row _ hrow
    simp only [Bool.and_eq_true] at hrow
    exact ApprovalStatus.live_of_undecided hrow.1.2
  · intro row _
    rfl
  · intro row hrow
    exact hrow
  · intro row
    rfl

theorem finishApproval_quiet (rows : List ApprovalRecord) (id : String)
    (status : FinishStatus) (now : Int) :
    Quiet rows (finishApproval rows id status now) := by
  apply quiet_updateWhere
  · intro row _ hrow
    simp only [Bool.and_eq_true, beq_iff_eq] at hrow
    rw [hrow.2]
    rfl
  · intro row _
    cases status <;> rfl
  · intro row hrow
    exact hrow
  · intro row
    rfl

theorem setCancelled_dead (now : Int) (row : ApprovalRecord) :
    (setCancelled now row).status.live = false := by
  by_cases h : row.status = .executing <;> simp [setCancelled, h,
    ApprovalStatus.live]

theorem invalidateApprovalsForConversation_quiet (rows : List ApprovalRecord)
    (conversationId : String) (tenantId memberId : Option String)
    (now : Int) :
    Quiet rows (invalidateApprovalsForConversation rows conversationId
      tenantId memberId now) := by
  apply quiet_updateWhere
  · intro row _ hrow
    simp only [Bool.and_eq_true] at hrow
    exact hrow.2
  · intro row _
    exact setCancelled_dead now row
  · intro row hrow
    exact hrow
  · intro row
    rfl

theorem invalidateApprovalsForOwner_quiet (rows : List ApprovalRecord)
    (tenantId memberId : String) (now : Int) :
    Quiet rows (invalidateApprovalsForOwner rows tenantId memberId now) := by
  apply quiet_updateWhere
  · intro row _ hrow
    simp only [Bool.and_eq_true] at hrow
    exact hrow.2
  · intro row _
    exact setCancelled_dead now row
  · intro row hrow
    exact hrow
  · intro row
    rfl

theorem restartApprovals_quiet (rows : List ApprovalRecord) (now : Int) :
    Quiet rows (restartApprovals rows now) := by
  apply quiet_updateWhere
  · intro row _ hrow
    exact hrow
  · intro row _
    rfl
  · intro row _
    rfl
  · intro row
    rfl

/-- After a restart no row is live. -/
theorem restartApprovals_dead (rows : List ApprovalRecord) (now : Int)
    {id : String} {row : ApprovalRecord}
    (h : getApprovalRecord (restartApprovals rows now) id = some row) :
    row.status.live = false := by
  rw [getApprovalRecord, restartApprovals,
    lookup_updateWhere ApprovalRecord.id id _ (setUncertain now)
      (fun _ => rfl)] at h
  obtain ⟨old, _, rfl⟩ := Option.map_eq_some_iff.mp h
  by_cases hlive : old.status.live = true
  · rw [if_pos hlive]
    rfl
  · rw [if_neg hlive]
    simpa using hlive

/-! ### Decisions and claims -/

theorem setDecision_identity (input : DecideInput) (now : Int)
    (row : ApprovalRecord) :
    (setDecision input now row).identity = row.identity := by
  cases h : input.decision <;> simp [setDecision, h, ApprovalRecord.identity]

theorem setDecision_id (input : DecideInput) (now : Int)
    (row : ApprovalRecord) : (setDecision input now row).id = row.id := by
  cases h : input.decision <;> simp [setDecision, h]

theorem applyDecision_deny_quiet (rows : List ApprovalRecord)
    (current : ApprovalRecord) (input : DecideInput) (now : Int)
    (hdeny : input.decision = .deny) :
    Quiet rows (applyDecision rows current input now) := by
  have hself : Quiet rows (updateWhere
      (fun row => row.id == input.id && row.status == .pending)
      (setDecision input now) rows) := by
    apply quiet_updateWhere
    · intro row _ hrow
      simp only [Bool.and_eq_true, beq_iff_eq] at hrow
      rw [hrow.2]
      rfl
    · intro row _
      simp [setDecision, hdeny, ApprovalStatus.live]
    · intro row hrow
      simpa [setDecision, hdeny] using hrow
    · exact setDecision_identity input now
  simp only [applyDecision, hdeny]
  apply hself.trans
  apply quiet_updateWhere
  · intro row _ hrow
    simp only [Bool.and_eq_true] at hrow
    exact ApprovalStatus.live_of_undecided hrow.2
  · intro row _
    rfl
  · intro row hrow
    exact hrow
  · intro row
    rfl

/-- The rows of an accepted approval: the decided row is approved, every other
row is left alone. -/
theorem applyDecision_approve (rows : List ApprovalRecord)
    (current : ApprovalRecord) (input : DecideInput) (now : Int)
    (happrove : input.decision = .approve)
    (hcurrent : getApprovalRecord rows input.id = some current)
    (hpending : current.status = .pending) (id : String) :
    getApprovalRecord (applyDecision rows current input now) id =
      if id = input.id then some (setDecision input now current)
      else getApprovalRecord rows id := by
  simp only [applyDecision, happrove, getApprovalRecord] at hcurrent ⊢
  rw [lookup_updateWhere ApprovalRecord.id id _ (setDecision input now)
    (setDecision_id input now)]
  by_cases hid : id = input.id
  · subst hid
    have hkey : current.id = input.id := lookup_key hcurrent
    simp [hcurrent, hpending, hkey]
  · rw [if_neg hid]
    cases hrow : lookup ApprovalRecord.id id rows with
    | none => rfl
    | some row =>
        have hkey : row.id = id := lookup_key hrow
        simp [hkey, hid]

/-- What `decideApproval` can do: settle rows, or turn one pending row into an
approved one and return it. -/
theorem decideApproval_cases (rows : List ApprovalRecord)
    (input : DecideInput) (now : Int) :
    (Quiet rows (decideApproval rows input now).1 ∧
      ∀ record, (decideApproval rows input now).2 = .ok record →
        record.status = .approved →
          getApprovalRecord rows input.id = some record) ∨
    (∃ current, getApprovalRecord rows input.id = some current ∧
      current.status = .pending ∧ input.decision = .approve ∧
      decideApproval rows input now =
        (applyDecision rows current input now,
          .ok (setDecision input now current))) := by
  unfold decideApproval
  cases howned : getOwnedApprovalRecord rows input.id input.tenantId
      input.memberId input.conversationId with
  | none =>
      refine Or.inl ⟨Quiet.refl rows, ?_⟩
      intro record hrecord
      cases hrecord
  | some current =>
      have hcurrent : getApprovalRecord rows input.id = some current :=
        (Option.filter_eq_some_iff.mp howned).1
      simp only
      split
      · rename_i hexpired
        refine Or.inl ⟨?_, by intro record hrecord; cases hrecord⟩
        apply quiet_updateWhere
        · intro row hrow hid
          have hsame : row.id = input.id := by simpa using hid
          rw [hsame, hcurrent] at hrow
          have heq : current = row := Option.some.inj hrow
          simp only [Bool.and_eq_true] at hexpired
          rw [← heq]
          exact ApprovalStatus.live_of_undecided hexpired.2
        · intro row _
          rfl
        · intro row hrow
          exact hrow
        · intro row
          rfl
      split
      · refine Or.inl ⟨Quiet.refl rows, ?_⟩
        rintro record hrecord -
        cases hrecord
        exact hcurrent
      split
      · exact Or.inl ⟨Quiet.refl rows, by intro record hrecord; cases hrecord⟩
      split
      · refine Or.inl ⟨Quiet.refl rows, ?_⟩
        rintro record hrecord -
        cases hrecord
        exact hcurrent
      split
      · refine Or.inl ⟨Quiet.refl rows, ?_⟩
        rintro record hrecord -
        cases hrecord
        exact hcurrent
      split
      · exact Or.inl ⟨Quiet.refl rows, by intro record hrecord; cases hrecord⟩
      · rename_i hpending
        have hstatus : current.status = .pending := by
          simpa using hpending
        cases hdecision : input.decision with
        | approve =>
            refine Or.inr ⟨current, hcurrent, hstatus, rfl, ?_⟩
            rw [applyDecision_approve rows current input now hdecision
              hcurrent hstatus, if_pos rfl]
            rfl
        | deny =>
            have hquiet := applyDecision_deny_quiet rows current input now
              hdecision
            refine Or.inl ⟨hquiet, ?_⟩
            intro record hrecord happroved
            obtain ⟨next, hnext, hsettles⟩ := hquiet.settles hcurrent
            rw [hnext] at hrecord
            cases hrecord
            rcases hsettles with heq | ⟨_, hdead, _, _⟩
            · rw [heq]
              exact hcurrent
            · change next.status = .approved at happroved
              rw [happroved] at hdead
              exact absurd hdead Bool.noConfusion

theorem setExecuting_id (now : Int) (row : ApprovalRecord) :
    (setExecuting now row).id = row.id := rfl

theorem claimApproval_get (rows : List ApprovalRecord) (claim : ClaimInput)
    (now : Int) (id : String) :
    getApprovalRecord (claimApproval rows claim now).1 id =
      (getApprovalRecord rows id).map fun row =>
        if claim.claimable now row then setExecuting now row else row := by
  have hnext : (claimApproval rows claim now).1 =
      updateWhere (claim.claimable now) (setExecuting now) rows := by
    unfold claimApproval
    split <;> rfl
  rw [hnext, getApprovalRecord, lookup_updateWhere ApprovalRecord.id id _ _
    (setExecuting_id now)]
  rfl

/-- A failed claim changes no row. -/
theorem claimApproval_none (rows : List ApprovalRecord) (claim : ClaimInput)
    (now : Int)
    (hclaim : (getApprovalRecord rows claim.id).any (claim.claimable now) =
      false) (id : String) :
    getApprovalRecord (claimApproval rows claim now).1 id =
      getApprovalRecord rows id := by
  rw [claimApproval_get]
  cases hrow : getApprovalRecord rows id with
  | none => rfl
  | some row =>
      by_cases hmatch : claim.claimable now row = true
      · have hid : row.id = id := lookup_key hrow
        have hsame : row.id = claim.id := by
          simp only [ClaimInput.claimable, Bool.and_eq_true,
            beq_iff_eq] at hmatch
          grind
        rw [← hsame, hid, hrow] at hclaim
        simp [hmatch] at hclaim
      · simp [hmatch]

end AiTeam.Approval
