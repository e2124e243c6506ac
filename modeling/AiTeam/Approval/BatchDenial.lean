/-
Batch denial: once the denial of one approval record is committed, the
undecided records of its batch are never claimed or run, and the calls that
wait on them end in rejection.
-/
import AiTeam.Approval.SingleUse

namespace AiTeam.Approval

universe u

variable {Args : Type u}

/-- The record became rejected. -/
structure Denied (before after : List ApprovalRecord) (id : String) :
    Prop where
  before : ∀ row, getApprovalRecord before id = some row →
    row.status ≠ .rejected
  after : ∃ row, getApprovalRecord after id = some row ∧
    row.status = .rejected

/-- Another record of the batch that is pending, or approved and not claimed
yet. -/
structure Sibling (rows : List ApprovalRecord) (id : String)
    (sibling : ApprovalRecord) : Prop where
  stored : getApprovalRecord rows sibling.id = some sibling
  other : sibling.id ≠ id
  undecided : sibling.status.undecided = true
  sameBatch : ∃ row, getApprovalRecord rows id = some row ∧
    row.approvalBatchId = sibling.approvalBatchId

def WaitsOn (id : String) (index : Nat) (calls : List (Call Args)) : Prop :=
  ∃ call current wakeup, calls[index]? = some call ∧
    call.phase = .waiting current wakeup ∧ current.id = id

/-- The call has thrown, its process is gone, or its promise is settled and it
throws whenever it is resumed. -/
def EndsRejected (config : Config Args) (state : State Args) (index : Nat) :
    Prop :=
  ∃ call, state.calls[index]? = some call ∧
    ((∃ error, call.phase = .failed error) ∨ call.phase = .lost ∨
      ((∃ current wakeup, call.phase = .waiting current (some wakeup)) ∧
        ∀ now, ∃ next error,
          ((machine config).next state (.resume index now)).calls[index]? =
            some next ∧ next.phase = .failed error))

/-! ### Undecided rows were never claimed -/

def Unspent (rows : List ApprovalRecord) : Prop :=
  ∀ id row, getApprovalRecord rows id = some row →
    row.status.undecided = true → row.consumed = false

theorem Quiet.unspent {before after : List ApprovalRecord}
    (h : Quiet before after) (hunspent : Unspent before) : Unspent after := by
  intro id row hrow hundecided
  cases hold : getApprovalRecord before id with
  | none =>
      rw [h.absent hold] at hrow
      cases hrow
  | some old =>
      obtain ⟨next, hnext, hsettles⟩ := h.settles hold
      obtain rfl := Option.some.inj (hrow.symm.trans hnext)
      rcases hsettles with rfl | ⟨_, hdead, _, _⟩
      · exact hunspent id row hold hundecided
      · have hlive := ApprovalStatus.live_of_undecided hundecided
        rw [hdead] at hlive
        cases hlive

theorem Moves.unspent {before after : List ApprovalRecord}
    (h : Moves before after) (hunspent : Unspent before) : Unspent after := by
  induction h with
  | quiet hquiet => exact hquiet.unspent hunspent
  | insert hfresh hunconsumed =>
      intro id row hrow hundecided
      rw [getApprovalRecord, lookup_append] at hrow
      rcases Option.or_eq_some_iff.mp hrow with hold | ⟨-, hnew⟩
      · exact hunspent id row hold hundecided
      · split at hnew
        · rw [← Option.some.inj hnew]
          exact hunconsumed
        · cases hnew
  | approve happrove hcurrent hpending =>
      intro id row hrow hundecided
      rw [applyDecision_approve _ _ _ _ happrove hcurrent hpending] at hrow
      split at hrow
      · obtain rfl := Option.some.inj hrow
        have hold := hunspent _ _ hcurrent (by rw [hpending]; rfl)
        simpa [setDecision, happrove] using hold
      · exact hunspent id row hrow hundecided
  | claim hfound happroved hget =>
      intro id row hrow hundecided
      rw [hget id] at hrow
      split at hrow
      · obtain rfl := Option.some.inj hrow
        cases hundecided
      · exact hunspent id row hrow hundecided
  | trans _ _ hfirst hsecond => exact hsecond (hfirst hunspent)

theorem run_unspent (config : Config Args) (actions : List (Action Args)) :
    Unspent ((machine config).run initial actions).rows := by
  apply (machine config).stateInvariant (fun state => Unspent state.rows)
  · intro state action hunspent _
    exact (step_moves config state action).unspent hunspent
  · intro id row hrow
    cases hrow
  · exact (machine config).admissible_true initial actions

theorem undecided_unclaimed (config : Config Args)
    (actions : List (Action Args)) {id : String} {row : ApprovalRecord}
    (hrow : getApprovalRecord ((machine config).run initial actions).rows id =
      some row) (hundecided : row.status.undecided = true) :
    ((machine config).trace initial actions).countP (Event.claims id) = 0 := by
  by_contra hclaimed
  obtain ⟨claimed, hstored, hconsumed⟩ :=
    (run_inv config actions).log.consumed (Nat.pos_of_ne_zero hclaimed)
  obtain rfl := Option.some.inj (hrow.symm.trans hstored)
  have hunspent := run_unspent config actions id row hrow hundecided
  rw [hconsumed] at hunspent
  cases hunspent

/-! ### The denial -/

/-- Every row is left alone by `expireDue` or expires. -/
theorem expireDue_get (state : State Args)
    (conversationId tenantId memberId : String) (now : Int) (id : String) :
    getApprovalRecord
        (expireDue state conversationId tenantId memberId now).rows id =
      getApprovalRecord state.rows id ∨
    ∃ row next, getApprovalRecord state.rows id = some row ∧
      getApprovalRecord
        (expireDue state conversationId tenantId memberId now).rows id =
          some next ∧ next.status = .expired ∧
      next.approvalBatchId = row.approvalBatchId := by
  unfold expireDue
  simp only
  generalize state.rows.filter _ = due
  induction due generalizing state with
  | nil => exact Or.inl rfl
  | cons record rest ih =>
      have hstep := lookup_updateWhere ApprovalRecord.id id
        (fun row => row.id == record.id && row.status.undecided &&
          decide (row.expiresAt ≤ now)) (setExpired now) (fun _ => rfl)
        state.rows
      rw [List.foldl_cons]
      rcases ih ⟨expireApproval state.rows record.id now,
          wake record.id (.rejected .expired) state.calls⟩ with
        hsame | ⟨row, next, hrow, hnext, hexpired, hbatch⟩
      · rw [hsame, getApprovalRecord, expireApproval, hstep]
        cases hfound : getApprovalRecord state.rows id with
        | none =>
            rw [getApprovalRecord] at hfound
            exact Or.inl (by rw [hfound]; rfl)
        | some row =>
            rw [getApprovalRecord] at hfound
            rw [hfound, Option.map_some]
            split
            · exact Or.inr ⟨row, _, rfl, rfl, rfl, rfl⟩
            · exact Or.inl rfl
      · have hquiet := expireApproval_quiet state.rows record.id now
        cases hfound : getApprovalRecord state.rows id with
        | none =>
            rw [hquiet.absent hfound] at hrow
            cases hrow
        | some old =>
            obtain ⟨middle, hmiddle, hidentity⟩ := hquiet.extends hfound
            rw [← Option.some.inj (hrow.symm.trans hmiddle)] at hidentity
            have hkept := congrArg ApprovalRecord.approvalBatchId hidentity
            exact Or.inr ⟨old, next, rfl, hnext, hexpired,
              hbatch.trans hkept⟩

/-- The rows after a committed denial: the record is rejected, and the
undecided rows of its batch are invalidated. -/
theorem applyDecision_deny (rows : List ApprovalRecord)
    (current : ApprovalRecord) (input : DecideInput) (now : Int)
    (hdeny : input.decision = .deny)
    (hcurrent : getApprovalRecord rows input.id = some current)
    (hpending : current.status = .pending) (id : String) :
    getApprovalRecord (applyDecision rows current input now) id =
      if id = input.id then some (setDecision input now current)
      else (getApprovalRecord rows id).map fun row =>
        if row.approvalBatchId == current.approvalBatchId &&
            row.status.undecided then setInvalidated now row else row := by
  simp only [applyDecision, hdeny, getApprovalRecord] at hcurrent ⊢
  rw [lookup_updateWhere ApprovalRecord.id id _ (setInvalidated now)
    (fun _ => rfl), lookup_updateWhere ApprovalRecord.id id _
    (setDecision input now) (setDecision_id input now), Option.map_map]
  by_cases hid : id = input.id
  · subst hid
    have hkey : current.id = input.id := lookup_key hcurrent
    simp [hcurrent, hpending, hkey, setDecision_id]
  · rw [if_neg hid]
    cases hrow : lookup ApprovalRecord.id id rows with
    | none => rfl
    | some row =>
        have hkey : row.id = id := lookup_key hrow
        simp [hkey, hid]

variable {input : DecideInput} {now : Int} {state : State Args}
  {current : ApprovalRecord} {phase : Phase} {call : Call Args} {index : Nat}

/-- A record that a decision made rejected was pending and is denied. -/
theorem decideApproval_denied {rows : List ApprovalRecord}
    (h : Denied rows (decideApproval rows input now).1 input.id) :
    ∃ current, getApprovalRecord rows input.id = some current ∧
      current.status = .pending ∧ input.decision = .deny ∧
      decideApproval rows input now =
        (applyDecision rows current input now,
          .ok (setDecision input now current)) := by
  obtain ⟨row, hrow, hrejected⟩ := h.after
  have hchanged : getApprovalRecord rows input.id ≠ some row :=
    fun hsame => h.before row hsame hrejected
  unfold decideApproval at hrow ⊢
  cases howned : getOwnedApprovalRecord rows input.id input.tenantId
      input.memberId input.conversationId with
  | none =>
      rw [howned] at hrow
      exact absurd hrow hchanged
  | some current =>
      have hcurrent : getApprovalRecord rows input.id = some current :=
        (Option.filter_eq_some_iff.mp howned).1
      rw [howned] at hrow
      simp only at hrow ⊢
      split at hrow
      · rw [getApprovalRecord, lookup_updateWhere ApprovalRecord.id input.id
          _ (setExpired now) (fun _ => rfl)] at hrow
        obtain ⟨old, hold, rfl⟩ := Option.map_eq_some_iff.mp hrow
        split at hrejected
        · cases hrejected
        · exact absurd hold (fun hsame => h.before old hsame hrejected)
      split at hrow
      · exact absurd hrow hchanged
      split at hrow
      · exact absurd hrow hchanged
      split at hrow
      · exact absurd hrow hchanged
      split at hrow
      · exact absurd hrow hchanged
      split at hrow
      · exact absurd hrow hchanged
      · rename_i hunexpired hfirst hrevision happroved hrepeat hpending
        have hstatus : current.status = .pending := by
          simpa using hpending
        have hdeny : input.decision = .deny := by
          cases hdecision : input.decision with
          | deny => rfl
          | approve =>
              rw [applyDecision_approve rows current input now hdecision
                hcurrent hstatus, if_pos rfl] at hrow
              rw [← Option.some.inj hrow] at hrejected
              simp [setDecision, hdecision] at hrejected
        refine ⟨current, hcurrent, hstatus, hdeny, ?_⟩
        rw [if_neg hunexpired, if_neg hfirst, if_neg hrevision,
          if_neg happroved, if_neg hrepeat, if_neg hpending]
        rw [applyDecision_deny rows current input now hdeny hcurrent hstatus,
          if_pos rfl]
        rfl

/-- The sweep does not touch the record that is denied after it. -/
theorem decideRequest_denied {storeNow : Int}
    (h : Denied state.rows (decideRequest state input now storeNow).1.rows
      input.id) :
    ∃ current, getApprovalRecord state.rows input.id = some current ∧
      current.status = .pending ∧ input.decision = .deny ∧
      let swept := expireDue state input.conversationId input.tenantId
        input.memberId now
      let rows := applyDecision swept.rows current input storeNow
      getApprovalRecord swept.rows input.id = some current ∧
      (decideRequest state input now storeNow).1 = ⟨rows,
        wake input.id (.rejected .denied) (cancelBatch rows
          current.approvalBatchId input.id swept.calls)⟩ := by
  have hget := expireDue_get state input.conversationId input.tenantId
    input.memberId now input.id
  have hrows : (decideRequest state input now storeNow).1.rows =
      (decideApproval (expireDue state input.conversationId input.tenantId
        input.memberId now).rows input storeNow).1 := by
    simp only [decideRequest]
    split <;> rename_i hresult <;> rw [hresult]
  rw [hrows] at h
  unfold decideRequest
  simp only
  generalize expireDue state input.conversationId input.tenantId
    input.memberId now = swept at hget h ⊢
  have hdenied : Denied swept.rows
      (decideApproval swept.rows input storeNow).1 input.id := by
    refine ⟨?_, h.after⟩
    intro row hrow
    rcases hget with hsame | ⟨_, next, _, hnext, hexpired, _⟩
    · exact h.before row (hsame.symm.trans hrow)
    · rw [← Option.some.inj (hnext.symm.trans hrow), hexpired]
      exact ApprovalStatus.noConfusion
  obtain ⟨current, hcurrent, hpending, hdeny, hdecided⟩ :=
    decideApproval_denied hdenied
  have hbefore : getApprovalRecord state.rows input.id = some current := by
    rcases hget with hsame | ⟨_, next, _, hnext, hexpired, _⟩
    · exact hsame.symm.trans hcurrent
    · rw [Option.some.inj (hcurrent.symm.trans hnext), hexpired] at hpending
      cases hpending
  refine ⟨current, hbefore, hpending, hdeny, hcurrent, ?_⟩
  have hid : (setDecision input storeNow current).id = input.id :=
    (setDecision_id input storeNow current).trans (lookup_key hcurrent)
  have hstatus : (setDecision input storeNow current).status = .rejected := by
    simp [setDecision, hdeny]
  have hbatch : (setDecision input storeNow current).approvalBatchId =
      current.approvalBatchId := by
    simp [setDecision, hdeny]
  rw [hdecided]
  simp [hid, hstatus, hbatch]

/-- The denial closes every sibling. -/
theorem applyDecision_sibling {rows : List ApprovalRecord}
    {sibling : ApprovalRecord} (now : Int) (hdeny : input.decision = .deny)
    (hcurrent : getApprovalRecord rows input.id = some current)
    (hpending : current.status = .pending) (hother : sibling.id ≠ input.id)
    (hsibling : ∃ row, getApprovalRecord rows sibling.id = some row ∧
      row.approvalBatchId = sibling.approvalBatchId ∧
      (row.status.undecided = true ∨ row.status = .expired))
    (hbatch : current.approvalBatchId = sibling.approvalBatchId) :
    ∃ row, getApprovalRecord (applyDecision rows current input now)
        sibling.id = some row ∧
      row.approvalBatchId = sibling.approvalBatchId ∧
      row.status.live = false := by
  obtain ⟨row, hrow, hsame, hkind⟩ := hsibling
  have hnext := applyDecision_deny rows current input now hdeny hcurrent
    hpending sibling.id
  rw [if_neg hother, hrow, Option.map_some] at hnext
  refine ⟨_, hnext, ?_⟩
  rcases hkind with hundecided | hexpired
  · rw [hbatch, hsame, hundecided, beq_self_eq_true]
    exact ⟨hsame, rfl⟩
  · have hdecided : row.status.undecided = false := by
      rw [hexpired]
      rfl
    rw [hdecided, Bool.and_false, if_neg Bool.false_ne_true, hexpired]
    exact ⟨hsame, rfl⟩

/-! ### Calls that cannot claim any more -/

/-- The call waits on the record with a settled promise, has thrown, or is
gone. -/
def Phase.Over (id : String) : Phase → Prop
  | .waiting current wakeup => current.id = id ∧ wakeup.isSome = true
  | .failed _ => True
  | .lost => True
  | _ => False

def OverAt (id : String) (index : Nat) (calls : List (Call Args)) : Prop :=
  ∃ call, calls[index]? = some call ∧ call.phase.Over id

section

variable {id : String} {index : Nat} {calls : List (Call Args)}

theorem Phase.Over.settle (h : phase.Over id) (selects : ApprovalRecord → Bool)
    (wakeup : Wakeup) : (phase.settle selects wakeup).Over id := by
  cases phase with
  | waiting current settled =>
      cases settled with
      | none => exact absurd h.2 Bool.false_ne_true
      | some _ => exact h
  | failed error => exact trivial
  | lost => exact trivial
  | claimed record => exact h.elim
  | running record => exact h.elim
  | finished => exact h.elim

theorem OverAt.map (h : OverAt id index calls)
    (change : Call Args → Call Args)
    (hchange : ∀ call, call.phase.Over id → (change call).phase.Over id) :
    OverAt id index (calls.map change) := by
  obtain ⟨call, hcall, hover⟩ := h
  refine ⟨change call, ?_, hchange call hover⟩
  rw [List.getElem?_map, hcall]
  rfl

theorem OverAt.settleWaiters (h : OverAt id index calls)
    (selects : ApprovalRecord → Bool) (wakeup : Wakeup) :
    OverAt id index (Approval.settleWaiters selects wakeup calls) :=
  h.map _ fun _ hover => hover.settle selects wakeup

section

variable (h : OverAt id index calls)
include h

theorem OverAt.append (call : Call Args) :
    OverAt id index (calls ++ [call]) := by
  obtain ⟨old, hold, hover⟩ := h
  refine ⟨old, ?_, hover⟩
  rw [List.getElem?_append_left (List.getElem?_eq_some_iff.mp hold).1]
  exact hold

/-- A call of the list changes; the call at `index` stays over. -/
theorem OverAt.modify (target : Nat) (change : Call Args → Call Args)
    (hchange : ∀ call, calls[index]? = some call → target = index →
      call.phase.Over id → (change call).phase.Over id) :
    OverAt id index (calls.modify target change) := by
  obtain ⟨call, hcall, hover⟩ := h
  rw [OverAt]
  simp only [List.getElem?_modify, hcall, Option.map_eq_map, Option.map_some]
  split
  · next hsame => exact ⟨_, rfl, hchange call hcall hsame hover⟩
  · exact ⟨call, rfl, hover⟩

theorem OverAt.setPhase (target : Nat)
    (hphase : target = index → phase.Over id) :
    OverAt id index (setPhase calls target phase) :=
  h.modify target _ fun _ _ hsame _ => hphase hsame

/-- A call in a phase that is not over is another one. -/
theorem OverAt.ne {target : Nat}
    (hphase : (calls[target]?).map Call.phase = some phase)
    (hnot : ¬ phase.Over id) : target ≠ index := by
  rintro rfl
  obtain ⟨call, hcall, hover⟩ := h
  rw [hcall] at hphase
  exact hnot (Option.some.inj hphase ▸ hover)

/-- A waiting call that is over waits on the record. -/
theorem OverAt.waits {wakeup : Option Wakeup}
    (hcall : calls[index]? = some call)
    (hphase : call.phase = .waiting current wakeup) : current.id = id := by
  obtain ⟨found, hfound, hover⟩ := h
  rw [Option.some.inj (hcall.symm.trans hfound)] at hphase
  rw [hphase] at hover
  exact hover.1

end

theorem settleWaiters_getElem (hcall : calls[index]? = some call)
    (selects : ApprovalRecord → Bool) (wakeup : Wakeup) :
    (settleWaiters selects wakeup calls)[index]? =
      some { call with phase := call.phase.settle selects wakeup } := by
  rw [settleWaiters, List.getElem?_map, hcall]
  rfl

theorem WaitsOn.settleWaiters (h : WaitsOn id index calls)
    (selects : ApprovalRecord → Bool) (wakeup : Wakeup) :
    WaitsOn id index (Approval.settleWaiters selects wakeup calls) := by
  obtain ⟨call, current, settled, hcall, hphase, hid⟩ := h
  have hnext := settleWaiters_getElem hcall selects wakeup
  rw [hphase] at hnext
  cases settled with
  | none => exact ⟨_, current, _, hnext, rfl, hid⟩
  | some kept => exact ⟨_, current, some kept, hnext, rfl, hid⟩

/-- Settling every waiter on the record. -/
theorem WaitsOn.over (h : WaitsOn id index calls)
    (selects : ApprovalRecord → Bool) (wakeup : Wakeup)
    (hselects : ∀ current, current.id = id → selects current = true) :
    OverAt id index (Approval.settleWaiters selects wakeup calls) := by
  obtain ⟨call, current, settled, hcall, hphase, hid⟩ := h
  have hnext := settleWaiters_getElem hcall selects wakeup
  rw [hphase] at hnext
  refine ⟨_, hnext, ?_⟩
  cases settled with
  | none =>
      simp only [Phase.settle, hselects current hid, ↓reduceIte]
      exact ⟨hid, rfl⟩
  | some kept => exact ⟨hid, rfl⟩

end

theorem expireDue_settles {inv : List (Call Args) → Prop}
    (hsettle : ∀ calls selects wakeup, inv calls →
      inv (settleWaiters selects wakeup calls))
    (state : State Args) (conversationId tenantId memberId : String)
    (now : Int) (h : inv state.calls) :
    inv (expireDue state conversationId tenantId memberId now).calls := by
  unfold expireDue
  simp only
  generalize state.rows.filter _ = due
  induction due generalizing state with
  | nil => exact h
  | cons record rest ih => exact ih ⟨_, _⟩ (hsettle _ _ _ h)

theorem WaitsOn.sweep {id : String} (h : WaitsOn id index state.calls)
    (conversationId tenantId memberId : String) (now : Int) :
    WaitsOn id index
      (expireDue state conversationId tenantId memberId now).calls := by
  apply expireDue_settles _ state conversationId tenantId memberId now h
  intro calls selects wakeup hwaits
  exact hwaits.settleWaiters selects wakeup

theorem execute_calls (config : Config Args) (state : State Args)
    (request : ApprovalRequest Args) (aborted : Bool) (now : Int) :
    ∃ call, (execute config state request aborted now).1.calls =
      state.calls ++ [call] := by
  unfold execute
  simp only
  split
  · exact ⟨_, rfl⟩
  split
  · split <;> exact ⟨_, rfl⟩
  · split <;> exact ⟨_, rfl⟩

/-- On a terminal record `waitAndClaim` throws. -/
theorem waitAndClaim_dead (rows : List ApprovalRecord)
    (request : ApprovalRequest Args) (hdead : current.status.live = false)
    (aborted : Bool) (now : Int) :
    ∃ error, (waitAndClaim rows request current aborted now).2 =
      .failed error := by
  have hnot : current.status ≠ .approved := by
    intro happroved
    rw [happroved] at hdead
    cases hdead
  rw [waitAndClaim, if_neg (by simpa using hnot), awaitOrThrow]
  cases hstatus : current.status with
  | pending =>
      rw [hstatus] at hdead
      cases hdead
  | approved => exact absurd hstatus hnot
  | executing => exact ⟨_, rfl⟩
  | succeeded => exact ⟨_, rfl⟩
  | rejected => exact ⟨_, rfl⟩
  | invalidated => exact ⟨_, rfl⟩
  | expired => exact ⟨_, rfl⟩
  | uncertain =>
      simp only
      split
      · exact ⟨_, rfl⟩
      · exact ⟨_, rfl⟩

/-- The record is terminal and the call is over. -/
structure Stuck (id : String) (index : Nat) (state : State Args) : Prop where
  dead : ∃ row, getApprovalRecord state.rows id = some row ∧
    row.status.live = false
  ended : OverAt id index state.calls

/-- A call that is resumed on a terminal record throws. -/
theorem Stuck.resume {config : Config Args} {id : String}
    (h : Stuck id index state) (hcall : state.calls[index]? = some call)
    {wakeup : Wakeup} (hphase : call.phase = .waiting current (some wakeup))
    (hid : current.id = id) (now : Int) :
    ∃ error, ((machine config).next state (.resume index now)).calls =
      setPhase state.calls index (.failed error) := by
  obtain ⟨row, hrow, hdead⟩ := h.dead
  obtain ⟨request, aborted, phase⟩ := call
  obtain rfl : phase = .waiting current (some wakeup) := hphase
  cases wakeup with
  | rejected error =>
      refine ⟨error, ?_⟩
      simp only [Machine.next, machine, step, hcall]
  | resolved =>
      obtain ⟨error, herror⟩ :=
        waitAndClaim_dead state.rows request hdead aborted now
      refine ⟨error, ?_⟩
      simp only [Machine.next, machine, step, hcall, hid, hrow,
        Option.getD_some, herror]

theorem setPhase_getElem {calls : List (Call Args)}
    (hcall : calls[index]? = some call) (phase : Phase) :
    (setPhase calls index phase)[index]? =
      some { call with phase := phase } := by
  rw [setPhase, List.getElem?_modify, hcall]
  simp

theorem Stuck.endsRejected {config : Config Args} {id : String}
    (h : Stuck id index state) : EndsRejected config state index := by
  obtain ⟨call, hcall, hover⟩ := h.ended
  refine ⟨call, hcall, ?_⟩
  cases hphase : call.phase with
  | waiting current wakeup =>
      rw [hphase] at hover
      obtain ⟨settled, rfl⟩ := Option.isSome_iff_exists.mp hover.2
      refine Or.inr (Or.inr ⟨⟨current, settled, rfl⟩, fun now => ?_⟩)
      obtain ⟨error, hnext⟩ := h.resume hcall hphase hover.1 now
      rw [hnext]
      exact ⟨_, error, setPhase_getElem hcall _, rfl⟩
  | failed error => exact Or.inl ⟨error, rfl⟩
  | lost => exact Or.inr (Or.inl rfl)
  | claimed record =>
      rw [hphase] at hover
      exact hover.elim
  | running record =>
      rw [hphase] at hover
      exact hover.elim
  | finished =>
      rw [hphase] at hover
      exact hover.elim

/-- A call that is over stays over. -/
theorem Stuck.calls {config : Config Args} {id : String}
    (h : Stuck id index state) (action : Action Args) :
    OverAt id index ((machine config).next state action).calls := by
  have hsettles : ∀ calls selects wakeup, OverAt id index calls →
      OverAt id index (@Approval.settleWaiters Args selects wakeup calls) :=
    fun _ selects wakeup hover => hover.settleWaiters selects wakeup
  have hsweep := expireDue_settles hsettles state
  have hover := h.ended
  change OverAt id index (step config state action).1.calls
  cases action with
  | execute request aborted now =>
      obtain ⟨call, hcalls⟩ :=
        execute_calls config state request aborted now
      rw [step, hcalls]
      exact hover.append call
  | decide input now storeNow =>
      have hswept := hsweep input.conversationId input.tenantId
        input.memberId now hover
      simp only [step, decideRequest]
      split
      · exact hswept
      · apply hsettles
        split
        · exact hsettles _ _ _ hswept
        · exact hswept
  | list conversationId tenantId memberId now =>
      exact hsweep conversationId tenantId memberId now hover
  | cancelConversation conversationId tenantId memberId now =>
      exact hover.settleWaiters _ _
  | cancelOwner tenantId memberId now => exact hover.settleWaiters _ _
  | clear => exact hover.settleWaiters _ _
  | timer call now =>
      simp only [step]
      split
      · exact hover.settleWaiters _ _
      · exact hover
  | abort call now =>
      have haborted := hover.modify call (fun c => { c with aborted := true })
        fun _ _ _ hphase => hphase
      simp only [step]
      split
      · exact haborted.settleWaiters _ _
      · exact haborted
  | resume call now =>
      simp only [step]
      split
      · exact hover.setPhase call fun _ => trivial
      · next request aborted current hcall =>
          apply hover.setPhase call
          rintro rfl
          obtain ⟨row, hrow, hdead⟩ := h.dead
          have hid := hover.waits hcall rfl
          obtain ⟨error, herror⟩ :=
            waitAndClaim_dead state.rows request hdead aborted now
          rw [hid, hrow, Option.getD_some, herror]
          trivial
      · exact hover
  | startOperation call =>
      simp only [step]
      split
      · next record hphase =>
          have hother := hover.ne hphase fun hfalse => hfalse
          exact hover.setPhase call fun hsame => absurd hsame hother
      · exact hover
  | finishOperation call succeeded now =>
      simp only [step]
      split
      · next record hphase =>
          have hother := hover.ne hphase fun hfalse => hfalse
          exact hover.setPhase call fun hsame => absurd hsame hother
      · exact hover
  | expire id now => exact hover
  | finish id status now => exact hover
  | restart now => exact hover.map _ fun _ _ => trivial

theorem Stuck.run (config : Config Args) {id : String}
    (h : Stuck id index state) (actions : List (Action Args)) :
    Stuck id index ((machine config).run state actions) := by
  apply (machine config).stateInvariant (Stuck id index) _ actions h
  · exact (machine config).admissible_true state actions
  · intro current action hstuck _
    obtain ⟨row, hrow, hdead⟩ := hstuck.dead
    have hkept := (step_moves config current action).absorbs id row hrow hdead
    exact ⟨⟨row, hkept, hdead⟩, hstuck.calls action⟩

/-! ### The law -/

/-- After the denial the sibling is closed, and whoever waited on it is
over. -/
theorem decideRequest_sibling {storeNow : Int} {sibling : ApprovalRecord}
    (hdenied : Denied state.rows
      (decideRequest state input now storeNow).1.rows input.id)
    (hsibling : Sibling state.rows input.id sibling) :
    (∃ row, getApprovalRecord (decideRequest state input now
        storeNow).1.rows sibling.id = some row ∧
      row.approvalBatchId = sibling.approvalBatchId ∧
      row.status.live = false) ∧
    ∀ index, WaitsOn sibling.id index state.calls →
      OverAt sibling.id index
        (decideRequest state input now storeNow).1.calls := by
  obtain ⟨current, hcurrent, hpending, hdeny, hkept, hnext⟩ :=
    decideRequest_denied hdenied
  obtain ⟨row, hrow, hbatch⟩ := hsibling.sameBatch
  obtain rfl := Option.some.inj (hcurrent.symm.trans hrow)
  have hswept : ∃ row, getApprovalRecord (expireDue state
      input.conversationId input.tenantId input.memberId now).rows
        sibling.id = some row ∧
      row.approvalBatchId = sibling.approvalBatchId ∧
      (row.status.undecided = true ∨ row.status = .expired) := by
    rcases expireDue_get state input.conversationId input.tenantId
        input.memberId now sibling.id with
      hsame | ⟨old, next, hold, hswept, hexpired, hkeeps⟩
    · exact ⟨sibling, hsame.trans hsibling.stored, rfl,
        Or.inl hsibling.undecided⟩
    · rw [← Option.some.inj (hsibling.stored.symm.trans hold)] at hkeeps
      exact ⟨next, hswept, hkeeps, Or.inr hexpired⟩
  obtain ⟨closed, hclosed, hsame, hdead⟩ := applyDecision_sibling storeNow
    hdeny hkept hpending hsibling.other hswept hbatch
  rw [hnext]
  refine ⟨⟨closed, hclosed, hsame, hdead⟩, fun index hwaits => ?_⟩
  apply OverAt.settleWaiters
  apply (hwaits.sweep _ _ _ now).over
  intro waited hid
  rw [hid, hclosed, Option.any_some, hsame, hbatch]
  simpa using hsibling.other

/-- Batch denial.  In every run from the empty store in which a denial makes a
record rejected: whatever happens later, the other records of its batch that
were pending or approved and unclaimed are never claimed or run, and every
call that waited on one of them ends in rejection. -/
theorem batch_denial (config : Config Args) (actions later : List (Action Args))
    (input : DecideInput) (now storeNow : Int) (sibling : ApprovalRecord)
    (hdenied : Denied ((machine config).run initial actions).rows
      ((machine config).run initial
        (actions ++ [.decide input now storeNow])).rows input.id)
    (hsibling : Sibling ((machine config).run initial actions).rows input.id
      sibling) :
    (∀ event ∈ (machine config).trace ((machine config).run initial
        (actions ++ [.decide input now storeNow])) later,
      event.claims sibling.id = false ∧ event.runs sibling.id = false) ∧
    ∀ index, WaitsOn sibling.id index
        ((machine config).run initial actions).calls →
      EndsRejected config ((machine config).run initial
        (actions ++ .decide input now storeNow :: later)) index := by
  have hdenial : (machine config).run initial
      (actions ++ [.decide input now storeNow]) =
      (decideRequest ((machine config).run initial actions) input now
        storeNow).1 := (machine config).run_append initial actions _
  rw [hdenial] at hdenied ⊢
  obtain ⟨⟨row, hrow, -, hdead⟩, hover⟩ :=
    decideRequest_sibling hdenied hsibling
  have hspared := run_spares config _ later hrow hdead
  have htrace := (machine config).trace_append initial actions
    (.decide input now storeNow :: later)
  refine ⟨fun event hevent => ⟨hspared event hevent, ?_⟩, fun index hwaits => ?_⟩
  · -- claimed neither before the denial nor later, the sibling never runs
    have hunclaimed : ((machine config).trace initial
        (actions ++ .decide input now storeNow :: later)).countP
          (Event.claims sibling.id) = 0 := by
      rw [htrace, List.countP_append, undecided_unclaimed config actions
        hsibling.stored hsibling.undecided, Nat.zero_add, List.countP_eq_zero]
      intro event hevent
      rcases List.mem_append.mp hevent with hdecided | hlater
      · obtain ⟨record, rfl⟩ := decideRequest_events _ input now storeNow
          event hdecided
        exact Bool.false_ne_true
      · rw [hspared event hlater]
        exact Bool.false_ne_true
    have hruns : ((machine config).trace initial
        (actions ++ .decide input now storeNow :: later)).countP
          (Event.runs sibling.id) = 0 := by
      have hheld := (run_inv config
        (actions ++ .decide input now storeNow :: later)).held sibling.id
      omega
    have hmem : event ∈ (machine config).trace initial
        (actions ++ .decide input now storeNow :: later) := by
      rw [htrace]
      exact List.mem_append_right _ (List.mem_append_right _ hevent)
    simpa using List.countP_eq_zero.mp hruns event hmem
  · have hstuck := Stuck.run config ⟨⟨row, hrow, hdead⟩, hover index hwaits⟩
      later
    rw [(machine config).run_append]
    exact hstuck.endsRejected

namespace BatchDenialWitness

def config : Config Nat := ⟨fun _ => "h", id, none⟩

/-- Two shell calls of one prompt. -/
def request (toolCallId : String) : ApprovalRequest Nat where
  tenantId := "t"
  memberId := "m"
  conversationId := "c"
  participantEmployeeId := some "e"
  sessionId := "s"
  snapshotVersion := "v"
  permissionRevision := "r"
  toolCallId := toolCallId
  toolCallEntryId := none
  promptReceiptRef := some "p"
  toolName := "bash"
  args := 0
  riskLevel := .bash
  permissionMode := none
  expiresAt := none

def pending (toolCallId : String) : ApprovalRecord :=
  newRecord config (request toolCallId) 0 600000

def decision (toolCallId : String) (decision : Decision) : DecideInput where
  id := (pending toolCallId).id
  tenantId := "t"
  memberId := "m"
  conversationId := "c"
  decision := decision
  expectedRevision := none
  approvedBy := "u"
  idempotencyKey := "k"

/-- Both calls wait, and the second is approved. -/
def actions : List (Action Nat) :=
  [.execute (request "1") false 0, .execute (request "2") false 0,
    .decide (decision "2" .approve) 1 1]

def sibling : ApprovalRecord :=
  setDecision (decision "2" .approve) 1 (pending "2")

/-- The approved call wakes up after the denial. -/
def later : List (Action Nat) := [.resume 1 3, .startOperation 1]

end BatchDenialWitness

open BatchDenialWitness in
/-- A sibling that is approved, its waiter woken, before the other call is
denied. -/
theorem batch_denial_approvedSibling :
    (∀ event ∈ (machine config).trace ((machine config).run initial
        (actions ++ [.decide (decision "1" .deny) 2 2])) later,
      event.claims sibling.id = false ∧ event.runs sibling.id = false) ∧
    EndsRejected config ((machine config).run initial
      (actions ++ .decide (decision "1" .deny) 2 2 :: later)) 1 := by
  have hfirst : getApprovalRecord ((machine config).run initial actions).rows
      (decision "1" .deny).id = some (pending "1") := by decide
  have hstored : getApprovalRecord ((machine config).run initial actions).rows
      sibling.id = some sibling := by decide
  have hdenied : getApprovalRecord ((machine config).run initial
      (actions ++ [.decide (decision "1" .deny) 2 2])).rows
        (decision "1" .deny).id =
      some (setDecision (decision "1" .deny) 2 (pending "1")) := by
    decide
  have hwaits : ((machine config).run initial actions).calls[1]? =
      some ⟨request "2", false, .waiting (pending "2") (some .resolved)⟩ := by
    rfl
  have hlaw := batch_denial config actions later (decision "1" .deny) 2 2
    sibling ⟨fun row hrow => by
      rw [← Option.some.inj (hfirst.symm.trans hrow)]
      decide, _, hdenied, rfl⟩
    ⟨hstored, by decide, rfl, _, hfirst, rfl⟩
  exact ⟨hlaw.1, hlaw.2 1 ⟨_, _, _, hwaits, rfl, rfl⟩⟩

end AiTeam.Approval
