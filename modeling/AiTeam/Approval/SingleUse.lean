/-
Approval single use: along every interleaving of the approval service, the
guarded operation of a record runs at most once, and only for the record as it
was approved.
-/
import AiTeam.Approval.Service

namespace AiTeam.Approval

universe u

variable {Args : Type u}

/-! ### One segment of `waitAndClaim` -/

variable {rows before after next : List ApprovalRecord} {now : Int}
  {found record current row : ApprovalRecord} {config : Config Args}
  {past events : List (Event Args)} {request : ApprovalRequest Args}
  {phase : Phase} {call index : Nat} {id : String} {state : State Args}

theorem claimApproval_keyed (hrows : Keyed ApprovalRecord.id rows)
    (claim : ClaimInput) (now : Int) :
    Keyed ApprovalRecord.id (claimApproval rows claim now).1 := by
  unfold claimApproval
  split
  · exact hrows.updateWhere _ _ (setExecuting_id now)
  · exact hrows.updateWhere _ _ (setExecuting_id now)

/-- A failed claim is quiet. -/
theorem claimApproval_quiet (rows : List ApprovalRecord) (claim : ClaimInput)
    (now : Int)
    (hclaim : (getApprovalRecord rows claim.id).any (claim.claimable now) =
      false) : Quiet rows (claimApproval rows claim now).1 := by
  have hget := claimApproval_none rows claim now hclaim
  refine ⟨fun h => claimApproval_keyed h claim now, ?_, ?_⟩
  · intro id row hrow
    exact ⟨row, (hget id).trans hrow, Settles.refl row⟩
  · intro id hnone
    exact (hget id).trans hnone

/-- A phase that neither holds a claim nor waits on another record. -/
def Phase.Plain (id : String) : Phase → Prop
  | .waiting current _ => current.id = id
  | .claimed _ => False
  | _ => True

theorem waitForDecision_plain (rows : List ApprovalRecord)
    (current : ApprovalRecord) (aborted : Bool) (now : Int) :
    Quiet rows (waitForDecision rows current aborted now).1 ∧
      (waitForDecision rows current aborted now).2.Plain current.id := by
  unfold waitForDecision
  cases aborted with
  | true =>
      exact ⟨invalidateApprovalsForConversation_quiet rows _ none none now,
        trivial⟩
  | false => exact ⟨Quiet.refl rows, rfl⟩

theorem awaitOrThrow_plain (rows : List ApprovalRecord)
    (current : ApprovalRecord) (aborted : Bool) (now : Int) :
    Quiet rows (awaitOrThrow rows current aborted now).1 ∧
      (awaitOrThrow rows current aborted now).2.Plain current.id := by
  unfold awaitOrThrow
  split
  · exact ⟨Quiet.refl rows, trivial⟩
  · exact ⟨Quiet.refl rows, trivial⟩
  · exact ⟨Quiet.refl rows, trivial⟩
  · exact ⟨Quiet.refl rows, trivial⟩
  · exact ⟨expireApproval_quiet rows current.id now, trivial⟩
  all_goals
    split
    · exact ⟨expireApproval_quiet rows current.id now, trivial⟩
    · split
      · exact ⟨Quiet.refl rows, trivial⟩
      · exact waitForDecision_plain rows current aborted now

/-- The claimable row a segment consumed, and the rows it left behind. -/
structure Claims (rows : List ApprovalRecord)
    (request : ApprovalRequest Args) (current : ApprovalRecord) (now : Int)
    (result : List ApprovalRecord × Phase) (found : ApprovalRecord) :
    Prop where
  found_eq : getApprovalRecord rows current.id = some found
  claimable : (claimInput request current).claimable now found = true
  phase_eq : result.2 = .claimed (setExecuting now found)
  get_eq : ∀ id, getApprovalRecord result.1 id =
    if id = current.id then some (setExecuting now found)
    else getApprovalRecord rows id
  keyed : Keyed ApprovalRecord.id rows → Keyed ApprovalRecord.id result.1

theorem claimApproval_fst (rows : List ApprovalRecord) (claim : ClaimInput)
    (now : Int) : (claimApproval rows claim now).1 =
      updateWhere (claim.claimable now) (setExecuting now) rows := by
  unfold claimApproval
  split <;> rfl

/-- A claim that changed its row returns the changed row. -/
theorem claimApproval_some {claim : ClaimInput}
    (hfound : getApprovalRecord rows claim.id = some found)
    (hmatch : claim.claimable now found = true) :
    (claimApproval rows claim now).2 = some (setExecuting now found) := by
  have hself := claimApproval_get rows claim now claim.id
  rw [hfound, claimApproval_fst] at hself
  simp only [Option.map_some, hmatch, ↓reduceIte] at hself
  have howner := hmatch
  simp only [ClaimInput.claimable, Bool.and_eq_true, beq_iff_eq] at howner
  have hany : (getApprovalRecord rows claim.id).any
      (claim.claimable now) = true := by
    rw [hfound]
    exact hmatch
  unfold claimApproval
  rw [if_pos hany]
  simp only [getOwnedApprovalRecord]
  rw [hself]
  simp [setExecuting, Option.filter, howner]

/-- The rows after a claim: only the claimed row changed. -/
theorem claimApproval_get_of_claimable {claim : ClaimInput}
    (hfound : getApprovalRecord rows claim.id = some found)
    (hmatch : claim.claimable now found = true) (id : String) :
    getApprovalRecord (claimApproval rows claim now).1 id =
      if id = claim.id then some (setExecuting now found)
      else getApprovalRecord rows id := by
  rw [claimApproval_get]
  by_cases hsame : id = claim.id
  · subst hsame
    simp [hfound, hmatch]
  · rw [if_neg hsame]
    cases hrow : getApprovalRecord rows id with
    | none => rfl
    | some row =>
        have hrowId : row.id = id := lookup_key hrow
        simp [ClaimInput.claimable, hrowId, hsame]

theorem claimApproval_failed {claim : ClaimInput}
    (hclaim : (getApprovalRecord rows claim.id).any (claim.claimable now) =
      false) : (claimApproval rows claim now).2 = none := by
  unfold claimApproval
  rw [if_neg (by simp [hclaim])]

/-- What one segment of `waitAndClaim` can do: claim the current record, or
settle rows and wait or throw. -/
theorem waitAndClaim_cases (rows : List ApprovalRecord)
    (request : ApprovalRequest Args) (current : ApprovalRecord)
    (aborted : Bool) (now : Int) :
    (∃ found, Claims rows request current now
      (waitAndClaim rows request current aborted now) found) ∨
    (Quiet rows (waitAndClaim rows request current aborted now).1 ∧
      (waitAndClaim rows request current aborted now).2.Plain current.id) := by
  unfold waitAndClaim
  by_cases happroved : current.status = .approved
  · simp only [happroved, beq_self_eq_true, ↓reduceIte]
    cases hclaim : (getApprovalRecord rows current.id).any
        ((claimInput request current).claimable now) with
    | true =>
        left
        cases hfound : getApprovalRecord rows current.id with
        | none =>
            rw [hfound] at hclaim
            cases hclaim
        | some found =>
            have hmatch : (claimInput request current).claimable now found =
                true := by
              rw [hfound] at hclaim
              exact hclaim
            have hsecond : (claimApproval rows (claimInput request current)
                now).2 = some (setExecuting now found) :=
              claimApproval_some hfound hmatch
            have hshape : ((claimApproval rows (claimInput request current)
                now).2.filter fun r => r.status == .executing && r.consumed) =
                  some (setExecuting now found) := by
              rw [hsecond]
              rfl
            rw [hshape]
            exact ⟨found, hfound, hmatch, rfl,
              claimApproval_get_of_claimable hfound hmatch,
              fun h => claimApproval_keyed h _ now⟩
    | false =>
        right
        have hquiet := claimApproval_quiet rows (claimInput request current)
          now hclaim
        have hfailed : (claimApproval rows (claimInput request current)
            now).2 = none := claimApproval_failed hclaim
        rw [hfailed]
        simp only [Option.filter_none]
        split
        · exact ⟨hquiet, trivial⟩
        · have hrest := awaitOrThrow_plain
            (claimApproval rows (claimInput request current) now).1
            ((getApprovalRecord (claimApproval rows
              (claimInput request current) now).1 current.id).getD current)
            aborted now
          refine ⟨hquiet.trans hrest.1, ?_⟩
          have hid : ((getApprovalRecord (claimApproval rows
              (claimInput request current) now).1 current.id).getD
                current).id = current.id := by
            cases hrow : getApprovalRecord (claimApproval rows
                (claimInput request current) now).1 current.id with
            | none => rfl
            | some row => exact lookup_key hrow
          rw [hid] at hrest
          exact hrest.2
  · simp only [beq_iff_eq, happroved, ↓reduceIte]
    exact Or.inr (awaitOrThrow_plain rows current aborted now)

/-! ### The invariant -/

def Event.claims (id : String) : Event Args → Bool
  | .claimed _ _ record _ => record.id == id
  | _ => false

def Event.runs (id : String) : Event Args → Bool
  | .ran _ ranId => ranId == id
  | _ => false

def Phase.holds (id : String) : Phase → Bool
  | .claimed record => record.id == id
  | _ => false

/-- A claim found an approved, unexpired and unconsumed row, exactly as it was
approved, for the very arguments, snapshot and permission of the request. -/
structure GoodClaim (config : Config Args) (past : List (Event Args))
    (request : ApprovalRequest Args) (record : ApprovalRecord) (now : Int) :
    Prop where
  status_eq : record.status = .approved
  unexpired : now < record.expiresAt
  unconsumed : record.consumed = false
  approved : Event.approved record ∈ past
  args_eq : record.canonicalArgsHmac = config.canonicalArgsHmac request.args
  snapshot_eq : record.snapshotVersion = request.snapshotVersion
  permission_eq : record.permissionRevision = request.permissionRevision

/-- The rows against the events emitted so far. -/
structure LogInv (config : Config Args) (rows : List ApprovalRecord)
    (past : List (Event Args)) : Prop where
  keyed : Keyed ApprovalRecord.id rows
  approved : ∀ {id row}, getApprovalRecord rows id = some row →
    row.status = .approved → Event.approved row ∈ past
  claimOnce : ∀ id, past.countP (Event.claims id) ≤ 1
  consumed : ∀ {id}, 0 < past.countP (Event.claims id) →
    ∃ row, getApprovalRecord rows id = some row ∧ row.consumed = true
  good : ∀ {call request record now},
    Event.claimed call request record now ∈ past →
      GoodClaim config past request record now

/-- What the phase of a call knows about the rows and the events. -/
def PhaseOk (config : Config Args) (rows : List ApprovalRecord)
    (past : List (Event Args)) (call : Nat) (request : ApprovalRequest Args) :
    Phase → Prop
  | .waiting current _ => ∃ row, getApprovalRecord rows current.id = some row ∧
      row.canonicalArgsHmac = config.canonicalArgsHmac request.args
  | .claimed record => ∃ found now,
      Event.claimed call request found now ∈ past ∧ found.id = record.id
  | _ => True

structure Inv (config : Config Args) (state : State Args)
    (past : List (Event Args)) : Prop where
  log : LogInv config state.rows past
  calls : ∀ {index call}, state.calls[index]? = some call →
    PhaseOk config state.rows past index call.request call.phase
  held : ∀ id, past.countP (Event.runs id) +
    state.calls.countP (fun call => call.phase.holds id) ≤
      past.countP (Event.claims id)

/-- Rows only grow, and keep their identity. -/
def Extends (before after : List ApprovalRecord) : Prop :=
  ∀ {id row}, getApprovalRecord before id = some row →
    ∃ next, getApprovalRecord after id = some next ∧
      next.identity = row.identity

theorem Quiet.extends (h : Quiet before after) : Extends before after := by
  intro id row hrow
  obtain ⟨next, hnext, hsettles⟩ := h.settles hrow
  exact ⟨next, hnext, hsettles.identity_eq⟩

theorem PhaseOk.mono {later : List (Event Args)}
    (h : PhaseOk config rows past call request phase)
    (hrows : Extends rows next) (hpast : past ⊆ later) :
    PhaseOk config next later call request phase := by
  cases phase with
  | waiting current wakeup =>
      obtain ⟨row, hrow, hargs⟩ := h
      obtain ⟨row', hrow', hidentity⟩ := hrows hrow
      exact ⟨row', hrow',
        (ApprovalRecord.canonicalArgsHmac_of_identity hidentity).trans hargs⟩
  | claimed record =>
      obtain ⟨found, now, hfound, hid⟩ := h
      exact ⟨found, now, hpast hfound, hid⟩
  | running record => exact trivial
  | finished => exact trivial
  | failed error => exact trivial
  | lost => exact trivial

theorem GoodClaim.mono {later : List (Event Args)}
    (h : GoodClaim config past request record now) (hpast : past ⊆ later) :
    GoodClaim config later request record now :=
  { h with approved := hpast h.approved }

theorem LogInv.quiet (h : LogInv config rows past) (hquiet : Quiet rows next) :
    LogInv config next past := by
  refine ⟨hquiet.keyed h.keyed, ?_, h.claimOnce, ?_, h.good⟩
  · intro id row hrow happroved
    cases hold : getApprovalRecord rows id with
    | none =>
        rw [hquiet.absent hold] at hrow
        cases hrow
    | some old =>
        obtain ⟨row', hrow', hsettles⟩ := hquiet.settles hold
        rw [hrow] at hrow'
        cases hrow'
        rcases hsettles with heq | ⟨_, hdead, _, _⟩
        · rw [heq] at happroved ⊢
          exact h.approved hold happroved
        · rw [happroved] at hdead
          exact absurd hdead Bool.noConfusion
  · intro id hclaimed
    obtain ⟨row, hrow, hconsumed⟩ := h.consumed hclaimed
    obtain ⟨row', hrow', hsettles⟩ := hquiet.settles hrow
    exact ⟨row', hrow', hsettles.consumed hconsumed⟩

theorem Inv.quiet {calls : List (Call Args)}
    (h : Inv config ⟨rows, calls⟩ past) (hquiet : Quiet rows next) :
    Inv config ⟨next, calls⟩ past :=
  ⟨h.log.quiet hquiet,
    fun hcall => (h.calls hcall).mono hquiet.extends (fun _ hmem => hmem),
    h.held⟩

/-- A change of the calls that keeps requests and claims, and only settles
promises or drops phases. -/
theorem Inv.mapCalls {calls : List (Call Args)}
    (h : Inv config ⟨rows, calls⟩ past) (change : Call Args → Call Args)
    (hok : ∀ index call, PhaseOk config rows past index call.request
      call.phase → PhaseOk config rows past index (change call).request
        (change call).phase)
    (hholds : ∀ id call, (change call).phase.holds id = true →
      call.phase.holds id = true) :
    Inv config ⟨rows, calls.map change⟩ past := by
  refine ⟨h.log, ?_, ?_⟩
  · intro index call hcall
    rw [List.getElem?_map] at hcall
    obtain ⟨old, hold, rfl⟩ := Option.map_eq_some_iff.mp hcall
    exact hok index old (h.calls hold)
  · intro id
    have hle : (calls.map change).countP (fun c => c.phase.holds id) ≤
        calls.countP (fun c => c.phase.holds id) := by
      rw [List.countP_map]
      exact List.countP_mono_left fun call _ hcall => hholds id call hcall
    exact Nat.le_trans (Nat.add_le_add_left hle _) (h.held id)

theorem PhaseOk.settle (h : PhaseOk config rows past call request phase)
    (selects : ApprovalRecord → Bool) (wakeup : Wakeup) :
    PhaseOk config rows past call request (phase.settle selects wakeup) := by
  cases phase with
  | waiting current settled => cases settled <;> exact h
  | claimed record => exact h
  | running record => exact h
  | finished => exact h
  | failed error => exact h
  | lost => exact h

theorem Phase.holds_settle (id : String) (selects : ApprovalRecord → Bool)
    (wakeup : Wakeup) (phase : Phase) :
    (phase.settle selects wakeup).holds id = phase.holds id := by
  cases phase with
  | waiting current settled => cases settled <;> rfl
  | claimed record => rfl
  | running record => rfl
  | finished => rfl
  | failed error => rfl
  | lost => rfl

theorem Inv.settleWaiters {config : Config Args} {rows : List ApprovalRecord}
    {calls : List (Call Args)} {past : List (Event Args)}
    (h : Inv config ⟨rows, calls⟩ past) (selects : ApprovalRecord → Bool)
    (wakeup : Wakeup) :
    Inv config ⟨rows, Approval.settleWaiters selects wakeup calls⟩ past := by
  apply h.mapCalls
  · intro index call hok
    exact hok.settle selects wakeup
  · intro id call hholds
    rwa [Phase.holds_settle] at hholds

/-- Events that are no claims leave the log invariant alone. -/
theorem LogInv.append (h : LogInv config rows past)
    (events : List (Event Args))
    (hnone : ∀ event ∈ events, ∀ id, event.claims id = false) :
    LogInv config rows (past ++ events) := by
  have hzero : ∀ id, events.countP (Event.claims id) = 0 := by
    intro id
    rw [List.countP_eq_zero]
    intro event hevent
    simp [hnone event hevent id]
  refine ⟨h.keyed, ?_, ?_, ?_, ?_⟩
  · intro id row hrow happroved
    exact List.mem_append_left _ (h.approved hrow happroved)
  · intro id
    rw [List.countP_append, hzero id]
    exact h.claimOnce id
  · intro id hclaimed
    rw [List.countP_append, hzero id] at hclaimed
    exact h.consumed hclaimed
  · intro call request record now hmem
    rcases List.mem_append.mp hmem with hold | hnew
    · exact (h.good hold).mono (List.subset_append_left past events)
    · have hfalse := hnone _ hnew record.id
      simp [Event.claims] at hfalse

/-- An accepted approval, once it is in the log. -/
theorem LogInv.approve (h : LogInv config rows past) {input : DecideInput}
    (happrove : input.decision = .approve)
    (hcurrent : getApprovalRecord rows input.id = some current)
    (hpending : current.status = .pending)
    (hlog : Event.approved (setDecision input now current) ∈ past) :
    LogInv config (applyDecision rows current input now) past := by
  have hget := applyDecision_approve rows current input now happrove hcurrent
    hpending
  refine ⟨?_, ?_, h.claimOnce, ?_, h.good⟩
  · simp only [applyDecision, happrove]
    exact h.keyed.updateWhere _ _ (setDecision_id input now)
  · intro id row hrow happroved
    rw [hget id] at hrow
    split at hrow
    · cases hrow
      exact hlog
    · exact h.approved hrow happroved
  · intro id hclaimed
    obtain ⟨row, hrow, hconsumed⟩ := h.consumed hclaimed
    rw [hget id]
    split
    · rename_i hid
      rw [hid, hcurrent] at hrow
      cases hrow
      exact ⟨_, rfl, by simpa [setDecision, happrove] using hconsumed⟩
    · exact ⟨row, hrow, hconsumed⟩

/-- A created record, once its policy approval is in the log. -/
theorem LogInv.insert (h : LogInv config rows past)
    (hfresh : getApprovalRecord rows record.id = none)
    (hlog : record.status = .approved → Event.approved record ∈ past) :
    LogInv config (rows ++ [record]) past := by
  refine ⟨h.keyed.append hfresh, ?_, h.claimOnce, ?_, h.good⟩
  · intro id row hrow happroved
    rw [getApprovalRecord, lookup_append] at hrow
    cases hold : lookup ApprovalRecord.id id rows with
    | none =>
        rw [hold] at hrow
        by_cases hid : record.id = id
        · simp only [hid, ↓reduceIte, Option.none_or,
            Option.some.injEq] at hrow
          rw [← hrow] at happroved ⊢
          exact hlog happroved
        · simp [hid] at hrow
    | some old =>
        rw [hold] at hrow
        cases hrow
        exact h.approved hold happroved
  · intro id hclaimed
    obtain ⟨row, hrow, hconsumed⟩ := h.consumed hclaimed
    refine ⟨row, ?_, hconsumed⟩
    rw [getApprovalRecord] at hrow
    rw [getApprovalRecord, lookup_append, hrow]
    rfl

theorem ClaimInput.claimable_spec {claim : ClaimInput}
    (h : claim.claimable now row = true) :
    row.status = .approved ∧ row.consumed = false ∧ now < row.expiresAt ∧
      row.decisionRevision = claim.expectedRevision ∧
      row.snapshotVersion = claim.snapshotVersion ∧
      row.permissionRevision = claim.permissionRevision := by
  simp only [ClaimInput.claimable, Bool.and_eq_true, beq_iff_eq,
    Bool.not_eq_true', decide_eq_true_eq] at h
  grind

/-- A claim consumes an approved row that was never claimed before. -/
theorem LogInv.claim (h : LogInv config rows past)
    {result : List ApprovalRecord × Phase}
    (hclaims : Claims rows request current now result found)
    (hargs : found.canonicalArgsHmac = config.canonicalArgsHmac request.args)
    (call : Nat) :
    LogInv config result.1 (past ++ [.claimed call request found now]) := by
  obtain ⟨hstatus, hunconsumed, hexpiry, _, hsnapshot, hpermission⟩ :=
    ClaimInput.claimable_spec hclaims.claimable
  have hid : found.id = current.id := lookup_key hclaims.found_eq
  have hnever : past.countP (Event.claims current.id) = 0 := by
    by_contra hne
    obtain ⟨row, hrow, hconsumed⟩ := h.consumed (Nat.pos_of_ne_zero hne)
    rw [hclaims.found_eq] at hrow
    cases hrow
    rw [hunconsumed] at hconsumed
    exact Bool.false_ne_true hconsumed
  have hcount : ∀ id, (past ++ [Event.claimed call request found
      now]).countP (Event.claims id) = past.countP (Event.claims id) +
        if current.id = id then 1 else 0 := by
    intro id
    simp [Event.claims, List.countP_append, List.countP_cons, hid]
  have hlogged := h.approved hclaims.found_eq hstatus
  refine ⟨hclaims.keyed h.keyed, ?_, ?_, ?_, ?_⟩
  · intro id row hrow happroved
    rw [hclaims.get_eq id] at hrow
    split at hrow
    · cases hrow
      exact absurd happroved (by simp [setExecuting])
    · exact List.mem_append_left _ (h.approved hrow happroved)
  · intro id
    rw [hcount id]
    split
    · rename_i hsame
      have hzero := hnever
      rw [hsame] at hzero
      omega
    · exact h.claimOnce id
  · intro id hclaimed
    rw [hcount id] at hclaimed
    rw [hclaims.get_eq id]
    by_cases hsame : id = current.id
    · rw [if_pos hsame]
      exact ⟨_, rfl, rfl⟩
    · rw [if_neg hsame]
      rw [if_neg (Ne.symm hsame)] at hclaimed
      exact h.consumed hclaimed
  · intro call' request' record now' hmem
    rcases List.mem_append.mp hmem with hold | hnew
    · exact (h.good hold).mono (List.subset_append_left past _)
    · simp only [List.mem_singleton, Event.claimed.injEq] at hnew
      obtain ⟨_, rfl, rfl, rfl⟩ := hnew
      exact ⟨hstatus, hexpiry, hunconsumed, List.mem_append_left _ hlogged,
        hargs, hsnapshot, hpermission⟩

theorem Claims.extends {result : List ApprovalRecord × Phase}
    (h : Claims rows request current now result found) :
    Extends rows result.1 := by
  intro id row hrow
  rw [h.get_eq id]
  by_cases hid : id = current.id
  · rw [hid, h.found_eq] at hrow
    cases hrow
    rw [if_pos hid]
    exact ⟨_, rfl, rfl⟩
  · rw [if_neg hid]
    exact ⟨row, hrow, rfl⟩

def indicator (b : Bool) : Nat := if b then 1 else 0

/-- What a segment of one call leaves behind: rows that extend the old ones, a
phase that is backed by the log, and a claim event for a held claim. -/
structure Segment (config : Config Args) (before : List ApprovalRecord)
    (past : List (Event Args)) (call : Nat) (request : ApprovalRequest Args)
    (after : List ApprovalRecord) (phase : Phase)
    (events : List (Event Args)) : Prop where
  log : LogInv config after (past ++ events)
  grows : Extends before after
  phaseOk : PhaseOk config after (past ++ events) call request phase
  held : ∀ id, events.countP (Event.runs id) + indicator (phase.holds id) ≤
    events.countP (Event.claims id)

/-- A segment that settles rows and ends without a claim. -/
theorem LogInv.quietSegment (h : LogInv config rows past)
    (hquiet : Quiet rows next)
    (hok : PhaseOk config next past call request phase)
    (hholds : ∀ id, phase.holds id = false) :
    Segment config rows past call request next phase [] := by
  refine ⟨?_, hquiet.extends, ?_, ?_⟩
  · rw [List.append_nil]
    exact h.quiet hquiet
  · rw [List.append_nil]
    exact hok
  · intro id
    simp [hholds id, indicator]

theorem Phase.Plain.holds (h : phase.Plain id) (other : String) :
    phase.holds other = false := by
  cases phase with
  | claimed record => exact h.elim
  | waiting current wakeup => rfl
  | running record => rfl
  | finished => rfl
  | failed error => rfl
  | lost => rfl

theorem Phase.Plain.claimEvents (h : phase.Plain id) (call : Nat)
    (request : ApprovalRequest Args) (rows : List ApprovalRecord) (now : Int) :
    claimEvents call request rows phase now = [] := by
  cases phase with
  | claimed record => exact h.elim
  | waiting current wakeup => rfl
  | running record => rfl
  | finished => rfl
  | failed error => rfl
  | lost => rfl

/-- The segment of `waitAndClaim` on a record that carries the argument hash
of the request. -/
theorem waitAndClaim_segment (h : LogInv config rows past) (call : Nat)
    (request : ApprovalRequest Args) (current : ApprovalRecord)
    (aborted : Bool) (now : Int)
    (hcurrent : PhaseOk config rows past call request
      (.waiting current none)) :
    Segment config rows past call request
      (waitAndClaim rows request current aborted now).1
      (waitAndClaim rows request current aborted now).2
      (claimEvents call request rows
        (waitAndClaim rows request current aborted now).2 now) := by
  obtain ⟨row, hrow, hargs⟩ := hcurrent
  rcases waitAndClaim_cases rows request current aborted now with
    ⟨found, hclaims⟩ | ⟨hquiet, hplain⟩
  · have hsame : row = found := by
      rw [hclaims.found_eq] at hrow
      exact (Option.some.inj hrow).symm
    subst hsame
    have hid : row.id = current.id := lookup_key hrow
    have hevents : claimEvents call request rows
        (waitAndClaim rows request current aborted now).2 now =
          [.claimed call request row now] := by
      rw [hclaims.phase_eq]
      simp only [claimEvents, setExecuting_id]
      rw [hid, hrow]
      rfl
    rw [hevents]
    refine ⟨h.claim hclaims hargs call, hclaims.extends, ?_, ?_⟩
    · rw [hclaims.phase_eq]
      exact ⟨row, now, by simp, rfl⟩
    · intro id
      rw [hclaims.phase_eq]
      simp [Event.runs, Event.claims, Phase.holds, setExecuting_id,
        indicator, List.countP_cons]
  · rw [hplain.claimEvents call request rows now]
    refine h.quietSegment hquiet ?_ hplain.holds
    cases hphase : (waitAndClaim rows request current aborted now).2 with
    | waiting waited wakeup =>
        rw [hphase] at hplain
        obtain ⟨next, hnext, hidentity⟩ := hquiet.extends hrow
        refine ⟨next, ?_, (ApprovalRecord.canonicalArgsHmac_of_identity
          hidentity).trans hargs⟩
        rw [show waited.id = current.id from hplain]
        exact hnext
    | claimed record =>
        rw [hphase] at hplain
        exact hplain.elim
    | running record => exact trivial
    | finished => exact trivial
    | failed error => exact trivial
    | lost => exact trivial

/-- A segment of a new call. -/
theorem Inv.addCall (h : Inv config state past)
    (hsegment : Segment config state.rows past state.calls.length request
      rows phase events) (aborted : Bool) :
    Inv config ⟨rows, state.calls ++ [⟨request, aborted, phase⟩]⟩
      (past ++ events) := by
  refine ⟨hsegment.log, ?_, ?_⟩
  · intro index call hcall
    rcases Nat.lt_or_ge index state.calls.length with hlt | hge
    · rw [List.getElem?_append_left hlt] at hcall
      exact (h.calls hcall).mono hsegment.grows
        (List.subset_append_left past events)
    · rw [List.getElem?_append_right hge] at hcall
      obtain ⟨hindex, hnew⟩ := List.getElem?_eq_some_iff.mp hcall
      simp only [List.length_singleton] at hindex
      have heq : index = state.calls.length := by omega
      subst heq
      simp only [Nat.sub_self, List.getElem_cons_zero] at hnew
      rw [← hnew]
      exact hsegment.phaseOk
  · intro id
    have hold := h.held id
    have hnew := hsegment.held id
    simp only [List.countP_append, List.countP_singleton]
    simp only [indicator] at hnew
    omega

/-- A call moves on: a claim it gives up is accounted for by its events. -/
theorem Inv.setPhase (h : Inv config state past) {call : Call Args}
    (hcall : state.calls[index]? = some call)
    (hlog : LogInv config rows (past ++ events))
    (hgrows : Extends state.rows rows)
    (hok : PhaseOk config rows (past ++ events) index call.request phase)
    (hheld : ∀ id, events.countP (Event.runs id) +
      indicator (phase.holds id) ≤ events.countP (Event.claims id) +
        indicator (call.phase.holds id)) :
    Inv config ⟨rows, Approval.setPhase state.calls index phase⟩
      (past ++ events) := by
  refine ⟨hlog, ?_, ?_⟩
  · intro other found hfound
    simp only [Approval.setPhase, List.getElem?_modify] at hfound
    by_cases hsame : index = other
    · subst hsame
      rw [hcall] at hfound
      simp only [↓reduceIte, Option.map_eq_map, Option.map_some,
        Option.some.injEq] at hfound
      rw [← hfound]
      exact hok
    · simp only [hsame, ↓reduceIte, Option.map_eq_map,
        Option.map_id'] at hfound
      exact (h.calls hfound).mono hgrows (List.subset_append_left past events)
  · intro id
    have hold := h.held id
    have hnew := hheld id
    have hmodify := countP_modify (fun c : Call Args => c.phase.holds id)
      (fun c => { c with phase := phase }) state.calls index hcall
    simp only [List.countP_append, Approval.setPhase]
    simp only [indicator] at hnew hmodify
    omega

theorem Inv.setSegment (h : Inv config state past) {call : Call Args}
    (hcall : state.calls[index]? = some call)
    (hsegment : Segment config state.rows past index call.request
      rows phase events) :
    Inv config ⟨rows, Approval.setPhase state.calls index phase⟩
      (past ++ events) :=
  h.setPhase hcall hsegment.log hsegment.grows hsegment.phaseOk
    fun id => Nat.le_add_right_of_le (hsegment.held id)

/-! ### Every action keeps the invariant -/

theorem newest_mem (h : newest rows = some row) : row ∈ rows := by
  induction rows generalizing row with
  | nil => cases h
  | cons head tail ih =>
      simp only [newest] at h
      cases hrest : newest tail with
      | none =>
          rw [hrest] at h
          cases h
          exact List.mem_cons_self
      | some other =>
          rw [hrest] at h
          simp only at h
          split at h
          · cases h
            exact List.mem_cons_of_mem _ (ih hrest)
          · cases h
            exact List.mem_cons_self

/-- The record `execute` finds is stored and carries the request's hash. -/
theorem findApprovalForTool_spec
    (h : findApprovalForTool rows (toolKey config request) = some found) :
    found ∈ rows ∧
      found.canonicalArgsHmac = config.canonicalArgsHmac request.args := by
  obtain ⟨hmem, hselects⟩ := List.mem_filter.mp (newest_mem h)
  simp only [ToolKey.selects, toolKey, Bool.and_eq_true,
    beq_iff_eq] at hselects
  exact ⟨hmem, hselects.1.2⟩

/-- A created record is new and carries the request's hash. -/
theorem create_spec (h : create config rows request now = .ok (next, record)) :
    next = rows ++ [record] ∧ getApprovalRecord rows record.id = none ∧
      record.canonicalArgsHmac = config.canonicalArgsHmac request.args ∧
      record.consumed = false := by
  unfold create at h
  simp only at h
  split at h
  · cases h
  split at h
  · cases h
  · rename_i created hcreated
    cases h
    unfold createApprovalRecord at hcreated
    split at hcreated
    · cases hcreated
    · rename_i hfree
      cases hcreated
      simp only [Bool.or_eq_true, not_or, Bool.not_eq_true,
        Option.isSome_eq_false_iff, Option.isNone_iff_eq_none] at hfree
      exact ⟨rfl, hfree.1, rfl, rfl⟩

theorem getApprovalRecord_append_self
    (hfresh : getApprovalRecord rows record.id = none) :
    getApprovalRecord (rows ++ [record]) record.id = some record := by
  rw [getApprovalRecord] at hfresh ⊢
  rw [lookup_append, hfresh]
  simp

theorem extends_append (rows : List ApprovalRecord)
    (record : ApprovalRecord) : Extends rows (rows ++ [record]) := by
  intro id row hrow
  refine ⟨row, ?_, rfl⟩
  rw [getApprovalRecord] at hrow ⊢
  rw [lookup_append, hrow]
  rfl

theorem Extends.trans {first second third : List ApprovalRecord}
    (hfirst : Extends first second) (hsecond : Extends second third) :
    Extends first third := by
  intro id row hrow
  obtain ⟨middle, hmiddle, hsame⟩ := hfirst hrow
  obtain ⟨last, hlast, hsame'⟩ := hsecond hmiddle
  exact ⟨last, hlast, hsame'.trans hsame⟩

/-- A segment that first inserts a record and logs its policy approval. -/
theorem Segment.afterCreate {logged : List (Event Args)}
    (hlogged : ∀ event ∈ logged, event = .approved record)
    (h : Segment config (rows ++ [record]) (past ++ logged) call request next
      phase events) :
    Segment config rows past call request next phase (logged ++ events) := by
  have hruns : ∀ id, logged.countP (Event.runs id) = 0 := by
    intro id
    rw [List.countP_eq_zero]
    intro event hevent
    rw [hlogged event hevent]
    exact Bool.false_ne_true
  refine ⟨?_, Extends.trans (extends_append rows record) h.grows, ?_, ?_⟩
  · rw [← List.append_assoc]
    exact h.log
  · rw [← List.append_assoc]
    exact h.phaseOk
  · intro id
    have hheld := h.held id
    rw [List.countP_append, List.countP_append, hruns id]
    omega

theorem execute_inv (config : Config Args) (h : Inv config state past)
    (request : ApprovalRequest Args) (aborted : Bool) (now : Int) :
    Inv config (execute config state request aborted now).1
      (past ++ (execute config state request aborted now).2) := by
  have hfailed : ∀ error, Segment config state.rows past state.calls.length
      request state.rows (.failed error) [] := fun error =>
    h.log.quietSegment (Quiet.refl _) trivial fun _ => rfl
  unfold execute
  simp only
  split
  · exact h.addCall (hfailed _) aborted
  split
  · rename_i existing hexisting
    obtain ⟨hmem, hargs⟩ := findApprovalForTool_spec hexisting
    split
    · exact h.addCall (hfailed _) aborted
    · exact h.addCall (waitAndClaim_segment h.log _ request existing aborted
        now ⟨existing, h.log.keyed existing hmem, hargs⟩) aborted
  · split
    · exact h.addCall (hfailed _) aborted
    · rename_i created record hcreate
      obtain ⟨rfl, hfresh, hargs, _⟩ := create_spec hcreate
      have hlogged : ∀ event ∈ (if record.status == .approved then
          ([Event.approved record] : List (Event Args)) else []),
          event = .approved record := by
        intro event hevent
        split at hevent
        · exact List.mem_singleton.mp hevent
        · cases hevent
      have hlog := (h.log.append _ (fun event hevent id => by
        rw [hlogged event hevent]
        rfl)).insert hfresh (fun happroved => by simp [happroved])
      refine h.addCall (Segment.afterCreate hlogged ?_) aborted
      exact waitAndClaim_segment hlog _ request record aborted now
        ⟨record, getApprovalRecord_append_self hfresh, hargs⟩

section

variable (h : Inv config state past)
include h

theorem expireDue_inv (conversationId tenantId memberId : String) (now : Int) :
    Inv config (expireDue state conversationId tenantId memberId now)
      past := by
  unfold expireDue
  simp only
  generalize state.rows.filter _ = due
  induction due generalizing state with
  | nil => exact h
  | cons record rest ih =>
      apply ih
      exact Inv.settleWaiters (h.quiet (expireApproval_quiet _ _ now)) _ _

theorem decideRequest_inv (input : DecideInput) (now storeNow : Int) :
    Inv config (decideRequest state input now storeNow).1
      (past ++ (decideRequest state input now storeNow).2) := by
  have hswept := expireDue_inv h input.conversationId input.tenantId
    input.memberId now
  unfold decideRequest
  simp only
  generalize expireDue state input.conversationId input.tenantId
    input.memberId now = swept at hswept ⊢
  rcases decideApproval_cases swept.rows input storeNow with
    ⟨hquiet, happroved⟩ | ⟨current, hcurrent, hpending, happrove, hdecided⟩
  · generalize hresult : decideApproval swept.rows input storeNow = result
      at hquiet happroved ⊢
    obtain ⟨rows, outcome⟩ := result
    have hrows : Inv config ⟨rows, swept.calls⟩ past := hswept.quiet hquiet
    cases outcome with
    | error error => simpa using hrows
    | ok record =>
        -- an approved record was approved before, so nothing is logged
        have hevents : (if record.status == .approved &&
            (getApprovalRecord swept.rows input.id).any
              (fun row => row.status == .pending) then
            ([Event.approved record] : List (Event Args)) else []) = [] := by
          by_cases hstatus : record.status = .approved
          · simp [happroved record rfl hstatus, hstatus]
          · simp [hstatus]
        simp only [hevents, List.append_nil]
        apply Inv.settleWaiters
        split
        · exact hrows.settleWaiters _ _
        · exact hrows
  · have hstatus : (setDecision input storeNow current).status = .approved := by
      simp [setDecision, happrove]
    rw [hdecided]
    simp only [hstatus, hcurrent, hpending, beq_self_eq_true, Option.any_some,
      Bool.and_true, ↓reduceIte]
    have hlogged := hswept.log.append
      [Event.approved (setDecision input storeNow current)]
      (fun event hevent id => by
        rw [List.mem_singleton.mp hevent]
        rfl)
    have hnext : Inv config ⟨applyDecision swept.rows current input storeNow,
        swept.calls⟩
        (past ++ [.approved (setDecision input storeNow current)]) := by
      refine ⟨hlogged.approve happrove hcurrent hpending (by simp), ?_, ?_⟩
      · intro index call hcall
        refine (hswept.calls hcall).mono ?_ (List.subset_append_left past _)
        intro id row hrow
        change ∃ next, getApprovalRecord (applyDecision swept.rows current
          input storeNow) id = some next ∧ _
        rw [applyDecision_approve swept.rows current input storeNow happrove
          hcurrent hpending]
        by_cases hid : id = input.id
        · rw [hid, hcurrent] at hrow
          cases hrow
          rw [if_pos hid]
          exact ⟨_, rfl, setDecision_identity input storeNow current⟩
        · rw [if_neg hid]
          exact ⟨row, hrow, rfl⟩
      · intro id
        have hheld := hswept.held id
        simpa [List.countP_append, Event.runs, Event.claims] using hheld
    exact hnext.settleWaiters _ _

/-- The guarded operation starts: the held claim becomes a run. -/
theorem startOperation_inv {call : Call Args}
    (hcall : state.calls[index]? = some call)
    (hphase : call.phase = .claimed record) :
    Inv config ⟨state.rows, Approval.setPhase state.calls index
      (.running record)⟩ (past ++ [.ran index record.id]) := by
  apply h.setPhase hcall
  · apply h.log.append
    intro event hevent id
    rw [List.mem_singleton.mp hevent]
    rfl
  · exact (Quiet.refl state.rows).extends
  · exact trivial
  · intro id
    simp [hphase, Phase.holds, Event.runs, Event.claims, indicator,
      List.countP_singleton]

theorem Inv.setAborted (index : Nat) :
    Inv config ⟨state.rows, state.calls.modify index fun call =>
      { call with aborted := true }⟩ past := by
  refine ⟨h.log, ?_, ?_⟩
  · intro other call hcall
    simp only [List.getElem?_modify, Option.map_eq_map] at hcall
    obtain ⟨old, hold, rfl⟩ := Option.map_eq_some_iff.mp hcall
    have hok := h.calls hold
    by_cases hsame : index = other
    · simpa only [hsame, ↓reduceIte] using hok
    · simpa only [hsame, ↓reduceIte] using hok
  · intro id
    have hheld := h.held id
    cases hcall : state.calls[index]? with
    | none =>
        rw [List.modify_eq_self (List.getElem?_eq_none_iff.mp hcall)]
        exact hheld
    | some call =>
        have hmodify := countP_modify (fun c : Call Args => c.phase.holds id)
          (fun c => { c with aborted := true }) state.calls index hcall
        simp only at hmodify ⊢
        omega

end

theorem step_inv (config : Config Args) (state : State Args)
    (past : List (Event Args)) (action : Action Args)
    (h : Inv config state past) :
    Inv config ((machine config).next state action)
      (past ++ (machine config).emit state action) := by
  have hnone : ∀ next : State Args, Inv config next past →
      Inv config next (past ++ []) := by
    intro next hnext
    rwa [List.append_nil]
  change Inv config (step config state action).1
    (past ++ (step config state action).2)
  cases action with
  | execute request aborted now => exact execute_inv config h request _ now
  | decide input now storeNow => exact decideRequest_inv h input now storeNow
  | list conversationId tenantId memberId now =>
      exact hnone _ (expireDue_inv h conversationId tenantId memberId now)
  | cancelConversation conversationId tenantId memberId now =>
      exact hnone _ (Inv.settleWaiters (h.quiet
        (invalidateApprovalsForConversation_quiet _ _ _ _ now)) _ _)
  | cancelOwner tenantId memberId now =>
      exact hnone _ (Inv.settleWaiters (h.quiet
        (invalidateApprovalsForOwner_quiet _ _ _ now)) _ _)
  | clear => exact hnone _ (h.settleWaiters _ _)
  | timer call now =>
      simp only [step]
      split
      · exact hnone _ (Inv.settleWaiters
          (h.quiet (expireApproval_quiet _ _ now)) _ _)
      · exact hnone _ h
  | abort call now =>
      have haborted := h.setAborted call
      simp only [step]
      split
      · exact hnone _ (Inv.settleWaiters (haborted.quiet
          (invalidateApprovalsForConversation_quiet _ _ _ _ now)) _ _)
      · exact hnone _ haborted
  | resume call now =>
      simp only [step]
      split
      · rename_i request aborted current error hcall
        exact h.setSegment hcall
          (h.log.quietSegment (Quiet.refl _) trivial fun _ => rfl)
      · rename_i request aborted current hcall
        have hwaiting := h.calls hcall
        obtain ⟨row, hrow, hargs⟩ := hwaiting
        rw [hrow]
        exact h.setSegment hcall (waitAndClaim_segment h.log call request row
          aborted now ⟨row, by rw [lookup_key hrow]; exact hrow, hargs⟩)
      · exact hnone _ h
  | startOperation call =>
      simp only [step]
      split
      · rename_i record hphase
        obtain ⟨found, hfound, hclaimed⟩ := Option.map_eq_some_iff.mp hphase
        exact startOperation_inv h hfound hclaimed
      · exact hnone _ h
  | finishOperation call succeeded now =>
      simp only [step]
      split
      · rename_i record hphase
        obtain ⟨found, hfound, _⟩ := Option.map_eq_some_iff.mp hphase
        exact h.setSegment hfound (h.log.quietSegment
          (finishApproval_quiet _ _ _ now) trivial fun _ => rfl)
      · exact hnone _ h
  | expire id now => exact hnone _ (h.quiet (expireApproval_quiet _ id now))
  | finish id status now =>
      exact hnone _ (h.quiet (finishApproval_quiet _ id status now))
  | restart now =>
      apply hnone
      apply (h.quiet (restartApprovals_quiet _ now)).mapCalls
      · intro index call _
        exact trivial
      · intro id call hholds
        exact absurd hholds Bool.false_ne_true

theorem inv_initial (config : Config Args) :
    Inv config (initial : State Args) [] := by
  refine ⟨⟨Keyed.nil _, ?_, ?_, ?_, ?_⟩, ?_, ?_⟩
  · intro id row hrow
    cases hrow
  · intro id
    exact Nat.zero_le 1
  · intro id hclaimed
    exact absurd hclaimed (Nat.lt_irrefl 0)
  · intro call request record now hmem
    cases hmem
  · intro index call hcall
    cases hcall
  · intro id
    exact Nat.le_refl 0

theorem run_inv (config : Config Args) (actions : List (Action Args)) :
    Inv config ((machine config).run initial actions)
      ((machine config).trace initial actions) := by
  have hrun := (machine config).invariant (Inv config) (step_inv config)
    actions (inv_initial config)
  simpa using hrun

/-! ### Terminal rows -/

/-- What an action can do to the rows: settle some of them, insert a record,
approve a pending one, claim an approved one, or several of these in turn. -/
inductive Moves : List ApprovalRecord → List ApprovalRecord → Prop where
  | quiet {before after : List ApprovalRecord} (h : Quiet before after) :
      Moves before after
  | insert {rows : List ApprovalRecord} {record : ApprovalRecord}
      (hfresh : getApprovalRecord rows record.id = none)
      (hunconsumed : record.consumed = false) : Moves rows (rows ++ [record])
  | approve {rows : List ApprovalRecord} {current : ApprovalRecord}
      {input : DecideInput} {now : Int}
      (happrove : input.decision = .approve)
      (hcurrent : getApprovalRecord rows input.id = some current)
      (hpending : current.status = .pending) :
      Moves rows (applyDecision rows current input now)
  | claim {rows next : List ApprovalRecord} {id : String}
      {found : ApprovalRecord} {now : Int}
      (hfound : getApprovalRecord rows id = some found)
      (happroved : found.status = .approved)
      (hget : ∀ other, getApprovalRecord next other =
        if other = id then some (setExecuting now found)
        else getApprovalRecord rows other) : Moves rows next
  | trans {first second third : List ApprovalRecord}
      (hfirst : Moves first second) (hsecond : Moves second third) :
      Moves first third

theorem Moves.refl (rows : List ApprovalRecord) : Moves rows rows :=
  .quiet (Quiet.refl rows)

theorem waitAndClaim_moves (rows : List ApprovalRecord)
    (request : ApprovalRequest Args) (current : ApprovalRecord)
    (aborted : Bool) (now : Int) :
    Moves rows (waitAndClaim rows request current aborted now).1 := by
  rcases waitAndClaim_cases rows request current aborted now with
    ⟨found, hclaims⟩ | ⟨hquiet, _⟩
  · have hstatus := (ClaimInput.claimable_spec hclaims.claimable).1
    exact .claim hclaims.found_eq hstatus hclaims.get_eq
  · exact .quiet hquiet

theorem decideApproval_moves (rows : List ApprovalRecord)
    (input : DecideInput) (now : Int) :
    Moves rows (decideApproval rows input now).1 := by
  rcases decideApproval_cases rows input now with
    ⟨hquiet, _⟩ | ⟨current, hcurrent, hpending, happrove, hdecided⟩
  · exact .quiet hquiet
  · rw [hdecided]
    exact .approve happrove hcurrent hpending

theorem expireDue_moves (state : State Args)
    (conversationId tenantId memberId : String) (now : Int) :
    Moves state.rows
      (expireDue state conversationId tenantId memberId now).rows := by
  unfold expireDue
  simp only
  generalize state.rows.filter _ = due
  induction due generalizing state with
  | nil => exact Moves.refl _
  | cons record rest ih =>
      exact .trans (.quiet (expireApproval_quiet state.rows record.id now))
        (ih ⟨_, _⟩)

theorem execute_moves (config : Config Args) (state : State Args)
    (request : ApprovalRequest Args) (aborted : Bool) (now : Int) :
    Moves state.rows (execute config state request aborted now).1.rows := by
  unfold execute
  simp only
  split
  · exact Moves.refl _
  split
  · split
    · exact Moves.refl _
    · exact waitAndClaim_moves _ _ _ _ _
  · split
    · exact Moves.refl _
    · rename_i created record hcreate
      obtain ⟨rfl, hfresh, _, hunconsumed⟩ := create_spec hcreate
      exact .trans (.insert hfresh hunconsumed) (waitAndClaim_moves _ _ _ _ _)

theorem decideRequest_moves (state : State Args) (input : DecideInput)
    (now storeNow : Int) :
    Moves state.rows (decideRequest state input now storeNow).1.rows := by
  have hswept := expireDue_moves state input.conversationId input.tenantId
    input.memberId now
  have hdecided := decideApproval_moves (expireDue state input.conversationId
    input.tenantId input.memberId now).rows input storeNow
  simp only [decideRequest]
  split
  · rename_i rows error hresult
    rw [hresult] at hdecided
    exact .trans hswept hdecided
  · rename_i rows record hresult
    rw [hresult] at hdecided
    exact .trans hswept hdecided

theorem step_moves (config : Config Args) (state : State Args)
    (action : Action Args) :
    Moves state.rows ((machine config).next state action).rows := by
  change Moves state.rows (step config state action).1.rows
  cases action with
  | execute request aborted now => exact execute_moves config state _ _ now
  | decide input now storeNow => exact decideRequest_moves state input _ _
  | list conversationId tenantId memberId now =>
      exact expireDue_moves state conversationId tenantId memberId now
  | cancelConversation conversationId tenantId memberId now =>
      exact .quiet (invalidateApprovalsForConversation_quiet _ _ _ _ now)
  | cancelOwner tenantId memberId now =>
      exact .quiet (invalidateApprovalsForOwner_quiet _ _ _ now)
  | clear => exact Moves.refl _
  | timer call now =>
      simp only [step]
      split
      · exact .quiet (expireApproval_quiet _ _ now)
      · exact Moves.refl _
  | abort call now =>
      simp only [step]
      split
      · exact .quiet (invalidateApprovalsForConversation_quiet _ _ _ _ now)
      · exact Moves.refl _
  | resume call now =>
      simp only [step]
      split
      · exact Moves.refl _
      · exact waitAndClaim_moves _ _ _ _ _
      · exact Moves.refl _
  | startOperation call =>
      simp only [step]
      split <;> exact Moves.refl _
  | finishOperation call succeeded now =>
      simp only [step]
      split
      · exact .quiet (finishApproval_quiet _ _ _ now)
      · exact Moves.refl _
  | expire id now => exact .quiet (expireApproval_quiet _ id now)
  | finish id status now => exact .quiet (finishApproval_quiet _ id status now)
  | restart now => exact .quiet (restartApprovals_quiet _ now)

/-- A terminal row stays as it is. -/
def Absorbs (before after : List ApprovalRecord) : Prop :=
  ∀ id row, getApprovalRecord before id = some row →
    row.status.live = false → getApprovalRecord after id = some row

theorem Quiet.absorbs (h : Quiet before after) : Absorbs before after := by
  intro id row hrow hdead
  obtain ⟨next, hnext, hsettles⟩ := h.settles hrow
  rcases hsettles with rfl | ⟨hlive, _, _, _⟩
  · exact hnext
  · rw [hdead] at hlive
    exact absurd hlive Bool.false_ne_true

theorem absorbs_append (rows : List ApprovalRecord)
    (record : ApprovalRecord) : Absorbs rows (rows ++ [record]) := by
  intro id row hrow _
  rw [getApprovalRecord] at hrow ⊢
  rw [lookup_append, hrow]
  rfl

theorem Moves.absorbs (h : Moves before after) : Absorbs before after := by
  induction h with
  | quiet hquiet => exact hquiet.absorbs
  | insert _ _ => exact absorbs_append _ _
  | approve happrove hcurrent hpending =>
      intro id row hrow hdead
      rw [applyDecision_approve _ _ _ _ happrove hcurrent hpending]
      split
      · next hid =>
          rw [hid, hcurrent] at hrow
          cases hrow
          rw [hpending] at hdead
          exact absurd hdead Bool.noConfusion
      · exact hrow
  | claim hfound happroved hget =>
      intro id row hrow hdead
      rw [hget id]
      split
      · next hid =>
          rw [hid, hfound] at hrow
          cases hrow
          rw [happroved] at hdead
          exact absurd hdead Bool.noConfusion
      · exact hrow
  | trans _ _ hfirst hsecond =>
      exact fun id row hrow hdead =>
        hsecond id row (hfirst id row hrow hdead) hdead

theorem run_absorbs (config : Config Args) (state : State Args)
    (actions : List (Action Args)) :
    Absorbs state.rows ((machine config).run state actions).rows := by
  induction actions generalizing state with
  | nil => exact (Quiet.refl _).absorbs
  | cons action rest ih =>
      intro id row hrow hdead
      have hnext := (step_moves config state action).absorbs id row hrow hdead
      exact ih _ id row hnext hdead

/-! ### What is claimed and what is run -/

/-- No event of the list claims a terminal row. -/
def SparesTerminal (rows : List ApprovalRecord)
    (events : List (Event Args)) : Prop :=
  ∀ event ∈ events, ∀ id row, getApprovalRecord rows id = some row →
    row.status.live = false → event.claims id = false

theorem sparesTerminal_nil (rows : List ApprovalRecord) :
    SparesTerminal rows ([] : List (Event Args)) := by
  intro event hevent
  cases hevent

theorem waitAndClaim_spares (rows : List ApprovalRecord)
    (request : ApprovalRequest Args) (current : ApprovalRecord)
    (aborted : Bool) (now : Int) (call : Nat) :
    SparesTerminal rows (claimEvents call request rows
      (waitAndClaim rows request current aborted now).2 now) := by
  rcases waitAndClaim_cases rows request current aborted now with
    ⟨found, hclaims⟩ | ⟨_, hplain⟩
  · have hid : found.id = current.id := lookup_key hclaims.found_eq
    have hstatus := (ClaimInput.claimable_spec hclaims.claimable).1
    rw [hclaims.phase_eq]
    intro event hevent id row hrow hdead
    simp only [claimEvents, setExecuting_id, hid, hclaims.found_eq,
      Option.elim_some, List.mem_singleton] at hevent
    rw [hevent]
    simp only [Event.claims, hid, beq_eq_false_iff_ne, ne_eq]
    intro hsame
    rw [← hsame, hclaims.found_eq] at hrow
    cases hrow
    rw [hstatus] at hdead
    exact absurd hdead Bool.noConfusion
  · rw [hplain.claimEvents]
    exact sparesTerminal_nil rows

theorem execute_spares (config : Config Args) (state : State Args)
    (request : ApprovalRequest Args) (aborted : Bool) (now : Int) :
    SparesTerminal state.rows
      (execute config state request aborted now).2 := by
  unfold execute
  simp only
  split
  · exact sparesTerminal_nil _
  split
  · split
    · exact sparesTerminal_nil _
    · exact waitAndClaim_spares _ _ _ _ _ _
  · split
    · exact sparesTerminal_nil _
    · rename_i created record hcreate
      obtain ⟨rfl, _, _, _⟩ := create_spec hcreate
      intro event hevent id row hrow hdead
      rcases List.mem_append.mp hevent with hlogged | hclaimed
      · split at hlogged
        · rw [List.mem_singleton.mp hlogged]
          rfl
        · cases hlogged
      · exact waitAndClaim_spares _ _ _ _ _ _ event hclaimed id row
          (absorbs_append _ _ id row hrow hdead) hdead

/-- A decision only ever logs an approval. -/
theorem decideRequest_events (state : State Args) (input : DecideInput)
    (now storeNow : Int) :
    ∀ event ∈ (decideRequest state input now storeNow).2,
      ∃ record, event = .approved record := by
  intro event hevent
  simp only [decideRequest] at hevent
  split at hevent
  · cases hevent
  · rename_i rows record _
    simp only at hevent
    split at hevent
    · exact ⟨record, List.mem_singleton.mp hevent⟩
    · cases hevent

/-- No action claims a terminal row. -/
theorem step_spares (config : Config Args) (state : State Args)
    (action : Action Args) :
    SparesTerminal state.rows ((machine config).emit state action) := by
  change SparesTerminal state.rows (step config state action).2
  cases action with
  | execute request aborted now => exact execute_spares config state _ _ now
  | decide input now storeNow =>
      intro event hevent id row _ _
      obtain ⟨record, rfl⟩ := decideRequest_events state input now storeNow
        event hevent
      rfl
  | timer call now =>
      simp only [step]
      split <;> exact sparesTerminal_nil _
  | abort call now =>
      simp only [step]
      split <;> exact sparesTerminal_nil _
  | resume call now =>
      simp only [step]
      split
      · exact sparesTerminal_nil _
      · exact waitAndClaim_spares _ _ _ _ _ _
      · exact sparesTerminal_nil _
  | startOperation call =>
      simp only [step]
      split
      · intro event hevent id row _ _
        rw [List.mem_singleton.mp hevent]
        rfl
      · exact sparesTerminal_nil _
  | finishOperation call succeeded now =>
      simp only [step]
      split <;> exact sparesTerminal_nil _
  | list conversationId tenantId memberId now => exact sparesTerminal_nil _
  | cancelConversation conversationId tenantId memberId now =>
      exact sparesTerminal_nil _
  | cancelOwner tenantId memberId now => exact sparesTerminal_nil _
  | clear => exact sparesTerminal_nil _
  | expire id now => exact sparesTerminal_nil _
  | finish id status now => exact sparesTerminal_nil _
  | restart now => exact sparesTerminal_nil _

theorem run_spares (config : Config Args) (state : State Args)
    (actions : List (Action Args))
    (hrow : getApprovalRecord state.rows id = some row)
    (hdead : row.status.live = false) :
    ∀ event ∈ (machine config).trace state actions,
      event.claims id = false := by
  apply (machine config).trace_forall
    (fun s => getApprovalRecord s.rows id = some row)
    (fun event => event.claims id = false)
  · intro s action hs
    exact (step_moves config s action).absorbs id row hs hdead
  · intro s action hs event hevent
    exact step_spares config s action event hevent id row hs hdead
  · exact hrow

/-- Only `startOperation` runs the guarded operation, of a call that holds the
claim. -/
theorem emit_ran {action : Action Args}
    (h : Event.ran index id ∈ (machine config).emit state action) :
    ∃ call record, state.calls[index]? = some call ∧
      call.phase = .claimed record ∧ record.id = id := by
  have hclaims : ∀ (request : ApprovalRequest Args)
      (rows : List ApprovalRecord) (phase : Phase) (call : Nat) (now : Int),
      Event.ran index id ∉ claimEvents call request rows phase now := by
    intro request rows phase call now hmem
    cases phase with
    | claimed record =>
        simp only [claimEvents] at hmem
        cases hrow : getApprovalRecord rows record.id <;>
          simp [hrow] at hmem
    | waiting current wakeup => cases hmem
    | running record => cases hmem
    | finished => cases hmem
    | failed error => cases hmem
    | lost => cases hmem
  change Event.ran index id ∈ (step config state action).2 at h
  cases action with
  | execute request aborted now =>
      simp only [step, execute] at h
      split at h
      · cases h
      split at h
      · split at h
        · cases h
        · exact absurd h (hclaims _ _ _ _ _)
      · split at h
        · cases h
        · rcases List.mem_append.mp h with hlogged | hclaimed
          · split at hlogged
            · simp at hlogged
            · cases hlogged
          · exact absurd hclaimed (hclaims _ _ _ _ _)
  | decide input now storeNow =>
      obtain ⟨record, hrecord⟩ := decideRequest_events state input now
        storeNow _ h
      cases hrecord
  | timer call now =>
      simp only [step] at h
      split at h <;> cases h
  | abort call now =>
      simp only [step] at h
      split at h <;> cases h
  | resume call now =>
      simp only [step] at h
      split at h
      · cases h
      · exact absurd h (hclaims _ _ _ _ _)
      · cases h
  | startOperation call =>
      simp only [step] at h
      split at h
      · rename_i record hphase
        obtain ⟨found, hfound, hclaimed⟩ := Option.map_eq_some_iff.mp hphase
        simp only [List.mem_singleton, Event.ran.injEq] at h
        obtain ⟨rfl, rfl⟩ := h
        exact ⟨found, record, hfound, hclaimed, rfl⟩
      · cases h
  | finishOperation call succeeded now =>
      simp only [step] at h
      split at h <;> cases h
  | list conversationId tenantId memberId now => cases h
  | cancelConversation conversationId tenantId memberId now => cases h
  | cancelOwner tenantId memberId now => cases h
  | clear => cases h
  | expire id now => cases h
  | finish id status now => cases h
  | restart now => cases h

/-- Approval single use.  In every run from the empty store:
the operation of a record runs at most once; each time it runs, the running
call had claimed that record while it was exactly as approved, unexpired and
for the call's own arguments, snapshot and permission; terminal rows never
change again; and no row that was live at a restart is claimed after it. -/
theorem approval_single_use (config : Config Args)
    (actions : List (Action Args)) :
    (∀ id, ((machine config).trace initial actions).countP
      (Event.runs id) ≤ 1) ∧
    (∀ action index id, Event.ran index id ∈ (machine config).emit
        ((machine config).run initial actions) action →
      ∃ call record now,
        ((machine config).run initial actions).calls[index]? = some call ∧
        record.id = id ∧
        Event.claimed index call.request record now ∈
          (machine config).trace initial actions ∧
        GoodClaim config ((machine config).trace initial actions)
          call.request record now) ∧
    (∀ later id row,
      getApprovalRecord ((machine config).run initial actions).rows id =
        some row → row.status.live = false →
      getApprovalRecord
        ((machine config).run initial (actions ++ later)).rows id =
          some row) ∧
    (∀ now later id row,
      getApprovalRecord ((machine config).run initial actions).rows id =
        some row → row.status.live = true →
      ∀ event ∈ (machine config).trace
        ((machine config).run initial (actions ++ [.restart now])) later,
        event.claims id = false) := by
  have hinv := run_inv config actions
  refine ⟨?_, ?_, ?_, ?_⟩
  · intro id
    have hheld := hinv.held id
    have honce := hinv.log.claimOnce id
    omega
  · intro action index id hran
    obtain ⟨call, held, hcall, hphase, rfl⟩ := emit_ran hran
    have hok := hinv.calls hcall
    rw [hphase] at hok
    obtain ⟨found, now, hclaimed, hid⟩ := hok
    exact ⟨call, found, now, hcall, hid, hclaimed, hinv.log.good hclaimed⟩
  · intro later id row hrow hdead
    rw [(machine config).run_append]
    exact run_absorbs config _ later id row hrow hdead
  · intro now later id row hrow _
    rw [(machine config).run_append]
    obtain ⟨next, hnext, _⟩ := (restartApprovals_quiet
      ((machine config).run initial actions).rows now).settles hrow
    exact run_spares config _ later hnext (restartApprovals_dead _ now hnext)

/-! ### The life of a record -/

/-- How far a record has come. -/
def ApprovalStatus.stage : ApprovalStatus → Nat
  | .pending => 0
  | .approved => 1
  | .executing => 2
  | _ => 3

theorem ApprovalStatus.stage_le_of_dead {status dead : ApprovalStatus}
    (h : dead.live = false) : status.stage ≤ dead.stage := by
  cases dead <;> cases status <;> first | decide | exact absurd h (by decide)

/-- A record is still about the same call, has gone no step back and keeps its
consumed mark. -/
structure Proceeds (row next : ApprovalRecord) : Prop where
  identity : next.identity = row.identity
  stage : row.status.stage ≤ next.status.stage
  consumed : row.consumed = true → next.consumed = true

theorem Proceeds.refl (row : ApprovalRecord) : Proceeds row row :=
  ⟨rfl, Nat.le_refl _, id⟩

theorem lasts_trans {first middle last : List ApprovalRecord} :
    Lasts ApprovalRecord.id Proceeds first middle →
    Lasts ApprovalRecord.id Proceeds middle last →
    Lasts ApprovalRecord.id Proceeds first last :=
  Lasts.trans fun _ _ _ h h' => ⟨h'.identity.trans h.identity,
    Nat.le_trans h.stage h'.stage, h'.consumed ∘ h.consumed⟩

theorem Settles.proceeds {next : ApprovalRecord} (h : Settles row next) :
    Proceeds row next := by
  refine ⟨h.identity_eq, ?_, h.consumed⟩
  rcases h with rfl | ⟨_, hdead, _, _⟩
  · exact Nat.le_refl _
  · exact ApprovalStatus.stage_le_of_dead hdead

/-- Only one row changes, and that one proceeds. -/
theorem lasts_of_get {changed : ApprovalRecord}
    (hfound : getApprovalRecord rows id = some found)
    (hget : ∀ other, getApprovalRecord next other =
      if other = id then some changed else getApprovalRecord rows other)
    (hchanged : Proceeds found changed) :
    Lasts ApprovalRecord.id Proceeds rows next := by
  intro other row hrow
  have hother : lookup ApprovalRecord.id other next = _ := hget other
  rw [hother]
  split
  · next hid =>
      rw [hid] at hrow
      cases hfound.symm.trans hrow
      exact ⟨changed, rfl, hchanged⟩
  · exact ⟨row, hrow, Proceeds.refl row⟩

theorem Moves.proceeds (h : Moves before after) :
    Lasts ApprovalRecord.id Proceeds before after := by
  induction h with
  | quiet hquiet =>
      intro id row hrow
      obtain ⟨next, hnext, hsettles⟩ := hquiet.settles hrow
      exact ⟨next, hnext, hsettles.proceeds⟩
  | insert _ _ => exact Lasts.append Proceeds.refl _ _
  | approve happrove hcurrent hpending =>
      apply lasts_of_get hcurrent
        (applyDecision_approve _ _ _ _ happrove hcurrent hpending)
      refine ⟨setDecision_identity _ _ _, ?_, ?_⟩
      · rw [hpending]
        exact Nat.zero_le _
      · rw [setDecision, happrove]
        exact id
  | claim hfound happroved hget =>
      refine lasts_of_get hfound hget ⟨rfl, ?_, fun _ => rfl⟩
      rw [happroved]
      exact Nat.le_succ 1
  | trans _ _ hfirst hsecond => exact lasts_trans hfirst hsecond

/-- Whatever happens, records stay, each for the call it was made for, and go
from pending over approved and executing to an end, never back.  Deleting a
conversation, which deletes its records, is not among the steps. -/
theorem records_proceed (config : Config Args) (state : State Args)
    (actions : List (Action Args)) :
    Lasts ApprovalRecord.id Proceeds state.rows
      ((machine config).run state actions).rows :=
  (machine config).run_related (fun _ => True)
    (fun state next => Lasts ApprovalRecord.id Proceeds state.rows next.rows)
    (fun _ => Lasts.refl Proceeds.refl _)
    (fun _ _ _ => lasts_trans)
    (fun state action _ => ⟨trivial, (step_moves config state action).proceeds⟩)
    actions trivial

end AiTeam.Approval
