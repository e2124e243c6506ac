/-
No usage update is lost between Manager and Operator.  Every receipt is an
outbox in the sense of `AiTeam.Outbox`, provided no outdated upload arrives at
an Operator that already has the current payload and no repeated enqueue moves
a delivered receipt to another enterprise; the rollup of an enterprise is the
sum of its stored summaries in every state.
-/
import AiTeam.Delivery.Linked

namespace AiTeam.Delivery

open Courier (Lanes Thread)
open Relation (ReflTransGen)

/-! ### The view of one receipt -/

def rowStatus (row : DeliveryRow) : Outbox.Status Nat :=
  match row.status, row.claimToken with
  | .sending, some token => .sending token
  | .sent, _ => .sent
  | _, _ => .idle

/-- What the Operator stores of a receipt's payload. -/
def DeliveryRow.seenRow (row : DeliveryRow) : Option SeenRow :=
  row.enterpriseId.map fun enterpriseId =>
    Delivery.seenRow enterpriseId row.payload

def Claimed.seenRow (claimed : Claimed) : Option SeenRow :=
  claimed.enterpriseId.map fun enterpriseId =>
    Delivery.seenRow enterpriseId claimed.payload

/-- What the Operator has stored for a receipt. -/
def storedFor (operator : Operator) (row : DeliveryRow) : Option SeenRow :=
  row.enterpriseId.bind fun enterpriseId =>
    lookup SeenRow.key (enterpriseId, row.summaryId) operator.seen

def copyOf (key : String × String) (claimed : Claimed) :
    Option (Outbox.Copy (Option SeenRow) Nat) :=
  if claimed.key = key then some ⟨claimed.claimToken, claimed.seenRow⟩
  else none

variable {claimed : Claimed} {world : World} {draws : Nat} {row : DeliveryRow}

theorem copyOf_eq_some {key : String × String}
    {copy : Outbox.Copy (Option SeenRow) Nat}
    (h : copyOf key claimed = some copy) :
    claimed.key = key ∧ copy = ⟨claimed.claimToken, claimed.seenRow⟩ := by
  rw [copyOf] at h
  split at h
  · next hkey => exact ⟨hkey, (Option.some.inj h).symm⟩
  · exact nomatch h

def receipt (world : World) (key : String × String) : Option DeliveryRow :=
  lookup DeliveryRow.key key world.rows

def view (world : World) (key : String × String) :
    Outbox.State (Option SeenRow) Nat where
  payload := (receipt world key).bind DeliveryRow.seenRow
  status := ((receipt world key).map rowStatus).getD .idle
  copies := Lanes.copies (copyOf key) world.lanes
  acked := Lanes.acked (copyOf key) true world.lanes
  applied := (receipt world key).bind fun row =>
    (storedFor world.operator row).map some

/-- A statement that changes the row of a key in place: it leaves the row
idle, or keeps everything the view shows. -/
theorem step_of_map {rows : List DeliveryRow} {key : String × String}
    (change : DeliveryRow → DeliveryRow)
    (hrow : lookup DeliveryRow.key key rows =
      (receipt world key).map change)
    (hchange : ∀ row, receipt world key = some row →
      rowStatus (change row) = .idle ∨
        (rowStatus (change row) = rowStatus row ∧
          (change row).payload = row.payload ∧
          (change row).enterpriseId = row.enterpriseId ∧
          (change row).summaryId = row.summaryId)) :
    Outbox.Step (view world key) (view { world with rows } key) := by
  have hrow' : receipt { world with rows } key =
      (receipt world key).map change := hrow
  cases hold : receipt world key with
  | none =>
      rw [hold] at hrow'
      exact .reset (by simp [view, hrow'])
  | some row =>
      rw [hold] at hrow'
      rcases hchange row hold with hidle |
        ⟨hstatus, hpayload, henterprise, hid⟩
      · exact .reset (by simp [view, hrow', hidle])
      · refine .of_eq ?_ ?_ subset_rfl subset_rfl ?_
        · simp [view, hrow', hold, DeliveryRow.seenRow, hpayload, henterprise]
        · simp [view, hrow', hold, hstatus]
        · simp [view, hrow', hold, storedFor, henterprise, hid]

/-! ### Settling claims -/

theorem step_markFailed (world : World) (key : String × String)
    (claimed : Claimed) (now : Int) :
    Outbox.Step (view world key) (view { world with
      rows := markFailed world.rows claimed now } key) := by
  refine step_of_map _ (lookup_updateWhere DeliveryRow.key key _
    (retryRow claimed now) (fun _ => rfl) _) fun row _ => ?_
  split
  · exact .inl rfl
  · exact .inr ⟨rfl, rfl, rfl, rfl⟩

/-- A receipt is marked sent only under a token whose upload was accepted. -/
theorem step_markSent (world : World) (key : String × String)
    (claimed : Claimed) (hacked : claimed.key = key →
      claimed.claimToken ∈ (view world key).acked) :
    Outbox.Step (view world key) (view { world with
      rows := markSent world.rows claimed } key) := by
  have hrow : receipt { world with rows := markSent world.rows claimed } key =
      (receipt world key).map fun row =>
        if holdsClaim claimed row then sentRow row else row :=
    lookup_updateWhere DeliveryRow.key key _ sentRow (fun _ => rfl) _
  cases hold : receipt world key with
  | none =>
      rw [hold] at hrow
      exact .reset (by simp [view, hrow])
  | some row =>
      rw [hold] at hrow
      by_cases hholds : holdsClaim claimed row
      · simp only [Option.map_some, hholds, if_true] at hrow
        simp only [holdsClaim, Bool.and_eq_true, decide_eq_true_eq] at hholds
        obtain ⟨⟨hkey, hstatus⟩, htoken⟩ := hholds
        have hsame : claimed.key = key := hkey.symm.trans (lookup_key hold)
        refine .settle claimed.claimToken ?_ (hacked hsame) ?_ ?_
        · simp [view, hold, rowStatus, hstatus, htoken]
        · simp [view, hrow, rowStatus, sentRow]
        · intro happlied
          simpa [view, hrow, hold, sentRow, storedFor, DeliveryRow.seenRow]
            using happlied
      · simp only [Option.map_some, hholds, if_neg, Bool.false_eq_true,
          not_false_eq_true] at hrow
        refine .of_eq ?_ ?_ subset_rfl subset_rfl ?_
        · simp [view, hrow, hold]
        · simp [view, hrow, hold]
        · simp [view, hrow, hold, storedFor]

/-! ### Workers -/

/-- Advancing a worker only moves its claims from the thread to the wire. -/
structure Advanced (world : World) (claims : List Claimed) (world' : World) :
    Prop where
  rows : world'.rows = world.rows
  operator : world'.operator = world.operator
  held : ∀ claimed, world'.lanes.Held claimed →
    world.lanes.Held claimed ∨ claimed ∈ claims
  answered : ∀ claimed, world'.lanes.Answered claimed true →
    world.lanes.Answered claimed true

theorem advance_advanced (now : Int) {claims : List Claimed}
    (hclaims : ∀ claimed ∈ claims, ClaimOk draws claimed) (world : World) :
    Advanced world claims (advance now claims world) := by
  cases claims with
  | nil => exact ⟨rfl, rfl, fun _ h => .inl h, fun _ h => h⟩
  | cons claimed rest =>
      obtain ⟨_, _, hpayload⟩ :=
        (hclaims claimed List.mem_cons_self).operatorPayload
      simp only [advance, hpayload]
      exact ⟨rfl, rfl, fun _ h => Lanes.held_start h,
        fun _ h => Lanes.answered_start h⟩

/-- Going on with a worker is no step of any receipt. -/
theorem step_advance (hlinked : Linked world) {worker : Thread Claimed Unit}
    (hworker : worker ∈ world.lanes.threads) (now : Int) (index : Nat)
    (rows : List DeliveryRow) (key : String × String) :
    Outbox.Step (view { world with rows } key) (view (advance now worker.rest
      { world with rows, lanes := world.lanes.leave index }) key) := by
  have h := advance_advanced now (hlinked.lanes.rests worker hworker)
    { world with rows, lanes := world.lanes.leave index }
  refine .of_eq ?_ ?_ (Lanes.copies_subset fun claimed hheld => ?_)
    (Lanes.acked_subset h.answered) ?_
  · simp only [view, receipt, h.rows]
  · simp only [view, receipt, h.rows]
  · rcases h.held claimed hheld with hleft | hrest
    · exact Lanes.held_leave hleft
    · exact .inl ⟨worker, hworker, hrest⟩
  · simp only [view, receipt, h.rows, h.operator]

theorem steps_resume (hlinked : Linked world) {worker : Thread Claimed Unit}
    (hworker : worker ∈ world.lanes.threads) (accepted : Bool) (now : Int)
    (index : Nat) (key : String × String)
    (hacked : accepted = true → world.lanes.Answered worker.row true) :
    ReflTransGen Outbox.Step (view world key) (view (resume worker accepted
      now { world with lanes := world.lanes.leave index }) key) := by
  have hadvance := fun rows =>
    step_advance hlinked hworker now index rows key
  cases accepted with
  | false =>
      have hmark := step_markFailed world key worker.row now
      exact (ReflTransGen.single hmark).tail (hadvance _)
  | true =>
      have hmark := step_markSent world key worker.row fun hkey =>
        ⟨worker.row, _, hacked rfl, if_pos hkey, rfl⟩
      exact (ReflTransGen.single hmark).tail (hadvance _)

/-! ### Enqueueing, assigning and claiming -/

/-- No outdated upload reaches an Operator that already has the current
payload of a receipt, and an enqueue that repeats the payload of a receipt
under way or sent does not name another enterprise. -/
def NoOverwrite (world : World) : Action → Prop
  | .arrive index true =>
      ∀ request ∈ world.lanes.wire[index]?, request.phase = .travelling →
        ∀ row ∈ world.rows, row.summaryId = request.row.summaryId →
        row.enterpriseId = request.row.enterpriseId →
        storedFor world.operator row = row.seenRow →
        request.row.seenRow = row.seenRow
  | .enqueue tenantId item (some enterpriseId) _ =>
      ∀ row ∈ world.rows, row.key = (tenantId, item.summaryId) →
        row.payload = operatorSummaryPayload item tenantId →
        row.status = .sending ∨ row.status = .sent →
        row.enterpriseId = some enterpriseId
  | _ => True

theorem rowStatus_idle (hsending : row.status ≠ .sending)
    (hsent : row.status ≠ .sent) : rowStatus row = .idle := by
  rw [rowStatus]
  split <;> simp_all

theorem step_enqueue {tenantId : String} {item : UsageItem}
    {enterpriseId : Option String} {now : Int} {rows : List DeliveryRow}
    (hallowed : NoOverwrite world (.enqueue tenantId item enterpriseId now))
    (h : enqueueInSession world.rows tenantId item enterpriseId now =
      .ok rows) (key : String × String) :
    Outbox.Step (view world key) (view { world with rows } key) := by
  simp only [enqueueInSession] at h
  split at h
  · next hnone =>
      cases h
      by_cases hkey : key = (tenantId, item.summaryId)
      · subst hkey
        refine .reset ?_
        simp [view, receipt, lookup_append, hnone, DeliveryRow.key, rowStatus]
      · refine step_of_map (fun row => row) ?_ fun _ _ =>
          .inr ⟨rfl, rfl, rfl, rfl⟩
        simp [lookup_append, DeliveryRow.key, Ne.symm hkey, receipt]
  · split at h
    · cases h
      refine step_of_map _ (lookup_updateWhere DeliveryRow.key key _ _
        (enqueueRow_key _ _ _ _) _) fun row hrow => ?_
      split
      · next hguard =>
          simp only [enqueueRow]
          split
          · next hsame =>
              by_cases hbusy : row.status = .sending ∨ row.status = .sent
              · refine .inr ⟨rfl, rfl, ?_, rfl⟩
                cases enterpriseId with
                | none => rfl
                | some enterpriseId =>
                    exact (hallowed row (lookup_mem hrow)
                      (of_decide_eq_true hguard) hsame hbusy).symm
              · push Not at hbusy
                exact .inl (rowStatus_idle hbusy.1 hbusy.2)
          · exact .inl rfl
      · exact .inr ⟨rfl, rfl, rfl, rfl⟩
    · cases h

theorem step_assign (world : World) (tenantId enterpriseId : String)
    (key : String × String) :
    Outbox.Step (view world key) (view { world with
      rows := assignEnterpriseId world.rows tenantId enterpriseId }
      key) := by
  refine step_of_map _ (lookup_updateWhere DeliveryRow.key key _
    (assignRow enterpriseId) (fun _ => rfl) _) fun row _ => ?_
  split
  · next hguard =>
      simp only [Bool.and_eq_true, decide_eq_true_eq] at hguard
      obtain ⟨⟨⟨_, hsent⟩, hsending⟩, _⟩ := hguard
      exact .inl (rowStatus_idle hsending hsent)
  · exact .inr ⟨rfl, rfl, rfl, rfl⟩

/-- Every copy a claim hands out for a key is one of its receipt as it is. -/
theorem copies_of_claim {world' claimedWorld : World} (hlinked : Linked world)
    {tenantId : String} {limit : Int} {locked : List String} {now : Int}
    (hadvanced : Advanced claimedWorld (claimDue world.rows tenantId limit
      locked now world.draws).2 world')
    (hlanes : claimedWorld.lanes = world.lanes) (key : String × String) :
    ∀ copy ∈ (view world' key).copies, copy ∈ (view world key).copies ∨
      ∃ row ∈ selectDue world.rows tenantId limit locked now,
        receipt world key = some row ∧
        copy = ⟨world.draws, row.seenRow⟩ := by
  rintro copy ⟨claimed, hheld, hcopy⟩
  rcases hadvanced.held claimed hheld with hold | hnew
  · rw [hlanes] at hold
    exact .inl ⟨claimed, hold, hcopy⟩
  · obtain ⟨row, hselected, rfl⟩ := List.mem_map.mp hnew
    obtain ⟨hkey, rfl⟩ := copyOf_eq_some hcopy
    have hself := hlinked.rows.keyed row (selectDue_mem hselected).1
    have hrowKey : row.key = key := hkey
    rw [hrowKey] at hself
    exact .inr ⟨row, hselected, hself, rfl⟩

theorem lookup_claimDue (rows : List DeliveryRow) (tenantId : String)
    (limit : Int) (locked : List String) (now : Int) (token : Nat)
    (key : String × String) :
    lookup DeliveryRow.key key
        (claimDue rows tenantId limit locked now token).1 =
      ((lookup DeliveryRow.key key rows).map fun row =>
        if exhausted tenantId now row then failRow row else row).map
      fun row => if row.key ∈ (selectDue rows tenantId limit locked now).map
        DeliveryRow.key then claimRow token now row else row := by
  rw [claimDue, lookup_updateWhere DeliveryRow.key key _ (claimRow token now)
    (fun _ => rfl), lookup_updateWhere DeliveryRow.key key _ failRow
    (fun _ => rfl)]
  simp only [decide_eq_true_eq]

/-- A worker claims the receipt of a key, fails it, or leaves it alone. -/
theorem step_claim (hlinked : Linked world) (tenantId : String) (limit : Int)
    (locked : List String) (now : Int) (key : String × String) :
    Outbox.Step (view world key)
      (view (stepWorld world (.claim tenantId limit locked now)) key) := by
  have hclaims : ∀ claimed ∈ (claimDue world.rows tenantId limit locked now
      world.draws).2, ClaimOk (world.draws + 1) claimed :=
    fun _ h => claimOk_claimed hlinked.rows h
  have hadvanced := advance_advanced now hclaims
    { world with
      rows := (claimDue world.rows tenantId limit locked now world.draws).1
      draws := world.draws + 1 }
  change Outbox.Step (view world key) (view (advance now _ _) key)
  generalize advance now (claimDue world.rows tenantId limit locked now
    world.draws).2 _ = world' at hadvanced ⊢
  have hrow : receipt world' key = _ := (congrArg _ hadvanced.rows).trans
    (lookup_claimDue world.rows tenantId limit locked now world.draws key)
  have hacked : (view world' key).acked ⊆ (view world key).acked :=
    Lanes.acked_subset hadvanced.answered
  have hcopies := copies_of_claim hlinked hadvanced rfl key
  cases hold : receipt world key with
  | none =>
      rw [show lookup DeliveryRow.key key world.rows = none from hold] at hrow
      exact .reset (by simp [view, hrow])
  | some row =>
      have hmem : row ∈ world.rows := lookup_mem hold
      rw [show lookup DeliveryRow.key key world.rows = some row from hold,
        Option.map_some, Option.map_some] at hrow
      by_cases hselected : row ∈ selectDue world.rows tenantId limit locked
          now
      · have hkey : row.key ∈ (selectDue world.rows tenantId limit locked
            now).map DeliveryRow.key := List.mem_map_of_mem hselected
        simp only [due_not_exhausted (selectDue_mem hselected).2,
          Bool.false_eq_true, if_false, hkey, if_true] at hrow
        refine .claim world.draws ?_ ?_ ?_ ?_ ?_ hacked
        · rintro copy ⟨claimed, hheld, hcopy⟩
          obtain ⟨_, rfl⟩ := copyOf_eq_some hcopy
          exact (hlinked.lanes.held hheld).token.ne
        · rintro ⟨claimed, copy, hanswered, hcopy, htoken⟩
          obtain ⟨_, rfl⟩ := copyOf_eq_some hcopy
          exact absurd htoken (hlinked.lanes.answered hanswered).token.ne
        · simp [view, hrow, hold, claimRow, DeliveryRow.seenRow]
        · simp [view, hrow, claimRow, rowStatus]
        · intro copy hcopy
          rcases hcopies copy hcopy with h | ⟨_, _, hsome, rfl⟩
          · exact .inr h
          · cases hold.symm.trans hsome
            left
            simp [view, hold]
      · have hkey : row.key ∉ (selectDue world.rows tenantId limit locked
            now).map DeliveryRow.key := by
          intro h
          obtain ⟨other, hother, hsame⟩ := List.mem_map.mp h
          have heq := hlinked.rows.keyed.eq_of_key (selectDue_mem hother).1
            hmem hsame
          exact hselected (heq ▸ hother)
        by_cases hexhausted : exhausted tenantId now row
        · have hfail : (failRow row).key = row.key := rfl
          simp only [hexhausted, if_true, hfail, hkey, if_false] at hrow
          exact .reset (by simp [view, hrow, failRow, rowStatus])
        · simp only [hexhausted, Bool.false_eq_true, if_false, hkey] at hrow
          refine .of_eq ?_ ?_ ?_ hacked ?_
          · simp [view, hrow, hold]
          · simp [view, hrow, hold]
          · intro copy hcopy
            rcases hcopies copy hcopy with h | ⟨_, hother, hsome, _⟩
            · exact h
            · cases hold.symm.trans hsome
              exact absurd hother hselected
          · simp [view, hrow, hold, storedFor, hadvanced.operator]

/-! ### Arrivals -/

theorem lookup_deliver (hclaim : ClaimOk draws claimed) (operator : Operator)
    (key : String × String) :
    lookup SeenRow.key key (deliver operator claimed).seen =
      if claimed.enterpriseId = some key.1 ∧ claimed.summaryId = key.2 then
        claimed.seenRow
      else lookup SeenRow.key key operator.seen := by
  obtain ⟨enterpriseId, henterprise, hpayload⟩ := hclaim.operatorPayload
  simp only [deliver, hpayload, applySummary, lookup_upsertSeen,
    Claimed.seenRow, henterprise, Option.map_some, Option.some.injEq,
    SeenRow.key, seenRow, hclaim.payload.summary, Prod.ext_iff]
  congr 1
  simp only [eq_comm]

/-- An accepted arrival does not take the current payload from a receipt. -/
theorem keeps_current {index : Nat}
    (hclaimed : world.lanes.wire[index]? = some ⟨claimed, .travelling⟩)
    (hclaim : ClaimOk world.draws claimed)
    (hallowed : NoOverwrite world (.arrive index true))
    (hrow : row ∈ world.rows)
    (hstored : storedFor world.operator row = row.seenRow) :
    storedFor (deliver world.operator claimed) row = row.seenRow := by
  rw [← hstored]
  cases henterprise : row.enterpriseId with
  | none => simp only [storedFor, henterprise, Option.bind_none]
  | some enterpriseId =>
      simp only [storedFor, henterprise, Option.bind_some,
        lookup_deliver hclaim]
      split
      · next hsame =>
          have hcurrent := hallowed _ hclaimed rfl row hrow hsame.2.symm
            (henterprise.trans hsame.1.symm) hstored
          simpa [storedFor, henterprise, ← hcurrent] using hstored.symm
      · rfl

/-- An accepted copy of the current payload is what the Operator keeps. -/
theorem stores_current (hclaim : ClaimOk draws claimed) (operator : Operator)
    (hkey : claimed.key = row.key) (hcurrent : claimed.seenRow = row.seenRow) :
    storedFor (deliver operator claimed) row = row.seenRow := by
  obtain ⟨enterpriseId, henterprise, _⟩ := hclaim.operatorPayload
  have hrow : row.enterpriseId = some enterpriseId := by
    rw [Claimed.seenRow, henterprise, Option.map_some] at hcurrent
    obtain ⟨other, hother, heq⟩ := Option.map_eq_some_iff.mp hcurrent.symm
    have hsame : other = enterpriseId := congrArg SeenRow.enterpriseId heq
    rw [hother, hsame]
  rw [← hcurrent, storedFor, hrow, Option.bind_some, lookup_deliver hclaim]
  exact if_pos ⟨henterprise, congrArg Prod.snd hkey⟩

/-- An accepted arrival, of an upload of this receipt or of another. -/
theorem step_accepted (hlinked : Linked world) {index : Nat}
    (hclaimed : world.lanes.wire[index]? = some ⟨claimed, .travelling⟩)
    (hallowed : NoOverwrite world (.arrive index true)) (key : String × String)
    :
    Outbox.Step (view world key) (view { world with
      operator := deliver world.operator claimed
      lanes := world.lanes.answer index claimed true } key) := by
  have hmem := List.mem_of_getElem? hclaimed
  have hclaim : ClaimOk world.draws claimed := hlinked.lanes.wire _ hmem
  have hcopies : Lanes.copies (copyOf key)
      (world.lanes.answer index claimed true) ⊆
        Lanes.copies (copyOf key) world.lanes :=
    Lanes.copies_subset fun _ h => Lanes.held_answer h
  have hreceipt : receipt { world with
      operator := deliver world.operator claimed
      lanes := world.lanes.answer index claimed true } key =
        receipt world key := rfl
  cases hold : receipt world key with
  | none => exact .reset (by simp [view, hreceipt, hold])
  | some row =>
      have hkeep : (view world key).applied =
          some (view world key).payload →
          (storedFor (deliver world.operator claimed) row).map some =
            some row.seenRow := by
        intro h
        simp only [view, hold, Option.bind_some] at h
        obtain ⟨stored, hstored, heq⟩ := Option.map_eq_some_iff.mp h
        rw [keeps_current hclaimed hclaim hallowed (lookup_mem hold)
          (hstored.trans heq), ← heq]
        rfl
      by_cases hkey : claimed.key = key
      · refine .arrive ⟨claimed.claimToken, claimed.seenRow⟩
          ⟨claimed, .inr hmem, if_pos hkey⟩ rfl rfl hcopies ?_ ?_ ?_
        · exact Lanes.acked_answer (if_pos hkey)
        · intro hcurrent
          have hsame : claimed.seenRow = row.seenRow := by
            simpa [view, hold] using hcurrent
          obtain ⟨enterpriseId, henterprise, _⟩ := hclaim.operatorPayload
          simp only [view, hreceipt, hold, Option.bind_some]
          rw [stores_current hclaim _ (hkey.trans (lookup_key hold).symm)
            hsame, ← hsame]
          simp [Claimed.seenRow, henterprise]
        · intro h
          simpa only [view, hreceipt, hold, Option.bind_some] using hkeep h
      · refine .stay rfl rfl hcopies ?_ ?_
        · exact Lanes.acked_answer_other fun _ => if_neg hkey
        · intro h
          simpa only [view, hreceipt, hold, Option.bind_some] using hkeep h

theorem step_arrive (hlinked : Linked world) (index : Nat) (accepted : Bool)
    (key : String × String)
    (hallowed : NoOverwrite world (.arrive index accepted)) :
    Outbox.Step (view world key)
      (view (stepWorld world (.arrive index accepted)) key) := by
  simp only [stepWorld]
  split
  · next claimed hclaimed =>
      cases accepted with
      | true => exact step_accepted hlinked hclaimed hallowed key
      | false =>
          exact .of_eq rfl rfl
            (Lanes.copies_subset fun _ h => Lanes.held_answer h)
            (Lanes.acked_answer_other fun heq => Bool.noConfusion heq) rfl
  · exact .of_eq rfl rfl subset_rfl subset_rfl rfl

/-- Every action moves every receipt by steps of an outbox. -/
theorem steps_action (hlinked : Linked world) (action : Action)
    (hallowed : NoOverwrite world action) (key : String × String) :
    ReflTransGen Outbox.Step (view world key)
      (view (stepWorld world action) key) := by
  cases action with
  | enqueue tenantId item enterpriseId now =>
      simp only [stepWorld]
      split
      · next rows hrows => exact .single (step_enqueue hallowed hrows key)
      · exact .refl
  | assign tenantId enterpriseId => exact .single (step_assign _ _ _ _)
  | claim tenantId limit locked now =>
      exact .single (step_claim hlinked tenantId limit locked now key)
  | arrive index accepted =>
      exact .single (step_arrive hlinked index accepted key hallowed)
  | answer index now =>
      simp only [stepWorld]
      split
      · next worker claimed accepted hwaiting hclaimed =>
          obtain ⟨hworker, hindex⟩ := Lanes.waiting_mem hwaiting
          obtain ⟨phase, hheld⟩ := hlinked.lanes.waits worker hworker
          rw [hindex, hclaimed] at hheld
          cases hheld
          refine steps_resume hlinked hworker accepted now index key ?_
          rintro rfl
          exact List.mem_of_getElem? hclaimed
      · exact .refl
  | giveUp index now =>
      simp only [stepWorld]
      split
      · next worker hwaiting =>
          exact steps_resume hlinked (Lanes.waiting_mem hwaiting).1 false now
            index key fun h => by cases h
      · exact .refl
  | restart =>
      exact .single (.of_eq rfl rfl
        (Lanes.copies_subset fun _ h => Lanes.held_crash h) subset_rfl rfl)

/-! ### No lost update -/

def InFlight (world : World) (row : DeliveryRow) : Prop :=
  ∃ request ∈ world.lanes.wire, request.phase = .travelling ∧
    request.row.key = row.key

/-- The rollup of an enterprise is the sum over its stored summaries. -/
def RollupIsSum (operator : Operator) (enterpriseId : String) : Prop :=
  ∃ rollup ∈ lookup EnterpriseRollup.enterpriseId enterpriseId
      operator.rollups,
    let rows := operator.seen.filter fun row =>
      decide (row.enterpriseId = enterpriseId)
    rollup.runCount = (rows.map (·.runCount)).sum ∧
    rollup.tokenTotal = (rows.map (·.tokenTotal)).sum ∧
    rollup.costTotal = sumDecimals (rows.filterMap knownCost) ∧
    rollup.errorCount = (rows.map (·.errorCount)).sum ∧
    rollup.durationSecondsTotal = (rows.map (·.durationSecondsTotal)).sum ∧
    rollup.summaryCount = rows.length

/-- Every sent receipt with no upload in flight is what the Operator has
stored, and counts in the rollup of its enterprise. -/
def NoLostUpdate (world : World) : Prop :=
  ∀ row ∈ world.rows, row.status = .sent → ¬ InFlight world row →
    ∃ enterpriseId ∈ row.enterpriseId,
      lookup SeenRow.key (enterpriseId, row.summaryId) world.operator.seen =
        some (seenRow enterpriseId row.payload) ∧
      RollupIsSum world.operator enterpriseId

theorem rollupIsSum_of_ok {operator : Operator} (hok : RollupsOk operator)
    {enterpriseId summaryId : String} {row : SeenRow}
    (hrow : lookup SeenRow.key (enterpriseId, summaryId) operator.seen =
      some row) : RollupIsSum operator enterpriseId := by
  cases hrollup : lookup EnterpriseRollup.enterpriseId enterpriseId
      operator.rollups with
  | none =>
      have hmem : row ∈ ofEnterprise enterpriseId operator.seen := by
        have henterprise : row.enterpriseId = enterpriseId :=
          congrArg Prod.fst (lookup_key hrow)
        simp [ofEnterprise, lookup_mem hrow, henterprise]
      rw [hok.none hrollup] at hmem
      cases hmem
  | some rollup =>
      have hrecomputed := hok.some hrollup
      refine ⟨rollup, hrollup, ?_⟩
      rw [hrecomputed]
      exact ⟨rfl, rfl, rfl, rfl, rfl, rfl⟩

theorem noLostUpdate_of_good (hlinked : Linked world)
    (hgood : ∀ key, Outbox.Good (view world key)) : NoLostUpdate world := by
  intro row hrow hsent _
  have hold : receipt world row.key = some row :=
    hlinked.rows.keyed row hrow
  have happlied := (hgood row.key).sent (by
    simp [view, hold, rowStatus, hsent])
  simp only [view, hold, Option.bind_some] at happlied
  obtain ⟨stored, hstored, heq⟩ := Option.map_eq_some_iff.mp happlied
  obtain ⟨enterpriseId, henterprise, hseen⟩ :=
    Option.map_eq_some_iff.mp heq.symm
  rw [storedFor, henterprise, Option.bind_some, ← hseen] at hstored
  exact ⟨enterpriseId, henterprise, hstored,
    rollupIsSum_of_ok hlinked.rollups hstored⟩

theorem sent_receipt_is_stored (actions : List Action)
    (hrun : machine.Admissible NoOverwrite World.empty actions) :
    NoLostUpdate (machine.run World.empty actions) := by
  have hinit : Linked World.empty ∧
      ∀ key, Outbox.Good (view World.empty key) :=
    ⟨linked_empty, fun _ => Outbox.Good.of_idle rfl⟩
  have hfinal := machine.stateInvariant
    (fun world => Linked world ∧ ∀ key, Outbox.Good (view world key))
    (fun world action h hallowed => ⟨linked_step h.1 action, fun key =>
      (h.2 key).of_steps (steps_action h.1 action hallowed key)⟩)
    actions hinit hrun
  exact noLostUpdate_of_good hfinal.1 hfinal.2

instance (world : World) (action : Action) :
    Decidable (NoOverwrite world action) := by
  unfold NoOverwrite
  split <;> infer_instance

instance (operator : Operator) (enterpriseId : String) :
    Decidable (RollupIsSum operator enterpriseId) := by
  unfold RollupIsSum
  infer_instance

instance (world : World) : Decidable (NoLostUpdate world) := by
  unfold NoLostUpdate InFlight
  infer_instance

namespace DeliveredWitness

def item (runCount : Nat) : UsageItem where
  summaryId := "s"
  employeeId := some "employee"
  memberId := some "member"
  windowStart := 0
  windowEnd := 3600000
  runCount := runCount
  tokenTotal := 100 * runCount
  costTotal := some ⟨15 * runCount, 1⟩
  pricingVersion := some 1
  pricingStatus := .known
  errorCount := 0
  durationSecondsTotal := runCount

/-- The first upload outlives its call; the receipt is enqueued again with a
new payload, claimed by another worker and delivered. -/
def requeuedRun : List Action :=
  [.enqueue "t" (item 1) (some "e") 0, .claim "t" 8 [] 0,
    .enqueue "t" (item 2) (some "e") 1000, .giveUp 0 2000,
    .claim "t" 8 [] 2000, .arrive 1 true, .answer 1 3000]

end DeliveredWitness

open DeliveredWitness in
theorem sent_receipt_is_stored_requeuedRun :
    (∃ row ∈ (machine.run World.empty requeuedRun).rows,
      row.status = .sent) ∧
    NoLostUpdate (machine.run World.empty requeuedRun) :=
  ⟨by decide, sent_receipt_is_stored requeuedRun (by decide)⟩

open DeliveredWitness in
/-- The upload of the first worker arrives last: the receipt stays sent, and
the Operator is back at the first payload. -/
theorem late_upload_overwrites_sent_receipt :
    ¬ ∀ actions : List Action,
      NoLostUpdate (machine.run World.empty actions) := by
  intro h
  have hlate := h (requeuedRun ++ [.arrive 0 true])
  revert hlate
  decide

end AiTeam.Delivery
