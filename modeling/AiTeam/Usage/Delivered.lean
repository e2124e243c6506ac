/-
No usage update is lost between Agent and Manager.  Every key of the world is
an outbox in the sense of `AiTeam.Outbox`: each action moves the view of a key
by the steps allowed there, provided no outdated upload arrives at a Manager
that already has the current payload.
-/
import AiTeam.Usage.Linked

namespace AiTeam.Usage

open Courier (Lanes Thread)
open Relation (ReflTransGen)

/-! ### The view of one key -/

def rowStatus (row : OutboxRow) : Outbox.Status Nat :=
  match row.status, row.claimToken with
  | .sending, some token => .sending token
  | .sent, _ => .sent
  | _, _ => .idle

def Payload.rollup (tenantId : String) : Payload → Option UsageRollup
  | .usage summary => some (usageRollup tenantId summary)
  | .segmentOutcome _ => none

def usageRow (world : World) (id : String) : Option OutboxRow :=
  lookup OutboxRow.key (.usage, id) world.outbox

/-- What the Manager stores for the key of a row. -/
def storedFor (world : World) (row : OutboxRow) : Option UsageRollup :=
  lookup UsageRollup.key (row.tenantId, row.summaryId) world.rollups

/-- An upload as a copy of the usage row `id`. -/
def copyOf (id : String) (upload : Upload) :
    Option (Outbox.Copy (Option UsageRollup) Nat) :=
  if upload.row.key = (.usage, id) then
    some ⟨upload.row.claimToken,
      upload.row.payload.rollup upload.row.tenantId⟩
  else none

variable {upload : Upload} {world : World} {rollups : List UsageRollup}

theorem copyOf_eq_some {id : String}
    {copy : Outbox.Copy (Option UsageRollup) Nat}
    (h : copyOf id upload = some copy) :
    upload.row.key = (.usage, id) ∧ copy = ⟨upload.row.claimToken,
      upload.row.payload.rollup upload.row.tenantId⟩ := by
  rw [copyOf] at h
  split at h
  · next hkey => exact ⟨hkey, (Option.some.inj h).symm⟩
  · exact nomatch h

def view (world : World) (id : String) :
    Outbox.State (Option UsageRollup) Nat where
  payload := (usageRow world id).bind fun row =>
    row.payload.rollup row.tenantId
  status := ((usageRow world id).map rowStatus).getD .idle
  copies := Lanes.copies (copyOf id) world.lanes
  acked := Lanes.acked (copyOf id) none world.lanes
  applied := (usageRow world id).bind fun row =>
    (storedFor world row).map some

/-- A statement that changes the row of a key in place: it leaves the row
idle, or keeps everything the view shows. -/
theorem step_of_map {outbox : List OutboxRow} {id : String}
    (change : OutboxRow → OutboxRow)
    (hrow : lookup OutboxRow.key (.usage, id) outbox =
      (usageRow world id).map change)
    (hchange : ∀ row, usageRow world id = some row →
      rowStatus (change row) = .idle ∨
        (rowStatus (change row) = rowStatus row ∧
          (change row).payload = row.payload ∧
          (change row).tenantId = row.tenantId ∧
          (change row).summaryId = row.summaryId)) :
    Outbox.Step (view world id) (view { world with outbox } id) := by
  have hrow' : usageRow { world with outbox } id =
      (usageRow world id).map change := hrow
  cases hold : usageRow world id with
  | none =>
      rw [hold] at hrow'
      exact .reset (by simp [view, hrow'])
  | some row =>
      rw [hold] at hrow'
      rcases hchange row hold with hidle |
        ⟨hstatus, hpayload, htenant, hid⟩
      · exact .reset (by simp [view, hrow', hidle])
      · refine .of_eq ?_ ?_ subset_rfl subset_rfl ?_
        · simp [view, hrow', hold, hpayload, htenant]
        · simp [view, hrow', hold, hstatus]
        · simp [view, hrow', hold, storedFor, htenant, hid]

/-- Only the couriers changed, and no copy of this key was added. -/
theorem step_of_lanes {lanes : Lanes Upload (Option UploadError) Bool}
    (id : String)
    (hheld : ∀ upload, lanes.Held upload → world.lanes.Held upload)
    (hanswered : ∀ upload, lanes.Answered upload none →
      world.lanes.Answered upload none) :
    Outbox.Step (view world id) (view { world with lanes } id) :=
  .of_eq rfl rfl (Lanes.copies_subset hheld) (Lanes.acked_subset hanswered)
    rfl

/-! ### Settling claims -/

theorem rowStatus_settleRow {status : OutboxStatus} (attempts : Nat → Nat)
    (row : OutboxRow) (hsent : status ≠ .sent) :
    rowStatus (settleRow status attempts row) = .idle := by
  cases status <;> first | rfl | exact absurd rfl hsent

/-- Failing, rejecting or releasing a claim. -/
theorem step_settleClaim (world : World) (id : String)
    {status : OutboxStatus} (attempts : Nat → Nat) (claimed : ClaimedRow)
    (hsent : status ≠ .sent) :
    Outbox.Step (view world id) (view { world with
      outbox := settleClaim status attempts world.outbox claimed } id) := by
  refine step_of_map _ (lookup_settleClaim status attempts _ _ _) ?_
  intro row _
  split
  · exact .inl (rowStatus_settleRow attempts row hsent)
  · exact .inr ⟨rfl, rfl, rfl, rfl⟩

/-- A claim is marked sent only under a token whose upload was accepted. -/
theorem step_markUsageSent (world : World) (id : String)
    (claimed : ClaimedRow) (hacked : claimed.key = (.usage, id) →
      claimed.claimToken ∈ (view world id).acked) :
    Outbox.Step (view world id) (view { world with
      outbox := markUsageSent world.outbox claimed } id) := by
  have hrow : usageRow { world with
      outbox := markUsageSent world.outbox claimed } id =
        (usageRow world id).map fun row =>
          if holdsClaim claimed row then
            settleRow .sent (fun attempts => attempts) row
          else row :=
    lookup_settleClaim .sent (fun attempts => attempts) world.outbox claimed
      (.usage, id)
  cases hold : usageRow world id with
  | none =>
      rw [hold] at hrow
      exact .reset (by simp [view, hrow])
  | some row =>
      rw [hold] at hrow
      by_cases hholds : holdsClaim claimed row
      · simp only [Option.map_some, hholds, if_true] at hrow
        simp only [holdsClaim, Bool.and_eq_true, decide_eq_true_eq] at hholds
        obtain ⟨⟨hkey, hstatus⟩, htoken⟩ := hholds
        have hid : claimed.key = (.usage, id) :=
          hkey.symm.trans (lookup_key hold)
        refine .settle claimed.claimToken ?_ (hacked hid) ?_ ?_
        · simp [view, hold, rowStatus, hstatus, htoken]
        · simp [view, hrow, rowStatus, settleRow]
        · intro happlied
          simpa [view, hrow, hold, settleRow, storedFor] using happlied
      · simp only [Option.map_some, hholds, if_neg, Bool.false_eq_true,
          not_false_eq_true] at hrow
        refine .of_eq ?_ ?_ subset_rfl subset_rfl ?_
        · simp [view, hrow, hold]
        · simp [view, hrow, hold]
        · simp [view, hrow, hold, storedFor]

/-- Settling an outcome row leaves usage rows alone. -/
theorem usageRow_settleClaim_outcome (world : World) (id : String)
    (status : OutboxStatus) (attempts : Nat → Nat) {claimed : ClaimedRow}
    (hkind : claimed.payload.kind = .segmentOutcome) :
    usageRow { world with
      outbox := settleClaim status attempts world.outbox claimed } id =
        usageRow world id := by
  rw [usageRow, lookup_settleClaim]
  cases hold : lookup OutboxRow.key (.usage, id) world.outbox with
  | none => exact hold.symm
  | some row =>
      have hkey := lookup_key hold
      have hholds : holdsClaim claimed row = false := by
        simp [holdsClaim, hkey, ClaimedRow.key, hkind]
      simp [hholds, usageRow, hold]

/-! ### Flushes -/

/-- Advancing a flush only moves its uploads from the thread to the wire. -/
structure Advanced (world : World) (uploads : List Upload) (world' : World) :
    Prop where
  usageRow : ∀ id, usageRow world' id = usageRow world id
  rollups : world'.rollups = world.rollups
  held : ∀ upload, world'.lanes.Held upload →
    world.lanes.Held upload ∨ upload ∈ uploads
  answered : ∀ upload, world'.lanes.Answered upload none →
    world.lanes.Answered upload none

theorem advance_advanced (unsupported : Bool) (uploads : List Upload)
    (world : World) :
    Advanced world uploads (advance unsupported uploads world) := by
  induction uploads generalizing world with
  | nil => exact ⟨fun _ => rfl, rfl, fun _ h => .inl h, fun _ h => h⟩
  | cons upload rest ih =>
      rw [advance]
      split
      · next hskip =>
          have hrest := ih { world with
            outbox := releaseUsageClaim world.outbox upload.row }
          refine ⟨fun id => ?_, hrest.rollups, fun other h => ?_,
            hrest.answered⟩
          · rw [hrest.usageRow id]
            exact usageRow_settleClaim_outcome world id _ _ hskip.1
          · exact (hrest.held other h).imp_right (List.mem_cons_of_mem upload)
      · exact ⟨fun _ => rfl, rfl, fun _ h => Lanes.held_start h,
          fun _ h => Lanes.answered_start h⟩

/-- Going on with a flush is no step of any key. -/
theorem step_advance {flush : Thread Upload Bool}
    (hflush : flush ∈ world.lanes.threads) (index : Nat) (unsupported : Bool)
    (id : String) :
    Outbox.Step (view world id) (view (advance unsupported flush.rest
      { world with lanes := world.lanes.leave index }) id) := by
  have h := advance_advanced unsupported flush.rest
    { world with lanes := world.lanes.leave index }
  have hrow : usageRow (advance unsupported flush.rest
      { world with lanes := world.lanes.leave index }) id =
        usageRow world id := h.usageRow id
  refine .of_eq ?_ ?_ (Lanes.copies_subset fun upload hheld => ?_)
    (Lanes.acked_subset h.answered) ?_
  · simp only [view, hrow]
  · simp only [view, hrow]
  · rcases h.held upload hheld with hleft | hrest
    · exact Lanes.held_leave hleft
    · exact .inl ⟨flush, hflush, hrest⟩
  · simp only [view, hrow, storedFor, h.rollups]

/-- Once access was denied, the claims left are failed or released. -/
theorem steps_abandon (unsupported : Bool) (uploads : List Upload)
    (world : World) (id : String) :
    ReflTransGen Outbox.Step (view world id)
      (view (abandon unsupported uploads world) id) := by
  induction uploads generalizing world with
  | nil => exact .refl
  | cons upload rest ih =>
      rw [abandon]
      refine ReflTransGen.head ?_ (ih _)
      split
      · exact step_settleClaim world id _ upload.row (by decide)
      · exact step_settleClaim world id _ upload.row (by decide)

/-- A flush goes on after its upload resolved or threw. -/
theorem steps_resume {flush : Thread Upload Bool}
    (hflush : flush ∈ world.lanes.threads) (reply : Option UploadError)
    (index : Nat) (id : String)
    (hacked : reply = none → world.lanes.Answered flush.row none) :
    ReflTransGen Outbox.Step (view world id) (view (resume flush reply
      { world with lanes := world.lanes.leave index }) id) := by
  have hgoOn : ∀ (unsupported : Bool) (outbox : List OutboxRow),
      Outbox.Step (view world id) (view { world with outbox } id) →
      ReflTransGen Outbox.Step (view world id) (view (advance unsupported
        flush.rest { world with
          outbox, lanes := world.lanes.leave index }) id) := by
    intro unsupported outbox hmark
    have hmem : flush ∈ ({ world with outbox } : World).lanes.threads :=
      hflush
    exact (ReflTransGen.single hmark).tail
      (step_advance hmem index unsupported id)
  cases reply with
  | none =>
      refine hgoOn _ _ (step_markUsageSent world id _ fun hkey => ?_)
      exact ⟨flush.row, _, hacked rfl, if_pos hkey, rfl⟩
  | some error =>
      simp only [resume]
      split_ifs
      · exact hgoOn _ _ (step_settleClaim world id _ _ (by decide))
      · exact hgoOn _ _ (step_settleClaim world id _ _ (by decide))
      · have hmark := step_settleClaim world id (fun attempts => attempts)
          flush.row.row (by decide : OutboxStatus.failed ≠ .sent)
        refine ((ReflTransGen.single hmark).tail ?_).trans
          (steps_abandon _ _ _ id)
        exact step_of_lanes id (fun _ h => Lanes.held_leave h) fun _ h => h
      · exact hgoOn _ _ (step_settleClaim world id _ _ (by decide))

/-- An accumulated run resets the row of its summary. -/
theorem step_accumulate (config : Config) (world : World)
    (summary : UsageSummary) (preciseCost : Option String) (now : Int)
    (id : String) :
    Outbox.Step (view world id) (view { world with
      outbox := upsertUsageSummary config world.outbox summary preciseCost
        now } id) := by
  rw [upsertUsageSummary]
  split
  · next hnone =>
      by_cases hid : summary.summaryId = id
      · refine .reset ?_
        have hnew : lookup OutboxRow.key (.usage, id) world.outbox = none :=
          hid ▸ hnone
        simp [view, usageRow, lookup_append, hnew, OutboxRow.key,
          Payload.kind, hid, rowStatus]
      · refine step_of_map (fun row => row) ?_ fun _ _ =>
          .inr ⟨rfl, rfl, rfl, rfl⟩
        simp [lookup_append, OutboxRow.key, Payload.kind, hid, usageRow]
  · refine step_of_map _ (lookup_updateWhere OutboxRow.key _ _ _
      (accumulateRow_key config _ _) _) ?_
    intro row hrow
    split
    · left
      have hkind : row.payload.kind = .usage :=
        congrArg Prod.fst (lookup_key hrow)
      cases hpayload : row.payload with
      | usage old => simp [accumulateRow, hpayload, rowStatus]
      | segmentOutcome old => simp [hpayload, Payload.kind] at hkind
    · exact .inr ⟨rfl, rfl, rfl, rfl⟩

theorem step_publish (world : World) (summary : SegmentOutcomeSummary)
    (now : Int) (id : String) :
    Outbox.Step (view world id) (view { world with
      outbox := publishSegmentOutcome world.outbox summary now } id) := by
  refine step_of_map (fun row => row) ?_ fun _ _ =>
    .inr ⟨rfl, rfl, rfl, rfl⟩
  rw [Option.map_id', publishSegmentOutcome]
  split
  · rw [lookup_updateWhere OutboxRow.key _ _ _ (replaceOutcome_key summary)]
    cases hold : lookup OutboxRow.key (.usage, id) world.outbox with
    | none => exact hold.symm
    | some row =>
        have hkey := lookup_key hold
        simp [hkey, usageRow, hold]
  · split
    · rfl
    · simp [lookup_append, OutboxRow.key, Payload.kind, usageRow]

theorem steps_restart (world : World) (id : String) :
    ReflTransGen Outbox.Step (view world id) (view { world with
      outbox := recoverOutbox world.outbox, lanes := world.lanes.crash }
      id) := by
  have hthreads : Outbox.Step (view world id)
      (view { world with lanes := world.lanes.crash } id) :=
    step_of_lanes id (fun _ h => Lanes.held_crash h) fun _ h => h
  have hmember : ∀ world : World, Outbox.Step (view world id)
      (view { world with
        outbox := updateWhere (fun row => row.memberId = "") fillMember
          world.outbox } id) := by
    intro world
    refine step_of_map _ (lookup_updateWhere OutboxRow.key _ _ fillMember
      (fun _ => rfl) _) fun row _ => .inr ?_
    split
    · exact ⟨rfl, rfl, rfl, rfl⟩
    · exact ⟨rfl, rfl, rfl, rfl⟩
  have hunfinished : ∀ world : World, Outbox.Step (view world id)
      (view { world with
        outbox := updateWhere (fun row => row.status = .sending)
          failUnfinished world.outbox } id) := by
    intro world
    refine step_of_map _ (lookup_updateWhere OutboxRow.key _ _ failUnfinished
      (fun _ => rfl) _) fun row _ => ?_
    split
    · exact .inl rfl
    · exact .inr ⟨rfl, rfl, rfl, rfl⟩
  exact ((ReflTransGen.single hthreads).tail (hmember _)).tail
    (hunfinished _)

/-- Every copy a claim hands out for a key is one of its row as it is. -/
theorem copies_of_claim {world' claimedWorld : World} (hlinked : Linked world)
    {caller : Caller} {limit : Int} {outcomes : Bool}
    (hadvanced : Advanced claimedWorld ((claimUsageOutbox world.outbox
      caller.tenantId caller.memberId limit outcomes world.draws).2.map
        fun row => ⟨caller, row⟩) world')
    (hlanes : claimedWorld.lanes = world.lanes) (id : String) :
    ∀ copy ∈ (view world' id).copies, copy ∈ (view world id).copies ∨
      ∃ row ∈ selectClaimable world.outbox caller.tenantId caller.memberId
        limit outcomes, usageRow world id = some row ∧
        copy = ⟨world.draws, row.payload.rollup row.tenantId⟩ := by
  rintro copy ⟨upload, hheld, hcopy⟩
  rcases hadvanced.held upload hheld with hold | hnew
  · rw [hlanes] at hold
    exact .inl ⟨upload, hold, hcopy⟩
  · obtain ⟨claimed, hclaimed, rfl⟩ := List.mem_map.mp hnew
    obtain ⟨row, hselected, rfl⟩ := List.mem_map.mp hclaimed
    obtain ⟨hkey, rfl⟩ := copyOf_eq_some hcopy
    have hself := hlinked.keyed row (selectClaimable_mem hselected).1
    have hrowKey : row.key = (.usage, id) := hkey
    rw [hrowKey] at hself
    exact .inr ⟨row, hselected, hself, rfl⟩

/-- A flush claims the row of a key, or leaves it alone. -/
theorem step_flush (hlinked : Linked world) (config : Config) (caller : Caller)
    (limit : Int) (outcomes : Bool) (id : String) :
    Outbox.Step (view world id)
      (view (stepWorld config world (.flush caller limit outcomes)) id) := by
  have hadvanced := advance_advanced false
    ((claimUsageOutbox world.outbox caller.tenantId caller.memberId limit
      outcomes world.draws).2.map fun row => ⟨caller, row⟩)
    { world with
      outbox := (claimUsageOutbox world.outbox caller.tenantId
        caller.memberId limit outcomes world.draws).1
      draws := world.draws + 1 }
  change Outbox.Step (view world id) (view (advance false _ _) id)
  generalize advance false ((claimUsageOutbox world.outbox caller.tenantId
    caller.memberId limit outcomes world.draws).2.map _) _ = world'
    at hadvanced ⊢
  have hrow := (hadvanced.usageRow id).trans (lookup_claim world.outbox
    caller.tenantId caller.memberId limit outcomes world.draws (.usage, id))
  have hacked : (view world' id).acked ⊆ (view world id).acked :=
    Lanes.acked_subset hadvanced.answered
  have hcopies := copies_of_claim hlinked hadvanced rfl id
  cases hold : usageRow world id with
  | none =>
      rw [show lookup OutboxRow.key (.usage, id) world.outbox = none
        from hold] at hrow
      exact .reset (by simp [view, hrow])
  | some row =>
      have hmem : row ∈ world.outbox := lookup_mem hold
      rw [show lookup OutboxRow.key (.usage, id) world.outbox = some row
        from hold, Option.map_some] at hrow
      by_cases hselected : row ∈ selectClaimable world.outbox caller.tenantId
          caller.memberId limit outcomes
      · have hstatus := claimable_status (selectClaimable_mem hselected).2
        have hkey : row.key ∈ (selectClaimable world.outbox caller.tenantId
            caller.memberId limit outcomes).map OutboxRow.key :=
          List.mem_map_of_mem hselected
        simp only [hkey, hstatus, decide_true, Bool.and_self, if_true]
          at hrow
        refine .claim world.draws ?_ ?_ ?_ ?_ ?_ hacked
        · rintro copy ⟨upload, hheld, hcopy⟩
          obtain ⟨_, rfl⟩ := copyOf_eq_some hcopy
          exact (hlinked.lanes.held hheld).token.ne
        · rintro ⟨upload, copy, hanswered, hcopy, htoken⟩
          obtain ⟨_, rfl⟩ := copyOf_eq_some hcopy
          exact absurd htoken (hlinked.lanes.answered hanswered).token.ne
        · simp [view, hrow, hold, claimRow]
        · simp [view, hrow, claimRow, rowStatus]
        · intro copy hcopy
          rcases hcopies copy hcopy with h | ⟨_, _, hsome, rfl⟩
          · exact .inr h
          · cases hold.symm.trans hsome
            left
            simp [view, hold]
      · have hkey : row.key ∉ (selectClaimable world.outbox caller.tenantId
            caller.memberId limit outcomes).map OutboxRow.key := by
          intro h
          obtain ⟨other, hother, hsame⟩ := List.mem_map.mp h
          have heq := hlinked.keyed.eq_of_key (selectClaimable_mem hother).1
            hmem hsame
          exact hselected (heq ▸ hother)
        simp only [hkey, decide_false, Bool.false_and, Bool.false_eq_true,
          if_false] at hrow
        refine .of_eq ?_ ?_ ?_ hacked ?_
        · simp [view, hrow, hold]
        · simp [view, hrow, hold]
        · intro copy hcopy
          rcases hcopies copy hcopy with h | ⟨_, hother, hsome, _⟩
          · exact h
          · cases hold.symm.trans hsome
            exact absurd hother hselected
        · simp [view, hrow, hold, storedFor, hadvanced.rollups]

/-! ### Arrivals -/

/-- An accepted upload of an attributed summary is stored as it is, and
changes no other row. -/
theorem upsertUsage_ok {rollups' : List UsageRollup} {row : UsageRollup}
    (h : upsertUsage rollups row = .ok rollups')
    (hemployee : row.employeeId ≠ none) (hmember : row.memberId ≠ none) :
    lookup UsageRollup.key row.key rollups' = some row ∧
      ∀ key, key ≠ row.key → lookup UsageRollup.key key rollups' =
        lookup UsageRollup.key key rollups := by
  rw [upsertUsage] at h
  split at h
  · next hnone =>
      cases h
      constructor
      · simp [lookup_append, hnone]
      · intro key hkey
        simp [lookup_append, Ne.symm hkey]
  · next stored hstored =>
      split at h
      · cases h
        have hlookup : ∀ key, lookup UsageRollup.key key (updateWhere
            (fun old => decide (old.key = row.key))
            (fun old => { row with
              employeeId := row.employeeId.or old.employeeId
              memberId := row.memberId.or old.memberId }) rollups) =
            (lookup UsageRollup.key key rollups).map fun old =>
              if old.key = row.key then row else old := by
          intro key
          rw [lookup_updateWhere_of_guard UsageRollup.key key _ _
            fun old hold => (of_decide_eq_true hold).symm]
          congr 1
          funext old
          obtain ⟨employee, hemployee⟩ := Option.ne_none_iff_exists'.mp
            hemployee
          obtain ⟨member, hmember⟩ := Option.ne_none_iff_exists'.mp hmember
          cases row
          simp_all
        constructor
        · rw [hlookup, hstored, Option.map_some, if_pos (lookup_key hstored)]
        · intro key hkey
          rw [hlookup]
          cases hold : lookup UsageRollup.key key rollups with
          | none => rfl
          | some old =>
              have holdKey := lookup_key hold
              rw [Option.map_some, if_neg fun h => hkey (holdKey.symm.trans h)]
      · cases h

theorem nonEmpty_ne_none {text : String} (h : text ≠ "") :
    nonEmpty text ≠ none := by
  simp [nonEmpty, h]

theorem ingestUpload_ok {rollups' : List UsageRollup} {ctx : Caller}
    {granted : Bool} {item : UsageSummary}
    (h : ingestUpload rollups ctx granted item = .ok rollups') :
    granted = true ∧ item.employeeId ≠ "" ∧
      upsertUsage rollups (usageRollup ctx.tenantId item) = .ok rollups' := by
  simp only [ingestUpload] at h
  split_ifs at h with _ _ hemployee hgranted
  exact ⟨Bool.eq_true_of_not_eq_false hgranted, hemployee, h⟩

/-- An outdated upload does not reach a Manager that already has the current
payload of its row. -/
def NoOverwrite (world : World) : Action → Prop
  | .arrive index none true =>
      ∀ request ∈ world.lanes.wire[index]?, request.phase = .travelling →
        ∀ row ∈ world.outbox, row.key = request.row.row.key →
        storedFor world row = row.payload.rollup row.tenantId →
        request.row.row.payload.rollup row.tenantId =
          row.payload.rollup row.tenantId
  | _ => True

/-- The Manager stores an accepted summary; otherwise it stores nothing, and
then accepts outcomes only. -/
theorem deliver_cases (upload : Upload) (verdict : Option UploadError)
    (granted : Bool) (rollups : List UsageRollup) :
    (∃ item stored, verdict = none ∧ upload.row.payload = .usage item ∧
      ingestUpload rollups upload.caller granted item = .ok stored ∧
      deliver upload verdict granted rollups = (stored, none)) ∨
    ∃ reply, deliver upload verdict granted rollups = (rollups, reply) ∧
      (reply = none → upload.row.payload.kind = .segmentOutcome) := by
  cases verdict with
  | some error => exact .inr ⟨some error, rfl, fun h => nomatch h⟩
  | none =>
      cases hpayload : upload.row.payload with
      | segmentOutcome summary =>
          exact .inr ⟨none, by simp [deliver, hpayload], fun _ => rfl⟩
      | usage item =>
          cases hingest : ingestUpload rollups upload.caller granted item with
          | ok stored =>
              exact .inl ⟨item, stored, rfl, rfl, hingest, by
                simp [deliver, hpayload, hingest]⟩
          | error error =>
              exact .inr ⟨some error, by simp [deliver, hpayload, hingest],
                fun h => nomatch h⟩

/-- An accepted upload of this key. -/
theorem step_accepted (hlinked : Linked world) {index : Nat}
    {item : UsageSummary} {stored : List UsageRollup}
    (hupload : world.lanes.wire[index]? = some ⟨upload, .travelling⟩)
    (hpayload : upload.row.payload = .usage item)
    (hlookup : lookup UsageRollup.key (upload.caller.tenantId,
      item.summaryId) stored =
        some (usageRollup upload.caller.tenantId item))
    (hallowed : NoOverwrite world (.arrive index none true)) :
    Outbox.Step (view world upload.row.summaryId) (view { world with
      rollups := stored, lanes := world.lanes.answer index upload none }
      upload.row.summaryId) := by
  have hmem := List.mem_of_getElem? hupload
  obtain ⟨_, htenant, hsummary, row, hrow, hrowTenant⟩ :=
    hlinked.lanes.wire _ hmem
  have hkey : upload.row.key = (.usage, upload.row.summaryId) := by
    simp [ClaimedRow.key, hpayload, Payload.kind]
  have hold : usageRow world upload.row.summaryId = some row := by
    rw [usageRow, ← hkey]
    exact hrow
  have hid : row.summaryId = upload.row.summaryId :=
    congrArg Prod.snd (lookup_key hold)
  dsimp only at htenant hsummary hrowTenant
  rw [(hsummary item hpayload).1, ← htenant, ← hrowTenant] at hlookup
  have happlied : (view { world with
      rollups := stored, lanes := world.lanes.answer index upload none }
      upload.row.summaryId).applied =
        some (upload.row.payload.rollup row.tenantId) := by
    have hrow' : usageRow { world with
        rollups := stored, lanes := world.lanes.answer index upload none }
        upload.row.summaryId = some row := hold
    simp only [view, hrow', Option.bind_some, storedFor, hid, hlookup,
      hpayload, Payload.rollup, Option.map_some]
  refine .arrive ⟨upload.row.claimToken, upload.row.payload.rollup
    upload.row.tenantId⟩ ⟨upload, .inr hmem, if_pos hkey⟩ rfl rfl
    (Lanes.copies_subset fun _ h => Lanes.held_answer h) ?_ ?_ ?_
  · exact Lanes.acked_answer (if_pos hkey)
  · intro hcurrent
    rw [happlied, hrowTenant]
    exact congrArg some hcurrent
  · intro hcurrent
    rw [happlied]
    simp only [view, hold, Option.bind_some] at hcurrent
    obtain ⟨current, hcurrent, heq⟩ := Option.map_eq_some_iff.mp hcurrent
    rw [hallowed _ hupload rfl row (lookup_mem hold) (lookup_key hrow)
      (by rw [hcurrent, heq])]
    have hrow' : usageRow { world with
        rollups := stored, lanes := world.lanes.answer index upload none }
        upload.row.summaryId = some row := hold
    simp only [view, hrow', Option.bind_some]

/-- An arrival that neither stores into the Manager's row of this key nor
acknowledges an upload of it. -/
theorem step_unrelated {index : Nat} {reply : Option UploadError} {id : String}
    (hrollups : ∀ tenantId, lookup UsageRollup.key (tenantId, id) rollups =
      lookup UsageRollup.key (tenantId, id) world.rollups)
    (hreply : reply = none → upload.row.key ≠ (.usage, id)) :
    Outbox.Step (view world id) (view { world with
      rollups, lanes := world.lanes.answer index upload reply } id) := by
  refine .of_eq rfl rfl
    (Lanes.copies_subset fun _ h => Lanes.held_answer h) ?_ ?_
  · exact Lanes.acked_answer_other fun hnone => if_neg (hreply hnone.symm)
  · change (usageRow world id).bind _ = (usageRow world id).bind _
    cases hold : usageRow world id with
    | none => rfl
    | some row =>
        have hid : row.summaryId = id := congrArg Prod.snd (lookup_key hold)
        simp only [Option.bind_some, storedFor, hid, hrollups]

theorem step_arrive (hlinked : Linked world) (config : Config) (index : Nat)
    (verdict : Option UploadError) (granted : Bool) (id : String)
    (hallowed : NoOverwrite world (.arrive index verdict granted)) :
    Outbox.Step (view world id) (view (stepWorld config world
      (.arrive index verdict granted)) id) := by
  simp only [stepWorld]
  split
  · next upload hupload =>
      have hclaim := hlinked.lanes.wire _ (List.mem_of_getElem? hupload)
      rcases deliver_cases upload verdict granted world.rollups with
        ⟨item, stored, rfl, hpayload, hingest, hdeliver⟩ |
        ⟨reply, hdeliver, hreply⟩
      · obtain ⟨rfl, hemployee, hupsert⟩ := ingestUpload_ok hingest
        obtain ⟨hsummaryId, hmember⟩ := hclaim.summary item hpayload
        obtain ⟨hself, hothers⟩ := upsertUsage_ok hupsert
          (nonEmpty_ne_none hemployee) (nonEmpty_ne_none hmember)
        simp only [hdeliver]
        by_cases hid : upload.row.summaryId = id
        · subst hid
          exact step_accepted hlinked hupload hpayload hself hallowed
        · refine step_unrelated (fun tenantId => hothers _ ?_) ?_
          · intro h
            exact hid (hsummaryId.symm.trans (congrArg Prod.snd h).symm)
          · exact fun _ h => hid (congrArg Prod.snd h)
      · simp only [hdeliver]
        refine step_unrelated (fun _ => rfl) fun hnone h => ?_
        have hkind := (congrArg Prod.fst h).symm.trans (hreply hnone)
        cases hkind
  · exact .of_eq rfl rfl subset_rfl subset_rfl rfl

/-- Every action moves every key by steps of an outbox. -/
theorem steps_action (config : Config) (hlinked : Linked world)
    (action : Action) (hallowed : NoOverwrite world action) (id : String) :
    ReflTransGen Outbox.Step (view world id)
      (view (stepWorld config world action) id) := by
  cases action with
  | accumulate capture now => exact .single (step_accumulate _ _ _ _ _ _)
  | publish summary now => exact .single (step_publish _ _ _ _)
  | flush caller limit outcomes =>
      exact .single (step_flush hlinked config caller limit outcomes id)
  | arrive index verdict granted =>
      exact .single (step_arrive hlinked config index verdict granted id
        hallowed)
  | answer index =>
      simp only [stepWorld]
      split
      · next flush upload reply hwaiting hupload =>
          obtain ⟨hflush, hindex⟩ := Lanes.waiting_mem hwaiting
          obtain ⟨phase, hheld⟩ := hlinked.lanes.waits flush hflush
          rw [hindex, hupload] at hheld
          cases hheld
          refine steps_resume hflush reply index id fun hnone => ?_
          subst hnone
          exact List.mem_of_getElem? hupload
      · exact .refl
  | giveUp index error =>
      simp only [stepWorld]
      split
      · next flush hwaiting =>
          exact steps_resume (Lanes.waiting_mem hwaiting).1 _ _ id
            fun h => by cases h
      · exact .refl
  | restart => exact steps_restart world id

/-! ### No lost update -/

def InFlight (world : World) (row : OutboxRow) : Prop :=
  ∃ request ∈ world.lanes.wire, request.phase = .travelling ∧
    request.row.row.key = row.key

/-- Every sent usage row with no upload in flight is what the Manager has
stored. -/
def NoLostUpdate (world : World) : Prop :=
  ∀ row ∈ world.outbox, row.payload.kind = .usage → row.status = .sent →
    ¬ InFlight world row →
    storedFor world row = row.payload.rollup row.tenantId

theorem noLostUpdate_of_good (hlinked : Linked world)
    (hgood : ∀ id, Outbox.Good (view world id)) : NoLostUpdate world := by
  intro row hrow hkind hsent _
  have hkey : row.key = (.usage, row.summaryId) := by
    simp [OutboxRow.key, hkind]
  have hold : usageRow world row.summaryId = some row := by
    rw [usageRow, ← hkey]
    exact hlinked.keyed row hrow
  have happlied := (hgood row.summaryId).sent (by
    simp [view, hold, rowStatus, hsent])
  simp only [view, hold, Option.bind_some] at happlied
  obtain ⟨stored, hstored, heq⟩ := Option.map_eq_some_iff.mp happlied
  rw [hstored, heq]

theorem sent_usage_is_stored (config : Config) (actions : List Action)
    (hrun : (machine config).Admissible NoOverwrite World.empty actions) :
    NoLostUpdate ((machine config).run World.empty actions) := by
  have hinit : Linked World.empty ∧
      ∀ id, Outbox.Good (view World.empty id) :=
    ⟨linked_empty, fun _ => Outbox.Good.of_idle rfl⟩
  have hfinal := (machine config).stateInvariant
    (fun world => Linked world ∧ ∀ id, Outbox.Good (view world id))
    (fun world action h hallowed => ⟨linked_step config h.1 action, fun id =>
      (h.2 id).of_steps (steps_action config h.1 action hallowed id)⟩)
    actions hinit hrun
  exact noLostUpdate_of_good hfinal.1 hfinal.2

instance (world : World) (action : Action) :
    Decidable (NoOverwrite world action) := by
  unfold NoOverwrite
  split <;> infer_instance

instance (world : World) : Decidable (NoLostUpdate world) := by
  unfold NoLostUpdate InFlight
  infer_instance

namespace DeliveredWitness

/-- Texts in place of their hashes; the runs below stay in the first hour of
1970 and have no known cost. -/
def config : Config where
  sha256 := id
  toISOString := fun instant =>
    if instant = 0 then "1970-01-01T00:00:00.000Z"
    else "1970-01-01T01:00:00.000Z"
  toFixed := some
  roundedMinor := fun _ => 0

def capture : UsageCapture where
  tenantId := "t"
  memberId := "m"
  employeeId := "e"
  startedAt := 0
  endedAt := 1000
  entries := [.assistant (some ⟨some 10, some 5, some 0, some 0⟩)]
  settled := true
  pricing := none

def caller : Caller := ⟨"t", "m"⟩

/-- The first upload times out; a second run and a second flush follow. -/
def retriedRun : List Action :=
  [.accumulate capture 0, .flush caller 50 false,
    .giveUp 0 ⟨none, none, "Manager request timed out"⟩,
    .accumulate capture 1, .flush caller 50 false, .arrive 1 none true,
    .answer 1]

end DeliveredWitness

open DeliveredWitness in
theorem sent_usage_is_stored_retriedRun :
    (∃ row ∈ ((machine config).run World.empty retriedRun).outbox,
      row.status = .sent) ∧
    NoLostUpdate ((machine config).run World.empty retriedRun) :=
  ⟨by decide, sent_usage_is_stored config retriedRun (by decide)⟩

open DeliveredWitness in
/-- The request that timed out is delivered last: the row stays sent, and the
Manager is back at the first payload. -/
theorem late_upload_overwrites_sent_usage :
    ¬ ∀ (config : Config) (actions : List Action),
      NoLostUpdate ((machine config).run World.empty actions) := by
  intro h
  have hlate := h config (retriedRun ++ [.arrive 0 none true])
  revert hlate
  decide

end AiTeam.Usage
