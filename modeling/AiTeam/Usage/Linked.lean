/-
What ties the world of the usage flush together: every claimed copy, waiting
or travelling, belongs to a row of its caller's tenant, and every flush waits
for the upload of its own row.
-/
import AiTeam.Usage.Flush

namespace AiTeam.Usage

open Courier (Lanes Thread)

/-- A claimed copy belongs to a row of its caller's tenant. -/
structure ClaimOk (outbox : List OutboxRow) (draws : Nat) (upload : Upload) :
    Prop where
  token : upload.row.claimToken < draws
  tenant : upload.row.tenantId = upload.caller.tenantId
  summary : ∀ item, upload.row.payload = .usage item →
    item.summaryId = upload.row.summaryId ∧ item.memberId ≠ ""
  row : ∃ row, lookup OutboxRow.key upload.row.key outbox = some row ∧
    row.tenantId = upload.row.tenantId

def RowOk (row : OutboxRow) : Prop :=
  ∀ item, row.payload = .usage item →
    item.summaryId = row.summaryId ∧ item.memberId = row.memberId

structure Linked (world : World) : Prop where
  keyed : Keyed OutboxRow.key world.outbox
  rows : ∀ row ∈ world.outbox, RowOk row
  lanes : world.lanes.Linked (ClaimOk world.outbox world.draws)

theorem linked_empty : Linked World.empty where
  keyed := Keyed.nil _
  rows := by simp [World.empty]
  lanes := Lanes.Linked.empty _

/-- Rows are never removed and keep their tenant. -/
def Extends (outbox outbox' : List OutboxRow) : Prop :=
  ∀ key row, lookup OutboxRow.key key outbox = some row →
    ∃ row', lookup OutboxRow.key key outbox' = some row' ∧
      row'.tenantId = row.tenantId

theorem ClaimOk.mono {outbox outbox' : List OutboxRow} {draws draws' : Nat}
    {upload : Upload} (h : ClaimOk outbox draws upload)
    (hext : Extends outbox outbox') (hdraws : draws ≤ draws') :
    ClaimOk outbox' draws' upload where
  token := Nat.lt_of_lt_of_le h.token hdraws
  tenant := h.tenant
  summary := h.summary
  row := by
    obtain ⟨row, hrow, htenant⟩ := h.row
    obtain ⟨row', hrow', htenant'⟩ := hext _ _ hrow
    exact ⟨row', hrow', htenant'.trans htenant⟩

/-- An outbox that a link can be carried over to. -/
structure Carries (outbox outbox' : List OutboxRow) : Prop where
  keyed : Keyed OutboxRow.key outbox → Keyed OutboxRow.key outbox'
  rows : (∀ row ∈ outbox, RowOk row) → ∀ row ∈ outbox', RowOk row
  tenants : Extends outbox outbox'

theorem Carries.refl (outbox : List OutboxRow) : Carries outbox outbox :=
  ⟨id, id, fun _ row h => ⟨row, h, rfl⟩⟩

theorem Carries.trans {first second third : List OutboxRow}
    (h : Carries first second) (h' : Carries second third) :
    Carries first third where
  keyed := h'.keyed ∘ h.keyed
  rows := h'.rows ∘ h.rows
  tenants := by
    intro key row hrow
    obtain ⟨row', hrow', htenant⟩ := h.tenants key row hrow
    obtain ⟨row'', hrow'', htenant'⟩ := h'.tenants key row' hrow'
    exact ⟨row'', hrow'', htenant'.trans htenant⟩

theorem Carries.updateWhere (guard : OutboxRow → Bool)
    (change : OutboxRow → OutboxRow) (outbox : List OutboxRow)
    (hkey : ∀ row, (change row).key = row.key)
    (htenant : ∀ row, (change row).tenantId = row.tenantId)
    (hok : ∀ row, guard row → RowOk row → RowOk (change row)) :
    Carries outbox (updateWhere guard change outbox) where
  keyed := fun h => h.updateWhere guard change hkey
  rows := by
    intro hrows row hrow
    obtain ⟨old, hold, rfl⟩ := List.mem_map.mp hrow
    split
    · next hguard => exact hok old hguard (hrows old hold)
    · exact hrows old hold
  tenants := by
    intro key row hrow
    rw [lookup_updateWhere OutboxRow.key key guard change hkey, hrow]
    refine ⟨_, rfl, ?_⟩
    beta_reduce
    split
    · exact htenant row
    · rfl

theorem Carries.append (outbox : List OutboxRow) (row : OutboxRow)
    (hfresh : lookup OutboxRow.key row.key outbox = none) (hok : RowOk row) :
    Carries outbox (outbox ++ [row]) where
  keyed := fun h => h.append hfresh
  rows := by
    intro hrows other hother
    rcases List.mem_append.mp hother with hold | hnew
    · exact hrows other hold
    · rw [List.mem_singleton.mp hnew]
      exact hok
  tenants := by
    intro key old hold
    rw [lookup_append, hold]
    exact ⟨old, rfl, rfl⟩

theorem carries_settleClaim (status : OutboxStatus) (attempts : Nat → Nat)
    (outbox : List OutboxRow) (claimed : ClaimedRow) :
    Carries outbox (settleClaim status attempts outbox claimed) :=
  Carries.updateWhere _ _ outbox (fun _ => rfl) (fun _ => rfl)
    fun _ _ h => h

theorem carries_claim (outbox : List OutboxRow) (tenantId memberId : String)
    (limit : Int) (outcomes : Bool) (token : Nat) :
    Carries outbox (claimUsageOutbox outbox tenantId memberId limit outcomes
      token).1 :=
  Carries.updateWhere _ _ outbox (fun _ => rfl) (fun _ => rfl)
    fun _ _ h => h

theorem carries_recover (outbox : List OutboxRow) :
    Carries outbox (recoverOutbox outbox) := by
  refine Carries.trans (Carries.updateWhere _ fillMember outbox
    (fun _ => rfl) (fun _ => rfl) ?_) (Carries.updateWhere _ failUnfinished _
    (fun _ => rfl) (fun _ => rfl) fun _ _ h => h)
  intro row _ hok item hitem
  have hpayload : row.payload = .usage item := hitem
  exact ⟨(hok item hpayload).1, by
    simp [fillMember, hpayload, Payload.memberId]⟩

theorem rowOk_accumulateRow (config : Config) (summary : UsageSummary)
    (cost : Option String) (row : OutboxRow)
    (hkey : row.key = (.usage, summary.summaryId)) (hok : RowOk row) :
    RowOk (accumulateRow config summary cost row) := by
  cases hpayload : row.payload with
  | usage old =>
      intro item hitem
      simp only [accumulateRow, hpayload, Payload.usage.injEq] at hitem ⊢
      subst hitem
      exact ⟨(congrArg Prod.snd hkey).symm, (hok old hpayload).2⟩
  | segmentOutcome summary => simpa [accumulateRow, hpayload] using hok

theorem carries_upsert (config : Config) (outbox : List OutboxRow)
    (summary : UsageSummary) (preciseCost : Option String) (now : Int) :
    Carries outbox
      (upsertUsageSummary config outbox summary preciseCost now) := by
  rw [upsertUsageSummary]
  split
  · next hnone =>
      refine Carries.append outbox _ hnone ?_
      rintro item ⟨⟩
      exact ⟨rfl, rfl⟩
  · exact Carries.updateWhere _ _ outbox (accumulateRow_key config _ _)
      (accumulateRow_tenantId config _ _) fun row hguard hok =>
        rowOk_accumulateRow config _ _ row (by simpa using hguard) hok

theorem rowOk_of_outcome {row : OutboxRow} {summary : SegmentOutcomeSummary}
    (hpayload : row.payload = .segmentOutcome summary) : RowOk row := by
  intro item hitem
  rw [hpayload] at hitem
  exact nomatch hitem

theorem carries_publish (outbox : List OutboxRow)
    (summary : SegmentOutcomeSummary) (now : Int) :
    Carries outbox (publishSegmentOutcome outbox summary now) := by
  rw [publishSegmentOutcome]
  split
  · refine Carries.updateWhere _ _ outbox (replaceOutcome_key summary)
      (replaceOutcome_tenantId summary) fun row _ hok => ?_
    cases hpayload : row.payload with
    | usage old => simpa [replaceOutcome, hpayload] using hok
    | segmentOutcome old =>
        have hnew : (replaceOutcome summary row).payload =
            .segmentOutcome summary := by
          simp [replaceOutcome, hpayload]
        exact rowOk_of_outcome hnew
  · next hnone =>
      split
      · exact Carries.refl outbox
      · exact Carries.append outbox _ hnone (rowOk_of_outcome rfl)

theorem Linked.carry {world : World} (hlinked : Linked world)
    {outbox : List OutboxRow} {draws : Nat}
    (hcarries : Carries world.outbox outbox) (hdraws : world.draws ≤ draws) :
    Linked { world with outbox, draws } where
  keyed := hcarries.keyed hlinked.keyed
  rows := hcarries.rows hlinked.rows
  lanes := hlinked.lanes.mono fun _ h => h.mono hcarries.tenants hdraws

theorem linked_advance (unsupported : Bool) (uploads : List Upload)
    {world : World} (hlinked : Linked world)
    (huploads : ∀ upload ∈ uploads,
      ClaimOk world.outbox world.draws upload) :
    Linked (advance unsupported uploads world) := by
  induction uploads generalizing world with
  | nil => exact hlinked
  | cons upload rest ih =>
      rw [advance]
      split
      · have hcarries := carries_settleClaim .pending
          (fun attempts => attempts - 1) world.outbox upload.row
        refine ih (hlinked.carry hcarries le_rfl) fun other hother => ?_
        exact (huploads other (List.mem_cons_of_mem _ hother)).mono
          hcarries.tenants le_rfl
      · exact ⟨hlinked.keyed, hlinked.rows,
          hlinked.lanes.start unsupported huploads⟩

/-- What `abandon` leaves as it is. -/
theorem abandon_eq (unsupported : Bool) (uploads : List Upload)
    (world : World) : ∃ outbox, Carries world.outbox outbox ∧
      abandon unsupported uploads world = { world with outbox } := by
  induction uploads generalizing world with
  | nil => exact ⟨world.outbox, Carries.refl _, rfl⟩
  | cons upload rest ih =>
      rw [abandon]
      obtain ⟨outbox, hcarries, heq⟩ := ih { world with
        outbox := if upload.row.payload.kind = .segmentOutcome ∧
            unsupported = true then releaseUsageClaim world.outbox upload.row
          else markUsageFailed world.outbox upload.row }
      refine ⟨outbox, Carries.trans ?_ hcarries, heq⟩
      split
      · exact carries_settleClaim _ _ _ _
      · exact carries_settleClaim _ _ _ _

theorem linked_resume {world : World} (hlinked : Linked world)
    {flush : Thread Upload Bool} (hflush : flush ∈ world.lanes.threads)
    (reply : Option UploadError) (index : Nat) :
    Linked (resume flush reply
      { world with lanes := world.lanes.leave index }) := by
  have hsettled : ∀ (status : OutboxStatus) (attempts : Nat → Nat),
      Linked { world with
        outbox := settleClaim status attempts world.outbox flush.row.row
        lanes := world.lanes.leave index } := by
    intro status attempts
    have hcarries := carries_settleClaim status attempts world.outbox
      flush.row.row
    have hcarried := hlinked.carry hcarries le_rfl
    exact ⟨hcarried.keyed, hcarried.rows, hcarried.lanes.leave index⟩
  have hadvance : ∀ (unsupported : Bool) (status : OutboxStatus)
      (attempts : Nat → Nat), Linked (advance unsupported flush.rest
        { world with
          outbox := settleClaim status attempts world.outbox flush.row.row
          lanes := world.lanes.leave index }) := by
    intro unsupported status attempts
    have hcarries := carries_settleClaim status attempts world.outbox
      flush.row.row
    refine linked_advance _ _ (hsettled status attempts) fun upload h => ?_
    exact (hlinked.lanes.rests flush hflush upload h).mono hcarries.tenants
      le_rfl
  cases reply with
  | none => exact hadvance _ _ _
  | some error =>
      simp only [resume]
      split_ifs
      · exact hadvance _ _ _
      · exact hadvance _ _ _
      · obtain ⟨outbox, hcarries, heq⟩ := abandon_eq flush.memo flush.rest
          { world with
            outbox := markUsageFailed world.outbox flush.row.row
            lanes := world.lanes.leave index }
        rw [heq]
        exact (hsettled _ _).carry hcarries le_rfl
      · exact hadvance _ _ _

/-- A copy that a claim hands out. -/
theorem claimOk_claimed {world : World} (hlinked : Linked world)
    (caller : Caller) (limit : Int) (outcomes : Bool) {claimed : ClaimedRow}
    (h : claimed ∈ (claimUsageOutbox world.outbox caller.tenantId
      caller.memberId limit outcomes world.draws).2) :
    ClaimOk world.outbox (world.draws + 1) ⟨caller, claimed⟩ := by
  obtain ⟨row, hrow, rfl⟩ := List.mem_map.mp h
  obtain ⟨hmem, hclaimable⟩ := selectClaimable_mem hrow
  refine ⟨Nat.lt_succ_self _, claimable_tenantId hclaimable, ?_,
    ⟨row, hlinked.keyed row hmem, rfl⟩⟩
  intro item hitem
  obtain ⟨hid, hmember⟩ := hlinked.rows row hmem item hitem
  refine ⟨hid, ?_⟩
  rw [hmember]
  exact claimable_memberId hclaimable

theorem linked_step (config : Config) {world : World}
    (hlinked : Linked world) (action : Action) :
    Linked (stepWorld config world action) := by
  cases action with
  | accumulate capture now =>
      exact hlinked.carry (carries_upsert _ _ _ _ _) le_rfl
  | publish summary now =>
      exact hlinked.carry (carries_publish _ _ _) le_rfl
  | flush caller limit outcomes =>
      have hcarries := carries_claim world.outbox caller.tenantId
        caller.memberId limit outcomes world.draws
      refine linked_advance _ _ (hlinked.carry hcarries (Nat.le_succ _)) ?_
      intro upload hupload
      obtain ⟨claimed, hclaimed, rfl⟩ := List.mem_map.mp hupload
      exact (claimOk_claimed hlinked caller limit outcomes hclaimed).mono
        hcarries.tenants le_rfl
  | arrive index verdict granted =>
      simp only [stepWorld]
      split
      · next upload hupload =>
          exact ⟨hlinked.keyed, hlinked.rows, hlinked.lanes.answer hupload _⟩
      · exact hlinked
  | answer index =>
      simp only [stepWorld]
      split
      · next flush _ hwaiting _ =>
          exact linked_resume hlinked (Lanes.waiting_mem hwaiting).1 _ _
      · exact hlinked
  | giveUp index error =>
      simp only [stepWorld]
      split
      · next flush hwaiting =>
          exact linked_resume hlinked (Lanes.waiting_mem hwaiting).1 _ _
      · exact hlinked
  | restart =>
      have hcarried := hlinked.carry (carries_recover world.outbox) le_rfl
      exact ⟨hcarried.keyed, hcarried.rows, hcarried.lanes.crash⟩

/-- Whatever is under way, or was answered, is of its caller's tenant. -/
theorem uploads_stay_in_tenant (config : Config) (actions : List Action) :
    let world := (machine config).run World.empty actions
    (∀ upload, (world.lanes.Held upload ∨
        ∃ reply, world.lanes.Answered upload reply) →
      ∃ row, lookup OutboxRow.key upload.row.key world.outbox = some row ∧
        row.tenantId = upload.caller.tenantId) ∧
    ∀ thread ∈ world.lanes.threads, ∃ phase,
      world.lanes.wire[thread.request]? = some ⟨thread.row, phase⟩ := by
  have hlinked := (machine config).stateInvariant Linked
    (fun _ action h _ => linked_step config h action) actions linked_empty
    ((machine config).admissible_true _ _)
  refine ⟨fun upload hupload => ?_, hlinked.lanes.waits⟩
  have hok : ClaimOk ((machine config).run World.empty actions).outbox
      ((machine config).run World.empty actions).draws upload := by
    rcases hupload with hheld | ⟨reply, hanswered⟩
    · exact hlinked.lanes.held hheld
    · exact hlinked.lanes.answered hanswered
  obtain ⟨row, hrow, htenant⟩ := hok.row
  exact ⟨row, hrow, htenant.trans hok.tenant⟩

/-! ### What leaves the payloads alone -/

/-- Rows are changed in place, and keep their ids, payloads and costs. -/
def Rewrites (outbox outbox' : List OutboxRow) : Prop :=
  ∃ change : OutboxRow → OutboxRow, outbox' = outbox.map change ∧
    ∀ row, (change row).summaryId = row.summaryId ∧
      (change row).payload = row.payload ∧
      (change row).costTotalDecimal = row.costTotalDecimal

theorem Rewrites.refl (outbox : List OutboxRow) : Rewrites outbox outbox :=
  ⟨id, (List.map_id outbox).symm, fun _ => ⟨rfl, rfl, rfl⟩⟩

theorem Rewrites.trans {first second third : List OutboxRow}
    (h : Rewrites first second) (h' : Rewrites second third) :
    Rewrites first third := by
  obtain ⟨change, rfl, hkeeps⟩ := h
  obtain ⟨change', rfl, hkeeps'⟩ := h'
  refine ⟨change' ∘ change, List.map_map, fun row => ?_⟩
  obtain ⟨hid, hpayload, hcost⟩ := hkeeps row
  obtain ⟨hid', hpayload', hcost'⟩ := hkeeps' (change row)
  exact ⟨hid'.trans hid, hpayload'.trans hpayload, hcost'.trans hcost⟩

theorem rewrites_updateWhere (guard : OutboxRow → Bool)
    (change : OutboxRow → OutboxRow) (outbox : List OutboxRow)
    (hkeeps : ∀ row, (change row).summaryId = row.summaryId ∧
      (change row).payload = row.payload ∧
      (change row).costTotalDecimal = row.costTotalDecimal) :
    Rewrites outbox (updateWhere guard change outbox) := by
  refine ⟨_, rfl, fun row => ?_⟩
  split
  · exact hkeeps row
  · exact ⟨rfl, rfl, rfl⟩

theorem rewrites_settleClaim (status : OutboxStatus)
    (attempts : Nat → Nat) (outbox : List OutboxRow) (claimed : ClaimedRow) :
    Rewrites outbox (settleClaim status attempts outbox claimed) :=
  rewrites_updateWhere _ (settleRow status attempts) outbox
    fun _ => ⟨rfl, rfl, rfl⟩

theorem rewrites_recover (outbox : List OutboxRow) :
    Rewrites outbox (recoverOutbox outbox) :=
  (rewrites_updateWhere _ fillMember outbox fun _ => ⟨rfl, rfl, rfl⟩).trans
    (rewrites_updateWhere _ failUnfinished _ fun _ => ⟨rfl, rfl, rfl⟩)

theorem rewrites_advance (unsupported : Bool) (uploads : List Upload)
    (world : World) :
    Rewrites world.outbox (advance unsupported uploads world).outbox := by
  induction uploads generalizing world with
  | nil => exact .refl _
  | cons upload rest ih =>
      rw [advance]
      split
      · exact (rewrites_settleClaim _ _ _ _).trans (ih _)
      · exact .refl _

theorem rewrites_abandon (unsupported : Bool) (uploads : List Upload)
    (world : World) :
    Rewrites world.outbox (abandon unsupported uploads world).outbox := by
  induction uploads generalizing world with
  | nil => exact .refl _
  | cons upload rest ih =>
      rw [abandon]
      refine Rewrites.trans ?_ (ih _)
      simp only
      split
      · exact rewrites_settleClaim _ _ _ _
      · exact rewrites_settleClaim _ _ _ _

theorem rewrites_resume (flush : Thread Upload Bool)
    (reply : Option UploadError) (world : World) :
    Rewrites world.outbox (resume flush reply world).outbox := by
  -- every branch settles the claim and goes on with the loop
  have hgoOn : ∀ unsupported status attempts,
      Rewrites world.outbox (advance unsupported flush.rest { world with
        outbox := settleClaim status attempts world.outbox
          flush.row.row }).outbox :=
    fun _ _ _ =>
      (rewrites_settleClaim _ _ _ _).trans (rewrites_advance _ _ _)
  cases reply with
  | none => exact hgoOn _ _ _
  | some error =>
      simp only [resume]
      split
      · exact hgoOn _ _ _
      split
      · exact hgoOn _ _ _
      split
      · exact (rewrites_settleClaim _ _ _ _).trans (rewrites_abandon _ _ _)
      · exact hgoOn _ _ _

/-- Only runs and outcomes change a payload. -/
theorem rewrites_step (config : Config) (world : World) (action : Action)
    (haccumulate : ∀ capture now, action ≠ .accumulate capture now)
    (hpublish : ∀ summary now, action ≠ .publish summary now) :
    Rewrites world.outbox (stepWorld config world action).outbox := by
  cases action with
  | accumulate capture now => exact absurd rfl (haccumulate capture now)
  | publish summary now => exact absurd rfl (hpublish summary now)
  | flush caller limit outcomes =>
      exact (rewrites_updateWhere _ (claimRow _) _
        fun _ => ⟨rfl, rfl, rfl⟩).trans (rewrites_advance _ _ _)
  | arrive index verdict granted =>
      simp only [stepWorld]
      split <;> exact .refl _
  | answer index =>
      simp only [stepWorld]
      split
      · exact rewrites_resume _ _ _
      · exact .refl _
  | giveUp index error =>
      simp only [stepWorld]
      split
      · exact rewrites_resume _ _ _
      · exact .refl _
  | restart => exact rewrites_recover _

theorem Rewrites.key {change : OutboxRow → OutboxRow} {row : OutboxRow}
    (hid : (change row).summaryId = row.summaryId)
    (hpayload : (change row).payload = row.payload) :
    (change row).key = row.key := by
  rw [OutboxRow.key, OutboxRow.key, hid, hpayload]

end AiTeam.Usage
