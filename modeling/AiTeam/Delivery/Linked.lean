/-
What holds in every state of the delivery: payloads are normalized and carry
the ids they are kept under, claims can be uploaded, and every rollup of the
Operator is recomputed from the rows of its enterprise.
-/
import AiTeam.Delivery.Service

namespace AiTeam.Delivery

open Courier (Lanes Thread)

/-! ### The tables of the Operator -/

theorem lookup_upsertSeen (seen : List SeenRow) (row : SeenRow)
    (key : String × String) :
    lookup SeenRow.key key (upsertSeen seen row) =
      if key = row.key then some row else lookup SeenRow.key key seen := by
  rw [upsertSeen]
  split
  · next hnone =>
      rw [lookup_append]
      by_cases hkey : key = row.key
      · subst hkey
        simp [hnone]
      · simp [hkey, Ne.symm hkey]
  · next old hold =>
      rw [lookup_updateWhere_of_guard SeenRow.key key _ _
        fun old hguard => (of_decide_eq_true hguard).symm]
      by_cases hkey : key = row.key
      · subst hkey
        simp [hold, lookup_key hold]
      · cases hfound : lookup SeenRow.key key seen with
        | none => simp [hkey]
        | some found =>
            have hne : found.key ≠ row.key := lookup_key hfound ▸ hkey
            simp [hkey, hne]

/-- The rows of another enterprise are left alone. -/
theorem ofEnterprise_upsertSeen {seen : List SeenRow} {row : SeenRow}
    {enterpriseId : String} (hne : row.enterpriseId ≠ enterpriseId) :
    ofEnterprise enterpriseId (upsertSeen seen row) =
      ofEnterprise enterpriseId seen := by
  rw [upsertSeen]
  split
  · simp [ofEnterprise, hne]
  · clear * - hne
    induction seen with
    | nil => rfl
    | cons head tail ih =>
        simp only [ofEnterprise, updateWhere, List.map_cons,
          decide_eq_true_eq] at ih ⊢
        by_cases hkey : head.key = row.key
        · have hhead : head.enterpriseId = row.enterpriseId :=
            congrArg Prod.fst hkey
          simp [hkey, hhead, hne, ih]
        · simp [hkey, ih, List.filter_cons]

/-- Every rollup is recomputed from the rows of its enterprise, and an
enterprise without a rollup has no rows. -/
structure RollupsOk (operator : Operator) : Prop where
  some : ∀ {enterpriseId rollup}, lookup EnterpriseRollup.enterpriseId
      enterpriseId operator.rollups = some rollup →
    rollup = recompute enterpriseId rollup.tenantId
      (ofEnterprise enterpriseId operator.seen)
  none : ∀ {enterpriseId}, lookup EnterpriseRollup.enterpriseId enterpriseId
      operator.rollups = none →
    ofEnterprise enterpriseId operator.seen = []

theorem rollupsOk_empty : RollupsOk ⟨[], []⟩ :=
  ⟨fun h => (nomatch h), fun _ => rfl⟩

theorem lookup_rollups_applySummary (operator : Operator)
    (enterpriseId tenantId : String) (summary : OperatorSummary)
    (other : String) :
    lookup EnterpriseRollup.enterpriseId other
        (applySummary operator enterpriseId tenantId summary).rollups =
      if other = enterpriseId then
        some (recompute enterpriseId
          (((lookup EnterpriseRollup.enterpriseId enterpriseId
            operator.rollups).map (·.tenantId)).getD tenantId)
          (ofEnterprise enterpriseId (applySummary operator enterpriseId
            tenantId summary).seen))
      else lookup EnterpriseRollup.enterpriseId other operator.rollups := by
  simp only [applySummary]
  split
  · next hnone =>
      rw [lookup_append]
      by_cases hother : other = enterpriseId
      · subst hother
        simp [hnone, recompute]
      · simp [hother, recompute, Ne.symm hother]
  · next old hold =>
      rw [lookup_updateWhere_of_guard EnterpriseRollup.enterpriseId other _ _
        fun old hguard => (of_decide_eq_true hguard).symm]
      by_cases hother : other = enterpriseId
      · subst hother
        simp [hold, lookup_key hold]
      · cases hfound : lookup EnterpriseRollup.enterpriseId other
            operator.rollups with
        | none => simp [hother]
        | some found =>
            have hne : found.enterpriseId ≠ enterpriseId :=
              lookup_key hfound ▸ hother
            simp [hother, hne]

theorem RollupsOk.applySummary {operator : Operator}
    (hok : RollupsOk operator) (enterpriseId tenantId : String)
    (summary : OperatorSummary) :
    RollupsOk (applySummary operator enterpriseId tenantId summary) where
  some := by
    intro other rollup hrollup
    rw [lookup_rollups_applySummary] at hrollup
    split at hrollup
    · next hother =>
        subst hother
        cases hrollup
        rfl
    · next hother =>
        rw [hok.some hrollup]
        simp only [Delivery.applySummary]
        rw [ofEnterprise_upsertSeen (Ne.symm hother)]
        rfl
  none := by
    intro other hrollup
    rw [lookup_rollups_applySummary] at hrollup
    split at hrollup
    · cases hrollup
    · next hother =>
        simp only [Delivery.applySummary]
        rw [ofEnterprise_upsertSeen (Ne.symm hother)]
        exact hok.none hrollup

theorem RollupsOk.deliver {operator : Operator} (hok : RollupsOk operator)
    (claimed : Claimed) : RollupsOk (deliver operator claimed) := by
  rw [Delivery.deliver]
  split
  · exact hok.applySummary _ _ _
  · exact hok

/-! ### Links between receipts and claims -/

/-- A payload is normalized and carries the ids it is kept under. -/
structure PayloadOk (tenantId summaryId : String)
    (payload : OperatorSummary) : Prop where
  summary : payload.summaryId = summaryId
  tenant : payload.tenantId = tenantId
  normal : normalizePricing payload = payload

structure ClaimOk (draws : Nat) (claimed : Claimed) : Prop where
  token : claimed.claimToken < draws
  enterprise : claimed.enterpriseId ≠ none
  payload : PayloadOk claimed.tenantId claimed.summaryId claimed.payload

/-- What is claimed can be uploaded, as it was claimed. -/
theorem ClaimOk.operatorPayload {draws : Nat} {claimed : Claimed}
    (h : ClaimOk draws claimed) : ∃ enterpriseId,
      claimed.enterpriseId = some enterpriseId ∧
      operatorPayload claimed = some (enterpriseId, claimed.payload) := by
  obtain ⟨enterpriseId, henterprise⟩ :=
    Option.ne_none_iff_exists'.mp h.enterprise
  refine ⟨enterpriseId, henterprise, ?_⟩
  simp [Delivery.operatorPayload, h.payload.normal, h.payload.tenant,
    henterprise]

def RowOk (row : DeliveryRow) : Prop :=
  PayloadOk row.tenantId row.summaryId row.payload

structure RowsOk (rows : List DeliveryRow) : Prop where
  keyed : Keyed DeliveryRow.key rows
  payloads : ∀ row ∈ rows, RowOk row

structure Linked (world : World) : Prop where
  rows : RowsOk world.rows
  lanes : world.lanes.Linked (ClaimOk world.draws)
  rollups : RollupsOk world.operator

theorem linked_empty : Linked World.empty where
  rows := ⟨Keyed.nil _, fun _ h => (nomatch h)⟩
  lanes := Lanes.Linked.empty _
  rollups := rollupsOk_empty

theorem payloadOk_operatorSummaryPayload (item : UsageItem)
    (tenantId : String) : PayloadOk tenantId item.summaryId
      (operatorSummaryPayload item tenantId) where
  summary := (normalizePricing_ids _).1
  tenant := (normalizePricing_ids _).2
  normal := normalizePricing_idem _

variable {rows : List DeliveryRow} {world : World}

section

variable (hrows : RowsOk rows)
include hrows

theorem RowsOk.updateWhere (guard : DeliveryRow → Bool)
    (change : DeliveryRow → DeliveryRow)
    (hkey : ∀ row, (change row).key = row.key)
    (hok : ∀ row, guard row → RowOk row → RowOk (change row)) :
    RowsOk (updateWhere guard change rows) where
  keyed := hrows.keyed.updateWhere guard change hkey
  payloads := by
    intro row hrow
    obtain ⟨old, hold, rfl⟩ := List.mem_map.mp hrow
    split
    · next hguard => exact hok old hguard (hrows.payloads old hold)
    · exact hrows.payloads old hold

theorem RowsOk.enqueue {rows' : List DeliveryRow} {tenantId : String}
    {item : UsageItem} {enterpriseId : Option String} {now : Int}
    (h : enqueueInSession rows tenantId item enterpriseId now = .ok rows') :
    RowsOk rows' := by
  have hpayload := payloadOk_operatorSummaryPayload item tenantId
  simp only [enqueueInSession] at h
  split at h
  · next hnone =>
      cases h
      refine ⟨hrows.keyed.append hnone, fun row hrow => ?_⟩
      rcases List.mem_append.mp hrow with hold | hnew
      · exact hrows.payloads row hold
      · rw [List.mem_singleton.mp hnew]
        exact hpayload
  · split at h
    · cases h
      refine hrows.updateWhere _ _ (enqueueRow_key _ _ _ _) ?_
      intro row hguard hok
      have hkey : row.key = (tenantId, item.summaryId) :=
        of_decide_eq_true hguard
      simp only [enqueueRow]
      split
      · exact hok
      · have htenant : row.tenantId = tenantId := congrArg Prod.fst hkey
        have hid : row.summaryId = item.summaryId := congrArg Prod.snd hkey
        show PayloadOk row.tenantId row.summaryId _
        rw [htenant, hid]
        exact hpayload
    · cases h

theorem RowsOk.claimDue (tenantId : String) (limit : Int)
    (locked : List String) (now : Int) (token : Nat) :
    RowsOk (claimDue rows tenantId limit locked now token).1 :=
  (hrows.updateWhere _ failRow (fun _ => rfl) fun _ _ h => h).updateWhere _
    (claimRow token now) (fun _ => rfl) fun _ _ h => h

theorem RowsOk.markFailed (claimed : Claimed) (now : Int) :
    RowsOk (markFailed rows claimed now) :=
  hrows.updateWhere _ (retryRow claimed now) (fun _ => rfl) fun _ _ h => h

theorem RowsOk.markSent (claimed : Claimed) : RowsOk (markSent rows claimed) :=
  hrows.updateWhere _ sentRow (fun _ => rfl) fun _ _ h => h

end

theorem Linked.withRows (hlinked : Linked world) (hrows : RowsOk rows) :
    Linked { world with rows } :=
  ⟨hrows, hlinked.lanes, hlinked.rollups⟩

theorem linked_advance (now : Int) (claims : List Claimed)
    (hlinked : Linked world)
    (hclaims : ∀ claimed ∈ claims, ClaimOk world.draws claimed) :
    Linked (advance now claims world) := by
  induction claims generalizing world with
  | nil => exact hlinked
  | cons claimed rest ih =>
      rw [advance]
      split
      · exact ih (hlinked.withRows (hlinked.rows.markFailed claimed now))
          fun other hother => hclaims other (List.mem_cons_of_mem _ hother)
      · exact ⟨hlinked.rows, hlinked.lanes.start () hclaims,
          hlinked.rollups⟩

theorem linked_resume (hlinked : Linked world) {worker : Thread Claimed Unit}
    (hworker : worker ∈ world.lanes.threads) (accepted : Bool) (now : Int)
    (index : Nat) :
    Linked (resume worker accepted now
      { world with lanes := world.lanes.leave index }) := by
  refine linked_advance now _ ⟨?_, hlinked.lanes.leave index,
    hlinked.rollups⟩ (hlinked.lanes.rests worker hworker)
  show RowsOk (if accepted then _ else _)
  split
  · exact hlinked.rows.markSent _
  · exact hlinked.rows.markFailed _ _

/-- A claim that a worker is handed. -/
theorem claimOk_claimed (hrows : RowsOk rows) {tenantId : String} {limit : Int}
    {locked : List String} {now : Int} {token : Nat} {claimed : Claimed}
    (h : claimed ∈ (claimDue rows tenantId limit locked now token).2) :
    ClaimOk (token + 1) claimed := by
  obtain ⟨row, hrow, rfl⟩ := List.mem_map.mp h
  obtain ⟨hmem, hdue⟩ := selectDue_mem hrow
  exact ⟨Nat.lt_succ_self _, due_enterpriseId hdue, hrows.payloads row hmem⟩

theorem linked_step (hlinked : Linked world) (action : Action) :
    Linked (stepWorld world action) := by
  cases action with
  | enqueue tenantId item enterpriseId now =>
      simp only [stepWorld]
      split
      · next rows hrows =>
          exact hlinked.withRows (hlinked.rows.enqueue hrows)
      · exact hlinked
  | assign tenantId enterpriseId =>
      exact hlinked.withRows (hlinked.rows.updateWhere _
        (assignRow enterpriseId) (fun _ => rfl) fun _ _ h => h)
  | claim tenantId limit locked now =>
      refine linked_advance now _ ⟨hlinked.rows.claimDue _ _ _ _ _,
        hlinked.lanes.mono fun _ h =>
          ⟨Nat.lt_succ_of_lt h.token, h.enterprise, h.payload⟩,
        hlinked.rollups⟩ fun claimed hclaimed => ?_
      exact claimOk_claimed hlinked.rows hclaimed
  | arrive index accepted =>
      simp only [stepWorld]
      split
      · next claimed hclaimed =>
          refine ⟨hlinked.rows, hlinked.lanes.answer hclaimed accepted, ?_⟩
          show RollupsOk (if accepted then _ else _)
          split
          · exact hlinked.rollups.deliver claimed
          · exact hlinked.rollups
      · exact hlinked
  | answer index now =>
      simp only [stepWorld]
      split
      · next worker _ _ hwaiting _ =>
          exact linked_resume hlinked (Lanes.waiting_mem hwaiting).1 _ _ _
      · exact hlinked
  | giveUp index now =>
      simp only [stepWorld]
      split
      · next worker hwaiting =>
          exact linked_resume hlinked (Lanes.waiting_mem hwaiting).1 _ _ _
      · exact hlinked
  | restart =>
      exact ⟨hlinked.rows, hlinked.lanes.crash, hlinked.rollups⟩

end AiTeam.Delivery
