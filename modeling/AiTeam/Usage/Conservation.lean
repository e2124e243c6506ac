/-
Conservation of the usage ledger: every row is the fold of the captures that
were recorded under its summary id.  Finishing an active record adds exactly
one capture, claims and uploads leave payloads alone, and a record that is no
longer active adds nothing again.
-/
import Mathlib.Algebra.BigOperators.Group.List.Basic
import AiTeam.Usage.Ledger

namespace AiTeam.Usage

open Courier (Lanes Thread)
open WorkRecord (Repository WorkFinish WorkOwner WorkRecordRow)

instance : AddCommMonoid Counters where
  add_assoc a b c := by
    ext <;> exact add_assoc _ _ _
  zero_add a := by
    ext <;> exact zero_add _
  add_zero a := by
    ext <;> exact add_zero _
  add_comm a b := by
    ext <;> exact add_comm _ _
  nsmul := nsmulRec

/-! ### One contribution -/

theorem measure_costTotal (capture : UsageCapture) :
    (measureWorkUsage capture.entries capture.pricing).bind (·.costTotal) =
      capture.units.map usdDecimal := by
  rw [measureWorkUsage, UsageCapture.units]
  split
  · rfl
  · cases measureTotals (assistants capture.entries) ⟨0, 0, 0, 0⟩ <;> rfl

/-- The summary is priced exactly when the capture has a known cost. -/
theorem capturedCost_eq (capture : UsageCapture) :
    capturedCost capture = capture.units.map usdDecimal := by
  rw [capturedCost, measureWorkUsage, UsageCapture.units]
  split
  · rfl
  · cases measureTotals (assistants capture.entries) ⟨0, 0, 0, 0⟩ with
    | none => rfl
    | some totals =>
        cases hcost : measuredCost capture.pricing totals <;> simp [hcost]

theorem usdUnits_text (config : Config) (units : Option Nat) :
    usdUnits config ((units.map usdDecimal).map Amount.text) = units := by
  cases units with
  | none => rfl
  | some units => exact decimalUnits_usdDecimal units

theorem aggregate_costTotal (config : Config) (capture : UsageCapture) :
    (aggregateUsage config capture).costTotal =
      (capture.units.map usdDecimal).map Amount.text := by
  simp only [aggregateUsage, capturedCost_eq]

theorem aggregate_pricingStatus (config : Config) (capture : UsageCapture) :
    (aggregateUsage config capture).pricingStatus =
      if capture.units.isSome then .known else .unknown := by
  simp only [aggregateUsage, capturedCost_eq, Option.isSome_map]

theorem aggregate_costMinor (config : Config) (capture : UsageCapture)
    (h : capture.units = none) :
    (aggregateUsage config capture).costMinor = none := by
  simp only [aggregateUsage, capturedCost_eq, usdUnits_text, h]
  rfl

/-- The decimal a finish is recorded with is the exact cost. -/
theorem recordedCost_eq (config : Config) (capture : UsageCapture) :
    recordedCost config (aggregateUsage config capture)
      ((measureWorkUsage capture.entries capture.pricing).bind
        (·.costTotal)) = capture.units.map usdDecimal := by
  rw [recordedCost, measure_costTotal, aggregate_costTotal, Option.or_self,
    usdUnits_text]

/-- The text that is hashed for a key. -/
def LedgerKey.text (key : LedgerKey) : String :=
  key.tenantId ++ ":" ++ key.memberId ++ ":" ++ key.employeeId ++ ":" ++
    key.windowStart ++ ":" ++
    (match key.pricingVersion with
      | some version => toString version
      | none => "unknown") ++
    (if key.pricingStatus = .known then "" else ":unknown")

/-- The summary id depends on the key alone. -/
theorem aggregate_summaryId (config : Config) (capture : UsageCapture) :
    (aggregateUsage config capture).summaryId =
      config.sha256 (capture.key config).text := by
  simp only [aggregateUsage, UsageCapture.key, UsageSummary.key,
    LedgerKey.text, summaryText]
  congr 2
  · cases capture.pricing <;> rfl
  · by_cases h : (capturedCost capture).isSome = true <;> simp [h]

theorem known_iff (config : Config) (capture : UsageCapture) :
    (capture.key config).pricingStatus = .known ↔ capture.units.isSome := by
  have h : (capture.key config).pricingStatus = _ :=
    aggregate_pricingStatus config capture
  rw [h]
  cases capture.units <;> simp

/-! ### What leaves the books alone -/

/-- What the ledger says about a row. -/
def OutboxRow.book (row : OutboxRow) : Payload × Option String :=
  (row.payload, row.costTotalDecimal)

def bookAt (outbox : List OutboxRow) (id : String) :
    Option (Payload × Option String) :=
  (lookup OutboxRow.key (.usage, id) outbox).map OutboxRow.book

def SameBooks (outbox outbox' : List OutboxRow) : Prop :=
  ∀ id, bookAt outbox' id = bookAt outbox id

theorem Rewrites.sameBooks {outbox outbox' : List OutboxRow}
    (h : Rewrites outbox outbox') : SameBooks outbox outbox' := by
  obtain ⟨change, rfl, hkeeps⟩ := h
  intro id
  rw [bookAt, lookup_map OutboxRow.key change fun row =>
    Rewrites.key (hkeeps row).1 (hkeeps row).2.1, Option.map_map, bookAt]
  congr 1
  funext row
  rw [Function.comp_apply, OutboxRow.book, OutboxRow.book, (hkeeps row).2.1,
    (hkeeps row).2.2]

theorem sameBooks_publish (outbox : List OutboxRow)
    (summary : SegmentOutcomeSummary) (now : Int) :
    SameBooks outbox (publishSegmentOutcome outbox summary now) := by
  intro id
  rw [bookAt, publishSegmentOutcome]
  split
  · rw [lookup_updateWhere OutboxRow.key _ _ _ (replaceOutcome_key summary),
      bookAt]
    cases hold : lookup OutboxRow.key (.usage, id) outbox with
    | none => rfl
    | some row =>
        have hkey := lookup_key hold
        simp [hkey]
  · split
    · rfl
    · simp [lookup_append, OutboxRow.key, Payload.kind, bookAt]

/-- Only an accumulated run changes the books. -/
theorem sameBooks_step (config : Config) (world : World) (action : Action)
    (haction : ∀ capture now, action ≠ .accumulate capture now) :
    SameBooks world.outbox (stepWorld config world action).outbox := by
  cases action with
  | publish summary now => exact sameBooks_publish _ _ _
  | accumulate capture now => exact absurd rfl (haction capture now)
  | flush caller limit outcomes =>
      exact (rewrites_step config world _ haction (by simp)).sameBooks
  | arrive index verdict granted =>
      exact (rewrites_step config world _ haction (by simp)).sameBooks
  | answer index =>
      exact (rewrites_step config world _ haction (by simp)).sameBooks
  | giveUp index error =>
      exact (rewrites_step config world _ haction (by simp)).sameBooks
  | restart => exact (rewrites_step config world _ haction (by simp)).sameBooks

/-! ### Accumulating a capture -/

theorem countersOf_append (config : Config) (captures : List UsageCapture)
    (capture : UsageCapture) :
    countersOf config (captures ++ [capture]) =
      countersOf config captures +
        (aggregateUsage config capture).counters := by
  simp [countersOf]

theorem unitsOf_append (captures : List UsageCapture) (capture : UsageCapture)
    {units : Nat} (h : capture.units = some units) :
    unitsOf (captures ++ [capture]) = unitsOf captures + units := by
  simp [unitsOf, h]

/-- The first capture of a key. -/
theorem isFold_first (config : Config) (capture : UsageCapture) :
    IsFold config (capture.key config) [capture]
      (.usage (aggregateUsage config capture))
      (capture.units.map usdDecimal) (aggregateUsage config capture) where
  shows := rfl
  attributed := rfl
  counters := by simp [countersOf]
  known := by
    intro hknown
    obtain ⟨units, hunits⟩ :=
      Option.isSome_iff_exists.mp ((known_iff config capture).mp hknown)
    rw [aggregate_costTotal]
    simp [hunits, unitsOf, Amount.decimal]
  unknown := by
    intro hunknown
    have hunits : capture.units = none := by
      cases hunits : capture.units with
      | none => rfl
      | some units =>
          have hknown := (known_iff config capture).mpr (by simp [hunits])
          rw [hunknown] at hknown
          exact nomatch hknown
    rw [aggregate_costTotal, aggregate_costMinor config capture hunits]
    simp [hunits]

/-- A further capture of the same key is added to the row. -/
theorem isFold_accumulate (config : Config) {captures : List UsageCapture}
    {row : OutboxRow} {old : UsageSummary} (capture : UsageCapture)
    (h : IsFold config (capture.key config) captures row.payload
      row.costTotalDecimal old) :
    IsFold config (capture.key config) (captures ++ [capture])
      (.usage (mergeSummary config old (aggregateUsage config capture)
        (cumulativeCost config row old (capture.units.map usdDecimal))))
      (cumulativeCost config row old (capture.units.map usdDecimal))
      (mergeSummary config old (aggregateUsage config capture)
        (cumulativeCost config row old (capture.units.map usdDecimal))) where
  shows := rfl
  attributed := by
    have hkey := h.attributed
    simp only [UsageCapture.key, UsageSummary.key, LedgerKey.mk.injEq] at hkey
    simp only [UsageCapture.key, UsageSummary.key, mergeSummary, hkey]
  counters := by
    rw [countersOf_append, ← h.counters]
    rfl
  known := by
    intro hknown
    obtain ⟨units, hunits⟩ :=
      Option.isSome_iff_exists.mp ((known_iff config capture).mp hknown)
    have hcost : cumulativeCost config row old
        (capture.units.map usdDecimal) =
          some (usdDecimal (unitsOf (captures ++ [capture]))) := by
      rw [unitsOf_append captures capture hunits, cumulativeCost,
        (h.known hknown).1, hunits]
      simp [addUsageCost, usdUnits, decimalUnits_usdDecimal]
    simp [hcost, mergeSummary, Amount.decimal]
  unknown := by
    intro hunknown
    obtain ⟨hcost, htotal, -⟩ := h.unknown hunknown
    -- nothing is added to an unknown cost
    have hnone : cumulativeCost config row old
        (capture.units.map usdDecimal) = none := by
      rw [cumulativeCost, hcost, htotal]
      rfl
    simp [hnone, mergeSummary]

/-- The captures filed under a summary id are those its row is the fold of. -/
def Entered (config : Config) (captures : List UsageCapture) :
    Option (Payload × Option String) → Prop
  | none => captures = []
  | some (payload, cost) =>
      captures ≠ [] ∧ ∃ key summary,
        (∀ capture ∈ captures, capture.key config = key) ∧
        IsFold config key captures payload cost summary

/-- What `upsertUsageSummary` leaves at its own id and at any other. -/
theorem bookAt_upsert (config : Config) (outbox : List OutboxRow)
    (summary : UsageSummary) (preciseCost : Option String) (now : Int)
    (id : String) :
    bookAt (upsertUsageSummary config outbox summary preciseCost now) id =
      if summary.summaryId = id then
        some (match lookup OutboxRow.key (.usage, id) outbox with
          | none => (.usage summary, recordedCost config summary preciseCost)
          | some row => (accumulateRow config summary
              (recordedCost config summary preciseCost) row).book)
      else bookAt outbox id := by
  by_cases hid : summary.summaryId = id
  · subst hid
    rw [if_pos rfl, bookAt, upsertUsageSummary]
    cases hold : lookup OutboxRow.key (.usage, summary.summaryId) outbox with
    | none => simp [lookup_append, hold, OutboxRow.key, Payload.kind,
        OutboxRow.book]
    | some row =>
        simp only
        rw [lookup_updateWhere OutboxRow.key _ _ _
          (accumulateRow_key config _ _), hold]
        simp [lookup_key hold]
  · rw [if_neg hid, bookAt, upsertUsageSummary]
    split
    · simp [lookup_append, OutboxRow.key, Payload.kind, hid, bookAt]
    · rw [lookup_updateWhere OutboxRow.key _ _ _
        (accumulateRow_key config _ _), bookAt]
      cases hold : lookup OutboxRow.key (.usage, id) outbox with
      | none => rfl
      | some row => simp [lookup_key hold, Ne.symm hid]

/-- The recorded captures that share a summary id. -/
def filed (config : Config) (id : String) (past : List Recorded) :
    List UsageCapture :=
  (past.map Recorded.capture).filter fun capture =>
    decide ((aggregateUsage config capture).summaryId = id)

variable {past : List Recorded} {ledger : Ledger} {key : LedgerKey}

/-- A capture is entered, provided the row of its id is a row of its key. -/
theorem entered_upsert (config : Config) {outbox : List OutboxRow}
    (recordId : Nat) (capture : UsageCapture) (now : Int)
    (hentered : ∀ id, Entered config (filed config id past)
      (bookAt outbox id))
    (hkey : ∀ row, lookup OutboxRow.key
        (.usage, (aggregateUsage config capture).summaryId) outbox = some row →
      row.ledgerKey = some (capture.key config)) (id : String) :
    Entered config (filed config id (past ++ [⟨recordId, capture⟩]))
      (bookAt (upsertUsageSummary config outbox
        (aggregateUsage config capture)
        ((measureWorkUsage capture.entries capture.pricing).bind
          (·.costTotal)) now) id) := by
  have hfiled : filed config id (past ++ [⟨recordId, capture⟩]) =
      filed config id past ++
        if (aggregateUsage config capture).summaryId = id then [capture]
        else [] := by
    simp only [filed, List.map_append, List.filter_append, List.map_cons,
      List.map_nil, List.filter_cons, List.filter_nil, decide_eq_true_eq]
  have hold := hentered id
  rw [hfiled, bookAt_upsert, recordedCost_eq]
  by_cases hid : (aggregateUsage config capture).summaryId = id
  · subst hid
    simp only [if_true]
    rw [bookAt] at hold
    cases hrow : lookup OutboxRow.key
        (.usage, (aggregateUsage config capture).summaryId) outbox with
    | none =>
        rw [hrow] at hold
        have hempty : filed config (aggregateUsage config capture).summaryId
          past = [] := hold
        rw [hempty]
        exact ⟨by simp, capture.key config, aggregateUsage config capture,
          by simp, isFold_first config capture⟩
    | some row =>
        rw [hrow] at hold
        obtain ⟨-, key, old, hsame, hfold⟩ := hold
        have hpayload : row.payload = .usage old := hfold.shows
        have hcapture : capture.key config = key := by
          have hrowKey := hkey row hrow
          simp only [OutboxRow.ledgerKey, hpayload,
            Option.some.injEq] at hrowKey
          rw [← hrowKey, hfold.attributed]
        subst hcapture
        refine ⟨by simp, capture.key config, _, ?_,
          by simpa [accumulateRow, hpayload, OutboxRow.book] using
            isFold_accumulate config capture hfold⟩
        intro other hother
        rcases List.mem_append.mp hother with hbefore | hlast
        · exact hsame other hbefore
        · rw [List.mem_singleton.mp hlast]
  · simpa [hid] using hold

/-! ### Whole runs -/

/-- The invariant of a run: the books are entered, and a record that was
recorded is no longer active. -/
structure LedgerInv (config : Config) (ledger : Ledger)
    (past : List Recorded) : Prop where
  linked : Linked ledger.usage
  fresh : ledger.repository.Drawn
  entered : ∀ id, Entered config (filed config id past)
    (bookAt ledger.usage.outbox id)
  once : (past.map Recorded.recordId).Nodup
  drawn : ∀ recorded ∈ past,
    recorded.recordId < ledger.repository.draws
  settled : ∀ recorded ∈ past, ∀ row ∈ ledger.repository.records,
    row.id = recorded.recordId → row.outcome ≠ .active

theorem ledgerInv_empty (config : Config) :
    LedgerInv config .empty [] where
  linked := linked_empty
  fresh := by simp [Repository.Drawn, Ledger.empty, Repository.empty]
  entered := fun _ => rfl
  once := List.nodup_nil
  drawn := by simp
  settled := by simp

/-- The counts of a capture are integers. -/
def UsageCapture.whole (capture : UsageCapture) : Bool :=
  ((assistants capture.entries).filterMap id).all fun usage =>
    [usage.input, usage.output, usage.cacheRead, usage.cacheWrite].all
      fun value => (finite value).isInt

/-- Counters a double holds to the last unit. -/
def Counters.safe (counters : Counters) : Bool :=
  ([counters.promptCount, counters.settledCount, counters.errorCount,
    counters.durationMsTotal, counters.runCount,
    counters.durationSecondsTotal].all fun count => count ≤ maxSafeInteger) &&
  [counters.inputTokens, counters.outputTokens, counters.cacheTokens,
    counters.tokenTotal].all fun count => count ≤ maxSafeInteger

def Payload.counters : Payload → Counters
  | .usage summary => summary.counters
  | .segmentOutcome _ => 0

/-- A finishing record never shares its summary id with a row of another key,
its counts are integers, and the row's counters stay safe integers. -/
def Attributed (config : Config) (ledger : Ledger) : LedgerAction → Prop
  | .finish recordId owner _ (some capture) _ =>
      ∀ record ∈ ledger.repository.get recordId owner,
        record.outcome = .active →
        Repository.summaryMatches record (aggregateUsage config capture) →
        (capture.whole ∧ (aggregateUsage config capture).counters.safe) ∧
        ∀ row ∈ ledger.usage.outbox,
          row.key = (.usage, (aggregateUsage config capture).summaryId) →
          row.ledgerKey = some (capture.key config) ∧
            (row.payload.counters +
              (aggregateUsage config capture).counters).safe
  | _ => True

instance (config : Config) (ledger : Ledger) (action : LedgerAction) :
    Decidable (Attributed config ledger action) := by
  unfold Attributed
  split <;> infer_instance

/-- A step that records nothing and keeps the books. -/
theorem LedgerInv.quiet {config : Config} (h : LedgerInv config ledger past)
    {repository : Repository} {usage : World}
    (hrepository : Repository.KeepsSettled ledger.repository repository)
    (hlinked : Linked usage)
    (hbooks : SameBooks ledger.usage.outbox usage.outbox) :
    LedgerInv config ⟨repository, usage⟩ past where
  linked := hlinked
  fresh := hrepository.drawn h.fresh
  entered := fun id => by
    rw [hbooks id]
    exact h.entered id
  once := h.once
  drawn := fun recorded hrecorded =>
    Nat.lt_of_lt_of_le (h.drawn recorded hrecorded) hrepository.draws
  settled := by
    intro recorded hrecorded row hrow hid hactive
    rcases hrepository.active row hrow hactive with hnew | hold
    · have hdrawn := h.drawn recorded hrecorded
      omega
    · exact h.settled recorded hrecorded row hold hid hactive

theorem LedgerInv.repository {config : Config}
    (h : LedgerInv config ledger past) {repository : Repository}
    (hrepository : Repository.KeepsSettled ledger.repository repository) :
    LedgerInv config { ledger with repository } past :=
  h.quiet hrepository h.linked fun _ => rfl

theorem LedgerInv.usage {config : Config} (h : LedgerInv config ledger past)
    (action : Action)
    (haction : ∀ capture now, action ≠ .accumulate capture now) :
    LedgerInv config
      { ledger with usage := stepWorld config ledger.usage action } past :=
  h.quiet (.refl _) (linked_step config h.linked action)
    (sameBooks_step config ledger.usage action haction)

/-- A committed finish with a capture records an id that was not recorded
before, and enters its capture. -/
theorem LedgerInv.record {config : Config} (h : LedgerInv config ledger past)
    {recordId : Nat} {owner : WorkOwner} {record : WorkRecordRow}
    (finish : WorkFinish) (capture : UsageCapture) (now : Int)
    (hrecord : ledger.repository.get recordId owner = some record)
    (hactive : record.outcome = .active)
    (hkey : ∀ row ∈ ledger.usage.outbox,
      row.key = (.usage, (aggregateUsage config capture).summaryId) →
      row.ledgerKey = some (capture.key config)) :
    LedgerInv config
      ⟨ledger.repository.update record (Repository.finishRow finish),
        stepWorld config ledger.usage (.accumulate capture now)⟩
      (past ++ [⟨recordId, capture⟩]) := by
  obtain ⟨hmem, hid, -⟩ := Repository.get_eq_some hrecord
  have hkeeps := Repository.keepsSettled_update ledger.repository record
    (Repository.finishRow finish) (fun _ => rfl)
    fun _ => Repository.FinalOutcome.toOutcome_ne_active finish.outcome
  have hbefore := h.repository hkeeps
  -- the record is active, and no recorded one is
  have hother : ∀ recorded ∈ past, recorded.recordId ≠ recordId := by
    intro recorded hrecorded heq
    exact h.settled recorded hrecorded record hmem (hid.trans heq.symm)
      hactive
  constructor
  case linked => exact linked_step config h.linked (.accumulate capture now)
  case fresh => exact hbefore.fresh
  case entered =>
    exact entered_upsert config recordId capture now h.entered
      fun row hrow => hkey row (lookup_mem hrow) (lookup_key hrow)
  case once =>
    rw [List.map_append, List.nodup_append]
    refine ⟨h.once, by simp, ?_⟩
    intro left hleft right hright
    obtain ⟨recorded, hrecorded, rfl⟩ := List.mem_map.mp hleft
    rw [List.mem_singleton.mp hright]
    exact hother recorded hrecorded
  case drawn =>
    intro recorded hrecorded
    rcases List.mem_append.mp hrecorded with hpast | hlast
    · exact hbefore.drawn recorded hpast
    · rw [List.mem_singleton.mp hlast, ← hid]
      exact h.fresh record hmem
  case settled =>
    intro recorded hrecorded row hrow hrowId
    rcases List.mem_append.mp hrecorded with hpast | hlast
    · exact hbefore.settled recorded hpast row hrow hrowId
    · rw [List.mem_singleton.mp hlast] at hrowId
      obtain ⟨old, hold, rfl⟩ := List.mem_map.mp hrow
      split
      · exact Repository.FinalOutcome.toOutcome_ne_active finish.outcome
      · next hne =>
          simp only [hne] at hrowId
          exact absurd (decide_eq_true (hrowId.trans hid.symm)) hne

theorem ledgerInv_step (config : Config) (h : LedgerInv config ledger past)
    (action : LedgerAction) (hallowed : Attributed config ledger action) :
    LedgerInv config ((ledgerMachine config).next ledger action)
      (past ++ (ledgerMachine config).emit ledger action) := by
  -- every step but a recorded finish emits nothing
  have hquiet : ∀ {ledger' : Ledger}, LedgerInv config ledger' past →
      LedgerInv config ledger' (past ++ []) := by
    intro ledger' h'
    rwa [List.append_nil]
  cases action with
  | saveConversation conversation =>
      exact hquiet (h.repository ⟨Nat.le_refl _, fun h => h,
        fun _ hrow _ => .inr hrow⟩)
  | start input =>
      simp only [Machine.next, Machine.emit, ledgerMachine, stepLedger]
      split
      · next hstart =>
          exact hquiet (h.repository (Repository.keepsSettled_start hstart))
      · exact hquiet h
  | finish recordId owner finish capture now =>
      simp only [Machine.next, Machine.emit, ledgerMachine, stepLedger,
        finishWork]
      split
      · next repository hfinish =>
          obtain ⟨record, hrecord, hactive, hsummary, rfl⟩ :=
            Repository.finish_committed hfinish
          cases capture with
          | none =>
              exact hquiet (h.repository (Repository.keepsSettled_update _ _
                (Repository.finishRow _) (fun _ => rfl) fun _ =>
                  Repository.FinalOutcome.toOutcome_ne_active finish.outcome))
          | some capture =>
              have hattributed :=
                (hallowed record hrecord hactive hsummary).2
              exact h.record _ capture now hrecord hactive
                fun row hrow hkey => (hattributed row hrow hkey).1
      · exact hquiet h
  | importHistory input segments now =>
      simp only [Machine.next, Machine.emit, ledgerMachine, stepLedger]
      split
      · next himport =>
          obtain ⟨pending, hpending⟩ := Repository.importHistory_ok himport
          exact hquiet (h.repository
            (Repository.keepsSettled_insertSegments _ _ _ hpending))
      · exact hquiet h
  | deleteConversation conversationId tenantId memberId =>
      exact hquiet (h.repository
        (Repository.keepsSettled_deleteConversation _ _ _ _))
  | publish summary now => exact hquiet (h.usage _ (by simp))
  | flush caller limit outcomes => exact hquiet (h.usage _ (by simp))
  | arrive upload verdict granted => exact hquiet (h.usage _ (by simp))
  | answer upload => exact hquiet (h.usage _ (by simp))
  | giveUp upload error => exact hquiet (h.usage _ (by simp))
  | restart now =>
      exact hquiet (h.quiet (Repository.keepsSettled_restart _ now)
        (linked_step config h.linked .restart)
        (sameBooks_step config _ .restart (by simp)))

/-! ### Conservation -/

theorem IsFold.perm {config : Config} {captures order : List UsageCapture}
    {payload : Payload} {cost : Option String} {summary : UsageSummary}
    (h : IsFold config key captures payload cost summary)
    (hperm : order.Perm captures) :
    IsFold config key order payload cost summary := by
  have hcounters : countersOf config order = countersOf config captures :=
    (hperm.map _).sum_eq
  have hunits : unitsOf order = unitsOf captures :=
    (hperm.filterMap _).sum_eq
  exact ⟨h.shows, h.attributed, hcounters ▸ h.counters, hunits ▸ h.known,
    h.unknown⟩

/-- A usage row is the fold of the captures filed under its id, and these have
its key. -/
theorem LedgerInv.row {config : Config} (h : LedgerInv config ledger past)
    {row : OutboxRow} (hrow : row ∈ ledger.usage.outbox)
    (hkey : row.ledgerKey = some key) :
    filed config row.summaryId past ≠ [] ∧
      (∀ capture ∈ filed config row.summaryId past,
        capture.key config = key) ∧
      ∃ summary, IsFold config key (filed config row.summaryId past)
        row.payload row.costTotalDecimal summary := by
  cases hpayload : row.payload with
  | segmentOutcome summary => simp [OutboxRow.ledgerKey, hpayload] at hkey
  | usage summary =>
      have hkeyed := h.linked.keyed row hrow
      simp only [OutboxRow.key, hpayload, Payload.kind] at hkeyed
      have hentered := h.entered row.summaryId
      rw [bookAt, hkeyed] at hentered
      obtain ⟨hne, key', summary', hsame, hfold⟩ := hentered
      have hshown : summary' = summary := by
        have hshows : row.payload = .usage summary' := hfold.shows
        rw [hpayload] at hshows
        exact (Payload.usage.inj hshows).symm
      have heq : key' = key := by
        simp only [OutboxRow.ledgerKey, hpayload, Option.some.injEq] at hkey
        rw [← hfold.attributed, hshown, hkey]
      subst heq
      exact ⟨hne, hsame, summary', hpayload ▸ hfold⟩

/-- Captures of one key share their id, so a key has at most one row. -/
theorem filed_eq_contributions {config : Config} {id : String}
    (hne : filed config id past ≠ [])
    (hsame : ∀ capture ∈ filed config id past, capture.key config = key) :
    id = config.sha256 key.text ∧
      filed config id past = contributions config key past := by
  obtain ⟨first, hfirst⟩ := List.exists_mem_of_ne_nil _ hne
  have hid : id = config.sha256 key.text := by
    rw [← hsame first hfirst, ← aggregate_summaryId]
    exact (of_decide_eq_true (List.mem_filter.mp hfirst).2).symm
  refine ⟨hid, List.filter_congr fun capture hcapture => ?_⟩
  rw [decide_eq_decide]
  constructor
  · intro hcaptureId
    exact hsame capture
      (List.mem_filter.mpr ⟨hcapture, decide_eq_true hcaptureId⟩)
  · intro hcaptureKey
    rw [aggregate_summaryId, hcaptureKey, hid]

theorem LedgerInv.conserved {config : Config}
    (h : LedgerInv config ledger past) : Conserved config ledger past := by
  refine ⟨h.once, fun key => ?_⟩
  by_cases hempty : contributions config key past = []
  · refine .inl ⟨hempty, List.filter_eq_nil_iff.mpr fun row hrow hkey => ?_⟩
    obtain ⟨hne, hsame, -⟩ := h.row hrow (of_decide_eq_true hkey)
    exact hne ((filed_eq_contributions hne hsame).2.trans hempty)
  · right
    obtain ⟨capture, hcapture⟩ := List.exists_mem_of_ne_nil _ hempty
    obtain ⟨hmem, hcaptureKey⟩ := List.mem_filter.mp hcapture
    have hcaptureKey := of_decide_eq_true hcaptureKey
    -- the capture is filed, so its id has a row
    have hfiled : capture ∈ filed config (config.sha256 key.text) past := by
      refine List.mem_filter.mpr ⟨hmem, decide_eq_true ?_⟩
      rw [aggregate_summaryId, hcaptureKey]
    have hentered := h.entered (config.sha256 key.text)
    cases hrow : lookup OutboxRow.key (.usage, config.sha256 key.text)
        ledger.usage.outbox with
    | none =>
        rw [bookAt, hrow] at hentered
        have hnone : filed config (config.sha256 key.text) past = [] :=
          hentered
        rw [hnone] at hfiled
        exact absurd hfiled List.not_mem_nil
    | some row =>
        rw [bookAt, hrow] at hentered
        obtain ⟨-, key', summary, hsame, hfold⟩ := hentered
        have hrowKey : row.ledgerKey = some key := by
          have hshows : row.payload = .usage summary := hfold.shows
          simp only [OutboxRow.ledgerKey, hshows, Option.some.injEq]
          rw [hfold.attributed, ← hsame capture hfiled, hcaptureKey]
        have hrowMem := lookup_mem hrow
        obtain ⟨hne, hrowSame, summary', hrowFold⟩ := h.row hrowMem hrowKey
        rw [(filed_eq_contributions hne hrowSame).2] at hrowFold
        refine ⟨hempty, row,
          List.mem_filter.mpr ⟨hrowMem, decide_eq_true hrowKey⟩, ?_,
          fun order hperm => ⟨summary', hrowFold.perm hperm⟩⟩
        intro other hother
        obtain ⟨hotherMem, hotherKey⟩ := List.mem_filter.mp hother
        have hotherKey := of_decide_eq_true hotherKey
        obtain ⟨hne', hsame', -⟩ := h.row hotherMem hotherKey
        refine h.linked.keyed.eq_of_key hotherMem hrowMem ?_
        rw [lookup_key hrow, OutboxRow.key,
          (filed_eq_contributions hne' hsame').1]
        have hkind : other.payload.kind = .usage := by
          cases hpayload : other.payload with
          | usage _ => rfl
          | segmentOutcome _ =>
              simp [OutboxRow.ledgerKey, hpayload] at hotherKey
        rw [hkind]

theorem usage_ledger_conserved (config : Config)
    (actions : List LedgerAction)
    (hrun : (ledgerMachine config).Admissible (Attributed config)
      Ledger.empty actions) :
    Conserved config ((ledgerMachine config).run Ledger.empty actions)
      ((ledgerMachine config).trace Ledger.empty actions) := by
  have hinv := (ledgerMachine config).invariant_from (LedgerInv config)
    (fun _ _ action h hallowed => ledgerInv_step config h action hallowed)
    actions (ledgerInv_empty config) hrun
  rw [List.nil_append] at hinv
  exact hinv.conserved

namespace ConservationWitness

/-- Texts in place of their hashes; the runs below stay in the first hour of
1970. -/
def config : Config where
  sha256 := id
  toISOString := fun instant =>
    if instant = 0 then "1970-01-01T00:00:00.000Z"
    else "1970-01-01T01:00:00.000Z"
  toFixed := some
  roundedMinor := fun _ => 0

def capture (tenantId memberId : String) : UsageCapture where
  tenantId := tenantId
  memberId := memberId
  employeeId := "employee"
  startedAt := 0
  endedAt := 1000
  entries := [.assistant (some ⟨some 10, some 5, some 0, some 0⟩)]
  settled := true
  pricing := some
    { pricingVersion := 1, pricingStatus := .known, billingMode := .token
      inputUsdPerMillion := some "3", outputUsdPerMillion := some "15"
      cacheReadUsdPerMillion := some "0.3"
      cacheWriteUsdPerMillion := some "3.75", requestUsd := none
      currency := "USD" }

def succeeded : WorkFinish where
  outcome := .succeeded
  endedAt := 1000
  endOrdinal := 2
  firstEntryId := none
  lastEntryId := none
  firstEntryAt := none
  lastEntryAt := none
  usage := none

def begin (conversationId tenantId memberId : String) : List LedgerAction :=
  [.saveConversation ⟨conversationId, some tenantId, some memberId⟩,
    .start ⟨⟨tenantId, memberId⟩, "employee", conversationId, 0, 0, none⟩]

def finish (recordId : Nat) (tenantId memberId : String) : LedgerAction :=
  .finish recordId ⟨tenantId, memberId⟩ succeeded
    (some (capture tenantId memberId)) 1000

/-- Two records of one member, the first finished twice and claimed in
between, then a restart and the deletion of the conversation. -/
def busyRun : List LedgerAction :=
  begin "c" "tenant" "member" ++ begin "c" "tenant" "member" ++
    [finish 0 "tenant" "member", finish 0 "tenant" "member",
      .flush ⟨"tenant", "member"⟩ 50 false, finish 1 "tenant" "member",
      .restart 2000, .deleteConversation "c" none none]

/-- Two owners whose ids join to one text. -/
def collidingRun : List LedgerAction :=
  begin "c1" "tenant:a" "member" ++ begin "c2" "tenant" "a:member" ++
    [finish 0 "tenant:a" "member", finish 1 "tenant" "a:member"]

end ConservationWitness

open ConservationWitness in
theorem usage_ledger_conserved_busyRun :
    (contributions config ((capture "tenant" "member").key config)
      ((ledgerMachine config).trace Ledger.empty busyRun)).length = 2 ∧
    Conserved config ((ledgerMachine config).run Ledger.empty busyRun)
      ((ledgerMachine config).trace Ledger.empty busyRun) :=
  ⟨by decide, usage_ledger_conserved config busyRun (by decide +kernel)⟩

open ConservationWitness in
/-- The second owner's usage is added to the row of the first. -/
theorem colliding_owners_share_a_row :
    ¬ ∀ (config : Config) (actions : List LedgerAction),
      Conserved config ((ledgerMachine config).run Ledger.empty actions)
        ((ledgerMachine config).trace Ledger.empty actions) := by
  intro h
  have hnone : ((ledgerMachine config).run Ledger.empty
      collidingRun).usage.outbox.filter (fun row => row.ledgerKey =
        some ((capture "tenant:a" "member").key config)) = [] := by
    decide
  have hbooks := (h config collidingRun).2
    ((capture "tenant:a" "member").key config)
  rw [hnone] at hbooks
  rcases hbooks with ⟨hempty, -⟩ | ⟨-, row, hrow, -⟩
  · revert hempty
    decide
  · exact absurd hrow List.not_mem_nil

end AiTeam.Usage
