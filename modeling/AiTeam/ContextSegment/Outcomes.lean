/-
The outcome rows of the outbox: along every run in which no two employee hours
share a summary id, the row of an employee hour shows the counts of the
segments table, and an hour without a row has no verdict.
-/
import AiTeam.ContextSegment.Service

namespace AiTeam.ContextSegment

open Usage (Config OutboxRow SegmentOutcomeSummary stepWorld
  publishSegmentOutcome replaceOutcome replaceOutcome_key Linked linked_empty
  linked_step Rewrites rewrites_step)

/-! ### The law -/

/-- The payload names the owner, the employee and the hour of the key. -/
def OutcomeKey.names (config : Config) (key : OutcomeKey)
    (row : OutboxRow) : Bool :=
  match row.payload with
  | .usage _ => false
  | .segmentOutcome summary =>
      summary.tenantId = key.owner.tenantId &&
      summary.memberId = key.owner.memberId &&
      summary.employeeId = key.employeeId &&
      summary.windowStart = config.toISOString (key.hour * hourMs : Nat)

/-- An employee hour has at most one outcome row; the row shows the counts of
the table, and without a row nothing is evaluated. -/
def Tallied (config : Config) (state : State) : Prop :=
  ∀ key : OutcomeKey,
    let counts := key.counts state.segments
    let rows := state.usage.outbox.filter (key.names config)
    counts.resolved ≤ counts.evaluated ∧
      ((rows = [] ∧ counts.evaluated = 0) ∨
        ∃ row ∈ rows, (∀ other ∈ rows, other = row) ∧
          row.payload = .segmentOutcome (key.summary config counts))

def OutcomeKey.summaryId (config : Config) (key : OutcomeKey) : String :=
  (key.summary config ⟨0, 0⟩).summaryId

/-- A published bucket shares its summary id neither with a stored row of
another employee hour nor with another bucket of the operation. -/
def Unshared (config : Config) (state : State) (action : Action) : Prop :=
  ∀ changed ∈ change state action, ∀ bucket ∈ changed.buckets,
    (∀ row ∈ state.usage.outbox,
      row.key = (.segmentOutcome,
        (bucket.key changed.owner).summaryId config) →
      (bucket.key changed.owner).names config row = true) ∧
    ∀ other ∈ changed.buckets,
      (other.key changed.owner).summaryId config =
        (bucket.key changed.owner).summaryId config → other = bucket

instance (config : Config) (state : State) (action : Action) :
    Decidable (Unshared config state action) :=
  inferInstanceAs (Decidable (∀ changed ∈ change state action, _))

/-! ### Publishing -/

variable {row : OutboxRow} {counts : Counts} {state : State}

section

variable {config : Config} {rows : List SegmentRow}
  {outbox outbox' : List OutboxRow} {stale : OutcomeKey → Prop}

/-- The outcome rows show the counts of the table, apart from the stale
keys. -/
structure Posted (config : Config) (rows : List SegmentRow)
    (stale : OutcomeKey → Prop) (outbox : List OutboxRow) : Prop where
  shown : ∀ row ∈ outbox, ∀ summary, row.payload = .segmentOutcome summary →
    ∃ (key : OutcomeKey) (counts : Counts),
      row.summaryId = key.summaryId config ∧
      summary = key.summary config counts ∧
      (counts = key.counts rows ∨ stale key)
  stored : ∀ key : OutcomeKey, 0 < (key.counts rows).evaluated →
    stale key ∨ ∃ row ∈ outbox, row.payload =
      .segmentOutcome (key.summary config (key.counts rows))

theorem Posted.rewrite (h : Posted config rows stale outbox)
    (hrewrites : Rewrites outbox outbox') :
    Posted config rows stale outbox' := by
  obtain ⟨change, rfl, hkeeps⟩ := hrewrites
  constructor
  · intro row' hrow' summary hpayload
    obtain ⟨row, hrow, rfl⟩ := List.mem_map.mp hrow'
    rw [(hkeeps row).2.1] at hpayload
    rw [(hkeeps row).1]
    exact h.shown row hrow summary hpayload
  · intro key hevaluated
    rcases h.stored key hevaluated with hstale | ⟨row, hrow, hpayload⟩
    · exact Or.inl hstale
    · right
      refine ⟨change row, List.mem_map_of_mem hrow, ?_⟩
      rw [(hkeeps row).2.1, hpayload]

/-- After an operation the keys of its buckets are stale. -/
theorem Posted.change (h : Posted config rows (fun _ => False) outbox)
    {changed : Change} (hchanged : changed.Notifies rows) :
    Posted config changed.rows (fun key => ∃ bucket ∈ changed.buckets,
      bucket.key changed.owner = key) outbox := by
  constructor
  · intro row hrow summary hpayload
    obtain ⟨key, counts, hid, hsummary, hcounts⟩ :=
      h.shown row hrow summary hpayload
    refine ⟨key, counts, hid, hsummary, ?_⟩
    rcases hcounts with rfl | hfalse
    · rcases hchanged.moved key with hsame | hstale
      · exact Or.inl hsame.symm
      · exact Or.inr hstale
    · exact hfalse.elim
  · intro key hevaluated
    rcases hchanged.moved key with hsame | hstale
    · rw [hsame] at hevaluated ⊢
      rcases h.stored key hevaluated with hfalse | hrow
      · exact hfalse.elim
      · exact Or.inr hrow
    · exact Or.inl hstale

/-- What publishing a summary does: its row shows it, other rows stay. -/
structure Publishes (outbox outbox' : List OutboxRow)
    (summary : SegmentOutcomeSummary) : Prop where
  old : ∀ row ∈ outbox', row.key ≠ (.segmentOutcome, summary.summaryId) →
    row ∈ outbox
  own : ∀ row ∈ outbox', row.key = (.segmentOutcome, summary.summaryId) →
    row.payload = .segmentOutcome summary
  kept : ∀ row ∈ outbox, row.key ≠ (.segmentOutcome, summary.summaryId) →
    row ∈ outbox'
  stored : 0 < summary.evaluatedCount →
    ∃ row ∈ outbox', row.payload = .segmentOutcome summary

theorem replaceOutcome_payload {summary : SegmentOutcomeSummary}
    (hkey : row.key = (.segmentOutcome, summary.summaryId)) :
    (replaceOutcome summary row).payload = .segmentOutcome summary := by
  cases hpayload : row.payload with
  | segmentOutcome old => simp [replaceOutcome, hpayload]
  | usage old =>
      have hkind := congrArg Prod.fst hkey
      rw [OutboxRow.key, hpayload] at hkind
      cases hkind

theorem publishes (hkeyed : Keyed OutboxRow.key outbox)
    (summary : SegmentOutcomeSummary) (now : Int) :
    Publishes outbox (publishSegmentOutcome outbox summary now) summary := by
  rw [publishSegmentOutcome]
  cases hlookup : lookup OutboxRow.key (.segmentOutcome, summary.summaryId)
      outbox with
  | some found =>
      have hmem : ∀ row' ∈ updateWhere (fun row => decide (row.key =
          (Usage.Kind.segmentOutcome, summary.summaryId)))
          (replaceOutcome summary) outbox, ∃ row ∈ outbox,
            (row.key ≠ (.segmentOutcome, summary.summaryId) ∧ row' = row) ∨
            (row.key = (.segmentOutcome, summary.summaryId) ∧
              row' = replaceOutcome summary row) := by
        intro row' hrow'
        obtain ⟨row, hrow, rfl⟩ := List.mem_map.mp hrow'
        refine ⟨row, hrow, ?_⟩
        by_cases hkey : row.key = (.segmentOutcome, summary.summaryId)
        · exact Or.inr ⟨hkey, by simp [hkey]⟩
        · exact Or.inl ⟨hkey, by simp [hkey]⟩
      have hfound := lookup_mem hlookup
      constructor
      · intro row' hrow' hkey
        obtain ⟨row, hrow, ⟨-, rfl⟩ | ⟨hown, rfl⟩⟩ := hmem row' hrow'
        · exact hrow
        · rw [replaceOutcome_key] at hkey
          exact absurd hown hkey
      · intro row' hrow' hkey
        obtain ⟨row, hrow, ⟨hother, rfl⟩ | ⟨hown, rfl⟩⟩ := hmem row' hrow'
        · exact absurd hkey hother
        · exact replaceOutcome_payload hown
      · intro row hrow hkey
        refine List.mem_map.mpr ⟨row, hrow, ?_⟩
        rw [if_neg (by simpa using hkey)]
      · intro _
        refine ⟨replaceOutcome summary found,
          List.mem_map.mpr ⟨found, hfound, ?_⟩,
          replaceOutcome_payload (lookup_key hlookup)⟩
        rw [if_pos (by simpa using lookup_key hlookup)]
  | none =>
      have hnone : ∀ row ∈ outbox,
          row.key ≠ (.segmentOutcome, summary.summaryId) := by
        intro row hrow hkey
        have hfound := hkeyed row hrow
        rw [hkey, hlookup] at hfound
        cases hfound
      simp only
      split
      · next hzero =>
          constructor
          · exact fun row hrow _ => hrow
          · exact fun row hrow hkey => absurd hkey (hnone row hrow)
          · exact fun row hrow _ => hrow
          · intro hpos
            omega
      · constructor
        · intro row hrow hkey
          rcases List.mem_append.mp hrow with hold | hnew
          · exact hold
          · rw [List.mem_singleton.mp hnew] at hkey
            exact absurd rfl hkey
        · intro row hrow hkey
          rcases List.mem_append.mp hrow with hold | hnew
          · exact absurd hkey (hnone row hold)
          · rw [List.mem_singleton.mp hnew]
        · exact fun row hrow _ => List.mem_append_left _ hrow
        · exact fun _ => ⟨_, List.mem_append_right _ List.mem_cons_self, rfl⟩

/-! ### Names -/

theorem OutcomeKey.names_self (key : OutcomeKey)
    (hpayload : row.payload = .segmentOutcome (key.summary config counts)) :
    key.names config row = true := by
  simp [OutcomeKey.names, hpayload, OutcomeKey.summary, segmentOutcomeSummary,
    hourStart_mul]

/-- A payload names one key. -/
theorem OutcomeKey.names_inj (hiso : Function.Injective config.toISOString)
    {key other : OutcomeKey}
    (hpayload : row.payload = .segmentOutcome (other.summary config counts))
    (h : key.names config row = true) : other = key := by
  simp only [OutcomeKey.names, hpayload, OutcomeKey.summary,
    segmentOutcomeSummary, hourStart_mul, Bool.and_eq_true,
    decide_eq_true_eq] at h
  obtain ⟨⟨⟨htenant, hmember⟩, hemployee⟩, hwindow⟩ := h
  have hhour : other.hour = key.hour := by
    have hstarts : other.hour * hourMs = key.hour * hourMs :=
      Int.ofNat.inj (hiso hwindow)
    have hpos : 0 < hourMs := by decide
    exact Nat.eq_of_mul_eq_mul_right hpos hstarts
  obtain ⟨⟨otherTenant, otherMember⟩, otherEmployee, otherHour⟩ := other
  obtain ⟨⟨tenant, member⟩, employee, hour⟩ := key
  simp only at htenant hmember hemployee hhour
  subst htenant hmember hemployee hhour
  rfl

theorem OutcomeKey.summary_summaryId (key : OutcomeKey) (counts : Counts) :
    (key.summary config counts).summaryId = key.summaryId config := rfl

/-- The summary published for a bucket is that of its key. -/
theorem SegmentOutcomeBucket.key_summary (config : Config)
    (rows : List SegmentRow) {bucket : SegmentOutcomeBucket}
    (haligned : bucket.hourStart / hourMs * hourMs = bucket.hourStart)
    (owner : SegmentOwner) :
    segmentOutcomeSummary config owner bucket.employeeId bucket.hourStart
        (hourlyCounts rows owner bucket.employeeId bucket.hourStart) =
      (bucket.key owner).summary config ((bucket.key owner).counts rows) := by
  rw [OutcomeKey.summary, OutcomeKey.counts, SegmentOutcomeBucket.key,
    haligned]

theorem OutboxRow.key_of_payload {summary : SegmentOutcomeSummary}
    (h : row.payload = .segmentOutcome summary) :
    row.key = (.segmentOutcome, row.summaryId) := by
  rw [OutboxRow.key, h, Usage.Payload.kind]

/-! ### The buckets in turn -/

/-- The ids of the buckets still to be published belong to their keys. -/
structure Clear (config : Config) (owner : SegmentOwner)
    (buckets : List SegmentOutcomeBucket) (outbox : List OutboxRow) :
    Prop where
  aligned : ∀ bucket ∈ buckets,
    bucket.hourStart / hourMs * hourMs = bucket.hourStart
  rows : ∀ bucket ∈ buckets, ∀ row ∈ outbox,
    row.key = (.segmentOutcome, (bucket.key owner).summaryId config) →
      (bucket.key owner).names config row = true
  others : ∀ bucket ∈ buckets, ∀ other ∈ buckets,
    (other.key owner).summaryId config =
      (bucket.key owner).summaryId config → other = bucket

variable {owner : SegmentOwner} {bucket : SegmentOutcomeBucket}
  {rest : List SegmentOutcomeBucket}

theorem Clear.publish (h : Clear config owner (bucket :: rest) outbox)
    (hpublishes : Publishes outbox outbox'
      ((bucket.key owner).summary config counts)) :
    Clear config owner rest outbox' := by
  constructor
  · exact fun other hother => h.aligned other (List.mem_cons_of_mem _ hother)
  · intro other hother row hrow hkey
    have hmem := List.mem_cons_of_mem bucket hother
    by_cases hid : (other.key owner).summaryId config =
        (bucket.key owner).summaryId config
    · obtain rfl := h.others bucket List.mem_cons_self other hmem hid
      exact (other.key owner).names_self (hpublishes.own row hrow hkey)
    · have hold : row ∈ outbox := by
        apply hpublishes.old row hrow
        rw [hkey, OutcomeKey.summary_summaryId]
        exact fun hsame => hid (Prod.mk.inj hsame).2
      exact h.rows other hmem row hold hkey
  · intro other hother another hanother
    exact h.others other (List.mem_cons_of_mem _ hother) another
      (List.mem_cons_of_mem _ hanother)

/-- One bucket is published: its key is stale no more. -/
theorem Posted.publish (hiso : Function.Injective config.toISOString)
    (h : Posted config rows (fun key => ∃ other ∈ bucket :: rest,
      other.key owner = key) outbox)
    (hclear : Clear config owner (bucket :: rest) outbox)
    (hpublishes : Publishes outbox outbox' ((bucket.key owner).summary config
      ((bucket.key owner).counts rows))) :
    Posted config rows (fun key => ∃ other ∈ rest, other.key owner = key)
      outbox' := by
  constructor
  · intro row hrow summary hpayload
    by_cases hkey : row.key = (.segmentOutcome,
        (bucket.key owner).summaryId config)
    · have hown := hpublishes.own row hrow hkey
      refine ⟨bucket.key owner, _, (Prod.mk.inj hkey).2, ?_, Or.inl rfl⟩
      exact Usage.Payload.segmentOutcome.inj (hpayload.symm.trans hown)
    · have hold := hpublishes.old row hrow hkey
      obtain ⟨key, counts, hid, hsummary, hcounts⟩ :=
        h.shown row hold summary hpayload
      refine ⟨key, counts, hid, hsummary, ?_⟩
      rcases hcounts with hcounts | ⟨other, hother, rfl⟩
      · exact Or.inl hcounts
      · rcases List.mem_cons.mp hother with rfl | hrest
        · rw [OutboxRow.key_of_payload hpayload, hid] at hkey
          exact absurd rfl hkey
        · exact Or.inr ⟨other, hrest, rfl⟩
  · intro key hevaluated
    rcases h.stored key hevaluated with ⟨other, hother, rfl⟩ |
      ⟨row, hrow, hpayload⟩
    · rcases List.mem_cons.mp hother with rfl | hrest
      · exact Or.inr (hpublishes.stored hevaluated)
      · exact Or.inl ⟨other, hrest, rfl⟩
    · by_cases hkey : row.key = (.segmentOutcome,
          (bucket.key owner).summaryId config)
      · have hnames := hclear.rows bucket List.mem_cons_self row hrow hkey
        obtain rfl := OutcomeKey.names_inj hiso hpayload hnames
        exact Or.inr (hpublishes.stored hevaluated)
      · exact Or.inr ⟨row, hpublishes.kept row hrow hkey, hpayload⟩

theorem publishSegmentOutcome_linked (config : Config) {world : Usage.World}
    (h : Linked world) (summary : SegmentOutcomeSummary) (now : Int) :
    Linked { world with
      outbox := publishSegmentOutcome world.outbox summary now } :=
  linked_step config h (.publish summary now)

/-- All buckets are published in turn. -/
theorem Posted.publishAll (hiso : Function.Injective config.toISOString)
    (owner : SegmentOwner) (now : Int) (buckets : List SegmentOutcomeBucket)
    {world : Usage.World} (hlinked : Linked world)
    (h : Posted config rows (fun key => ∃ bucket ∈ buckets,
      bucket.key owner = key) world.outbox)
    (hclear : Clear config owner buckets world.outbox) :
    let outbox := publishSegmentOutcomes config rows owner now buckets
      world.outbox
    Linked { world with outbox } ∧
      Posted config rows (fun _ => False) outbox := by
  induction buckets generalizing world with
  | nil =>
      refine ⟨hlinked, ?_, ?_⟩
      · intro row hrow summary hpayload
        obtain ⟨key, counts, hid, hsummary, hcounts | ⟨_, hmem, _⟩⟩ :=
          h.shown row hrow summary hpayload
        · exact ⟨key, counts, hid, hsummary, Or.inl hcounts⟩
        · cases hmem
      · intro key hevaluated
        rcases h.stored key hevaluated with ⟨_, hmem, _⟩ | hrow
        · cases hmem
        · exact Or.inr hrow
  | cons bucket rest ih =>
      have haligned := hclear.aligned bucket List.mem_cons_self
      have hsummary :=
        SegmentOutcomeBucket.key_summary config rows haligned owner
      have hpublishes := publishes hlinked.keyed ((bucket.key owner).summary
        config ((bucket.key owner).counts rows)) now
      rw [publishSegmentOutcomes, hsummary]
      exact ih (publishSegmentOutcome_linked config hlinked _ now)
        (h.publish hiso hclear hpublishes) (hclear.publish hpublishes)

end

/-! ### Whole runs -/

structure Inv (config : Config) (state : State) : Prop where
  keyed : Keyed SegmentRow.key state.segments
  linked : Linked state.usage
  posted : Posted config state.segments (fun _ => False) state.usage.outbox

theorem inv_empty (config : Config) : Inv config .empty where
  keyed := Keyed.nil _
  linked := linked_empty
  posted := by
    constructor
    · intro row hrow
      cases hrow
    · intro key hevaluated
      cases hevaluated

theorem Inv.commit {config : Config}
    (hiso : Function.Injective config.toISOString) (h : Inv config state)
    {action : Action} (hunshared : Unshared config state action) (now : Int) :
    Inv config (commit config state (change state action) now) := by
  cases hchange : change state action with
  | none => exact h
  | some changed =>
      have hnotifies := change_notifies h.keyed hchange
      have hclear : Clear config changed.owner changed.buckets
          state.usage.outbox := by
        have hbuckets := hunshared changed hchange
        exact ⟨hnotifies.aligned, fun bucket hmem => (hbuckets bucket hmem).1,
          fun bucket hmem => (hbuckets bucket hmem).2⟩
      have hpublished := (h.posted.change hnotifies).publishAll hiso
        changed.owner now changed.buckets h.linked hclear
      exact ⟨hnotifies.keyed, hpublished.1, hpublished.2⟩

/-- Claims, uploads and finished runs leave the outcome rows alone. -/
theorem Inv.usage {config : Config} (h : Inv config state)
    (action : Usage.Action)
    (haccumulate : ∀ capture now, action ≠ .accumulate capture now)
    (hpublish : ∀ summary now, action ≠ .publish summary now) :
    Inv config { state with
      usage := stepWorld config state.usage action } where
  keyed := h.keyed
  linked := linked_step config h.linked action
  posted := h.posted.rewrite
    (rewrites_step config state.usage action haccumulate hpublish)

/-- A finished run is accumulated into usage rows only. -/
theorem mem_upsert_outcome {config : Config} {outbox : List OutboxRow}
    {summary : Usage.UsageSummary} {cost : Option String} {now : Int}
    {outcome : SegmentOutcomeSummary}
    (hpayload : row.payload = .segmentOutcome outcome) :
    row ∈ Usage.upsertUsageSummary config outbox summary cost now ↔
      row ∈ outbox := by
  rw [Usage.upsertUsageSummary]
  split
  · rw [List.mem_append, List.mem_singleton]
    constructor
    · rintro (hold | rfl)
      · exact hold
      · cases hpayload
    · exact Or.inl
  · constructor
    · intro hrow
      obtain ⟨old, hold, rfl⟩ := List.mem_map.mp hrow
      split
      · next hkey =>
          rw [if_pos hkey] at hpayload
          have hkept := Usage.accumulateRow_key config summary
            (Usage.recordedCost config summary cost) old
          rw [OutboxRow.key_of_payload hpayload, of_decide_eq_true hkey]
            at hkept
          cases congrArg Prod.fst hkept
      · exact hold
    · intro hrow
      refine List.mem_map.mpr ⟨row, hrow, if_neg ?_⟩
      beta_reduce
      rw [OutboxRow.key_of_payload hpayload]
      simp

theorem posted_upsert {config : Config} {rows : List SegmentRow}
    {outbox : List OutboxRow} (h : Posted config rows (fun _ => False) outbox)
    (summary : Usage.UsageSummary) (cost : Option String) (now : Int) :
    Posted config rows (fun _ => False)
      (Usage.upsertUsageSummary config outbox summary cost now) := by
  constructor
  · intro row hrow outcome hpayload
    exact h.shown row ((mem_upsert_outcome hpayload).mp hrow) outcome hpayload
  · intro key hevaluated
    rcases h.stored key hevaluated with hfalse | ⟨row, hrow, hpayload⟩
    · exact Or.inl hfalse
    · exact Or.inr ⟨row, (mem_upsert_outcome hpayload).mpr hrow, hpayload⟩

theorem inv_step (config : Config)
    (hiso : Function.Injective config.toISOString) (h : Inv config state)
    (action : Action) (hunshared : Unshared config state action) :
    Inv config (stepState config state action) := by
  cases action with
  | saveConversation conversation => exact ⟨h.keyed, h.linked, h.posted⟩
  | record owner input now => exact h.commit hiso hunshared now
  | evaluate key evaluation expectedRevision now =>
      exact h.commit hiso hunshared now
  | deleteConversation id tenantId memberId now =>
      have hnext := h.commit hiso hunshared now
      simp only [stepState]
      split
      · exact ⟨hnext.keyed, hnext.linked, hnext.posted⟩
      · exact hnext
  | accumulate capture now =>
      exact ⟨h.keyed, linked_step config h.linked (.accumulate capture now),
        posted_upsert h.posted _ _ now⟩
  | flush caller limit outcomes => exact h.usage _ (by simp) (by simp)
  | arrive upload verdict granted => exact h.usage _ (by simp) (by simp)
  | answer upload => exact h.usage _ (by simp) (by simp)
  | giveUp upload error => exact h.usage _ (by simp) (by simp)
  | restart => exact h.usage _ (by simp) (by simp)

theorem Inv.tallied {config : Config}
    (hiso : Function.Injective config.toISOString) (h : Inv config state) :
    Tallied config state := by
  intro key
  refine ⟨resolved_le_evaluated key state.segments, ?_⟩
  -- whatever names the key shows its counts, under its id
  have hnamed : ∀ row ∈ state.usage.outbox.filter (key.names config),
      row ∈ state.usage.outbox ∧
      row.key = (.segmentOutcome, key.summaryId config) ∧
      row.payload = .segmentOutcome
        (key.summary config (key.counts state.segments)) := by
    intro row hrow
    obtain ⟨hmem, hnames⟩ := List.mem_filter.mp hrow
    cases hpayload : row.payload with
    | usage summary => simp [OutcomeKey.names, hpayload] at hnames
    | segmentOutcome summary =>
        obtain ⟨other, counts, hid, rfl, hcounts⟩ :=
          h.posted.shown row hmem summary hpayload
        obtain rfl := OutcomeKey.names_inj hiso hpayload hnames
        rcases hcounts with rfl | hfalse
        · refine ⟨hmem, ?_, rfl⟩
          rw [OutboxRow.key_of_payload hpayload, hid]
        · exact hfalse.elim
  cases hrows : state.usage.outbox.filter (key.names config) with
  | nil =>
      left
      refine ⟨rfl, Nat.eq_zero_of_not_pos fun hevaluated => ?_⟩
      rcases h.posted.stored key hevaluated with hfalse | ⟨row, hrow, hpayload⟩
      · exact hfalse
      · have hmem := List.mem_filter.mpr
          ⟨hrow, key.names_self hpayload⟩
        rw [hrows] at hmem
        cases hmem
  | cons row rest =>
      right
      rw [← hrows]
      have hfirst : row ∈ state.usage.outbox.filter (key.names config) := by
        rw [hrows]
        exact List.mem_cons_self
      obtain ⟨hmem, hkey, hpayload⟩ := hnamed row hfirst
      refine ⟨row, hfirst, fun other hother => ?_, hpayload⟩
      obtain ⟨hotherMem, hotherKey, -⟩ := hnamed other hother
      exact h.linked.keyed.eq_of_key hotherMem hmem
        (hotherKey.trans hkey.symm)

/-- In every run in which published buckets share their summary ids with no
other employee hour, the outcome rows are the counts of the table. -/
theorem outcomes_tallied (config : Config)
    (hiso : Function.Injective config.toISOString) (actions : List Action)
    (hrun : (machine config).Admissible (Unshared config) State.empty
      actions) :
    Tallied config ((machine config).run State.empty actions) := by
  have hinv := (machine config).stateInvariant (Inv config)
    (fun _ action h hunshared => inv_step config hiso h action hunshared)
    actions (inv_empty config) hrun
  exact hinv.tallied hiso

namespace OutcomeWitness

/-- A number for every instant. -/
def code : Int → Nat
  | .ofNat n => 2 * n
  | .negSucc n => 2 * n + 1

/-- Date texts; the runs below stay in the first hour of 1970. -/
def toISOString (instant : Int) : String :=
  if instant = 0 then "1970-01-01T00:00:00.000Z"
  else if instant = 3600000 then "1970-01-01T01:00:00.000Z"
  else String.ofList (List.replicate (code instant) '+')

/-- Texts in place of their hashes. -/
def config : Config where
  sha256 := id
  toISOString := toISOString
  toFixed := some
  roundedMinor := fun _ => 0

def resolved : SegmentEvaluation := ⟨some .resolved, [], none, false⟩

def unresolved : SegmentEvaluation :=
  ⟨some .unresolved, [.missingInfo], none, true⟩

def cleared : SegmentEvaluation := ⟨none, [], none, false⟩

def input (segmentId : String) (evaluation : Option SegmentEvaluation) :
    RecordInput :=
  ⟨"c", segmentId, ["e1", "e2"], 2, 1000, evaluation⟩

def owner : SegmentOwner := ⟨"tenant", "member"⟩

/-- Verdicts are given, sent, changed, cleared and deleted. -/
def busyRun : List Action :=
  [.saveConversation ⟨"c", some "tenant", some "member"⟩,
    .record owner (input "s1" (some resolved)) 1000,
    .record owner (input "s2" none) 1000,
    .evaluate ⟨owner, "c", "s2"⟩ unresolved 1 2000,
    .flush ⟨"tenant", "member"⟩ 50 true, .arrive 0 none true, .answer 0,
    .evaluate ⟨owner, "c", "s1"⟩ cleared 1 3000, .restart,
    .deleteConversation "c" (some "tenant") (some "member") 4000]

/-- Two owners whose ids join to one text. -/
def collidingRun : List Action :=
  [.record ⟨"tenant:a", "member"⟩ (input "s1" (some resolved)) 1000,
    .record ⟨"tenant", "a:member"⟩ (input "s1" (some unresolved)) 1000]

theorem code_injective : Function.Injective code := by
  intro left right h
  cases left <;> cases right <;> simp only [code] at h <;> grind

theorem toISOString_cases (instant : Int) :
    (instant = 0 ∧ toISOString instant = "1970-01-01T00:00:00.000Z") ∨
    (instant = 3600000 ∧ toISOString instant = "1970-01-01T01:00:00.000Z") ∨
    toISOString instant =
      String.ofList (List.replicate (code instant) '+') := by
  rw [toISOString]
  split
  · next h => exact Or.inl ⟨h, rfl⟩
  split
  · next h => exact Or.inr (Or.inl ⟨h, rfl⟩)
  · exact Or.inr (Or.inr rfl)

theorem ne_plus (text : String) (n : Nat)
    (hhead : text.toList.head? = some '1') :
    text ≠ String.ofList (List.replicate n '+') := by
  rintro rfl
  rw [String.toList_ofList, List.head?_replicate] at hhead
  split at hhead <;> simp at hhead

theorem toISOString_injective : Function.Injective toISOString := by
  have hfirst := ne_plus "1970-01-01T00:00:00.000Z"
  have hsecond := ne_plus "1970-01-01T01:00:00.000Z"
  intro left right h
  rcases toISOString_cases left with ⟨rfl, hl⟩ | ⟨rfl, hl⟩ | hl <;>
    rcases toISOString_cases right with ⟨rfl, hr⟩ | ⟨rfl, hr⟩ | hr <;>
    have h := hl.symm.trans (h.trans hr)
  · rfl
  · exact absurd h (by decide)
  · exact absurd h (hfirst _ rfl)
  · exact absurd h (by decide)
  · rfl
  · exact absurd h (hsecond _ rfl)
  · exact absurd h.symm (hfirst _ rfl)
  · exact absurd h.symm (hsecond _ rfl)
  · apply code_injective
    have hlength := congrArg (fun text => text.toList.length) h
    simpa using hlength

end OutcomeWitness

open OutcomeWitness in
theorem outcomes_tallied_busyRun :
    ((machine config).run State.empty busyRun).usage.outbox.length = 2 ∧
      Tallied config ((machine config).run State.empty busyRun) := by
  have hrun : (machine config).Admissible (Unshared config) State.empty
      busyRun := by decide
  exact ⟨by decide,
    outcomes_tallied config toISOString_injective busyRun hrun⟩

open OutcomeWitness in
/-- The second owner's counts replace the row of the first. -/
theorem colliding_owners_lose_outcomes :
    ¬ ∀ (config : Config) (actions : List Action),
      Function.Injective config.toISOString →
        Tallied config ((machine config).run State.empty actions) := by
  intro h
  have hlaw := (h config collidingRun toISOString_injective
    ⟨⟨"tenant:a", "member"⟩, "e1", 0⟩).2
  have hnone : ((machine config).run State.empty
      collidingRun).usage.outbox.filter
        ((⟨⟨"tenant:a", "member"⟩, "e1", 0⟩ : OutcomeKey).names config) =
      [] := by decide
  have hcount : ((⟨⟨"tenant:a", "member"⟩, "e1", 0⟩ : OutcomeKey).counts
      ((machine config).run State.empty collidingRun).segments).evaluated =
      1 := by decide
  simp only [hnone, hcount] at hlaw
  rcases hlaw with ⟨-, hzero⟩ | ⟨row, hrow, -⟩
  · cases hzero
  · cases hrow

end AiTeam.ContextSegment
