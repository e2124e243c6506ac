/-
The segments among the other actions of the Agent: resets and verdicts of any
member, deleted conversations, finished runs, and the uploads of the outbox;
and the counts an operation on the segments can move.
-/
import AiTeam.ContextSegment.Store
import AiTeam.WorkRecord.Repository

namespace AiTeam.ContextSegment

open Usage (Config SegmentOutcomeSummary UsageCapture UploadError Caller
  stepWorld)
open WorkRecord (Conversation)

/-! ### The machine -/

structure State where
  conversations : List Conversation
  segments : List SegmentRow
  usage : Usage.World
deriving DecidableEq

def State.empty : State := ⟨[], [], .empty⟩

inductive Action where
  | saveConversation (conversation : Conversation)
  | record (owner : SegmentOwner) (input : RecordInput) (now : Int)
  | evaluate (key : SegmentKey) (evaluation : SegmentEvaluation)
      (expectedRevision : Nat) (now : Nat)
  /-- `deleteConversation` of the store, for a caller that may name its tenant
  and member. -/
  | deleteConversation (id : String) (tenantId memberId : Option String)
      (now : Int)
  /-- A finished run is accumulated into the outbox. -/
  | accumulate (capture : UsageCapture) (now : Int)
  | flush (caller : Caller) (limit : Int) (outcomes : Bool)
  | arrive (upload : Nat) (verdict : Option UploadError) (granted : Bool)
  | answer (upload : Nat)
  | giveUp (upload : Nat) (error : UploadError)
  | restart
deriving DecidableEq

/-- The conversation a caller may delete. -/
def deletable (conversations : List Conversation) (id : String)
    (tenantId memberId : Option String) : Option Conversation :=
  (lookup Conversation.id id conversations).filter fun existing =>
    !(tenantId.isSome && existing.tenantId ≠ tenantId) &&
      !(memberId.isSome && existing.memberId ≠ memberId)

/-- The change an action makes to the segments. -/
def change (state : State) : Action → Option Change
  | .record owner input _ => some (record state.segments owner input)
  | .evaluate key evaluation expectedRevision now =>
      (evaluate state.segments key evaluation expectedRevision now).toOption
  | .deleteConversation id tenantId memberId _ => do
      let existing ← deletable state.conversations id tenantId memberId
      let owner ← existing.owner
      some (deleteConversation state.segments
        ⟨owner.tenantId, owner.memberId⟩ id)
  | _ => none

/-- The change with its listener, in one transaction. -/
def commit (config : Config) (state : State) (changed : Option Change)
    (now : Int) : State :=
  match changed with
  | none => state
  | some changed =>
      { state with
        segments := changed.rows
        usage := { state.usage with
          outbox := publishSegmentOutcomes config changed.rows changed.owner
            now changed.buckets state.usage.outbox } }

def stepState (config : Config) (state : State) (action : Action) : State :=
  match action with
  | .saveConversation conversation =>
      { state with
        conversations :=
          if state.conversations.any (·.id = conversation.id) then
            updateWhere (fun old => decide (old.id = conversation.id))
              (fun _ => conversation) state.conversations
          else state.conversations ++ [conversation] }
  | .record _ _ now => commit config state (change state action) now
  | .evaluate _ _ _ now => commit config state (change state action) now
  | .deleteConversation id tenantId memberId now =>
      let next := commit config state (change state action) now
      if (deletable state.conversations id tenantId memberId).isSome then
        { next with conversations := next.conversations.filter (·.id ≠ id) }
      else next
  | .accumulate capture now =>
      { state with
        usage := stepWorld config state.usage (.accumulate capture now) }
  | .flush caller limit outcomes =>
      { state with
        usage := stepWorld config state.usage (.flush caller limit outcomes) }
  | .arrive upload verdict granted =>
      { state with
        usage := stepWorld config state.usage (.arrive upload verdict granted) }
  | .answer upload =>
      { state with
        usage := stepWorld config state.usage (.answer upload) }
  | .giveUp upload error =>
      { state with
        usage := stepWorld config state.usage (.giveUp upload error) }
  | .restart =>
      { state with
        usage := stepWorld config state.usage .restart }

def machine (config : Config) : Machine State Action Unit :=
  ⟨fun state action => (stepState config state action, [])⟩

/-! ### Employee hours -/

/-- An owner, an employee and an hour, numbered from the epoch. -/
structure OutcomeKey where
  owner : SegmentOwner
  employeeId : String
  hour : Nat
deriving DecidableEq

/-- The outcome payload that shows the counts of the key. -/
def OutcomeKey.summary (config : Config) (key : OutcomeKey)
    (counts : Counts) : SegmentOutcomeSummary :=
  segmentOutcomeSummary config key.owner key.employeeId (key.hour * hourMs)
    counts

def OutcomeKey.counts (key : OutcomeKey) (rows : List SegmentRow) : Counts :=
  hourlyCounts rows key.owner key.employeeId (key.hour * hourMs)

/-- The key of a bucket. -/
def SegmentOutcomeBucket.key (owner : SegmentOwner)
    (bucket : SegmentOutcomeBucket) : OutcomeKey :=
  ⟨owner, bucket.employeeId, bucket.hourStart / hourMs⟩

/-! ### Counts -/

theorem hourStart_mul (hour : Nat) : hourStart (hour * hourMs) =
    hour * hourMs := by
  rw [hourStart, Nat.mul_mod_left, Nat.sub_zero]

theorem hourStart_eq (createdAt : Nat) :
    hourStart createdAt = createdAt / hourMs * hourMs := by
  have hsplit := Nat.div_add_mod createdAt hourMs
  rw [Nat.mul_comm] at hsplit
  rw [hourStart]
  omega

variable {row : SegmentRow} {rows : List SegmentRow}

/-- A segment is counted in the hour it was created in. -/
theorem covers_hour {key : OutcomeKey}
    (h : covers key.owner key.employeeId (key.hour * hourMs) row = true) :
    row.owner = key.owner ∧ key.employeeId ∈ row.employeeIds ∧
      row.createdAt / hourMs = key.hour := by
  simp only [covers, Bool.and_eq_true, decide_eq_true_eq,
    List.contains_iff_mem] at h
  obtain ⟨⟨⟨howner, hlow⟩, hhigh⟩, hemployee⟩ := h
  refine ⟨howner, hemployee, ?_⟩
  have hpos : 0 < hourMs := by decide
  rw [Nat.div_eq_iff hpos]
  omega

theorem resolved_le_evaluated (key : OutcomeKey) (rows : List SegmentRow) :
    (key.counts rows).resolved ≤ (key.counts rows).evaluated := by
  apply List.countP_mono_left
  intro row _ hrow
  simp only [Bool.and_eq_true, decide_eq_true_eq] at hrow ⊢
  rw [hrow.2]
  exact ⟨hrow.1, rfl⟩

/-- The hours and employees a segment is counted for. -/
theorem mem_outcomeBuckets {segments : List SegmentRow} {segment : SegmentRow}
    (hsegment : segment ∈ segments) {key : OutcomeKey}
    (h : covers key.owner key.employeeId (key.hour * hourMs) segment = true) :
    ∃ bucket ∈ outcomeBuckets segments, bucket.key segment.owner = key := by
  obtain ⟨howner, hemployee, hhour⟩ := covers_hour h
  refine ⟨⟨key.employeeId, hourStart segment.createdAt⟩, ?_, ?_⟩
  · rw [outcomeBuckets, List.mem_eraseDups, List.mem_flatMap]
    exact ⟨segment, hsegment, List.mem_map_of_mem hemployee⟩
  · have hpos : 0 < hourMs := by decide
    rw [SegmentOutcomeBucket.key, hourStart_eq, Nat.mul_div_cancel _ hpos,
      howner, hhour]

/-- Buckets are hours. -/
theorem outcomeBuckets_aligned {segments : List SegmentRow}
    {bucket : SegmentOutcomeBucket} (h : bucket ∈ outcomeBuckets segments) :
    bucket.hourStart / hourMs * hourMs = bucket.hourStart := by
  rw [outcomeBuckets, List.mem_eraseDups, List.mem_flatMap] at h
  obtain ⟨segment, -, hmem⟩ := h
  obtain ⟨employeeId, -, rfl⟩ := List.mem_map.mp hmem
  have hpos : 0 < hourMs := by decide
  rw [hourStart_eq, Nat.mul_div_cancel _ hpos]

/-- What a segment adds to the counts of a key. -/
def tally (key : OutcomeKey) (row : SegmentRow) : Option SegmentOutcome :=
  if covers key.owner key.employeeId (key.hour * hourMs) row then row.outcome
  else none

theorem counts_eq_tally (key : OutcomeKey) (rows : List SegmentRow) :
    key.counts rows = ⟨rows.countP fun row => (tally key row).isSome,
      rows.countP fun row => tally key row = some .resolved⟩ := by
  rw [OutcomeKey.counts, hourlyCounts]
  congr 1
  · apply List.countP_congr
    intro row _
    rw [tally]
    cases covers key.owner key.employeeId (key.hour * hourMs) row <;> simp
  · apply List.countP_congr
    intro row _
    rw [tally]
    cases covers key.owner key.employeeId (key.hour * hourMs) row <;> simp

theorem counts_append {key : OutcomeKey} (h : tally key row = none)
    (rows : List SegmentRow) :
    key.counts (rows ++ [row]) = key.counts rows := by
  simp [counts_eq_tally, List.countP_append, h]

theorem counts_updateWhere {key : OutcomeKey} {guard : SegmentRow → Bool}
    {change : SegmentRow → SegmentRow}
    (h : ∀ row ∈ rows, guard row = true →
      tally key (change row) = tally key row) :
    key.counts (updateWhere guard change rows) = key.counts rows := by
  have hsame : ∀ row ∈ rows,
      tally key (if guard row then change row else row) = tally key row := by
    intro row hrow
    split
    · next hguard => exact h row hrow hguard
    · rfl
  rw [counts_eq_tally, counts_eq_tally, updateWhere, List.countP_map,
    List.countP_map]
  congr 1
  · apply List.countP_congr
    intro row hrow
    rw [Function.comp_apply, hsame row hrow]
  · apply List.countP_congr
    intro row hrow
    rw [Function.comp_apply, hsame row hrow]

theorem counts_filter {key : OutcomeKey} {keep : SegmentRow → Bool}
    (h : ∀ row ∈ rows, keep row = false → tally key row = none) :
    key.counts (rows.filter keep) = key.counts rows := by
  rw [counts_eq_tally, counts_eq_tally, List.countP_filter,
    List.countP_filter]
  congr 1
  · apply List.countP_congr
    intro row hrow
    cases hkeep : keep row with
    | true => simp
    | false => simp [h row hrow hkeep]
  · apply List.countP_congr
    intro row hrow
    cases hkeep : keep row with
    | true => simp
    | false => simp [h row hrow hkeep]

/-! ### Operations -/

/-- An operation moves the counts of the buckets it notifies of, and no
others. -/
structure Change.Notifies (changed : Change) (rows : List SegmentRow) :
    Prop where
  keyed : Keyed SegmentRow.key changed.rows
  aligned : ∀ bucket ∈ changed.buckets,
    bucket.hourStart / hourMs * hourMs = bucket.hourStart
  moved : ∀ key : OutcomeKey, key.counts changed.rows = key.counts rows ∨
    ∃ bucket ∈ changed.buckets, bucket.key changed.owner = key

theorem tally_covers {key : OutcomeKey} (h : tally key row ≠ none) :
    covers key.owner key.employeeId (key.hour * hourMs) row = true ∧
      row.outcome.isSome = true := by
  rw [tally] at h
  split at h
  · next hcovers => exact ⟨hcovers, Option.isSome_iff_ne_none.mpr h⟩
  · exact absurd rfl h

theorem record_notifies (hkeyed : Keyed SegmentRow.key rows)
    (owner : SegmentOwner) (input : RecordInput) :
    (record rows owner input).Notifies rows := by
  rw [record]
  cases hlookup : lookup SegmentRow.key (newSegment owner input).key rows with
  | some stored =>
      refine ⟨hkeyed, ?_, fun _ => Or.inl rfl⟩
      intro bucket hbucket
      cases hbucket
  | none =>
      refine ⟨hkeyed.append hlookup, ?_, ?_⟩
      · intro bucket hbucket
        simp only at hbucket
        split at hbucket
        · exact outcomeBuckets_aligned hbucket
        · cases hbucket
      · intro key
        by_cases htally : tally key (newSegment owner input) = none
        · exact Or.inl (counts_append htally rows)
        · obtain ⟨hcovers, hsome⟩ := tally_covers htally
          right
          simp only [hsome, ↓reduceIte]
          exact mem_outcomeBuckets List.mem_cons_self hcovers

theorem evaluate_notifies (hkeyed : Keyed SegmentRow.key rows)
    {segment : SegmentKey} {evaluation : SegmentEvaluation}
    {expectedRevision now : Nat} {changed : Change}
    (h : evaluate rows segment evaluation expectedRevision now =
      .ok changed) : changed.Notifies rows := by
  rw [evaluate] at h
  cases hlookup : lookup SegmentRow.key segment rows with
  | none =>
      rw [hlookup] at h
      cases h
  | some current =>
      rw [hlookup] at h
      simp only at h
      split at h
      · cases h
      split at h
      · cases h
      obtain rfl := Except.ok.inj h
      refine ⟨hkeyed.updateWhere _ _ fun _ => rfl, ?_, ?_⟩
      · intro bucket hbucket
        simp only at hbucket
        split at hbucket
        · cases hbucket
        · exact outcomeBuckets_aligned hbucket
      · intro key
        have howner : current.owner = segment.owner :=
          congrArg SegmentKey.owner (lookup_key hlookup)
        have hsame : ∀ row ∈ rows, row.key = segment → row = current :=
          fun row hrow hkey => hkeyed.eq_of_key hrow (lookup_mem hlookup)
            (hkey.trans (lookup_key hlookup).symm)
        by_cases hchanged : current.outcome = evaluation.outcome ∨
            covers key.owner key.employeeId (key.hour * hourMs) current =
              false
        · left
          apply counts_updateWhere
          intro row hrow hguard
          simp only [Bool.and_eq_true, decide_eq_true_eq] at hguard
          have hkept : covers key.owner key.employeeId (key.hour * hourMs)
              (setEvaluation evaluation now current) =
            covers key.owner key.employeeId (key.hour * hourMs) current := rfl
          rw [hsame row hrow hguard.1, tally, tally, hkept]
          rcases hchanged with houtcome | hcovers
          · rw [houtcome]
            rfl
          · rw [hcovers]
            rfl
        · right
          obtain ⟨houtcome, hcovers⟩ := not_or.mp hchanged
          simp only [houtcome, ↓reduceIte]
          rw [← howner]
          exact mem_outcomeBuckets List.mem_cons_self
            (Bool.not_eq_false _ |>.mp hcovers)

theorem deleteConversation_notifies (hkeyed : Keyed SegmentRow.key rows)
    (owner : SegmentOwner) (conversationId : String) :
    (deleteConversation rows owner conversationId).Notifies rows := by
  refine ⟨hkeyed.filter _, fun _ => outcomeBuckets_aligned, ?_⟩
  intro key
  by_cases hmoved : ∃ row ∈ rows, isOfConversation owner conversationId row =
      true ∧ tally key row ≠ none
  · obtain ⟨row, hrow, hof, htally⟩ := hmoved
    obtain ⟨hcovers, hsome⟩ := tally_covers htally
    have howner : row.owner = owner := by
      simp only [isOfConversation, Bool.and_eq_true, decide_eq_true_eq] at hof
      exact hof.1
    right
    rw [← howner]
    apply mem_outcomeBuckets _ hcovers
    rw [List.mem_filter, howner, hof, hsome]
    exact ⟨hrow, rfl⟩
  · left
    apply counts_filter
    intro row hrow hdropped
    by_contra htally
    exact hmoved ⟨row, hrow, by simpa using hdropped, htally⟩

theorem change_notifies {state : State} {action : Action} {changed : Change}
    (hkeyed : Keyed SegmentRow.key state.segments)
    (h : change state action = some changed) :
    changed.Notifies state.segments := by
  cases action with
  | record owner input now =>
      obtain rfl := Option.some.inj h
      exact record_notifies hkeyed owner input
  | evaluate key evaluation expectedRevision now =>
      rw [change] at h
      cases hresult : evaluate state.segments key evaluation expectedRevision
          now with
      | error error =>
          rw [hresult] at h
          cases h
      | ok result =>
          rw [hresult] at h
          obtain rfl := Option.some.inj h
          exact evaluate_notifies hkeyed hresult
  | deleteConversation id tenantId memberId now =>
      obtain ⟨existing, -, hdeleted⟩ := Option.bind_eq_some_iff.mp h
      obtain ⟨owner, -, hchanged⟩ := Option.bind_eq_some_iff.mp hdeleted
      obtain rfl := Option.some.inj hchanged
      exact deleteConversation_notifies hkeyed _ id
  | _ => cases h

end AiTeam.ContextSegment
