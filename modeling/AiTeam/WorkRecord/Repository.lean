/-
`WorkRecordRepository`: the tables `work_record` and `work_record_change` and
the operations that write them.  Random ids and clock readings are inputs or
numbers; an `AUTOINCREMENT` column takes the next number of its counter.
-/
import Mathlib.Algebra.Order.Monoid.Unbundled.WithTop
import Mathlib.Data.List.Sort
import AiTeam.Sweep
import AiTeam.Table
import AiTeam.Usage.Summary

namespace AiTeam.WorkRecord

open Usage (UsageSummary WorkUsage)

inductive WorkOutcome where
  | active
  | succeeded
  | error
  | aborted
  | unknown
deriving DecidableEq

inductive Provenance where
  | live
  | piHistory
deriving DecidableEq

inductive Reason where
  | processRestart
deriving DecidableEq

structure WorkOwner where
  tenantId : String
  memberId : String
deriving DecidableEq

/-- The window, when there is one, is `[windowStart, windowEnd)`. -/
structure WorkFilter where
  owner : WorkOwner
  employeeId : Option String
  windowStart : Option Int
  windowEnd : Option Int
deriving DecidableEq

structure WorkRecordRow where
  createdSeq : Nat
  id : Nat
  owner : WorkOwner
  employeeId : String
  conversationId : String
  provenance : Provenance
  outcome : WorkOutcome
  reason : Option Reason
  occurredAt : Option Int
  startedAt : Option Int
  endedAt : Option Int
  updatedAt : Int
  startOrdinal : Nat
  endOrdinal : Option Nat
  firstEntryId : Option String
  lastEntryId : Option String
  firstEntryAt : Option Int
  lastEntryAt : Option Int
  usage : Option WorkUsage
  promptReceipt : Option String
deriving DecidableEq

structure WorkChangeRow where
  seq : Nat
  recordId : Nat
  owner : WorkOwner
  employeeId : String
  deleted : Bool
deriving DecidableEq

/-- The columns of `conversation` that work records read. -/
structure Conversation where
  id : String
  tenantId : Option String
  memberId : Option String
deriving DecidableEq

/-- The owner of a conversation that has one. -/
def Conversation.owner (conversation : Conversation) : Option WorkOwner := do
  let tenantId ← conversation.tenantId.filter (· ≠ "")
  let memberId ← conversation.memberId.filter (· ≠ "")
  some ⟨tenantId, memberId⟩

structure WorkStart where
  owner : WorkOwner
  employeeId : String
  conversationId : String
  startedAt : Int
  startOrdinal : Nat
  promptReceipt : Option String
deriving DecidableEq

/-- `Exclude<WorkOutcome, "active">`. -/
inductive FinalOutcome where
  | succeeded
  | error
  | aborted
  | unknown
deriving DecidableEq

def FinalOutcome.toOutcome : FinalOutcome → WorkOutcome
  | .succeeded => .succeeded
  | .error => .error
  | .aborted => .aborted
  | .unknown => .unknown

structure WorkFinish where
  outcome : FinalOutcome
  endedAt : Int
  endOrdinal : Nat
  firstEntryId : Option String
  lastEntryId : Option String
  firstEntryAt : Option Int
  lastEntryAt : Option Int
  usage : Option WorkUsage
deriving DecidableEq

structure Participant where
  owner : WorkOwner
  conversationId : String
  employeeId : String
deriving DecidableEq

def Participant.isOf (input : Participant) (row : WorkRecordRow) : Bool :=
  row.conversationId = input.conversationId && row.owner = input.owner &&
    row.employeeId = input.employeeId

structure WorkHistorySegment where
  startOrdinal : Nat
  endOrdinal : Nat
  firstEntryId : String
  lastEntryId : String
  firstEntryAt : Option Int
  lastEntryAt : Option Int
  outcome : FinalOutcome
deriving DecidableEq

/-- `draws` numbers the random ids; `createdSeq` and `changeSeq` are the last
numbers the two `AUTOINCREMENT` columns handed out. -/
structure Repository where
  conversations : List Conversation
  records : List WorkRecordRow
  changes : List WorkChangeRow
  createdSeq : Nat
  changeSeq : Nat
  draws : Nat
deriving DecidableEq

variable {repository repository' : Repository} {id : Nat}

namespace Repository

def empty : Repository := ⟨[], [], [], 0, 0, 0⟩

/-! ### Statements -/

def resequence (seq : Nat) (deleted : Bool) (row : WorkChangeRow) :
    WorkChangeRow :=
  { row with seq, deleted }

/-- `change`: the row of a record moves to a new sequence number, so a record
has one row in the log. -/
def change (repository : Repository) (row : WorkRecordRow) (deleted : Bool) :
    Repository :=
  let seq := repository.changeSeq + 1
  { repository with
    changeSeq := seq
    changes :=
      match lookup WorkChangeRow.recordId row.id repository.changes with
      | none => repository.changes ++
          [⟨seq, row.id, row.owner, row.employeeId, deleted⟩]
      | some _ => updateWhere (fun old => decide (old.recordId = row.id))
          (resequence seq deleted) repository.changes }

/-- `SELECT ... WHERE id = ? AND tenant_id = ? AND member_id = ?`. -/
def get (repository : Repository) (id : Nat) (owner : WorkOwner) :
    Option WorkRecordRow :=
  (lookup WorkRecordRow.id id repository.records).filter fun row =>
    decide (row.owner = owner)

/-- `requireOwner`. -/
def owns (repository : Repository) (conversationId : String)
    (owner : WorkOwner) : Bool :=
  repository.conversations.any fun conversation =>
    conversation.id = conversationId &&
      conversation.tenantId = some owner.tenantId &&
      conversation.memberId = some owner.memberId

/-- `INSERT INTO work_record` of a row with a drawn id, and its change. -/
def insert (repository : Repository)
    (row : Nat → Nat → WorkRecordRow) : Repository :=
  let created := row (repository.createdSeq + 1) repository.draws
  change { repository with
    records := repository.records ++ [created]
    createdSeq := repository.createdSeq + 1
    draws := repository.draws + 1 } created false

/-- `UPDATE work_record ... WHERE id = ?`, and its change. -/
def update (repository : Repository) (row : WorkRecordRow)
    (set : WorkRecordRow → WorkRecordRow) : Repository :=
  change { repository with
    records := updateWhere (fun old => decide (old.id = row.id)) set
      repository.records } row false

/-! ### Operations -/

/-- `saveConversation`, as far as work records see it. -/
def saveConversation (repository : Repository) (conversation : Conversation) :
    Repository :=
  { repository with
    conversations :=
      if repository.conversations.any (·.id = conversation.id) then
        updateWhere (fun old => decide (old.id = conversation.id))
          (fun _ => conversation) repository.conversations
      else repository.conversations ++ [conversation] }

def startedRow (input : WorkStart) (createdSeq id : Nat) : WorkRecordRow where
  createdSeq := createdSeq
  id := id
  owner := input.owner
  employeeId := input.employeeId
  conversationId := input.conversationId
  provenance := .live
  outcome := .active
  reason := none
  occurredAt := some input.startedAt
  startedAt := some input.startedAt
  endedAt := none
  updatedAt := input.startedAt
  startOrdinal := input.startOrdinal
  endOrdinal := none
  firstEntryId := none
  lastEntryId := none
  firstEntryAt := none
  lastEntryAt := none
  usage := none
  promptReceipt := input.promptReceipt.filter (· ≠ "")

def start (repository : Repository) (input : WorkStart) :
    Except String (Repository × Nat) :=
  if repository.owns input.conversationId input.owner then
    .ok (repository.insert (startedRow input), repository.draws)
  else .error "Work conversation is not owned"

def finishRow (finish : WorkFinish) (row : WorkRecordRow) : WorkRecordRow :=
  { row with
    outcome := finish.outcome.toOutcome
    endedAt := some finish.endedAt
    updatedAt := finish.endedAt
    endOrdinal := some finish.endOrdinal
    firstEntryId := finish.firstEntryId
    lastEntryId := finish.lastEntryId
    firstEntryAt := finish.firstEntryAt
    lastEntryAt := finish.lastEntryAt
    usage := finish.usage }

/-- The summary names the owner and the employee of the record. -/
def summaryMatches (row : WorkRecordRow) (summary : UsageSummary) : Bool :=
  summary.tenantId = row.owner.tenantId &&
    summary.memberId = row.owner.memberId &&
    summary.employeeId = row.employeeId

/-- `finish`.  Only an active record is finished; the Boolean says whether it
was. -/
def finish (repository : Repository) (id : Nat) (owner : WorkOwner)
    (finish : WorkFinish) (summary : Option UsageSummary) :
    Except String (Repository × Bool) :=
  match repository.get id owner with
  | none => .ok (repository, false)
  | some row =>
      if row.outcome ≠ .active then .ok (repository, false)
      else if summary.all (summaryMatches row) then
        .ok (repository.update row (finishRow finish), true)
      else .error "Work usage owner mismatch"

/-- An ordinal or one of the two infinities. -/
abbrev Ordinal := WithBot (WithTop Nat)

def ordinal (value : Nat) : Ordinal := ((value : WithTop Nat) : Ordinal)

/-- `[...new Set(values)]`. -/
def distinct : List Nat → List Nat
  | [] => []
  | value :: rest => value :: (distinct rest).filter (· ≠ value)

/-- `nextStarts`: every distinct live start with the one after it. -/
def nextStarts : List Nat → List (Nat × Ordinal)
  | [] => []
  | [start] => [(start, ⊤)]
  | start :: next :: rest => (start, ordinal next) :: nextStarts (next :: rest)

/-- `row.end_ordinal ?? nextStarts.get(row.start_ordinal)!`. -/
def liveEnd (nextStarts : List (Nat × Ordinal)) (row : WorkRecordRow) :
    Ordinal :=
  match row.endOrdinal with
  | some stop => ordinal stop
  | none => (nextStarts.lookup row.startOrdinal).getD ⊤

/-- The filter over the sorted segments.  `live` is what the pointer has not
passed yet; a first entry is taken once. -/
def pendingSegments (nextStarts : List (Nat × Ordinal)) :
    List WorkRecordRow → Ordinal → List (Option String) →
      List WorkHistorySegment → List WorkHistorySegment
  | _, _, _, [] => []
  | live, coveredUntil, anchors, segment :: rest =>
      let (live, coveredUntil) := Sweep.advance
        (fun row : WorkRecordRow => ordinal row.startOrdinal)
        (liveEnd nextStarts) (ordinal segment.startOrdinal) live coveredUntil
      if some segment.firstEntryId ∈ anchors ∨
          ordinal segment.startOrdinal < coveredUntil then
        pendingSegments nextStarts live coveredUntil anchors rest
      else segment :: pendingSegments nextStarts live coveredUntil
        (some segment.firstEntryId :: anchors) rest

def importedRow (input : Participant) (segment : WorkHistorySegment)
    (now : Int) (createdSeq id : Nat) : WorkRecordRow where
  createdSeq := createdSeq
  id := id
  owner := input.owner
  employeeId := input.employeeId
  conversationId := input.conversationId
  provenance := .piHistory
  outcome := segment.outcome.toOutcome
  reason := none
  occurredAt := segment.firstEntryAt
  startedAt := none
  endedAt := none
  updatedAt := now
  startOrdinal := segment.startOrdinal
  endOrdinal := some segment.endOrdinal
  firstEntryId := some segment.firstEntryId
  lastEntryId := some segment.lastEntryId
  firstEntryAt := segment.firstEntryAt
  lastEntryAt := segment.lastEntryAt
  usage := none
  promptReceipt := none

/-- The unique index `work_record_history` has an entry of the segment. -/
def anchored (repository : Repository) (input : Participant)
    (segment : WorkHistorySegment) : Bool :=
  repository.records.any fun row =>
    row.provenance = .piHistory &&
      row.conversationId = input.conversationId &&
      row.employeeId = input.employeeId &&
      row.firstEntryId = some segment.firstEntryId

def insertSegments (input : Participant) (now : Int) :
    List WorkHistorySegment → Repository → Except String Repository
  | [], repository => .ok repository
  | segment :: rest, repository =>
      if repository.anchored input segment then
        .error ("UNIQUE constraint failed: work_record.conversation_id, " ++
          "work_record.employee_id, work_record.first_entry_id")
      else insertSegments input now rest
        (repository.insert (importedRow input segment now))

/-- The rows of the participant, `ORDER BY start_ordinal ASC`. -/
def participantRows (repository : Repository) (input : Participant) :
    List WorkRecordRow :=
  (repository.records.filter input.isOf).insertionSort
    fun left right => left.startOrdinal ≤ right.startOrdinal

def liveRows (repository : Repository) (input : Participant) :
    List WorkRecordRow :=
  (repository.participantRows input).filter (·.provenance = .live)

def historyAnchors (repository : Repository) (input : Participant) :
    List (Option String) :=
  ((repository.participantRows input).filter (·.provenance = .piHistory)).map
    WorkRecordRow.firstEntryId

/-- `[...segments].sort(...)`. -/
def sortedSegments (segments : List WorkHistorySegment) :
    List WorkHistorySegment :=
  segments.insertionSort
    fun left right => left.startOrdinal ≤ right.startOrdinal

/-- `importHistory`. -/
def importHistory (repository : Repository) (input : Participant)
    (segments : List WorkHistorySegment) (now : Int) :
    Except String Repository :=
  let live := repository.liveRows input
  let starts := distinct (live.map WorkRecordRow.startOrdinal)
  let pending := pendingSegments (nextStarts starts) live ⊥
    (repository.historyAnchors input) (sortedSegments segments)
  if pending = [] then .ok repository
  else if repository.owns input.conversationId input.owner then
    insertSegments input now pending repository
  else .error "Work conversation is not owned"

def isOfConversation (conversationId : String) (owner : WorkOwner)
    (row : WorkRecordRow) : Bool :=
  row.conversationId = conversationId && row.owner = owner

/-- A tombstone for every record of the conversation. -/
def tombstones (repository : Repository) (rows : List WorkRecordRow) :
    Repository :=
  rows.foldl (fun repository row => repository.change row true) repository

/-- `deleteConversation` of the repository: the records go, their changes
stay. -/
def deleteRecords (repository : Repository) (conversationId : String)
    (owner : WorkOwner) : Repository :=
  let rows := repository.records.filter (isOfConversation conversationId owner)
  let marked := repository.tombstones rows
  { marked with
    records := marked.records.filter fun row =>
      !isOfConversation conversationId owner row }

/-- `deleteConversation` of the store, for a caller that may name its tenant
and member. -/
def deleteConversation (repository : Repository) (id : String)
    (tenantId memberId : Option String) : Repository × Bool :=
  match lookup (fun row : Conversation => row.id) id
      repository.conversations with
  | none => (repository, false)
  | some existing =>
      if (tenantId.isSome ∧ existing.tenantId ≠ tenantId) ∨
          (memberId.isSome ∧ existing.memberId ≠ memberId) then
        (repository, false)
      else
        let purged := match existing.owner with
          | some owner => repository.deleteRecords id owner
          | none => repository
        ({ purged with
          conversations := purged.conversations.filter (·.id ≠ id) }, true)

def restartRow (now : Int) (row : WorkRecordRow) : WorkRecordRow :=
  { row with
    outcome := .unknown
    reason := some .processRestart
    endedAt := none
    updatedAt := now }

/-- The loop of the constructor over the rows that were left active. -/
def recoverRows (now : Int) : List WorkRecordRow → Repository → Repository
  | [], repository => repository
  | row :: rest, repository =>
      recoverRows now rest (repository.update row (restartRow now))

/-- The constructor: active work of an earlier process ends unknown. -/
def restart (repository : Repository) (now : Int) : Repository :=
  recoverRows now
    (repository.records.filter (·.outcome = .active)) repository

/-! ### Active records -/

@[simp] theorem change_records (repository : Repository)
    (row : WorkRecordRow) (deleted : Bool) :
    (repository.change row deleted).records = repository.records := rfl

/-- Every record has an id that was drawn. -/
def Drawn (repository : Repository) : Prop :=
  ∀ row ∈ repository.records, row.id < repository.draws

/-- Ids are drawn in order, and only a record with a new id becomes active. -/
structure KeepsSettled (old new : Repository) : Prop where
  draws : old.draws ≤ new.draws
  drawn : old.Drawn → new.Drawn
  active : ∀ row ∈ new.records, row.outcome = .active →
    old.draws ≤ row.id ∨ row ∈ old.records

theorem KeepsSettled.refl (repository : Repository) :
    KeepsSettled repository repository :=
  ⟨Nat.le_refl _, fun h => h, fun _ hrow _ => .inr hrow⟩

theorem KeepsSettled.trans {first second third : Repository}
    (h : KeepsSettled first second) (h' : KeepsSettled second third) :
    KeepsSettled first third where
  draws := Nat.le_trans h.draws h'.draws
  drawn := fun hdrawn => h'.drawn (h.drawn hdrawn)
  active := by
    intro row hrow hactive
    rcases h'.active row hrow hactive with hnew | hold
    · exact .inl (Nat.le_trans h.draws hnew)
    · exact h.active row hold hactive

theorem keepsSettled_insert (repository : Repository)
    (row : Nat → Nat → WorkRecordRow)
    (hid : ∀ createdSeq id, (row createdSeq id).id = id) :
    KeepsSettled repository (repository.insert row) where
  draws := Nat.le_succ _
  drawn := by
    intro hdrawn other hother
    rcases List.mem_append.mp hother with hold | hnew
    · exact Nat.lt_succ_of_lt (hdrawn other hold)
    · rw [List.mem_singleton.mp hnew, hid]
      exact Nat.lt_succ_self _
  active := by
    intro other hother _
    rcases List.mem_append.mp hother with hold | hnew
    · exact .inr hold
    · rw [List.mem_singleton.mp hnew, hid]
      exact .inl (Nat.le_refl _)

theorem keepsSettled_update (repository : Repository) (row : WorkRecordRow)
    (set : WorkRecordRow → WorkRecordRow)
    (hid : ∀ old, (set old).id = old.id)
    (hset : ∀ old, (set old).outcome ≠ .active) :
    KeepsSettled repository (repository.update row set) where
  draws := Nat.le_refl _
  drawn := by
    intro hdrawn other hother
    obtain ⟨old, hold, rfl⟩ := List.mem_map.mp hother
    split
    · rw [hid]
      exact hdrawn old hold
    · exact hdrawn old hold
  active := by
    intro other hother hactive
    obtain ⟨old, hold, rfl⟩ := List.mem_map.mp hother
    split at hactive
    · exact absurd hactive (hset old)
    · next hother =>
        simp only [hother]
        exact .inr hold

theorem FinalOutcome.toOutcome_ne_active (outcome : FinalOutcome) :
    outcome.toOutcome ≠ .active := by
  cases outcome <;> decide

theorem keepsSettled_start {input : WorkStart}
    (h : repository.start input = .ok (repository', id)) :
    KeepsSettled repository repository' := by
  rw [start] at h
  split at h
  · cases h
    exact keepsSettled_insert _ _ fun _ _ => rfl
  · exact nomatch h

/-- A finish that was committed: the record was active and is so no more. -/
theorem finish_committed {owner : WorkOwner} {observed : WorkFinish}
    {summary : Option UsageSummary}
    (h : repository.finish id owner observed summary =
      .ok (repository', true)) :
    ∃ row, repository.get id owner = some row ∧ row.outcome = .active ∧
      summary.all (summaryMatches row) ∧
      repository' = repository.update row (finishRow observed) := by
  rw [finish] at h
  split at h
  · exact nomatch h
  · next row hrow =>
      split at h
      · exact nomatch h
      · next hactive =>
          split at h
          · next hsummary =>
              cases h
              exact ⟨row, hrow, not_not.mp hactive, hsummary, rfl⟩
          · exact nomatch h

theorem finish_skipped {owner : WorkOwner} {observed : WorkFinish}
    {summary : Option UsageSummary}
    (h : repository.finish id owner observed summary =
      .ok (repository', false)) : repository' = repository := by
  rw [finish] at h
  split at h
  · cases h
    rfl
  · split at h
    · cases h
      rfl
    · split at h
      · exact nomatch h
      · exact nomatch h

theorem get_eq_some {owner : WorkOwner} {row : WorkRecordRow}
    (h : repository.get id owner = some row) :
    row ∈ repository.records ∧ row.id = id ∧ row.owner = owner := by
  obtain ⟨hrow, howner⟩ := Option.filter_eq_some_iff.mp h
  exact ⟨lookup_mem hrow, lookup_key hrow, of_decide_eq_true howner⟩

theorem keepsSettled_insertSegments (input : Participant) (now : Int)
    (segments : List WorkHistorySegment)
    (h : insertSegments input now segments repository = .ok repository') :
    KeepsSettled repository repository' := by
  induction segments generalizing repository with
  | nil =>
      cases h
      exact .refl _
  | cons segment rest ih =>
      rw [insertSegments] at h
      split at h
      · exact nomatch h
      · exact (keepsSettled_insert _ _ fun _ _ => rfl).trans (ih h)

/-- An import changes nothing, or inserts some of its segments. -/
theorem importHistory_ok {input : Participant}
    {segments : List WorkHistorySegment} {now : Int}
    (h : repository.importHistory input segments now = .ok repository') :
    ∃ pending, insertSegments input now pending repository =
      .ok repository' := by
  simp only [importHistory] at h
  split at h
  · exact ⟨[], h⟩
  · split at h
    · exact ⟨_, h⟩
    · exact nomatch h

theorem tombstones_records (rows : List WorkRecordRow)
    (repository : Repository) :
    (repository.tombstones rows).records = repository.records ∧
      (repository.tombstones rows).draws = repository.draws ∧
      (repository.tombstones rows).createdSeq = repository.createdSeq := by
  induction rows generalizing repository with
  | nil => exact ⟨rfl, rfl, rfl⟩
  | cons row rest ih => exact ih (repository.change row true)

theorem keepsSettled_deleteRecords (repository : Repository)
    (conversationId : String) (owner : WorkOwner) :
    KeepsSettled repository
      (repository.deleteRecords conversationId owner) where
  draws := Nat.le_of_eq (tombstones_records _ repository).2.1.symm
  drawn := by
    intro hdrawn row hrow
    have hmem := (List.mem_filter.mp hrow).1
    rw [(tombstones_records _ repository).1] at hmem
    exact Nat.lt_of_lt_of_eq (hdrawn row hmem)
      (tombstones_records _ repository).2.1.symm
  active := by
    intro row hrow _
    have hmem := (List.mem_filter.mp hrow).1
    rw [(tombstones_records _ repository).1] at hmem
    exact .inr hmem

theorem keepsSettled_deleteConversation (repository : Repository)
    (id : String) (tenantId memberId : Option String) :
    KeepsSettled repository
      (repository.deleteConversation id tenantId memberId).1 := by
  rw [deleteConversation]
  split
  · exact .refl _
  · split
    · exact .refl _
    · next existing _ _ =>
        cases existing.owner with
        | none => exact ⟨Nat.le_refl _, fun h => h, fun _ hrow _ => .inr hrow⟩
        | some owner =>
            have h := keepsSettled_deleteRecords repository id owner
            exact ⟨h.draws, h.drawn, h.active⟩

theorem keepsSettled_restart (repository : Repository) (now : Int) :
    KeepsSettled repository (repository.restart now) := by
  have hrows : ∀ (rows : List WorkRecordRow) (repository : Repository),
      KeepsSettled repository (recoverRows now rows repository) := by
    intro rows
    induction rows with
    | nil => exact .refl
    | cons row rest ih =>
        intro repository
        exact (keepsSettled_update _ _ (restartRow now) (fun _ => rfl)
          fun _ => by simp [restartRow]).trans (ih _)
  exact hrows _ _

end Repository

end AiTeam.WorkRecord
