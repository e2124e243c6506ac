/-
`WorkRecordReadService`: pages of history and of changes, and a client that
keeps a mirror of them.  The segments that Pi's session files hold are inputs.
A record is shown as its row: titles, names and message texts are joined from
other tables and files and are not part of the record.
-/
import Mathlib.Data.Prod.Lex
import AiTeam.Machine
import AiTeam.WorkRecord.Repository

namespace AiTeam.WorkRecord

/-! ### Queries -/

def WorkFilter.covers (filter : WorkFilter) (owner : WorkOwner)
    (employeeId : String) : Bool :=
  owner = filter.owner &&
    filter.employeeId.all fun wanted => decide (employeeId = wanted)

/-- `? IS NULL OR (occurred_at >= ? AND occurred_at < ?)`. -/
def WorkFilter.inWindow (filter : WorkFilter) (occurredAt : Option Int) :
    Bool :=
  match filter.windowStart, filter.windowEnd, occurredAt with
  | none, _, _ => true
  | some start, some stop, some occurred => start ≤ occurred && occurred < stop
  | some _, _, _ => false

def WorkFilter.matchesRecord (filter : WorkFilter) (row : WorkRecordRow) :
    Bool :=
  filter.covers row.owner row.employeeId && filter.inWindow row.occurredAt

def WorkFilter.matchesChange (filter : WorkFilter) (row : WorkChangeRow) :
    Bool :=
  filter.covers row.owner row.employeeId

/-- `(COALESCE(occurred_at, -8640000000000000), created_seq)`. -/
def WorkRecordRow.position (row : WorkRecordRow) : Int ×ₗ Nat :=
  toLex (row.occurredAt.getD (-8640000000000000), row.createdSeq)

namespace Repository

/-- The rows of a history query, newest first. -/
def historyRows (repository : Repository) (filter : WorkFilter)
    (boundary : Option (Int ×ₗ Nat)) : List WorkRecordRow :=
  (repository.records.filter fun row => filter.matchesRecord row &&
    boundary.all fun before => decide (row.position < before)).insertionSort
      fun left right => right.position ≤ left.position

def history (repository : Repository) (filter : WorkFilter) (limit : Nat)
    (boundary : Option (Int ×ₗ Nat)) : List WorkRecordRow :=
  (repository.historyRows filter boundary).take limit

/-- The rows of a change query, oldest first. -/
def changeRows (repository : Repository) (filter : WorkFilter)
    (after : Nat) : List WorkChangeRow :=
  (repository.changes.filter fun row => filter.matchesChange row &&
    decide (after < row.seq)).insertionSort
      fun left right => left.seq ≤ right.seq

def changesAfter (repository : Repository) (filter : WorkFilter)
    (after limit : Nat) : List WorkChangeRow :=
  (repository.changeRows filter after).take limit

/-- `COALESCE(MAX(seq), 0)`. -/
def watermark (repository : Repository) (filter : WorkFilter) : Nat :=
  ((repository.changes.filter filter.matchesChange).map
    WorkChangeRow.seq).foldr max 0

end Repository

/-! ### The service -/

inductive Resource where
  | before
  | changes
deriving DecidableEq

/-- `readCursorScope` of a resource, an owner and the filters of the query. -/
structure ReadScope where
  resource : Resource
  filter : WorkFilter
deriving DecidableEq

structure HistoryCursor where
  scope : ReadScope
  boundary : Int ×ₗ Nat
  watermark : Nat

structure ChangeCursor where
  scope : ReadScope
  after : Nat
deriving DecidableEq

inductive ReadError where
  | invalidLimit
  | invalidCursor
  /-- An error thrown while history was imported. -/
  | failed (message : String)
  /-- A record whose conversation its owner does not have. -/
  | unreadable
deriving DecidableEq

/-- The segments found in the session file of one participant. -/
structure HistorySource where
  conversationId : String
  employeeId : Option String
  segments : List WorkHistorySegment
deriving DecidableEq

/-- `readPageLimit`. -/
def readPageLimit (limit : Option Nat) : Except ReadError Nat :=
  let limit := limit.getD 50
  if 1 ≤ limit ∧ limit ≤ 100 then .ok limit else .error .invalidLimit

/-- The participant a source is imported for, if the filter wants it. -/
def importedFor (repository : Repository) (filter : WorkFilter)
    (source : HistorySource) : Option Participant :=
  match source.employeeId.filter (· ≠ "") with
  | none => none
  | some employeeId =>
      if repository.owns source.conversationId filter.owner &&
          (filter.employeeId.filter (· ≠ "")).all (· = employeeId) then
        some ⟨filter.owner, source.conversationId, employeeId⟩
      else none

/-- `backfill`.  Every import is a transaction of its own, so an error keeps
the ones before it. -/
def backfill (filter : WorkFilter) (now : Int) :
    List HistorySource → Repository → Repository × Except ReadError Unit
  | [], repository => (repository, .ok ())
  | source :: rest, repository =>
      match importedFor repository filter source with
      | none => backfill filter now rest repository
      | some input =>
          match repository.importHistory input source.segments now with
          | .ok repository' => backfill filter now rest repository'
          | .error message => (repository, .error (.failed message))

/-- `view`, which reads the title of the record's conversation. -/
def view (repository : Repository) (row : WorkRecordRow) :
    Except ReadError WorkRecordRow :=
  if repository.owns row.conversationId row.owner then .ok row
  else .error .unreadable

structure HistoryPage where
  data : List WorkRecordRow
  nextCursor : Option HistoryCursor
  after : ChangeCursor

def changeScope (filter : WorkFilter) : ReadScope :=
  ⟨.changes, { filter with windowStart := none, windowEnd := none }⟩

/-- The cursor of a history request, if it is one of this scope and not ahead
of the log. -/
def checkBefore (repository : Repository) (filter : WorkFilter) :
    Option HistoryCursor → Except ReadError Unit
  | none => .ok ()
  | some cursor =>
      if cursor.scope ≠ ⟨.before, filter⟩ ∨ (ofLex cursor.boundary).2 < 1 ∨
          repository.watermark filter < cursor.watermark then
        .error .invalidCursor
      else .ok ()

/-- The page that `history` returns once the backfill is done. -/
def historyPage (repository : Repository) (filter : WorkFilter)
    (limit : Nat) (before : Option HistoryCursor) :
    Except ReadError HistoryPage := do
  let watermark := (before.map HistoryCursor.watermark).getD
    (repository.watermark filter)
  let rows := repository.history filter (limit + 1)
    (before.map HistoryCursor.boundary)
  let page := rows.take limit
  let data ← page.mapM (view repository)
  .ok
    { data
      nextCursor :=
        if rows.length > limit then
          page.getLast?.map fun last =>
            ⟨⟨.before, filter⟩, last.position, watermark⟩
        else none
      after := ⟨changeScope filter, watermark⟩ }

/-- `history`.  The repository is returned even on an error: imports stay. -/
def readHistory (repository : Repository) (filter : WorkFilter)
    (limit : Option Nat) (before : Option HistoryCursor)
    (sources : List HistorySource) (now : Int) :
    Repository × Except ReadError HistoryPage :=
  match readPageLimit limit, checkBefore repository filter before with
  | .error error, _ => (repository, .error error)
  | _, .error error => (repository, .error error)
  | .ok limit, .ok () =>
      match backfill filter now sources repository with
      | (repository', .error error) => (repository', .error error)
      | (repository', .ok ()) =>
          (repository', historyPage repository' filter limit before)

/-- `seq` numbers the change; the wire format leaves it out. -/
inductive WorkChange where
  | upsert (seq recordId : Nat) (record : WorkRecordRow)
  | delete (seq recordId : Nat)
deriving DecidableEq

def WorkChange.seq : WorkChange → Nat
  | .upsert seq _ _ => seq
  | .delete seq _ => seq

def WorkChange.recordId : WorkChange → Nat
  | .upsert _ recordId _ => recordId
  | .delete _ recordId => recordId

structure ChangesPage where
  data : List WorkChange
  hasMore : Bool
  nextCursor : ChangeCursor
deriving DecidableEq

/-- One item of a page of changes; a record that is not deleted is read again
by its id. -/
def changeItem (repository : Repository) (filter : WorkFilter)
    (change : WorkChangeRow) : Except ReadError WorkChange :=
  if change.deleted then .ok (.delete change.seq change.recordId)
  else match repository.get change.recordId filter.owner with
    | none => .error .unreadable
    | some row =>
        (view repository row).map (WorkChange.upsert change.seq
          change.recordId)

/-- `after` of a change request: 0 without a cursor. -/
def checkAfter (repository : Repository) (filter : WorkFilter) :
    Option ChangeCursor → Except ReadError Nat
  | none => .ok 0
  | some cursor =>
      if cursor.scope ≠ changeScope filter ∨
          repository.watermark filter < cursor.after then
        .error .invalidCursor
      else .ok cursor.after

def changesPage (repository : Repository) (filter : WorkFilter)
    (limit after : Nat) : Except ReadError ChangesPage := do
  let rows := repository.changesAfter filter after (limit + 1)
  let page := rows.take limit
  let next :=
    if rows.length > limit then
      (page.getLast?.map WorkChangeRow.seq).getD 0
    else repository.watermark filter
  let data ← page.mapM (changeItem repository filter)
  .ok
    { data, hasMore := rows.length > limit,
      nextCursor := ⟨changeScope filter, next⟩ }

/-- `changes`. -/
def readChanges (repository : Repository) (filter : WorkFilter)
    (limit : Option Nat) (after : Option ChangeCursor)
    (sources : List HistorySource) (now : Int) :
    Repository × Except ReadError ChangesPage :=
  match readPageLimit limit, checkAfter repository filter after with
  | .error error, _ => (repository, .error error)
  | _, .error error => (repository, .error error)
  | .ok limit, .ok after =>
      match backfill filter now sources repository with
      | (repository', .error error) => (repository', .error error)
      | (repository', .ok ()) =>
          (repository', changesPage repository' filter limit after)

end AiTeam.WorkRecord
