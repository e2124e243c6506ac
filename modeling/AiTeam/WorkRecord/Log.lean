/-
The work-record tables as a change log.  Every record has one row in the log,
with its owner and employee, and every operation moves the log of a filter by
a step of `AiTeam.Feed`: what changes gets a new number.
-/
import AiTeam.Feed
import AiTeam.WorkRecord.ReadService

namespace AiTeam.WorkRecord

variable {repository middle repository' : Repository}
  {record row : WorkRecordRow} {id : Nat}

namespace Repository

/-! ### Well-formed tables -/

/-- The change row is one of the record. -/
def Logs (record : WorkRecordRow) (change : WorkChangeRow) : Prop :=
  change.recordId = record.id ∧ change.owner = record.owner ∧
    change.employeeId = record.employeeId

structure WellFormed (repository : Repository) : Prop where
  records : repository.records.Pairwise fun a b =>
    a.id ≠ b.id ∧ a.createdSeq ≠ b.createdSeq
  created : ∀ record ∈ repository.records,
    record.createdSeq ≤ repository.createdSeq
  drawn : repository.Drawn
  changes : repository.changes.Pairwise fun a b =>
    a.recordId ≠ b.recordId ∧ a.seq ≠ b.seq
  numbered : ∀ change ∈ repository.changes,
    change.seq ≤ repository.changeSeq
  changesDrawn : ∀ change ∈ repository.changes,
    change.recordId < repository.draws
  logged : ∀ record ∈ repository.records, ∃ change ∈ repository.changes,
    Logs record change ∧ change.deleted = false
  live : ∀ change ∈ repository.changes, change.deleted = false →
    ∃ record ∈ repository.records, record.id = change.recordId

theorem wellFormed_empty : WellFormed empty := by
  constructor <;> simp [empty, Drawn]

theorem keyed_of_pairwise {R K : Type} [DecidableEq K] {key : R → K}
    {rows : List R} (h : rows.Pairwise fun a b => key a ≠ key b) :
    Keyed key rows := by
  induction rows with
  | nil => exact Keyed.nil key
  | cons head tail ih =>
      obtain ⟨hhead, htail⟩ := List.pairwise_cons.mp h
      intro row hrow
      rcases List.mem_cons.mp hrow with rfl | hmem
      · simp [lookup]
      · have hne : key head ≠ key row := hhead row hmem
        simpa [lookup, hne] using ih htail row hmem

theorem WellFormed.keyed (h : repository.WellFormed) :
    Keyed WorkRecordRow.id repository.records :=
  keyed_of_pairwise (h.records.imp fun hne => hne.1)

theorem WellFormed.changesKeyed (h : repository.WellFormed) :
    Keyed WorkChangeRow.recordId repository.changes :=
  keyed_of_pairwise (h.changes.imp fun hne => hne.1)

/-- The log row of a record that is there. -/
theorem WellFormed.lookup_change (h : repository.WellFormed)
    (hrecord : record ∈ repository.records) :
    ∃ change, lookup WorkChangeRow.recordId record.id repository.changes =
      some change ∧ Logs record change ∧ change.deleted = false := by
  obtain ⟨change, hchange, hlogs, hlive⟩ := h.logged record hrecord
  have hfound := h.changesKeyed change hchange
  rw [hlogs.1] at hfound
  exact ⟨change, hfound, hlogs, hlive⟩

/-! ### One change -/

/-- The change row has the owner and the employee of the record. -/
def OfParty (row : WorkRecordRow) (found : Option WorkChangeRow) : Prop :=
  ∀ change, found = some change →
    change.owner = row.owner ∧ change.employeeId = row.employeeId

/-- The row of a record moves to the next number. -/
theorem lookup_change_self (repository : Repository) (row : WorkRecordRow)
    (deleted : Bool) (hparty : OfParty row
      (lookup WorkChangeRow.recordId row.id repository.changes)) :
    lookup WorkChangeRow.recordId row.id
        (repository.change row deleted).changes =
      some ⟨repository.changeSeq + 1, row.id, row.owner, row.employeeId,
        deleted⟩ := by
  simp only [change]
  split
  · next hnone => simp [lookup_append, hnone]
  · next old hold =>
      rw [lookup_updateWhere WorkChangeRow.recordId _ _ (resequence _ deleted)
        (fun _ => rfl), hold]
      obtain ⟨howner, hemployee⟩ := hparty old hold
      have hid := lookup_key hold
      simp [hid, resequence, howner, hemployee]

theorem lookup_change_of_ne (deleted : Bool) (hid : row.id ≠ id) :
    lookup WorkChangeRow.recordId id (repository.change row deleted).changes =
      lookup WorkChangeRow.recordId id repository.changes := by
  simp only [change]
  split
  · simp [lookup_append, hid]
  · rw [lookup_updateWhere WorkChangeRow.recordId id _ (resequence _ deleted)
      fun _ => rfl]
    cases hother : lookup WorkChangeRow.recordId id repository.changes with
    | none => rfl
    | some other => simp [lookup_key hother, Ne.symm hid]

/-- The rows after a change: the others, and the one of the record with a new
number. -/
theorem mem_change {deleted : Bool} {change : WorkChangeRow}
    (h : change ∈ (repository.change row deleted).changes) :
    (change ∈ repository.changes ∧ change.recordId ≠ row.id) ∨
      (change.recordId = row.id ∧ change.seq = repository.changeSeq + 1 ∧
        change.deleted = deleted) := by
  simp only [Repository.change] at h
  split at h
  · next hnone =>
      rcases List.mem_append.mp h with hold | hnew
      · refine .inl ⟨hold, fun heq => ?_⟩
        rw [lookup, List.find?_eq_none] at hnone
        exact hnone change hold (decide_eq_true heq)
      · rw [List.mem_singleton.mp hnew]
        exact .inr ⟨rfl, rfl, rfl⟩
  · obtain ⟨old, hold, rfl⟩ := List.mem_map.mp h
    split
    · next hid => exact .inr ⟨of_decide_eq_true hid, rfl, rfl⟩
    · next hid => exact .inl ⟨hold, fun heq => hid (decide_eq_true heq)⟩

theorem pairwise_change (row : WorkRecordRow) (deleted : Bool)
    (hpairwise : repository.changes.Pairwise fun a b =>
      a.recordId ≠ b.recordId ∧ a.seq ≠ b.seq)
    (hnumbered : ∀ change ∈ repository.changes,
      change.seq ≤ repository.changeSeq) :
    (repository.change row deleted).changes.Pairwise fun a b =>
      a.recordId ≠ b.recordId ∧ a.seq ≠ b.seq := by
  simp only [Repository.change]
  split
  · next hnone =>
      rw [List.pairwise_append]
      refine ⟨hpairwise, List.pairwise_singleton _ _, ?_⟩
      intro old hold new hnew
      rw [List.mem_singleton.mp hnew]
      rw [lookup, List.find?_eq_none] at hnone
      have hbound := hnumbered old hold
      refine ⟨fun heq => hnone old hold (decide_eq_true heq), ?_⟩
      show old.seq ≠ repository.changeSeq + 1
      omega
  · rw [updateWhere, List.pairwise_map]
    refine (List.Pairwise.and_mem.mp hpairwise).imp ?_
    rintro a b ⟨ha, hb, hid, hseq⟩
    have hboundA := hnumbered a ha
    have hboundB := hnumbered b hb
    -- at most one of the two rows is the one that moves
    by_cases hrowA : a.recordId = row.id
    · have hrowB : b.recordId ≠ row.id := fun h => hid (hrowA.trans h.symm)
      simp only [hrowA, hrowB, resequence, decide_true, decide_false, if_true]
      refine ⟨fun h => hrowB h.symm, ?_⟩
      show repository.changeSeq + 1 ≠ b.seq
      omega
    · by_cases hrowB : b.recordId = row.id
      · simp only [hrowA, hrowB, resequence, decide_true, decide_false,
          if_true]
        refine ⟨hrowA, ?_⟩
        show a.seq ≠ repository.changeSeq + 1
        omega
      · simp only [hrowA, hrowB, decide_false]
        exact ⟨hid, hseq⟩

/-! ### The log of a filter -/

/-- The records of a filter and their latest changes. -/
def log (repository : Repository) (filter : WorkFilter) :
    Feed.Log Nat WorkRecordRow where
  current id := (lookup WorkRecordRow.id id repository.records).filter
    filter.matchesRecord
  seq id := ((lookup WorkChangeRow.recordId id repository.changes).filter
    filter.matchesChange).map WorkChangeRow.seq
  top := repository.changeSeq

/-- The record under an id has the owner and the employee of `row`. -/
def SameParty (row : WorkRecordRow) (found : Option WorkRecordRow) : Prop :=
  ∀ record, found = some record →
    record.owner = row.owner ∧ record.employeeId = row.employeeId

/-- A record that the filter does not cover is not in its log. -/
theorem SameParty.not_current {found : Option WorkRecordRow}
    {filter : WorkFilter} (h : SameParty row found)
    (hcovers : filter.covers row.owner row.employeeId = false) :
    found.filter filter.matchesRecord = none := by
  cases found with
  | none => rfl
  | some record =>
      obtain ⟨howner, hemployee⟩ := h record rfl
      refine Option.filter_some_neg ?_
      rw [WorkFilter.matchesRecord, howner, hemployee, hcovers,
        Bool.false_and]

theorem OfParty.not_listed {found : Option WorkChangeRow} {filter : WorkFilter}
    (h : OfParty row found)
    (hcovers : filter.covers row.owner row.employeeId = false) :
    found.filter filter.matchesChange = none := by
  cases found with
  | none => rfl
  | some change =>
      obtain ⟨howner, hemployee⟩ := h change rfl
      refine Option.filter_some_neg ?_
      rw [WorkFilter.matchesChange, howner, hemployee, hcovers]

/-- A key whose record and change were rewritten for one owner and employee:
it has a new number, or the filter covers neither. -/
theorem step_key {new : Repository} (filter : WorkFilter)
    {change : WorkChangeRow}
    (hold : SameParty row (lookup WorkRecordRow.id row.id repository.records))
    (hnew : SameParty row (lookup WorkRecordRow.id row.id new.records))
    (hlog : OfParty row
      (lookup WorkChangeRow.recordId row.id repository.changes))
    (hchange : lookup WorkChangeRow.recordId row.id new.changes = some change)
    (hparty : change.owner = row.owner ∧ change.employeeId = row.employeeId)
    (hseq : repository.changeSeq < change.seq) :
    ((new.log filter).current row.id = (repository.log filter).current row.id ∧
      (new.log filter).seq row.id = (repository.log filter).seq row.id) ∨
      ∃ n, (new.log filter).seq row.id = some n ∧
        (repository.log filter).top < n := by
  cases hcovers : filter.covers row.owner row.employeeId with
  | true =>
      refine .inr ⟨change.seq, ?_, hseq⟩
      have hmatches : filter.matchesChange change = true := by
        rw [WorkFilter.matchesChange, hparty.1, hparty.2, hcovers]
      simp only [log, hchange, Option.filter_some_pos hmatches,
        Option.map_some]
  | false =>
      have hlisted : OfParty row
          (lookup WorkChangeRow.recordId row.id new.changes) := by
        intro other hother
        rw [hchange] at hother
        cases hother
        exact hparty
      left
      simp only [log, hold.not_current hcovers, hnew.not_current hcovers,
        hlog.not_listed hcovers, hlisted.not_listed hcovers]
      exact ⟨trivial, trivial⟩

/-- A change to the record of `row` is a step of every log.  `middle` is the
repository whose records were written and whose log was not. -/
theorem step_change (filter : WorkFilter) (deleted : Bool)
    (hchanges : middle.changes = repository.changes)
    (hseq : middle.changeSeq = repository.changeSeq)
    (hother : ∀ id, id ≠ row.id →
      lookup WorkRecordRow.id id middle.records =
        lookup WorkRecordRow.id id repository.records)
    (hold : SameParty row (lookup WorkRecordRow.id row.id repository.records))
    (hnew : SameParty row (lookup WorkRecordRow.id row.id middle.records))
    (hlog : OfParty row
      (lookup WorkChangeRow.recordId row.id repository.changes)) :
    (repository.log filter).Step ((middle.change row deleted).log filter) where
  top := by
    show repository.changeSeq ≤ middle.changeSeq + 1
    omega
  keys := by
    intro id
    by_cases hid : row.id = id
    · subst hid
      refine step_key filter hold hnew hlog
        (lookup_change_self middle row deleted (hchanges ▸ hlog)) ⟨rfl, rfl⟩ ?_
      show repository.changeSeq < middle.changeSeq + 1
      omega
    · left
      simp only [log, lookup_change_of_ne deleted hid, hchanges,
        change_records, hother id (Ne.symm hid)]
      exact ⟨trivial, trivial⟩

/-! ### Operations -/

/-- What an operation does to the tables and to the log of every filter. -/
structure Advances (old new : Repository) : Prop where
  wellFormed : new.WellFormed
  step : ∀ filter : WorkFilter, (old.log filter).Step (new.log filter)

theorem Advances.refl (h : repository.WellFormed) :
    Advances repository repository :=
  ⟨h, fun _ => .refl _⟩

theorem Advances.trans {first second third : Repository}
    (h : Advances first second) (h' : Advances second third) :
    Advances first third :=
  ⟨h'.wellFormed, fun filter => (h.step filter).trans (h'.step filter)⟩

theorem lookup_eq_none_of_forall {R : Type} {key : R → Nat} {k : Nat}
    {rows : List R} (h : ∀ row ∈ rows, key row ≠ k) :
    lookup key k rows = none := by
  rw [lookup, List.find?_eq_none]
  intro row hrow hkey
  exact h row hrow (of_decide_eq_true hkey)

/-- Records whose ids, owners and employees are those of `repository`, apart
from the one of `row`. -/
structure Rewrites (repository middle : Repository) (row : WorkRecordRow) :
    Prop where
  changes : middle.changes = repository.changes
  changeSeq : middle.changeSeq = repository.changeSeq
  draws : repository.draws ≤ middle.draws
  records : middle.records.Pairwise fun a b =>
    a.id ≠ b.id ∧ a.createdSeq ≠ b.createdSeq
  created : ∀ record ∈ middle.records, record.createdSeq ≤ middle.createdSeq
  drawn : middle.Drawn
  member : ∃ record ∈ middle.records, record.id = row.id
  party : SameParty row (lookup WorkRecordRow.id row.id middle.records)
  others : ∀ id, id ≠ row.id →
    lookup WorkRecordRow.id id middle.records =
      lookup WorkRecordRow.id id repository.records
  before : SameParty row
    (lookup WorkRecordRow.id row.id repository.records)
  log : OfParty row (lookup WorkChangeRow.recordId row.id repository.changes)

section

variable (h : repository.WellFormed)
include h

theorem wellFormed_change (hwrites : Rewrites repository middle row) :
    (middle.change row false).WellFormed := by
  have hkeyed : Keyed WorkRecordRow.id middle.records :=
    keyed_of_pairwise (hwrites.records.imp fun hne => hne.1)
  have hself := lookup_change_self middle row false
    (hwrites.changes ▸ hwrites.log)
  have hnumbered : ∀ change ∈ middle.changes,
      change.seq ≤ middle.changeSeq := by
    rw [hwrites.changes, hwrites.changeSeq]
    exact h.numbered
  constructor
  case records => exact hwrites.records
  case created => exact hwrites.created
  case drawn => exact hwrites.drawn
  case changes =>
    exact pairwise_change row false (hwrites.changes ▸ h.changes) hnumbered
  case numbered =>
    intro change hchange
    show change.seq ≤ middle.changeSeq + 1
    rcases mem_change hchange with ⟨hold, -⟩ | ⟨-, hseq, -⟩
    · exact Nat.le_succ_of_le (hnumbered change hold)
    · exact Nat.le_of_eq hseq
  case changesDrawn =>
    intro change hchange
    rcases mem_change hchange with ⟨hold, -⟩ | ⟨hid, -⟩
    · rw [hwrites.changes] at hold
      exact Nat.lt_of_lt_of_le (h.changesDrawn change hold) hwrites.draws
    · obtain ⟨record, hrecord, hrecordId⟩ := hwrites.member
      rw [hid, ← hrecordId]
      exact hwrites.drawn record hrecord
  case logged =>
    intro record hrecord
    have hfound := hkeyed record hrecord
    by_cases hid : row.id = record.id
    · rw [← hid] at hfound
      obtain ⟨howner, hemployee⟩ := hwrites.party record hfound
      exact ⟨_, lookup_mem hself,
        ⟨hid, howner.symm, hemployee.symm⟩, rfl⟩
    · rw [hwrites.others record.id (Ne.symm hid)] at hfound
      obtain ⟨change, hchange, hlogs⟩ := h.lookup_change (lookup_mem hfound)
      have hkept : lookup WorkChangeRow.recordId record.id
          (middle.change row false).changes = some change := by
        rw [lookup_change_of_ne false hid, hwrites.changes]
        exact hchange
      exact ⟨change, lookup_mem hkept, hlogs⟩
  case live =>
    intro change hchange hlive
    rcases mem_change hchange with ⟨hold, hid⟩ | ⟨hid, -⟩
    · rw [hwrites.changes] at hold
      obtain ⟨record, hrecord, hrecordId⟩ := h.live change hold hlive
      have hfound := h.keyed record hrecord
      rw [← hwrites.others record.id (hrecordId ▸ hid)] at hfound
      exact ⟨record, lookup_mem hfound, hrecordId⟩
    · obtain ⟨record, hrecord, hrecordId⟩ := hwrites.member
      exact ⟨record, hrecord, hrecordId.trans hid.symm⟩

theorem Rewrites.advances (hwrites : Rewrites repository middle row) :
    Advances repository (middle.change row false) :=
  ⟨wellFormed_change h hwrites, fun filter =>
    step_change filter false hwrites.changes hwrites.changeSeq hwrites.others
      hwrites.before hwrites.party hwrites.log⟩

theorem advances_insert (row : Nat → Nat → WorkRecordRow)
    (hid : ∀ createdSeq id, (row createdSeq id).id = id)
    (hcreated : ∀ createdSeq id, (row createdSeq id).createdSeq = createdSeq) :
    Advances repository (repository.insert row) := by
  have hrowId := hid (repository.createdSeq + 1) repository.draws
  have hrowSeq := hcreated (repository.createdSeq + 1) repository.draws
  rw [insert]
  generalize row (repository.createdSeq + 1) repository.draws = new at *
  have hnoChange : lookup WorkChangeRow.recordId new.id
      repository.changes = none := by
    rw [hrowId]
    exact lookup_eq_none_of_forall fun change hchange =>
      Nat.ne_of_lt (h.changesDrawn change hchange)
  have hnoRecord : lookup WorkRecordRow.id new.id
      repository.records = none := by
    rw [hrowId]
    exact lookup_eq_none_of_forall fun record hrecord =>
      Nat.ne_of_lt (h.drawn record hrecord)
  refine Rewrites.advances h
    { changes := rfl, changeSeq := rfl, draws := Nat.le_succ _
      records := ?_, created := ?_, drawn := ?_
      member := ⟨new, List.mem_append_right _ (List.mem_singleton.mpr rfl),
        rfl⟩
      party := ?_, others := ?_, before := ?_, log := ?_ }
  · refine List.pairwise_append.mpr
      ⟨h.records, List.pairwise_singleton _ _, ?_⟩
    intro old hold last hlast
    rw [List.mem_singleton.mp hlast, hrowId, hrowSeq]
    have hbound := h.created old hold
    have hdrawn := h.drawn old hold
    exact ⟨by omega, by omega⟩
  · intro record hrecord
    show record.createdSeq ≤ repository.createdSeq + 1
    rcases List.mem_append.mp hrecord with hold | hlast
    · exact Nat.le_succ_of_le (h.created record hold)
    · rw [List.mem_singleton.mp hlast]
      exact Nat.le_of_eq hrowSeq
  · intro record hrecord
    show record.id < repository.draws + 1
    rcases List.mem_append.mp hrecord with hold | hlast
    · exact Nat.lt_succ_of_lt (h.drawn record hold)
    · rw [List.mem_singleton.mp hlast]
      omega
  · intro record hrecord
    simp only [lookup_append, hnoRecord, if_true, Option.none_or,
      Option.some.injEq] at hrecord
    rw [hrecord]
    exact ⟨rfl, rfl⟩
  · intro id hne
    simp [lookup_append, Ne.symm hne]
  · intro record hrecord
    rw [hnoRecord] at hrecord
    cases hrecord
  · intro change hchange
    rw [hnoChange] at hchange
    cases hchange

/-- An update of a record that is there, which keeps what identifies it. -/
theorem advances_update (set : WorkRecordRow → WorkRecordRow)
    (hset : ∀ old, (set old).id = old.id ∧
      (set old).createdSeq = old.createdSeq ∧ (set old).owner = old.owner ∧
      (set old).employeeId = old.employeeId)
    (hrecord : record ∈ repository.records) (hid : record.id = row.id)
    (howner : record.owner = row.owner)
    (hemployee : record.employeeId = row.employeeId) :
    Advances repository (repository.update row set) := by
  have hfound := h.keyed record hrecord
  have hlookup := fun id => lookup_updateWhere WorkRecordRow.id id
    (fun old => decide (old.id = row.id)) set (fun old => (hset old).1)
    repository.records
  have hsame : ∀ old : WorkRecordRow,
      (if decide (old.id = row.id) then set old else old).id = old.id ∧
      (if decide (old.id = row.id) then set old else old).createdSeq =
        old.createdSeq := by
    intro old
    split
    · exact ⟨(hset old).1, (hset old).2.1⟩
    · exact ⟨rfl, rfl⟩
  rw [update]
  refine Rewrites.advances h
    { changes := rfl, changeSeq := rfl, draws := Nat.le_refl _
      records := ?_, created := ?_, drawn := ?_, member := ?_
      party := ?_, others := ?_, before := ?_, log := ?_ }
  · rw [updateWhere, List.pairwise_map]
    refine h.records.imp fun hne => ?_
    rwa [(hsame _).1, (hsame _).1, (hsame _).2, (hsame _).2]
  · intro other hother
    obtain ⟨old, hold, rfl⟩ := List.mem_map.mp hother
    rw [(hsame old).2]
    exact h.created old hold
  · intro other hother
    obtain ⟨old, hold, rfl⟩ := List.mem_map.mp hother
    rw [(hsame old).1]
    exact h.drawn old hold
  · exact ⟨_, List.mem_map_of_mem hrecord, (hsame record).1.trans hid⟩
  · intro other hother
    rw [hlookup, ← hid, hfound] at hother
    simp only [hid, decide_true, if_true, Option.map_some,
      Option.some.injEq] at hother
    rw [← hother, (hset record).2.2.1, (hset record).2.2.2]
    exact ⟨howner, hemployee⟩
  · intro id hne
    rw [hlookup]
    cases hother : lookup WorkRecordRow.id id repository.records with
    | none => rfl
    | some other => simp [lookup_key hother, hne]
  · intro other hother
    rw [← hid, hfound] at hother
    cases hother
    exact ⟨howner, hemployee⟩
  · intro change hchange
    obtain ⟨found, hlog, hlogs, -⟩ := h.lookup_change hrecord
    rw [← hid, hlog] at hchange
    cases hchange
    exact ⟨hlogs.2.1.trans howner, hlogs.2.2.trans hemployee⟩

end

/-- What the tombstones of some records do to the log. -/
structure Tombstoned (repository : Repository) (rows : List WorkRecordRow)
    (marked : Repository) : Prop where
  changeSeq : repository.changeSeq ≤ marked.changeSeq
  changes : marked.changes.Pairwise fun a b =>
    a.recordId ≠ b.recordId ∧ a.seq ≠ b.seq
  numbered : ∀ change ∈ marked.changes, change.seq ≤ marked.changeSeq
  source : ∀ change ∈ marked.changes, change ∈ repository.changes ∨
    (change.deleted = true ∧ ∃ row ∈ rows, change.recordId = row.id)
  others : ∀ id, (∀ row ∈ rows, row.id ≠ id) →
    lookup WorkChangeRow.recordId id marked.changes =
      lookup WorkChangeRow.recordId id repository.changes
  marked : ∀ row ∈ rows, ∃ seq, repository.changeSeq < seq ∧
    lookup WorkChangeRow.recordId row.id marked.changes =
      some ⟨seq, row.id, row.owner, row.employeeId, true⟩

theorem tombstoned (rows : List WorkRecordRow)
    (hchanges : repository.changes.Pairwise fun a b =>
      a.recordId ≠ b.recordId ∧ a.seq ≠ b.seq)
    (hnumbered : ∀ change ∈ repository.changes,
      change.seq ≤ repository.changeSeq)
    (hrows : rows.Pairwise fun a b => a.id ≠ b.id)
    (hlog : ∀ row ∈ rows, OfParty row
      (lookup WorkChangeRow.recordId row.id repository.changes)) :
    Tombstoned repository rows (repository.tombstones rows) := by
  induction rows generalizing repository with
  | nil =>
      exact ⟨Nat.le_refl _, hchanges, hnumbered, fun _ h => .inl h,
        fun _ _ => rfl, by simp⟩
  | cons row rest ih =>
      obtain ⟨hhead, htail⟩ := List.pairwise_cons.mp hrows
      have hparty := hlog row List.mem_cons_self
      have hself := lookup_change_self repository row true hparty
      have hmarked : ∀ change ∈ (repository.change row true).changes,
          change.seq ≤ (repository.change row true).changeSeq := by
        intro change hchange
        show change.seq ≤ repository.changeSeq + 1
        rcases mem_change hchange with ⟨hold, -⟩ | ⟨-, hseq, -⟩
        · exact Nat.le_succ_of_le (hnumbered change hold)
        · exact Nat.le_of_eq hseq
      have hrest := ih (pairwise_change row true hchanges hnumbered) hmarked
        htail (by
          intro other hother
          rw [lookup_change_of_ne true (hhead other hother)]
          exact hlog other (List.mem_cons_of_mem _ hother))
      have hseq : repository.changeSeq <
          (repository.change row true).changeSeq := Nat.lt_succ_self _
      constructor
      case changeSeq => exact Nat.le_trans hseq.le hrest.changeSeq
      case changes => exact hrest.changes
      case numbered => exact hrest.numbered
      case source =>
        intro change hchange
        rcases hrest.source change hchange with hold | ⟨hdeleted, other, hother,
          hid⟩
        · rcases mem_change hold with ⟨hbefore, -⟩ | ⟨hid, -, hdeleted⟩
          · exact .inl hbefore
          · exact .inr ⟨hdeleted, row, List.mem_cons_self, hid⟩
        · exact .inr ⟨hdeleted, other, List.mem_cons_of_mem _ hother, hid⟩
      case others =>
        intro id hne
        have hrow := hne row List.mem_cons_self
        exact (hrest.others id fun other hother =>
          hne other (List.mem_cons_of_mem _ hother)).trans
            (lookup_change_of_ne true hrow)
      case marked =>
        intro other hother
        rcases List.mem_cons.mp hother with rfl | hmem
        · refine ⟨repository.changeSeq + 1, hseq, ?_⟩
          exact (hrest.others other.id fun later hlater =>
            Ne.symm (hhead later hlater)).trans hself
        · obtain ⟨seq, hlater, hfound⟩ := hrest.marked other hmem
          exact ⟨seq, Nat.lt_trans hseq hlater, hfound⟩

/-- A record that is kept has another id than the deleted ones. -/
theorem WellFormed.ne_of_kept (h : repository.WellFormed)
    {gone : WorkRecordRow → Bool} (hrecord : record ∈ repository.records)
    (hkept : gone record = false) (hrow : row ∈ repository.records.filter gone)
    : row.id ≠ record.id := by
  intro hid
  obtain ⟨hmem, hgone⟩ := List.mem_filter.mp hrow
  rw [h.keyed.eq_of_key hmem hrecord hid, hkept] at hgone
  exact nomatch hgone

/-- Records are deleted after their tombstones were written. -/
theorem advances_delete {marked : Repository} (h : repository.WellFormed)
    (gone : WorkRecordRow → Bool)
    (hmarked : Tombstoned repository (repository.records.filter gone) marked)
    (hdraws : marked.draws = repository.draws)
    (hcreated : marked.createdSeq = repository.createdSeq) :
    Advances repository { marked with
      records := repository.records.filter fun row => !gone row } := by
  have hkept : ∀ {record : WorkRecordRow},
      record ∈ (repository.records.filter fun row => !gone row) →
      record ∈ repository.records ∧ gone record = false := by
    intro record hrecord
    obtain ⟨hmem, hgone⟩ := List.mem_filter.mp hrecord
    exact ⟨hmem, by simpa using hgone⟩
  constructor
  case wellFormed =>
    constructor
    case records => exact h.records.filter _
    case created =>
      intro record hrecord
      exact hcreated ▸ h.created record (hkept hrecord).1
    case drawn =>
      intro record hrecord
      exact hdraws ▸ h.drawn record (hkept hrecord).1
    case changes => exact hmarked.changes
    case numbered => exact hmarked.numbered
    case changesDrawn =>
      intro change hchange
      show change.recordId < marked.draws
      rw [hdraws]
      rcases hmarked.source change hchange with hold | ⟨-, row, hrow, hid⟩
      · exact h.changesDrawn change hold
      · rw [hid]
        exact h.drawn row (List.mem_filter.mp hrow).1
    case logged =>
      intro record hrecord
      obtain ⟨hmem, hgone⟩ := hkept hrecord
      obtain ⟨change, hchange, hlogs⟩ := h.lookup_change hmem
      rw [← hmarked.others record.id fun row hrow =>
        h.ne_of_kept hmem hgone hrow] at hchange
      exact ⟨change, lookup_mem hchange, hlogs⟩
    case live =>
      intro change hchange hlive
      rcases hmarked.source change hchange with hold | ⟨hdeleted, -⟩
      · obtain ⟨record, hrecord, hid⟩ := h.live change hold hlive
        refine ⟨record, List.mem_filter.mpr ⟨hrecord, ?_⟩, hid⟩
        -- a deleted record would have a tombstone for its only row
        cases hgone : gone record with
        | false => rfl
        | true =>
            obtain ⟨seq, -, hfound⟩ := hmarked.marked record
              (List.mem_filter.mpr ⟨hrecord, hgone⟩)
            have hkeyed : Keyed WorkChangeRow.recordId marked.changes :=
              keyed_of_pairwise (hmarked.changes.imp fun hne => hne.1)
            have hself := hkeyed change hchange
            rw [← hid, hfound] at hself
            rw [← Option.some.inj hself] at hlive
            exact nomatch hlive
      · rw [hlive] at hdeleted
        exact nomatch hdeleted
  case step =>
    intro filter
    refine ⟨hmarked.changeSeq, fun id => ?_⟩
    by_cases hdeleted : ∃ row ∈ repository.records.filter gone, row.id = id
    · obtain ⟨row, hrow, rfl⟩ := hdeleted
      obtain ⟨hmem, hgone⟩ := List.mem_filter.mp hrow
      obtain ⟨seq, hseq, hfound⟩ := hmarked.marked row hrow
      refine step_key filter ?_ ?_ ?_ hfound ⟨rfl, rfl⟩ hseq
      · intro record hrecord
        rw [h.keyed row hmem] at hrecord
        cases hrecord
        exact ⟨rfl, rfl⟩
      · intro record hrecord
        obtain ⟨hrecordMem, hrecordKept⟩ := hkept (lookup_mem hrecord)
        exact absurd (lookup_key hrecord).symm
          (h.ne_of_kept hrecordMem hrecordKept hrow)
      · intro change hchange
        obtain ⟨found, hlog, hlogs, -⟩ := h.lookup_change hmem
        rw [hlog] at hchange
        cases hchange
        exact ⟨hlogs.2.1, hlogs.2.2⟩
    · left
      have hne : ∀ row ∈ repository.records.filter gone, row.id ≠ id :=
        fun row hrow hid => hdeleted ⟨row, hrow, hid⟩
      have hsame : lookup WorkRecordRow.id id
          (repository.records.filter fun row => !gone row) =
            lookup WorkRecordRow.id id repository.records := by
        refine lookup_filter_of_forall WorkRecordRow.id id _ _ ?_
        intro row hrow hid
        cases hgone : gone row with
        | false => rfl
        | true =>
            exact absurd hid (hne row (List.mem_filter.mpr ⟨hrow, hgone⟩))
      simp only [log, hsame, hmarked.others id hne]
      exact ⟨trivial, trivial⟩

theorem advances_deleteRecords (h : repository.WellFormed)
    (conversationId : String) (owner : WorkOwner) :
    Advances repository (repository.deleteRecords conversationId owner) := by
  have hmarked := tombstoned (repository.records.filter
      (isOfConversation conversationId owner)) h.changes h.numbered
    ((h.records.filter _).imp fun hne => hne.1) (by
      intro row hrow change hchange
      obtain ⟨found, hlog, hlogs, -⟩ :=
        h.lookup_change (List.mem_filter.mp hrow).1
      rw [hlog] at hchange
      cases hchange
      exact ⟨hlogs.2.1, hlogs.2.2⟩)
  obtain ⟨hrecords, hdraws, hcreated⟩ := tombstones_records
    (repository.records.filter (isOfConversation conversationId owner))
    repository
  simp only [deleteRecords, hrecords]
  exact advances_delete h _ hmarked hdraws hcreated

/-! ### The operations of the repository -/

/-- Conversations are not part of any log. -/
theorem Advances.conversations {old new : Repository} (h : Advances old new)
    (conversations : List Conversation) :
    Advances old { new with conversations } :=
  ⟨⟨h.wellFormed.records, h.wellFormed.created, h.wellFormed.drawn,
    h.wellFormed.changes, h.wellFormed.numbered, h.wellFormed.changesDrawn,
    h.wellFormed.logged, h.wellFormed.live⟩, h.step⟩

theorem advances_start (h : repository.WellFormed) {input : WorkStart}
    (hstart : repository.start input = .ok (repository', id)) :
    Advances repository repository' := by
  rw [start] at hstart
  split at hstart
  · cases hstart
    exact advances_insert h (startedRow input) (fun _ _ => rfl)
      fun _ _ => rfl
  · cases hstart

theorem advances_finish {owner : WorkOwner} {observed : WorkFinish}
    {summary : Option Usage.UsageSummary} (h : repository.WellFormed)
    (hfinish : repository.finish id owner observed summary =
      .ok (repository', true)) : Advances repository repository' := by
  obtain ⟨row, hrow, -, -, rfl⟩ := finish_committed hfinish
  exact advances_update h (finishRow observed)
    (fun _ => ⟨rfl, rfl, rfl, rfl⟩) (get_eq_some hrow).1 rfl rfl rfl

theorem advances_insertSegments (input : Participant) (now : Int)
    (segments : List WorkHistorySegment) (h : repository.WellFormed)
    (hinsert : insertSegments input now segments repository =
      .ok repository') : Advances repository repository' := by
  induction segments generalizing repository with
  | nil =>
      cases hinsert
      exact .refl h
  | cons segment rest ih =>
      rw [insertSegments] at hinsert
      split at hinsert
      · cases hinsert
      · have hfirst := advances_insert h (importedRow input segment now)
          (fun _ _ => rfl) fun _ _ => rfl
        exact hfirst.trans (ih hfirst.wellFormed hinsert)

theorem advances_importHistory (h : repository.WellFormed)
    {input : Participant} {segments : List WorkHistorySegment} {now : Int}
    (himport : repository.importHistory input segments now =
      .ok repository') : Advances repository repository' := by
  obtain ⟨pending, hpending⟩ := importHistory_ok himport
  exact advances_insertSegments input now pending h hpending

theorem advances_deleteConversation (h : repository.WellFormed) (id : String)
    (tenantId memberId : Option String) :
    Advances repository
      (repository.deleteConversation id tenantId memberId).1 := by
  rw [deleteConversation]
  split
  · exact .refl h
  · split
    · exact .refl h
    · next existing _ _ =>
        cases existing.owner with
        | none => exact (Advances.refl h).conversations _
        | some owner => exact (advances_deleteRecords h id owner).conversations _

/-- The loop of the constructor: the rows it still has to visit are there
under their ids. -/
theorem advances_recoverRows (now : Int) (rows : List WorkRecordRow)
    (h : repository.WellFormed)
    (hrows : ∀ row ∈ rows, ∃ record ∈ repository.records,
      record.id = row.id ∧ record.owner = row.owner ∧
        record.employeeId = row.employeeId) :
    Advances repository (recoverRows now rows repository) := by
  induction rows generalizing repository with
  | nil => exact .refl h
  | cons row rest ih =>
      obtain ⟨record, hrecord, hid, howner, hemployee⟩ :=
        hrows row List.mem_cons_self
      have hfirst := advances_update h (restartRow now)
        (fun _ => ⟨rfl, rfl, rfl, rfl⟩) hrecord hid howner hemployee
      refine hfirst.trans (ih hfirst.wellFormed ?_)
      intro other hother
      obtain ⟨found, hfound, hparty⟩ :=
        hrows other (List.mem_cons_of_mem _ hother)
      refine ⟨_, List.mem_map_of_mem hfound, ?_⟩
      split <;> exact hparty

theorem advances_restart (h : repository.WellFormed) (now : Int) :
    Advances repository (repository.restart now) :=
  advances_recoverRows now _ h fun row hrow =>
    ⟨row, (List.mem_filter.mp hrow).1, rfl, rfl, rfl⟩

end Repository

end AiTeam.WorkRecord
