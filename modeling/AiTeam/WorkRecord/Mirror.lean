/-
A client that pages through the history until it is exhausted and then follows
the changes.  Whatever the server does in between, a mirror that has drained
the change feed holds exactly the records of its filter.
-/
import Mathlib.Data.List.MinMax
import Mathlib.Order.Nat
import AiTeam.WorkRecord.Log

namespace AiTeam.WorkRecord

/-! ### The client -/

inductive Phase where
  | paging (cursor : Option HistoryCursor)
  | following (cursor : ChangeCursor)

/-- `drained` says that the last thing that happened was an answer without
more changes. -/
structure Client where
  phase : Phase
  mirror : List WorkRecordRow
  drained : Bool

def Client.initial : Client := ⟨.paging none, [], false⟩

/-- `Map.set` under the id of the record. -/
def setRecord (mirror : List WorkRecordRow) (record : WorkRecordRow) :
    List WorkRecordRow :=
  match lookup WorkRecordRow.id record.id mirror with
  | some _ => updateWhere (fun old => decide (old.id = record.id))
      (fun _ => record) mirror
  | none => mirror ++ [record]

def applyChange (mirror : List WorkRecordRow) :
    WorkChange → List WorkRecordRow
  | .upsert _ _ record => setRecord mirror record
  | .delete _ recordId => mirror.filter fun row => row.id ≠ recordId

/-- `applyChanges`. -/
def applyChanges (mirror : List WorkRecordRow) (changes : List WorkChange) :
    List WorkRecordRow :=
  changes.foldl applyChange mirror

/-- What the client got: the mark of a history page, or the mark it asked for
and a page of changes. -/
inductive Answer where
  | history (after : Nat)
  | changes (asked : Nat) (page : ChangesPage)
deriving DecidableEq

/-- The mark the client continues from. -/
def Answer.mark : Answer → Nat
  | .history after => after
  | .changes _ page => page.nextCursor.after

structure Feeding where
  repository : Repository
  client : Client

def Feeding.initial : Feeding := ⟨.empty, .initial⟩

inductive FeedAction where
  | saveConversation (conversation : Conversation)
  | start (input : WorkStart)
  | finish (recordId : Nat) (owner : WorkOwner) (finish : WorkFinish)
      (summary : Option Usage.UsageSummary)
  | importHistory (input : Participant) (segments : List WorkHistorySegment)
      (now : Int)
  | deleteConversation (conversationId : String)
      (tenantId memberId : Option String)
  | restart (now : Int)
  /-- The client's next request. -/
  | poll (limit : Option Nat) (sources : List HistorySource) (now : Int)
deriving DecidableEq

/-- A step of the server. -/
def Feeding.serve (state : Feeding) (repository : Repository) : Feeding :=
  { repository, client := { state.client with drained := false } }

/-- A page of history: its records are added, and after the last page the
client follows the changes. -/
def Client.page (client : Client) (page : HistoryPage) : Client where
  phase := match page.nextCursor with
    | some cursor => .paging (some cursor)
    | none => .following page.after
  mirror := page.data.foldl setRecord client.mirror
  drained := false

def Client.follow (client : Client) (page : ChangesPage) : Client where
  phase := .following page.nextCursor
  mirror := applyChanges client.mirror page.data
  drained := !page.hasMore

def poll (filter : WorkFilter) (state : Feeding) (limit : Option Nat)
    (sources : List HistorySource) (now : Int) : Feeding × List Answer :=
  match state.client.phase with
  | .paging cursor =>
      match readHistory state.repository filter limit cursor sources now with
      | (repository, .error _) => (state.serve repository, [])
      | (repository, .ok page) =>
          (⟨repository, state.client.page page⟩, [.history page.after.after])
  | .following cursor =>
      match readChanges state.repository filter limit (some cursor) sources
          now with
      | (repository, .error _) => (state.serve repository, [])
      | (repository, .ok page) =>
          (⟨repository, state.client.follow page⟩,
            [.changes cursor.after page])

def stepFeed (filter : WorkFilter) (state : Feeding) :
    FeedAction → Feeding × List Answer
  | .saveConversation conversation =>
      (state.serve (state.repository.saveConversation conversation), [])
  | .start input =>
      match state.repository.start input with
      | .ok (repository, _) => (state.serve repository, [])
      | .error _ => (state.serve state.repository, [])
  | .finish recordId owner finish summary =>
      match state.repository.finish recordId owner finish summary with
      | .ok (repository, _) => (state.serve repository, [])
      | .error _ => (state.serve state.repository, [])
  | .importHistory input segments now =>
      match state.repository.importHistory input segments now with
      | .ok repository => (state.serve repository, [])
      | .error _ => (state.serve state.repository, [])
  | .deleteConversation conversationId tenantId memberId =>
      (state.serve (state.repository.deleteConversation conversationId
        tenantId memberId).1, [])
  | .restart now => (state.serve (state.repository.restart now), [])
  | .poll limit sources now => poll filter state limit sources now

def feedMachine (filter : WorkFilter) :
    Machine Feeding FeedAction Answer :=
  ⟨stepFeed filter⟩

/-! ### The mirror as a map -/

theorem lookup_setRecord (mirror : List WorkRecordRow)
    (record : WorkRecordRow) (id : Nat) :
    lookup WorkRecordRow.id id (setRecord mirror record) =
      if record.id = id then some record
      else lookup WorkRecordRow.id id mirror := by
  rw [setRecord]
  split
  · next found hfound =>
      rw [lookup_updateWhere_of_guard WorkRecordRow.id id _
        (fun _ => record) fun row hrow => (of_decide_eq_true hrow).symm]
      by_cases hid : record.id = id
      · subst hid
        simp [hfound, lookup_key hfound]
      · cases hother : lookup WorkRecordRow.id id mirror with
        | none => simp [hid]
        | some other => simp [hid, lookup_key hother, Ne.symm hid]
  · next hnone =>
      rw [lookup_append]
      by_cases hid : record.id = id
      · subst hid
        simp [hnone]
      · simp [hid]

theorem keyed_setRecord {mirror : List WorkRecordRow}
    (h : Keyed WorkRecordRow.id mirror) (record : WorkRecordRow) :
    Keyed WorkRecordRow.id (setRecord mirror record) := by
  intro row hrow
  rw [lookup_setRecord]
  split
  · next hid =>
      rw [setRecord] at hrow
      split at hrow
      · obtain ⟨old, hold, rfl⟩ := List.mem_map.mp hrow
        split at hid
        · next hguard => simp [hguard]
        · next hguard => exact absurd (decide_eq_true hid.symm) hguard
      · next hnone =>
          rcases List.mem_append.mp hrow with hold | hnew
          · have hfound := h row hold
            rw [← hid, hnone] at hfound
            cases hfound
          · rw [List.mem_singleton.mp hnew]
  · next hid =>
      rw [setRecord] at hrow
      split at hrow
      · obtain ⟨old, hold, rfl⟩ := List.mem_map.mp hrow
        split at hid
        · exact absurd rfl hid
        · next hguard =>
            simp only [hguard]
            exact h old hold
      · rcases List.mem_append.mp hrow with hold | hnew
        · exact h row hold
        · exact absurd (congrArg WorkRecordRow.id
            (List.mem_singleton.mp hnew)).symm hid

/-- The item says what the record is now. -/
def Agrees (current : Nat → Option WorkRecordRow) : WorkChange → Prop
  | .upsert _ recordId record =>
      record.id = recordId ∧ current recordId = some record
  | .delete _ recordId => current recordId = none

theorem lookup_applyChange {current : Nat → Option WorkRecordRow}
    {item : WorkChange} (h : Agrees current item)
    (mirror : List WorkRecordRow) (id : Nat) :
    lookup WorkRecordRow.id id (applyChange mirror item) =
      if item.recordId = id then current id
      else lookup WorkRecordRow.id id mirror := by
  by_cases hsame : item.recordId = id
  · subst hsame
    rw [if_pos rfl]
    cases item with
    | upsert seq recordId record =>
        obtain ⟨hid, hcurrent⟩ := h
        rw [applyChange, lookup_setRecord]
        exact (if_pos hid).trans hcurrent.symm
    | delete seq recordId =>
        have hnone : current recordId = none := h
        refine Eq.trans ?_ hnone.symm
        exact lookup_filter_eq_none _ _ _ _ fun row _ hid => by
          simp [show row.id = recordId from hid]
  · rw [if_neg hsame]
    cases item with
    | upsert seq recordId record =>
        have hid : record.id = recordId := h.1
        rw [applyChange, lookup_setRecord, hid]
        exact if_neg hsame
    | delete seq recordId =>
        refine lookup_filter_of_forall _ _ _ _ fun row _ hid => ?_
        exact decide_eq_true fun heq => hsame (heq.symm.trans hid)

/-- Applying a page sets the records it names to what they are now. -/
theorem lookup_applyChanges {current : Nat → Option WorkRecordRow}
    {items : List WorkChange} (h : ∀ item ∈ items, Agrees current item)
    (mirror : List WorkRecordRow) (id : Nat) :
    lookup WorkRecordRow.id id (applyChanges mirror items) =
      if id ∈ items.map WorkChange.recordId then current id
      else lookup WorkRecordRow.id id mirror := by
  induction items generalizing mirror with
  | nil => simp [applyChanges]
  | cons item rest ih =>
      have hrest := ih (fun other hother =>
        h other (List.mem_cons_of_mem _ hother)) (applyChange mirror item)
      rw [lookup_applyChange (h item List.mem_cons_self)] at hrest
      rw [show applyChanges mirror (item :: rest) =
        applyChanges (applyChange mirror item) rest from rfl, hrest]
      simp only [List.map_cons, List.mem_cons]
      by_cases hlater : id ∈ rest.map WorkChange.recordId
      · simp [hlater]
      · by_cases hid : item.recordId = id
        · simp [hid]
        · simp [hlater, hid, Ne.symm hid]

theorem keyed_applyChanges {mirror : List WorkRecordRow}
    (h : Keyed WorkRecordRow.id mirror) (items : List WorkChange) :
    Keyed WorkRecordRow.id (applyChanges mirror items) := by
  induction items generalizing mirror with
  | nil => exact h
  | cons item rest ih =>
      have hfirst : Keyed WorkRecordRow.id (applyChange mirror item) := by
        cases item with
        | upsert seq recordId record => exact keyed_setRecord h record
        | delete seq recordId => exact h.filter _
      exact ih hfirst

/-- The items a page of history amounts to. -/
def shown (row : WorkRecordRow) : WorkChange :=
  .upsert 0 row.id row

@[simp] theorem shown_recordId (row : WorkRecordRow) :
    (shown row).recordId = row.id := rfl

theorem foldl_setRecord (mirror page : List WorkRecordRow) :
    page.foldl setRecord mirror = applyChanges mirror (page.map shown) := by
  rw [applyChanges, List.foldl_map]
  rfl

/-! ### What a page holds -/

theorem mapM_ok {α β ε : Type} {f : α → Except ε β} {rows : List α}
    {items : List β} (h : rows.mapM f = .ok items) :
    List.Forall₂ (fun row item => f row = .ok item) rows items := by
  induction rows generalizing items with
  | nil =>
      rw [List.mapM_nil] at h
      cases h
      exact .nil
  | cons row rest ih =>
      rw [List.mapM_cons] at h
      cases hrow : f row with
      | error error => simp [hrow, bind, Except.bind] at h
      | ok item =>
          cases hrest : rest.mapM f with
          | error error => simp [hrow, hrest, bind, Except.bind] at h
          | ok tail =>
              simp only [hrow, hrest, bind, Except.bind, pure, Except.pure,
                Except.ok.injEq] at h
              subst h
              exact .cons hrow (ih hrest)

/-- Every item comes from a row, and every row gives an item. -/
theorem forall₂_mem {α β : Type} {R : α → β → Prop} {rows : List α}
    {items : List β} (h : List.Forall₂ R rows items) :
    (∀ item ∈ items, ∃ row ∈ rows, R row item) ∧
      ∀ row ∈ rows, ∃ item ∈ items, R row item := by
  induction h with
  | nil => simp
  | cons hhead _ ih =>
      refine ⟨fun item hitem => ?_, fun row hrow => ?_⟩
      · rcases List.mem_cons.mp hitem with rfl | htail
        · exact ⟨_, List.mem_cons_self, hhead⟩
        · obtain ⟨row, hrow, hrel⟩ := ih.1 item htail
          exact ⟨row, List.mem_cons_of_mem _ hrow, hrel⟩
      · rcases List.mem_cons.mp hrow with rfl | htail
        · exact ⟨_, List.mem_cons_self, hhead⟩
        · obtain ⟨item, hitem, hrel⟩ := ih.2 row htail
          exact ⟨item, List.mem_cons_of_mem _ hitem, hrel⟩

variable {repository : Repository} {row record : WorkRecordRow}
  {filter : WorkFilter} {before : Option HistoryCursor} {size : Nat}
  {client : Client} {past : List Answer} {state : Feeding}

theorem view_ok (h : view repository row = .ok record) : record = row := by
  rw [view] at h
  split at h
  · exact (Except.ok.inj h).symm
  · exact nomatch h

theorem mapM_view_ok {page data : List WorkRecordRow}
    (h : page.mapM (view repository) = .ok data) : data = page := by
  have hforall := (mapM_ok h).imp fun _ _ => view_ok
  clear h
  induction hforall with
  | nil => rfl
  | cons hhead _ ih => rw [hhead, ih]

theorem take_take_succ {α : Type} (rows : List α) (limit : Nat) :
    (rows.take (limit + 1)).take limit = rows.take limit := by
  rw [List.take_take, Nat.min_eq_left (Nat.le_succ limit)]

theorem lt_length_take_succ {α : Type} (rows : List α) (limit : Nat) :
    (rows.take (limit + 1)).length > limit ↔ limit < rows.length := by
  rw [List.length_take]
  omega

/-- What a page of history is made of. -/
theorem historyPage_ok {limit : Nat} {page : HistoryPage}
    (h : historyPage repository filter limit before = .ok page) :
    let mark := (before.map HistoryCursor.watermark).getD
      (repository.watermark filter)
    let rows := repository.historyRows filter
      (before.map HistoryCursor.boundary)
    page.data = rows.take limit ∧ page.after.after = mark ∧
      page.nextCursor = if limit < rows.length then
        (rows.take limit).getLast?.map fun last =>
          ⟨⟨.before, filter⟩, last.position, mark⟩
      else none := by
  simp only [historyPage, Repository.history, take_take_succ,
    lt_length_take_succ] at h
  cases hdata : (List.take limit (repository.historyRows filter
      (before.map HistoryCursor.boundary))).mapM (view repository) with
  | error error => simp [hdata, bind, Except.bind] at h
  | ok data =>
      simp only [hdata, bind, Except.bind, Except.ok.injEq] at h
      subst h
      exact ⟨mapM_view_ok hdata, rfl, rfl⟩

/-- What a page of changes is made of. -/
theorem changesPage_ok {limit after : Nat} {page : ChangesPage}
    (h : changesPage repository filter limit after = .ok page) :
    let rows := repository.changeRows filter after
    List.Forall₂ (fun row item => changeItem repository filter row = .ok item)
        (rows.take limit) page.data ∧
      page.hasMore = decide (limit < rows.length) ∧
      page.nextCursor.after = if limit < rows.length then
        ((rows.take limit).getLast?.map WorkChangeRow.seq).getD 0
      else repository.watermark filter := by
  simp only [changesPage, Repository.changesAfter, take_take_succ,
    lt_length_take_succ] at h
  cases hdata : (List.take limit
      (repository.changeRows filter after)).mapM
        (changeItem repository filter) with
  | error error => simp [hdata, bind, Except.bind] at h
  | ok data =>
      simp only [hdata, bind, Except.bind, Except.ok.injEq] at h
      subst h
      exact ⟨mapM_ok hdata, rfl, rfl⟩

theorem mem_historyRows {boundary : Option (Int ×ₗ Nat)} :
    row ∈ repository.historyRows filter boundary ↔
      row ∈ repository.records ∧ filter.matchesRecord row ∧
        ∀ before ∈ boundary, row.position < before := by
  rw [Repository.historyRows, List.mem_insertionSort, List.mem_filter,
    Bool.and_eq_true]
  cases boundary <;> simp

theorem mem_changeRows {after : Nat} {row : WorkChangeRow} :
    row ∈ repository.changeRows filter after ↔
      row ∈ repository.changes ∧ filter.matchesChange row ∧
        after < row.seq := by
  rw [Repository.changeRows, List.mem_insertionSort, List.mem_filter,
    Bool.and_eq_true, decide_eq_true_eq]

namespace Repository

theorem WellFormed.sorted_changeRows (h : repository.WellFormed)
    (filter : WorkFilter) (after : Nat) :
    (repository.changeRows filter after).Pairwise fun a b =>
      a.seq < b.seq :=
  Feed.pairwise_lt_insertionSort WorkChangeRow.seq (fun _ _ => Iff.rfl)
    ((h.changes.filter _).imp fun hne => hne.2)

/-- Newest first is the order of the positions turned around. -/
theorem WellFormed.sorted_historyRows (h : repository.WellFormed)
    (filter : WorkFilter) (boundary : Option (Int ×ₗ Nat)) :
    (repository.historyRows filter boundary).Pairwise fun a b =>
      OrderDual.toDual a.position < OrderDual.toDual b.position := by
  refine Feed.pairwise_lt_insertionSort
    (fun row : WorkRecordRow => OrderDual.toDual row.position)
    (fun _ _ => Iff.rfl) ((h.records.filter _).imp fun hne heq => ?_)
  have hposition : _ = _ := OrderDual.toDual_inj.mp heq
  exact hne.2 (congrArg (fun position => (ofLex position).2) hposition)

theorem le_watermark {change : WorkChangeRow}
    (hchange : change ∈ repository.changes)
    (hmatches : filter.matchesChange change) :
    change.seq ≤ repository.watermark filter := by
  have hmem : change.seq ∈ (repository.changes.filter
      filter.matchesChange).map WorkChangeRow.seq :=
    List.mem_map_of_mem (List.mem_filter.mpr ⟨hchange, hmatches⟩)
  exact List.le_max_of_le hmem (Nat.le_refl _)

theorem watermark_le {bound : Nat}
    (h : ∀ change ∈ repository.changes,
      filter.matchesChange change → change.seq ≤ bound) :
    repository.watermark filter ≤ bound := by
  have hall : ∀ seq ∈ (repository.changes.filter
      filter.matchesChange).map WorkChangeRow.seq, seq ≤ bound := by
    intro seq hseq
    obtain ⟨change, hchange, rfl⟩ := List.mem_map.mp hseq
    obtain ⟨hmem, hmatches⟩ := List.mem_filter.mp hchange
    exact h change hmem hmatches
  exact List.max_le_of_forall_le _ bound hall

/-- The number of a key in the log is that of a row the filter lists. -/
theorem log_seq_eq_some {id n : Nat}
    (h : (repository.log filter).seq id = some n) :
    ∃ change ∈ repository.changes, filter.matchesChange change ∧
      change.recordId = id ∧ change.seq = n := by
  obtain ⟨change, hfound, hseq⟩ := Option.map_eq_some_iff.mp h
  obtain ⟨hlookup, hmatches⟩ := Option.filter_eq_some_iff.mp hfound
  exact ⟨change, lookup_mem hlookup, hmatches, lookup_key hlookup, hseq⟩

theorem WellFormed.log_seq (h : repository.WellFormed) {change : WorkChangeRow}
    (hchange : change ∈ repository.changes)
    (hmatches : filter.matchesChange change) :
    (repository.log filter).seq change.recordId = some change.seq := by
  simp only [log, h.changesKeyed change hchange,
    Option.filter_some_pos hmatches, Option.map_some]

theorem WellFormed.log_current (h : repository.WellFormed)
    (hrecord : record ∈ repository.records)
    (hmatches : filter.matchesRecord record) :
    (repository.log filter).current record.id = some record := by
  simp only [log, h.keyed record hrecord, Option.filter_some_pos hmatches]

theorem log_current_eq_some {id : Nat}
    (h : (repository.log filter).current id = some record) :
    record ∈ repository.records ∧ filter.matchesRecord record ∧
      record.id = id := by
  obtain ⟨hlookup, hmatches⟩ := Option.filter_eq_some_iff.mp h
  exact ⟨lookup_mem hlookup, hmatches, lookup_key hlookup⟩

theorem WellFormed.watermark_le_changeSeq (h : repository.WellFormed)
    (filter : WorkFilter) :
    repository.watermark filter ≤ repository.changeSeq :=
  watermark_le fun change hchange _ => h.numbered change hchange

/-- The watermark of a filter never decreases. -/
theorem Advances.watermark {old new : Repository} (h : Advances old new)
    (hold : old.WellFormed) (filter : WorkFilter) :
    old.watermark filter ≤ new.watermark filter := by
  refine watermark_le fun change hchange hmatches => ?_
  have hseq := hold.log_seq hchange hmatches
  rcases (h.step filter).keys change.recordId with ⟨-, hsame⟩ |
    ⟨n, hnew, hlater⟩
  · rw [hseq] at hsame
    obtain ⟨found, hfound, hlisted, -, hfoundSeq⟩ := log_seq_eq_some hsame
    exact hfoundSeq ▸ le_watermark hfound hlisted
  · obtain ⟨found, hfound, hlisted, -, hfoundSeq⟩ := log_seq_eq_some hnew
    have hbound := hold.numbered change hchange
    have hmark := le_watermark hfound hlisted
    have htop : old.changeSeq < n := hlater
    omega

end Repository

/-! ### Reading -/

theorem advances_backfill (filter : WorkFilter) (now : Int)
    (sources : List HistorySource) (h : repository.WellFormed) :
    Repository.Advances repository
      (backfill filter now sources repository).1 := by
  induction sources generalizing repository with
  | nil => exact .refl h
  | cons source rest ih =>
      rw [backfill]
      split
      · exact ih h
      · split
        · next himport =>
            have hfirst := Repository.advances_importHistory h himport
            exact hfirst.trans (ih hfirst.wellFormed)
        · exact .refl h

/-- A history request imports, and may answer with a page of at least one
row. -/
theorem readHistory_cases (filter : WorkFilter) (limit : Option Nat)
    (before : Option HistoryCursor) (sources : List HistorySource) (now : Int)
    (h : repository.WellFormed) :
    let read := readHistory repository filter limit before sources now
    Repository.Advances repository read.1 ∧ ∀ page, read.2 = .ok page →
      ∃ size, 1 ≤ size ∧
        historyPage read.1 filter size before = .ok page := by
  simp only [readHistory]
  split
  · exact ⟨.refl h, fun _ hpage => nomatch hpage⟩
  · exact ⟨.refl h, fun _ hpage => nomatch hpage⟩
  · next size hlimit _ =>
      have hsize : 1 ≤ size := by
        simp only [readPageLimit] at hlimit
        split at hlimit
        · next hbounds => exact Except.ok.inj hlimit ▸ hbounds.1
        · exact nomatch hlimit
      have hadvances := advances_backfill filter now sources h
      split
      · next hbackfill =>
          rw [hbackfill] at hadvances
          exact ⟨hadvances, fun _ hpage => nomatch hpage⟩
      · next hbackfill =>
          rw [hbackfill] at hadvances
          exact ⟨hadvances, fun _ hpage => ⟨size, hsize, hpage⟩⟩

theorem readChanges_cases (filter : WorkFilter) (limit : Option Nat)
    (cursor : ChangeCursor) (sources : List HistorySource) (now : Int)
    (h : repository.WellFormed) :
    let read := readChanges repository filter limit (some cursor) sources now
    Repository.Advances repository read.1 ∧ ∀ page, read.2 = .ok page →
      cursor.after ≤ repository.watermark filter ∧ ∃ size, 1 ≤ size ∧
        changesPage read.1 filter size cursor.after = .ok page := by
  simp only [readChanges]
  split
  · exact ⟨.refl h, fun _ hpage => nomatch hpage⟩
  · exact ⟨.refl h, fun _ hpage => nomatch hpage⟩
  · next size after hlimit hafter =>
      have hsize : 1 ≤ size := by
        simp only [readPageLimit] at hlimit
        split at hlimit
        · next hbounds => exact Except.ok.inj hlimit ▸ hbounds.1
        · exact nomatch hlimit
      have hcursor : cursor.after ≤ repository.watermark filter ∧
          after = cursor.after := by
        simp only [checkAfter] at hafter
        split at hafter
        · exact nomatch hafter
        · next hvalid =>
            refine ⟨?_, (Except.ok.inj hafter).symm⟩
            exact Nat.le_of_not_lt fun hlt => hvalid (.inr hlt)
      obtain ⟨hmark, rfl⟩ := hcursor
      have hadvances := advances_backfill filter now sources h
      split
      · next hbackfill =>
          rw [hbackfill] at hadvances
          exact ⟨hadvances, fun _ hpage => nomatch hpage⟩
      · next hbackfill =>
          rw [hbackfill] at hadvances
          exact ⟨hadvances, fun _ hpage => ⟨hmark, size, hsize, hpage⟩⟩

/-- What the client has read so far is right for the keys that did not change
since its mark. -/
def Reading (filter : WorkFilter) (repository : Repository)
    (mirror : Nat → Option WorkRecordRow) : Phase → Prop
  | .paging none => ∀ id, mirror id = none
  | .paging (some cursor) =>
      cursor.watermark ≤ repository.changeSeq ∧
        (repository.log filter).Shows
          (fun row => cursor.boundary ≤ row.position) cursor.watermark mirror
  | .following cursor =>
      cursor.after ≤ repository.changeSeq ∧
        (repository.log filter).Shows (fun _ => True) cursor.after mirror

theorem Reading.advances {old new : Repository}
    {mirror : Nat → Option WorkRecordRow} {phase : Phase}
    (h : Reading filter old mirror phase)
    (hadvances : Repository.Advances old new) :
    Reading filter new mirror phase := by
  have hstep := hadvances.step filter
  have htop : old.changeSeq ≤ new.changeSeq := hstep.top
  match phase, h with
  | .paging none, h => exact h
  | .paging (some _), h =>
      exact ⟨Nat.le_trans h.1 htop, h.2.step hstep h.1⟩
  | .following _, h =>
      exact ⟨Nat.le_trans h.1 htop, h.2.step hstep h.1⟩

/-- The mark the client holds. -/
def Phase.mark : Phase → Nat
  | .paging none => 0
  | .paging (some cursor) => cursor.watermark
  | .following cursor => cursor.after

/-- The records before the page that is read next. -/
def Passed (before : Option HistoryCursor) (row : WorkRecordRow) : Prop :=
  ∃ cursor ∈ before, cursor.boundary ≤ row.position

theorem Reading.shows_passed {mirror : Nat → Option WorkRecordRow}
    (h : Reading filter repository mirror (.paging before)) :
    (repository.log filter).Shows (Passed before)
      ((before.map HistoryCursor.watermark).getD
        (repository.watermark filter)) mirror := by
  cases before with
  | none =>
      intro id _ row
      rw [show mirror id = none from h id]
      simp [Passed]
  | some cursor =>
      intro id hid row
      rw [h.2 id hid row]
      simp [Passed]

theorem mem_historyRows_of_not_passed (hrow : row ∈ repository.records)
    (hmatches : filter.matchesRecord row) (hnot : ¬ Passed before row) :
    row ∈ repository.historyRows filter
      (before.map HistoryCursor.boundary) := by
  refine mem_historyRows.mpr ⟨hrow, hmatches, ?_⟩
  intro boundary hboundary
  obtain ⟨cursor, hcursor, rfl⟩ := Option.map_eq_some_iff.mp hboundary
  exact lt_of_not_ge fun hle => hnot ⟨cursor, hcursor, hle⟩

section

variable (h : repository.WellFormed)
include h

/-- A page of history shows, beside what was shown before, the rows it
holds. -/
theorem Reading.shows_page {page : HistoryPage}
    (hreading : Reading filter repository
      (fun id => lookup WorkRecordRow.id id client.mirror) (.paging before))
    (hpage : historyPage repository filter size before = .ok page)
    (shown' : WorkRecordRow → Prop)
    (hshown : ∀ row ∈ repository.records, filter.matchesRecord row →
      (shown' row ↔ Passed before row ∨ row ∈ (repository.historyRows filter
        (before.map HistoryCursor.boundary)).take size)) :
    (repository.log filter).Shows shown' page.after.after fun id =>
      lookup WorkRecordRow.id id (client.page page).mirror := by
  obtain ⟨hdata, hafter, -⟩ := historyPage_ok hpage
  have hrows : ∀ row ∈ page.data,
      row ∈ repository.records ∧ filter.matchesRecord row := by
    intro row hrow
    rw [hdata] at hrow
    have hmem := mem_historyRows.mp (List.mem_of_mem_take hrow)
    exact ⟨hmem.1, hmem.2.1⟩
  have hagrees : ∀ item ∈ page.data.map shown,
      Agrees (repository.log filter).current item := by
    intro item hitem
    obtain ⟨row, hrow, rfl⟩ := List.mem_map.mp hitem
    exact ⟨rfl, h.log_current (hrows row hrow).1 (hrows row hrow).2⟩
  have hlookup : ∀ id, lookup WorkRecordRow.id id (client.page page).mirror =
      if id ∈ page.data.map WorkRecordRow.id then
        (repository.log filter).current id
      else lookup WorkRecordRow.id id client.mirror := by
    intro id
    have happlied := lookup_applyChanges hagrees client.mirror id
    rw [List.map_map] at happlied
    simpa [Client.page, foldl_setRecord] using happlied
  have hbase := hreading.shows_passed
  rw [← hafter] at hbase
  refine hbase.page (fun id hid => (hlookup id).trans (if_pos hid))
    (fun id hid => (hlookup id).trans (if_neg hid)) ?_
  intro id row hcurrent
  obtain ⟨hrow, hmatches, rfl⟩ := Repository.log_current_eq_some hcurrent
  rw [hshown row hrow hmatches, ← hdata]
  refine or_congr_right ⟨fun hmem => List.mem_map_of_mem hmem, ?_⟩
  intro hmem
  obtain ⟨other, hother, hid⟩ := List.mem_map.mp hmem
  rwa [← h.keyed.eq_of_key (hrows other hother).1 hrow hid]

/-- After a page of history the client is where its next cursor says. -/
theorem Reading.page {page : HistoryPage} (hsize : 1 ≤ size)
    (hreading : Reading filter repository
      (fun id => lookup WorkRecordRow.id id client.mirror) (.paging before))
    (hpage : historyPage repository filter size before = .ok page) :
    Reading filter repository
        (fun id => lookup WorkRecordRow.id id (client.page page).mirror)
        (client.page page).phase ∧
      (client.page page).phase.mark = page.after.after ∧
      (Phase.paging before).mark ≤ page.after.after := by
  have hshows := hreading.shows_page h hpage
  obtain ⟨-, hafter, hnext⟩ := historyPage_ok hpage
  have hmark : page.after.after ≤ repository.changeSeq := by
    rw [hafter]
    cases before with
    | none => exact h.watermark_le_changeSeq filter
    | some cursor => exact hreading.1
  have hbefore : (Phase.paging before).mark ≤ page.after.after := by
    rw [hafter]
    cases before with
    | none => exact Nat.zero_le _
    | some cursor => exact Nat.le_refl _
  have hrows := fun row (hrow : row ∈ repository.records)
    (hmatches : filter.matchesRecord row) (hnot : ¬ Passed before row) =>
      mem_historyRows_of_not_passed hrow hmatches hnot
  by_cases hmore : size < (repository.historyRows filter
      (before.map HistoryCursor.boundary)).length
  · -- the page ends at its last row
    obtain ⟨last, hlast⟩ := Feed.exists_getLast_take hsize hmore
    rw [if_pos hmore, hlast, Option.map_some] at hnext
    have hlastRow := mem_historyRows.mp
      (List.mem_of_mem_take (List.mem_of_getLast? hlast))
    have hphase : (client.page page).phase = .paging
        (some ⟨⟨.before, filter⟩, last.position, page.after.after⟩) := by
      rw [Client.page, hnext, hafter]
    rw [hphase]
    refine ⟨⟨hmark, hshows _ ?_⟩, rfl, hbefore⟩
    intro row hrow hmatches
    by_cases hpassed : Passed before row
    · obtain ⟨cursor, hcursor, hle⟩ := hpassed
      have hlt := hlastRow.2.2 cursor.boundary
        (Option.map_eq_some_iff.mpr ⟨cursor, hcursor, rfl⟩)
      exact ⟨fun _ => .inl ⟨cursor, hcursor, hle⟩,
        fun _ => (lt_of_lt_of_le hlt hle).le⟩
    · have hsorted := h.sorted_historyRows filter
        (before.map HistoryCursor.boundary)
      have hiff := Feed.mem_take_iff_of_sorted
        (fun row : WorkRecordRow => OrderDual.toDual row.position)
        hsorted hlast (hrows row hrow hmatches hpassed)
      rw [or_iff_right hpassed, hiff]
      exact OrderDual.toDual_le_toDual.symm
  · rw [if_neg hmore] at hnext
    have hphase : (client.page page).phase = .following page.after := by
      rw [Client.page, hnext]
    rw [hphase]
    refine ⟨⟨hmark, hshows _ ?_⟩, rfl, hbefore⟩
    intro row hrow hmatches
    rw [List.take_of_length_le (Nat.le_of_not_lt hmore)]
    refine iff_of_true trivial ?_
    by_cases hpassed : Passed before row
    · exact .inl hpassed
    · exact .inr (hrows row hrow hmatches hpassed)

/-- An item of a page of changes: without a window it says what the record is
now. -/
theorem changeItem_ok (hwindow : filter.windowStart = none)
    {change : WorkChangeRow} {item : WorkChange}
    (hchange : change ∈ repository.changes)
    (hmatches : filter.matchesChange change)
    (hitem : changeItem repository filter change = .ok item) :
    item.seq = change.seq ∧ item.recordId = change.recordId ∧
      Agrees (repository.log filter).current item := by
  have hfound := h.changesKeyed change hchange
  rw [changeItem] at hitem
  split at hitem
  · next hdeleted =>
      cases hitem
      refine ⟨rfl, rfl, ?_⟩
      -- a record that is there has a row that is not deleted
      cases hcurrent : (repository.log filter).current change.recordId with
      | none => exact hcurrent
      | some record =>
          obtain ⟨hrecord, -, hid⟩ :=
            Repository.log_current_eq_some hcurrent
          obtain ⟨found, hlog, -, hlive⟩ := h.lookup_change hrecord
          rw [hid, hfound] at hlog
          cases hlog
          rw [hdeleted] at hlive
          exact nomatch hlive
  · split at hitem
    · exact nomatch hitem
    · next row hrow =>
        obtain ⟨hmem, hid, -⟩ := Repository.get_eq_some hrow
        cases hview : view repository row with
        | error error =>
            rw [hview] at hitem
            exact nomatch hitem
        | ok record =>
            rw [hview, view_ok hview] at hitem
            cases hitem
            obtain ⟨found, hlog, hlogs, -⟩ := h.lookup_change hmem
            rw [hid, hfound] at hlog
            cases hlog
            refine ⟨rfl, rfl, hid, ?_⟩
            have hrecord : filter.matchesRecord row = true := by
              rw [WorkFilter.matchesRecord, ← hlogs.2.1, ← hlogs.2.2]
              simp only [WorkFilter.inWindow, hwindow, Bool.and_true]
              exact hmatches
            rw [← hid]
            exact h.log_current hmem hrecord

/-- After a page of changes the client holds the next mark, and has drained
the feed if there is no more. -/
theorem Reading.follow (hwindow : filter.windowStart = none)
    {cursor : ChangeCursor} {page : ChangesPage} (hsize : 1 ≤ size)
    (hreading : Reading filter repository
      (fun id => lookup WorkRecordRow.id id client.mirror)
      (.following cursor)) (hmark : cursor.after ≤ repository.watermark filter)
    (hpage : changesPage repository filter size cursor.after = .ok page) :
    Reading filter repository
        (fun id => lookup WorkRecordRow.id id (client.follow page).mirror)
        (.following page.nextCursor) ∧
      cursor.after ≤ page.nextCursor.after ∧
      (∀ item ∈ page.data, cursor.after < item.seq) ∧
      (page.hasMore = false → ∀ id n,
        (repository.log filter).seq id = some n →
          n ≤ page.nextCursor.after) := by
  obtain ⟨hitems, hmore, hnext⟩ := changesPage_ok hpage
  generalize hrows : repository.changeRows filter cursor.after = rows at *
  have hrow : ∀ {row : WorkChangeRow}, row ∈ rows →
      row ∈ repository.changes ∧ filter.matchesChange row ∧
        cursor.after < row.seq := by
    intro row hmem
    rw [← hrows] at hmem
    exact mem_changeRows.mp hmem
  have hitem : ∀ item ∈ page.data, ∃ row ∈ rows.take size,
      item.seq = row.seq ∧ item.recordId = row.recordId ∧
        Agrees (repository.log filter).current item := by
    intro item hmem
    obtain ⟨row, hrowMem, hok⟩ := (forall₂_mem hitems).1 item hmem
    obtain ⟨hchange, hmatches, -⟩ := hrow (List.mem_of_mem_take hrowMem)
    exact ⟨row, hrowMem, changeItem_ok h hwindow hchange hmatches hok⟩
  have hfresh : ∀ item ∈ page.data, cursor.after < item.seq := by
    intro item hmem
    obtain ⟨row, hrowMem, hseq, -⟩ := hitem item hmem
    exact hseq ▸ (hrow (List.mem_of_mem_take hrowMem)).2.2
  -- the changes up to the next mark are on the page
  have hcovered : ∀ row ∈ rows, row.seq ≤ page.nextCursor.after →
      row ∈ rows.take size := by
    intro row hmem hle
    by_cases hlonger : size < rows.length
    · rw [if_pos hlonger] at hnext
      obtain ⟨last, hlast⟩ := Feed.exists_getLast_take hsize hlonger
      rw [hlast] at hnext
      have hsorted := h.sorted_changeRows filter cursor.after
      rw [hrows] at hsorted
      refine (Feed.mem_take_iff_of_sorted WorkChangeRow.seq hsorted hlast
        hmem).mpr ?_
      exact Nat.le_trans hle (Nat.le_of_eq hnext)
    · rwa [List.take_of_length_le (Nat.le_of_not_lt hlonger)]
  have hbounds : cursor.after ≤ page.nextCursor.after ∧
      page.nextCursor.after ≤ repository.changeSeq := by
    by_cases hlonger : size < rows.length
    · rw [if_pos hlonger] at hnext
      obtain ⟨last, hlast⟩ := Feed.exists_getLast_take hsize hlonger
      obtain ⟨hchange, -, hlater⟩ :=
        hrow (List.mem_of_mem_take (List.mem_of_getLast? hlast))
      rw [hlast] at hnext
      rw [hnext]
      exact ⟨hlater.le, h.numbered last hchange⟩
    · rw [hnext, if_neg hlonger]
      exact ⟨hmark, h.watermark_le_changeSeq filter⟩
  refine ⟨⟨hbounds.2, ?_⟩, hbounds.1, hfresh, ?_⟩
  · have hlookup := lookup_applyChanges (fun item hmem =>
      (hitem item hmem).choose_spec.2.2.2) client.mirror
    refine hreading.2.changes
      (fun id hid => (hlookup id).trans (if_pos hid))
      (fun id hid => (hlookup id).trans (if_neg hid)) ?_
    intro id n hseq hlater hle
    obtain ⟨change, hchange, hmatches, hid, rfl⟩ :=
      Repository.log_seq_eq_some hseq
    have hmem : change ∈ rows := by
      rw [← hrows]
      exact mem_changeRows.mpr ⟨hchange, hmatches, hlater⟩
    obtain ⟨item, hitemMem, hok⟩ :=
      (forall₂_mem hitems).2 change (hcovered change hmem hle)
    rw [← hid, ← (changeItem_ok h hwindow hchange hmatches hok).2.1]
    exact List.mem_map_of_mem hitemMem
  · intro hdrained id n hseq
    obtain ⟨change, hchange, hmatches, -, rfl⟩ :=
      Repository.log_seq_eq_some hseq
    rw [hmore, decide_eq_false_iff_not] at hdrained
    rw [hnext, if_neg hdrained]
    exact Repository.le_watermark hchange hmatches

end

/-! ### Whole runs -/

structure FeedInv (filter : WorkFilter) (state : Feeding)
    (past : List Answer) : Prop where
  wellFormed : state.repository.WellFormed
  keyed : Keyed WorkRecordRow.id state.client.mirror
  reading : Reading filter state.repository
    (fun id => lookup WorkRecordRow.id id state.client.mirror)
    state.client.phase
  drained : state.client.drained = true →
    (fun id => lookup WorkRecordRow.id id state.client.mirror) =
      (state.repository.log filter).current
  marks : (past.map Answer.mark).Pairwise (· ≤ ·)
  bound : ∀ answer ∈ past, answer.mark ≤ state.client.phase.mark
  fresh : ∀ asked page, Answer.changes asked page ∈ past →
    ∀ item ∈ page.data, asked < item.seq

theorem feedInv_initial (filter : WorkFilter) :
    FeedInv filter .initial [] where
  wellFormed := Repository.wellFormed_empty
  keyed := Keyed.nil _
  reading := fun _ => rfl
  drained := by simp [Feeding.initial, Client.initial]
  marks := .nil
  bound := by simp
  fresh := by simp

/-- A step of the server, and a request that fails. -/
theorem FeedInv.serve (h : FeedInv filter state past)
    (hadvances : Repository.Advances state.repository repository) :
    FeedInv filter (state.serve repository) past where
  wellFormed := hadvances.wellFormed
  keyed := h.keyed
  reading := h.reading.advances hadvances
  drained := fun hdrained => nomatch hdrained
  marks := h.marks
  bound := h.bound
  fresh := h.fresh

/-- An answer whose mark is not below the one the client had. -/
theorem marks_append (answer : Answer) {mark : Nat}
    (hmarks : (past.map Answer.mark).Pairwise (· ≤ ·))
    (hbound : ∀ answer ∈ past, answer.mark ≤ mark) (hnext : mark ≤ answer.mark)
    :
    ((past ++ [answer]).map Answer.mark).Pairwise (· ≤ ·) ∧
      ∀ other ∈ past ++ [answer], other.mark ≤ answer.mark := by
  constructor
  · rw [List.map_append, List.pairwise_append]
    refine ⟨hmarks, List.pairwise_singleton _ _, ?_⟩
    intro before hbefore after hafter
    obtain ⟨other, hother, rfl⟩ := List.mem_map.mp hbefore
    rw [List.mem_singleton.mp hafter]
    exact Nat.le_trans (hbound other hother) hnext
  · intro other hother
    rcases List.mem_append.mp hother with hbefore | hlast
    · exact Nat.le_trans (hbound other hbefore) hnext
    · rw [List.mem_singleton.mp hlast]

theorem FeedInv.page (h : FeedInv filter state past) {page : HistoryPage}
    (hphase : state.client.phase = .paging before)
    (hadvances : Repository.Advances state.repository repository)
    (hsize : 1 ≤ size)
    (hpage : historyPage repository filter size before = .ok page) :
    FeedInv filter ⟨repository, state.client.page page⟩
      (past ++ [.history page.after.after]) := by
  have hreading := h.reading.advances hadvances
  rw [hphase] at hreading
  obtain ⟨hread, hmark, hbefore⟩ :=
    hreading.page hadvances.wellFormed hsize hpage
  have hbound := h.bound
  rw [hphase] at hbound
  obtain ⟨hmarks, hlast⟩ :=
    marks_append (.history page.after.after) h.marks hbound hbefore
  constructor
  case wellFormed => exact hadvances.wellFormed
  case keyed =>
    show Keyed WorkRecordRow.id (page.data.foldl setRecord state.client.mirror)
    rw [foldl_setRecord]
    exact keyed_applyChanges h.keyed _
  case reading => exact hread
  case drained => exact fun hdrained => nomatch hdrained
  case marks => exact hmarks
  case bound =>
    intro answer hanswer
    show answer.mark ≤ (state.client.page page).phase.mark
    rw [hmark]
    exact hlast answer hanswer
  case fresh =>
    intro asked other hother
    rcases List.mem_append.mp hother with hpast | hnew
    · exact h.fresh asked other hpast
    · exact nomatch List.mem_singleton.mp hnew

theorem FeedInv.follow (h : FeedInv filter state past)
    (hwindow : filter.windowStart = none) {cursor : ChangeCursor}
    {page : ChangesPage} (hphase : state.client.phase = .following cursor)
    (hadvances : Repository.Advances state.repository repository)
    (hsize : 1 ≤ size)
    (hmark : cursor.after ≤ state.repository.watermark filter)
    (hpage : changesPage repository filter size cursor.after = .ok page) :
    FeedInv filter ⟨repository, state.client.follow page⟩
      (past ++ [.changes cursor.after page]) := by
  have hreading := h.reading.advances hadvances
  rw [hphase] at hreading
  obtain ⟨hread, hnext, hfresh, hdrained⟩ :=
    hreading.follow hadvances.wellFormed hwindow hsize
      (Nat.le_trans hmark (hadvances.watermark h.wellFormed filter)) hpage
  have hbound := h.bound
  rw [hphase] at hbound
  obtain ⟨hmarks, hlast⟩ :=
    marks_append (.changes cursor.after page) h.marks hbound hnext
  constructor
  case wellFormed => exact hadvances.wellFormed
  case keyed => exact keyed_applyChanges h.keyed _
  case reading => exact hread
  case drained =>
    intro hmore
    have hmore : (!page.hasMore) = true := hmore
    exact hread.2.drained (hdrained (by simpa using hmore))
  case marks => exact hmarks
  case bound => exact hlast
  case fresh =>
    intro asked other hother
    rcases List.mem_append.mp hother with hpast | hnew
    · exact h.fresh asked other hpast
    · cases List.mem_singleton.mp hnew
      exact hfresh

theorem feedInv_poll (hwindow : filter.windowStart = none)
    (h : FeedInv filter state past) (limit : Option Nat)
    (sources : List HistorySource) (now : Int) :
    FeedInv filter (poll filter state limit sources now).1
      (past ++ (poll filter state limit sources now).2) := by
  rw [poll]
  split
  · next cursor hphase =>
      obtain ⟨hadvances, hok⟩ := readHistory_cases filter limit cursor sources
        now h.wellFormed
      split
      · next hread =>
          rw [hread] at hadvances
          simpa using h.serve hadvances
      · next hread =>
          rw [hread] at hadvances hok
          obtain ⟨size, hsize, hpage⟩ := hok _ rfl
          exact h.page hphase hadvances hsize hpage
  · next cursor hphase =>
      obtain ⟨hadvances, hok⟩ := readChanges_cases filter limit cursor sources
        now h.wellFormed
      split
      · next hread =>
          rw [hread] at hadvances
          simpa using h.serve hadvances
      · next hread =>
          rw [hread] at hadvances hok
          obtain ⟨hmark, size, hsize, hpage⟩ := hok _ rfl
          exact h.follow hwindow hphase hadvances hsize hmark hpage

theorem feedInv_step (hwindow : filter.windowStart = none) (state : Feeding)
    (past : List Answer) (action : FeedAction) (h : FeedInv filter state past) :
    FeedInv filter ((feedMachine filter).next state action)
      (past ++ (feedMachine filter).emit state action) := by
  have hserve : ∀ {repository : Repository},
      Repository.Advances state.repository repository →
      FeedInv filter (state.serve repository) (past ++ []) := by
    intro repository hadvances
    rw [List.append_nil]
    exact h.serve hadvances
  have hsame := Repository.Advances.refl h.wellFormed
  cases action with
  | saveConversation conversation => exact hserve (hsame.conversations _)
  | start input =>
      simp only [Machine.next, Machine.emit, feedMachine, stepFeed]
      split
      · next hstart =>
          exact hserve (Repository.advances_start h.wellFormed hstart)
      · exact hserve hsame
  | finish recordId owner finish summary =>
      simp only [Machine.next, Machine.emit, feedMachine, stepFeed]
      split
      · next repository committed hfinish =>
          cases committed with
          | false =>
              rw [Repository.finish_skipped hfinish]
              exact hserve hsame
          | true =>
              exact hserve (Repository.advances_finish h.wellFormed hfinish)
      · exact hserve hsame
  | importHistory input segments now =>
      simp only [Machine.next, Machine.emit, feedMachine, stepFeed]
      split
      · next himport =>
          exact hserve
            (Repository.advances_importHistory h.wellFormed himport)
      · exact hserve hsame
  | deleteConversation conversationId tenantId memberId =>
      exact hserve (Repository.advances_deleteConversation h.wellFormed _ _ _)
  | restart now =>
      exact hserve (Repository.advances_restart h.wellFormed now)
  | poll limit sources now => exact feedInv_poll hwindow h limit sources now

/-- The records the client asked for. -/
def feedFilter (owner : WorkOwner) (employeeId : Option String) :
    WorkFilter :=
  ⟨owner, employeeId, none, none⟩

/-- A drained mirror holds the matching records; marks never decrease, and no
page returns a change at or below the mark it was asked for.  A record is its
row: the titles, names and session texts that `view` joins to it are not spoken
of, and change without a change row. -/
theorem change_feed_complete (owner : WorkOwner) (employeeId : Option String)
    (actions : List FeedAction) :
    let filter := feedFilter owner employeeId
    let state := (feedMachine filter).run .initial actions
    let answers := (feedMachine filter).trace .initial actions
    (state.client.drained = true → ∀ record,
      record ∈ state.client.mirror ↔
        record ∈ state.repository.records ∧ filter.matchesRecord record) ∧
    (answers.map Answer.mark).Pairwise (· ≤ ·) ∧
    ∀ asked page, Answer.changes asked page ∈ answers →
      ∀ item ∈ page.data, asked < item.seq := by
  intro filter state answers
  have hinv := (feedMachine filter).invariant (FeedInv filter)
    (fun state past action h => feedInv_step rfl state past action h)
    actions (feedInv_initial filter)
  rw [List.nil_append] at hinv
  refine ⟨fun hdrained record => ?_, hinv.marks, hinv.fresh⟩
  have hmirror := congrFun (hinv.drained hdrained) record.id
  constructor
  · intro hrecord
    rw [hinv.keyed record hrecord] at hmirror
    obtain ⟨hmem, hmatches, -⟩ :=
      Repository.log_current_eq_some hmirror.symm
    exact ⟨hmem, hmatches⟩
  · rintro ⟨hmem, hmatches⟩
    rw [hinv.wellFormed.log_current hmem hmatches] at hmirror
    exact lookup_mem hmirror

namespace MirrorExample

def owner : WorkOwner := ⟨"tenant", "member"⟩

def begin (conversationId : String) : FeedAction :=
  .start ⟨owner, "employee", conversationId, 0, 0, none⟩

/-- A record starts between two pages, and a conversation goes before the
changes are read. -/
def actions : List FeedAction :=
  [.saveConversation ⟨"c1", some "tenant", some "member"⟩,
    .saveConversation ⟨"c2", some "tenant", some "member"⟩,
    begin "c1", begin "c2", .poll (some 1) [] 0, begin "c2",
    .poll (some 1) [] 0, .deleteConversation "c1" none none, .restart 5,
    .poll (some 1) [] 0, .poll none [] 0]

end MirrorExample

open MirrorExample in
example :
    let state := (feedMachine (feedFilter owner none)).run .initial actions
    state.client.drained = true ∧ state.client.mirror.length = 2 := by
  decide

end AiTeam.WorkRecord
