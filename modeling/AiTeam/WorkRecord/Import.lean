/-
The import of historical segments against the plain check: every segment
against every live row and every recorded anchor.
-/
import AiTeam.WorkRecord.Repository

namespace AiTeam.WorkRecord

variable {segment : WorkHistorySegment} {row : WorkRecordRow}

namespace Repository

/-! ### The plain check -/

/-- An ordinal lies before the end of a live row or, as long as it has none,
before the next live start. -/
def BeforeEnd (live : List WorkRecordRow) (row : WorkRecordRow)
    (position : Nat) : Option Nat → Prop
  | some stop => position < stop
  | none => ∀ next ∈ live, row.startOrdinal < next.startOrdinal →
      position < next.startOrdinal

instance (live : List WorkRecordRow) (row : WorkRecordRow) (position : Nat) :
    (stop : Option Nat) → Decidable (BeforeEnd live row position stop)
  | some stop => inferInstanceAs (Decidable (position < stop))
  | none => inferInstanceAs (Decidable (∀ next ∈ live, _ → _))

/-- A live row holds the ordinals from its start on that lie before its end. -/
def Holds (live : List WorkRecordRow) (row : WorkRecordRow)
    (position : Nat) : Prop :=
  row.startOrdinal ≤ position ∧ BeforeEnd live row position row.endOrdinal

instance (live : List WorkRecordRow) (row : WorkRecordRow) (position : Nat) :
    Decidable (Holds live row position) :=
  inferInstanceAs (Decidable (_ ∧ _))

def isLive (input : Participant) (row : WorkRecordRow) : Bool :=
  input.isOf row && decide (row.provenance = .live)

def isHistory (input : Participant) (row : WorkRecordRow) : Bool :=
  input.isOf row && decide (row.provenance = .piHistory)

/-- The first entry of the segment lies in some live row. -/
def Covered (repository : Repository) (input : Participant)
    (segment : WorkHistorySegment) : Prop :=
  ∃ row ∈ repository.records.filter (isLive input),
    Holds (repository.records.filter (isLive input)) row segment.startOrdinal

def Recorded (repository : Repository) (input : Participant)
    (segment : WorkHistorySegment) : Prop :=
  ∃ row ∈ repository.records.filter (isHistory input),
    row.firstEntryId = some segment.firstEntryId

instance (repository : Repository) (input : Participant)
    (segment : WorkHistorySegment) :
    Decidable (Covered repository input segment) :=
  inferInstanceAs (Decidable (∃ row ∈ _, _))

instance (repository : Repository) (input : Participant)
    (segment : WorkHistorySegment) :
    Decidable (Recorded repository input segment) :=
  inferInstanceAs (Decidable (∃ row ∈ _, _))

/-- The first segment of every first entry. -/
def firstOfAnchor : List WorkHistorySegment → List WorkHistorySegment
  | [] => []
  | segment :: rest => segment ::
      (firstOfAnchor rest).filter (·.firstEntryId ≠ segment.firstEntryId)

/-- The segments to insert, each checked against all rows. -/
def plainImport (repository : Repository) (input : Participant)
    (segments : List WorkHistorySegment) : List WorkHistorySegment :=
  firstOfAnchor ((sortedSegments segments).filter fun segment =>
    ¬ Covered repository input segment ∧ ¬ Recorded repository input segment)

/-- The rows of inserted segments, with the numbers they draw. -/
def importedRows (input : Participant) (now : Int) :
    List WorkHistorySegment → Nat → Nat → List WorkRecordRow
  | [], _, _ => []
  | segment :: rest, createdSeq, draws =>
      importedRow input segment now (createdSeq + 1) draws ::
        importedRows input now rest (createdSeq + 1) (draws + 1)

/-- Both rows are entries of the index `work_record_history`, with one key. -/
def SameAnchor (row row' : WorkRecordRow) : Prop :=
  row.provenance = .piHistory ∧ row'.provenance = .piHistory ∧
    row.conversationId = row'.conversationId ∧
    row.employeeId = row'.employeeId ∧
    row.firstEntryId.isSome ∧ row.firstEntryId = row'.firstEntryId

def HistoryUnique (repository : Repository) : Prop :=
  repository.records.Pairwise fun row row' => ¬ SameAnchor row row'

/-! ### First segments -/

/-- Every first entry has a segment among the first ones. -/
theorem exists_mem_firstOfAnchor {segments : List WorkHistorySegment}
    (h : segment ∈ segments) :
    ∃ first ∈ firstOfAnchor segments,
      first.firstEntryId = segment.firstEntryId := by
  induction segments with
  | nil => exact absurd h List.not_mem_nil
  | cons head rest ih =>
      by_cases hanchor : head.firstEntryId = segment.firstEntryId
      · exact ⟨head, List.mem_cons_self, hanchor⟩
      · rcases List.mem_cons.mp h with rfl | h
        · exact absurd rfl hanchor
        · obtain ⟨first, hmem, hfirst⟩ := ih h
          refine ⟨first, List.mem_cons_of_mem _ ?_, hfirst⟩
          apply List.mem_filter.mpr
          refine ⟨hmem, ?_⟩
          rw [hfirst]
          simpa using fun heq => hanchor heq.symm

theorem nodup_firstOfAnchor (segments : List WorkHistorySegment) :
    ((firstOfAnchor segments).map (·.firstEntryId)).Nodup := by
  induction segments with
  | nil => exact List.nodup_nil
  | cons segment rest ih =>
      rw [firstOfAnchor, List.map_cons, List.nodup_cons]
      constructor
      · intro hmem
        obtain ⟨other, hother, heq⟩ := List.mem_map.mp hmem
        simpa [heq] using (List.mem_filter.mp hother).2
      · exact ih.sublist (List.filter_sublist.map _)

/-- Dropping whole anchors and taking the first of each commute. -/
theorem firstOfAnchor_filter (keep : String → Bool)
    (segments : List WorkHistorySegment) :
    firstOfAnchor (segments.filter fun segment => keep segment.firstEntryId)
      = (firstOfAnchor segments).filter
          fun segment => keep segment.firstEntryId := by
  induction segments with
  | nil => rfl
  | cons segment rest ih =>
      cases hkeep : keep segment.firstEntryId with
      | true =>
          simp only [List.filter_cons, hkeep, if_true, firstOfAnchor, ih,
            List.filter_filter]
          simp only [Bool.and_comm]
      | false =>
          simp only [List.filter_cons, hkeep, firstOfAnchor, ih,
            List.filter_filter, Bool.false_eq_true, if_false]
          apply List.filter_congr
          intro other _
          by_cases heq : other.firstEntryId = segment.firstEntryId
          · simp [heq, hkeep]
          · simp [heq]

/-! ### The starts of live work -/

@[simp] theorem ordinal_lt {left right : Nat} :
    ordinal left < ordinal right ↔ left < right :=
  WithBot.coe_lt_coe.trans WithTop.coe_lt_coe

@[simp] theorem ordinal_le {left right : Nat} :
    ordinal left ≤ ordinal right ↔ left ≤ right :=
  WithBot.coe_le_coe.trans WithTop.coe_le_coe

@[simp] theorem ordinal_lt_top (value : Nat) : ordinal value < ⊤ :=
  WithBot.coe_lt_coe.mpr (WithTop.coe_lt_top value)

theorem mem_distinct {values : List Nat} {value : Nat} :
    value ∈ distinct values ↔ value ∈ values := by
  induction values with
  | nil => rfl
  | cons first rest ih =>
      by_cases heq : value = first <;> simp [distinct, ih, heq]

theorem distinct_ascending {values : List Nat}
    (h : values.Pairwise (· ≤ ·)) : (distinct values).Pairwise (· < ·) := by
  induction values with
  | nil => exact List.Pairwise.nil
  | cons first rest ih =>
      obtain ⟨hfirst, hrest⟩ := List.pairwise_cons.mp h
      apply List.pairwise_cons.mpr
      constructor
      · intro value hmem
        obtain ⟨hvalue, hne⟩ := List.mem_filter.mp hmem
        have hle := hfirst value (mem_distinct.mp hvalue)
        have hne : value ≠ first := of_decide_eq_true hne
        omega
      · exact (ih hrest).filter _

/-- An ordinal is below the start after `start` when it is below every later
one. -/
theorem lt_nextStart {starts : List Nat} (hsorted : starts.Pairwise (· < ·))
    {start : Nat} (hmem : start ∈ starts) (position : Nat) :
    ordinal position < ((nextStarts starts).lookup start).getD ⊤ ↔
      ∀ next ∈ starts, start < next → position < next := by
  induction starts with
  | nil => exact absurd hmem List.not_mem_nil
  | cons first rest ih =>
      cases rest with
      | nil =>
          obtain rfl := List.mem_singleton.mp hmem
          simp [nextStarts]
      | cons second rest =>
          obtain ⟨hfirst, hrest⟩ := List.pairwise_cons.mp hsorted
          have hsecond := (List.pairwise_cons.mp hrest).1
          by_cases heq : start = first
          · subst heq
            have hlt := hfirst second List.mem_cons_self
            simp only [nextStarts, List.lookup_cons_self, Option.getD_some,
              ordinal_lt]
            constructor
            · intro hposition next hnext hafter
              rcases List.mem_cons.mp hnext with rfl | hnext
              · omega
              · rcases List.mem_cons.mp hnext with rfl | hnext
                · exact hposition
                · exact hposition.trans (hsecond next hnext)
            · intro hall
              exact hall second (by simp) hlt
          · have hmem : start ∈ second :: rest := by
              rcases List.mem_cons.mp hmem with hhead | hmem
              · exact absurd hhead heq
              · exact hmem
            have hbefore := hfirst start hmem
            rw [nextStarts, List.lookup_cons, beq_false_of_ne heq, ih hrest hmem]
            constructor
            · intro hall next hnext hafter
              rcases List.mem_cons.mp hnext with rfl | hnext
              · omega
              · exact hall next hnext hafter
            · intro hall next hnext
              exact hall next (List.mem_cons_of_mem _ hnext)

/-! ### The sweep is the plain check -/

variable {repository repository' : Repository} {input : Participant}
  {segments : List WorkHistorySegment} {now now' : Int}

/-- What the sweep compares the starts of segments with. -/
def liveStops (live : List WorkRecordRow) : WorkRecordRow → Ordinal :=
  liveEnd (nextStarts (distinct (live.map WorkRecordRow.startOrdinal)))

theorem held_iff {live : List WorkRecordRow}
    (hsorted : live.Pairwise fun left right =>
      left.startOrdinal ≤ right.startOrdinal) (position : Nat) :
    Sweep.Held (fun row : WorkRecordRow => ordinal row.startOrdinal)
        (liveStops live) live (ordinal position) ↔
      ∃ row ∈ live, Holds live row position := by
  have hstarts := distinct_ascending
    (List.pairwise_map.mpr hsorted : (live.map _).Pairwise (· ≤ ·))
  apply exists_congr
  intro row
  apply and_congr_right
  intro hrow
  rw [ordinal_le, Holds]
  apply and_congr_right
  intro _
  cases hend : row.endOrdinal with
  | some stop => simp [liveStops, liveEnd, hend, BeforeEnd]
  | none =>
      have hmem : row.startOrdinal ∈
          distinct (live.map WorkRecordRow.startOrdinal) :=
        mem_distinct.mpr (List.mem_map_of_mem hrow)
      simp [liveStops, liveEnd, hend, BeforeEnd, lt_nextStart hstarts hmem,
        mem_distinct]

/-- The filter over sorted segments, from any point of the sweep. -/
theorem pendingSegments_eq {live rest : List WorkRecordRow} {reach : Ordinal}
    {position : Ordinal} {anchors : List (Option String)}
    (hlive : live.Pairwise fun left right =>
      left.startOrdinal ≤ right.startOrdinal)
    (hsegments : segments.Pairwise fun left right =>
      left.startOrdinal ≤ right.startOrdinal)
    (hposition : ∀ segment ∈ segments,
      position ≤ ordinal segment.startOrdinal)
    (hswept : Sweep.Swept (fun row : WorkRecordRow => ordinal row.startOrdinal)
      (liveStops live) live position rest reach) :
    pendingSegments (nextStarts (distinct (live.map WorkRecordRow.startOrdinal)))
        rest reach anchors segments =
      firstOfAnchor (segments.filter fun segment =>
        ¬ (∃ row ∈ live, Holds live row segment.startOrdinal) ∧
          some segment.firstEntryId ∉ anchors) := by
  induction segments generalizing rest reach position anchors with
  | nil => rfl
  | cons segment segments ih =>
      obtain ⟨hfirst, hrest⟩ := List.pairwise_cons.mp hsegments
      obtain ⟨hswept, hhead⟩ :=
        (hswept.onward (hposition segment List.mem_cons_self)).advance
      have hcovered := hswept.lt_reach_iff
        (hlive.imp fun h => ordinal_le.mpr h) hhead
      rw [held_iff hlive] at hcovered
      have hnext : ∀ other ∈ segments,
          ordinal segment.startOrdinal ≤ ordinal other.startOrdinal :=
        fun other hother => ordinal_le.mpr (hfirst other hother)
      rw [pendingSegments]
      simp only [liveStops] at hcovered hswept ih ⊢
      simp only [hcovered]
      split
      · next hskip =>
          rw [ih hrest hnext hswept]
          congr 1
          rw [List.filter_cons_of_neg]
          simpa [or_comm, imp_iff_not_or] using hskip
      · next htake =>
          rw [ih hrest hnext hswept, List.filter_cons_of_pos (by
            simpa [and_comm] using htake), firstOfAnchor]
          congr 1
          rw [← firstOfAnchor_filter
            fun anchor => decide (anchor ≠ segment.firstEntryId),
            List.filter_filter]
          congr 1
          apply List.filter_congr
          intro other _
          simp [and_comm, and_assoc]

theorem participantRows_sorted (repository : Repository)
    (input : Participant) :
    (repository.participantRows input).Pairwise fun left right =>
      left.startOrdinal ≤ right.startOrdinal :=
  List.pairwise_insertionSort (fun left right : WorkRecordRow =>
    left.startOrdinal ≤ right.startOrdinal) _

theorem sortedSegments_sorted (segments : List WorkHistorySegment) :
    (sortedSegments segments).Pairwise fun left right =>
      left.startOrdinal ≤ right.startOrdinal :=
  List.pairwise_insertionSort (fun left right : WorkHistorySegment =>
    left.startOrdinal ≤ right.startOrdinal) _

theorem mem_participantRows :
    row ∈ repository.participantRows input ↔
      row ∈ repository.records ∧ input.isOf row = true := by
  rw [participantRows, List.mem_insertionSort, List.mem_filter]

theorem mem_liveRows :
    row ∈ repository.liveRows input ↔
      row ∈ repository.records.filter (isLive input) := by
  simp [liveRows, mem_participantRows, isLive, and_assoc]

theorem mem_historyAnchors :
    some segment.firstEntryId ∈ repository.historyAnchors input ↔
      Recorded repository input segment := by
  simp [historyAnchors, mem_participantRows, Recorded, isHistory, and_assoc]

theorem covered_iff :
    (∃ row ∈ repository.liveRows input,
        Holds (repository.liveRows input) row segment.startOrdinal) ↔
      Covered repository input segment := by
  apply exists_congr
  intro row
  rw [mem_liveRows]
  apply and_congr_right
  intro _
  apply and_congr_right
  intro _
  cases row.endOrdinal with
  | some stop => rfl
  | none => simp only [BeforeEnd, mem_liveRows]

/-- An import inserts what the plain check leaves. -/
theorem importHistory_eq (repository : Repository) (input : Participant)
    (segments : List WorkHistorySegment) (now : Int) :
    repository.importHistory input segments now =
      if plainImport repository input segments = [] then .ok repository
      else if repository.owns input.conversationId input.owner then
        insertSegments input now (plainImport repository input segments)
          repository
      else .error "Work conversation is not owned" := by
  have hlive := (participantRows_sorted repository input).filter
    (·.provenance = .live)
  have hplain : pendingSegments (nextStarts (distinct
      ((repository.liveRows input).map WorkRecordRow.startOrdinal)))
      (repository.liveRows input) ⊥ (repository.historyAnchors input)
      (sortedSegments segments) = plainImport repository input segments := by
    rw [liveRows, pendingSegments_eq hlive (sortedSegments_sorted segments)
      (fun _ _ => bot_le) (Sweep.Swept.init fun _ _ => not_lt_bot),
      plainImport]
    congr 1
    apply List.filter_congr
    intro segment _
    have hcovered : _ ↔ Covered repository input segment := covered_iff
    rw [liveRows] at hcovered
    simp only [hcovered, mem_historyAnchors]
  simp only [importHistory, hplain]

/-! ### What is inserted -/

theorem insert_records (repository : Repository)
    (row : Nat → Nat → WorkRecordRow) :
    (repository.insert row).records = repository.records ++
      [row (repository.createdSeq + 1) repository.draws] := rfl

theorem insertSegments_records
    (h : insertSegments input now segments repository = .ok repository') :
    repository'.records = repository.records ++
        importedRows input now segments repository.createdSeq
          repository.draws := by
  induction segments generalizing repository with
  | nil =>
      cases h
      simp [importedRows]
  | cons segment rest ih =>
      rw [insertSegments] at h
      split at h
      · cases h
      · rw [ih h, insert_records, importedRows, List.append_assoc]
        rfl

variable (now) in
theorem anchored_iff :
    repository.anchored input segment = true ↔
      ∃ row ∈ repository.records,
        SameAnchor row (importedRow input segment now 0 0) := by
  simp only [anchored, List.any_eq_true, Bool.and_eq_true, decide_eq_true_eq,
    SameAnchor, importedRow]
  apply exists_congr
  intro row
  apply and_congr_right
  intro _
  constructor
  · rintro ⟨⟨⟨hprovenance, hconversation⟩, hemployee⟩, hfirst⟩
    exact ⟨hprovenance, trivial, hconversation, hemployee, by simp [hfirst],
      hfirst⟩
  · rintro ⟨hprovenance, -, hconversation, hemployee, -, hfirst⟩
    exact ⟨⟨⟨hprovenance, hconversation⟩, hemployee⟩, hfirst⟩

theorem historyUnique_insertSegments (hunique : HistoryUnique repository)
    (h : insertSegments input now segments repository = .ok repository') :
    HistoryUnique repository' := by
  induction segments generalizing repository with
  | nil =>
      cases h
      exact hunique
  | cons segment rest ih =>
      rw [insertSegments] at h
      split at h
      · cases h
      · next hfree =>
          apply ih _ h
          rw [HistoryUnique, insert_records, List.pairwise_append]
          refine ⟨hunique, List.pairwise_singleton _ _, ?_⟩
          intro row hrow other hother hsame
          rw [List.mem_singleton.mp hother] at hsame
          exact hfree ((anchored_iff now).mpr ⟨row, hrow, hsame⟩)

/-- The insertion goes through exactly when no row of the index has the key of
a segment, however it came to be there. -/
theorem insertSegments_returns
    (hnodup : (segments.map (·.firstEntryId)).Nodup) :
    (∃ repository', insertSegments input now segments repository =
        .ok repository') ↔
      ∀ segment ∈ segments, repository.anchored input segment = false := by
  induction segments generalizing repository with
  | nil => simp [insertSegments]
  | cons segment rest ih =>
      rw [List.map_cons, List.nodup_cons] at hnodup
      rw [insertSegments, List.forall_mem_cons]
      cases hfree : repository.anchored input segment with
      | true => simp
      | false =>
          simp only [Bool.false_eq_true, if_false, true_and]
          rw [ih hnodup.2]
          apply forall₂_congr
          intro other hother
          have hne : segment.firstEntryId ≠ other.firstEntryId := by
            intro heq
            apply hnodup.1
            rw [heq]
            exact List.mem_map_of_mem hother
          simp [anchored, insert_records, List.any_append, importedRow, hne]

theorem mem_importedRows {createdSeq draws : Nat}
    (h : row ∈ importedRows input now segments createdSeq draws) :
    ∃ segment ∈ segments, ∃ seq id,
      row = importedRow input segment now seq id := by
  induction segments generalizing createdSeq draws with
  | nil => exact absurd h List.not_mem_nil
  | cons segment rest ih =>
      rcases List.mem_cons.mp h with rfl | h
      · exact ⟨segment, List.mem_cons_self, _, _, rfl⟩
      · obtain ⟨other, hmem, hrow⟩ := ih h
        exact ⟨other, List.mem_cons_of_mem _ hmem, hrow⟩

theorem importedRows_mem {createdSeq draws : Nat} (h : segment ∈ segments) :
    ∃ seq id, importedRow input segment now seq id ∈
      importedRows input now segments createdSeq draws := by
  induction segments generalizing createdSeq draws with
  | nil => exact absurd h List.not_mem_nil
  | cons first rest ih =>
      rcases List.mem_cons.mp h with rfl | h
      · exact ⟨_, _, List.mem_cons_self⟩
      · obtain ⟨seq, id, hmem⟩ := ih h
        exact ⟨seq, id, List.mem_cons_of_mem _ hmem⟩

/-- What is inserted is history of the participant. -/
theorem isOf_importedRow (segment : WorkHistorySegment) (seq id : Nat) :
    input.isOf (importedRow input segment now seq id) = true := by
  simp [Participant.isOf, importedRow]

theorem filter_live_importedRows (createdSeq draws : Nat) :
    (importedRows input now segments createdSeq draws).filter (isLive input) =
      [] := by
  apply List.filter_eq_nil_iff.mpr
  intro row hrow
  obtain ⟨segment, -, seq, id, rfl⟩ := mem_importedRows hrow
  simp [isLive, importedRow]

/-- What an import changes. -/
structure Imports (repository : Repository) (input : Participant)
    (segments : List WorkHistorySegment) (now : Int)
    (repository' : Repository) : Prop where
  inserts : repository'.records = repository.records ++
    importedRows input now (plainImport repository input segments)
      repository.createdSeq repository.draws
  unique : HistoryUnique repository → HistoryUnique repository'
  again : ∀ now', repository'.importHistory input segments now' =
    .ok repository'

/-- After an import every segment is covered or recorded. -/
theorem plainImport_again
    (hrecords : repository'.records = repository.records ++
      importedRows input now (plainImport repository input segments)
        repository.createdSeq repository.draws) :
    plainImport repository' input segments = [] := by
  rw [plainImport, List.filter_eq_nil_iff.mpr]
  · rfl
  · intro segment hmem
    have hcovered : Covered repository' input segment ↔
        Covered repository input segment := by
      simp only [Covered, hrecords, List.filter_append,
        filter_live_importedRows, List.append_nil]
    rw [decide_eq_true_eq, hcovered]
    rintro ⟨hfree, hnew⟩
    by_cases hrecorded : Recorded repository input segment
    · obtain ⟨row, hrow, hfirst⟩ := hrecorded
      apply hnew
      refine ⟨row, ?_, hfirst⟩
      rw [hrecords, List.filter_append]
      exact List.mem_append_left _ hrow
    · have hleft : segment ∈ (sortedSegments segments).filter fun segment =>
          ¬ Covered repository input segment ∧
            ¬ Recorded repository input segment :=
        List.mem_filter.mpr ⟨hmem, decide_eq_true ⟨hfree, hrecorded⟩⟩
      obtain ⟨first, hfirst, hanchor⟩ := exists_mem_firstOfAnchor hleft
      obtain ⟨seq, id, hrow⟩ :
          ∃ seq id, importedRow input first now seq id ∈
            importedRows input now (plainImport repository input segments)
              repository.createdSeq repository.draws :=
        importedRows_mem hfirst
      apply hnew
      refine ⟨importedRow input first now seq id, ?_, by
        simp [importedRow, hanchor]⟩
      rw [hrecords, List.filter_append]
      apply List.mem_append_right
      apply List.mem_filter.mpr
      refine ⟨hrow, ?_⟩
      rw [isHistory, isOf_importedRow]
      rfl

theorem imports_of_ok
    (h : repository.importHistory input segments now = .ok repository') :
    Imports repository input segments now repository' := by
  rw [importHistory_eq] at h
  have hresult : insertSegments input now
      (plainImport repository input segments) repository =
        .ok repository' := by
    split at h
    · next hnil =>
        rw [hnil]
        exact h
    · split at h
      · exact h
      · exact nomatch h
  have hrecords := insertSegments_records hresult
  constructor
  · exact hrecords
  · intro hunique
    exact historyUnique_insertSegments hunique hresult
  · intro now'
    rw [importHistory_eq, if_pos (plainImport_again hrecords)]

theorem importHistory_returns :
    (∃ repository', repository.importHistory input segments now =
        .ok repository') ↔
      plainImport repository input segments = [] ∨
        (repository.owns input.conversationId input.owner = true ∧
          ∀ segment ∈ plainImport repository input segments,
            repository.anchored input segment = false) := by
  rw [importHistory_eq]
  by_cases hnil : plainImport repository input segments = []
  · simp [hnil]
  · by_cases howns : repository.owns input.conversationId input.owner = true
    · simp only [hnil, howns, if_false, if_true, false_or, true_and]
      exact insertSegments_returns (nodup_firstOfAnchor _)
    · simp [hnil, howns]

end Repository

open Repository

/-- An import inserts exactly what the plain check leaves, makes no second
entry of an anchor, and finds nothing to do when it is repeated; it throws only
for a conversation of somebody else or an anchor somebody else recorded. -/
theorem importHistory_plain (repository : Repository) (input : Participant)
    (segments : List WorkHistorySegment) (now : Int) :
    (∀ repository', repository.importHistory input segments now =
        .ok repository' →
      Imports repository input segments now repository') ∧
    ((∃ repository', repository.importHistory input segments now =
        .ok repository') ↔
      plainImport repository input segments = [] ∨
        (repository.owns input.conversationId input.owner = true ∧
          ∀ segment ∈ plainImport repository input segments,
            repository.anchored input segment = false)) :=
  ⟨fun _ h => imports_of_ok h, importHistory_returns⟩

namespace ImportWitness

def owner : WorkOwner := ⟨"t", "m"⟩

def input : Participant := ⟨owner, "c", "e"⟩

/-- Live work on the entries 2, 3 and 4. -/
def live : WorkRecordRow :=
  { startedRow
      { owner := owner
        employeeId := "e"
        conversationId := "c"
        startedAt := 0
        startOrdinal := 2
        promptReceipt := none } 1 0 with
    outcome := .succeeded
    endOrdinal := some 5 }

def repository : Repository where
  conversations := [⟨"c", some "t", some "m"⟩]
  records := [live]
  changes := []
  createdSeq := 1
  changeSeq := 0
  draws := 1

/-- An earlier prompt whose entries run up to the next user message, past the
start of the live work. -/
def earlier : WorkHistorySegment where
  startOrdinal := 0
  endOrdinal := 3
  firstEntryId := "u0"
  lastEntryId := "x"
  firstEntryAt := none
  lastEntryAt := none
  outcome := .succeeded

/-- The prompt of the live work. -/
def lived : WorkHistorySegment :=
  { earlier with
    startOrdinal := 3
    endOrdinal := 5
    firstEntryId := "u3" }

def imported : Repository :=
  repository.insert (importedRow input earlier 9)

theorem imports : repository.importHistory input [lived, earlier] 9 =
    .ok imported := by
  decide

/-- Some entry of the segment lies in some live row. -/
def Overlaps (repository : Repository) (input : Participant)
    (segment : WorkHistorySegment) : Prop :=
  ∃ row ∈ repository.records.filter (isLive input), ∃ position,
    segment.startOrdinal ≤ position ∧ position < segment.endOrdinal ∧
      Holds (repository.records.filter (isLive input)) row position

end ImportWitness

open ImportWitness in
theorem importHistory_plain_earlier :
    Imports repository input [lived, earlier] 9 imported :=
  (importHistory_plain repository input [lived, earlier] 9).1 imported imports

open ImportWitness in
/-- A segment that begins before the live work and runs into it is inserted. -/
theorem overlapping_segment_inserted :
    ¬ ∀ (repository : Repository) (input : Participant)
        (segments : List WorkHistorySegment) (now : Int)
        (repository' : Repository),
      repository.importHistory input segments now = .ok repository' →
        ∀ segment ∈ segments,
          (∃ row ∈ repository'.records, row.provenance = .piHistory ∧
            row.firstEntryId = some segment.firstEntryId) ↔
          ¬ Overlaps repository input segment := by
  intro hall
  have hearlier := hall repository input [lived, earlier] 9 imported imports
    earlier (by simp)
  apply hearlier.mp
  · exact ⟨importedRow input earlier 9 2 1, by decide, rfl, rfl⟩
  · exact ⟨live, by decide, 2, by decide, by decide, by decide⟩

end AiTeam.WorkRecord
