/-
`workIdsForEntries`: live work records mark the entries of their ranges, and an
entry keeps a mark that is the only one.
-/
import Mathlib.Data.Int.Order.Basic
import Mathlib.Data.List.Dedup
import AiTeam.Table
import AiTeam.WorkRecord.Repository

namespace AiTeam.SessionHistory

open WorkRecord (Provenance WorkOutcome)

/-! ### The code -/

/-- The columns of `WorkRecordRow` that attribution reads, with any range a
record may hold. -/
structure WorkRow where
  id : String
  provenance : Provenance
  outcome : WorkOutcome
  startOrdinal : Int
  endOrdinal : Option Int
  firstEntryId : Option String
  lastEntryId : Option String
deriving DecidableEq

/-- A session entry; an id may be missing. -/
structure SessionEntry where
  id : Option String
deriving DecidableEq

/-- `[...new Set(values)]`. -/
def distinct : List Int → List Int
  | [] => []
  | value :: rest => value :: (distinct rest).filter (· ≠ value)

/-- `nextStarts`: every distinct start with the one after it. -/
def nextStarts (length : Int) : List Int → List (Int × Int)
  | [] => []
  | [start] => [(start, length)]
  | start :: next :: rest =>
      (start, next) :: nextStarts length (next :: rest)

/-- An id that is missing or empty anchors nothing. -/
def anchored (entries : List SessionEntry) (id : Option String) (at_ : Int) :
    Bool :=
  match id with
  | none | some "" => true
  | some id => entries[at_.toNat]?.bind SessionEntry.id == some id

/-- The range of a record, unless the loop goes on without it. -/
def rangeOf (entries : List SessionEntry) (next : List (Int × Int))
    (row : WorkRow) : Option (Int × Int) :=
  let start := row.startOrdinal
  match row.endOrdinal.or
      (if row.outcome = .active then valueAt start next else none) with
  | none => none
  | some stop =>
      if start < 0 ∨ stop ≤ start ∨ entries.length < stop then none
      else if anchored entries row.firstEntryId start &&
          anchored entries row.lastEntryId (stop - 1) then some (start, stop)
      else none

structure Marks where
  ids : List (Int × String)
  ambiguous : List Int

def mark (id : String) (marks : Marks) (ordinal : Int) : Marks :=
  if (valueAt ordinal marks.ids).isSome then
    { marks with ambiguous := ordinal :: marks.ambiguous }
  else { marks with ids := assign ordinal id marks.ids }

/-- The ordinals from `start` up to `stop`. -/
def ordinals (start stop : Int) : List Int :=
  (List.range (stop - start).toNat).map fun i : Nat => start + i

def markRow (entries : List SessionEntry) (next : List (Int × Int))
    (marks : Marks) (row : WorkRow) : Marks :=
  match rangeOf entries next row with
  | none => marks
  | some (start, stop) => (ordinals start stop).foldl (mark row.id) marks

def liveRows (records : List WorkRow) : List WorkRow :=
  (records.filter fun row => row.provenance = .live).mergeSort
    fun a b => decide (a.startOrdinal ≤ b.startOrdinal)

def starts (records : List WorkRow) : List Int :=
  distinct ((liveRows records).map WorkRow.startOrdinal)

def workIdsForEntries (entries : List SessionEntry) (records : List WorkRow) :
    List (Int × String) :=
  let marks := (liveRows records).foldl
    (markRow entries (nextStarts entries.length (starts records))) ⟨[], []⟩
  marks.ambiguous.foldl (fun ids ordinal => discard ordinal ids) marks.ids

/-! ### The law -/

/-- Where the range of a record ends: where it says, or, while it is active, at
the next start of a live record, or with the entries. -/
def EndsAt (entries : List SessionEntry) (records : List WorkRow)
    (row : WorkRow) (stop : Int) : Prop :=
  row.endOrdinal = some stop ∨
    row.endOrdinal = none ∧ row.outcome = .active ∧
      ((∃ next ∈ records, next.provenance = .live ∧
          next.startOrdinal = stop ∧ row.startOrdinal < stop ∧
          ∀ other ∈ records, other.provenance = .live →
            row.startOrdinal < other.startOrdinal →
            stop ≤ other.startOrdinal) ∨
        stop = entries.length ∧
          ∀ other ∈ records, other.provenance = .live →
            other.startOrdinal ≤ row.startOrdinal)

/-- An entry that a record names is the one at the position. -/
def Anchors (entries : List SessionEntry) (id : Option String)
    (position : Int) : Prop :=
  ∀ name, id = some name → name ≠ "" →
    ∃ entry, entries[position.toNat]? = some entry ∧ entry.id = some name

/-- A valid live range covers the ordinal. -/
structure Covers (entries : List SessionEntry) (records : List WorkRow)
    (ordinal : Int) (row : WorkRow) (stop : Int) : Prop where
  live : row.provenance = .live
  ends : EndsAt entries records row stop
  nonneg : 0 ≤ row.startOrdinal
  bounded : stop ≤ entries.length
  first : Anchors entries row.firstEntryId row.startOrdinal
  last : Anchors entries row.lastEntryId (stop - 1)
  from_start : row.startOrdinal ≤ ordinal
  below_stop : ordinal < stop

def IsCovered (entries : List SessionEntry) (records : List WorkRow)
    (ordinal : Int) (row : WorkRow) : Prop :=
  ∃ stop, Covers entries records ordinal row stop

open Classical in
/-- The records with a valid live range over the ordinal. -/
noncomputable def covering (entries : List SessionEntry)
    (records : List WorkRow) (ordinal : Int) : List WorkRow :=
  records.filter fun row => IsCovered entries records ordinal row

/-! ### One mark -/

/-- What the marks say of an ordinal that these records were found to cover. -/
def Marked (marks : Marks) (ordinal : Int) : List WorkRow → Prop
  | [] => valueAt ordinal marks.ids = none ∧ ordinal ∉ marks.ambiguous
  | row :: rest => valueAt ordinal marks.ids = some row.id ∧
      (ordinal ∈ marks.ambiguous ↔ rest ≠ [])

section

variable {marks : Marks} {ordinal : Int} {rows : List WorkRow}

theorem Marked.mark_self (h : Marked marks ordinal rows) (row : WorkRow) :
    Marked (mark row.id marks ordinal) ordinal (rows ++ [row]) := by
  cases rows with
  | nil =>
      obtain ⟨hnone, hclear⟩ := h
      rw [mark, hnone]
      exact ⟨by simp [valueAt_assign], by simpa using hclear⟩
  | cons first rest =>
      obtain ⟨hsome, hambiguous⟩ := h
      rw [mark, hsome]
      exact ⟨hsome, by simp⟩

theorem Marked.mark_other (h : Marked marks ordinal rows) (id : String)
    {other : Int} (hne : ordinal ≠ other) :
    Marked (mark id marks other) ordinal rows := by
  rw [mark]
  split
  · cases rows with
    | nil => exact ⟨h.1, by simpa [hne] using h.2⟩
    | cons first rest => exact ⟨h.1, by simpa [hne] using h.2⟩
  · cases rows with
    | nil => exact ⟨by rw [valueAt_assign, if_neg hne]; exact h.1, h.2⟩
    | cons first rest =>
        exact ⟨by rw [valueAt_assign, if_neg hne]; exact h.1, h.2⟩

/-- The marks of one range. -/
theorem Marked.range (h : Marked marks ordinal rows) (row : WorkRow)
    {range : List Int} (hnodup : range.Nodup) :
    Marked (range.foldl (mark row.id) marks) ordinal
      (if ordinal ∈ range then rows ++ [row] else rows) := by
  induction range generalizing marks rows with
  | nil => simpa using h
  | cons first range ih =>
      obtain ⟨hfirst, hrange⟩ := List.nodup_cons.mp hnodup
      rw [List.foldl_cons]
      by_cases heq : ordinal = first
      · subst heq
        have hmarked := ih (h.mark_self row) hrange
        rw [if_neg hfirst] at hmarked
        rwa [if_pos List.mem_cons_self]
      · have hmarked := ih (h.mark_other row.id heq) hrange
        simpa [heq] using hmarked

end

theorem ordinals_nodup (start stop : Int) : (ordinals start stop).Nodup := by
  apply List.Nodup.map (fun a b heq => ?_) List.nodup_range
  exact Int.ofNat_inj.mp (Int.add_left_cancel heq)

theorem mem_ordinals {start stop ordinal : Int} :
    ordinal ∈ ordinals start stop ↔ start ≤ ordinal ∧ ordinal < stop := by
  rw [ordinals, List.mem_map]
  constructor
  · rintro ⟨i, hi, rfl⟩
    rw [List.mem_range] at hi
    omega
  · rintro ⟨hstart, hstop⟩
    refine ⟨(ordinal - start).toNat, List.mem_range.mpr ?_, ?_⟩ <;> omega

/-! ### The ends of open ranges -/

theorem mem_distinct {values : List Int} {value : Int} :
    value ∈ distinct values ↔ value ∈ values := by
  induction values with
  | nil => rfl
  | cons first rest ih =>
      by_cases heq : value = first <;> simp [distinct, ih, heq]

theorem distinct_ascending {values : List Int}
    (h : values.Pairwise (· ≤ ·)) : (distinct values).Pairwise (· < ·) := by
  induction values with
  | nil => exact List.Pairwise.nil
  | cons first rest ih =>
      obtain ⟨hfirst, hrest⟩ := List.pairwise_cons.mp h
      apply List.pairwise_cons.mpr
      constructor
      · intro value hmem
        obtain ⟨hvalue, hne⟩ := List.mem_filter.mp hmem
        have hle := hfirst value (mem_distinct.mp hvalue)
        have hne : value ≠ first := of_decide_eq_true hne
        omega
      · exact (ih hrest).filter _

theorem valueAt_cons (key other : Int) (value : Int)
    (entries : List (Int × Int)) :
    valueAt key ((other, value) :: entries) =
      if other = key then some value else valueAt key entries := by
  by_cases heq : other = key <;> simp [valueAt, lookup, heq]

/-- What follows a start: the least greater one, or the end. -/
theorem nextStarts_iff {length : Int} {starts : List Int}
    (hsorted : starts.Pairwise (· < ·)) {start stop : Int}
    (hstart : start ∈ starts) :
    valueAt start (nextStarts length starts) = some stop ↔
      (stop ∈ starts ∧ start < stop ∧
        ∀ other ∈ starts, start < other → stop ≤ other) ∨
      (stop = length ∧ ∀ other ∈ starts, other ≤ start) := by
  induction starts with
  | nil => exact absurd hstart List.not_mem_nil
  | cons first rest ih =>
      obtain ⟨hfirst, hrest⟩ := List.pairwise_cons.mp hsorted
      cases rest with
      | nil =>
          obtain rfl := List.mem_singleton.mp hstart
          simp only [nextStarts, valueAt_cons, if_true, Option.some.injEq,
            List.mem_singleton]
          constructor
          · rintro rfl
            exact Or.inr ⟨rfl, fun other hother => hother.le⟩
          · rintro (⟨rfl, hlt, -⟩ | ⟨rfl, -⟩)
            · exact absurd hlt (lt_irrefl _)
            · rfl
      | cons second rest =>
          have hsecond := hfirst second List.mem_cons_self
          obtain ⟨hleast, -⟩ := List.pairwise_cons.mp hrest
          rw [nextStarts, valueAt_cons]
          by_cases heq : first = start
          · subst heq
            rw [if_pos rfl, Option.some.injEq]
            constructor
            · rintro rfl
              refine Or.inl ⟨by simp, hsecond, fun other hother hlt => ?_⟩
              rcases List.mem_cons.mp hother with rfl | hother
              · exact absurd hlt (lt_irrefl _)
              · rcases List.mem_cons.mp hother with rfl | hother
                · exact le_refl _
                · exact (hleast other hother).le
            · rintro (⟨hmem, hlt, hall⟩ | ⟨-, hall⟩)
              · apply le_antisymm _ (hall second (by simp) hsecond)
                rcases List.mem_cons.mp hmem with rfl | hmem
                · exact absurd hlt (lt_irrefl _)
                · rcases List.mem_cons.mp hmem with rfl | hmem
                  · exact le_refl _
                  · exact (hleast stop hmem).le
              · exact absurd (hall second (by simp)) hsecond.not_ge
          · have hstart : start ∈ second :: rest :=
              (List.mem_cons.mp hstart).resolve_left (Ne.symm heq)
            have hbefore := hfirst start hstart
            rw [if_neg heq, ih hrest hstart]
            apply or_congr
            · constructor
              · rintro ⟨hmem, hlt, hall⟩
                refine ⟨List.mem_cons_of_mem _ hmem, hlt, ?_⟩
                rw [List.forall_mem_cons]
                exact ⟨fun hlater => absurd hbefore hlater.not_gt, hall⟩
              · rintro ⟨hmem, hlt, hall⟩
                refine ⟨(List.mem_cons.mp hmem).resolve_left ?_, hlt,
                  (List.forall_mem_cons.mp hall).2⟩
                rintro rfl
                exact absurd hbefore hlt.not_gt
            · rw [List.forall_mem_cons (a := first)]
              exact and_congr_right fun _ => (and_iff_right hbefore.le).symm

theorem mem_liveRows {records : List WorkRow} {row : WorkRow} :
    row ∈ liveRows records ↔ row ∈ records ∧ row.provenance = .live := by
  rw [liveRows, List.mem_mergeSort, List.mem_filter, decide_eq_true_eq]

theorem mem_starts {records : List WorkRow} {start : Int} :
    start ∈ starts records ↔
      ∃ row ∈ records, row.provenance = .live ∧ row.startOrdinal = start := by
  simp [starts, mem_distinct, mem_liveRows, and_assoc]

theorem starts_ascending (records : List WorkRow) :
    (starts records).Pairwise (· < ·) := by
  apply distinct_ascending
  rw [List.pairwise_map]
  have hsorted := @List.pairwise_mergeSort WorkRow
    (fun a b => decide (a.startOrdinal ≤ b.startOrdinal))
    (fun a b c hab hbc => decide_eq_true
      ((of_decide_eq_true hab).trans (of_decide_eq_true hbc)))
    (fun a b => by simpa using le_total a.startOrdinal b.startOrdinal)
    (records.filter fun row => row.provenance = .live)
  exact hsorted.imp fun h => of_decide_eq_true h

/-! ### The ranges of the code -/

section

variable {entries : List SessionEntry} {records : List WorkRow}
  {row : WorkRow} {start stop : Int}

/-- The end that the code finds for a live record. -/
theorem ends_iff (hrow : row ∈ records) (hlive : row.provenance = .live) :
    row.endOrdinal.or (if row.outcome = .active then
        valueAt row.startOrdinal
          (nextStarts entries.length (starts records)) else none) =
      some stop ↔ EndsAt entries records row stop := by
  have hstart : row.startOrdinal ∈ starts records :=
    mem_starts.mpr ⟨row, hrow, hlive, rfl⟩
  rw [EndsAt]
  cases hend : row.endOrdinal with
  | some given => simp
  | none =>
      rw [Option.none_or]
      by_cases hactive : row.outcome = .active
      · rw [if_pos hactive,
          nextStarts_iff (starts_ascending records) hstart]
        simp only [reduceCtorEq, hactive, true_and, false_or, mem_starts]
        constructor
        · rintro (⟨⟨next, hnext, hnlive, rfl⟩, hlt, hall⟩ | ⟨rfl, hall⟩)
          · exact Or.inl ⟨next, hnext, hnlive, rfl, hlt,
              fun other ho hol => hall _ ⟨other, ho, hol, rfl⟩⟩
          · exact Or.inr ⟨rfl, fun other ho hol =>
              hall _ ⟨other, ho, hol, rfl⟩⟩
        · rintro (⟨next, hnext, hnlive, rfl, hlt, hall⟩ | ⟨rfl, hall⟩)
          · refine Or.inl ⟨⟨next, hnext, hnlive, rfl⟩, hlt, ?_⟩
            rintro _ ⟨other, ho, hol, rfl⟩
            exact hall other ho hol
          · refine Or.inr ⟨rfl, ?_⟩
            rintro _ ⟨other, ho, hol, rfl⟩
            exact hall other ho hol
      · simp [hactive]

theorem anchored_iff {id : Option String} {position : Int} :
    anchored entries id position = true ↔ Anchors entries id position := by
  rw [Anchors]
  unfold anchored
  split
  · simp
  · simp
  · next name hempty =>
      rw [beq_iff_eq, Option.bind_eq_some_iff]
      constructor
      · intro hentry other hother _
        rw [← Option.some.inj hother]
        exact hentry
      · intro h
        exact h name rfl fun hname => hempty (hname ▸ rfl)

theorem rangeOf_some {next : List (Int × Int)} {range : Int × Int} :
    rangeOf entries next row = some range ↔
      ∃ stop, row.endOrdinal.or (if row.outcome = .active then
          valueAt row.startOrdinal next else none) = some stop ∧
        0 ≤ row.startOrdinal ∧ row.startOrdinal < stop ∧
        stop ≤ entries.length ∧
        anchored entries row.firstEntryId row.startOrdinal = true ∧
        anchored entries row.lastEntryId (stop - 1) = true ∧
        (row.startOrdinal, stop) = range := by
  rw [rangeOf]
  cases row.endOrdinal.or (if row.outcome = .active then
      valueAt row.startOrdinal next else none) with
  | none => simp
  | some stop =>
      simp only [Option.some.injEq, exists_eq_left']
      by_cases hbounds : row.startOrdinal < 0 ∨ stop ≤ row.startOrdinal ∨
          entries.length < stop
      · rw [if_pos hbounds]
        simp only [reduceCtorEq, false_iff]
        omega
      · rw [if_neg hbounds]
        push Not at hbounds
        simp [hbounds, and_assoc]

/-- The law covers what the code marks. -/
theorem covers_iff (hrow : row ∈ records) {ordinal : Int} :
    IsCovered entries records ordinal row ↔
      row.provenance = .live ∧ ∃ range,
        rangeOf entries (nextStarts entries.length (starts records)) row =
          some range ∧ ordinal ∈ ordinals range.1 range.2 := by
  constructor
  · rintro ⟨stop, h⟩
    refine ⟨h.live, (row.startOrdinal, stop), ?_, ?_⟩
    · exact rangeOf_some.mpr ⟨stop, (ends_iff hrow h.live).mpr h.ends,
        h.nonneg, h.from_start.trans_lt h.below_stop, h.bounded,
        anchored_iff.mpr h.first, anchored_iff.mpr h.last, rfl⟩
    · exact mem_ordinals.mpr ⟨h.from_start, h.below_stop⟩
  · rintro ⟨hlive, range, hrange, hordinal⟩
    obtain ⟨stop, hends, hnonneg, -, hbounded, hfirst, hlast, rfl⟩ :=
      rangeOf_some.mp hrange
    obtain ⟨hstart, hstop⟩ := mem_ordinals.mp hordinal
    exact ⟨stop, hlive, (ends_iff hrow hlive).mp hends, hnonneg, hbounded,
      anchored_iff.mp hfirst, anchored_iff.mp hlast, hstart, hstop⟩

open Classical in
/-- The marks of one record. -/
theorem Marked.markRow {marks : Marks} {ordinal : Int} {rows : List WorkRow}
    (h : Marked marks ordinal rows) (hrow : row ∈ liveRows records) :
    Marked (markRow entries (nextStarts entries.length (starts records)) marks
      row) ordinal (if IsCovered entries records ordinal row then rows ++ [row]
        else rows) := by
  obtain ⟨hmem, hlive⟩ := mem_liveRows.mp hrow
  have hcovers := @covers_iff entries records row hmem ordinal
  rw [SessionHistory.markRow]
  split
  · next hnone =>
      rw [if_neg]
      · exact h
      · intro hcovered
        obtain ⟨-, range, hrange, -⟩ := hcovers.mp hcovered
        rw [hnone] at hrange
        cases hrange
  · next start stop hrange =>
      have hsame : IsCovered entries records ordinal row ↔
          ordinal ∈ ordinals start stop := by
        rw [hcovers, hrange]
        simp [hlive]
      simp only [hsame]
      exact h.range row (ordinals_nodup start stop)

open Classical in
theorem Marked.rows {marks : Marks} {ordinal : Int} {done rest : List WorkRow}
    (h : Marked marks ordinal done)
    (hrest : ∀ row ∈ rest, row ∈ liveRows records) :
    Marked (rest.foldl (SessionHistory.markRow entries
        (nextStarts entries.length (starts records))) marks) ordinal
      (done ++ rest.filter fun row =>
        IsCovered entries records ordinal row) := by
  induction rest generalizing marks done with
  | nil => simpa using h
  | cons row rest ih =>
      obtain ⟨hrow, hrest⟩ := List.forall_mem_cons.mp hrest
      have hmarked := ih (@Marked.markRow entries _ _ _ _ _ h hrow) hrest
      rw [List.foldl_cons, List.filter_cons]
      by_cases hcovered : IsCovered entries records ordinal row
      · simpa [hcovered] using hmarked
      · simpa [hcovered] using hmarked

open Classical in
/-- The order of the live records does not matter. -/
theorem filter_liveRows (ordinal : Int) :
    ((liveRows records).filter fun row =>
      IsCovered entries records ordinal row).Perm
        (covering entries records ordinal) := by
  refine ((List.mergeSort_perm _ _).filter _).trans ?_
  rw [List.filter_filter, covering]
  refine List.Perm.of_eq (List.filter_congr fun row _ => ?_)
  by_cases hcovered : IsCovered entries records ordinal row
  · obtain ⟨stop, h⟩ := hcovered
    simp [show IsCovered entries records ordinal row from ⟨stop, h⟩, h.live]
  · simp [hcovered]

end

theorem valueAt_discards (key : Int) (discarded : List Int)
    (ids : List (Int × String)) :
    valueAt key (discarded.foldl (fun ids ordinal => discard ordinal ids) ids) =
      if key ∈ discarded then none else valueAt key ids := by
  induction discarded generalizing ids with
  | nil => simp
  | cons first rest ih =>
      rw [List.foldl_cons, ih, valueAt_discard]
      by_cases hrest : key ∈ rest <;> by_cases hfirst : key = first <;>
        simp [hrest, hfirst]

/-- An entry gets a work id exactly when one valid live range covers it, and
then it gets the id of that record. -/
theorem workIdsForEntries_iff (entries : List SessionEntry)
    (records : List WorkRow) (ordinal : Int) (id : String) :
    valueAt ordinal (workIdsForEntries entries records) = some id ↔
      ∃ row, covering entries records ordinal = [row] ∧ row.id = id := by
  classical
  have hmarked : Marked ((liveRows records).foldl (markRow entries
      (nextStarts entries.length (starts records))) ⟨[], []⟩) ordinal
      ((liveRows records).filter fun row =>
        IsCovered entries records ordinal row) :=
    @Marked.rows _ _ _ _ [] _ ⟨rfl, List.not_mem_nil⟩ fun _ h => h
  have hperm := @filter_liveRows entries records ordinal
  have hsingle : ∀ row, covering entries records ordinal = [row] ↔
      ((liveRows records).filter fun row =>
        IsCovered entries records ordinal row) = [row] := by
    intro row
    rw [← List.perm_singleton, ← List.perm_singleton]
    exact ⟨hperm.trans, hperm.symm.trans⟩
  simp only [hsingle, workIdsForEntries, valueAt_discards]
  cases hrows : (liveRows records).filter fun row =>
      IsCovered entries records ordinal row with
  | nil =>
      rw [hrows] at hmarked
      simp [hmarked.1]
  | cons row rest =>
      rw [hrows] at hmarked
      obtain ⟨hsome, hambiguous⟩ := hmarked
      by_cases hrest : rest = []
      · simp [hambiguous, hsome, hrest]
      · simp [hambiguous, hrest]

end AiTeam.SessionHistory
