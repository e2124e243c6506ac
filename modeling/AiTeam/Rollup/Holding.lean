/-
What the two rollup repositories hold for every enterprise: a call changes it
by one equation each, and everything they report is determined by it.
-/
import AiTeam.Rollup.Repository

namespace AiTeam.Rollup

section

variable {R R' K K' : Type} [DecidableEq K] [DecidableEq K']

/-- Rows that agree key by key are the same up to order. -/
theorem perm_of_filter_key [DecidableEq R] (key : R → K) {left right : List R}
    (h : ∀ k, (left.filter (key · = k)).Perm (right.filter (key · = k))) :
    left.Perm right := by
  rw [List.perm_iff_count]
  intro row
  have hcount (rows : List R) :
      (rows.filter (key · = key row)).count row = rows.count row :=
    List.count_filter (by simp)
  rw [← hcount left, ← hcount right]
  exact List.perm_iff_count.mp (h (key row)) row

variable {key : R → K}

theorem filter_key_eq_lookup {rows : List R} (hnodup : (rows.map key).Nodup)
    (k : K) : rows.filter (key · = k) = (lookup key k rows).toList := by
  induction rows with
  | nil => rfl
  | cons head tail ih =>
      rw [List.map_cons, List.nodup_cons] at hnodup
      by_cases hkey : key head = k
      · have htail : tail.filter (key · = k) = [] := by
          apply List.filter_eq_nil_iff.mpr
          intro row hrow heq
          apply hnodup.1
          rw [hkey, ← of_decide_eq_true heq]
          exact List.mem_map_of_mem hrow
        simp [lookup, hkey, htail]
      · simpa [lookup, List.filter_cons, hkey] using ih hnodup.2

theorem map_key_upsert (key : R → K) (row : R) (rows : List R) :
    (upsert key row rows).map key =
      if (lookup key (key row) rows).isSome then rows.map key
      else rows.map key ++ [key row] := by
  rw [upsert]
  split
  · rw [updateWhere, List.map_map]
    apply List.map_congr_left
    intro other _
    by_cases hkey : key other = key row <;> simp [hkey]
  · simp

theorem nodup_upsert {rows : List R} (hnodup : (rows.map key).Nodup) (row : R) :
    ((upsert key row rows).map key).Nodup := by
  rw [map_key_upsert]
  split
  · exact hnodup
  · next hnone =>
      apply List.nodup_append.mpr
      refine ⟨hnodup, List.nodup_singleton _, ?_⟩
      rintro k hk k' hk' rfl
      obtain ⟨other, hother, heq⟩ := List.mem_map.mp hk
      apply hnone
      rw [lookup, List.find?_isSome]
      exact ⟨other, hother, by simp [heq, List.mem_singleton.mp hk']⟩

/-- Reading the rows of a group back after an upsert of one of them. -/
theorem map_filter_upsert {key' : R' → K'} {read : R → R'} {keep : R → Bool}
    {row : R}
    (hkey : ∀ other, key other = key row ↔
      keep other = true ∧ key' (read other) = key' (read row)) (rows : List R) :
    ((upsert key row rows).filter keep).map read =
      upsert key' (read row) ((rows.filter keep).map read) := by
  have hkeep : keep row = true := ((hkey row).mp rfl).1
  have hfound : (lookup key (key row) rows).isSome ↔
      (lookup key' (key' (read row)) ((rows.filter keep).map read)).isSome := by
    simp only [lookup, List.find?_isSome, decide_eq_true_eq, List.mem_map,
      List.mem_filter]
    constructor
    · rintro ⟨other, hmem, hsame⟩
      obtain ⟨hother, hread⟩ := (hkey other).mp hsame
      exact ⟨read other, ⟨other, ⟨hmem, hother⟩, rfl⟩, hread⟩
    · rintro ⟨_, ⟨other, ⟨hmem, hother⟩, rfl⟩, hread⟩
      exact ⟨other, hmem, (hkey other).mpr ⟨hother, hread⟩⟩
  have hupdate : ((updateWhere (fun other => key other = key row)
        (fun _ => row) rows).filter keep).map read =
      updateWhere (fun other => key' other = key' (read row))
        (fun _ => read row) ((rows.filter keep).map read) := by
    clear hfound
    induction rows with
    | nil => rfl
    | cons head tail ih =>
        rw [updateWhere_cons, List.filter_cons, List.filter_cons]
        by_cases hsame : key head = key row
        · obtain ⟨hhead, hread⟩ := (hkey head).mp hsame
          simp [hsame, hkeep, hhead, hread, updateWhere_cons, ih]
        · by_cases hhead : keep head = true
          · have hread : key' (read head) ≠ key' (read row) :=
              fun hread => hsame ((hkey head).mpr ⟨hhead, hread⟩)
            simp [hsame, hhead, hread, updateWhere_cons, ih]
          · simp [hsame, hhead, ih]
  rw [upsert, upsert]
  by_cases hsome : (lookup key (key row) rows).isSome
  · rw [if_pos hsome, if_pos (hfound.mp hsome), hupdate]
  · rw [if_neg hsome, if_neg (mt hfound.mpr hsome), List.filter_append,
      List.map_append, List.filter_singleton, hkeep]
    rfl

end

variable {T : Type}

/-- What a repository holds for an enterprise. -/
@[ext] structure Holding (T : Type) where
  tenantId : String
  summaries : List (UsageSummary T)

/-- What is held when a call arrives: the first one names the tenant. -/
def before (held : Option (Holding T)) (call : Call T) : Holding T :=
  held.getD ⟨call.tenantId, []⟩

/-- The summary as PostgreSQL reads it back. -/
def reported (tenantId : String) (s : UsageSummary T) : UsageSummary T :=
  { s with tenantId := tenantId, employeeId := none }

/-- A seen id is skipped. -/
def accept (old : Holding T) (s : UsageSummary T) : Holding T :=
  if s.summaryId ∈ old.summaries.map (·.summaryId) then old
  else { old with summaries := old.summaries ++ [s] }

/-- The summary of an id is overwritten. -/
def overwrite (old : Holding T) (s : UsageSummary T) : Holding T :=
  { old with
    summaries := upsert UsageSummary.summaryId (reported old.tenantId s)
      old.summaries }

/-! ### In memory -/

def EnterpriseRollupRow.holding (row : EnterpriseRollupRow T) : Holding T :=
  ⟨row.tenantId, row.summaries⟩

namespace MemoryRepository

def holding (repo : MemoryRepository T) (enterpriseId : String) :
    Option (Holding T) :=
  (repo.row enterpriseId).map (·.holding)

/-- The row that a call is applied to. -/
def target (repo : MemoryRepository T) (call : Call T) :
    EnterpriseRollupRow T :=
  (repo.row call.enterpriseId).getD (.fresh call.enterpriseId call.tenantId)

theorem target_enterpriseId (repo : MemoryRepository T) (call : Call T) :
    (repo.target call).enterpriseId = call.enterpriseId := by
  rw [target]
  cases hrow : repo.row call.enterpriseId with
  | none => rfl
  | some row => exact lookup_key hrow

theorem holding_target (repo : MemoryRepository T) (call : Call T) :
    (repo.target call).holding =
      before (repo.holding call.enterpriseId) call := by
  rw [target, before, holding]
  cases repo.row call.enterpriseId with
  | none => rfl
  | some row => rfl

theorem summariesFor_eq (repo : MemoryRepository T) (enterpriseId : String) :
    repo.summariesFor enterpriseId =
      ((repo.holding enterpriseId).map (·.summaries)).getD [] := by
  rw [summariesFor, holding]
  cases repo.row enterpriseId with
  | none => rfl
  | some row => rfl

end MemoryRepository

section

variable [LinearOrder T]

def Holding.view (enterpriseId : String) (holding : Holding T) :
    RollupView T where
  enterpriseId := enterpriseId
  tenantId := holding.tenantId
  totals := aggregate (holding.summaries.map (·.figures))

/-- The integer columns hold the figures and the new totals. -/
def Accepted (old : Holding T) (s : UsageSummary T) : Prop :=
  s.figures.Fits ∧
    (aggregate ((overwrite old s).summaries.map (·.figures))).Fits

instance (old : Holding T) (s : UsageSummary T) : Decidable (Accepted old s) :=
  inferInstanceAs (Decidable (_ ∧ _))

theorem min?_append_singleton (items : List T) (item : T) :
    (items ++ [item]).min? = earlier items.min? item := by
  cases items with
  | nil => rfl
  | cons head tail =>
      rw [List.cons_append, List.min?_cons', List.min?_cons',
        List.foldl_append, List.foldl_cons, List.foldl_nil, earlier, min_def]
      split <;> split <;> grind

theorem max?_append_singleton (items : List T) (item : T) :
    (items ++ [item]).max? = later items.max? item := by
  cases items with
  | nil => rfl
  | cons head tail =>
      rw [List.cons_append, List.max?_cons', List.max?_cons',
        List.foldl_append, List.foldl_cons, List.foldl_nil, later, max_def]
      split <;> split <;> grind

/-- The increments of a call keep the counters at the aggregates. -/
theorem aggregate_append (items : List (Figures T)) (item : Figures T) :
    aggregate (items ++ [item]) = (aggregate items).add item := by
  by_cases hunknown : item.pricing = .unknown <;>
    simp [aggregate, Totals.add, sumKnownCost_append, min?_append_singleton,
      max?_append_singleton, List.filter_append, hunknown]

namespace EnterpriseRollupRow

/-- The counters are the aggregates of the summaries, the seen ids theirs. -/
structure Sound (row : EnterpriseRollupRow T) : Prop where
  totals : row.totals = aggregate (row.summaries.map (·.figures))
  seen : ∀ id, id ∈ row.seenIds ↔ id ∈ row.summaries.map (·.summaryId)
  distinct : (row.summaries.map (·.summaryId)).Nodup

theorem sound_fresh (enterpriseId tenantId : String) :
    (fresh enterpriseId tenantId : EnterpriseRollupRow T).Sound where
  totals := rfl
  seen := fun _ => Iff.rfl
  distinct := List.nodup_nil

theorem Sound.apply {row : EnterpriseRollupRow T} (h : row.Sound)
    (s : UsageSummary T) : (row.apply s).Sound := by
  rw [EnterpriseRollupRow.apply]
  split
  · exact h
  · next hnew =>
      constructor
      · rw [List.map_append, List.map_singleton, aggregate_append, ← h.totals]
      · intro id
        simp [h.seen, or_comm]
      · rw [List.map_append, List.map_singleton]
        apply List.nodup_append.mpr
        refine ⟨h.distinct, List.nodup_singleton _, ?_⟩
        rintro id hid _ hs rfl
        rw [List.mem_singleton.mp hs] at hid
        exact hnew ((h.seen _).mpr hid)

theorem Sound.holding_apply {row : EnterpriseRollupRow T} (h : row.Sound)
    (s : UsageSummary T) :
    (row.apply s).holding = accept row.holding s := by
  by_cases hseen : s.summaryId ∈ row.seenIds
  · have hold := (h.seen _).mp hseen
    rw [EnterpriseRollupRow.apply, if_pos hseen, accept, holding, if_pos hold]
  · have hnew := mt (h.seen _).mpr hseen
    rw [EnterpriseRollupRow.apply, if_neg hseen, accept, holding, holding,
      if_neg hnew]

theorem apply_enterpriseId (row : EnterpriseRollupRow T)
    (s : UsageSummary T) : (row.apply s).enterpriseId = row.enterpriseId := by
  rw [EnterpriseRollupRow.apply]
  split <;> rfl

end EnterpriseRollupRow

namespace MemoryRepository

variable {repo : MemoryRepository T}

structure Sound (repo : MemoryRepository T) : Prop where
  keys : (repo.rows.map (·.enterpriseId)).Nodup
  rows : ∀ row ∈ repo.rows, row.Sound

theorem sound_empty : (empty : MemoryRepository T).Sound where
  keys := List.nodup_nil
  rows := fun _ hrow => absurd hrow List.not_mem_nil

section

variable (h : repo.Sound)
include h

theorem Sound.target (call : Call T) : (repo.target call).Sound := by
  rw [MemoryRepository.target]
  cases hrow : repo.row call.enterpriseId with
  | none => exact EnterpriseRollupRow.sound_fresh _ _
  | some row => exact h.rows row (lookup_mem hrow)

theorem Sound.applySummary (call : Call T) :
    (repo.applySummary call).Sound := by
  constructor
  · exact nodup_upsert h.keys _
  · intro row hrow
    rcases mem_upsert hrow with rfl | ⟨hold, -⟩
    · exact (h.target call).apply _
    · exact h.rows row hold

theorem Sound.holding_applySummary (call : Call T) (enterpriseId : String) :
    (repo.applySummary call).holding enterpriseId =
      if call.enterpriseId = enterpriseId then
        some (accept (before (repo.holding call.enterpriseId) call)
          call.summary)
      else repo.holding enterpriseId := by
  rw [holding, row, MemoryRepository.applySummary, lookup_upsert,
    EnterpriseRollupRow.apply_enterpriseId]
  have htarget := target_enterpriseId repo call
  rw [MemoryRepository.target] at htarget
  rw [htarget]
  split
  · rw [Option.map_some, ← MemoryRepository.target,
      (h.target call).holding_apply, holding_target]
  · rfl

/-! What is reported is determined by what is held. -/

theorem Sound.get (enterpriseId : String) :
    repo.get enterpriseId =
      (repo.holding enterpriseId).map (Holding.view enterpriseId) := by
  rw [MemoryRepository.get, holding]
  cases hrow : repo.row enterpriseId with
  | none => rfl
  | some row =>
      have hkey : row.enterpriseId = enterpriseId := lookup_key hrow
      have htotals := (h.rows row (lookup_mem hrow)).totals
      simp [EnterpriseRollupRow.view, EnterpriseRollupRow.holding,
        Holding.view, hkey, htotals]

theorem Sound.listAll_filter (enterpriseId : String) :
    repo.listAll.filter (·.enterpriseId = enterpriseId) =
      (repo.get enterpriseId).toList := by
  rw [listAll, List.filter_map, MemoryRepository.get, row]
  change (repo.rows.filter (·.enterpriseId = enterpriseId)).map _ = _
  rw [filter_key_eq_lookup h.keys]
  cases lookup EnterpriseRollupRow.enterpriseId enterpriseId repo.rows with
  | none => rfl
  | some row => rfl

theorem Sound.allSummaries_filter (enterpriseId : String) :
    repo.allSummaries.filter (·.1 = enterpriseId) =
      (repo.summariesFor enterpriseId).map (enterpriseId, ·) := by
  have hrows : ∀ rows : List (EnterpriseRollupRow T),
      (rows.flatMap fun row => row.summaries.map (row.enterpriseId, ·)).filter
          (·.1 = enterpriseId) =
        (rows.filter (·.enterpriseId = enterpriseId)).flatMap
          fun row => row.summaries.map (enterpriseId, ·) := by
    intro rows
    induction rows with
    | nil => rfl
    | cons head tail ih =>
        rw [List.flatMap_cons, List.filter_append, ih, List.filter_map]
        by_cases hkey : head.enterpriseId = enterpriseId <;>
          simp [hkey, Function.comp_def]
  rw [allSummaries, hrows, filter_key_eq_lookup h.keys, summariesFor, row]
  cases lookup EnterpriseRollupRow.enterpriseId enterpriseId repo.rows with
  | none => rfl
  | some row => simp

end

end MemoryRepository

end

/-! ### PostgreSQL -/

variable {enterpriseId : String}

namespace PgRepository

variable {repo repo' : PgRepository T}

def held (repo : PgRepository T) (enterpriseId : String)
    (row : RollupRow T) : Holding T where
  tenantId := row.tenantId
  summaries := (seenOf repo.seen enterpriseId).map (toSummary row.tenantId)

def holding (repo : PgRepository T) (enterpriseId : String) :
    Option (Holding T) :=
  (repo.row enterpriseId).map (repo.held enterpriseId)

/-- The figures seen of an enterprise. -/
def figuresOf (repo : PgRepository T) (enterpriseId : String) :
    List (Figures T) :=
  (seenOf repo.seen enterpriseId).map (·.figures)

theorem figures_held (repo : PgRepository T) (enterpriseId : String)
    (row : RollupRow T) :
    (repo.held enterpriseId row).summaries.map (·.figures) =
      repo.figuresOf enterpriseId := by
  rw [held, List.map_map]
  rfl

theorem seenOf_upsert_of_ne (seen : List (SeenRow T)) {call : Call T}
    (hne : call.enterpriseId ≠ enterpriseId) :
    seenOf (upsert SeenRow.key (seenRow call) seen) enterpriseId =
      seenOf seen enterpriseId := by
  apply filter_upsert
  intro other hkey
  have henterprise : other.enterpriseId = call.enterpriseId :=
    congrArg Prod.fst hkey
  simpa [henterprise] using hne

theorem map_seenOf_upsert (seen : List (SeenRow T)) (call : Call T)
    (tenantId : String) :
    (seenOf (upsert SeenRow.key (seenRow call) seen) call.enterpriseId).map
        (toSummary tenantId) =
      upsert UsageSummary.summaryId (reported tenantId call.summary)
        ((seenOf seen call.enterpriseId).map (toSummary tenantId)) := by
  apply map_filter_upsert
  intro other
  simp [SeenRow.key, seenRow, toSummary]

section

variable [LinearOrder T]

/-- The counters are the aggregates of the seen rows, and an enterprise with a
seen row has counters. -/
structure Sound (repo : PgRepository T) : Prop where
  keys : (repo.rollups.map (·.enterpriseId)).Nodup
  rows : ∀ row ∈ repo.rollups,
    (repo.view row).totals = aggregate (repo.figuresOf row.enterpriseId)
  counted : ∀ row ∈ repo.seen, (repo.row row.enterpriseId).isSome

theorem sound_empty : (empty : PgRepository T).Sound where
  keys := List.nodup_nil
  rows := fun _ hrow => absurd hrow List.not_mem_nil
  counted := fun _ hrow => absurd hrow List.not_mem_nil

theorem Sound.seenOf_none (h : repo.Sound)
    (hnone : repo.row enterpriseId = none) :
    seenOf repo.seen enterpriseId = [] := by
  apply List.filter_eq_nil_iff.mpr
  intro row hrow hkey
  have hsome := h.counted row hrow
  rw [of_decide_eq_true hkey, hnone] at hsome
  exact nomatch hsome

/-! One call. -/

/-- The tables after both statements. -/
def recorded (repo : PgRepository T) (call : Call T) : PgRepository T :=
  let seen := upsert SeenRow.key (seenRow call) repo.seen
  { seen := seen
    rollups := recompute repo.rollups call.enterpriseId call.tenantId
      (aggregate ((seenOf seen call.enterpriseId).map (·.figures))) }

theorem applySummary_eq (repo : PgRepository T) (call : Call T) :
    repo.applySummary call =
      if call.summary.figures.Fits ∧
          (aggregate ((repo.recorded call).figuresOf
            call.enterpriseId)).Fits then
        some (repo.recorded call)
      else none := rfl

/-- The rollup row that the second statement writes. -/
theorem recorded_row (repo : PgRepository T) (call : Call T) :
    ∃ row, row.enterpriseId = call.enterpriseId ∧
      row.tenantId = ((repo.row call.enterpriseId).map (·.tenantId)).getD
        call.tenantId ∧
      ((repo.recorded call).view row).totals =
        aggregate ((repo.recorded call).figuresOf call.enterpriseId) ∧
      (repo.recorded call).rollups =
        upsert RollupRow.enterpriseId row repo.rollups :=
  ⟨_, rfl, rfl, rfl, rfl⟩

theorem recorded_figuresOf_of_ne (repo : PgRepository T) {call : Call T}
    (hne : call.enterpriseId ≠ enterpriseId) :
    (repo.recorded call).figuresOf enterpriseId =
      repo.figuresOf enterpriseId :=
  congrArg (List.map SeenRow.figures) (seenOf_upsert_of_ne repo.seen hne)

theorem view_totals_congr {row : RollupRow T}
    (h : repo'.figuresOf row.enterpriseId = repo.figuresOf row.enterpriseId) :
    (repo'.view row).totals = (repo.view row).totals := by
  rw [figuresOf, figuresOf] at h
  simp only [view, h]

section

variable (h : repo.Sound)
include h

theorem Sound.recorded (call : Call T) : (repo.recorded call).Sound := by
  obtain ⟨row, hkey, -, htotals, hrollups⟩ := repo.recorded_row call
  constructor
  · rw [hrollups]
    exact nodup_upsert h.keys row
  · intro other hother
    rw [hrollups] at hother
    rcases mem_upsert hother with rfl | ⟨hold, hne⟩
    · rw [htotals, hkey]
    · rw [hkey] at hne
      have hsame := repo.recorded_figuresOf_of_ne (Ne.symm hne)
      rw [view_totals_congr hsame, h.rows other hold, hsame]
  · intro other hother
    rw [PgRepository.row, hrollups, lookup_upsert]
    split
    · rfl
    · next hne =>
        rcases mem_upsert hother with rfl | ⟨hold, -⟩
        · exact absurd hkey hne
        · exact h.counted other hold

theorem Sound.holding_recorded (call : Call T) (enterpriseId : String) :
    (repo.recorded call).holding enterpriseId =
      if call.enterpriseId = enterpriseId then
        some (overwrite (before (repo.holding call.enterpriseId) call)
          call.summary)
      else repo.holding enterpriseId := by
  obtain ⟨row, hkey, htenant, -, hrollups⟩ := repo.recorded_row call
  rw [holding, PgRepository.row, hrollups, lookup_upsert, hkey]
  split
  · next henterprise =>
      subst henterprise
      rw [Option.map_some, held, htenant]
      change some (⟨_, (seenOf (upsert SeenRow.key (seenRow call) repo.seen)
        call.enterpriseId).map _⟩ : Holding T) = _
      rw [map_seenOf_upsert, overwrite, before, holding]
      cases hrow : repo.row call.enterpriseId with
      | none => simp [h.seenOf_none hrow]
      | some old => rfl
  · next hne =>
      have hseen : seenOf (repo.recorded call).seen enterpriseId =
          seenOf repo.seen enterpriseId := seenOf_upsert_of_ne repo.seen hne
      rw [holding, PgRepository.row]
      apply congrArg (Option.map · _)
      funext other
      rw [held, held, hseen]

theorem Sound.figuresOf_recorded (call : Call T) :
    (repo.recorded call).figuresOf call.enterpriseId =
      (overwrite (before (repo.holding call.enterpriseId) call)
        call.summary).summaries.map (·.figures) := by
  have hholding := h.holding_recorded call call.enterpriseId
  rw [if_pos rfl, holding] at hholding
  obtain ⟨row, -, hrow⟩ := Option.map_eq_some_iff.mp hholding
  rw [← hrow, figures_held]

/-- A call is recorded if the integer columns hold its figures and the new
totals, and otherwise refused. -/
theorem Sound.applySummary (call : Call T) :
    repo.applySummary call =
      if Accepted (before (repo.holding call.enterpriseId) call)
          call.summary then
        some (repo.recorded call)
      else none := by
  rw [applySummary_eq, h.figuresOf_recorded]
  rfl

/-! What is reported is determined by what is held. -/

theorem Sound.get (enterpriseId : String) :
    repo.get enterpriseId =
      (repo.holding enterpriseId).map (Holding.view enterpriseId) := by
  rw [PgRepository.get, holding]
  cases hrow : repo.row enterpriseId with
  | none => rfl
  | some row =>
      have hkey : row.enterpriseId = enterpriseId := lookup_key hrow
      have htotals := h.rows row (lookup_mem hrow)
      rw [Option.map_some, Option.map_some, Option.map_some, Holding.view,
        figures_held, ← hkey, ← htotals]
      rfl

theorem Sound.summariesFor (enterpriseId : String) :
    repo.summariesFor enterpriseId =
      ((repo.holding enterpriseId).map (·.summaries)).getD [] := by
  rw [PgRepository.summariesFor, holding, tenantOf]
  cases hrow : repo.row enterpriseId with
  | none => simp [h.seenOf_none hrow]
  | some row => rfl

theorem Sound.listAll_filter (enterpriseId : String) :
    repo.listAll.filter (·.enterpriseId = enterpriseId) =
      (repo.get enterpriseId).toList := by
  rw [listAll, List.filter_map, PgRepository.get, row]
  change (repo.rollups.filter (·.enterpriseId = enterpriseId)).map _ = _
  rw [filter_key_eq_lookup h.keys]
  cases lookup RollupRow.enterpriseId enterpriseId repo.rollups with
  | none => rfl
  | some row => rfl

end

end

theorem allSummaries_filter (repo : PgRepository T) (enterpriseId : String) :
    (repo.allSummaries.filter (·.1 = enterpriseId)).Perm
      ((repo.summariesFor enterpriseId).map (enterpriseId, ·)) := by
  have hperm := ((List.perm_insertionSort
    (fun left right : SeenRow T => left.enterpriseId ≤ right.enterpriseId)
    repo.seen).map fun row =>
      (row.enterpriseId, toSummary (repo.tenantOf row.enterpriseId) row)).filter
        (·.1 = enterpriseId)
  refine hperm.trans (.of_eq ?_)
  rw [List.filter_map, summariesFor, seenOf, List.map_map]
  apply List.map_congr_left
  intro row hrow
  have hkey : row.enterpriseId = enterpriseId := by
    simpa using (List.mem_filter.mp hrow).2
  simp [hkey]

end PgRepository

end AiTeam.Rollup
