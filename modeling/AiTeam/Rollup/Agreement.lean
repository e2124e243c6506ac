/-
When the two rollup repositories agree: over every sequence of calls, as long
as each call meets a condition on it and on what is held before it.
-/
import AiTeam.Rollup.Holding

namespace AiTeam.Rollup

variable {T : Type}

/-- What the call finds stored under its id. -/
def stored (old : Holding T) (s : UsageSummary T) : Option (UsageSummary T) :=
  lookup UsageSummary.summaryId s.summaryId old.summaries

variable {old : Holding T} {s : UsageSummary T}

theorem stored_isSome :
    (stored old s).isSome ↔ s.summaryId ∈ old.summaries.map (·.summaryId) := by
  simp [stored, lookup, List.find?_isSome]

/-- Overwriting an id with what is stored under it changes nothing. -/
theorem upsert_eq_self {rows : List (UsageSummary T)} {row : UsageSummary T}
    (hdistinct : (rows.map (·.summaryId)).Nodup) :
    upsert UsageSummary.summaryId row rows = rows ↔
      lookup UsageSummary.summaryId row.summaryId rows = some row := by
  constructor
  · intro heq
    rw [← heq, lookup_upsert, if_pos rfl]
  · intro hstored
    have honly := filter_key_eq_lookup hdistinct row.summaryId
    rw [hstored] at honly
    rw [upsert, hstored, Option.isSome_some, if_pos rfl, updateWhere]
    conv_rhs => rw [← List.map_id rows]
    apply List.map_congr_left
    intro other hother
    by_cases hkey : other.summaryId = row.summaryId
    · have hmem : other ∈ rows.filter (·.summaryId = row.summaryId) :=
        List.mem_filter.mpr ⟨hother, decide_eq_true hkey⟩
      rw [honly] at hmem
      rw [if_pos (decide_eq_true hkey), List.mem_singleton.mp hmem]
      rfl
    · simp [hkey]

theorem overwrite_eq_self (hdistinct : (old.summaries.map (·.summaryId)).Nodup)
    :
    overwrite old s = old ↔ stored old s = some (reported old.tenantId s) := by
  have hself : upsert UsageSummary.summaryId (reported old.tenantId s)
      old.summaries = old.summaries ↔
        stored old s = some (reported old.tenantId s) :=
    upsert_eq_self hdistinct
  rw [← hself, overwrite, Holding.ext_iff]
  simp

/-- A new id is appended by both, as it is and as it is read back. -/
theorem settled_new (hstored : stored old s = none) :
    accept old s = { old with summaries := old.summaries ++ [s] } ∧
      overwrite old s =
        { old with
          summaries := old.summaries ++ [reported old.tenantId s] } := by
  constructor
  · rw [accept, if_neg]
    rw [← stored_isSome, hstored]
    simp
  · rw [stored] at hstored
    rw [overwrite, upsert, reported, hstored]
    rfl

variable [LinearOrder T]

/-- The two repositories report the same, in the order of the enterprises only
where they promise one. -/
structure Agree (memory : MemoryRepository T) (pg : PgRepository T) :
    Prop where
  get : ∀ enterpriseId, memory.get enterpriseId = pg.get enterpriseId
  summariesFor : ∀ enterpriseId,
    memory.summariesFor enterpriseId = pg.summariesFor enterpriseId
  listAll : memory.listAll.Perm pg.listAll
  allSummaries : memory.allSummaries.Perm pg.allSummaries

/-- A new summary is one that PostgreSQL accepts and reads back as it is; a
repeated one is what is stored, or one that PostgreSQL refuses. -/
def Matched (held : Option (Holding T)) (call : Call T) : Prop :=
  let old := before held call
  match stored old call.summary with
  | none => Accepted old call.summary ∧
      reported old.tenantId call.summary = call.summary
  | some kept => reported old.tenantId call.summary = kept ∨
      ¬ Accepted old call.summary

/-! ### Runs -/

/-- Both repositories after one call; a call that PostgreSQL refuses raises
and leaves its tables as they were. -/
def serve (state : MemoryRepository T × PgRepository T) (call : Call T) :
    MemoryRepository T × PgRepository T :=
  (state.1.applySummary call, (state.2.applySummary call).getD state.2)

def run (calls : List (Call T)) : MemoryRepository T × PgRepository T :=
  calls.foldl serve (.empty, .empty)

theorem run_append (calls : List (Call T)) (call : Call T) :
    run (calls ++ [call]) = serve (run calls) call := by
  rw [run, run, List.foldl_append]
  rfl

structure SoundState (state : MemoryRepository T × PgRepository T) :
    Prop where
  memory : state.1.Sound
  pg : state.2.Sound

variable {state : MemoryRepository T × PgRepository T}

theorem SoundState.serve (h : SoundState state) (call : Call T) :
    SoundState (serve state call) := by
  constructor
  · exact h.memory.applySummary call
  · rw [Rollup.serve, h.pg.applySummary]
    split
    · exact h.pg.recorded call
    · exact h.pg

theorem sound_run (calls : List (Call T)) : SoundState (run calls) := by
  induction calls using List.reverseRecOn with
  | nil =>
      constructor
      · exact MemoryRepository.sound_empty
      · exact PgRepository.sound_empty
  | append_singleton calls call ih =>
      rw [run_append]
      exact ih.serve call

/-! ### Agreement is about what is held -/

theorem Holding.view_injective (enterpriseId : String)
    {left right : Holding T}
    (hview : left.view enterpriseId = right.view enterpriseId)
    (hsummaries : left.summaries = right.summaries) : left = right := by
  have htenant := congrArg RollupView.tenantId hview
  cases left
  cases right
  simp_all [Holding.view]

theorem holding_eq_of_agree (h : SoundState state)
    (hagree : Agree state.1 state.2) (enterpriseId : String) :
    state.1.holding enterpriseId = state.2.holding enterpriseId := by
  have hget := hagree.get enterpriseId
  have hsummaries := hagree.summariesFor enterpriseId
  rw [h.memory.get, h.pg.get] at hget
  rw [MemoryRepository.summariesFor_eq, h.pg.summariesFor] at hsummaries
  cases hleft : state.1.holding enterpriseId with
  | none =>
      cases hright : state.2.holding enterpriseId with
      | none => rfl
      | some right => simp [hleft, hright] at hget
  | some left =>
      cases hright : state.2.holding enterpriseId with
      | none => simp [hleft, hright] at hget
      | some right =>
          rw [hleft, hright] at hget hsummaries
          exact congrArg some (Holding.view_injective enterpriseId
            (Option.some.inj hget) hsummaries)

theorem agree_of_holding_eq (h : SoundState state)
    (hheld : ∀ enterpriseId,
      state.1.holding enterpriseId = state.2.holding enterpriseId) :
    Agree state.1 state.2 := by
  have hget : ∀ enterpriseId,
      state.1.get enterpriseId = state.2.get enterpriseId := by
    intro enterpriseId
    rw [h.memory.get, h.pg.get, hheld]
  have hsummaries : ∀ enterpriseId,
      state.1.summariesFor enterpriseId =
        state.2.summariesFor enterpriseId := by
    intro enterpriseId
    rw [MemoryRepository.summariesFor_eq, h.pg.summariesFor, hheld]
  refine ⟨hget, hsummaries, ?_, ?_⟩
  · classical
    apply perm_of_filter_key RollupView.enterpriseId
    intro enterpriseId
    rw [h.memory.listAll_filter, h.pg.listAll_filter, hget]
  · classical
    apply perm_of_filter_key Prod.fst
    intro enterpriseId
    rw [h.memory.allSummaries_filter, hsummaries]
    exact (state.2.allSummaries_filter enterpriseId).symm

/-! ### One call -/

/-- What a call does to what both hold of its enterprise. -/
theorem settled_iff {held : Option (Holding T)} {call : Call T}
    (hdistinct : ((before held call).summaries.map (·.summaryId)).Nodup) :
    some (accept (before held call) call.summary) =
        (if Accepted (before held call) call.summary then
          some (overwrite (before held call) call.summary)
        else held) ↔
      Matched held call := by
  rw [Matched]
  have hheld : ∀ holding ∈ held, holding = before held call := by
    rintro holding rfl
    rfl
  have hnone : held = none → (before held call).summaries = [] := by
    rintro rfl
    rfl
  generalize before held call = old at *
  cases hstored : stored old call.summary with
  | none =>
      obtain ⟨haccept, hoverwrite⟩ := settled_new hstored
      rw [haccept, hoverwrite]
      by_cases haccepted : Accepted old call.summary
      · rw [if_pos haccepted]
        simp [haccepted, eq_comm]
      · rw [if_neg haccepted]
        simp only [haccepted, false_and, iff_false]
        intro hkept
        have hsame := hheld _ hkept.symm
        have hlength := congrArg (fun h => h.summaries.length) hsame
        simp at hlength
  | some kept =>
      have hseen : call.summary.summaryId ∈
          old.summaries.map (·.summaryId) := by
        rw [← stored_isSome, hstored]
        rfl
      rw [accept, if_pos hseen]
      by_cases haccepted : Accepted old call.summary
      · rw [if_pos haccepted, Option.some.injEq, eq_comm,
          overwrite_eq_self hdistinct, hstored, Option.some.injEq]
        simp [haccepted, eq_comm]
      · rw [if_neg haccepted]
        refine iff_of_true ?_ (Or.inr haccepted)
        cases held with
        | none => simp [hnone rfl] at hseen
        | some holding => rw [hheld holding rfl]

/-- A call keeps repositories in agreement exactly when it is matched by what
is held before it. -/
theorem agree_serve_iff (h : SoundState state) (hagree : Agree state.1 state.2)
    (call : Call T) :
    Agree (serve state call).1 (serve state call).2 ↔
      Matched (state.2.holding call.enterpriseId) call := by
  have hheld := holding_eq_of_agree h hagree
  have hdistinct : ((before (state.2.holding call.enterpriseId)
      call).summaries.map (·.summaryId)).Nodup := by
    rw [← hheld, ← MemoryRepository.holding_target]
    exact (h.memory.target call).distinct
  have hmemory := h.memory.holding_applySummary call
  have hpg : ∀ enterpriseId, (serve state call).2.holding enterpriseId =
      if call.enterpriseId = enterpriseId then
        (if Accepted (before (state.2.holding call.enterpriseId) call)
            call.summary then
          some (overwrite (before (state.2.holding call.enterpriseId) call)
            call.summary)
        else state.2.holding call.enterpriseId)
      else state.2.holding enterpriseId := by
    intro enterpriseId
    rw [serve, h.pg.applySummary]
    split
    · exact h.pg.holding_recorded call enterpriseId
    · split
      · next henterprise => rw [henterprise]; rfl
      · rfl
  rw [← settled_iff hdistinct]
  constructor
  · intro hafter
    have hcall := holding_eq_of_agree (h.serve call) hafter call.enterpriseId
    rw [hpg, if_pos rfl] at hcall
    rw [← hcall, ← hheld]
    exact ((hmemory _).trans (if_pos rfl)).symm
  · intro hcall
    apply agree_of_holding_eq (h.serve call)
    intro enterpriseId
    rw [hpg]
    refine (hmemory enterpriseId).trans ?_
    split
    · rw [hheld, hcall]
    · exact hheld enterpriseId

/-! ### Every sequence of calls -/

theorem agree_empty :
    Agree (run ([] : List (Call T))).1 (run ([] : List (Call T))).2 :=
  agree_of_holding_eq (sound_run []) fun _ => rfl

theorem agree_run (calls : List (Call T))
    (hcalls : ∀ past call rest, calls = past ++ call :: rest →
      Matched ((run past).2.holding call.enterpriseId) call) :
    Agree (run calls).1 (run calls).2 := by
  induction calls using List.reverseRecOn with
  | nil => exact agree_empty
  | append_singleton calls call ih =>
      have hagree := ih fun past other rest hsplit =>
        hcalls past other (rest ++ [call]) (by simp [hsplit])
      rw [run_append]
      exact (agree_serve_iff (sound_run calls) hagree call).mpr
        (hcalls calls call [] rfl)

/-- Over a sequence of calls the repositories agree all along exactly when
each call is matched by what is held when it arrives.  Costs are added exactly,
as Decimals are while their sums have at most 28 digits; the bounds of windows
and the starts of hours carry a time zone. -/
theorem runs_agree_iff (calls : List (Call T)) :
    (∀ past rest, calls = past ++ rest →
        Agree (run past).1 (run past).2) ↔
      ∀ past call rest, calls = past ++ call :: rest →
        Matched ((run past).2.holding call.enterpriseId) call := by
  constructor
  · intro hagree past call rest hsplit
    apply (agree_serve_iff (sound_run past)
      (hagree past (call :: rest) hsplit) call).mp
    rw [← run_append]
    exact hagree (past ++ [call]) rest (by simp [hsplit])
  · rintro hcalls past rest rfl
    apply agree_run
    rintro earlier call later rfl
    exact hcalls earlier call (later ++ rest) (by simp)

namespace AgreementWitness

/-- One hour of an enterprise, with a token count that grows. -/
def hour (tokens : Int) : Call Int where
  enterpriseId := "e"
  tenantId := "t"
  summary :=
    { summaryId := "h1"
      tenantId := "t"
      employeeId := none
      figures :=
        { windowStart := 0
          windowEnd := 3600
          runCount := 1
          tokenTotal := tokens
          pricing := .known 1
          pricingVersion := none
          errorCount := 0
          durationSecondsTotal := 5 } }

end AgreementWitness

open AgreementWitness in
/-- The same hour is reported twice, the second time with more tokens. -/
theorem changed_payload_disagrees :
    ¬ ∀ calls : List (Call Int), Agree (run calls).1 (run calls).2 := by
  intro hall
  have hget := (hall [hour 100, hour 250]).get "e"
  have hdiffer : (run [hour 100, hour 250]).1.get "e" ≠
      (run [hour 100, hour 250]).2.get "e" := by
    decide
  exact hdiffer hget

end AiTeam.Rollup
