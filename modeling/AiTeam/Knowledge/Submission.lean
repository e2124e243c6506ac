/-
Submissions: a job that has been sent to LightRAG, or is about to be, is
marked in its row, so nobody sends it again.
-/
import AiTeam.Knowledge.Steps

namespace AiTeam.Knowledge

variable {store store' : Store} {state : State} {past : List Event}

/-! ### Marked jobs -/

/-- The row of the job says that it has been submitted. -/
def Marked (jobId : Nat) (store : Store) : Prop :=
  ∃ job ∈ store.jobs, job.id = jobId ∧ job.submissionState ≠ .notSubmitted

variable {jobId : Nat} {owner : String}

theorem Marked.frame (h : Marked jobId store)
    (hjobs : store'.jobs = store.jobs) : Marked jobId store' := by
  obtain ⟨job, hjob, hid, hmark⟩ := h
  exact ⟨job, hjobs ▸ hjob, hid, hmark⟩

theorem Marked.insert (h : Marked jobId store) {job : Job}
    (hjobs : store'.jobs = store.jobs ++ [job]) : Marked jobId store' := by
  obtain ⟨old, hold, hid, hmark⟩ := h
  exact ⟨old, hjobs ▸ List.mem_append_left _ hold, hid, hmark⟩

theorem Marked.update (h : Marked jobId store) {guard : Job → Bool}
    {change : Job → Job}
    (hjobs : store'.jobs = updateWhere guard change store.jobs)
    (hid : ∀ job, (change job).id = job.id)
    (hmark : ∀ job, job.submissionState ≠ .notSubmitted →
      (change job).submissionState ≠ .notSubmitted) : Marked jobId store' := by
  obtain ⟨job, hjob, hsame, hold⟩ := h
  refine ⟨if guard job then change job else job,
    hjobs ▸ List.mem_map_of_mem hjob, ?_, ?_⟩
  · split
    · exact (hid job).trans hsame
    · exact hsame
  · split
    · exact hmark job hold
    · exact hold

theorem Marked.worker {jobId : Nat} (h : Marked jobId store)
    {owner : String} {phase : Phase}
    (hchange : WorkerChange owner store phase store') :
    Marked jobId store' := by
  cases hchange with
  | same => exact h
  | fence textChars now hfence =>
      obtain ⟨-, -, rfl⟩ := fence_cases hfence
      exact h.update rfl (fun _ => rfl) fun _ _ hnot => by cases hnot
  | track trackId now htrack =>
      obtain ⟨-, rfl⟩ := track_cases htrack
      exact h.update rfl (fun _ => rfl) fun _ => id
  | settle settlement now hsettle =>
      obtain ⟨-, operations, rfl⟩ := settle_cases hsettle
      refine h.update rfl (fun _ => rfl) fun job hmark => ?_
      rw [Store.settledJob]
      dsimp only
      split
      · exact fun hnot => by cases hnot
      · exact hmark
  | publish publication now hpublish =>
      obtain ⟨-, document, -, -, -, hjobs⟩ := publish_cases hpublish
      exact h.update hjobs (fun _ => rfl) fun _ _ hnot => by cases hnot

theorem Marked.step (h : Marked jobId state.store) (action : Action) :
    Marked jobId (machine.next state action).store := by
  have hchange := step_change state action
  generalize (machine.next state action).store = store' at hchange ⊢
  cases hchange with
  | same => exact h
  | create hcreate => exact h.insert (create_cases hcreate).2.2.2.1
  | reindex hreindex =>
      rcases prepareReindex_cases hreindex with rfl | ⟨document, -, -, -, -,
        hjobs, -⟩
      · exact h
      · exact h.insert hjobs
  | claim hclaim =>
      obtain ⟨found, -, -, -, rfl⟩ := claim_cases hclaim
      exact h.update rfl (fun _ => rfl) fun _ => id
  | worker action hphase => exact h.worker (work_change _ _ _ _)
  | request id action => exact h.frame (request_change _ _ _).jobs
  | backfill employeeId => exact h.frame (backfillReady_jobs employeeId)
  | setPolicy employeeId enabled revoke =>
      exact h.frame (setPolicy_jobs employeeId enabled revoke)

/-- The fence marks a job that was not marked. -/
theorem fence_marks (h : Sound store) {textChars : Nat} {now : Int}
    (hfence : store.fenceSubmission jobId owner textChars now =
      some store') : ¬ Marked jobId store ∧ Marked jobId store' := by
  obtain ⟨-, ⟨job, hjob, hid, hfresh⟩, rfl⟩ := fence_cases hfence
  refine ⟨?_, Store.fenced textChars now job, ?_, hid, ?_⟩
  · rintro ⟨other, hother, hsame, hmark⟩
    rw [h.keyed.eq_of_key hother hjob (hsame.trans hid.symm)] at hmark
    exact hmark hfresh
  · refine List.mem_map.mpr ⟨job, hjob, ?_⟩
    exact if_pos (by simp [hid, hfresh])
  · exact fun hnot => nomatch hnot

/-! ### Fenced workers -/

/-- The next call of the worker is `submit_text` for the job. -/
def Fenced (workers : List (String × Phase)) (owner : String)
    (jobId : Nat) : Prop :=
  ∃ job textChars, valueAt owner workers = some (.fenced job textChars) ∧
    job.id = jobId

theorem valueAt_put {K V : Type} [DecidableEq K] (key other : K)
    (value : Option V) (entries : List (K × V)) :
    valueAt other (put key value entries) =
      if other = key then value else valueAt other entries := by
  cases value with
  | none => exact valueAt_discard key other entries
  | some value => exact valueAt_assign key other value entries

/-- A worker comes to be fenced through a fence, and stays so until it
submits. -/
theorem work_fenced {phase : Phase} {action : WorkerAction} {job : Job}
    {textChars : Option Nat}
    (h : (work store owner phase action).2.1 =
      some (.fenced job textChars)) :
    (work store owner phase action).2.2 = [] ∧
      (phase = .fenced job textChars ∨ ∃ chars now store',
        store.fenceSubmission job.id owner chars now = some store' ∧
          (work store owner phase action).1 = store') := by
  unfold work at h ⊢
  split at h
  · cases h
  · split at h <;> cases h
  · split at h
    · cases h
    · split at h <;> cases h
  · cases h
  · next job' textChars' chars now =>
      split at h
      · cases h
      · next store' hfence =>
          injection h with hphase
          injection hphase with hjob htext
          rw [hjob] at hfence
          exact ⟨rfl, .inr ⟨chars, now, store', hfence, rfl⟩⟩
  · split at h <;> cases h
  · split at h <;> cases h
  · split at h <;> cases h
  · next job' textChars' status employeeIds =>
      injection h with hphase
      unfold reconciled at hphase
      split at hphase <;> cases hphase
  · cases h
  · split at h <;> cases h
  · cases h
  · cases h
  · cases h
  · cases h
  · injection h with hphase
    exact ⟨rfl, .inl hphase⟩

/-- Only a fenced worker submits, once. -/
theorem work_submitted {phase : Phase} {action : WorkerAction} {event : Event}
    (h : event ∈ (work store owner phase action).2.2) :
    ∃ job textChars, phase = .fenced job textChars ∧
      (work store owner phase action).2.2 = [.submitted job.id] := by
  unfold work at h ⊢
  split at h
  · cases h
  · split at h <;> cases h
  · split at h
    · cases h
    · split at h <;> cases h
  · cases h
  · split at h <;> cases h
  · next job textChars trackId => exact ⟨job, textChars, rfl, rfl⟩
  · split at h <;> cases h
  · split at h <;> cases h
  · cases h
  · cases h
  · split at h <;> cases h
  · cases h
  · cases h
  · cases h
  · cases h
  · cases h

/-- A worker that is fenced after a step was fenced before, or it has just
marked its job. -/
theorem fenced_step (hsound : Sound state.store) {action : Action}
    (h : Fenced (machine.next state action).workers owner jobId) :
    (Fenced state.workers owner jobId ∧
      ∀ work, action = .worker owner work →
        machine.emit state action = []) ∨
    (¬ Marked jobId state.store ∧
      Marked jobId (machine.next state action).store ∧
      machine.emit state action = [] ∧
      ∃ work, action = .worker owner work) := by
  have hkept : ∀ (other : Action), (∀ owner work, other ≠ .worker owner work) →
      Fenced state.workers owner jobId →
      Fenced state.workers owner jobId ∧
        ∀ work, other = .worker owner work →
          machine.emit state other = [] :=
    fun other hother hfenced =>
      ⟨hfenced, fun work hwork => absurd hwork (hother owner work)⟩
  change Fenced (Knowledge.step state action).1.workers owner jobId at h
  cases action with
  | create documentId parsing jobId now =>
      exact .inl (hkept _ (fun _ _ hother => by cases hother) h)
  | reindex key operationId jobId now =>
      exact .inl (hkept _ (fun _ _ hother => by cases hother) h)
  | claim claimer claimedId now =>
      refine .inl (hkept _ (fun _ _ hother => by cases hother) ?_)
      rw [Knowledge.step] at h
      split at h
      · exact h
      · obtain ⟨job, textChars, hphase, hid⟩ := h
        simp only [valueAt_assign] at hphase
        split at hphase
        · cases hphase
        · exact ⟨job, textChars, hphase, hid⟩
  | worker worker action =>
      cases hphase : valueAt worker state.workers with
      | none =>
          have hstep : Knowledge.step state (.worker worker action) =
              (state, []) := by
            rw [Knowledge.step, hphase]
          rw [hstep] at h
          exact .inl ⟨h, fun _ _ => congrArg Prod.snd hstep⟩
      | some phase =>
          have hstep : Knowledge.step state (.worker worker action) =
              ({ state with
                store := (work state.store worker phase action).1
                workers := put worker
                  (work state.store worker phase action).2.1 state.workers },
                (work state.store worker phase action).2.2) := by
            rw [Knowledge.step, hphase]
          rw [hstep] at h
          obtain ⟨job, textChars, hafter, hid⟩ := h
          rw [valueAt_put] at hafter
          by_cases hmine : owner = worker
          · rw [if_pos hmine] at hafter
            obtain ⟨hsilent, hbefore⟩ := work_fenced hafter
            have hemit : machine.emit state (.worker worker action) = [] :=
              (congrArg Prod.snd hstep).trans hsilent
            rcases hbefore with hbefore | ⟨chars, now, store', hfence,
              hstore⟩
            · rw [hbefore, ← hmine] at hphase
              exact .inl ⟨⟨job, textChars, hphase, hid⟩, fun _ _ => hemit⟩
            · rw [hid] at hfence
              obtain ⟨hfresh, hmarked⟩ := fence_marks hsound hfence
              refine .inr ⟨hfresh, ?_, hemit, action, by rw [hmine]⟩
              change Marked jobId (Knowledge.step state _).1.store
              rw [hstep, hstore]
              exact hmarked
          · rw [if_neg hmine] at hafter
            refine .inl ⟨⟨job, textChars, hafter, hid⟩, fun work hwork => ?_⟩
            injection hwork with howner
            exact absurd howner.symm hmine
  | request id action =>
      exact .inl (hkept _ (fun _ _ hother => by cases hother) h)
  | backfill employeeId =>
      exact .inl (hkept _ (fun _ _ hother => by cases hother) h)
  | setPolicy employeeId enabled revoke =>
      exact .inl (hkept _ (fun _ _ hother => by cases hother) h)

/-- All that a request does for others to see is to revoke the bindings. -/
theorem request_events {store : Store} {current : Option Request}
    {action : RequestAction} {event : Event}
    (h : event ∈ (request store current action).2.2) :
    event = .revoked ∧
      (request store current action).1 = store.markRevoked ∧
      ∃ operationId, current = some (.deleteMoved operationId) := by
  unfold request at h ⊢
  split at h
  · split at h
    · exact nomatch h
    · split at h <;> exact nomatch h
  · split at h <;> exact nomatch h
  · simp only at h
    split at h <;> exact nomatch h
  · split at h
    · exact nomatch h
    · split at h <;> exact nomatch h
  · exact ⟨List.mem_singleton.mp h, rfl, _, rfl⟩
  · exact nomatch h
  · exact nomatch h
  · split at h
    · exact nomatch h
    · split at h
      · split at h <;> exact nomatch h
      · split at h <;> exact nomatch h
  · split at h <;> exact nomatch h
  · split at h
    · exact nomatch h
    · split at h <;> exact nomatch h
  · exact nomatch h
  · exact nomatch h
  · exact nomatch h

/-- Who submits in a step was fenced. -/
theorem submitted_step {action : Action}
    (h : .submitted jobId ∈ machine.emit state action) :
    machine.emit state action = [.submitted jobId] ∧
      ∃ owner work, action = .worker owner work ∧
        Fenced state.workers owner jobId := by
  change _ ∈ (Knowledge.step state action).2 at h
  change (Knowledge.step state action).2 = _ ∧ _
  cases action with
  | create documentId parsing jobId now => cases h
  | reindex key operationId jobId now => cases h
  | claim claimer claimedId now =>
      rw [Knowledge.step] at h
      split at h <;> cases h
  | worker owner action =>
      cases hphase : valueAt owner state.workers with
      | none =>
          rw [Knowledge.step, hphase] at h
          cases h
      | some phase =>
          simp only [Knowledge.step, hphase] at h ⊢
          obtain ⟨job, textChars, rfl, hevents⟩ := work_submitted h
          rw [hevents] at h ⊢
          have hid : jobId = job.id :=
            Event.submitted.inj (List.mem_singleton.mp h)
          rw [hid]
          exact ⟨rfl, owner, action, rfl, job, textChars, hphase, rfl⟩
  | request id action =>
      simp only [Knowledge.step] at h
      cases (request_events h).1
  | backfill employeeId => cases h
  | setPolicy employeeId enabled revoke => cases h

/-! ### At most one submission -/

/-- Submitted and fenced jobs are marked; one worker at most is fenced for a
job, and then nothing was submitted for it. -/
structure Posted (state : State) (past : List Event) : Prop where
  sound : Sound state.store
  submitted : ∀ jobId, .submitted jobId ∈ past → Marked jobId state.store
  fenced : ∀ owner jobId, Fenced state.workers owner jobId →
    Marked jobId state.store ∧ .submitted jobId ∉ past
  alone : ∀ owner other jobId, Fenced state.workers owner jobId →
    Fenced state.workers other jobId → owner = other
  once : ∀ jobId, past.count (.submitted jobId) ≤ 1

theorem posted_empty : Posted State.empty [] where
  sound := sound_empty
  submitted _ hevent := nomatch hevent
  fenced _ _ h := by
    obtain ⟨job, textChars, hphase, -⟩ := h
    exact nomatch hphase
  alone _ _ _ h := by
    obtain ⟨job, textChars, hphase, -⟩ := h
    exact nomatch hphase
  once _ := Nat.zero_le 1

theorem Posted.step (h : Posted state past) (action : Action) :
    Posted (machine.next state action)
      (past ++ machine.emit state action) where
  sound := h.sound.step action
  submitted := by
    intro jobId hevent
    refine Marked.step ?_ action
    rcases List.mem_append.mp hevent with hpast | hnow
    · exact h.submitted jobId hpast
    · obtain ⟨-, owner, work, -, hfenced⟩ := submitted_step hnow
      exact (h.fenced owner jobId hfenced).1
  fenced := by
    intro owner jobId hfenced
    rcases fenced_step h.sound hfenced with ⟨hbefore, hsilent⟩ | ⟨hfresh,
      hmarked, hsilent, -⟩
    · obtain ⟨hmarked, hnever⟩ := h.fenced owner jobId hbefore
      refine ⟨hmarked.step action, fun hevent => ?_⟩
      rcases List.mem_append.mp hevent with hpast | hnow
      · exact hnever hpast
      · -- The one who submits is the fenced worker itself.
        obtain ⟨hevents, other, work, hwork, hother⟩ := submitted_step hnow
        rw [← h.alone owner other jobId hbefore hother] at hwork
        rw [hsilent work hwork] at hevents
        exact nomatch hevents
    · refine ⟨hmarked, fun hevent => ?_⟩
      rw [hsilent, List.append_nil] at hevent
      exact hfresh (h.submitted jobId hevent)
  alone := by
    intro owner other jobId hfenced hother
    rcases fenced_step h.sound hfenced with ⟨hbefore, -⟩ | ⟨hfresh, -, -,
      work, hwork⟩
    · rcases fenced_step h.sound hother with ⟨hbefore', -⟩ | ⟨hfresh, -⟩
      · exact h.alone owner other jobId hbefore hbefore'
      · exact absurd (h.fenced owner jobId hbefore).1 hfresh
    · rcases fenced_step h.sound hother with ⟨hbefore', -⟩ | ⟨-, -, -,
        work', hwork'⟩
      · exact absurd (h.fenced other jobId hbefore').1 hfresh
      · exact (Action.worker.inj (hwork.symm.trans hwork')).1
  once := by
    intro jobId
    rw [List.count_append]
    by_cases hnow : .submitted jobId ∈ machine.emit state action
    · obtain ⟨hevents, owner, work, -, hfenced⟩ := submitted_step hnow
      have hnever := List.count_eq_zero.mpr (h.fenced owner jobId hfenced).2
      have hnew : List.count (Event.submitted jobId) [.submitted jobId] = 1 :=
        List.count_singleton_self
      rw [hevents]
      omega
    · rw [List.count_eq_zero.mpr hnow]
      exact h.once jobId

theorem posted_run (actions : List Action) :
    Posted (machine.run State.empty actions)
      (machine.trace State.empty actions) := by
  have hrun := machine.invariant Posted (fun _ _ action h => h.step action)
    actions posted_empty
  exact hrun

end AiTeam.Knowledge
