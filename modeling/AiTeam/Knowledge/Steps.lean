/-
What one action can do to the rows: the transactions of a worker and of a
request, and the invariant over whole runs.
-/
import AiTeam.Knowledge.Claims

namespace AiTeam.Knowledge

/-- What a worker's step does to the store. -/
inductive WorkerChange (owner : String) (store : Store) (phase : Phase) :
    Store → Prop where
  | same : WorkerChange owner store phase store
  | fence (textChars : Nat) (now : Int) {store' : Store}
      (h : store.fenceSubmission phase.job.id owner textChars now =
        some store') : WorkerChange owner store phase store'
  | track (trackId : String) (now : Int) {store' : Store}
      (h : store.recordTrack phase.job.id owner trackId now = some store') :
      WorkerChange owner store phase store'
  | settle (settlement : Store.Settlement) (now : Int) {store' : Store}
      (h : store.settle phase.job owner settlement now = some store') :
      WorkerChange owner store phase store'
  | publish (publication : Store.Publication) (now : Int) {store' : Store}
      (h : store.publishReady phase.job owner publication now =
        some store') : WorkerChange owner store phase store'

theorem work_change (store : Store) (owner : String) (phase : Phase)
    (action : WorkerAction) :
    WorkerChange owner store phase (work store owner phase action).1 := by
  unfold work
  split
  · exact .same
  · split <;> exact .same
  · split
    · exact .same
    · split <;> exact .same
  · exact .same
  · next job textChars chars now =>
      split
      · exact .same
      · next hfence => exact .fence chars now hfence
  · exact .same
  · next job textChars trackId now =>
      split
      · exact .same
      · next htrack => exact .track trackId now htrack
  · split <;> exact .same
  · exact .same
  · next job settlement now =>
      cases hsettle : store.settle job owner settlement now with
      | none => exact .same
      | some store' => exact .settle settlement now hsettle
  · next job publication now =>
      split
      · exact .same
      · next hpublish => exact .publish publication now hpublish
  · exact .same
  · exact .same
  · exact .same
  · exact .same
  · exact .same

/-- What a request's step does to the store. -/
inductive RequestChange (store : Store) (current : Option Request)
    (action : RequestAction) : Store → Prop where
  | receipts (operations : List Operation) :
      RequestChange store current action { store with operations }
  | deleting {operationId : Nat} {status : DocumentStatus} {store' : Store}
      (hcurrent : current = some (.deleteRecorded operationId status))
      (haction : action = .moveDelete) (hstatus : status ≠ .deleting)
      (h : store.transitionStatus [.ready, .failed] .deleting =
        some store') : RequestChange store current action store'
  | revoke {operationId : Nat}
      (hcurrent : current = some (.deleteMoved operationId))
      (haction : action = .revokeDelete) :
      RequestChange store current action store.markRevoked
  | deleted {operationId : Nat} {store' : Store}
      (hcurrent : current = some (.reconcileAbsent operationId))
      (haction : action = .publishDeleted)
      (h : store.transitionStatus [.deleting] .deleted = some store') :
      RequestChange store current action store'

theorem createOperation_frame (store : Store) (id : Nat)
    (kind : OperationKind) (key : String) (now : Int) :
    ∃ operations, (store.createOperation id kind key now).1 =
      { store with operations } := by
  rw [Store.createOperation]
  split
  · exact ⟨store.operations, rfl⟩
  · exact ⟨_, rfl⟩

theorem request_change (store : Store) (current : Option Request)
    (action : RequestAction) :
    RequestChange store current action (request store current action).1 := by
  have hsame : ∀ {current : Option Request} {action : RequestAction},
      RequestChange store current action store := .receipts store.operations
  unfold request
  split
  · split
    · exact hsame
    · split <;> exact hsame
  · split <;> exact hsame
  · next operationId key now =>
      obtain ⟨operations, hcreated⟩ :=
        createOperation_frame store operationId .delete key now
      simp only [hcreated]
      split <;> exact .receipts operations
  · split
    · exact hsame
    · next hstatus =>
        split
        · exact .receipts _
        · next hmoved => exact .deleting rfl rfl hstatus hmoved
  · exact .revoke rfl rfl
  · exact .receipts _
  · exact hsame
  · split
    · exact hsame
    · split
      · split
        · exact .receipts _
        · exact hsame
      · split <;> exact hsame
  · split
    · exact hsame
    · exact .receipts _
  · split
    · next hdeleted => exact .deleted rfl rfl hdeleted
    · split
      · exact hsame
      · exact .receipts _
  · exact .receipts _
  · exact hsame
  · exact hsame

/-! ### Frames -/

variable {store store' : Store}

theorem RequestChange.jobs {current : Option Request}
    {action : RequestAction} (h : RequestChange store current action store') :
    store'.jobs = store.jobs := by
  cases h with
  | receipts operations => rfl
  | deleting _ _ _ hmoved =>
      obtain ⟨document, -, -, rfl⟩ := transition_cases hmoved
      rfl
  | revoke => rfl
  | deleted _ _ hdeleted =>
      obtain ⟨document, -, -, rfl⟩ := transition_cases hdeleted
      rfl

theorem backfillReady_jobs (employeeId : String) :
    (store.backfillReady employeeId).jobs = store.jobs := by
  rw [Store.backfillReady]
  split
  · rfl
  · split <;> rfl

theorem setPolicy_jobs (employeeId : String) (enabled revoke : Bool) :
    (store.setPolicy employeeId enabled revoke).jobs = store.jobs := by
  rw [Store.setPolicy]
  split
  · rfl
  · split <;> rfl

theorem backfillReady_document (employeeId : String) :
    (store.backfillReady employeeId).document = store.document := by
  rw [Store.backfillReady]
  split
  · rfl
  · split <;> rfl

theorem setPolicy_document (employeeId : String) (enabled revoke : Bool) :
    (store.setPolicy employeeId enabled revoke).document =
      store.document := by
  rw [Store.setPolicy]
  split
  · rfl
  · split <;> rfl

/-! ### The invariant -/

theorem Sound.worker (h : Sound store) {owner : String} {phase : Phase}
    (hchange : WorkerChange owner store phase store') : Sound store' := by
  cases hchange with
  | same => exact h
  | fence textChars now hfence => exact h.fence hfence
  | track trackId now htrack => exact h.track htrack
  | settle settlement now hsettle => exact h.settle hsettle
  | publish publication now hpublish => exact h.publish hpublish

theorem Sound.request (h : Sound store) {current : Option Request}
    {action : RequestAction}
    (hchange : RequestChange store current action store') : Sound store' := by
  cases hchange with
  | receipts operations => exact h.frame store.bindings operations
  | deleting _ _ _ hmoved => exact h.transition (.inl rfl) hmoved
  | revoke => exact h.frame _ store.operations
  | deleted _ _ hdeleted => exact h.transition (.inr rfl) hdeleted

theorem Sound.backfill (h : Sound store) (employeeId : String) :
    Sound (store.backfillReady employeeId) := by
  rw [Store.backfillReady]
  split
  · exact h
  · split
    · exact h.frame _ store.operations
    · exact h

theorem Sound.setPolicy (h : Sound store) (employeeId : String)
    (enabled revoke : Bool) :
    Sound (store.setPolicy employeeId enabled revoke) := by
  rw [Store.setPolicy]
  split
  · exact h
  · split <;> exact h.frame _ store.operations

/-! ### One action -/

/-- What one action does to the store. -/
inductive Change (state : State) : Action → Store → Prop where
  | same (action : Action) : Change state action state.store
  | create {documentId : String} {parsing : Bool} {jobId : Nat} {now : Int}
      {store' : Store}
      (h : state.store.create documentId parsing jobId now = some store') :
      Change state (.create documentId parsing jobId now) store'
  | reindex {key : String} {operationId jobId : Nat} {now : Int}
      {store' : Store}
      (h : state.store.prepareReindex key operationId jobId now =
        some store') :
      Change state (.reindex key operationId jobId now) store'
  | claim {owner : String} {jobId : Nat} {now : Int} {store' : Store}
      {job : Job} (h : state.store.claim owner jobId now =
        some (store', job)) : Change state (.claim owner jobId now) store'
  | worker {owner : String} {phase : Phase} (action : WorkerAction)
      (hphase : valueAt owner state.workers = some phase) :
      Change state (.worker owner action)
        (work state.store owner phase action).1
  | request (id : Nat) (action : RequestAction) :
      Change state (.request id action)
        (Knowledge.request state.store (valueAt id state.requests) action).1
  | backfill (employeeId : String) :
      Change state (.backfill employeeId)
        (state.store.backfillReady employeeId)
  | setPolicy (employeeId : String) (enabled revoke : Bool) :
      Change state (.setPolicy employeeId enabled revoke)
        (state.store.setPolicy employeeId enabled revoke)

theorem step_change (state : State) (action : Action) :
    Change state action (machine.next state action).store := by
  change Change state action (Knowledge.step state action).1.store
  cases action with
  | create documentId parsing jobId now =>
      rw [Knowledge.step]
      cases hcreate : state.store.create documentId parsing jobId now with
      | none => exact .same _
      | some store => exact .create hcreate
  | reindex key operationId jobId now =>
      rw [Knowledge.step]
      cases hreindex : state.store.prepareReindex key operationId jobId
          now with
      | none => exact .same _
      | some store => exact .reindex hreindex
  | claim owner jobId now =>
      rw [Knowledge.step]
      split
      · exact .same _
      · next store job hclaim => exact .claim hclaim
  | worker owner action =>
      rw [Knowledge.step]
      split
      · exact .same _
      · next phase hphase => exact .worker action hphase
  | request id action => exact .request id action
  | backfill employeeId => exact .backfill employeeId
  | setPolicy employeeId enabled revoke =>
      exact .setPolicy employeeId enabled revoke

theorem Sound.step {state : State} (h : Sound state.store)
    (action : Action) : Sound (machine.next state action).store := by
  have hchange := step_change state action
  generalize (machine.next state action).store = store' at hchange ⊢
  cases hchange with
  | same => exact h
  | create hcreate => exact h.create hcreate
  | reindex hreindex => exact h.reindex hreindex
  | claim hclaim => exact h.claim hclaim
  | worker action hphase => exact h.worker (work_change _ _ _ _)
  | request id action => exact h.request (request_change _ _ _)
  | backfill employeeId => exact h.backfill employeeId
  | setPolicy employeeId enabled revoke =>
      exact h.setPolicy employeeId enabled revoke

theorem sound_run (actions : List Action) :
    Sound (machine.run State.empty actions).store :=
  machine.stateInvariant (fun state => Sound state.store)
    (fun _ action h _ => h.step action) actions sound_empty
    (machine.admissible_true _ actions)

/-- In every run one worker at most owns a job of the document, and while the
document may be reindexed none does and no job can be claimed. -/
theorem one_worker (actions : List Action) :
    let store := (machine.run State.empty actions).store
    (∀ owner owner' jobId jobId' now now',
      store.owned jobId owner now = true →
      store.owned jobId' owner' now' = true →
      jobId = jobId' ∧ owner = owner') ∧
    ∀ document, store.document = some document →
      Store.reindexable document = true → ∀ owner jobId now,
        store.owned jobId owner now = false ∧
          store.claim owner jobId now = none := by
  intro store
  have h : Sound store := sound_run actions
  constructor
  · intro owner owner' jobId jobId' now now' howned howned'
    obtain ⟨job, hnewest, rfl, howner, -⟩ := h.owned howned
    obtain ⟨job', hnewest', rfl, howner', -⟩ := h.owned howned'
    cases hnewest.symm.trans hnewest'
    exact ⟨rfl, Option.some.inj (howner.symm.trans howner')⟩
  · intro document hdocument hready owner jobId now
    obtain ⟨hfree, hsettled⟩ := h.settled document hdocument hready
    refine ⟨Bool.eq_false_iff.mpr fun howned => ?_,
      Option.eq_none_iff_forall_ne_some.mpr fun claimed hclaim => ?_⟩
    · obtain ⟨job, hjob, -, howner⟩ := owned_job howned
      cases (hfree job hjob).symm.trans howner
    · obtain ⟨found, hfound, hclaimable, -⟩ := claim_cases hclaim
      simp only [Store.claimable, Bool.and_eq_true] at hclaimable
      obtain ⟨⟨⟨-, hunsettled⟩, -⟩, hlast⟩ := hclaimable
      obtain ⟨last, hnewest, hsame⟩ := (Option.any_eq_true _ _).mp hlast
      have heq : last = found := h.keyed.eq_of_key (newest_mem hnewest)
        (lookup_mem hfound) (eq_of_beq hsame)
      rw [heq] at hnewest
      cases hunsettled.symm.trans (hsettled found hnewest)

end AiTeam.Knowledge
