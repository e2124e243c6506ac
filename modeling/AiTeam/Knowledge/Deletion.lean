/-
Deletion: what a document that is being deleted can still become, and when its
bindings are gone.
-/
import AiTeam.Knowledge.Fenced

namespace AiTeam.Knowledge

variable {store store' : Store} {state : State} {past : List Event}

/-- The document is deleting or deleted. -/
def InDeletion (store : Store) : Prop :=
  ∃ document, store.document = some document ∧
    (document.status = .deleting ∨ document.status = .deleted)

def Deleted (store : Store) : Prop :=
  ∃ document, store.document = some document ∧ document.status = .deleted

def Unreadable (store : Store) : Prop :=
  ∀ binding ∈ store.bindings, binding.status ≠ .ready

def Unclaimed (store : Store) : Prop :=
  ∀ job ∈ store.jobs, job.claimOwner = none

theorem Deleted.inDeletion (h : Deleted store) : InDeletion store := by
  obtain ⟨document, hdocument, hstatus⟩ := h
  exact ⟨document, hdocument, .inr hstatus⟩

theorem InDeletion.frame (h : InDeletion store)
    (hdocument : store'.document = store.document) : InDeletion store' := by
  obtain ⟨document, hfound, hstatus⟩ := h
  exact ⟨document, hdocument.trans hfound, hstatus⟩

theorem InDeletion.not_ready (h : InDeletion store) :
    store.isReady = false := by
  obtain ⟨document, hdocument, hstatus⟩ := h
  rw [Store.isReady, hdocument]
  rcases hstatus with hstatus | hstatus <;> simp [hstatus]

theorem Unclaimed.unowned (h : Unclaimed store) (jobId : Nat)
    (owner : String) (now : Int) :
    store.owned jobId owner now = false := by
  by_contra howned
  obtain ⟨job, hjob, -, hclaim⟩ := owned_job (Bool.not_eq_false _ ▸ howned)
  rw [h job hjob] at hclaim
  exact nomatch hclaim

/-- What one action does to a document in deletion that nobody works on. -/
inductive Quiet (store : Store) : Store → Prop where
  | receipts (operations : List Operation) :
      Quiet store { store with operations }
  | revoke : Quiet store store.markRevoked
  | deleted {store' : Store}
      (h : store.transitionStatus [.deleting] .deleted = some store') :
      Quiet store store'
  | setPolicy (employeeId : String) (enabled revoke : Bool) :
      Quiet store (store.setPolicy employeeId enabled revoke)

theorem InDeletion.quiet (h : InDeletion state.store)
    (hfree : Unclaimed state.store) (action : Action) :
    Quiet state.store (machine.next state action).store := by
  have hsame : Quiet state.store state.store :=
    .receipts state.store.operations
  have hchange := step_change state action
  generalize (machine.next state action).store = store' at hchange ⊢
  obtain ⟨document, hdocument, hstatus⟩ := id h
  cases hchange with
  | same => exact hsame
  | create hcreate =>
      rw [(create_cases hcreate).1] at hdocument
      cases hdocument
  | reindex hreindex =>
      rcases prepareReindex_cases hreindex with rfl | ⟨found, hfound, hready,
        -⟩
      · exact hsame
      · rw [hdocument] at hfound
        rw [← Option.some.inj hfound, Store.reindexable] at hready
        rcases hstatus with hstatus | hstatus <;> simp [hstatus] at hready
  | claim hclaim =>
      obtain ⟨found, -, hclaimable, -⟩ := claim_cases hclaim
      simp only [Store.claimable, Bool.and_eq_true, hdocument,
        Option.any_some] at hclaimable
      rcases hstatus with hstatus | hstatus <;>
        simp [hstatus, Store.claimableIn] at hclaimable
  | worker action hphase =>
      rw [work_unowned fun now _ => hfree.unowned _ _ now]
      exact hsame
  | request id action =>
      have hrequest := request_change state.store
        (valueAt id state.requests) action
      generalize (request state.store _ action).1 = store' at hrequest ⊢
      cases hrequest with
      | receipts operations => exact .receipts operations
      | deleting _ _ _ hmoved =>
          obtain ⟨found, hfound, hexpected, -⟩ := transition_cases hmoved
          rw [hdocument] at hfound
          rw [← Option.some.inj hfound] at hexpected
          rcases hstatus with hstatus | hstatus <;> simp [hstatus] at hexpected
      | revoke => exact .revoke
      | deleted _ _ hdeleted => exact .deleted hdeleted
  | backfill employeeId =>
      rw [Store.backfillReady, hdocument]
      simp only
      split
      · next hready =>
          rw [hready] at hstatus
          rcases hstatus with hstatus | hstatus <;> cases hstatus
      · exact hsame
  | setPolicy employeeId enabled revoke =>
      exact .setPolicy employeeId enabled revoke

theorem Quiet.inDeletion (hquiet : Quiet store store')
    (h : InDeletion store) : InDeletion store' := by
  cases hquiet with
  | receipts operations => exact h
  | revoke => exact h
  | deleted hdeleted =>
      obtain ⟨document, -, -, rfl⟩ := transition_cases hdeleted
      exact ⟨_, rfl, .inr rfl⟩
  | setPolicy employeeId enabled revoke =>
      exact h.frame (setPolicy_document employeeId enabled revoke)

theorem Quiet.deleted_kept (hquiet : Quiet store store')
    (h : Deleted store) : Deleted store' := by
  obtain ⟨document, hdocument, hstatus⟩ := h
  cases hquiet with
  | receipts operations => exact ⟨document, hdocument, hstatus⟩
  | revoke => exact ⟨document, hdocument, hstatus⟩
  | deleted hdeleted =>
      obtain ⟨found, -, -, rfl⟩ := transition_cases hdeleted
      exact ⟨_, rfl, rfl⟩
  | setPolicy employeeId enabled revoke =>
      exact ⟨document, (setPolicy_document employeeId enabled revoke).trans
        hdocument, hstatus⟩

theorem Quiet.jobs (hquiet : Quiet store store') :
    store'.jobs = store.jobs := by
  cases hquiet with
  | receipts operations => rfl
  | revoke => rfl
  | deleted hdeleted =>
      obtain ⟨document, -, -, rfl⟩ := transition_cases hdeleted
      rfl
  | setPolicy employeeId enabled revoke =>
      exact setPolicy_jobs employeeId enabled revoke

theorem markRevoked_unreadable (store : Store) :
    Unreadable store.markRevoked := by
  intro binding hbinding
  obtain ⟨old, -, rfl⟩ := List.mem_map.mp hbinding
  cases hstatus : old.status <;> simp [hstatus]

/-- A policy publishes nothing of a document that is not ready. -/
theorem setPolicy_unreadable (h : Unreadable store)
    (hready : store.isReady = false) (employeeId : String)
    (enabled revoke : Bool) :
    Unreadable (store.setPolicy employeeId enabled revoke) := by
  rw [Store.setPolicy, hready]
  split
  · exact h
  · split
    · intro binding hbinding
      obtain ⟨old, hold, rfl⟩ := List.mem_map.mp hbinding
      split
      · exact h old hold
      · exact h old hold
    · intro binding hbinding
      rcases List.mem_append.mp hbinding with hold | hnew
      · exact h binding hold
      · rw [List.mem_singleton.mp hnew]
        intro hstatus
        cases hstatus

theorem Quiet.unreadable (hquiet : Quiet store store')
    (hdeletion : InDeletion store) (h : Unreadable store) :
    Unreadable store' := by
  cases hquiet with
  | receipts operations => exact h
  | revoke => exact markRevoked_unreadable store
  | deleted hdeleted =>
      obtain ⟨document, -, -, rfl⟩ := transition_cases hdeleted
      exact h
  | setPolicy employeeId enabled revoke =>
      exact setPolicy_unreadable h hdeletion.not_ready employeeId enabled
        revoke

/-! ### Entering deletion -/

/-- The compare-and-set of a delete succeeds. -/
def moves (state : State) (id : Nat) : Bool :=
  match valueAt id state.requests with
  | some (.deleteRecorded _ status) =>
      status != .deleting && state.store.document.any fun document =>
        document.status == .ready || document.status == .failed
  | _ => false

/-- The compare-and-set of a reconciliation succeeds. -/
def publishes (state : State) (id : Nat) : Bool :=
  match valueAt id state.requests with
  | some (.reconcileAbsent _) =>
      state.store.document.any (·.status == .deleting)
  | _ => false

/-- No transaction of a worker takes a document into deletion. -/
theorem WorkerChange.inDeletion {owner : String} {phase : Phase}
    (hchange : WorkerChange owner store phase store') {document : Document}
    (hdocument : store'.document = some document)
    (hstatus : document.status = .deleting ∨ document.status = .deleted) :
    store.document = some document := by
  cases hchange with
  | same => exact hdocument
  | fence textChars now hfence =>
      obtain ⟨-, -, rfl⟩ := fence_cases hfence
      obtain ⟨found, -, rfl⟩ := Option.map_eq_some_iff.mp hdocument
      rcases hstatus with hstatus | hstatus <;> cases hstatus
  | track trackId now htrack =>
      obtain ⟨-, rfl⟩ := track_cases htrack
      exact hdocument
  | settle settlement now hsettle =>
      obtain ⟨-, operations, rfl⟩ := settle_cases hsettle
      obtain ⟨found, -, rfl⟩ := Option.map_eq_some_iff.mp hdocument
      revert hstatus
      rw [Store.settledDocument]
      dsimp only
      split <;> rintro (hstatus | hstatus) <;> cases hstatus
  | publish publication now hpublish =>
      obtain ⟨-, found, -, -, hafter, -⟩ := publish_cases hpublish
      rw [hafter] at hdocument
      rw [← Option.some.inj hdocument] at hstatus
      rcases hstatus with hstatus | hstatus <;> cases hstatus

variable {action : Action}

/-- How a document comes to be in deletion, or deleted. -/
theorem deletion_cases {document : Document}
    (hdocument : (machine.next state action).store.document = some document)
    (hstatus : document.status = .deleting ∨ document.status = .deleted) :
    state.store.document = some document ∨
    (∃ id, action = .request id .moveDelete ∧ moves state id = true ∧
      document.status = .deleting ∧
      (machine.next state action).store.jobs = state.store.jobs) ∨
    ∃ id, action = .request id .publishDeleted ∧
      publishes state id = true ∧ InDeletion state.store ∧
      (machine.next state action).store.bindings = state.store.bindings := by
  have hchange := step_change state action
  generalize (machine.next state action).store = store'
    at hchange hdocument ⊢
  cases hchange with
  | same => exact .inl hdocument
  | create hcreate =>
      rw [(create_cases hcreate).2.2.1] at hdocument
      rw [← Option.some.inj hdocument] at hstatus
      revert hstatus
      dsimp only
      split <;> exact fun hstatus => nomatch hstatus
  | reindex hreindex =>
      rcases prepareReindex_cases hreindex with rfl | ⟨found, -, -, -,
        hafter, -, -⟩
      · exact .inl hdocument
      · rw [hafter] at hdocument
        rw [← Option.some.inj hdocument] at hstatus
        exact nomatch hstatus
  | claim hclaim =>
      obtain ⟨found, -, -, -, rfl⟩ := claim_cases hclaim
      exact .inl hdocument
  | @worker owner phase action hphase =>
      have hwork := work_change state.store owner phase action
      generalize (work state.store owner phase action).1 = store'
        at hwork hdocument ⊢
      exact .inl (hwork.inDeletion hdocument hstatus)
  | request id action =>
      have hrequest := request_change state.store
        (valueAt id state.requests) action
      generalize (request state.store _ action).1 = store'
        at hrequest hdocument ⊢
      cases hrequest with
      | receipts operations => exact .inl hdocument
      | deleting hcurrent haction hmoving hmoved =>
          obtain ⟨found, hfound, hexpected, rfl⟩ := transition_cases hmoved
          refine .inr (.inl ⟨id, by rw [haction], ?_, ?_, rfl⟩)
          · simp only [List.mem_cons, List.not_mem_nil, or_false]
              at hexpected
            simp [moves, hcurrent, hmoving, hfound, hexpected]
          · rw [← Option.some.inj hdocument]
      | revoke hcurrent haction => exact .inl hdocument
      | deleted hcurrent haction hdeleted =>
          obtain ⟨found, hfound, hexpected, rfl⟩ := transition_cases hdeleted
          have hdeleting := List.mem_singleton.mp hexpected
          refine .inr (.inr ⟨id, by rw [haction], ?_,
            ⟨found, hfound, .inl hdeleting⟩, rfl⟩)
          simp [publishes, hcurrent, hfound, hdeleting]
  | backfill employeeId =>
      rw [backfillReady_document] at hdocument
      exact .inl hdocument
  | setPolicy employeeId enabled revoke =>
      rw [setPolicy_document] at hdocument
      exact .inl hdocument

/-! ### Requests that delete -/

/-- The request has seen the document in deletion, or has taken it there. -/
def Request.moved : Request → Bool
  | .deleteRead status => status == .deleting
  | .deleteAdmitted status => status == .deleting
  | .deleteRecorded _ status => status == .deleting
  | .deleteMoved _ => true
  | .deleteRevoked _ => true
  | _ => false

theorem request_moved {current : Option Request} {action : RequestAction}
    {after : Request}
    (hbefore : ∀ before, current = some before → before.moved = true →
      InDeletion store)
    (h : (request store current action).2.1 = some after)
    (hmoved : after.moved = true) :
    InDeletion (request store current action).1 := by
  unfold request at h ⊢
  split at h
  · split at h
    · exact nomatch h
    · next document hdocument =>
        split at h
        · exact nomatch h
        · next hknown =>
            rw [← Option.some.inj h] at hmoved
            simp only [if_neg hknown]
            exact ⟨document, hdocument, .inl (beq_iff_eq.mp hmoved)⟩
  · next status key =>
      split at h
      · next hadmitted =>
          rw [← Option.some.inj h] at hmoved
          simp only [hadmitted, if_true]
          exact hbefore _ rfl hmoved
      · exact nomatch h
  · next status operationId key now =>
      obtain ⟨operations, hcreated⟩ :=
        createOperation_frame store operationId .delete key now
      simp only [hcreated] at h ⊢
      split at h
      · next hpending =>
          rw [← Option.some.inj h] at hmoved
          simp only [hpending, if_true]
          exact hbefore _ rfl hmoved
      · exact nomatch h
  · next operationId status =>
      split at h
      · next hdeleting =>
          simp only [hdeleting, if_true]
          exact hbefore _ rfl (beq_iff_eq.mpr hdeleting)
      · next hother =>
          split at h
          · exact nomatch h
          · next store' hmove =>
              obtain ⟨document, -, -, rfl⟩ := transition_cases hmove
              simp only [if_neg hother]
              exact ⟨_, rfl, .inl rfl⟩
  · exact hbefore _ rfl rfl
  · exact nomatch h
  · obtain ⟨document, -, hread⟩ := Option.map_eq_some_iff.mp h
    rw [← hread] at hmoved
    exact nomatch hmoved
  · split at h
    · exact nomatch h
    · split at h
      · split at h <;> exact nomatch h
      · split at h
        · rw [← Option.some.inj h] at hmoved
          exact nomatch hmoved
        · exact nomatch h
  · split at h
    · rw [← Option.some.inj h] at hmoved
      exact nomatch hmoved
    · exact nomatch h
  · split at h
    · rw [← Option.some.inj h] at hmoved
      exact nomatch hmoved
    · split at h <;> exact nomatch h
  · exact nomatch h
  · exact nomatch h
  · exact hbefore _ h hmoved

/-- Who revokes has taken the document into deletion. -/
theorem revoked_step (h : .revoked ∈ machine.emit state action) :
    (machine.next state action).store = state.store.markRevoked ∧
      ∃ id before, valueAt id state.requests = some before ∧
        before.moved = true := by
  change _ ∈ (Knowledge.step state action).2 at h
  change (Knowledge.step state action).1.store = _ ∧ _
  cases action with
  | create documentId parsing jobId now => cases h
  | reindex key operationId jobId now => cases h
  | claim claimer claimedId now =>
      rw [Knowledge.step] at h
      split at h <;> cases h
  | worker owner action =>
      rw [Knowledge.step] at h
      split at h
      · cases h
      · obtain ⟨job, textChars, -, hevents⟩ := work_submitted h
        simp only [hevents] at h
        cases List.mem_singleton.mp h
  | request id action =>
      obtain ⟨-, hstore, operationId, hbefore⟩ := request_events h
      exact ⟨hstore, id, .deleteMoved operationId, hbefore, rfl⟩
  | backfill employeeId => cases h
  | setPolicy employeeId enabled revoke => cases h

/-! ### Runs -/

/-- A delete moves a document nobody works on, and a document is deleted after
its bindings were revoked. -/
def guarded (now : State × List Event) : Action → Bool
  | .request id .moveDelete =>
      !moves now.1 id || now.1.store.jobs.all (·.claimOwner.isNone)
  | .request id .publishDeleted =>
      !publishes now.1 id || decide (.revoked ∈ now.2)
  | _ => true

def Guarded (now : State × List Event) (action : Action) : Prop :=
  guarded now action = true

/-- The invariant of guarded runs. -/
structure Final (state : State) (past : List Event) : Prop where
  sound : Sound state.store
  unclaimed : InDeletion state.store → Unclaimed state.store
  revoked : .revoked ∈ past →
    InDeletion state.store ∧ Unreadable state.store
  deleted : Deleted state.store → Unreadable state.store
  requests : ∀ id current, valueAt id state.requests = some current →
    current.moved = true → InDeletion state.store

theorem final_empty : Final State.empty [] where
  sound := sound_empty
  unclaimed _ _ hjob := nomatch hjob
  revoked hevent := nomatch hevent
  deleted _ _ hbinding := nomatch hbinding
  requests _ _ h := nomatch h

section

variable (h : Final state past)
include h

theorem Final.quiet (hdeletion : InDeletion state.store) (action : Action) :
    Quiet state.store (machine.next state action).store :=
  hdeletion.quiet (h.unclaimed hdeletion) action

theorem Final.unclaimed_step (hguard : Guarded (state, past) action)
    (hafter : InDeletion (machine.next state action).store) :
    Unclaimed (machine.next state action).store := by
  have hkept : InDeletion state.store →
      Unclaimed (machine.next state action).store := by
    intro hdeletion
    rw [Unclaimed, (h.quiet hdeletion action).jobs]
    exact h.unclaimed hdeletion
  obtain ⟨document, hdocument, hstatus⟩ := hafter
  rcases deletion_cases hdocument hstatus with hbefore | ⟨id, rfl, hmoves, -,
    hjobs⟩ | ⟨id, -, -, hdeletion, -⟩
  · exact hkept ⟨document, hbefore, hstatus⟩
  · rw [Unclaimed, hjobs]
    simp only [Guarded, guarded, hmoves, Bool.not_true, Bool.false_or,
      List.all_eq_true, Option.isNone_iff_eq_none] at hguard
    exact hguard
  · exact hkept hdeletion

theorem Final.deleted_step (hguard : Guarded (state, past) action)
    (hafter : Deleted (machine.next state action).store) :
    Unreadable (machine.next state action).store := by
  obtain ⟨document, hdocument, hstatus⟩ := hafter
  rcases deletion_cases hdocument (.inr hstatus) with hbefore | ⟨id, -, -,
    hdeleting, -⟩ | ⟨id, rfl, hpublishes, -, hbindings⟩
  · have hdeleted : Deleted state.store := ⟨document, hbefore, hstatus⟩
    exact (h.quiet hdeleted.inDeletion action).unreadable hdeleted.inDeletion
      (h.deleted hdeleted)
  · rw [hstatus] at hdeleting
    exact nomatch hdeleting
  · rw [Unreadable, hbindings]
    simp only [Guarded, guarded, hpublishes, Bool.not_true, Bool.false_or,
      decide_eq_true_eq] at hguard
    exact (h.revoked hguard).2

theorem Final.requests_step (action : Action) {id : Nat} {current : Request}
    (hcurrent : valueAt id (machine.next state action).requests =
      some current) (hmoved : current.moved = true) :
    InDeletion (machine.next state action).store := by
  have hkept : valueAt id state.requests = some current →
      InDeletion (machine.next state action).store := by
    intro hbefore
    have hdeletion := h.requests id current hbefore hmoved
    exact (h.quiet hdeletion action).inDeletion hdeletion
  change valueAt id (Knowledge.step state action).1.requests = _ at hcurrent
  cases action with
  | create documentId parsing jobId now => exact hkept hcurrent
  | reindex key operationId jobId now => exact hkept hcurrent
  | claim owner jobId now =>
      rw [Knowledge.step] at hcurrent
      split at hcurrent <;> exact hkept hcurrent
  | worker owner action =>
      rw [Knowledge.step] at hcurrent
      split at hcurrent <;> exact hkept hcurrent
  | request other action =>
      simp only [Knowledge.step, valueAt_put] at hcurrent
      split at hcurrent
      · next hsame =>
          exact request_moved (h.requests other) hcurrent hmoved
      · exact hkept hcurrent
  | backfill employeeId => exact hkept hcurrent
  | setPolicy employeeId enabled revoke => exact hkept hcurrent

theorem Final.step (hguard : Guarded (state, past) action) :
    Final (machine.next state action)
      (past ++ machine.emit state action) where
  sound := h.sound.step action
  unclaimed := h.unclaimed_step hguard
  revoked := by
    intro hevent
    rcases List.mem_append.mp hevent with hpast | hnow
    · obtain ⟨hdeletion, hunreadable⟩ := h.revoked hpast
      have hquiet := h.quiet hdeletion action
      exact ⟨hquiet.inDeletion hdeletion,
        hquiet.unreadable hdeletion hunreadable⟩
    · obtain ⟨hstore, id, before, hbefore, hmoved⟩ := revoked_step hnow
      rw [hstore]
      exact ⟨h.requests id before hbefore hmoved,
        markRevoked_unreadable state.store⟩
  deleted := h.deleted_step hguard
  requests _ _ hcurrent hmoved := h.requests_step action hcurrent hmoved

end

theorem final_run {now : State × List Event} (h : Final now.1 now.2)
    {actions : List Action}
    (hrun : machine.logged.Admissible Guarded now actions) :
    Final (machine.logged.run now actions).1
      (machine.logged.run now actions).2 :=
  machine.logged.stateInvariant (fun now => Final now.1 now.2)
    (fun _ _ hfinal hguard => hfinal.step hguard) actions h hrun

/-- What deletion preserves, it preserves to the end of a guarded run. -/
theorem deletion_run (kept : Store → Prop)
    (hdeletion : ∀ {store}, kept store → InDeletion store)
    (hkept : ∀ {store store'}, Quiet store store' → kept store → kept store')
    {now : State × List Event} (hfinal : Final now.1 now.2)
    (h : kept now.1.store) {actions : List Action}
    (hrun : machine.logged.Admissible Guarded now actions) :
    kept (machine.logged.run now actions).1.store :=
  (machine.logged.stateInvariant
    (fun now => Final now.1 now.2 ∧ kept now.1.store)
    (fun _ action hboth hguard =>
      ⟨hboth.1.step hguard,
        hkept (hboth.1.quiet (hdeletion hboth.2) action) hboth.2⟩)
    actions ⟨hfinal, h⟩ hrun).2

/-- In a guarded run deletion is final: a document that is deleting stays
deleting or becomes deleted, one that is deleted stays deleted, and then none
of its bindings is ready. -/
theorem deletion_final (actions : List Action)
    (hrun : machine.logged.Admissible Guarded (State.empty, []) actions) :
    (∀ first last, actions = first ++ last →
      (InDeletion (machine.run State.empty first).store →
        InDeletion (machine.run State.empty actions).store) ∧
      (Deleted (machine.run State.empty first).store →
        Deleted (machine.run State.empty actions).store)) ∧
    (Deleted (machine.run State.empty actions).store →
      Unreadable (machine.run State.empty actions).store) := by
  have hat : ∀ begun, machine.logged.run (State.empty, []) begun =
      (machine.run State.empty begun, machine.trace State.empty begun) :=
    fun begun => machine.logged_run State.empty [] begun
  constructor
  · intro first last hsplit
    rw [hsplit] at hrun
    have hfirst := final_run final_empty (Machine.admissible_left hrun)
    have hlast := Machine.admissible_right hrun
    have hend := machine.logged.run_append (State.empty, []) first last
    rw [← hsplit, hat] at hend
    constructor
    · intro hdeletion
      have hkept := deletion_run InDeletion id
        Quiet.inDeletion hfirst (by rw [hat]; exact hdeletion) hlast
      rw [← hend] at hkept
      exact hkept
    · intro hdeleted
      have hkept := deletion_run Deleted Deleted.inDeletion
        Quiet.deleted_kept hfirst (by rw [hat]; exact hdeleted) hlast
      rw [← hend] at hkept
      exact hkept
  · intro hdeleted
    have hfinal := final_run final_empty hrun
    rw [hat] at hfinal
    exact hfinal.deleted hdeleted

namespace DeletionWitness

def documentStatus (actions : List Action) : Option DocumentStatus :=
  (machine.run State.empty actions).store.document.map (·.status)

/-- One job from its claim to its publication. -/
def published : List Action :=
  [.create "d" true 1 0, .claim "w" 1 0, .worker "w" .readDocument,
    .worker "w" .checkGenerations, .worker "w" (.fence 5 1),
    .worker "w" (.submit (some "t")), .worker "w" (.recordTrack 2),
    .worker "w" .reload,
    .worker "w" (.reconcile ⟨.processed, some "r", some 3⟩ ["e"]),
    .worker "w" (.publish 3)]

/-- A delete request up to its receipt. -/
def requested : List Action :=
  [.request 1 .readDelete, .request 1 (.admitDelete "k"),
    .request 1 (.recordDelete 10 "k" 4)]

def reconciled : List Action :=
  [.request 2 .readReconcile, .request 2 (.admitReconcile none),
    .request 2 (.probeReconcile .absent), .request 2 .publishDeleted,
    .request 2 .completeDelete]

theorem deletion_final_completed :
    documentStatus (published ++ requested ++ [.request 1 .moveDelete,
      .request 1 .revokeDelete, .request 1 (.answerDelete .absent)] ++
      reconciled) = some .deleted ∧
    Unreadable (machine.run State.empty (published ++ requested ++
      [.request 1 .moveDelete, .request 1 .revokeDelete,
        .request 1 (.answerDelete .absent)] ++ reconciled)).store :=
  ⟨by decide, (deletion_final _ (by unfold Guarded; decide)).2
    ⟨_, rfl, by decide⟩⟩

/-- The delete was requested when the document was ready; a reindex then ends
with an unknown outcome, and a worker that looks into it holds its claim. -/
def overtaken : List Action :=
  published ++ requested ++
    [.reindex "r" 20 2 5, .claim "w" 2 5, .worker "w" .readDocument,
      .worker "w" .checkGenerations, .worker "w" (.fence 5 6),
      .worker "w" .crash, .claim "w" 2 100, .claim "w" 2 200,
      .claim "w" 2 300, .claim "w" 2 400, .claim "w" 2 500,
      .worker "w" .readDocument, .worker "w" .checkGenerations,
      .worker "w" (.reconcile ⟨.unknown, none, none⟩ []),
      .worker "w" (.settle 510), .claim "w" 2 600,
      .worker "w" .readDocument, .worker "w" .checkGenerations,
      .worker "w" (.reconcile ⟨.pending, none, none⟩ []),
      .request 1 .moveDelete]

set_option maxRecDepth 4000 in
/-- The worker settles a document that is deleting; and a delete that stopped
before its revocation leaves a deleted document with a ready binding. -/
theorem deletion_final_broken :
    (documentStatus overtaken = some .deleting ∧
      documentStatus (overtaken ++ [.worker "w" (.settle 610)]) =
        some .indexing) ∧
    (documentStatus (published ++ requested ++ [.request 1 .moveDelete,
      .request 1 .abandon] ++ reconciled) = some .deleted ∧
      (machine.run State.empty (published ++ requested ++
        [.request 1 .moveDelete, .request 1 .abandon] ++
        reconciled)).store.bindings.any (·.status == .ready) = true) := by
  decide

end DeletionWitness

end AiTeam.Knowledge
