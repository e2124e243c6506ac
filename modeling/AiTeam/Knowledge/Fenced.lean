/-
One submission per job, fenced workers, and publication together with the
newest job.
-/
import AiTeam.Knowledge.Submission

namespace AiTeam.Knowledge

variable {store store' : Store} {state : State} {past : List Event}

/-! ### Lost claims -/

/-- When the transaction of a worker's action starts. -/
def WorkerAction.time : WorkerAction → Option Int
  | .fence _ now => some now
  | .recordTrack now => some now
  | .settle now => some now
  | .publish now => some now
  | _ => none

variable {owner : String} {phase : Phase} {late : Int → Prop}

/-- A worker that does not own its job changes nothing. -/
theorem work_unowned {action : WorkerAction}
    (h : ∀ now, action.time = some now →
      store.owned phase.job.id owner now = false) :
    (work store owner phase action).1 = store := by
  unfold work
  split
  · rfl
  · split <;> rfl
  · split
    · rfl
    · split <;> rfl
  · rfl
  · next job textChars chars now =>
      have hlost : store.owned job.id owner now = false := h now rfl
      rw [Store.fenceSubmission, hlost]
      rfl
  · rfl
  · next job textChars trackId now =>
      have hlost : store.owned job.id owner now = false := h now rfl
      rw [Store.recordTrack, hlost]
      rfl
  · split <;> rfl
  · rfl
  · next job settlement now =>
      have hlost : store.owned job.id owner now = false := h now rfl
      rw [Store.settle, hlost]
      rfl
  · next job publication now =>
      have hlost : store.owned job.id owner now = false := h now rfl
      rw [Store.publishReady, hlost]
      rfl
  · rfl
  · rfl
  · rfl
  · rfl
  · rfl

/-- At the late times no lease of the owner is valid: it has expired by then,
or the owner has no job any more. -/
def Lapsed (owner : String) (late : Int → Prop) (store : Store) : Prop :=
  ∀ job ∈ store.jobs, job.claimOwner = some owner →
    ∀ lease, job.leaseUntil = some lease → ∀ now, late now → lease ≤ now

theorem Lapsed.unowned (h : Lapsed owner late store) {now : Int}
    (hlate : late now) (jobId : Nat) : store.owned jobId owner now = false := by
  by_contra howned
  obtain ⟨job, hjob, hvalid⟩ :=
    List.any_eq_true.mp (Bool.not_eq_false _ ▸ howned)
  simp only [Bool.and_eq_true, beq_iff_eq] at hvalid
  obtain ⟨lease, hlease, hlater⟩ := (Option.any_eq_true _ _).mp hvalid.2
  have hexpired := h job hjob hvalid.1.2 lease hlease now hlate
  rw [decide_eq_true_eq] at hlater
  omega

/-- Another worker touches no row of the owner. -/
theorem WorkerChange.keeps_other (h : Sound store) {other : String}
    (hne : other ≠ owner) (hchange : WorkerChange other store phase store') :
    ∀ job ∈ store'.jobs, job.claimOwner = some owner → job ∈ store.jobs := by
  -- The row a transaction changes belongs to the other worker.
  have hforeign : ∀ {jobId : Nat} {now : Int} {guard : Job → Bool}
      {change : Job → Job}, store.owned jobId other now = true →
      (∀ job, guard job = true → job.id = jobId) →
      (∀ job, (change job).claimOwner = job.claimOwner ∨
        (change job).claimOwner = none) →
      ∀ job ∈ updateWhere guard change store.jobs,
        job.claimOwner = some owner → job ∈ store.jobs := by
    intro jobId now guard change howned hguard hclaim job hjob howner
    obtain ⟨old, hold, rfl⟩ := List.mem_map.mp hjob
    obtain ⟨mine, hmine, hid, hother⟩ := owned_job howned
    cases hhit : guard old with
    | false =>
        rw [if_neg Bool.false_ne_true]
        exact hold
    | true =>
        have hsame := h.keyed.eq_of_key hold hmine
          ((hguard old hhit).trans hid.symm)
        rw [hhit, if_pos rfl] at howner
        rcases hclaim old with hkept | hnone
        · rw [hkept, hsame, hother] at howner
          exact absurd (Option.some.inj howner) hne
        · rw [hnone] at howner
          exact nomatch howner
  cases hchange with
  | same => exact fun job hjob _ => hjob
  | fence textChars now hfence =>
      obtain ⟨howned, -, rfl⟩ := fence_cases hfence
      refine hforeign howned (fun job hjob => ?_) fun _ => .inl rfl
      rw [Bool.and_eq_true, beq_iff_eq] at hjob
      exact hjob.1
  | track trackId now htrack =>
      obtain ⟨howned, rfl⟩ := track_cases htrack
      exact hforeign howned (fun job hjob => beq_iff_eq.mp hjob)
        fun _ => .inl rfl
  | settle settlement now hsettle =>
      obtain ⟨howned, operations, rfl⟩ := settle_cases hsettle
      exact hforeign howned (fun job hjob => beq_iff_eq.mp hjob)
        fun _ => .inr rfl
  | publish publication now hpublish =>
      obtain ⟨howned, document, -, -, -, hjobs⟩ := publish_cases hpublish
      rw [hjobs]
      exact hforeign howned (fun job hjob => beq_iff_eq.mp hjob)
        fun _ => .inr rfl

/-- Actions that leave a lapsed owner lapsed: it claims nothing, and its own
transactions start at late times. -/
def Late (owner : String) (late : Int → Prop) : Action → Prop
  | .claim claimer _ _ => claimer ≠ owner
  | .worker worker action => worker = owner →
      ∀ now, action.time = some now → late now
  | _ => True

theorem Lapsed.step (h : Lapsed owner late state.store)
    (hsound : Sound state.store) {action : Action}
    (hlate : Late owner late action) :
    Lapsed owner late (machine.next state action).store := by
  have hsame : ∀ {other : Store}, other.jobs = state.store.jobs →
      Lapsed owner late other := by
    intro other hjobs job hjob
    rw [hjobs] at hjob
    exact h job hjob
  have hinsert : ∀ {other : Store} {job : Job}, job.claimOwner = none →
      other.jobs = state.store.jobs ++ [job] → Lapsed owner late other := by
    intro other job hfree hjobs job' hjob' howner
    rw [hjobs] at hjob'
    rcases List.mem_append.mp hjob' with hold | hnew
    · exact h job' hold howner
    · rw [List.mem_singleton.mp hnew, hfree] at howner
      exact nomatch howner
  have hchange := step_change state action
  generalize (machine.next state action).store = store' at hchange ⊢
  cases hchange with
  | same => exact h
  | create hcreate => exact hinsert rfl (create_cases hcreate).2.2.2.1
  | reindex hreindex =>
      rcases prepareReindex_cases hreindex with hsame | ⟨document, -, -, -, -,
        hjobs, -⟩
      · rw [hsame]
        exact h
      · exact hinsert rfl hjobs
  | claim hclaim =>
      obtain ⟨found, -, -, -, hstore⟩ := claim_cases hclaim
      rw [hstore]
      intro job' hjob' howner
      obtain ⟨old, hold, rfl⟩ := List.mem_map.mp hjob'
      split at howner
      · exact absurd (Option.some.inj howner) hlate
      · next hother =>
          rw [if_neg hother]
          exact h old hold howner
  | @worker worker phase action hphase =>
      by_cases hmine : worker = owner
      · have hunchanged : (work state.store worker phase action).1 =
            state.store :=
          work_unowned fun now hnow => by
            rw [hmine]
            exact h.unowned (hlate hmine now hnow) phase.job.id
        rw [hunchanged]
        exact h
      · have hkept := (work_change state.store worker phase
          action).keeps_other hsound hmine
        intro job hjob howner
        exact h job (hkept job hjob howner) howner
  | request id action => exact hsame (request_change _ _ _).jobs
  | backfill employeeId => exact hsame (backfillReady_jobs employeeId)
  | setPolicy employeeId enabled revoke =>
      exact hsame (setPolicy_jobs employeeId enabled revoke)

/-- The run rule: a lapsed owner that claims nothing stays lapsed. -/
theorem Lapsed.run {last : List Action} (h : Lapsed owner late state.store)
    (hsound : Sound state.store)
    (hlate : ∀ action ∈ last, Late owner late action) :
    Lapsed owner late (machine.run state last).store := by
  induction last generalizing state with
  | nil => exact h
  | cons action rest ih =>
      exact ih (h.step hsound (hlate action List.mem_cons_self))
        (hsound.step action)
        fun other hother => hlate other (List.mem_cons_of_mem action hother)

/-- A late action of the owner changes nothing. -/
theorem Lapsed.worker {owner : String} {late : Int → Prop}
    (h : Lapsed owner late state.store) {action : WorkerAction}
    (hlate : Late owner late (.worker owner action)) :
    (machine.next state (.worker owner action)).store = state.store := by
  change (Knowledge.step state _).1.store = state.store
  rw [Knowledge.step]
  split
  · rfl
  · next phase hphase =>
      exact work_unowned fun now hnow =>
        h.unowned (hlate rfl now hnow) phase.job.id

/-- Every lease of the owner has run out by the time. -/
def Expired (owner : String) (time : Int) (store : Store) : Prop :=
  ∀ job ∈ store.jobs, job.claimOwner = some owner →
    ∀ lease, job.leaseUntil = some lease → lease ≤ time

/-- The document's jobs are claimed by somebody else. -/
def TakenOver (owner : String) (store : Store) : Prop :=
  ∃ job ∈ store.jobs, ∃ other, job.claimOwner = some other ∧ other ≠ owner

theorem Expired.lapsed {time : Int} (h : Expired owner time store) :
    Lapsed owner (time ≤ ·) store :=
  fun job hjob howner lease hlease _ hlate =>
    Int.le_trans (h job hjob howner lease hlease) hlate

theorem TakenOver.lapsed (hsound : Sound store) (h : TakenOver owner store) :
    Lapsed owner (fun _ => True) store := by
  obtain ⟨taken, htaken, other, hother, hne⟩ := h
  intro job hjob howner
  -- Both are the newest job.
  have hnewest := hsound.newest taken htaken (by rw [hother]; rfl)
  have hsame := hsound.newest job hjob (by rw [howner]; rfl)
  rw [hnewest] at hsame
  rw [Option.some.inj hsame, howner] at hother
  exact absurd (Option.some.inj hother).symm hne

/-! ### Publication -/

/-- Of the transactions of a worker only the publication leaves the document
ready. -/
theorem WorkerChange.ready (h : Sound store)
    (hchange : WorkerChange owner store phase store')
    (hframe : store'.document ≠ store.document)
    (hready : ∀ document, store'.document = some document →
      document.status = .ready) :
    ∃ job published, Store.newest store.jobs = some job ∧
      job.status ≠ .done ∧ Store.newest store'.jobs = some published ∧
      published.id = job.id ∧ published.status = .done := by
  cases hchange with
  | same => exact absurd rfl hframe
  | fence textChars now hfence =>
      obtain ⟨-, -, rfl⟩ := fence_cases hfence
      cases hdocument : store.document with
      | none =>
          rw [hdocument] at hframe
          exact absurd rfl hframe
      | some document =>
          have hstatus := hready _ (by rw [hdocument]; rfl)
          cases hstatus
  | track trackId now htrack =>
      obtain ⟨-, rfl⟩ := track_cases htrack
      exact absurd rfl hframe
  | settle settlement now hsettle =>
      obtain ⟨-, operations, rfl⟩ := settle_cases hsettle
      cases hdocument : store.document with
      | none =>
          rw [hdocument] at hframe
          exact absurd rfl hframe
      | some document =>
          have hstatus := hready _ (by rw [hdocument]; rfl)
          rw [Store.settledDocument] at hstatus
          dsimp only at hstatus
          split at hstatus <;> cases hstatus
  | publish publication now hpublish =>
      obtain ⟨howned, document, -, -, -, hjobs⟩ := publish_cases hpublish
      obtain ⟨job, hnewest, hid, -, hopen, -⟩ := h.owned howned
      refine ⟨job, Store.publishedJob publication now job, hnewest, hopen, ?_,
        rfl, rfl⟩
      have hkept := newest_updateWhere (·.id == phase.job.id)
        (fun job => (rfl :
          (Store.publishedJob publication now job).id = job.id))
        (fun job => (rfl : (Store.publishedJob publication now
          job).createdAt = job.createdAt)) store.jobs
      rw [hjobs, hkept, hnewest, Option.map_some,
        if_pos (beq_iff_eq.mpr hid)]

/-- The document becomes ready only with its newest job. -/
theorem ready_step (h : Sound state.store) {action : Action}
    (hbefore : state.store.isReady = false)
    (hafter : (machine.next state action).store.isReady = true) :
    ∃ job published, Store.newest state.store.jobs = some job ∧
      job.status ≠ .done ∧
      Store.newest (machine.next state action).store.jobs = some published ∧
      published.id = job.id ∧ published.status = .done := by
  have hchange := step_change state action
  generalize (machine.next state action).store = store' at hchange hafter ⊢
  have hframe : store'.document ≠ state.store.document := by
    intro hsame
    rw [Store.isReady, hsame, ← Store.isReady, hbefore] at hafter
    exact nomatch hafter
  have hstatus : ∀ document, store'.document = some document →
      document.status = .ready := by
    intro document hdocument
    rw [Store.isReady, hdocument] at hafter
    exact beq_iff_eq.mp hafter
  cases hchange with
  | same => exact absurd rfl hframe
  | create hcreate =>
      have hready := hstatus _ (create_cases hcreate).2.2.1
      simp only at hready
      split at hready <;> exact nomatch hready
  | reindex hreindex =>
      rcases prepareReindex_cases hreindex with rfl | ⟨document, -, -, -,
        hdocument, -, -⟩
      · exact absurd rfl hframe
      · exact nomatch hstatus _ hdocument
  | claim hclaim =>
      obtain ⟨found, -, -, -, rfl⟩ := claim_cases hclaim
      exact absurd rfl hframe
  | worker action hphase =>
      exact (work_change _ _ _ action).ready h hframe hstatus
  | request id action =>
      have hrequest := request_change state.store
        (valueAt id state.requests) action
      generalize (request state.store _ action).1 = store'
        at hrequest hframe hstatus ⊢
      cases hrequest with
      | receipts operations => exact absurd rfl hframe
      | deleting _ _ _ hmoved =>
          obtain ⟨document, -, -, rfl⟩ := transition_cases hmoved
          exact nomatch hstatus _ rfl
      | revoke => exact absurd rfl hframe
      | deleted _ _ hdeleted =>
          obtain ⟨document, -, -, rfl⟩ := transition_cases hdeleted
          exact nomatch hstatus _ rfl
  | backfill employeeId =>
      exact absurd (backfillReady_document employeeId) hframe
  | setPolicy employeeId enabled revoke =>
      exact absurd (setPolicy_document employeeId enabled revoke) hframe

/-! ### The contract of recovery -/

/-- Over any run from the empty store: a job is submitted at most once; a
worker whose leases have run out, or whose document was taken over, changes
nothing any more unless it claims again; and the document becomes ready in the
action in which its newest job becomes done. -/
theorem recovery_fenced (actions : List Action) :
    (∀ jobId, (machine.trace State.empty actions).count
      (.submitted jobId) ≤ 1) ∧
    (∀ first last owner time action, actions = first ++ last →
      Expired owner time (machine.run State.empty first).store →
      (∀ other ∈ last, Late owner (time ≤ ·) other) →
      Late owner (time ≤ ·) (.worker owner action) →
      (machine.next (machine.run State.empty actions)
        (.worker owner action)).store =
          (machine.run State.empty actions).store) ∧
    (∀ first last owner action, actions = first ++ last →
      TakenOver owner (machine.run State.empty first).store →
      (∀ other ∈ last, Late owner (fun _ => True) other) →
      (machine.next (machine.run State.empty actions)
        (.worker owner action)).store =
          (machine.run State.empty actions).store) ∧
    ∀ action,
      (machine.run State.empty actions).store.isReady = false →
      (machine.next (machine.run State.empty actions)
        action).store.isReady = true →
      ∃ job published,
        Store.newest (machine.run State.empty actions).store.jobs =
          some job ∧ job.status ≠ .done ∧
        Store.newest (machine.next (machine.run State.empty actions)
          action).store.jobs = some published ∧
        published.id = job.id ∧ published.status = .done := by
  refine ⟨(posted_run actions).once, ?_, ?_, ?_⟩
  · intro first last owner time action hsplit hexpired hlast haction
    have hlapsed := hexpired.lapsed.run (sound_run first) hlast
    rw [hsplit, machine.run_append]
    exact hlapsed.worker haction
  · intro first last owner action hsplit htaken hlast
    have hlapsed := (htaken.lapsed (sound_run first)).run (sound_run first)
      hlast
    rw [hsplit, machine.run_append]
    exact hlapsed.worker fun _ _ _ => trivial
  · exact fun action hbefore hafter =>
      ready_step (sound_run actions) hbefore hafter

namespace RecoveryWitness

/-- The first worker submits and stalls; the second one takes over. -/
def first : List Action :=
  [.create "d" true 1 0, .claim "w1" 1 0, .worker "w1" .readDocument,
    .worker "w1" .checkGenerations, .worker "w1" (.fence 5 10),
    .worker "w1" (.submit (some "t")), .claim "w2" 1 100]

/-- The second worker reconciles and publishes. -/
def last : List Action :=
  [.worker "w2" .readDocument, .worker "w2" .checkGenerations,
    .worker "w2" (.reconcile ⟨.processed, some "r", some 3⟩ ["e"])]

/-- The first worker finds its claim gone. -/
theorem recovery_fenced_takeover :
    (machine.trace State.empty (first ++ last)).count (.submitted 1) ≤ 1 ∧
    (machine.next (machine.run State.empty (first ++ last))
      (.worker "w1" (.recordTrack 101))).store =
        (machine.run State.empty (first ++ last)).store ∧
    ∃ job published,
      Store.newest (machine.run State.empty (first ++ last)).store.jobs =
        some job ∧ job.status ≠ .done ∧
      Store.newest (machine.next (machine.run State.empty (first ++ last))
        (.worker "w2" (.publish 120))).store.jobs = some published ∧
      published.id = job.id ∧ published.status = .done := by
  obtain ⟨honce, -, htaken, hready⟩ := recovery_fenced (first ++ last)
  refine ⟨honce 1, ?_, hready _ (by decide) (by decide)⟩
  refine htaken first last "w1" _ rfl
    ⟨_, List.mem_cons_self, "w2", rfl, by decide⟩ ?_
  intro other hother
  simp only [last, List.mem_cons, List.not_mem_nil, or_false] at hother
  rcases hother with rfl | rfl | rfl <;> exact fun _ _ _ => trivial

end RecoveryWitness

end AiTeam.Knowledge
