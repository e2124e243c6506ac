/-
What the transactions on one document keep true: only its newest job can be
claimed, and once the document is settled nothing is claimed or claimable.
-/
import AiTeam.Knowledge.Service

namespace AiTeam.Knowledge

/-! ### The newest job -/

variable {job : Job} {jobs : List Job} {change : Job → Job}
  {document : Option Document} {now : Int} {jobId : Nat} {owner : String}
  {settlement : Store.Settlement}

theorem newest_mem (h : Store.newest jobs = some job) : job ∈ jobs :=
  List.mem_of_find?_eq_some h

/-- Changes that keep ids and creation times keep the newest job. -/
theorem newest_updateWhere (guard : Job → Bool)
    (hid : ∀ job, (change job).id = job.id)
    (hcreated : ∀ job, (change job).createdAt = job.createdAt)
    (jobs : List Job) :
    Store.newest (updateWhere guard change jobs) =
      (Store.newest jobs).map fun job =>
        if guard job then change job else job := by
  have hid' : ∀ job : Job,
      (if guard job then change job else job).id = job.id := by
    intro job
    split
    · exact hid job
    · rfl
  have hcreated' : ∀ job : Job,
      (if guard job then change job else job).createdAt = job.createdAt := by
    intro job
    split
    · exact hcreated job
    · rfl
  rw [updateWhere, Store.newest, Store.newest, List.find?_map]
  congr 1
  refine congrArg (fun hit => jobs.find? hit) (funext fun job => ?_)
  simp only [Function.comp_def, List.all_map, hid', hcreated']

/-! ### The invariant -/

/-- Only the newest job is ever claimed; a document that may be reindexed has
no claimed and no claimable job. -/
structure Sound (store : Store) : Prop where
  keyed : Keyed Job.id store.jobs
  newest : ∀ job ∈ store.jobs, job.claimOwner.isSome →
    Store.newest store.jobs = some job
  settled : ∀ document, store.document = some document →
    Store.reindexable document = true →
      (∀ job ∈ store.jobs, job.claimOwner = none) ∧
        ∀ job, Store.newest store.jobs = some job →
          Store.unsettled job = false
  done : ∀ job ∈ store.jobs, job.status = .done →
    job.claimOwner = none ∧ job.submissionState = .terminal
  absent : store.document = none → store.jobs = []

theorem sound_empty : Sound State.empty.store where
  keyed := Keyed.nil _
  newest _ hjob := nomatch hjob
  settled _ hdocument := nomatch hdocument
  done _ hjob := nomatch hjob
  absent _ := rfl

variable {store store' : Store}

/-- The document is not to be reindexed after the step. -/
theorem settled_of_not
    (h : ∀ found, document = some found →
      Store.reindexable found = false) :
    ∀ found, document = some found → Store.reindexable found = true →
      (∀ job ∈ jobs, job.claimOwner = none) ∧
        ∀ job, Store.newest jobs = some job →
          Store.unsettled job = false := by
  intro found hfound hready
  rw [h found hfound] at hready
  exact nomatch hready

theorem owned_job (h : store.owned jobId owner now = true) :
    ∃ job ∈ store.jobs, job.id = jobId ∧ job.claimOwner = some owner := by
  obtain ⟨job, hjob, howned⟩ := List.any_eq_true.mp h
  simp only [Bool.and_eq_true, beq_iff_eq] at howned
  exact ⟨job, hjob, howned.1.1, howned.1.2⟩

/-- An owned job is the newest one, and the only claimed one. -/
theorem Sound.owned (h : Sound store)
    (howned : store.owned jobId owner now = true) :
    ∃ job, Store.newest store.jobs = some job ∧ job.id = jobId ∧
      job.claimOwner = some owner ∧ job.status ≠ .done ∧
      ∀ other ∈ store.jobs, other.claimOwner.isSome → other = job := by
  obtain ⟨job, hjob, hid, hclaim⟩ := owned_job howned
  have hnewest := h.newest job hjob (by rw [hclaim]; rfl)
  refine ⟨job, hnewest, hid, hclaim, fun hdone => ?_, fun other hother hsome =>
    ?_⟩
  · have hnone := (h.done job hjob hdone).1
    rw [hclaim] at hnone
    exact nomatch hnone
  · have hsame := h.newest other hother hsome
    exact Option.some.inj (hsame.symm.trans hnewest)

theorem Sound.not_reindexable (h : Sound store)
    (howned : store.owned jobId owner now = true) :
    ∀ document, store.document = some document →
      Store.reindexable document = false := by
  intro document hdocument
  obtain ⟨job, hjob, -, hclaim⟩ := owned_job howned
  by_contra hready
  have hnone := (h.settled document hdocument
    (Bool.not_eq_false _ ▸ hready)).1 job hjob
  rw [hclaim] at hnone
  exact nomatch hnone

/-! ### Jobs under a claim -/

/-- The heartbeat transactions: the claimed job changes and stays claimed. -/
theorem Sound.advance (h : Sound store)
    (howned : store.owned jobId owner now = true) {guard : Job → Bool}
    (hguard : ∀ job, guard job = true → job.id = jobId)
    (hid : ∀ job, (change job).id = job.id)
    (hcreated : ∀ job, (change job).createdAt = job.createdAt)
    (hclaim : ∀ job, (change job).claimOwner = job.claimOwner)
    (hstatus : ∀ job, (change job).status = job.status ∨
      (change job).status ≠ .done)
    (hdocument : ∀ found, document = some found →
      Store.reindexable found = false)
    (hsome : document = none → store.document = none) :
    Sound { store with
      jobs := updateWhere guard change store.jobs, document } where
  keyed := h.keyed.updateWhere guard change hid
  newest := by
    intro job hjob hclaimed
    obtain ⟨old, hold, rfl⟩ := List.mem_map.mp hjob
    have hbefore : old.claimOwner.isSome := by
      revert hclaimed
      split
      · rw [hclaim]
        exact id
      · exact id
    rw [newest_updateWhere guard hid hcreated, h.newest old hold hbefore]
    rfl
  settled := settled_of_not hdocument
  done := by
    intro job hjob hdone
    obtain ⟨old, hold, rfl⟩ := List.mem_map.mp hjob
    cases hhit : guard old with
    | false =>
        rw [hhit] at hdone
        exact h.done old hold hdone
    | true =>
        rw [hhit, if_pos rfl] at hdone
        -- The owned job is not done.
        obtain ⟨job, hnewest, hjobId, -, hopen, -⟩ := h.owned howned
        have hsame : old = job := h.keyed.eq_of_key hold (newest_mem hnewest)
          ((hguard old hhit).trans hjobId.symm)
        rcases hstatus old with hkept | hother
        · rw [hkept, hsame] at hdone
          exact absurd hdone hopen
        · exact absurd hdone hother
  absent := fun hnone => by
    rw [h.absent (hsome hnone)]
    rfl

/-- The final transactions: the claim ends, and the job is closed if the
document may be reindexed. -/
theorem Sound.close (h : Sound store)
    (howned : store.owned jobId owner now = true) {bindings : List Binding}
    {operations : List Operation} (hid : ∀ job, (change job).id = job.id)
    (hcreated : ∀ job, (change job).createdAt = job.createdAt)
    (hclaim : ∀ job, (change job).claimOwner = none)
    (hdone : ∀ job, (change job).status = .done →
      (change job).submissionState = .terminal)
    (hclosed : ∀ found, document = some found →
      Store.reindexable found = true →
        ∀ job, Store.unsettled (change job) = false)
    (hsome : document = none → store.document = none) :
    Sound ⟨document, updateWhere (·.id == jobId) change store.jobs, bindings,
      operations⟩ := by
  obtain ⟨job, hnewest, hjobId, -, -, honly⟩ := h.owned howned
  -- Nobody else had a claim, and this one is gone.
  have hnone : ∀ job' ∈ updateWhere (·.id == jobId) change store.jobs,
      job'.claimOwner = none := by
    intro job' hjob'
    obtain ⟨old, hold, rfl⟩ := List.mem_map.mp hjob'
    by_cases hsame : old.id = jobId
    · rw [if_pos (beq_iff_eq.mpr hsame)]
      exact hclaim old
    · rw [if_neg fun htrue => hsame (beq_iff_eq.mp htrue)]
      cases hold' : old.claimOwner with
      | none => rfl
      | some other =>
          have heq := honly old hold (by rw [hold']; rfl)
          rw [heq] at hsame
          exact absurd hjobId hsame
  refine ⟨h.keyed.updateWhere _ change hid, ?_, ?_, ?_, ?_⟩
  · intro job' hjob' hclaimed
    rw [hnone job' hjob'] at hclaimed
    exact nomatch hclaimed
  · intro found hfound hready
    refine ⟨hnone, fun last hlast => ?_⟩
    change Store.newest (updateWhere (·.id == jobId) change store.jobs) =
      some last at hlast
    rw [newest_updateWhere _ hid hcreated, hnewest, Option.map_some,
      if_pos (beq_iff_eq.mpr hjobId)] at hlast
    rw [← Option.some.inj hlast]
    exact hclosed found hfound hready job
  · intro job' hjob' hfinished
    refine ⟨hnone job' hjob', ?_⟩
    obtain ⟨old, hold, rfl⟩ := List.mem_map.mp hjob'
    cases hhit : old.id == jobId with
    | true =>
        simp only [hhit, if_true] at hfinished ⊢
        exact hdone old hfinished
    | false =>
        simp only [hhit, Bool.false_eq_true, if_false] at hfinished ⊢
        exact (h.done old hold hfinished).2
  · intro habsent
    change updateWhere _ change store.jobs = []
    rw [h.absent (hsome habsent)]
    rfl

/-! ### The transactions -/

/-- Receipts and bindings are not part of it. -/
theorem Sound.frame (h : Sound store) (bindings : List Binding)
    (operations : List Operation) :
    Sound { store with bindings, operations } :=
  ⟨h.keyed, h.newest, h.settled, h.done, h.absent⟩

theorem lookup_fresh {id : Nat} (h : jobs.all (·.id != id) = true) :
    lookup Job.id id jobs = none := by
  rw [lookup, List.find?_eq_none]
  intro job hjob
  simpa using List.all_eq_true.mp h job hjob

theorem create_cases {documentId : String} {parsing : Bool}
    (h : store.create documentId parsing jobId now = some store') :
    store.document = none ∧ store.jobs.all (·.id != jobId) = true ∧
      store'.document = some ⟨documentId,
        if parsing then .parsing else .uploaded, none, none, none⟩ ∧
      store'.jobs = store.jobs ++
        [Store.insertedJob documentId jobId .parsing none now] ∧
      store'.bindings = store.bindings := by
  rw [Store.create] at h
  split at h
  · next hguard =>
      rw [Bool.and_eq_true, Option.isNone_iff_eq_none] at hguard
      rw [← Option.some.inj h]
      exact ⟨hguard.1, hguard.2, rfl, rfl, rfl⟩
  · exact nomatch h

theorem Sound.create (h : Sound store) {documentId : String} {parsing : Bool}
    (hcreate : store.create documentId parsing jobId now = some store') :
    Sound store' := by
  obtain ⟨habsent, hfresh, hdocument, hinserted, -⟩ := create_cases hcreate
  have hempty := h.absent habsent
  have hjobs : ∀ job ∈ store'.jobs,
      job = Store.insertedJob documentId jobId .parsing none now := by
    intro job hjob
    rw [hinserted, hempty] at hjob
    exact List.mem_singleton.mp hjob
  refine ⟨?_, ?_, ?_, ?_, ?_⟩
  · rw [hinserted]
    exact h.keyed.append (lookup_fresh hfresh)
  · intro job hjob hclaimed
    rw [hjobs job hjob] at hclaimed
    exact nomatch hclaimed
  · refine settled_of_not fun found hfound => ?_
    rw [← Option.some.inj (hdocument.symm.trans hfound)]
    cases parsing <;> rfl
  · intro job hjob hdone
    rw [hjobs job hjob] at hdone
    exact nomatch hdone
  · intro hnone
    rw [hdocument] at hnone
    exact nomatch hnone

/-- What a reindex that is not a replay does. -/
theorem prepareReindex_cases {key : String} {operationId : Nat}
    (h : store.prepareReindex key operationId jobId now = some store') :
    store' = store ∨ ∃ document, store.document = some document ∧
      Store.reindexable document = true ∧
      store.jobs.all (·.id != jobId) = true ∧
      store'.document = some { document with
        status := .reindexRequested
        errorCode := none
        errorMessage := none } ∧
      store'.jobs = store.jobs ++ [Store.insertedJob document.id jobId
        .reindexRequested (some operationId) now] ∧
      store'.bindings = updateWhere (·.status != .revoked)
        (fun binding => { binding with status := .stale })
        store.bindings := by
  rw [Store.prepareReindex] at h
  split at h
  · exact .inl (Option.some.inj h).symm
  · split at h
    · exact nomatch h
    · next document hdocument =>
        split at h
        · next hguard =>
            rw [Bool.and_eq_true] at hguard
            rw [← Option.some.inj h]
            exact .inr ⟨document, hdocument, hguard.1, hguard.2, rfl, rfl,
              rfl⟩
        · exact nomatch h

theorem Sound.reindex (h : Sound store) {key : String} {operationId : Nat}
    (hreindex : store.prepareReindex key operationId jobId now =
      some store') : Sound store' := by
  rcases prepareReindex_cases hreindex with rfl | ⟨document, hdocument,
    hready, hfresh, hafter, hjobs, -⟩
  · exact h
  · -- Nothing was claimed, and nothing is.
    have hnone : ∀ job ∈ store'.jobs, job.claimOwner = none := by
      intro job hjob
      rw [hjobs] at hjob
      rcases List.mem_append.mp hjob with hold | hnew
      · exact (h.settled document hdocument hready).1 job hold
      · rw [List.mem_singleton.mp hnew]
        rfl
    refine ⟨?_, ?_, ?_, ?_, ?_⟩
    · rw [hjobs]
      exact h.keyed.append (lookup_fresh hfresh)
    · intro job hjob hclaimed
      rw [hnone job hjob] at hclaimed
      exact nomatch hclaimed
    · refine settled_of_not fun found hfound => ?_
      rw [← Option.some.inj (hafter.symm.trans hfound)]
      rfl
    · intro job hjob hdone
      rw [hjobs] at hjob
      rcases List.mem_append.mp hjob with hold | hnew
      · exact h.done job hold hdone
      · rw [List.mem_singleton.mp hnew] at hdone
        exact nomatch hdone
    · intro habsent
      rw [hafter] at habsent
      exact nomatch habsent

/-- What a claim takes. -/
theorem claim_cases (h : store.claim owner jobId now = some (store', job)) :
    ∃ found, lookup Job.id jobId store.jobs = some found ∧
      Store.claimable store now found = true ∧
      job = Store.claimed owner now found ∧
      store' = { store with
        jobs := updateWhere (·.id == jobId) (Store.claimed owner now)
          store.jobs } := by
  rw [Store.claim] at h
  split at h
  · cases h
  · next found hfound =>
      split at h
      · next hclaimable =>
          obtain ⟨rfl, rfl⟩ := Prod.mk.inj (Option.some.inj h)
          exact ⟨found, hfound, hclaimable, rfl, rfl⟩
      · cases h

theorem Sound.claim (h : Sound store)
    (hclaim : store.claim owner jobId now = some (store', job)) :
    Sound store' := by
  obtain ⟨found, hfound, hclaimable, -, rfl⟩ := claim_cases hclaim
  simp only [Store.claimable, Bool.and_eq_true, decide_eq_true_eq]
    at hclaimable
  obtain ⟨⟨⟨-, hunsettled⟩, hstate⟩, hlast⟩ := hclaimable
  obtain ⟨last, hnewest, hsame⟩ := (Option.any_eq_true _ _).mp hlast
  have hmem := lookup_mem hfound
  have heq : last = found :=
    h.keyed.eq_of_key (newest_mem hnewest) hmem (eq_of_beq hsame)
  rw [heq] at hnewest
  have hid := lookup_key hfound
  refine ⟨h.keyed.updateWhere _ (Store.claimed owner now) fun _ => rfl, ?_,
    ?_, ?_, fun hnone => ?_⟩
  · intro job' hjob' hclaimed
    obtain ⟨old, hold, rfl⟩ := List.mem_map.mp hjob'
    have hafter := newest_updateWhere (·.id == jobId)
      (fun job => (rfl : (Store.claimed owner now job).id = job.id))
      (fun job => (rfl :
        (Store.claimed owner now job).createdAt = job.createdAt)) store.jobs
    change Store.newest (updateWhere (·.id == jobId)
      (Store.claimed owner now) store.jobs) = _
    rw [hafter, hnewest]
    by_cases hthis : old.id = jobId
    · have hold' : old = found :=
        h.keyed.eq_of_key hold hmem (hthis.trans hid.symm)
      rw [hold', Option.map_some]
    · rw [if_neg fun htrue => hthis (beq_iff_eq.mp htrue)] at hclaimed ⊢
      -- Another claimed job would be the newest one too.
      have hother := h.newest old hold hclaimed
      rw [hnewest] at hother
      rw [← Option.some.inj hother] at hthis
      exact absurd hid hthis
  · refine settled_of_not fun document hdocument => ?_
    by_contra hready
    have hclosed := (h.settled document hdocument
      (Bool.not_eq_false _ ▸ hready)).2 found hnewest
    rw [hunsettled] at hclosed
    exact nomatch hclosed
  · intro job' hjob' hdone
    obtain ⟨old, hold, rfl⟩ := List.mem_map.mp hjob'
    by_cases hthis : old.id = jobId
    · have hold' : old = found :=
        h.keyed.eq_of_key hold hmem (hthis.trans hid.symm)
      rw [if_pos (beq_iff_eq.mpr hthis), hold'] at hdone
      have hterminal := (h.done found hmem hdone).2
      have hfinished : found.status = .done := hdone
      rw [Store.unsettled, hfinished, hterminal] at hunsettled
      exact nomatch hunsettled
    · rw [if_neg fun htrue => hthis (beq_iff_eq.mp htrue)] at hdone ⊢
      exact h.done old hold hdone
  · rw [h.absent hnone] at hmem
    exact nomatch hmem

/-- What a fence does. -/
theorem fence_cases {textChars : Nat}
    (h : store.fenceSubmission jobId owner textChars now = some store') :
    store.owned jobId owner now = true ∧
      (∃ job ∈ store.jobs, job.id = jobId ∧
        job.submissionState = .notSubmitted) ∧
      store' = { store with
        jobs := updateWhere (fun job => job.id == jobId &&
          job.submissionState == .notSubmitted) (Store.fenced textChars now)
          store.jobs
        document := store.document.map fun document => { document with
          status := .indexing
          textChars := some textChars
          errorCode := none
          errorMessage := none } } := by
  rw [Store.fenceSubmission] at h
  split at h
  · next howned =>
      split at h
      · next hfresh =>
          obtain ⟨job, hjob, hguard⟩ := List.any_eq_true.mp hfresh
          rw [Bool.and_eq_true, beq_iff_eq, beq_iff_eq] at hguard
          exact ⟨howned, ⟨job, hjob, hguard⟩, (Option.some.inj h).symm⟩
      · exact nomatch h
  · exact nomatch h

theorem Sound.fence (h : Sound store) {textChars : Nat}
    (hfence : store.fenceSubmission jobId owner textChars now =
      some store') : Sound store' := by
  obtain ⟨howned, -, rfl⟩ := fence_cases hfence
  refine h.advance howned (fun job hjob => ?_) (fun _ => rfl)
    (fun _ => rfl) (fun _ => rfl) (fun _ => .inr ?_) ?_ ?_
  · rw [Bool.and_eq_true, beq_iff_eq] at hjob
    exact hjob.1
  · exact fun hdone => nomatch hdone
  · intro found hfound
    obtain ⟨document, -, rfl⟩ := Option.map_eq_some_iff.mp hfound
    rfl
  · exact Option.map_eq_none_iff.mp

theorem track_cases {trackId : String}
    (h : store.recordTrack jobId owner trackId now = some store') :
    store.owned jobId owner now = true ∧
      store' = { store with
        jobs := updateWhere (·.id == jobId) (fun job => { job with
          trackId := some trackId
          leaseUntil := some (now + 90) }) store.jobs } := by
  rw [Store.recordTrack] at h
  split at h
  · next howned => exact ⟨howned, (Option.some.inj h).symm⟩
  · exact nomatch h

theorem Sound.track (h : Sound store) {trackId : String}
    (htrack : store.recordTrack jobId owner trackId now = some store') :
    Sound store' := by
  obtain ⟨howned, rfl⟩ := track_cases htrack
  exact h.advance howned (fun job hjob => beq_iff_eq.mp hjob)
    (fun _ => rfl) (fun _ => rfl) (fun _ => rfl) (fun _ => .inl rfl)
    (h.not_reindexable howned) id

theorem settle_reindexable {attempts : Nat} {document : Document}
    (h : Store.reindexable
      (Store.settledDocument settlement attempts document) = true) :
    settlement.state = .failed := by
  by_contra hstate
  have hunknown : settlement.unknownTerminal attempts = true := by
    by_contra hopen
    simp only [Store.reindexable, Store.settledDocument,
      Store.Settlement.closes, Bool.not_eq_true] at h hopen
    simp [hopen, hstate] at h
  have hcode : settlement.code attempts = some submissionUnknown := by
    have hclass := settlement.unknown_code (by
      simp only [Store.Settlement.unknownTerminal, Bool.and_eq_true,
        beq_iff_eq] at hunknown
      exact hunknown.1)
    rcases hclass with hnone | hsame
    · simp [Store.Settlement.code, hnone, hunknown]
    · simp [Store.Settlement.code, hsame]
  simp [Store.reindexable, Store.settledDocument, hcode] at h

theorem settle_cases (h : store.settle job owner settlement now = some store') :
    store.owned job.id owner now = true ∧ ∃ operations,
      store' = { store with
        jobs := updateWhere (·.id == job.id)
          (Store.settledJob settlement job.attempts now) store.jobs
        document := store.document.map
          (Store.settledDocument settlement job.attempts)
        operations } := by
  rw [Store.settle] at h
  split at h
  · next howned => exact ⟨howned, _, (Option.some.inj h).symm⟩
  · exact nomatch h

theorem Sound.settle (h : Sound store)
    (hsettle : store.settle job owner settlement now = some store') :
    Sound store' := by
  obtain ⟨howned, operations, rfl⟩ := settle_cases hsettle
  refine h.close howned (fun _ => rfl) (fun _ => rfl) (fun _ => rfl)
    (fun job hdone => ?_) (fun found hfound hready job => ?_)
    Option.map_eq_none_iff.mp
  · simp only [Store.settledJob] at hdone
    split at hdone <;> exact nomatch hdone
  · obtain ⟨document, -, rfl⟩ := Option.map_eq_some_iff.mp hfound
    have hfailed := settle_reindexable hready
    simp [Store.unsettled, Store.settledJob, Store.Settlement.closes,
      hfailed]

/-- What a publication does. -/
theorem publish_cases {publication : Store.Publication}
    (h : store.publishReady job owner publication now = some store') :
    store.owned job.id owner now = true ∧ ∃ document,
      store.document = some document ∧
      (document.status = .indexing ∨ document.status = .failed) ∧
      store'.document = some { document with
        status := .ready
        textChars := some publication.textChars
        errorCode := none
        errorMessage := none } ∧
      store'.jobs = updateWhere (·.id == job.id)
        (Store.publishedJob publication now) store.jobs := by
  rw [Store.publishReady] at h
  split at h
  · next howned =>
      split at h
      · cases h
      · next document hdocument =>
          split at h
          · next hstatus =>
              rw [← Option.some.inj h]
              exact ⟨howned, document, hdocument, hstatus, rfl, rfl⟩
          · cases h
  · cases h

theorem Sound.publish (h : Sound store) {publication : Store.Publication}
    (hpublish : store.publishReady job owner publication now =
      some store') : Sound store' := by
  obtain ⟨howned, document, -, -, hdocument, hjobs⟩ :=
    publish_cases hpublish
  have hsound : Sound ⟨store'.document, store'.jobs, store'.bindings,
      store'.operations⟩ := by
    rw [hjobs]
    refine h.close howned (fun _ => rfl) (fun _ => rfl) (fun _ => rfl)
      (fun _ _ => rfl) (fun _ _ _ _ => rfl) fun hnone => ?_
    rw [hdocument] at hnone
    exact nomatch hnone
  exact hsound

theorem transition_cases {expected : List DocumentStatus}
    {status : DocumentStatus}
    (h : store.transitionStatus expected status = some store') :
    ∃ document, store.document = some document ∧
      document.status ∈ expected ∧
      store' = { store with document := some { document with
        status
        errorCode := none
        errorMessage := none } } := by
  rw [Store.transitionStatus] at h
  split at h
  · exact nomatch h
  · next document hdocument =>
      split at h
      · next hexpected =>
          exact ⟨document, hdocument, hexpected, (Option.some.inj h).symm⟩
      · exact nomatch h

/-- Deletion leaves the jobs alone. -/
theorem Sound.transition (h : Sound store) {expected : List DocumentStatus}
    {status : DocumentStatus}
    (hstatus : status = .deleting ∨ status = .deleted)
    (htransition : store.transitionStatus expected status = some store') :
    Sound store' := by
  obtain ⟨document, -, -, rfl⟩ := transition_cases htransition
  refine ⟨h.keyed, h.newest, settled_of_not fun found hfound => ?_, h.done,
    fun hnone => nomatch hnone⟩
  rw [← Option.some.inj hfound]
  rcases hstatus with rfl | rfl <;> rfl

end AiTeam.Knowledge
