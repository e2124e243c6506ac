/-
What requests, policy writers and cleanup workers keep true of the
acceptances, of the policies requests hold, and of the bank guard.
-/
import Mathlib.Data.List.TakeWhile
import AiTeam.Retention.Service

namespace AiTeam.Retention

variable {R : Type} {runtime : Runtime}

/-! ### The trace -/

variable {days : Nat} {documentId : String} {row job : Row} {now : Int}
  {operation : OperationState} {reply : Reply} {report : Store.Finish}
  {policy : Projection}

theorem mem_daysSince_append {past more : List Event}
    (h : days ∈ daysSince documentId (past ++ more)) :
    days ∈ daysSince documentId past ∨ days ∈ more.filterMap Event.days := by
  rw [daysSince, List.dropWhile_append] at h
  split at h
  · right
    exact (List.Sublist.filterMap _ (List.dropWhile_sublist _)).subset h
  · rw [List.filterMap_append, List.mem_append] at h
    exact h

theorem lastAttempt_append (documentId : String) (past more : List Event) :
    lastAttempt documentId (past ++ more) =
      (lastAttempt documentId more).or (lastAttempt documentId past) := by
  simp only [lastAttempt, List.filterMap_append, List.getLast?_append]

theorem lastShortening_append (past more : List Event) :
    lastShortening (past ++ more) =
      (lastShortening more).or (lastShortening past) := by
  simp only [lastShortening, List.filterMap_append, List.getLast?_append]

/-- Days in force are known from some event. -/
theorem days_of_daysSince {past : List Event}
    (h : days ∈ daysSince documentId past) :
    ∃ event ∈ past, event.days = some days := by
  obtain ⟨event, hevent, hdays⟩ := List.mem_filterMap.mp h
  exact ⟨event, (List.dropWhile_sublist _).subset hevent, hdays⟩

theorem accepts_of_daysSince {past : List Event}
    (h : days ∈ daysSince documentId past) :
    ∃ event ∈ past, event.accepts documentId = true := by
  by_contra hnone
  have hdrop : past.dropWhile (fun event => !event.accepts documentId) = [] :=
    by
      rw [List.dropWhile_eq_nil_iff]
      intro event hevent
      cases haccepts : event.accepts documentId with
      | true => exact absurd ⟨event, hevent, haccepts⟩ hnone
      | false => rfl
  rw [daysSince, hdrop] at h
  exact nomatch h

/-! ### The invariant -/

/-- The stored expiry respects a retention of so many days. -/
def Within (row : Row) (days : Nat) : Prop :=
  ∃ expires, row.expiresAt = some expires ∧
    expires ≤ row.acceptedAt + days * day

/-- The next attempt is no later than the expiry, the last attempt plus 300
seconds, or the last policy write with a finite retention. -/
def Scheduled (row : Row) (past : List Event) : Prop :=
  ∀ expires, row.expiresAt = some expires →
    row.nextAttempt ≤ expires ∨
      (∃ time, lastAttempt row.documentId past = some time ∧
        row.nextAttempt ≤ time + 300) ∨
      ∃ time, lastShortening past = some time ∧ row.nextAttempt ≤ time

structure Inv (state : State R) (past : List Event) : Prop where
  keyed : Keyed Row.documentId state.store.rows
  known : ∀ event ∈ past, ∀ documentId, event.accepts documentId = true →
    ∃ row ∈ state.store.rows, row.documentId = documentId
  unclaimed : ∀ row ∈ state.store.rows, row.cleanupState = .cleaned →
    row.claimOwner = none
  current : ∀ days, inForce state.store = some days →
    state.store.guarded = true ∧ ∀ row ∈ state.store.rows,
      row.cleanupState ≠ .cleaned → Within row days
  held : ∀ policy ∈ state.held, ∃ setting,
    state.store.setting = some setting ∧
      policy.revision ≤ setting.revision ∧
      (policy.revision = setting.revision →
        policy.retentionDays = setting.policy.retentionDays)
  finite : ∀ event ∈ past, event.days.isSome → state.store.guarded = true
  expiring : ∀ row ∈ state.store.rows, row.expiresAt.isSome →
    state.store.guarded = true
  bounded : ∀ row ∈ state.store.rows, row.cleanupState ≠ .cleaned →
    ∀ days ∈ daysSince row.documentId past, Within row days
  scheduled : ∀ row ∈ state.store.rows, row.cleanupState ≠ .cleaned →
    Scheduled row past

theorem inv_empty : Inv (State.empty : State R) [] where
  keyed := Keyed.nil _
  known _ hevent := nomatch hevent
  unclaimed _ hrow := nomatch hrow
  current _ hdays := nomatch hdays
  held _ hpolicy := nomatch hpolicy
  finite _ hevent := nomatch hevent
  expiring _ hrow := nomatch hrow
  bounded _ hrow := nomatch hrow
  scheduled _ hrow := nomatch hrow

variable {state : State R} {past : List Event}

/-! ### Workers -/

/-- What a worker's transaction may make of a row. -/
structure Upkeep (past : List Event) (row row' : Row) : Prop where
  documentId : row'.documentId = row.documentId
  acceptedAt : row'.acceptedAt = row.acceptedAt
  expiresAt : row'.expiresAt = row.expiresAt
  opened : row'.cleanupState ≠ .cleaned → row.cleanupState ≠ .cleaned
  cleaned : row'.cleanupState = .cleaned → row'.claimOwner = none
  scheduled : row'.cleanupState ≠ .cleaned → Scheduled row' past

theorem Upkeep.within {row' : Row} (h : Upkeep past row row')
    (hwithin : Within row days) : Within row' days := by
  obtain ⟨expires, hexpires, hle⟩ := hwithin
  refine ⟨expires, h.expiresAt.trans hexpires, ?_⟩
  rw [h.acceptedAt]
  exact hle

/-- The workers' transactions keep the invariant. -/
theorem Inv.upkeep (h : Inv state past) {guard : Row → Bool}
    {change : Row → Row} {emitted : List Event}
    (hkey : ∀ row, (change row).documentId = row.documentId)
    (hrow : ∀ row ∈ state.store.rows, Upkeep (past ++ emitted) row
      (if guard row then change row else row))
    (hdays : ∀ event ∈ emitted, event.days = none ∧
      ∀ documentId, event.accepts documentId = false)
    (jobs : List (String × Job)) :
    Inv { state with
        store := { state.store with
          rows := updateWhere guard change state.store.rows }
        jobs } (past ++ emitted) where
  keyed := h.keyed.updateWhere guard change hkey
  known := by
    intro event hevent documentId haccepts
    rcases List.mem_append.mp hevent with hold | hnew
    · obtain ⟨row, hmem, hdocument⟩ := h.known event hold documentId haccepts
      exact ⟨_, List.mem_map_of_mem hmem,
        (hrow row hmem).documentId.trans hdocument⟩
    · rw [(hdays event hnew).2 documentId] at haccepts
      exact nomatch haccepts
  unclaimed := by
    intro row' hrow'
    obtain ⟨row, hmem, rfl⟩ := List.mem_map.mp hrow'
    exact (hrow row hmem).cleaned
  current := by
    intro days hforce
    obtain ⟨hguarded, hrows⟩ := h.current days hforce
    refine ⟨hguarded, fun row' hrow' hopen => ?_⟩
    obtain ⟨row, hmem, rfl⟩ := List.mem_map.mp hrow'
    exact (hrow row hmem).within
      (hrows row hmem ((hrow row hmem).opened hopen))
  held := h.held
  finite := by
    intro event hevent hsome
    rcases List.mem_append.mp hevent with hold | hnew
    · exact h.finite event hold hsome
    · rw [(hdays event hnew).1] at hsome
      exact nomatch hsome
  expiring := by
    intro row' hrow' hsome
    obtain ⟨row, hmem, rfl⟩ := List.mem_map.mp hrow'
    rw [(hrow row hmem).expiresAt] at hsome
    exact h.expiring row hmem hsome
  bounded := by
    intro row' hrow' hopen days hsince
    obtain ⟨row, hmem, rfl⟩ := List.mem_map.mp hrow'
    have hupkeep := hrow row hmem
    rw [hupkeep.documentId] at hsince
    refine hupkeep.within (h.bounded row hmem (hupkeep.opened hopen) days ?_)
    rcases mem_daysSince_append hsince with hold | hnew
    · exact hold
    · obtain ⟨event, hevent, hsome⟩ := List.mem_filterMap.mp hnew
      rw [(hdays event hevent).1] at hsome
      exact nomatch hsome
  scheduled := by
    intro row' hrow' hopen
    obtain ⟨row, hmem, rfl⟩ := List.mem_map.mp hrow'
    exact (hrow row hmem).scheduled hopen

/-- A row that is left alone. -/
theorem Inv.untouched (h : Inv state past) (hrow : row ∈ state.store.rows) :
    Upkeep past row row where
  documentId := rfl
  acceptedAt := rfl
  expiresAt := rfl
  opened := id
  cleaned := h.unclaimed row hrow
  scheduled := h.scheduled row hrow

theorem Inv.jobs (h : Inv state past) (jobs : List (String × Job)) :
    Inv { state with jobs } past :=
  ⟨h.keyed, h.known, h.unclaimed, h.current, h.held, h.finite, h.expiring,
    h.bounded, h.scheduled⟩

variable {store : Store R}

theorem Inv.claim (h : Inv state past) {owner : String}
    (hclaim : state.store.claim owner documentId now = some (store, row))
    (jobs : List (String × Job)) : Inv { state with store, jobs } past := by
  rw [Store.claim] at hclaim
  cases hfound : lookup Row.documentId documentId state.store.rows with
  | none => exact absurd (hfound ▸ hclaim) (by simp)
  | some found =>
      simp only [hfound] at hclaim
      split at hclaim
      · next hdue =>
          obtain ⟨rfl, rfl⟩ := Prod.mk.inj (Option.some.inj hclaim)
          rw [← List.append_nil past]
          refine h.upkeep (by exact fun _ => rfl) ?_ (by simp) jobs
          intro row hrow
          have hkept := h.untouched hrow
          rw [List.append_nil]
          split
          · next hsame =>
              -- Only a due row is claimed, and a cleaned one is never due.
              have heq : row = found := by
                refine h.keyed.eq_of_key hrow (lookup_mem hfound) ?_
                rw [lookup_key hfound, eq_of_beq hsame]
              have hopen : row.cleanupState ≠ .cleaned := by
                simp only [Store.due, Bool.and_eq_true, bne_iff_ne] at hdue
                rw [heq]
                exact hdue.1.2
              exact ⟨rfl, rfl, rfl, id, fun hcleaned => absurd hcleaned hopen,
                h.scheduled row hrow⟩
          · exact hkept
      · cases hclaim

theorem Inv.settled (h : Inv state past) (job : Row) (owner : String)
    (status : OperationState) (now : Int) (jobs : List (String × Job)) :
    Inv { state with
        store := (state.store.settled job owner status now).1, jobs }
      past := by
  rw [Store.settled]
  split
  · rw [← List.append_nil past]
    refine h.upkeep (by exact fun _ => rfl) ?_ (by simp) jobs
    intro row hrow
    have hkept := h.untouched hrow
    rw [List.append_nil]
    split
    · exact ⟨rfl, rfl, rfl, id, hkept.cleaned, hkept.scheduled⟩
    · exact hkept
  · exact h.jobs jobs

/-! ### Reports -/

/-- The clocks a worker read are not ahead of its last transaction. -/
def Timely : Action R → Prop
  | .finish _ reply now => reply.startedAt ≤ now ∧ reply.failedAt ≤ now
  | _ => True

/-- When a report asks for the next attempt. -/
theorem maintainJob_nextAttempt
    (h : maintainJob runtime job operation reply = some report) :
    report.nextAttempt = reply.startedAt + 5 ∨
      report.nextAttempt ≤ reply.failedAt + 300 ∨
      ∀ expires, job.expiresAt = some expires →
        report.nextAttempt = expires := by
  have hfailure : ∀ cleanup, (failure job operation cleanup reply).nextAttempt
      ≤ reply.failedAt + 300 := by
    intro cleanup
    simp only [failure, backoff]
    omega
  rw [maintainJob] at h
  split at h
  · rw [← Option.some.inj h]
    exact .inr (.inl (hfailure _))
  · split at h
    · split at h
      · rw [← Option.some.inj h]
        exact .inr (.inl (hfailure _))
      · split at h
        · rw [← Option.some.inj h]
          exact .inl rfl
        · rw [← Option.some.inj h]
          exact .inr (.inl (hfailure _))
      · split at h
        · rw [← Option.some.inj h]
          exact .inr (.inl (hfailure _))
        · split at h
          · rw [← Option.some.inj h]
            exact .inl rfl
          · rw [← Option.some.inj h]
            exact .inl rfl
          · exact nomatch h
          · rw [← Option.some.inj h]
            exact .inr (.inl (hfailure _))
    · split at h
      · rw [← Option.some.inj h]
        refine .inr (.inr fun expires hexpires => ?_)
        rw [hexpires, Option.getD_some]
      · rw [← Option.some.inj h]
        exact .inl rfl

/-- The repair expression of `finish`: whatever happened to the expiry since
the claim, the next attempt is in time. -/
theorem finished_scheduled
    (hreport : maintainJob runtime job operation reply = some report)
    (hstarted : reply.startedAt ≤ now) (hfailed : reply.failedAt ≤ now)
    (hlast : lastAttempt row.documentId past = some now) :
    Scheduled (Store.finished job report now row) past := by
  intro expires hexpires
  have hstored : row.expiresAt = some expires := hexpires
  have hdated : (Store.finished job report now row).nextAttempt ≤ expires ∨
      (Store.finished job report now row).nextAttempt ≤ now + 300 := by
    by_cases hsame : row.expiresAt = job.expiresAt
    · simp only [Store.finished, hsame, ne_eq, not_true_eq_false, if_false]
      rcases maintainJob_nextAttempt hreport with hsoon | hback | hexpiry
      · omega
      · omega
      · exact .inl (Int.le_of_eq (hexpiry expires (hsame.symm.trans hstored)))
    · left
      have hrepaired : (Store.finished job report now row).nextAttempt =
          least row.expiresAt report.nextAttempt := if_pos hsame
      rw [hrepaired, hstored]
      exact Int.min_le_left _ _
  rcases hdated with hle | hle
  · exact .inl hle
  · exact .inr (.inl ⟨now, hlast, hle⟩)

/-- A schedule stays one when neither an attempt at this row nor a policy
write is added. -/
theorem Scheduled.append (h : Scheduled row past) {more : List Event}
    (hattempt : lastAttempt row.documentId more = none)
    (hwrite : lastShortening more = none) : Scheduled row (past ++ more) := by
  intro expires hexpires
  rw [lastAttempt_append, lastShortening_append, hattempt, hwrite,
    Option.none_or, Option.none_or]
  exact h expires hexpires

theorem Inv.finish (h : Inv state past) {owner : String}
    (hreport : maintainJob runtime job operation reply = some report)
    (hstarted : reply.startedAt ≤ now) (hfailed : reply.failedAt ≤ now)
    (jobs : List (String × Job)) :
    Inv { state with store := state.store.finish job owner report now, jobs }
      (past ++ if state.store.rows.any (Store.owned job owner now)
        then [.attempted job.documentId now] else []) := by
  refine h.upkeep (by exact fun _ => rfl) ?_ ?_ jobs
  · intro row hrow
    have hkept := h.untouched hrow
    cases howned : Store.owned job owner now row with
    | true =>
        have hany : state.store.rows.any (Store.owned job owner now) = true :=
          List.any_eq_true.mpr ⟨row, hrow, howned⟩
        rw [hany, if_pos rfl, if_pos rfl]
        simp only [Store.owned, Bool.and_eq_true, beq_iff_eq] at howned
        refine ⟨rfl, rfl, rfl, fun _ hcleaned => ?_, fun _ => rfl, fun _ => ?_⟩
        · -- A cleaned row is nobody's, so it is not finished again.
          have hnone := h.unclaimed row hrow hcleaned
          rw [howned.1.2] at hnone
          exact nomatch hnone
        · refine finished_scheduled hreport hstarted hfailed ?_
          rw [lastAttempt_append, howned.1.1.1]
          simp [lastAttempt]
    | false =>
        rw [if_neg Bool.false_ne_true]
        refine { hkept with scheduled := fun hopen => ?_ }
        refine (hkept.scheduled hopen).append ?_ ?_
        · cases hany : state.store.rows.any (Store.owned job owner now) with
          | false => rfl
          | true =>
              -- The job's row is another one.
              obtain ⟨other, hother, hmine⟩ := List.any_eq_true.mp hany
              have hdocument : other.documentId = job.documentId := by
                simp only [Store.owned, Bool.and_eq_true, beq_iff_eq] at hmine
                exact hmine.1.1.1
              have hne : job.documentId ≠ row.documentId := by
                intro hsame
                have heq := h.keyed.eq_of_key hother hrow
                  (hdocument.trans hsame)
                rw [heq, howned] at hmine
                exact Bool.false_ne_true hmine
              simp [lastAttempt, hne]
        · split <;> rfl
  · intro event hevent
    split at hevent
    · rw [List.mem_singleton.mp hevent]
      exact ⟨rfl, fun _ => rfl⟩
    · exact nomatch hevent

/-! ### Requests -/

theorem Inv.read (h : Inv state past) :
    Inv { state with held := state.held ++ state.store.effective.toList }
      past := by
  refine { h with held := fun policy hpolicy => ?_ }
  rcases List.mem_append.mp hpolicy with hold | hnew
  · exact h.held policy hold
  · rw [Option.mem_toList, Store.effective, Option.map_eq_some_iff] at hnew
    obtain ⟨setting, hsetting, rfl⟩ := hnew
    exact ⟨setting, hsetting, Nat.le_refl _, fun _ => rfl⟩

/-- What an accepted request finds or inserts. -/
theorem accept_cases {store' : Store R} {memberId operationId : String}
    (h : store.accept policy memberId documentId operationId now =
      some (store', row)) :
    store.setting.map Setting.revision = some policy.revision ∧
      store'.setting = store.setting ∧
      store'.guarded = (store.guarded || row.expiresAt.isSome) ∧
      ((lookup Row.documentId documentId store.rows = some row ∧
          store'.rows = store.rows) ∨
        (lookup Row.documentId documentId store.rows = none ∧
          store'.rows = store.rows ++ [row] ∧ row.documentId = documentId ∧
          row.claimOwner = none ∧
          row.expiresAt = policy.retentionDays.map (fun days : Nat =>
            row.acceptedAt + days * day) ∧
          row.nextAttempt = row.acceptedAt)) := by
  rw [Store.accept] at h
  split at h
  · next hrevision =>
      split at h
      · next found hfound =>
          split at h
          · obtain ⟨rfl, rfl⟩ := Prod.mk.inj (Option.some.inj h)
            exact ⟨hrevision, rfl, rfl, .inl ⟨hfound, rfl⟩⟩
          · cases h
      · next hnone =>
          obtain ⟨rfl, rfl⟩ := Prod.mk.inj (Option.some.inj h)
          exact ⟨hrevision, rfl, rfl,
            .inr ⟨hnone, rfl, rfl, rfl, rfl, rfl⟩⟩
  · cases h

section

variable (h : Inv state past)
include h

/-- A request whose policy has the current revision carries the retention in
force. -/
theorem Inv.policy_inForce (hheld : policy ∈ state.held)
    (hrevision : state.store.setting.map Setting.revision =
      some policy.revision) : policy.retentionDays = inForce state.store := by
  obtain ⟨setting, hsetting, -, hsame⟩ := h.held policy hheld
  rw [hsetting, Option.map_some, Option.some.injEq] at hrevision
  rw [inForce, hsetting, hsame hrevision.symm]
  rfl

/-- The document was accepted before. -/
theorem Inv.reaccept (hrow : row ∈ state.store.rows)
    (hsetting : store.setting = state.store.setting)
    (hguarded : store.guarded =
      (state.store.guarded || row.expiresAt.isSome))
    (hrows : store.rows = state.store.rows) :
    Inv { state with store } past := by
  have hsame : store = state.store := by
    have hguard : store.guarded = state.store.guarded := by
      rw [hguarded]
      cases hsome : row.expiresAt.isSome with
      | true => rw [h.expiring row hrow hsome, Bool.or_true]
      | false => rw [Bool.or_false]
    cases store
    simp only at hsetting hguard hrows
    rw [hsetting, hguard, hrows]
  rw [hsame]
  exact h

/-- A new acceptance under the retention in force. -/
theorem Inv.accept (hsetting : store.setting = state.store.setting)
    (hguarded : store.guarded =
      (state.store.guarded || row.expiresAt.isSome))
    (hnew : lookup Row.documentId row.documentId state.store.rows = none)
    (hrows : store.rows = state.store.rows ++ [row])
    (hfree : row.claimOwner = none)
    (hexpires : row.expiresAt = (inForce state.store).map fun days : Nat =>
      row.acceptedAt + days * day) (hnext : row.nextAttempt = row.acceptedAt) :
    Inv { state with store }
      (past ++ [.accepted row.documentId (inForce state.store)]) := by
  have hforce : inForce store = inForce state.store := by
    rw [inForce, hsetting, inForce]
  have hwithin : ∀ days, inForce state.store = some days →
      Within row days := by
    intro days hdays
    refine ⟨row.acceptedAt + days * day, ?_, Int.le_refl _⟩
    rw [hexpires, hdays, Option.map_some]
  have hkept : state.store.guarded = true → store.guarded = true := by
    intro hold
    rw [hguarded, hold, Bool.true_or]
  have hnone : daysSince row.documentId past = [] := by
    rw [List.eq_nil_iff_forall_not_mem]
    intro days hdays
    obtain ⟨event, hevent, haccepts⟩ := accepts_of_daysSince hdays
    obtain ⟨old, hold, hdocument⟩ := h.known event hevent _ haccepts
    have hfound := h.keyed old hold
    rw [hdocument, hnew] at hfound
    exact nomatch hfound
  constructor
  · rw [hrows]
    exact h.keyed.append hnew
  · intro event hevent documentId haccepts
    rcases List.mem_append.mp hevent with hold | hfresh
    · obtain ⟨old, hmem, hdocument⟩ := h.known event hold documentId haccepts
      exact ⟨old, hrows ▸ List.mem_append_left _ hmem, hdocument⟩
    · rw [List.mem_singleton.mp hfresh] at haccepts
      exact ⟨row, hrows ▸ List.mem_append_right _ (List.mem_singleton.mpr rfl),
        eq_of_beq haccepts⟩
  · intro other hother hcleaned
    rw [hrows] at hother
    rcases List.mem_append.mp hother with hold | hfresh
    · exact h.unclaimed other hold hcleaned
    · rw [List.mem_singleton.mp hfresh]
      exact hfree
  · intro days hdays
    rw [hforce] at hdays
    obtain ⟨hguard, hold⟩ := h.current days hdays
    refine ⟨hkept hguard, fun other hother hopen => ?_⟩
    rw [hrows] at hother
    rcases List.mem_append.mp hother with hmem | hfresh
    · exact hold other hmem hopen
    · rw [List.mem_singleton.mp hfresh]
      exact hwithin days hdays
  · intro policy hpolicy
    rw [hsetting]
    exact h.held policy hpolicy
  · intro event hevent hsome
    rcases List.mem_append.mp hevent with hold | hfresh
    · exact hkept (h.finite event hold hsome)
    · rw [List.mem_singleton.mp hfresh] at hsome
      obtain ⟨days, hdays⟩ := Option.isSome_iff_exists.mp hsome
      exact hkept (h.current days hdays).1
  · intro other hother hsome
    rw [hrows] at hother
    rcases List.mem_append.mp hother with hmem | hfresh
    · exact hkept (h.expiring other hmem hsome)
    · rw [List.mem_singleton.mp hfresh] at hsome
      rw [hguarded, hsome, Bool.or_true]
  · intro other hother hopen days hsince
    have hemitted : days ∈ [Event.accepted row.documentId
        (inForce state.store)].filterMap Event.days →
        inForce state.store = some days := by
      intro hmem
      obtain ⟨event, hevent, hdays⟩ := List.mem_filterMap.mp hmem
      rw [List.mem_singleton.mp hevent] at hdays
      exact hdays
    rw [hrows] at hother
    rcases List.mem_append.mp hother with hmem | hfresh
    · rcases mem_daysSince_append hsince with hold | hnow
      · exact h.bounded other hmem hopen days hold
      · exact (h.current days (hemitted hnow)).2 other hmem hopen
    · rw [List.mem_singleton.mp hfresh] at hsince ⊢
      rcases mem_daysSince_append hsince with hold | hnow
      · rw [hnone] at hold
        exact nomatch hold
      · exact hwithin days (hemitted hnow)
  · intro other hother hopen
    rw [hrows] at hother
    rcases List.mem_append.mp hother with hmem | hfresh
    · exact (h.scheduled other hmem hopen).append rfl rfl
    · rw [List.mem_singleton.mp hfresh]
      intro expires hexpiry
      left
      rw [hexpires, Option.map_eq_some_iff] at hexpiry
      obtain ⟨days, -, rfl⟩ := hexpiry
      rw [hnext, day]
      omega

/-- Handing an item over changes nothing. -/
theorem Inv.handOver (documentId : String) :
    Inv state (past ++ [.handedOver documentId]) := by
  have hevents : ∀ event ∈ past ++ [Event.handedOver documentId],
      event ∈ past ∨ event = .handedOver documentId := by
    intro event hevent
    simpa using hevent
  refine ⟨h.keyed, ?_, h.unclaimed, h.current, h.held, ?_, h.expiring, ?_,
    fun row hrow hopen => (h.scheduled row hrow hopen).append rfl rfl⟩
  · intro event hevent document haccepts
    rcases hevents event hevent with hold | rfl
    · exact h.known event hold document haccepts
    · exact nomatch haccepts
  · intro event hevent hsome
    rcases hevents event hevent with hold | rfl
    · exact h.finite event hold hsome
    · exact nomatch hsome
  · intro row hrow hopen days hsince
    rcases mem_daysSince_append hsince with hold | hnew
    · exact h.bounded row hrow hopen days hold
    · exact nomatch hnew

theorem Inv.prepare (hheld : policy ∈ state.held)
    (memberId documentId operationId : String) (now clock : Int) :
    Inv (prepare state policy memberId documentId operationId now clock).1
      (past ++ (prepare state policy memberId documentId operationId now
        clock).2) := by
  rw [Retention.prepare]
  cases haccept : state.store.accept policy memberId documentId operationId
      now with
  | none =>
      rw [List.append_nil]
      exact h
  | some result =>
      obtain ⟨store, row⟩ := result
      obtain ⟨hrevision, hsetting, hguarded, hcase⟩ := accept_cases haccept
      simp only
      rw [← List.append_assoc]
      have haccepted : Inv { state with store }
          (past ++ if (lookup Row.documentId documentId
              state.store.rows).isNone
            then [.accepted documentId (inForce state.store)] else []) := by
        rcases hcase with ⟨hfound, hrows⟩ | ⟨hnone, hrows, hdocument, hfree,
          hexpires, hnext⟩
        · rw [hfound, Option.isNone_some, if_neg Bool.false_ne_true,
            List.append_nil]
          exact h.reaccept (lookup_mem hfound) hsetting hguarded hrows
        · rw [hnone, Option.isNone_none, if_pos rfl, ← hdocument]
          rw [h.policy_inForce hheld hrevision] at hexpires
          exact h.accept hsetting hguarded (hdocument ▸ hnone) hrows hfree
            hexpires hnext
      cases row.cleanupState == .cleaned ||
          (deadline row policy).any (· ≤ clock) with
      | true =>
          rw [if_pos rfl, List.append_nil]
          exact haccepted
      | false =>
          rw [if_neg Bool.false_ne_true]
          exact haccepted.handOver documentId

end

/-! ### Policy writes -/

theorem Within.shortened {old : Nat} (h : Within row old) (days : Nat)
    (now : Int) : Within (Store.shortened days now row) old := by
  obtain ⟨expires, hexpires, hle⟩ := h
  refine ⟨_, rfl, ?_⟩
  rw [hexpires]
  exact Int.le_trans (Int.min_le_left _ _) hle

theorem within_shortened (row : Row) (days : Nat) (now : Int) :
    Within (Store.shortened days now row) days := by
  refine ⟨_, rfl, ?_⟩
  cases row.expiresAt with
  | none => exact Int.le_refl _
  | some expires => exact Int.min_le_right _ _

/-- Each row that is not cleaned is shortened; the others stay. -/
theorem mem_shorten {rows : List Row} (h : row ∈ Store.shorten days now rows) :
    ∃ old ∈ rows,
    (old.cleanupState ≠ .cleaned ∧ row = Store.shortened days now old) ∨
      (old.cleanupState = .cleaned ∧ row = old) := by
  obtain ⟨old, hold, rfl⟩ := List.mem_map.mp h
  refine ⟨old, hold, ?_⟩
  by_cases hcleaned : old.cleanupState = .cleaned
  · exact .inr ⟨hcleaned, by simp [hcleaned]⟩
  · exact .inl ⟨hcleaned, by simp [hcleaned]⟩

/-- The retention in force becomes unlimited. -/
theorem Inv.writeUnlimited (h : Inv state past) (hforce : inForce store = none)
    (hguarded : store.guarded = state.store.guarded)
    (hrows : store.rows = state.store.rows)
    (hheld : ∀ held ∈ state.held, ∃ setting,
      store.setting = some setting ∧ held.revision ≤ setting.revision ∧
        (held.revision = setting.revision →
          held.retentionDays = setting.policy.retentionDays)) (now : Int) :
    Inv { state with store } (past ++ [.inForce none now]) := by
  refine ⟨hrows ▸ h.keyed, ?_, hrows ▸ h.unclaimed, ?_, hheld, ?_, ?_, ?_, ?_⟩
  · intro event hevent documentId haccepts
    rcases List.mem_append.mp hevent with hold | hnew
    · exact hrows ▸ h.known event hold documentId haccepts
    · rw [List.mem_singleton.mp hnew] at haccepts
      exact nomatch haccepts
  · intro days hfinite
    exact nomatch hforce.symm.trans hfinite
  · intro event hevent hsome
    rcases List.mem_append.mp hevent with hold | hnew
    · exact hguarded.trans (h.finite event hold hsome)
    · rw [List.mem_singleton.mp hnew] at hsome
      exact nomatch hsome
  · intro row hrow hsome
    exact hguarded.trans (h.expiring row (hrows ▸ hrow) hsome)
  · intro row hrow hopen days hsince
    rcases mem_daysSince_append hsince with hold | hnew
    · exact h.bounded row (hrows ▸ hrow) hopen days hold
    · exact nomatch hnew
  · intro row hrow hopen
    exact (h.scheduled row (hrows ▸ hrow) hopen).append rfl rfl

/-- A finite retention comes into force. -/
theorem Inv.writeFinite (h : Inv state past)
    (hforce : inForce store = some days) (hguarded : store.guarded = true)
    (hrows : store.rows = Store.shorten days now state.store.rows)
    (hheld : ∀ held ∈ state.held, ∃ setting,
      store.setting = some setting ∧ held.revision ≤ setting.revision ∧
        (held.revision = setting.revision →
          held.retentionDays = setting.policy.retentionDays)) :
    Inv { state with store } (past ++ [.inForce (some days) now]) := by
  constructor
  · rw [hrows]
    exact h.keyed.updateWhere _ (Store.shortened days now) fun _ => rfl
  · intro event hevent documentId haccepts
    rcases List.mem_append.mp hevent with hold | hnew
    · obtain ⟨row, hrow, hdocument⟩ := h.known event hold documentId haccepts
      change ∃ row ∈ store.rows, row.documentId = documentId
      rw [hrows]
      refine ⟨_, List.mem_map_of_mem hrow, ?_⟩
      split <;> exact hdocument
    · rw [List.mem_singleton.mp hnew] at haccepts
      exact nomatch haccepts
  · intro row hrow hcleaned
    rw [hrows] at hrow
    obtain ⟨old, hold, ⟨hopen, rfl⟩ | ⟨-, rfl⟩⟩ := mem_shorten hrow
    · exact absurd hcleaned hopen
    · exact h.unclaimed row hold hcleaned
  · intro days' hdays'
    have hsame : days = days' := Option.some.inj (hforce.symm.trans hdays')
    refine ⟨hguarded, fun row hrow hopen => ?_⟩
    rw [hrows] at hrow
    obtain ⟨old, hold, ⟨-, rfl⟩ | ⟨hcleaned, rfl⟩⟩ := mem_shorten hrow
    · exact hsame ▸ within_shortened old days now
    · exact absurd hcleaned hopen
  · exact hheld
  · exact fun _ _ _ => hguarded
  · exact fun _ _ _ => hguarded
  · intro row hrow hopen since hsince
    rw [hrows] at hrow
    obtain ⟨old, hold, ⟨hopened, rfl⟩ | ⟨hcleaned, rfl⟩⟩ := mem_shorten hrow
    · rcases mem_daysSince_append hsince with hbefore | hnow
      · exact (h.bounded old hold hopened since hbefore).shortened days now
      · have hsame : since = days := by simpa [Event.days] using hnow
        exact hsame ▸ within_shortened old since now
    · exact absurd hcleaned hopen
  · intro row hrow hopen expires _
    rw [hrows] at hrow
    obtain ⟨old, hold, ⟨-, rfl⟩ | ⟨hcleaned, rfl⟩⟩ := mem_shorten hrow
    · refine .inr (.inr ⟨now, ?_, Int.min_le_right _ _⟩)
      rw [lastShortening_append]
      rfl
    · exact absurd hcleaned hopen

variable [DecidableEq R] [Inhabited R]

/-- What a policy write leaves. -/
theorem writePolicy_cases {store' : Store R} {patch : Store.Patch R}
    {requireExisting : Bool}
    (h : store.writePolicy patch requireExisting now = some store') :
    ∃ policy revision, store'.setting = some ⟨policy, revision⟩ ∧
      (∀ previous, store.setting = some previous →
        previous.revision ≤ revision ∧
          (revision = previous.revision → policy = previous.policy)) ∧
      ((policy.retentionDays = none ∧ store'.guarded = store.guarded ∧
          store'.rows = store.rows) ∨
        ∃ days, policy.retentionDays = some days ∧ store'.guarded = true ∧
          store'.rows = Store.shorten days now store.rows) := by
  rw [Store.writePolicy] at h
  split at h
  · exact nomatch h
  · obtain ⟨policy, -, rfl⟩ := Option.map_eq_some_iff.mp h
    refine ⟨policy, Store.nextRevision store.setting policy, ?_, ?_, ?_⟩
    · rw [Store.install]
      split <;> rfl
    · intro previous hprevious
      rw [hprevious, Store.nextRevision]
      split
      · next hsame => exact ⟨Nat.le_refl _, fun _ => hsame⟩
      · exact ⟨Nat.le_succ _, fun hsame => absurd hsame (Nat.succ_ne_self _)⟩
    · rw [Store.install]
      cases hdays : policy.retentionDays with
      | none => exact .inl ⟨rfl, rfl, rfl⟩
      | some days => exact .inr ⟨days, rfl, rfl, rfl⟩

theorem Inv.write (h : Inv state past) {patch : Store.Patch R}
    {requireExisting : Bool}
    (hwrite : state.store.writePolicy patch requireExisting now =
      some store) :
    Inv { state with store } (past ++ [.inForce (inForce store) now]) := by
  obtain ⟨policy, revision, hsetting, hrevision, hcase⟩ :=
    writePolicy_cases hwrite
  have hforce : inForce store = policy.retentionDays := by
    rw [inForce, hsetting]
    rfl
  have hheld : ∀ held ∈ state.held, ∃ setting,
      store.setting = some setting ∧ held.revision ≤ setting.revision ∧
        (held.revision = setting.revision →
          held.retentionDays = setting.policy.retentionDays) := by
    intro held hmem
    obtain ⟨previous, hprevious, hle, hsame⟩ := h.held held hmem
    obtain ⟨hgrown, hunchanged⟩ := hrevision previous hprevious
    refine ⟨_, hsetting, Nat.le_trans hle hgrown, fun heq => ?_⟩
    -- Equal revisions: nothing was written in between.
    have hcurrent : held.revision = revision := heq
    have hboth : revision = previous.revision :=
      Nat.le_antisymm (hcurrent ▸ hle) hgrown
    rw [hunchanged hboth]
    exact hsame (hcurrent.trans hboth)
  rcases hcase with ⟨hdays, hguarded, hrows⟩ | ⟨days, hdays, hguarded, hrows⟩
  · rw [hforce, hdays]
    exact h.writeUnlimited (hforce.trans hdays) hguarded hrows hheld now
  · rw [hforce, hdays]
    exact h.writeFinite (hforce.trans hdays) hguarded hrows hheld

/-- Every action keeps the invariant. -/
theorem Inv.step (h : Inv state past) (action : Action R)
    (htimely : Timely action) :
    Inv ((machine R runtime).next state action)
      (past ++ (machine R runtime).emit state action) := by
  rw [Machine.next, Machine.emit]
  change Inv (Retention.step runtime state action).1
    (past ++ (Retention.step runtime state action).2)
  cases action with
  | read =>
      rw [Retention.step, List.append_nil]
      exact h.read
  | write patch requireExisting now =>
      rw [Retention.step]
      split
      · rw [List.append_nil]
        exact h
      · next store hwrite => exact h.write hwrite
  | prepare policy memberId documentId operationId now clock =>
      rw [Retention.step]
      split
      · rw [List.append_nil]
        exact h
      · next policy hpolicy =>
          exact h.prepare (List.mem_of_getElem? hpolicy) memberId documentId
            operationId now clock
  | claim owner documentId now =>
      rw [Retention.step]
      split
      · rw [List.append_nil]
        exact h
      · next store row hclaim =>
          rw [List.append_nil]
          exact h.claim hclaim _
  | settle owner status now =>
      rw [Retention.step]
      split
      · rw [List.append_nil]
        exact h
      · next job hjob =>
          split
          · rw [List.append_nil]
            exact h
          · split
            · rw [List.append_nil]
              exact h.settled job.row owner status now _
            · split
              · rw [List.append_nil]
                exact h
              · rw [List.append_nil]
                exact h.jobs _
  | finish owner reply now =>
      rw [Retention.step]
      split
      · rw [List.append_nil]
        exact h
      · next job hjob =>
          simp only
          split
          · rw [List.append_nil]
            exact h.jobs _
          · next report hreport =>
              exact h.finish hreport htimely.1 htimely.2 _
  | crash owner =>
      rw [Retention.step, List.append_nil]
      exact h.jobs _

end AiTeam.Retention
