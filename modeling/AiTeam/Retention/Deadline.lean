/-
The retention deadline: expiry times only move down, they respect every
retention in force since the acceptance, a recall returns nothing past its
deadline, and a row that is not cleaned is scheduled again in time.
-/
import AiTeam.Retention.Invariant

namespace AiTeam.Retention

variable {R : Type} {runtime : Runtime} {state : State R} {past : List Event}

/-! ### Recall -/

variable {policy : Projection} {row : Row} {now : Int}

/-- Every answer comes from a fact of the response and a row that was live when
its turn read it. -/
theorem mem_collect {readings : Nat → Reading} {results : List (Option Fact)}
    {output : List (Answer × Option Int)}
    (h : collect runtime policy readings results = some output)
    {entry : Answer × Option Int} (hentry : entry ∈ output) :
    ∃ turn fact row, some fact ∈ results ∧ row ∈ (readings turn).rows ∧
      provesFact runtime row fact = true ∧ row.cleanupState = .waiting ∧
      entry.2 = deadline row policy ∧ fact.id = some entry.1.id ∧
      fact.text = some entry.1.text := by
  induction results generalizing readings output with
  | nil =>
      rw [← Option.some.inj h] at hentry
      cases hentry
  | cons head rest ih =>
      have hlift : ∀ {tail},
          collect runtime policy (readings ∘ Nat.succ) rest = some tail →
          entry ∈ tail →
          ∃ turn fact row, some fact ∈ head :: rest ∧
            row ∈ (readings turn).rows ∧ provesFact runtime row fact = true ∧
            row.cleanupState = .waiting ∧ entry.2 = deadline row policy ∧
            fact.id = some entry.1.id ∧ fact.text = some entry.1.text := by
        intro tail htail hmem
        obtain ⟨turn, fact, row, hfact, hrest⟩ := ih htail hmem
        exact ⟨turn + 1, fact, row, List.mem_cons_of_mem _ hfact, hrest⟩
      cases head with
      | none => exact hlift h hentry
      | some fact =>
          rw [collect] at h
          cases hrecall : recallable runtime (readings 0).rows policy fact
              (readings 0).now with
          | none =>
              rw [hrecall] at h
              exact hlift h hentry
          | some found =>
              obtain ⟨row, kind⟩ := found
              rw [hrecall] at h
              simp only at h
              split at h
              · next id text hid htext =>
                split at h
                · obtain ⟨tail, htail, rfl⟩ := Option.map_eq_some_iff.mp h
                  rcases List.mem_cons.mp hentry with rfl | hmem
                  · rw [recallable] at hrecall
                    split at hrecall
                    · split at hrecall
                      · obtain ⟨found, hfilter, hpair⟩ :=
                          Option.map_eq_some_iff.mp hrecall
                        obtain ⟨rfl, -⟩ := Prod.mk.inj hpair
                        obtain ⟨hfound, hgood⟩ :=
                          Option.filter_eq_some_iff.mp hfilter
                        simp only [Bool.and_eq_true, beq_iff_eq] at hgood
                        exact ⟨0, fact, found, List.mem_cons_self,
                          lookup_mem hfound, hgood.1.1.1, hgood.1.2, rfl, hid,
                          htext⟩
                      · cases hrecall
                    · cases hrecall
                  · exact hlift htail hmem
                · cases h
              · cases h

theorem expires_of_deadline (h : (deadline row policy).all (now < ·) = true)
    {expires : Int} (hexpires : row.expiresAt = some expires) :
    now < expires := by
  rw [deadline] at h
  split at h
  · simpa [hexpires] using h
  · rw [hexpires] at h
    simp only [least, Option.all_some, decide_eq_true_eq] at h
    exact Int.lt_of_lt_of_le h (Int.min_le_left _ _)

/-- The row's expiry and every retention since its acceptance are ahead. -/
def Ahead (row : Row) (past : List Event) (now : Int) : Prop :=
  (∀ expires, row.expiresAt = some expires → now < expires) ∧
    ∀ days ∈ daysSince row.documentId past, now < row.acceptedAt + days * day

theorem Inv.ahead (h : Inv state past) (hrow : row ∈ state.store.rows)
    (hwaiting : row.cleanupState = .waiting)
    (hbefore : (deadline row policy).all (now < ·) = true) :
    Ahead row past now := by
  have hexpiry : ∀ expires, row.expiresAt = some expires → now < expires :=
    fun expires => expires_of_deadline hbefore
  refine ⟨hexpiry, ?_⟩
  intro days hdays
  have hopen : row.cleanupState ≠ .cleaned := by
    rw [hwaiting]
    decide
  obtain ⟨expires, hexpires, hle⟩ := h.bounded row hrow hopen days hdays
  exact Int.lt_of_lt_of_le (hexpiry expires hexpires) hle

/-- Where an unguarded policy is in force there are no deadlines. -/
theorem Inv.unguarded (h : Inv state past)
    (heffective : state.store.effective = some policy)
    (hunguarded : ¬ isRetentionGuarded policy = true) :
    ∀ row ∈ state.store.rows,
      row.expiresAt = none ∧ daysSince row.documentId past = [] := by
  have hguard : state.store.guarded = false := by
    rw [Store.effective, Option.map_eq_some_iff] at heffective
    obtain ⟨setting, -, rfl⟩ := heffective
    rw [isRetentionGuarded, Bool.or_eq_true, not_or] at hunguarded
    exact Bool.eq_false_iff.mpr hunguarded.2
  intro row hrow
  constructor
  · cases hexpires : row.expiresAt with
    | none => rfl
    | some expires =>
        have := h.expiring row hrow (by rw [hexpires]; rfl)
        rw [hguard] at this
        cases this
  · rw [List.eq_nil_iff_forall_not_mem]
    intro days hdays
    obtain ⟨event, hevent, hsome⟩ := days_of_daysSince hdays
    have := h.finite event hevent (by rw [hsome]; rfl)
    rw [hguard] at this
    cases this

variable [DecidableEq R] [Inhabited R]

/-! ### Expiries only move down -/

/-- A missing expiry counts as infinitely late. -/
def NoLater (new old : Option Int) : Prop :=
  ∀ time, old = some time → ∃ expires, new = some expires ∧ expires ≤ time

theorem NoLater.refl (expires : Option Int) : NoLater expires expires :=
  fun time h => ⟨time, h, Int.le_refl time⟩

theorem NoLater.trans {first second third : Option Int}
    (h : NoLater third second) (h' : NoLater second first) :
    NoLater third first := by
  intro time hfirst
  obtain ⟨middle, hmiddle, hle⟩ := h' time hfirst
  obtain ⟨last, hlast, hle'⟩ := h middle hmiddle
  exact ⟨last, hlast, Int.le_trans hle' hle⟩

/-- Where the row of a document is after one action. -/
theorem step_row (runtime : Runtime) (state : State R) (action : Action R)
    (hrow : row ∈ state.store.rows) :
    ∃ row' ∈ ((machine R runtime).next state action).store.rows,
      row'.documentId = row.documentId ∧
        row'.acceptedAt = row.acceptedAt ∧
        NoLater row'.expiresAt row.expiresAt := by
  have hsame : ∃ row' ∈ state.store.rows, row'.documentId = row.documentId ∧
      row'.acceptedAt = row.acceptedAt ∧
      NoLater row'.expiresAt row.expiresAt :=
    ⟨row, hrow, rfl, rfl, NoLater.refl _⟩
  have hupdate : ∀ (guard : Row → Bool) (change : Row → Row),
      (∀ row, (change row).documentId = row.documentId ∧
        (change row).acceptedAt = row.acceptedAt ∧
        NoLater (change row).expiresAt row.expiresAt) →
      ∃ row' ∈ updateWhere guard change state.store.rows,
        row'.documentId = row.documentId ∧
          row'.acceptedAt = row.acceptedAt ∧
          NoLater row'.expiresAt row.expiresAt := by
    intro guard change hchange
    refine ⟨_, List.mem_map_of_mem hrow, ?_⟩
    split
    · exact hchange row
    · exact ⟨rfl, rfl, NoLater.refl _⟩
  change ∃ row' ∈ (step runtime state action).1.store.rows, _
  cases action with
  | read => exact hsame
  | write patch requireExisting now =>
      rw [step]
      split
      · exact hsame
      · next store hwrite =>
          obtain ⟨policy, revision, -, -, ⟨-, -, hrows⟩ | ⟨days, -, -, hrows⟩⟩ :=
            writePolicy_cases hwrite
          · simp only [hrows]
            exact hsame
          · simp only [hrows]
            refine hupdate _ (Store.shortened days now) fun row =>
              ⟨rfl, rfl, fun time htime => ⟨_, rfl, ?_⟩⟩
            rw [htime]
            exact Int.min_le_left _ _
  | prepare policy memberId documentId operationId now clock =>
      rw [step]
      split
      · exact hsame
      · rw [prepare]
        split
        · exact hsame
        · next store found haccept =>
            obtain ⟨-, -, -, ⟨-, hrows⟩ | ⟨-, hrows, -⟩⟩ :=
              accept_cases haccept
            · simp only [hrows]
              exact hsame
            · obtain ⟨row', hrow', hkept⟩ := hsame
              simp only [hrows]
              exact ⟨row', List.mem_append_left _ hrow', hkept⟩
  | claim owner documentId now =>
      rw [step]
      split
      · exact hsame
      · next store found hclaim =>
          rw [Store.claim] at hclaim
          split at hclaim
          · cases hclaim
          · split at hclaim
            · obtain ⟨rfl, -⟩ := Prod.mk.inj (Option.some.inj hclaim)
              exact hupdate _ (Store.claimed owner now) fun row =>
                ⟨rfl, rfl, NoLater.refl _⟩
            · cases hclaim
  | settle owner status now =>
      rw [step]
      split
      · exact hsame
      · next job hjob =>
          split
          · exact hsame
          · split
            · next hstatus =>
                simp only [Store.settled, hstatus, if_true]
                exact hupdate _ (fun row => { row with
                  operationState := status
                  terminalAt := row.terminalAt.or (some now) }) fun row =>
                    ⟨rfl, rfl, NoLater.refl _⟩
            · split <;> exact hsame
  | finish owner reply now =>
      rw [step]
      split
      · exact hsame
      · next job hjob =>
          simp only
          split
          · exact hsame
          · next report hreport =>
              exact hupdate _ (Store.finished job.row report now) fun row =>
                ⟨rfl, rfl, NoLater.refl _⟩
  | crash owner => exact hsame

theorem run_row (runtime : Runtime) (actions : List (Action R))
    (state : State R) (hrow : row ∈ state.store.rows) :
    ∃ row' ∈ ((machine R runtime).run state actions).store.rows,
      row'.documentId = row.documentId ∧
        row'.acceptedAt = row.acceptedAt ∧
        NoLater row'.expiresAt row.expiresAt := by
  induction actions generalizing state row with
  | nil => exact ⟨row, hrow, rfl, rfl, NoLater.refl _⟩
  | cons action rest ih =>
      obtain ⟨middle, hmiddle, hdocument, haccepted, hlater⟩ :=
        step_row runtime state action hrow
      obtain ⟨last, hlast, hdocument', haccepted', hlater'⟩ :=
        ih ((machine R runtime).next state action) hmiddle
      exact ⟨last, hlast, hdocument'.trans hdocument,
        haccepted'.trans haccepted, hlater'.trans hlater⟩

/-! ### Recalls in a run -/

/-- The state after so many actions of a run, and what it has seen. -/
def stateAt (runtime : Runtime) (actions : List (Action R)) (moment : Nat) :
    State R :=
  (machine R runtime).run State.empty (actions.take moment)

def seenAt (runtime : Runtime) (actions : List (Action R)) (moment : Nat) :
    List Event :=
  (machine R runtime).trace State.empty (actions.take moment)

/-- The turns of a recall read the rows of these moments. -/
def readingsAt (runtime : Runtime) (actions : List (Action R))
    (moments : Nat → Nat) (clock : Nat → Int) (turn : Nat) : Reading :=
  ⟨(stateAt runtime actions (moments turn)).store.rows, clock turn⟩

/-- What a recall may return at a time: answers to facts that are proved by a
row whose deadlines were all ahead where it was read; or the raw response, and
then there were no deadlines where the policy was read. -/
def BeforeDeadline (runtime : Runtime) (actions : List (Action R))
    (policy : Projection) (response : Option (List (Option Fact)))
    (moments : Nat → Nat) (now : Int) : Recalled → Prop
  | .response _ => ∀ moment,
      (stateAt runtime actions moment).store.effective = some policy →
      ∀ row ∈ (stateAt runtime actions moment).store.rows,
        row.expiresAt = none ∧
          daysSince row.documentId (seenAt runtime actions moment) = []
  | .facts answers => ∀ answer ∈ answers, ∃ turn fact row,
      some fact ∈ response.getD [] ∧ fact.id = some answer.id ∧
        fact.text = some answer.text ∧
        row ∈ (stateAt runtime actions (moments turn)).store.rows ∧
        provesFact runtime row fact = true ∧
        Ahead row (seenAt runtime actions (moments turn)) now

theorem filterRecall_before {actions : List (Action R)}
    (hinv : ∀ moment, Inv (stateAt runtime actions moment)
      (seenAt runtime actions moment)) {ready : Bool}
    {response : Option (List (Option Fact))} {moments : Nat → Nat}
    {clock : Nat → Int} {recalled : Recalled}
    (hrecall : filterRecall runtime policy ready response
      (readingsAt runtime actions moments clock) now = some recalled) :
    BeforeDeadline runtime actions policy response moments now recalled := by
  unfold filterRecall at hrecall
  split at hrecall
  · split at hrecall
    · next results =>
        split at hrecall
        · obtain ⟨output, houtput, rfl⟩ := Option.map_eq_some_iff.mp hrecall
          intro answer hanswer
          obtain ⟨entry, hentry, rfl⟩ := List.mem_map.mp hanswer
          obtain ⟨hmem, hbefore⟩ := List.mem_filter.mp hentry
          obtain ⟨turn, fact, row, hfact, hrow, hproves, hwaiting, hdeadline,
            hid, htext⟩ := mem_collect houtput hmem
          rw [hdeadline] at hbefore
          exact ⟨turn, fact, row, hfact, hid, htext, hrow, hproves,
            (hinv (moments turn)).ahead hrow hwaiting hbefore⟩
        · cases hrecall
    · cases hrecall
  · next hunguarded =>
      rw [← Option.some.inj hrecall]
      exact fun moment heffective =>
        (hinv moment).unguarded heffective hunguarded

/-! ### The retention deadline -/

instance (action : Action R) : Decidable (Timely action) :=
  match action with
  | .finish _ _ _ => inferInstanceAs (Decidable (_ ∧ _))
  | .read => isTrue trivial
  | .write _ _ _ => isTrue trivial
  | .prepare _ _ _ _ _ _ => isTrue trivial
  | .claim _ _ _ => isTrue trivial
  | .settle _ _ _ => isTrue trivial
  | .crash _ => isTrue trivial

/-- In every run: a stored expiry only moves down; while the row is not
cleaned it respects every retention in force since the acceptance; a recall,
with whatever policy and reading the rows at whatever moments, returns no fact
at or after its deadline there; and a row that is not cleaned is scheduled no later than its expiry, its last attempt plus 300 seconds, or the
last write of a finite retention, so that an expired one is due again. -/
theorem memory_retention (runtime : Runtime) (actions : List (Action R))
    (htimely : (machine R runtime).Admissible (fun _ => Timely) State.empty
      actions) :
    let state := (machine R runtime).run State.empty actions
    let past := (machine R runtime).trace State.empty actions
    (∀ first last, actions = first ++ last →
      ∀ row ∈ ((machine R runtime).run State.empty first).store.rows,
        ∃ row' ∈ state.store.rows, row'.documentId = row.documentId ∧
          row'.acceptedAt = row.acceptedAt ∧
          NoLater row'.expiresAt row.expiresAt) ∧
    (∀ row ∈ state.store.rows, row.cleanupState ≠ .cleaned →
      ∀ days ∈ daysSince row.documentId past, Within row days) ∧
    (∀ policy ready response moments clock now recalled,
      filterRecall runtime policy ready response
        (readingsAt runtime actions moments clock) now = some recalled →
      BeforeDeadline runtime actions policy response moments now recalled) ∧
    (∀ row ∈ state.store.rows, row.cleanupState ≠ .cleaned →
      Scheduled row past) ∧
    ∀ row ∈ state.store.rows, row.cleanupState ≠ .cleaned →
      ∀ expires now, row.expiresAt = some expires → expires ≤ now →
        (∀ time, lastAttempt row.documentId past = some time →
          time + 300 ≤ now) →
        (∀ time, lastShortening past = some time → time ≤ now) →
        row.claimUntil.all (· ≤ now) = true → Store.due row now = true := by
  intro state past
  have hreached : ∀ moment, Inv (stateAt runtime actions moment)
      (seenAt runtime actions moment) := by
    intro moment
    rw [← List.take_append_drop moment actions] at htimely
    have hrun := (machine R runtime).invariant_from Inv
      (fun state past action hbefore htime => hbefore.step action htime)
      (actions.take moment) inv_empty (Machine.admissible_left htimely)
    rwa [List.nil_append] at hrun
  have hinv : Inv state past := by
    have hlast := hreached actions.length
    rwa [stateAt, seenAt, List.take_length] at hlast
  refine ⟨?_, hinv.bounded, fun policy ready response moments clock now
    recalled => filterRecall_before hreached, hinv.scheduled, ?_⟩
  · intro first last hsplit row hrow
    have hlast := run_row runtime last _ hrow
    rw [← Machine.run_append, ← hsplit] at hlast
    exact hlast
  · intro row hrow hopen expires now hexpires hpast hattempt hwrite hfree
    have hnext : row.nextAttempt ≤ now := by
      rcases hinv.scheduled row hrow hopen expires hexpires with
        hle | ⟨time, htime, hle⟩ | ⟨time, htime, hle⟩
      · omega
      · have := hattempt time htime
        omega
      · have := hwrite time htime
        omega
    simp only [Store.due, Bool.and_eq_true, decide_eq_true_eq, bne_iff_ne]
    exact ⟨⟨hnext, hopen⟩, hfree⟩

namespace DeadlineWitness

def plain : Runtime := ⟨toString, (· == ' '), String.join⟩

def write (days : Option Nat) (now : Int) : Action Unit :=
  .write ⟨some days, none⟩ false now

def reply (now : Int) : Reply :=
  ⟨now, now, now, true, some ([], 0), .completed⟩

/-- Accepted and handled under a first retention; a day's comes later. -/
def run (days : Option Nat) (status : OperationState) (time : Int) :
    List (Action Unit) :=
  [write days 0, .read, .prepare 0 "member" "document" "operation" 0 0,
    .claim "worker" "document" 0, .settle "worker" status 0,
    .finish "worker" (reply 1) 1, write (some 1) time]

/-- A fact of the document accepted at time zero. -/
def fact : Fact where
  kind := some "world"
  documentId := some "document"
  metadata := some [("aiteam_operation", "operation"),
    ("aiteam_policy_revision", "1"), ("aiteam_accepted_at", "0")]
  id := some "1"
  text := some "text"

/-- A recall two days later, by a policy and rows read before the last write. -/
def recalled (days : Option Nat) (guarded : Bool) : Option Recalled :=
  filterRecall plain ⟨days, 1, guarded⟩ true (some [some fact])
    (readingsAt plain (run days .completed 100000) (fun _ => 6) fun _ => 172800)
    172800

end DeadlineWitness

open DeadlineWitness in
/-- The acceptance of a failed operation is cleaned before the retention is
shortened and keeps its missing expiry; a row shortened after its new expiry is
scheduled at the time of that write; and a recall that read its rows before, or
an unguarded policy, returns a fact whose expiry is past by now. -/
theorem retention_exceptions :
    let cleaned := run none .failed 10
    let late := run none .completed 8640000
    let expired (actions : List (Action Unit)) :=
      ∃ row ∈ ((machine Unit plain).run State.empty actions).store.rows,
        provesFact plain row fact = true ∧ row.expiresAt = some 86400
    ((machine Unit plain).Admissible (fun _ => Timely) State.empty cleaned ∧
      ∃ row ∈ ((machine Unit plain).run State.empty cleaned).store.rows,
        row.expiresAt = none ∧ daysSince row.documentId
          ((machine Unit plain).trace State.empty cleaned) = [1]) ∧
    ((machine Unit plain).Admissible (fun _ => Timely) State.empty late ∧
      ∃ row ∈ ((machine Unit plain).run State.empty late).store.rows,
        row.cleanupState ≠ .cleaned ∧ row.expiresAt = some 86400 ∧
          lastAttempt row.documentId
            ((machine Unit plain).trace State.empty late) = some 1 ∧
          row.nextAttempt = 8640000) ∧
    ((stateAt plain (run (some 30) .completed 100000) 6).store.effective =
        some ⟨some 30, 1, true⟩ ∧
      recalled (some 30) true = some (.facts [⟨"1", "text", "world"⟩]) ∧
      expired (run (some 30) .completed 100000)) ∧
    (stateAt plain (run none .completed 100000) 6).store.effective =
        some ⟨none, 1, false⟩ ∧
      recalled none false = some (.response (some [some fact])) ∧
      expired (run none .completed 100000) := by
  decide

open DeadlineWitness in
theorem memory_retention_shortened :
    (machine Unit plain).Admissible (fun _ => Timely) State.empty
        (run none .completed 8640000) ∧
      ∀ row ∈ ((machine Unit plain).run State.empty
        (run none .completed 8640000)).store.rows,
        row.cleanupState ≠ .cleaned →
          ∀ days ∈ daysSince row.documentId ((machine Unit plain).trace
            State.empty (run none .completed 8640000)), Within row days :=
  ⟨by decide,
    (memory_retention plain (run none .completed 8640000) (by decide)).2.1⟩

end AiTeam.Retention
