/-
Idempotency of prompt receipts over whole runs: how often a key is reserved as
new, which states a receipt can leave, and who may complete it.
-/
import AiTeam.Machine
import AiTeam.Receipt.Effects

namespace AiTeam.Receipt

open AiTeam.Schedule

/-- The store operations that touch receipts, and the schedule edits and
occurrence notes that interleave with them. -/
inductive Action where
  | reserve (input : ReserveInput) (now : Int)
  | renew (key : ReceiptKey) (owner : Option Nat) (leaseMs : Option Int)
      (now : Int)
  | complete (key : ReceiptKey) (lastEntryId : Option String)
      (owner : Option Nat)
  | markUnknown (key : ReceiptKey) (owner : Option Nat)
      (retryAfterMs : Option Int) (code detail : Option String) (now : Int)
  | release (key : ReceiptKey) (owner : Option Nat) (oneShot : Bool)
      (retry : Option RetryInput)
  | read (key : ReceiptKey) (now : Int)
  | list (conversationId callerId : String) (now : Int)
  | restart (now : Int)
  | save (record : Conversation) (scheduleMutation : Bool)
  | editSchedule (id : String) (schedule : Option ScheduleJson)
  | clearRetry (id : String)
  | observe (row : Occurrence)

/-- A reservation that returned `isNew`, and a release that returned true. -/
inductive Event where
  | reserved (key : ReceiptKey)
  | released (key : ReceiptKey)
deriving DecidableEq

def Event.reserves (key : ReceiptKey) : Event → Bool
  | .reserved other => other == key
  | .released _ => false

def Event.releases (key : ReceiptKey) : Event → Bool
  | .reserved _ => false
  | .released other => other == key

def step (store : Store) : Action → Store × List Event
  | .reserve input now =>
      match reservePrompt store input now with
      | (next, .ok reservation) =>
          (next, if reservation.isNew then [.reserved input.key] else [])
      | (next, .error _) => (next, [])
  | .renew key owner leaseMs now => (renewLease store key owner leaseMs now, [])
  | .complete key lastEntryId owner =>
      (markCompleted store key lastEntryId owner, [])
  | .markUnknown key owner retryAfterMs code detail now =>
      (Receipt.markUnknown store key owner retryAfterMs code detail now, [])
  | .release key owner oneShot retry =>
      match releasePreExecutionPrompt store key owner oneShot retry with
      | (next, released) => (next, if released then [.released key] else [])
  | .read key now => (getPromptReceipt store key now, [])
  | .list conversationId callerId now =>
      (listPromptReceipts store conversationId callerId now, [])
  | .restart now => (Receipt.restart store now, [])
  | .save record scheduleMutation =>
      (saveConversation store record scheduleMutation, [])
  | .editSchedule id schedule => (updateSchedule store id schedule, [])
  | .clearRetry id => (clearScheduleRetry store id, [])
  | .observe row => ((upsertOccurrence store row).getD store, [])

def machine : Machine Store Action Event where
  step := step

def initial : Store := ⟨[], [], [], [], 0, 1⟩

/-- What one action does to receipts: a new reservation, a release, a
completion, or a change of accepted receipts that completes none. -/
theorem step_cases (store : Store) (action : Action) :
    (Advances store (step store action).1 ∧
      CompletesNone store (step store action).1 ∧
      (step store action).2 = []) ∨
    (∃ input now next, action = .reserve input now ∧
      getReceipt store input.key = none ∧
      reserveNew store input now = .ok next ∧
      step store action = (next, [.reserved input.key])) ∨
    (∃ key owner oneShot retry, action = .release key owner oneShot retry) ∨
    (∃ key lastEntryId owner, action = .complete key lastEntryId owner) := by
  have hsame : ∀ next : Store, next.receipts = store.receipts →
      Advances store next ∧ CompletesNone store next := fun next h =>
    ⟨advances_of_receipts_eq h, completesNone_of_receipts_eq h⟩
  cases action with
  | reserve input now =>
      rcases reservePrompt_cases store input now with
        ⟨hadvances, hnone, _, hold⟩ | ⟨hfresh, next, hnext, hresult⟩
      · refine Or.inl ?_
        simp only [step]
        generalize reservePrompt store input now = result
          at hadvances hnone hold ⊢
        obtain ⟨next, outcome⟩ := result
        cases outcome with
        | error error => exact ⟨hadvances, hnone, rfl⟩
        | ok reservation =>
            refine ⟨hadvances, hnone, ?_⟩
            simp [hold reservation rfl]
      · refine Or.inr (Or.inl ⟨input, now, next, rfl, hfresh, hnext, ?_⟩)
        simp [step, hresult]
  | renew key owner leaseMs now =>
      have hspec := renewLease_spec store key owner leaseMs now
      exact Or.inl ⟨hspec.1, hspec.2, rfl⟩
  | complete key lastEntryId owner =>
      exact Or.inr (Or.inr (Or.inr ⟨key, lastEntryId, owner, rfl⟩))
  | markUnknown key owner retryAfterMs code detail now =>
      have hspec := markUnknown_spec store key owner retryAfterMs code detail
        now
      exact Or.inl ⟨hspec.1, hspec.2, rfl⟩
  | release key owner oneShot retry =>
      exact Or.inr (Or.inr (Or.inl ⟨key, owner, oneShot, retry, rfl⟩))
  | read key now =>
      left
      have hspec : Advances store (getPromptReceipt store key now) ∧
          CompletesNone store (getPromptReceipt store key now) := by
        unfold getPromptReceipt
        split
        · exact normalizeReceiptOnRead_spec store _ now
        · exact hsame store rfl
      exact ⟨hspec.1, hspec.2, rfl⟩
  | list conversationId callerId now =>
      have hspec := listPromptReceipts_spec store conversationId callerId now
      exact Or.inl ⟨hspec.1, hspec.2, rfl⟩
  | restart now =>
      have hspec := restart_spec store now
      exact Or.inl ⟨hspec.1, hspec.2, rfl⟩
  | save record scheduleMutation =>
      have hspec := hsame _ (saveConversation_receipts store record
        scheduleMutation)
      exact Or.inl ⟨hspec.1, hspec.2, rfl⟩
  | editSchedule id schedule =>
      have hspec := hsame _ (updateSchedule_receipts store id schedule)
      exact Or.inl ⟨hspec.1, hspec.2, rfl⟩
  | clearRetry id =>
      have hspec := hsame (clearScheduleRetry store id) rfl
      exact Or.inl ⟨hspec.1, hspec.2, rfl⟩
  | observe row =>
      have hspec := hsame _ (upsertOccurrence_getD_receipts store row)
      exact Or.inl ⟨hspec.1, hspec.2, rfl⟩

/-! ### Runs -/

/-- A release of a one-shot reservation that finds its receipt also finds the
schedule the reservation was made for. -/
def Matched (store : Store) : Action → Prop
  | .release key owner true (some retry) =>
      (getReceipt store key).any (owned key (owner.getD store.instanceId)) =
          true →
        scheduleMatches store key.conversationId retry = true
  | _ => True

structure Inv (store : Store) (past : List Event) : Prop where
  keyed : Keyed IdempotencyReceipt.key store.receipts
  reserved : ∀ key, past.countP (Event.reserves key) ≤
    past.countP (Event.releases key) +
      if (getReceipt store key).isSome then 1 else 0

variable {past : List Event} {store : Store} {input : ReserveInput}
  {receipt : IdempotencyReceipt}

theorem Inv.advance {before after : Store} (h : Inv before past)
    (hadvances : Advances before after) : Inv after past := by
  refine ⟨hadvances.keyed h.keyed, ?_⟩
  intro key
  have hcount := h.reserved key
  cases hreceipt : getReceipt before key with
  | none =>
      rw [hadvances.absent hreceipt]
      rwa [hreceipt] at hcount
  | some receipt =>
      obtain ⟨next, hnext, _⟩ := hadvances.present hreceipt
      rw [hnext]
      rwa [hreceipt] at hcount

theorem Inv.reserve {next : Store} (h : Inv store past) {now : Int}
    (hnone : getReceipt store input.key = none)
    (hnext : reserveNew store input now = .ok next) :
    Inv next (past ++ [.reserved input.key]) := by
  constructor
  · rw [reserveNew_receipts hnext]
    exact h.keyed.append hnone
  · intro key
    have hcount := h.reserved key
    rw [getReceipt_insert hnext]
    simp only [List.countP_append, List.countP_singleton, Event.reserves,
      Event.releases]
    by_cases hkey : input.key = key
    · rw [← hkey, hnone] at hcount ⊢
      simp at hcount ⊢
      omega
    · cases hold : getReceipt store key <;> simp_all

theorem Inv.release (h : Inv store past) (key : ReceiptKey)
    (owner : Option Nat) (oneShot : Bool) (retry : Option RetryInput)
    (hmatched : Matched store (.release key owner oneShot retry)) :
    Inv (releasePreExecutionPrompt store key owner oneShot retry).1
      (past ++ if (releasePreExecutionPrompt store key owner oneShot retry).2
        then [.released key] else []) := by
  constructor
  · rw [release_receipts]
    exact h.keyed.filter _
  · intro other
    have hcount := h.reserved other
    have hflag : (getReceipt store key).any
        (owned key (owner.getD store.instanceId)) = true →
        (releasePreExecutionPrompt store key owner oneShot retry).2 = true := by
      intro howned
      rw [release_flag h.keyed, howned, Bool.true_and]
      cases oneShot with
      | false => rfl
      | true =>
          cases retry with
          | none => rfl
          | some input => exact hmatched howned
    generalize (releasePreExecutionPrompt store key owner oneShot retry).2 =
      flag at hflag ⊢
    have hreserves : (past ++ if flag then [Event.released key]
        else []).countP (Event.reserves other) =
          past.countP (Event.reserves other) := by
      cases flag <;> simp [Event.reserves]
    have hreleases : (past ++ if flag then [Event.released key]
        else []).countP (Event.releases other) =
          past.countP (Event.releases other) +
            if flag && key == other then 1 else 0 := by
      cases flag <;> simp [Event.releases, List.countP_singleton]
    rw [hreserves, hreleases, release_get h.keyed]
    cases hreceipt : getReceipt store other with
    | none =>
        rw [hreceipt] at hcount
        exact Nat.le_trans hcount (by simp)
    | some receipt =>
        rw [hreceipt] at hcount
        cases howned : owned key (owner.getD store.instanceId) receipt with
        | false =>
            rw [Option.filter_some_pos (by simp [howned])]
            simp only [Option.isSome_some, ↓reduceIte] at hcount ⊢
            omega
        | true =>
            have hkey : other = key :=
              (lookup_key hreceipt).symm.trans (owned_accepted howned).1
            subst hkey
            rw [hflag (by rw [hreceipt]; exact howned)]
            simpa using Nat.le_add_right_of_le hcount

theorem step_inv (store : Store) (past : List Event) (action : Action)
    (h : Inv store past) (hmatched : Matched store action) :
    Inv (machine.next store action) (past ++ machine.emit store action) := by
  change Inv (step store action).1 (past ++ (step store action).2)
  rcases step_cases store action with ⟨hadvances, _, hevents⟩ |
    ⟨input, now, next, rfl, hnone, hnext, hstep⟩ |
    ⟨key, owner, oneShot, retry, rfl⟩ | ⟨key, lastEntryId, owner, rfl⟩
  · rw [hevents, List.append_nil]
    exact h.advance hadvances
  · rw [hstep]
    exact h.reserve hnone hnext
  · exact h.release key owner oneShot retry hmatched
  · have hdone := h.advance (markCompleted_advances store key lastEntryId
      owner)
    simpa [step] using hdone

theorem inv_initial : Inv initial [] :=
  ⟨Keyed.nil _, fun _ => Nat.zero_le _⟩

/-- A receipt that is no longer accepted keeps its state. -/
theorem step_absorbs (hkeyed : Keyed IdempotencyReceipt.key store.receipts)
    (action : Action) {key : ReceiptKey}
    (hreceipt : getReceipt store key = some receipt)
    (hclosed : receipt.state ≠ .accepted) :
    getReceipt (machine.next store action) key = some receipt := by
  have hadvance : ∀ next, Advances store next →
      getReceipt next key = some receipt := by
    intro next hadvances
    obtain ⟨other, hother, _, hsame⟩ := hadvances.present hreceipt
    rcases hsame with rfl | haccepted
    · exact hother
    · exact absurd haccepted hclosed
  change getReceipt (step store action).1 key = some receipt
  rcases step_cases store action with ⟨hadvances, _, _⟩ |
    ⟨input, now, next, rfl, hnone, hnext, hstep⟩ |
    ⟨other, owner, oneShot, retry, rfl⟩ | ⟨other, lastEntryId, owner, rfl⟩
  · exact hadvance _ hadvances
  · rw [hstep, getReceipt_insert hnext, hreceipt]
    rfl
  · change getReceipt (releasePreExecutionPrompt store other owner oneShot
      retry).1 key = some receipt
    rw [release_get hkeyed, hreceipt]
    apply Option.filter_some_pos
    rw [Bool.not_eq_true', Bool.eq_false_iff]
    intro howned
    exact hclosed (owned_accepted howned).2.1
  · exact hadvance _ (markCompleted_advances store other lastEntryId owner)

theorem step_keyed (store : Store) (action : Action)
    (hkeyed : Keyed IdempotencyReceipt.key store.receipts) :
    Keyed IdempotencyReceipt.key (machine.next store action).receipts := by
  change Keyed _ (step store action).1.receipts
  rcases step_cases store action with ⟨hadvances, _, _⟩ |
    ⟨input, now, next, rfl, hnone, hnext, hstep⟩ |
    ⟨other, owner, oneShot, retry, rfl⟩ | ⟨other, lastEntryId, owner, rfl⟩
  · exact hadvances.keyed hkeyed
  · rw [hstep, reserveNew_receipts hnext]
    exact hkeyed.append hnone
  · change Keyed _ (releasePreExecutionPrompt store other owner oneShot
      retry).1.receipts
    rw [release_receipts]
    exact hkeyed.filter _
  · exact (markCompleted_advances store other lastEntryId owner).keyed hkeyed

theorem run_absorbs (hkeyed : Keyed IdempotencyReceipt.key store.receipts)
    (actions : List Action) {key : ReceiptKey}
    (hreceipt : getReceipt store key = some receipt)
    (hclosed : receipt.state ≠ .accepted) :
    getReceipt (machine.run store actions) key = some receipt := by
  induction actions generalizing store with
  | nil => exact hreceipt
  | cons action rest ih =>
      exact ih (step_keyed store action hkeyed)
        (step_absorbs hkeyed action hreceipt hclosed)

theorem step_completes (hkeyed : Keyed IdempotencyReceipt.key store.receipts)
    {action : Action} {key : ReceiptKey} {next : IdempotencyReceipt}
    (hreceipt : getReceipt store key = some receipt)
    (haccepted : receipt.state = .accepted)
    (hnext : getReceipt (machine.next store action) key = some next)
    (hstate : next.state = .completed) :
    ∃ lastEntryId owner, action = .complete key lastEntryId owner ∧
      owner.getD store.instanceId = receipt.ownerInstance := by
  have hopen : receipt.state ≠ .completed := by
    rw [haccepted]
    exact fun h => nomatch h
  change getReceipt (step store action).1 key = some next at hnext
  rcases step_cases store action with ⟨_, hnone, _⟩ |
    ⟨input, now, after, rfl, _, hafter, hstep⟩ |
    ⟨other, owner, oneShot, retry, rfl⟩ | ⟨other, lastEntryId, owner, rfl⟩
  · exact absurd (hnone key receipt next hreceipt hnext hstate) hopen
  · rw [hstep, getReceipt_insert hafter, hreceipt] at hnext
    rw [← Option.some.inj hnext] at hstate
    exact absurd hstate hopen
  · change getReceipt (releasePreExecutionPrompt store other owner oneShot
      retry).1 key = some next at hnext
    rw [release_get hkeyed, hreceipt] at hnext
    obtain ⟨heq, _⟩ := Option.filter_eq_some_iff.mp hnext
    rw [← Option.some.inj heq] at hstate
    exact absurd hstate hopen
  · rcases markCompleted_owner hreceipt hnext hstate with
      hcompleted | ⟨rfl, howner⟩
    · exact absurd hcompleted hopen
    · exact ⟨lastEntryId, owner, rfl, howner⟩

/-- An error of `reservePrompt` other than an uncertain receipt leaves every
table as it was. -/
theorem reservePrompt_raises {now : Int} {error : ReserveError}
    (h : (reservePrompt store input now).2 = .error error)
    (hcertain : error ≠ .unknown) :
    (reservePrompt store input now).1 = store := by
  unfold reservePrompt at h ⊢
  split
  · split
    · rfl
    · split
      · rfl
      · rfl
      · split
        · rfl
        · simp_all
  · split
    · rfl
    · simp_all

theorem reservePrompt_conflict (now : Int) {existing : IdempotencyReceipt}
    (h : getReceipt store input.key = some existing)
    (hfingerprint : existing.fingerprint ≠ input.fingerprint) :
    (reservePrompt store input now).2 = .error .conflict := by
  unfold reservePrompt
  rw [h]
  simp [hfingerprint]

/-- Prompt idempotency, for runs in which every release of a one-shot
reservation that finds its receipt also finds its schedule unchanged: a key is
new at most once more than it was released; another fingerprint conflicts; a
completed or unknown receipt keeps its state; only the owning instance
completes it; and a raised conflict changes no table. -/
theorem receipts_idempotent (actions : List Action)
    (hmatched : machine.Admissible Matched initial actions) :
    (∀ key, (machine.trace initial actions).countP (Event.reserves key) ≤
      1 + (machine.trace initial actions).countP (Event.releases key)) ∧
    (∀ input now existing,
      getReceipt (machine.run initial actions) input.key = some existing →
      existing.fingerprint ≠ input.fingerprint →
      (reservePrompt (machine.run initial actions) input now).2 =
        .error .conflict) ∧
    (∀ later key receipt,
      getReceipt (machine.run initial actions) key = some receipt →
      receipt.state ≠ .accepted →
      getReceipt (machine.run initial (actions ++ later)) key =
        some receipt) ∧
    (∀ action key receipt next,
      getReceipt (machine.run initial actions) key = some receipt →
      receipt.state = .accepted →
      getReceipt (machine.run initial (actions ++ [action])) key =
        some next → next.state = .completed →
      ∃ lastEntryId owner, action = .complete key lastEntryId owner ∧
        owner.getD (machine.run initial actions).instanceId =
          receipt.ownerInstance) ∧
    (∀ input now error,
      (reservePrompt (machine.run initial actions) input now).2 =
        .error error → error = .conflict ∨ error = .scheduleRevision →
      (reservePrompt (machine.run initial actions) input now).1 =
        machine.run initial actions) := by
  have hinv := machine.invariant_from Inv
    (fun store past action h hallowed => step_inv store past action h hallowed)
    actions inv_initial hmatched
  rw [List.nil_append] at hinv
  refine ⟨?_, ?_, ?_, ?_, ?_⟩
  · intro key
    have hcount := hinv.reserved key
    split at hcount <;> omega
  · intro input now existing hexisting hfingerprint
    exact reservePrompt_conflict now hexisting hfingerprint
  · intro later key receipt hreceipt hclosed
    rw [machine.run_append]
    exact run_absorbs hinv.keyed later hreceipt hclosed
  · intro action key receipt next hreceipt haccepted hnext hstate
    rw [machine.run_append] at hnext
    exact step_completes hinv.keyed hreceipt haccepted hnext hstate
  · intro input now error herror hkind
    apply reservePrompt_raises herror
    rcases hkind with rfl | rfl <;> exact fun h => nomatch h

namespace IdempotencyWitness

def onceJson : ScheduleJson :=
  { ScheduleJson.empty with
    scheduleId := some "once", revision := some 1, enabled := some true,
    atInstant := some 1000, oneShot := some true,
    promptTemplate := some "report" }

def conversation : Conversation :=
  ⟨"c", some "tenant", some "member", some onceJson, 0⟩

def key : ReceiptKey := ⟨"c", "member", "k"⟩

def reserve (generation : Nat) : ReserveInput where
  key := key
  fingerprint := "f"
  leaseMs := none
  oneShot := true
  scheduleId := some "once"
  scheduleRevision := some 1
  scheduleGeneration := some generation
  clearScheduleRetry := true
  occurrenceAt := some 1000

def retry : RetryInput := ⟨"once", 1000, 1, 1, none⟩

/-- The reservation is released while its schedule is as it left it. -/
def releasedRun : List Action :=
  [.save conversation false, .reserve (reserve 0) 1000,
    .release key (some 1) true (some retry), .reserve (reserve 2) 2000]

/-- The schedule is edited while the one-shot prompt is in flight, so the
release returns false, yet the receipt is gone and the key is new again. -/
def editedRun : List Action :=
  [.save conversation false, .reserve (reserve 0) 1000,
    .editSchedule "c" (some onceJson),
    .release key (some 1) true (some retry), .reserve (reserve 2) 2000]

end IdempotencyWitness

open IdempotencyWitness in
theorem receipts_idempotent_releasedRun :
    machine.Admissible Matched initial releasedRun ∧
      (machine.trace initial releasedRun).countP
        (Event.reserves key) = 2 ∧
      (machine.trace initial releasedRun).countP
        (Event.reserves key) ≤
          1 + (machine.trace initial releasedRun).countP
            (Event.releases key) := by
  have hadmissible : machine.Admissible Matched initial releasedRun :=
    ⟨trivial, trivial, fun _ => by decide, trivial, trivial⟩
  exact ⟨hadmissible, by decide,
    (receipts_idempotent releasedRun hadmissible).1 key⟩

open IdempotencyWitness in
theorem receipts_reissued_after_failed_release :
    ¬ ∀ actions key, (machine.trace initial actions).countP
      (Event.reserves key) ≤
        1 + (machine.trace initial actions).countP
          (Event.releases key) := by
  intro h
  exact absurd (h editedRun key) (by decide)

end AiTeam.Receipt
