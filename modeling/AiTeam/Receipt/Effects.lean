/-
What the statements of the Agent store do to receipts and to conversations.
-/
import AiTeam.Receipt.Store

namespace AiTeam.Receipt

open AiTeam.Schedule

/-! ### Receipts -/

/-- Every receipt stays with its owner, and only an accepted one changes. -/
structure Advances (before after : Store) : Prop where
  keyed : Keyed IdempotencyReceipt.key before.receipts →
    Keyed IdempotencyReceipt.key after.receipts
  present : ∀ {key receipt}, getReceipt before key = some receipt →
    ∃ next, getReceipt after key = some next ∧
      next.ownerInstance = receipt.ownerInstance ∧
      (next = receipt ∨ receipt.state = .accepted)
  absent : ∀ {key}, getReceipt before key = none → getReceipt after key = none

/-- No receipt becomes completed. -/
def CompletesNone (before after : Store) : Prop :=
  ∀ key receipt next, getReceipt before key = some receipt →
    getReceipt after key = some next → next.state = .completed →
      receipt.state = .completed

variable {before after first second third store next : Store}
  {input : ReserveInput} {now : Int}

theorem advances_of_receipts_eq (h : after.receipts = before.receipts) :
    Advances before after := by
  constructor
  · rw [h]
    exact id
  · intro key receipt hreceipt
    refine ⟨receipt, ?_, rfl, Or.inl rfl⟩
    rw [getReceipt, h]
    exact hreceipt
  · intro key hnone
    rw [getReceipt, h]
    exact hnone

theorem completesNone_of_receipts_eq (h : after.receipts = before.receipts) :
    CompletesNone before after := by
  intro key receipt next hreceipt hnext hstate
  rw [getReceipt, h] at hnext
  rw [getReceipt] at hreceipt
  rw [hreceipt] at hnext
  rw [Option.some.inj hnext]
  exact hstate

/-- An update of accepted receipts. -/
theorem getReceipt_updateWhere (guard : IdempotencyReceipt → Bool)
    (change : IdempotencyReceipt → IdempotencyReceipt)
    (h : after.receipts = updateWhere guard change before.receipts)
    (hkey : ∀ row, (change row).key = row.key) (key : ReceiptKey) :
    getReceipt after key = (getReceipt before key).map fun row =>
      if guard row then change row else row := by
  rw [getReceipt, h, lookup_updateWhere _ key guard change hkey]
  rfl

theorem advances_updateWhere (guard : IdempotencyReceipt → Bool)
    (change : IdempotencyReceipt → IdempotencyReceipt)
    (h : after.receipts = updateWhere guard change before.receipts)
    (hkey : ∀ row, (change row).key = row.key)
    (howner : ∀ row, (change row).ownerInstance = row.ownerInstance)
    (hguard : ∀ row, guard row = true → row.state = .accepted) :
    Advances before after := by
  have hget := getReceipt_updateWhere guard change h hkey
  constructor
  · intro hkeyed
    rw [h]
    exact hkeyed.updateWhere guard change hkey
  · intro key receipt hreceipt
    refine ⟨if guard receipt then change receipt else receipt, ?_, ?_, ?_⟩
    · rw [hget, hreceipt]
      rfl
    · split
      · exact howner receipt
      · rfl
    · by_cases hmatch : guard receipt = true
      · exact Or.inr (hguard receipt hmatch)
      · exact Or.inl (if_neg hmatch)
  · intro key hnone
    rw [hget, hnone]
    rfl

theorem completesNone_updateWhere (guard : IdempotencyReceipt → Bool)
    (change : IdempotencyReceipt → IdempotencyReceipt)
    (h : after.receipts = updateWhere guard change before.receipts)
    (hkey : ∀ row, (change row).key = row.key)
    (hopen : ∀ row, guard row = true → (change row).state ≠ .completed) :
    CompletesNone before after := by
  intro key receipt next hreceipt hnext hstate
  rw [getReceipt_updateWhere guard change h hkey, hreceipt] at hnext
  simp only [Option.map_some, Option.some.injEq] at hnext
  by_cases hmatch : guard receipt = true
  · rw [if_pos hmatch] at hnext
    rw [← hnext] at hstate
    exact absurd hstate (hopen receipt hmatch)
  · rw [if_neg hmatch] at hnext
    rw [hnext]
    exact hstate

theorem Advances.trans (hfirst : Advances first second)
    (hsecond : Advances second third) : Advances first third := by
  constructor
  · exact fun h => hsecond.keyed (hfirst.keyed h)
  · intro key receipt hreceipt
    obtain ⟨middle, hmiddle, howner, hstep⟩ := hfirst.present hreceipt
    obtain ⟨last, hlast, howner', hstep'⟩ := hsecond.present hmiddle
    refine ⟨last, hlast, howner'.trans howner, ?_⟩
    rcases hstep with rfl | haccepted
    · exact hstep'
    · exact Or.inr haccepted
  · intro key hnone
    exact hsecond.absent (hfirst.absent hnone)

theorem CompletesNone.trans (hadvances : Advances first second)
    (hfirst : CompletesNone first second)
    (hsecond : CompletesNone second third) : CompletesNone first third := by
  intro key receipt next hreceipt hnext hstate
  obtain ⟨middle, hmiddle, _⟩ := hadvances.present hreceipt
  have hcompleted := hsecond key middle next hmiddle hnext hstate
  exact hfirst key receipt middle hreceipt hmiddle hcompleted

theorem owned_accepted {key : ReceiptKey} {owner : Nat}
    {row : IdempotencyReceipt} (h : owned key owner row = true) :
    row.key = key ∧ row.state = .accepted ∧ row.ownerInstance = owner := by
  simp only [owned, Bool.and_eq_true, beq_iff_eq] at h
  exact ⟨h.1.1, h.1.2, h.2⟩

theorem expireReceipt_advances (store : Store) (key : ReceiptKey) :
    Advances store (expireReceipt store key) := by
  apply advances_updateWhere _ _ rfl
  · intro row
    rfl
  · intro row
    rfl
  · intro row hrow
    simp only [Bool.and_eq_true, beq_iff_eq] at hrow
    exact hrow.2

theorem expireReceipt_completesNone (store : Store) (key : ReceiptKey) :
    CompletesNone store (expireReceipt store key) := by
  apply completesNone_updateWhere _ _ rfl
  · intro row
    rfl
  · intro row _
    exact fun h => nomatch h

theorem normalizeReceiptOnRead_spec (store : Store)
    (row : IdempotencyReceipt) (now : Int) :
    Advances store (normalizeReceiptOnRead store row now) ∧
      CompletesNone store (normalizeReceiptOnRead store row now) := by
  unfold normalizeReceiptOnRead
  split
  · exact ⟨expireReceipt_advances _ _, expireReceipt_completesNone _ _⟩
  · exact ⟨advances_of_receipts_eq rfl, completesNone_of_receipts_eq rfl⟩

theorem listPromptReceipts_spec (store : Store)
    (conversationId callerId : String) (now : Int) :
    Advances store (listPromptReceipts store conversationId callerId now) ∧
      CompletesNone store
        (listPromptReceipts store conversationId callerId now) := by
  unfold listPromptReceipts
  generalize store.receipts.filter _ = rows
  induction rows generalizing store with
  | nil => exact ⟨advances_of_receipts_eq rfl, completesNone_of_receipts_eq rfl⟩
  | cons row rest ih =>
      obtain ⟨hadvances, hnone⟩ := normalizeReceiptOnRead_spec store row now
      obtain ⟨hrest, hrestNone⟩ := ih (normalizeReceiptOnRead store row now)
      exact ⟨hadvances.trans hrest, hnone.trans hadvances hrestNone⟩

theorem upsertOccurrence_receipts {row : Occurrence}
    (h : upsertOccurrence store row = some next) :
    next.receipts = store.receipts := by
  unfold upsertOccurrence at h
  simp only at h
  split at h
  · rw [← Option.some.inj h]
  split at h
  · exact absurd h.symm (Option.some_ne_none next)
  · rw [← Option.some.inj h]

theorem recordOccurrence_receipts (h : recordOccurrence store input = .ok next)
    : next.receipts = store.receipts := by
  unfold recordOccurrence at h
  split at h
  · split at h
    · rw [Except.ok.inj h]
    split at h
    · split at h
      · rename_i hupsert
        obtain ⟨revision, _, hstore⟩ := Option.bind_eq_some_iff.mp hupsert
        rw [← Except.ok.inj h]
        exact upsertOccurrence_receipts hstore
      · exact nomatch h
    · exact nomatch h
  · rw [Except.ok.inj h]

/-- A passed check holds of the named schedule. -/
theorem checkSchedule_ok {check : String → Int → Bool} {scheduleId : String}
    {revision : Int} (hid : input.scheduleId = some scheduleId)
    (hrevision : input.scheduleRevision = some revision)
    (h : checkSchedule input check = .ok ()) :
    check scheduleId revision = true := by
  simp only [checkSchedule, hid, hrevision] at h
  by_contra hfalse
  rw [if_neg hfalse] at h
  exact nomatch h

section

variable (h : reserveNew store input now = .ok next)
include h

/-- What a successful new reservation went through. -/
theorem reserveNew_ok :
    checkSchedule input
      (scheduleCurrent (insertReceipt store input now) input) = .ok () ∧
    ∃ recorded, recordOccurrence
        (closeOneShot (insertReceipt store input now) input) input =
          .ok recorded ∧
      next = if input.clearScheduleRetry then
        Receipt.clearScheduleRetry recorded input.key.conversationId
        else recorded := by
  simp only [reserveNew, bind, Except.bind, pure, Except.pure] at h
  split at h
  · exact nomatch h
  rename_i hcurrent
  split at h
  · exact nomatch h
  split at h
  · exact nomatch h
  · rename_i recorded hrecorded
    exact ⟨hcurrent, recorded, hrecorded, (Except.ok.inj h).symm⟩

/-- A new reservation appends its receipt. -/
theorem reserveNew_receipts :
    next.receipts = store.receipts ++ [newReceipt store input now] := by
  obtain ⟨_, recorded, hrecorded, rfl⟩ := reserveNew_ok h
  have hreceipts := recordOccurrence_receipts hrecorded
  have hclosed : (closeOneShot (insertReceipt store input now)
      input).receipts = store.receipts ++ [newReceipt store input now] := by
    unfold closeOneShot
    split <;> rfl
  rw [hclosed] at hreceipts
  split <;> exact hreceipts

theorem getReceipt_insert (key : ReceiptKey) :
    getReceipt next key = (getReceipt store key).or
      (if input.key = key then some (newReceipt store input now)
        else none) := by
  rw [getReceipt, reserveNew_receipts h, lookup_append]
  rfl

end

/-- What `reservePrompt` does to receipts: nothing but expiring the receipt it
found, unless it inserts a new one for a key without receipt. -/
theorem reservePrompt_cases (store : Store) (input : ReserveInput)
    (now : Int) :
    (Advances store (reservePrompt store input now).1 ∧
      CompletesNone store (reservePrompt store input now).1 ∧
      (reservePrompt store input now).1.conversations =
        store.conversations ∧
      ∀ reservation, (reservePrompt store input now).2 = .ok reservation →
        reservation.isNew = false) ∨
    (getReceipt store input.key = none ∧ ∃ next,
      reserveNew store input now = .ok next ∧
      reservePrompt store input now = (next, .ok ⟨input.key, .accepted,
        store.nextInstance, true,
        if input.oneShot then input.scheduleGeneration.map (· + 1)
        else none⟩)) := by
  have hsame : Advances store store ∧ CompletesNone store store :=
    ⟨advances_of_receipts_eq rfl, completesNone_of_receipts_eq rfl⟩
  unfold reservePrompt
  split
  · left
    split
    · exact ⟨hsame.1, hsame.2, rfl, fun _ h => nomatch h⟩
    split
    · refine ⟨hsame.1, hsame.2, rfl, ?_⟩
      intro reservation h
      rw [← Except.ok.inj h]
      rfl
    · exact ⟨hsame.1, hsame.2, rfl, fun _ h => nomatch h⟩
    · split
      · refine ⟨hsame.1, hsame.2, rfl, ?_⟩
        intro reservation h
        rw [← Except.ok.inj h]
        rfl
      · exact ⟨expireReceipt_advances _ _, expireReceipt_completesNone _ _,
          rfl, fun _ h => nomatch h⟩
  · rename_i hnone
    split
    · exact Or.inl ⟨hsame.1, hsame.2, rfl, fun _ h => nomatch h⟩
    · rename_i next hnext
      exact Or.inr ⟨hnone, next, hnext, rfl⟩

theorem release_receipts (store : Store) (key : ReceiptKey)
    (owner : Option Nat) (oneShot : Bool) (retry : Option RetryInput) :
    (releasePreExecutionPrompt store key owner oneShot retry).1.receipts =
      store.receipts.filter fun row =>
        !owned key (owner.getD store.instanceId) row := by
  unfold releasePreExecutionPrompt
  simp only
  split
  · split
    · split <;> rfl
    · rfl
  · rfl

section

variable (hkeyed : Keyed IdempotencyReceipt.key store.receipts)
include hkeyed

theorem any_owned (key : ReceiptKey) (owner : Nat) :
    store.receipts.any (owned key owner) =
      (getReceipt store key).any (owned key owner) := by
  cases hreceipt : getReceipt store key with
  | none =>
      rw [Option.any_none, List.any_eq_false]
      intro row hrow howned
      have hself := hkeyed row hrow
      rw [(owned_accepted howned).1] at hself
      rw [getReceipt, hself] at hreceipt
      exact nomatch hreceipt
  | some receipt =>
      rw [Option.any_some, Bool.eq_iff_iff, List.any_eq_true]
      constructor
      · rintro ⟨row, hrow, howned⟩
        have hself := hkeyed row hrow
        rw [(owned_accepted howned).1] at hself
        rw [getReceipt, hself] at hreceipt
        rwa [← Option.some.inj hreceipt]
      · intro howned
        exact ⟨receipt, lookup_mem hreceipt, howned⟩

/-- The flag of a release: it found its receipt, and the schedule of a
one-shot reservation still matches. -/
theorem release_flag (key : ReceiptKey) (owner : Option Nat) (oneShot : Bool)
    (retry : Option RetryInput) :
    (releasePreExecutionPrompt store key owner oneShot retry).2 =
      ((getReceipt store key).any (owned key (owner.getD store.instanceId)) &&
        (!oneShot || retry.all
          (scheduleMatches store key.conversationId))) := by
  rw [← any_owned hkeyed]
  unfold releasePreExecutionPrompt
  simp only
  by_cases hany : store.receipts.any
      (owned key (owner.getD store.instanceId)) = true
  · rw [if_pos hany, hany]
    cases oneShot with
    | false => rfl
    | true =>
        cases retry with
        | none => rfl
        | some input =>
            cases hmatch : scheduleMatches store key.conversationId input <;>
              simp [hmatch]
  · rw [if_neg hany, Bool.eq_false_iff.mpr hany]
    rfl

theorem release_get (key : ReceiptKey) (owner : Option Nat) (oneShot : Bool)
    (retry : Option RetryInput) (other : ReceiptKey) :
    getReceipt (releasePreExecutionPrompt store key owner oneShot retry).1
        other =
      (getReceipt store other).filter fun row =>
        !owned key (owner.getD store.instanceId) row := by
  rw [getReceipt, release_receipts, hkeyed.lookup_filter]
  rfl

end

theorem markCompleted_advances (store : Store) (key : ReceiptKey)
    (lastEntryId : Option String) (owner : Option Nat) :
    Advances store (markCompleted store key lastEntryId owner) := by
  apply advances_updateWhere _ _ rfl
  · intro row
    rfl
  · intro row
    rfl
  · intro row hrow
    exact (owned_accepted hrow).2.1

/-- Only the owner completes a receipt. -/
theorem markCompleted_owner {key other : ReceiptKey}
    {lastEntryId : Option String} {owner : Option Nat}
    {receipt next : IdempotencyReceipt}
    (hreceipt : getReceipt store other = some receipt)
    (hnext : getReceipt (markCompleted store key lastEntryId owner) other =
      some next) (hstate : next.state = .completed) :
    receipt.state = .completed ∨
      (key = other ∧ owner.getD store.instanceId = receipt.ownerInstance) := by
  have hget := getReceipt_updateWhere
    (owned key (owner.getD store.instanceId))
    (fun row => { row with
      state := .completed, leaseExpiresAt := none, lastEntryId,
      failureCode := none, failureDetail := none })
    (show (markCompleted store key lastEntryId owner).receipts = _ from rfl)
    (fun _ => rfl) other
  rw [hreceipt, hnext] at hget
  simp only [Option.map_some, Option.some.injEq] at hget
  by_cases howned : owned key (owner.getD store.instanceId) receipt = true
  · obtain ⟨hkey, _, howner⟩ := owned_accepted howned
    exact Or.inr ⟨hkey.symm.trans (lookup_key hreceipt), howner.symm⟩
  · rw [if_neg howned] at hget
    rw [hget] at hstate
    exact Or.inl hstate

theorem renewLease_spec (store : Store) (key : ReceiptKey)
    (owner : Option Nat) (leaseMs : Option Int) (now : Int) :
    Advances store (renewLease store key owner leaseMs now) ∧
      CompletesNone store (renewLease store key owner leaseMs now) := by
  constructor
  · apply advances_updateWhere _ _ rfl
    · intro row
      rfl
    · intro row
      rfl
    · intro row hrow
      exact (owned_accepted hrow).2.1
  · apply completesNone_updateWhere _ _ rfl
    · intro row
      rfl
    · intro row hrow
      rw [(owned_accepted hrow).2.1]
      exact fun h => nomatch h

theorem markUnknown_spec (store : Store) (key : ReceiptKey)
    (owner : Option Nat) (retryAfterMs : Option Int)
    (code detail : Option String) (now : Int) :
    Advances store
        (markUnknown store key owner retryAfterMs code detail now) ∧
      CompletesNone store
        (markUnknown store key owner retryAfterMs code detail now) := by
  constructor
  · apply advances_updateWhere _ _ rfl
    · intro row
      rfl
    · intro row
      rfl
    · intro row hrow
      exact (owned_accepted hrow).2.1
  · apply completesNone_updateWhere _ _ rfl
    · intro row
      rfl
    · intro row _
      exact fun h => nomatch h

theorem restart_spec (store : Store) (now : Int) :
    Advances store (restart store now) ∧
      CompletesNone store (restart store now) := by
  constructor
  · apply advances_updateWhere _ _ rfl
    · intro row
      rfl
    · intro row
      rfl
    · intro row hrow
      simp only [Bool.and_eq_true, beq_iff_eq] at hrow
      exact hrow.1
  · apply completesNone_updateWhere _ _ rfl
    · intro row
      rfl
    · intro row _
      exact fun h => nomatch h

theorem saveConversation_receipts (store : Store) (record : Conversation)
    (scheduleMutation : Bool) :
    (saveConversation store record scheduleMutation).receipts =
      store.receipts := by
  unfold saveConversation
  split <;> rfl

theorem updateSchedule_receipts (store : Store) (id : String)
    (schedule : Option ScheduleJson) :
    (updateSchedule store id schedule).receipts = store.receipts := by
  unfold updateSchedule
  split
  · rfl
  · exact saveConversation_receipts store _ true

theorem upsertOccurrence_getD_receipts (store : Store) (row : Occurrence) :
    ((upsertOccurrence store row).getD store).receipts = store.receipts := by
  cases hnext : upsertOccurrence store row with
  | none => rfl
  | some next => exact upsertOccurrence_receipts hnext

/-! ### Conversations -/

/-- The owner stays, and a changed schedule has a later generation. -/
def Conversation.Evolves (row next : Conversation) : Prop :=
  next.tenantId = row.tenantId ∧ next.memberId = row.memberId ∧
    (next = row ∨ row.scheduleGeneration < next.scheduleGeneration)

theorem Conversation.Evolves.refl (row : Conversation) : row.Evolves row :=
  ⟨rfl, rfl, Or.inl rfl⟩

theorem Conversation.Evolves.generation_le {row next : Conversation}
    (h : row.Evolves next) :
    row.scheduleGeneration ≤ next.scheduleGeneration := by
  rcases h.2.2 with rfl | hlt
  · exact Nat.le_refl _
  · exact Nat.le_of_lt hlt

theorem Conversation.Evolves.trans {first second third : Conversation}
    (hfirst : first.Evolves second) (hsecond : second.Evolves third) :
    first.Evolves third := by
  refine ⟨hsecond.1.trans hfirst.1, hsecond.2.1.trans hfirst.2.1, ?_⟩
  rcases hfirst.2.2 with rfl | hlt
  · exact hsecond.2.2
  · exact Or.inr (Nat.lt_of_lt_of_le hlt hsecond.generation_le)

/-- Every conversation stays and evolves. -/
structure Keeps (before after : Store) : Prop where
  keyed : Keyed Conversation.id before.conversations →
    Keyed Conversation.id after.conversations
  present : ∀ {id : String} {row : Conversation},
    getConversation before id = some row →
      ∃ next, getConversation after id = some next ∧ row.Evolves next

theorem keeps_of_conversations_eq
    (h : after.conversations = before.conversations) : Keeps before after := by
  constructor
  · rw [h]
    exact id
  · intro id row hrow
    refine ⟨row, ?_, Conversation.Evolves.refl row⟩
    rw [getConversation, h]
    exact hrow

theorem Keeps.trans (hfirst : Keeps first second)
    (hsecond : Keeps second third) : Keeps first third := by
  constructor
  · exact fun h => hsecond.keyed (hfirst.keyed h)
  · intro id row hrow
    obtain ⟨middle, hmiddle, hstep⟩ := hfirst.present hrow
    obtain ⟨last, hlast, hstep'⟩ := hsecond.present hmiddle
    exact ⟨last, hlast, hstep.trans hstep'⟩

theorem getConversation_updateWhere (guard : Conversation → Bool)
    (change : Conversation → Conversation)
    (h : after.conversations = updateWhere guard change before.conversations)
    (hid : ∀ row, (change row).id = row.id) (id : String) :
    getConversation after id = (getConversation before id).map fun row =>
      if guard row then change row else row := by
  rw [getConversation, h, lookup_updateWhere _ id guard change hid]
  rfl

theorem keeps_updateWhere (guard : Conversation → Bool)
    (change : Conversation → Conversation)
    (h : after.conversations = updateWhere guard change before.conversations)
    (hid : ∀ row, (change row).id = row.id)
    (hevolves : ∀ row : Conversation, row.Evolves (change row)) :
    Keeps before after := by
  constructor
  · intro hkeyed
    rw [h]
    exact hkeyed.updateWhere guard change hid
  · intro id row hrow
    rw [getConversation_updateWhere guard change h hid, hrow]
    refine ⟨if guard row then change row else row, rfl, ?_⟩
    split
    · exact hevolves row
    · exact Conversation.Evolves.refl row

theorem setEnabled_evolves (enabled : Bool) (row : Conversation) :
    row.Evolves (setEnabled enabled row) :=
  ⟨rfl, rfl, Or.inr (Nat.lt_succ_self _)⟩

theorem upsertOccurrence_conversations {row : Occurrence}
    (h : upsertOccurrence store row = some next) :
    next.conversations = store.conversations := by
  unfold upsertOccurrence at h
  simp only at h
  split at h
  · rw [← Option.some.inj h]
  split at h
  · exact absurd h.symm (Option.some_ne_none next)
  · rw [← Option.some.inj h]

theorem recordOccurrence_conversations
    (h : recordOccurrence store input = .ok next) :
    next.conversations = store.conversations := by
  unfold recordOccurrence at h
  split at h
  · split at h
    · rw [Except.ok.inj h]
    split at h
    · split at h
      · rename_i hupsert
        obtain ⟨revision, _, hstore⟩ := Option.bind_eq_some_iff.mp hupsert
        rw [← Except.ok.inj h]
        exact upsertOccurrence_conversations hstore
      · exact nomatch h
    · exact nomatch h
  · rw [Except.ok.inj h]

/-- The conversations a new reservation leaves: a one-shot one closed its
schedule. -/
theorem reserveNew_conversations (h : reserveNew store input now = .ok next) :
    next.conversations = if input.oneShot then
      updateWhere (oneShotSelects input) (setEnabled false)
        store.conversations
      else store.conversations := by
  obtain ⟨_, recorded, hrecorded, rfl⟩ := reserveNew_ok h
  have hsame := recordOccurrence_conversations hrecorded
  have hclosed : (closeOneShot (insertReceipt store input now)
      input).conversations = if input.oneShot then
        updateWhere (oneShotSelects input) (setEnabled false)
          store.conversations
        else store.conversations := by
    unfold closeOneShot
    split <;> rfl
  rw [hclosed] at hsame
  split <;> exact hsame

theorem reserveNew_keeps (h : reserveNew store input now = .ok next) :
    Keeps store next := by
  have hrows := reserveNew_conversations h
  by_cases honce : input.oneShot = true
  · rw [if_pos honce] at hrows
    exact keeps_updateWhere _ _ hrows (fun _ => rfl) (setEnabled_evolves _)
  · rw [if_neg honce] at hrows
    exact keeps_of_conversations_eq hrows

theorem release_keeps (store : Store) (key : ReceiptKey)
    (owner : Option Nat) (oneShot : Bool) (retry : Option RetryInput) :
    Keeps store
      (releasePreExecutionPrompt store key owner oneShot retry).1 := by
  unfold releasePreExecutionPrompt
  simp only
  split
  · split
    · split
      · exact keeps_updateWhere _ _ rfl (fun _ => rfl) (setEnabled_evolves _)
      · exact keeps_of_conversations_eq rfl
    · exact keeps_of_conversations_eq rfl
  · exact keeps_of_conversations_eq rfl

theorem normalizeReceiptOnRead_conversations (store : Store)
    (row : IdempotencyReceipt) (now : Int) :
    (normalizeReceiptOnRead store row now).conversations =
      store.conversations := by
  unfold normalizeReceiptOnRead
  split <;> rfl

theorem listPromptReceipts_conversations (store : Store)
    (conversationId callerId : String) (now : Int) :
    (listPromptReceipts store conversationId callerId now).conversations =
      store.conversations := by
  unfold listPromptReceipts
  generalize store.receipts.filter _ = rows
  induction rows generalizing store with
  | nil => rfl
  | cons row rest ih =>
      exact (ih (normalizeReceiptOnRead store row now)).trans
        (normalizeReceiptOnRead_conversations store row now)

/-- A schedule edit replaces the schedule and bumps the generation. -/
theorem updateSchedule_get {id : String} {current : Conversation}
    (hcurrent : getConversation store id = some current)
    (schedule : Option ScheduleJson) (other : String) :
    getConversation (updateSchedule store id schedule) other =
      if other = id then some { current with
        scheduleJson := schedule,
        scheduleGeneration := current.scheduleGeneration + 1 }
      else getConversation store other := by
  have hid : current.id = id := lookup_key hcurrent
  have hrows : (updateSchedule store id schedule).conversations =
      updateWhere (·.id == id) (fun row => { row with
        tenantId := current.tenantId, memberId := current.memberId,
        scheduleJson := schedule,
        scheduleGeneration := current.scheduleGeneration + 1 })
        store.conversations := by
    simp only [updateSchedule, hcurrent, saveConversation, Bool.true_or,
      ↓reduceIte, clearScheduleRetry, hid]
  rw [getConversation_updateWhere _ _ hrows (fun _ => rfl)]
  by_cases hother : other = id
  · rw [hother, hcurrent, if_pos rfl, Option.map_some]
    simp [hid]
  · rw [if_neg hother]
    cases hrow : getConversation store other with
    | none => rfl
    | some row =>
        have hkey : row.id = other := lookup_key hrow
        simp [hkey, hother]

theorem updateSchedule_keeps (store : Store) (id : String)
    (schedule : Option ScheduleJson) :
    Keeps store (updateSchedule store id schedule) := by
  cases hcurrent : getConversation store id with
  | none =>
      apply keeps_of_conversations_eq
      unfold updateSchedule
      rw [hcurrent]
  | some current =>
      constructor
      · intro hkeyed
        simp only [updateSchedule, hcurrent, saveConversation]
        split
        · rename_i hnone
          have hid : current.id = id := lookup_key hcurrent
          rw [hid, hcurrent] at hnone
          cases hnone
        · exact hkeyed.updateWhere _ _ fun _ => rfl
      · intro other row hrow
        rw [updateSchedule_get hcurrent]
        by_cases hother : other = id
        · rw [hother, hcurrent] at hrow
          rw [if_pos hother, ← Option.some.inj hrow]
          exact ⟨_, rfl, rfl, rfl, Or.inr (Nat.lt_succ_self _)⟩
        · rw [if_neg hother]
          exact ⟨row, hrow, Conversation.Evolves.refl row⟩

/-- A created conversation is new; the others stay. -/
theorem saveConversation_keeps_of_fresh {record : Conversation}
    (scheduleMutation : Bool) (hfresh : getConversation store record.id = none)
    : Keeps store (saveConversation store record scheduleMutation) := by
  unfold saveConversation
  rw [hfresh]
  constructor
  · intro hkeyed
    exact hkeyed.append hfresh
  · intro id row hrow
    refine ⟨row, ?_, Conversation.Evolves.refl row⟩
    rw [getConversation] at hrow ⊢
    rw [lookup_append, hrow]
    rfl

end AiTeam.Receipt
