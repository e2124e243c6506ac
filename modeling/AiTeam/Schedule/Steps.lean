/-
What the steps of the scheduler do to receipts, conversations and prompts: most
are calm, a visit may launch, and a settling prompt may be released.
-/
import AiTeam.Receipt.Effects
import AiTeam.Schedule.Scheduler

namespace AiTeam.Schedule

open AiTeam.Receipt

variable {bound : Nat}

/-! ### Steps that neither launch nor release -/

/-- Receipts stay with their owner. -/
structure Retains (before after : Store) : Prop where
  keyed : Keyed IdempotencyReceipt.key before.receipts →
    Keyed IdempotencyReceipt.key after.receipts
  present : ∀ {key receipt}, getReceipt before key = some receipt →
    ∃ next, getReceipt after key = some next ∧
      next.ownerInstance = receipt.ownerInstance

theorem retains_of_advances {before after : Store}
    (h : Receipt.Advances before after) : Retains before after := by
  refine ⟨h.keyed, ?_⟩
  intro key receipt hreceipt
  obtain ⟨next, hnext, howner, _⟩ := h.present hreceipt
  exact ⟨next, hnext, howner⟩

theorem Retains.trans {first second third : Store}
    (hfirst : Retains first second) (hsecond : Retains second third) :
    Retains first third := by
  refine ⟨fun h => hsecond.keyed (hfirst.keyed h), ?_⟩
  intro key receipt hreceipt
  obtain ⟨middle, hmiddle, howner⟩ := hfirst.present hreceipt
  obtain ⟨last, hlast, howner'⟩ := hsecond.present hmiddle
  exact ⟨last, hlast, howner'.trans howner⟩

variable {store : Store} {before after service : Service} {config : Config}
  {occurrence : Int} {schedule : ConversationSchedule}

theorem reserveNew_retains {next : Store} {input : ReserveInput} {now : Int}
    (hnone : getReceipt store input.key = none)
    (h : reserveNew store input now = .ok next) : Retains store next := by
  constructor
  · intro hkeyed
    rw [reserveNew_receipts h]
    exact hkeyed.append hnone
  · intro key receipt hreceipt
    refine ⟨receipt, ?_, rfl⟩
    rw [getReceipt, reserveNew_receipts h, lookup_append]
    rw [getReceipt] at hreceipt
    rw [hreceipt]
    rfl

/-- Receipts and conversations stay, and no prompt is added. -/
structure Mild (before after : Service) : Prop where
  retains : Retains before.store after.store
  keeps : Keeps before.store after.store
  prompts : ∀ prompt ∈ after.prompts, prompt ∈ before.prompts
  draws : before.draws ≤ after.draws

/-- No instance below `bound` comes to own a receipt. -/
def OwnsNoMore (bound : Nat) (before after : Store) : Prop :=
  ∀ key owner, owner < bound →
    (getReceipt after key).any (owned key owner) = true →
      (getReceipt before key).any (owned key owner) = true

/-- A step that neither launches, releases nor edits: no conversation
changes, and only instances from `bound` on get receipts. -/
structure Calm (bound : Nat) (before after : Service) : Prop where
  retains : Retains before.store after.store
  conversations : after.store.conversations = before.store.conversations
  prompts : ∀ prompt ∈ after.prompts, prompt ∈ before.prompts
  draws : before.draws ≤ after.draws
  owners : OwnsNoMore bound before.store after.store

theorem Calm.mild (h : Calm bound before after) : Mild before after :=
  ⟨h.retains, keeps_of_conversations_eq h.conversations, h.prompts, h.draws⟩

theorem ownsNoMore_of_advances {before after : Store}
    (h : Receipt.Advances before after) : OwnsNoMore bound before after := by
  intro key owner _ howned
  cases hreceipt : getReceipt before key with
  | none =>
      rw [h.absent hreceipt] at howned
      exact howned
  | some receipt =>
      obtain ⟨next, hnext, howner, hchange⟩ := h.present hreceipt
      rw [hnext] at howned
      obtain ⟨_, _, hinstance⟩ := owned_accepted howned
      rcases hchange with rfl | haccepted
      · exact howned
      · have hkey : receipt.key = key := lookup_key hreceipt
        simp [owned, hkey, haccepted, howner.symm.trans hinstance]

theorem Mild.trans {first second third : Service} (hfirst : Mild first second)
    (hsecond : Mild second third) : Mild first third :=
  ⟨hfirst.retains.trans hsecond.retains, hfirst.keeps.trans hsecond.keeps,
    fun prompt h => hfirst.prompts prompt (hsecond.prompts prompt h),
    Nat.le_trans hfirst.draws hsecond.draws⟩

theorem Calm.trans {first second third : Service}
    (hfirst : Calm bound first second) (hsecond : Calm bound second third) :
    Calm bound first third :=
  ⟨hfirst.retains.trans hsecond.retains,
    hsecond.conversations.trans hfirst.conversations,
    fun prompt h => hfirst.prompts prompt (hsecond.prompts prompt h),
    Nat.le_trans hfirst.draws hsecond.draws,
    fun key owner hlt howned => hfirst.owners key owner hlt
      (hsecond.owners key owner hlt howned)⟩

/-- A step that advances receipts and leaves conversations alone. -/
theorem calm_of_advances
    (hadvances : Receipt.Advances before.store after.store)
    (hconversations : after.store.conversations =
      before.store.conversations)
    (hprompts : ∀ prompt ∈ after.prompts, prompt ∈ before.prompts)
    (hdraws : before.draws ≤ after.draws) : Calm bound before after :=
  ⟨retains_of_advances hadvances, hconversations, hprompts, hdraws,
    ownsNoMore_of_advances hadvances⟩

theorem calm_memory (hreceipts : after.store.receipts = before.store.receipts)
    (hconversations : after.store.conversations =
      before.store.conversations)
    (hprompts : ∀ prompt ∈ after.prompts, prompt ∈ before.prompts)
    (hdraws : before.draws ≤ after.draws) : Calm bound before after :=
  calm_of_advances (advances_of_receipts_eq hreceipts) hconversations
    hprompts hdraws

theorem calm_store (hadvances : Receipt.Advances service.store store)
    (hconversations : store.conversations = service.store.conversations) :
    Calm bound service { service with store } :=
  calm_of_advances hadvances hconversations (fun _ h => h) (Nat.le_refl _)

theorem Calm.refl (service : Service) :
    Calm bound service service :=
  calm_memory rfl rfl (fun _ h => h) (Nat.le_refl _)

theorem draw_calm (service : Service) :
    Calm bound service (draw service) :=
  calm_memory rfl rfl (fun _ h => h) (Nat.le_succ _)

theorem draw_mild (service : Service) : Mild service (draw service) :=
  (draw_calm service : Calm 0 _ _).mild

theorem setLastTick_calm (service : Service) (lastTick : Option Int) :
    Calm bound service { service with lastTick } :=
  calm_memory rfl rfl (fun _ h => h) (Nat.le_refl _)

theorem dropRetryable_calm (service : Service) (id : String) :
    Calm bound service (dropRetryable service id) :=
  calm_memory rfl rfl (fun _ h => h) (Nat.le_refl _)

theorem observe_calm {conversationId tenantId memberId reason : String}
    (h : observe config service.store conversationId tenantId memberId
      schedule occurrence reason = some store) :
    Calm bound service { service with store } :=
  calm_memory (upsertOccurrence_receipts h) (upsertOccurrence_conversations h)
    (fun _ h => h) (Nat.le_refl _)

theorem restartService_calm (service : Service) (clock : Int) :
    Calm bound service (restartService service clock) :=
  calm_of_advances (restart_spec _ clock).1 rfl (fun _ h => nomatch h)
    (Nat.le_refl _)

theorem heartbeat_calm (service : Service) (key : ReceiptKey)
    (owner : Option Nat) (clock : Int) :
    Calm bound service { service with
      store := renewLease service.store key owner none clock } :=
  calm_store (renewLease_spec _ key owner none clock).1 rfl

theorem resume_calm (service : Service) (id : String)
    (launched retrying : Bool) :
    Calm bound service (resume service id launched retrying) := by
  unfold resume
  split
  · exact dropRetryable_calm _ _
  · exact Calm.refl _

theorem endTick_calm (service : Service) (tick : Tick) :
    Calm bound service (endTick service tick) := by
  unfold endTick
  split
  · exact Calm.refl _
  · exact calm_memory rfl rfl (fun _ h => h) (Nat.le_refl _)

/-- A reservation without a schedule adds at most its own receipt. -/
theorem plainReserve_calm (service : Service)
    (hbound : bound ≤ service.store.nextInstance) (key : ReceiptKey)
    (fingerprint : String) (clock : Int) :
    Calm bound service { service with
      store := (reservePrompt service.store (plainReserve key fingerprint)
        clock).1 } := by
  rcases reservePrompt_cases service.store (plainReserve key fingerprint)
      clock with ⟨hadvances, _, hsame, _⟩ | ⟨hnone, next, hnext, hresult⟩
  · exact calm_store hadvances hsame
  · rw [hresult]
    refine ⟨reserveNew_retains hnone hnext, ?_, fun _ h => h, Nat.le_refl _,
      ?_⟩
    · exact reserveNew_conversations hnext
    · intro other owner hlt howned
      change (getReceipt next other).any _ = true at howned
      rw [getReceipt_insert hnext] at howned
      cases hreceipt : getReceipt service.store other with
      | some receipt =>
          rw [hreceipt] at howned
          exact howned
      | none =>
          rw [hreceipt] at howned
          split at howned
          · have hinstance := (owned_accepted howned).2.2
            change service.store.nextInstance = owner at hinstance
            omega
          · exact howned

/-- What a request can do: stay calm, or create or edit a conversation. -/
theorem serve_cases (bound : Nat) (service : Service)
    (hbound : bound ≤ service.store.nextInstance) (clock : Int)
    (request : Request) :
    Calm bound service { service with
      store := serve service.store clock request } ∨
    (∃ id tenantId memberId schedule,
      request = .create id tenantId memberId schedule ∧
      getConversation service.store id = none) ∨
    ∃ id schedule, request = .editSchedule id schedule := by
  cases request with
  | reserve key fingerprint =>
      exact Or.inl (plainReserve_calm service hbound key fingerprint clock)
  | renew key owner =>
      exact Or.inl (heartbeat_calm service key (some owner) clock)
  | complete key lastEntryId owner =>
      exact Or.inl (calm_store (markCompleted_advances _ key _ _) rfl)
  | markUnknown key owner code detail =>
      exact Or.inl (calm_store
        (markUnknown_spec _ key (some owner) none _ _ clock).1 rfl)
  | read key =>
      left
      simp only [serve, getPromptReceipt]
      split
      · exact calm_store (normalizeReceiptOnRead_spec _ _ clock).1
          (normalizeReceiptOnRead_conversations _ _ clock)
      · exact Calm.refl _
  | list conversationId callerId =>
      exact Or.inl (calm_store (listPromptReceipts_spec _ _ _ clock).1
        (listPromptReceipts_conversations _ _ _ clock))
  | create id tenantId memberId schedule =>
      cases hfresh : getConversation service.store id with
      | none =>
          exact Or.inr (Or.inl ⟨id, tenantId, memberId, schedule, rfl, hfresh⟩)
      | some row =>
          left
          simp only [serve, hfresh, Option.isSome_some, ↓reduceIte]
          exact Calm.refl _
  | editSchedule id schedule => exact Or.inr (Or.inr ⟨id, schedule, rfl⟩)

theorem serve_mild (service : Service) (clock : Int) (request : Request) :
    Mild service { service with
      store := serve service.store clock request } := by
  rcases serve_cases 0 service (Nat.zero_le _) clock request with hcalm |
    ⟨id, tenantId, memberId, schedule, rfl, hfresh⟩ | ⟨id, schedule, rfl⟩
  · exact hcalm.mild
  · simp only [serve, hfresh, Option.isSome_none, Bool.false_eq_true,
      ↓reduceIte]
    exact ⟨retains_of_advances (advances_of_receipts_eq
      (saveConversation_receipts _ _ false)),
      saveConversation_keeps_of_fresh false hfresh, fun _ h => h,
      Nat.le_refl _⟩
  · exact ⟨retains_of_advances (advances_of_receipts_eq
      (updateSchedule_receipts _ id schedule)),
      updateSchedule_keeps _ id schedule, fun _ h => h, Nat.le_refl _⟩

/-! ### One visit -/

/-- Only retry markers differ. -/
structure Tidies (before after : Service) : Prop where
  receipts : after.store.receipts = before.store.receipts
  conversations : after.store.conversations = before.store.conversations
  nextInstance : after.store.nextInstance = before.store.nextInstance
  prompts : after.prompts = before.prompts
  draws : after.draws = before.draws

theorem Tidies.calm (h : Tidies before after) : Calm bound before after :=
  calm_memory h.receipts h.conversations (fun _ hmem => h.prompts ▸ hmem)
    (Nat.le_of_eq h.draws.symm)

theorem Tidies.mild (h : Tidies before after) : Mild before after :=
  (h.calm : Calm 0 _ _).mild

/-- The prompt of a new reservation. -/
def launchedPrompt (config : Config) (service : Service) (record : Record)
    (schedule : ConversationSchedule) (occurrence : Int) : Prompt :=
  let input := reserveInput config record schedule occurrence
  ⟨input.key, service.store.nextInstance, record.tenantId, record.memberId,
    schedule, occurrence,
    if input.oneShot then input.scheduleGeneration.map (· + 1) else none⟩

/-- What a launch reserved, and what it left. -/
structure Launches (config : Config) (record : Record) (before : Service)
    (clock : Int) (after : Service) (events : List Event)
    (schedule : ConversationSchedule) (occurrence : Int) : Prop where
  absent : getReceipt before.store
    (reserveInput config record schedule occurrence).key = none
  reserved : reserveNew before.store
    (reserveInput config record schedule occurrence) clock = .ok after.store
  prompts : after.prompts = before.prompts ++
    [launchedPrompt config before record schedule occurrence]
  draws : after.draws = before.draws
  events_eq : events = [.launched record.conversation.id record.memberId
    schedule.scheduleId occurrence record.conversation.scheduleGeneration
    before.store.nextInstance]

/-- Events that neither launch nor release. -/
def Silent (events : List Event) : Prop :=
  ∀ event ∈ events, ∃ conversationId memberId scheduleId occurrence reason,
    event = .skipped conversationId memberId scheduleId occurrence reason

theorem silent_nil : Silent [] := fun _ h => nomatch h

theorem Silent.noLaunch {events : List Event} (h : Silent events)
    (conversationId memberId scheduleId : String) (occurrence : Int)
    (generation owner : Nat) :
    Event.launched conversationId memberId scheduleId occurrence generation
      owner ∉ events := by
  intro hmem
  obtain ⟨_, _, _, _, _, heq⟩ := h _ hmem
  exact nomatch heq

theorem launch_cases (bound : Nat) (config : Config) (service : Service) (record : Record)
    (schedule : ConversationSchedule) (occurrence clock : Int) :
    (Calm bound service
        (launch config service record schedule occurrence clock).1 ∧
      (launch config service record schedule occurrence clock).2.2 = []) ∨
    Launches config record service clock
      (launch config service record schedule occurrence clock).1
      (launch config service record schedule occurrence clock).2.2
      schedule occurrence := by
  unfold launch
  simp only
  rcases reservePrompt_cases service.store
      (reserveInput config record schedule occurrence) clock with
    ⟨hadvances, _, hsame, hold⟩ | ⟨hnone, next, hnext, hresult⟩
  · left
    generalize reservePrompt service.store
      (reserveInput config record schedule occurrence) clock = result
      at hadvances hsame hold ⊢
    obtain ⟨store, outcome⟩ := result
    have hcalm : Calm bound service { service with store } :=
      calm_store hadvances hsame
    cases outcome with
    | ok receipt =>
        have hisNew := hold receipt rfl
        simp only [hisNew, Bool.false_eq_true, ↓reduceIte, and_true]
        exact hcalm.trans (dropRetryable_calm _ _)
    | error error =>
        cases error with
        | failed => exact ⟨hcalm, rfl⟩
        | conflict => exact ⟨hcalm.trans (dropRetryable_calm _ _), rfl⟩
        | unknown => exact ⟨hcalm.trans (dropRetryable_calm _ _), rfl⟩
        | scheduleRevision =>
            exact ⟨hcalm.trans (dropRetryable_calm _ _), rfl⟩
  · right
    rw [hresult]
    exact ⟨hnone, hnext, rfl, rfl, rfl⟩

/-- A visit that is skipped launches nothing. -/
theorem skip_calm {bound : Nat} {record : Record} (reason : String)
    (ended : Visited) :
    let result : Service × Visited × List Event :=
      match observe config service.store record.conversation.id
          record.tenantId record.memberId schedule occurrence reason with
      | none => (service, .aborted, [])
      | some store => ({ service with store }, ended,
          [.skipped record.conversation.id record.memberId
            schedule.scheduleId occurrence reason])
    Calm bound service result.1 ∧ Silent result.2.2 := by
  intro result
  cases hstore : observe config service.store record.conversation.id
      record.tenantId record.memberId schedule occurrence reason with
  | none =>
      simp only [result, hstore]
      exact ⟨Calm.refl service, silent_nil⟩
  | some store =>
      simp only [result, hstore]
      refine ⟨observe_calm hstore, ?_⟩
      intro event hevent
      exact ⟨_, _, _, _, _, List.mem_singleton.mp hevent⟩

theorem visitDue_cases (bound : Nat) (config : Config) (service : Service)
    (record : Record) (schedule : ConversationSchedule) (occurrence : Int)
    (retrying : Bool) (answers : Answers) (clock : Int) :
    (Calm bound service (visitDue config service record schedule occurrence
        retrying answers clock).1 ∧
      Silent (visitDue config service record schedule occurrence retrying
        answers clock).2.2) ∨
    Launches config record service clock
      (visitDue config service record schedule occurrence retrying answers
        clock).1
      (visitDue config service record schedule occurrence retrying answers
        clock).2.2 schedule occurrence := by
  unfold visitDue
  simp only
  split
  · exact Or.inl (skip_calm "overlap_skip" .passed)
  split
  · exact Or.inl (skip_calm "authorization_required" .blocked)
  split
  · exact Or.inl ⟨Calm.refl service, silent_nil⟩
  · have hcases := launch_cases bound config service record schedule occurrence
      clock
    generalize launch config service record schedule occurrence clock = result
      at hcases ⊢
    obtain ⟨next, outcome, events⟩ := result
    cases outcome with
    | none =>
        rcases hcases with ⟨hcalm, hevents⟩ | hlaunches
        · exact Or.inl ⟨hcalm, fun e h => by rw [hevents] at h; cases h⟩
        · exact Or.inr hlaunches
    | some launched =>
        rcases hcases with ⟨hcalm, hevents⟩ | hlaunches
        · exact Or.inl ⟨hcalm, fun e h => by rw [hevents] at h; cases h⟩
        · exact Or.inr hlaunches

theorem dropStaleRetries_tidies (service : Service) (record : Record)
    (schedule : ConversationSchedule) :
    Tidies service (dropStaleRetries service record schedule) := by
  unfold dropStaleRetries
  simp only
  split <;> split <;> exact ⟨rfl, rfl, rfl, rfl, rfl⟩

theorem dropRetries_tidies (service : Service) (record : Record) :
    Tidies service (dropRetries service record) := by
  unfold dropRetries
  simp only
  split <;> exact ⟨rfl, rfl, rfl, rfl, rfl⟩

/-- What one visit can do: stay calm, or launch one occurrence. -/
theorem visit_cases (bound : Nat) (config : Config) (service : Service)
    (previous now : Int) (record : Record) (answers : Answers)
    (clock : Int) :
    (Calm bound service
        (visit config service previous now record answers clock).1 ∧
      Silent (visit config service previous now record answers clock).2.2) ∨
    ∃ middle schedule occurrence, Tidies service middle ∧
      Launches config record middle clock
        (visit config service previous now record answers clock).1
        (visit config service previous now record answers clock).2.2
        schedule occurrence := by
  unfold visit
  split
  · exact Or.inl ⟨Calm.refl service, silent_nil⟩
  split
  · exact Or.inl ⟨Calm.refl service, silent_nil⟩
  · rename_i schedule _ _
    have htidies := dropStaleRetries_tidies service record schedule
    simp only
    split
    · exact Or.inl ⟨htidies.calm.trans (dropRetries_tidies _ record).calm,
        silent_nil⟩
    split
    · exact Or.inl ⟨htidies.calm, silent_nil⟩
    · rename_i occurrence retrying _
      rcases visitDue_cases bound config
          (dropStaleRetries service record schedule) record schedule
          occurrence retrying answers clock with
        ⟨hcalm, hsilent⟩ | hlaunches
      · exact Or.inl ⟨htidies.calm.trans hcalm, hsilent⟩
      · exact Or.inr ⟨_, schedule, occurrence, htidies, hlaunches⟩

/-! ### Settled prompts -/

theorem rememberRetry_calm (service : Service) (prompt : Prompt) :
    Calm bound service (rememberRetry service prompt) := by
  unfold rememberRetry
  split
  · split
    · exact calm_memory rfl rfl (fun _ h => h) (Nat.le_refl _)
    · exact Calm.refl service
  · exact Calm.refl service

theorem markUnknown_calm (service : Service) (key : ReceiptKey)
    (owner : Option Nat) (code detail : Option String) (clock : Int) :
    Calm bound service { service with
      store := markUnknown service.store key owner none code detail clock } :=
  calm_store (markUnknown_spec _ key owner none code detail clock).1 rfl

/-- A settled prompt stays calm, or was released before execution. -/
theorem settle_cases (bound : Nat) (config : Config) (service : Service) (prompt : Prompt)
    (outcome : Outcome) (clock : Int) :
    (Calm bound service (settle config service prompt outcome clock).1 ∧
      (settle config service prompt outcome clock).2 = []) ∨
    ∃ generation detail, outcome = .preExecution detail ∧
      prompt.scheduleGeneration = some generation ∧
      settle config service prompt outcome clock =
        releasePrompt config service prompt generation detail clock := by
  cases outcome with
  | completed lastEntryId =>
      exact Or.inl ⟨calm_store (markCompleted_advances _ _ _ _) rfl, rfl⟩
  | notSettled => exact Or.inl ⟨markUnknown_calm _ _ _ _ _ clock, rfl⟩
  | failed detail => exact Or.inl ⟨markUnknown_calm _ _ _ _ _ clock, rfl⟩
  | preExecution detail =>
      cases hgeneration : prompt.scheduleGeneration with
      | none =>
          left
          simp only [settle, hgeneration, and_true]
          exact markUnknown_calm _ _ _ _ _ clock
      | some generation =>
          right
          refine ⟨generation, detail, rfl, rfl, ?_⟩
          simp only [settle, hgeneration]

/-- The release a settled prompt asks for. -/
def release (store : Store) (prompt : Prompt) (generation : Nat) :
    Store × Bool :=
  releasePreExecutionPrompt store prompt.key (some prompt.ownerInstance)
    prompt.schedule.oneShot (some (retryInput prompt generation))

/-- After the release the handlers stay calm. -/
theorem releasePrompt_cases (bound : Nat) (config : Config) (service : Service)
    (prompt : Prompt) (generation : Nat) (detail : String) (clock : Int) :
    Calm bound { service with
        store := (release service.store prompt generation).1 }
      (releasePrompt config service prompt generation detail clock).1 ∧
    (releasePrompt config service prompt generation detail clock).2 =
      if (release service.store prompt generation).2 then
        [.released prompt.key.conversationId prompt.schedule.scheduleId
          prompt.occurrence prompt.ownerInstance]
      else [] := by
  unfold releasePrompt release
  generalize releasePreExecutionPrompt service.store prompt.key
    (some prompt.ownerInstance) prompt.schedule.oneShot
    (some (retryInput prompt generation)) = result
  obtain ⟨store, flag⟩ := result
  cases flag with
  | true =>
      simp only [↓reduceIte, and_true]
      split
      · rename_i observed hobserved
        have hcalm : Calm bound { service with store } { service with
            store := observed } := observe_calm hobserved
        exact hcalm.trans (rememberRetry_calm _ prompt)
      · exact Calm.refl _
  | false =>
      simp only [Bool.false_eq_true, ↓reduceIte, and_true]
      exact markUnknown_calm { service with store } _ _ _ _ clock

/-! ### The generation of a launch -/

/-- A launch found the very schedule and generation of its snapshot stored and
enabled. -/
theorem Launches.current {record : Record} {clock : Int} {events : List Event}
    (h : Launches config record before clock after events schedule
      occurrence) :
    ∃ row, getConversation before.store record.conversation.id = some row ∧
      row.scheduleGeneration = record.conversation.scheduleGeneration ∧
      scheduleIs row schedule.scheduleId schedule.revision = true ∧
      row.scheduleJson.any (·.enabled == some true) = true := by
  have hcurrent := checkSchedule_ok rfl rfl (reserveNew_ok h.reserved).1
  change (getConversation before.store record.conversation.id).any _ = true
    at hcurrent
  cases hrow : getConversation before.store record.conversation.id with
  | none =>
      rw [hrow] at hcurrent
      exact nomatch hcurrent
  | some row =>
      rw [hrow] at hcurrent
      simp only [reserveInput, Option.any_some, Option.all_some,
        Bool.and_eq_true, beq_iff_eq] at hcurrent
      exact ⟨row, rfl, hcurrent.2.symm, hcurrent.1.1, hcurrent.1.2⟩

theorem releasePrompt_events {prompt : Prompt} {generation : Nat}
    {detail : String} {clock : Int} {event : Event}
    (h : event ∈
      (releasePrompt config service prompt generation detail clock).2) :
    event = .released prompt.key.conversationId prompt.schedule.scheduleId
      prompt.occurrence prompt.ownerInstance := by
  rw [(releasePrompt_cases 0 config service prompt generation detail clock).2]
    at h
  split at h
  · exact List.mem_singleton.mp h
  · exact nomatch h

/-- Only a visit launches, and only what its snapshot row asks for. -/
theorem emit_launched {scheduler : Scheduler} {action : Action}
    {conversationId memberId scheduleId : String} {generation owner : Nat}
    (h : Event.launched conversationId memberId scheduleId occurrence
      generation owner ∈ (machine config).emit scheduler action) :
    ∃ index answers clock tick record rest middle after events schedule,
      action = .visit index answers clock ∧
      scheduler.ticks[index]? = some tick ∧
      tick.pending = record :: rest ∧
      Tidies (draw scheduler.service) middle ∧
      Launches config record middle clock after events schedule occurrence ∧
      ((machine config).next scheduler action).service = after ∧
      record.conversation.id = conversationId ∧
      record.conversation.scheduleGeneration = generation ∧
      schedule.scheduleId = scheduleId := by
  change _ ∈ (step config scheduler action).2 at h
  cases action with
  | visit index answers clock =>
      simp only [step] at h
      split at h
      · rename_i previous now record rest blocked htick
        have hevents : (visitNext config scheduler index ⟨previous, now,
            record :: rest, none, blocked⟩ record rest answers clock).2 =
              (visit config (draw scheduler.service) previous now record
                answers clock).2.2 := by
          unfold visitNext
          simp only
          split <;> rfl
        have hafter : (visitNext config scheduler index ⟨previous, now,
            record :: rest, none, blocked⟩ record rest answers
              clock).1.service = (visit config (draw scheduler.service)
                previous now record answers clock).1 := by
          unfold visitNext
          simp only
          split <;> rfl
        rw [hevents] at h
        rcases visit_cases 0 config (draw scheduler.service) previous now
            record answers clock with ⟨_, hsilent⟩ |
          ⟨middle, schedule, occurrence', htidies, hlaunches⟩
        · exact absurd h (hsilent.noLaunch _ _ _ _ _ _)
        · have hmem := h
          rw [hlaunches.events_eq] at hmem
          simp only [List.mem_singleton, Event.launched.injEq] at hmem
          obtain ⟨hid, _, hschedule, rfl, hgeneration, _⟩ := hmem
          refine ⟨index, answers, clock, _, record, rest, middle, _, _,
            schedule, rfl, htick, rfl, htidies, hlaunches, ?_, hid.symm,
            hgeneration.symm, hschedule.symm⟩
          change (step config scheduler
            (.visit index answers clock)).1.service = _
          simp only [step, htick]
          exact hafter
      · exact nomatch h
      · exact nomatch h
  | settle key outcome clock =>
      simp only [step] at h
      split at h
      · rename_i prompt hprompt
        rcases settle_cases 0 config { scheduler.service with
            prompts := scheduler.service.prompts.erase prompt } prompt outcome
            clock with ⟨_, hevents⟩ | ⟨_, _, _, _, hsettle⟩
        · simp only [hevents] at h
          exact nomatch h
        · simp only [hsettle] at h
          exact nomatch releasePrompt_events h
      · exact nomatch h
  | resume index authorized =>
      simp only [step] at h
      split at h <;> exact nomatch h
  | heartbeat key clock =>
      simp only [step] at h
      split at h <;> exact nomatch h
  | start now => exact nomatch h
  | tick now => exact nomatch h
  | request request clock => exact nomatch h
  | restart clock => exact nomatch h

end AiTeam.Schedule
