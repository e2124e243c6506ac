/-
Scheduled occurrences run at most once: how often an occurrence is handed to
prompt execution along every interleaving of the scheduler, and under which
schedule generation.
-/
import AiTeam.Schedule.Steps

namespace AiTeam.Schedule

open AiTeam.Receipt

/-- An occurrence of a schedule of a conversation. -/
structure Slot where
  conversationId : String
  scheduleId : String
  occurrence : Int
deriving DecidableEq

def Event.launches (slot : Slot) : Event → Bool
  | .launched conversationId _ scheduleId occurrence _ _ =>
      (⟨conversationId, scheduleId, occurrence⟩ : Slot) == slot
  | _ => false

def Event.frees (slot : Slot) : Event → Bool
  | .released conversationId scheduleId occurrence _ =>
      (⟨conversationId, scheduleId, occurrence⟩ : Slot) == slot
  | _ => false

/-! ### The invariant -/

def Prompt.slot (prompt : Prompt) : Slot :=
  ⟨prompt.key.conversationId, prompt.schedule.scheduleId, prompt.occurrence⟩

/-- The reservation with this owner launched the slot. -/
def LaunchedBy (past : List Event) (slot : Slot) (owner : Nat) : Prop :=
  ∃ memberId generation, Event.launched slot.conversationId memberId
    slot.scheduleId slot.occurrence generation owner ∈ past

def slotKey (config : Config) (tenantId memberId : String) (slot : Slot) :
    ReceiptKey :=
  ⟨slot.conversationId, callerId config tenantId memberId,
    occurrenceKey config slot.scheduleId slot.occurrence
      slot.conversationId⟩

/-- The receipt of the slot is the one a launch of the slot reserved. -/
def Held (config : Config) (store : Store) (past : List Event)
    (slot : Slot) : Prop :=
  ∃ row tenantId memberId receipt,
    getConversation store slot.conversationId = some row ∧
    row.tenantId = some tenantId ∧ row.memberId = some memberId ∧
    getReceipt store (slotKey config tenantId memberId slot) =
      some receipt ∧
    LaunchedBy past slot receipt.ownerInstance

/-- The snapshot row names the owner of its conversation. -/
def Owns (store : Store) (record : Record) : Prop :=
  ∃ row, getConversation store record.conversation.id = some row ∧
    row.tenantId = some record.tenantId ∧
    row.memberId = some record.memberId

structure ServiceInv (config : Config) (service : Service)
    (past : List Event) : Prop where
  receipts : Keyed IdempotencyReceipt.key service.store.receipts
  conversations : Keyed Conversation.id service.store.conversations
  drawn : ∀ {slot owner}, LaunchedBy past slot owner → owner < service.draws
  unique : ∀ {slot other owner}, LaunchedBy past slot owner →
    LaunchedBy past other owner → slot = other
  prompts : ∀ prompt ∈ service.prompts,
    LaunchedBy past prompt.slot prompt.ownerInstance
  bound : ∀ slot, past.countP (Event.launches slot) ≤
      past.countP (Event.frees slot) ∨
    (past.countP (Event.launches slot) ≤
        past.countP (Event.frees slot) + 1 ∧
      Held config service.store past slot)

structure Inv (config : Config) (scheduler : Scheduler)
    (past : List Event) : Prop where
  service : ServiceInv config scheduler.service past
  records : ∀ tick ∈ scheduler.ticks, ∀ record ∈ tick.pending,
    Owns scheduler.service.store record

variable {record : Record} {past events : List Event} {service : Service}
  {ticks : List Tick} {index : Nat}

theorem Owns.keeps {before after : Store} (h : Owns before record)
    (hkeeps : Keeps before after) : Owns after record := by
  obtain ⟨row, hrow, htenant, hmember⟩ := h
  obtain ⟨next, hnext, htenant', hmember', _⟩ := hkeeps.present hrow
  exact ⟨next, hnext, htenant'.trans htenant, hmember'.trans hmember⟩

theorem LaunchedBy.mono {later : List Event} {slot : Slot} {owner : Nat}
    (h : LaunchedBy past slot owner) (hlater : past ⊆ later) :
    LaunchedBy later slot owner := by
  obtain ⟨memberId, generation, hmem⟩ := h
  exact ⟨memberId, generation, hlater hmem⟩

theorem launchedBy_append {slot : Slot} {owner : Nat}
    (hevents : ∀ conversationId memberId scheduleId occurrence
      generation owner, Event.launched conversationId memberId scheduleId
        occurrence generation owner ∉ events)
    (h : LaunchedBy (past ++ events) slot owner) :
    LaunchedBy past slot owner := by
  obtain ⟨memberId, generation, hmem⟩ := h
  rcases List.mem_append.mp hmem with hold | hnew
  · exact ⟨memberId, generation, hold⟩
  · exact absurd hnew (hevents _ _ _ _ _ _)

theorem Held.kept {config : Config} {before after : Store} {later : List Event}
    {slot : Slot} (h : Held config before past slot)
    (hretains : Retains before after) (hkeeps : Keeps before after)
    (hlater : past ⊆ later) : Held config after later slot := by
  obtain ⟨row, tenantId, memberId, receipt, hrow, htenant, hmember, hreceipt,
    hlaunched⟩ := h
  obtain ⟨next, hnext, htenant', hmember', _⟩ := hkeeps.present hrow
  obtain ⟨receipt', hreceipt', howner⟩ := hretains.present hreceipt
  refine ⟨next, tenantId, memberId, receipt', hnext, htenant'.trans htenant,
    hmember'.trans hmember, hreceipt', ?_⟩
  rw [howner]
  exact hlaunched.mono hlater

theorem Silent.launches (h : Silent events) (slot : Slot) :
    events.countP (Event.launches slot) = 0 := by
  rw [List.countP_eq_zero]
  intro event hevent
  obtain ⟨_, _, _, _, _, rfl⟩ := h event hevent
  exact Bool.false_ne_true

theorem Silent.frees (h : Silent events) (slot : Slot) :
    events.countP (Event.frees slot) = 0 := by
  rw [List.countP_eq_zero]
  intro event hevent
  obtain ⟨_, _, _, _, _, rfl⟩ := h event hevent
  exact Bool.false_ne_true

/-- A mild step keeps the invariant. -/
theorem ServiceInv.mild {config : Config} {before after : Service}
    (h : ServiceInv config before past) (hmild : Mild before after)
    (hsilent : Silent events) : ServiceInv config after (past ++ events) := by
  have hpast := List.subset_append_left past events
  refine ⟨hmild.retains.keyed h.receipts, hmild.keeps.keyed h.conversations,
    ?_, ?_, ?_, ?_⟩
  · intro slot owner hlaunched
    have hold := h.drawn (launchedBy_append hsilent.noLaunch hlaunched)
    exact Nat.lt_of_lt_of_le hold hmild.draws
  · intro slot other owner hslot hother
    exact h.unique (launchedBy_append hsilent.noLaunch hslot)
      (launchedBy_append hsilent.noLaunch hother)
  · intro prompt hprompt
    exact (h.prompts prompt (hmild.prompts prompt hprompt)).mono hpast
  · intro slot
    rw [List.countP_append, List.countP_append, hsilent.launches,
      hsilent.frees]
    rcases h.bound slot with hle | ⟨hle, hheld⟩
    · exact Or.inl hle
    · exact Or.inr ⟨hle, hheld.kept hmild.retains hmild.keeps hpast⟩

/-- A launch keeps the invariant: its slot was not held. -/
theorem ServiceInv.launch {config : Config} {before after : Service}
    {clock : Int} {schedule : ConversationSchedule} {occurrence : Int}
    (h : ServiceInv config before past) (howns : Owns before.store record)
    (hdraws : ∀ {slot owner}, LaunchedBy past slot owner →
      owner < before.store.nextInstance)
    (hinstance : before.store.nextInstance < before.draws)
    (hlaunches : Launches config record before clock after events schedule
      occurrence) : ServiceInv config after (past ++ events) := by
  obtain ⟨row, hrow, htenant, hmember⟩ := howns
  have hkeeps := reserveNew_keeps hlaunches.reserved
  have hretains := reserveNew_retains hlaunches.absent hlaunches.reserved
  have hevents := hlaunches.events_eq
  subst hevents
  have hnew : ∀ {slot : Slot} {owner : Nat}, LaunchedBy (past ++
      [.launched record.conversation.id record.memberId schedule.scheduleId
        occurrence record.conversation.scheduleGeneration
        before.store.nextInstance]) slot owner →
      LaunchedBy past slot owner ∨ (owner = before.store.nextInstance ∧
        slot = ⟨record.conversation.id, schedule.scheduleId, occurrence⟩) := by
    intro slot owner hlaunched
    obtain ⟨memberId, generation, hmem⟩ := hlaunched
    rcases List.mem_append.mp hmem with hold | heq
    · exact Or.inl ⟨memberId, generation, hold⟩
    · simp only [List.mem_singleton, Event.launched.injEq] at heq
      obtain ⟨hconversation, _, hschedule, hoccurrence, _, howner⟩ := heq
      exact Or.inr ⟨howner, by
        rw [← hconversation, ← hschedule, ← hoccurrence]⟩
  refine ⟨hretains.keyed h.receipts, hkeeps.keyed h.conversations, ?_, ?_,
    ?_, ?_⟩
  · intro slot owner hlaunched
    rw [hlaunches.draws]
    rcases hnew hlaunched with hold | ⟨rfl, _⟩
    · exact h.drawn hold
    · exact hinstance
  · intro slot other owner hslot hother
    rcases hnew hslot with hold | ⟨rfl, hslotEq⟩
    · rcases hnew hother with hold' | ⟨rfl, _⟩
      · exact h.unique hold hold'
      · exact absurd (hdraws hold) (Nat.lt_irrefl _)
    · rcases hnew hother with hold' | ⟨_, hotherEq⟩
      · exact absurd (hdraws hold') (Nat.lt_irrefl _)
      · rw [hslotEq, hotherEq]
  · intro prompt hprompt
    rw [hlaunches.prompts] at hprompt
    rcases List.mem_append.mp hprompt with hold | heq
    · exact (h.prompts prompt hold).mono (List.subset_append_left past _)
    · rw [List.mem_singleton.mp heq]
      exact ⟨_, _, List.mem_append_right past (List.mem_singleton.mpr rfl)⟩
  · intro slot
    have hpast := List.subset_append_left past
      [Event.launched record.conversation.id record.memberId
        schedule.scheduleId occurrence record.conversation.scheduleGeneration
        before.store.nextInstance]
    simp only [List.countP_append, List.countP_singleton, Event.frees,
      Bool.false_eq_true, ↓reduceIte, Nat.add_zero]
    by_cases hslot : (⟨record.conversation.id, schedule.scheduleId,
        occurrence⟩ : Slot) = slot
    · -- the slot was not held, since its key had no receipt
      have hfree : past.countP (Event.launches slot) ≤
          past.countP (Event.frees slot) := by
        rcases h.bound slot with hle | ⟨_, hheld⟩
        · exact hle
        · obtain ⟨row', tenantId, memberId, receipt, hrow', htenant',
            hmember', hreceipt, _⟩ := hheld
          subst hslot
          change getConversation before.store record.conversation.id =
            some row' at hrow'
          rw [hrow] at hrow'
          cases hrow'
          rw [htenant] at htenant'
          rw [hmember] at hmember'
          cases htenant'
          cases hmember'
          have habsent := hlaunches.absent
          change getReceipt before.store (slotKey config record.tenantId
            record.memberId ⟨record.conversation.id, schedule.scheduleId,
              occurrence⟩) = none at habsent
          rw [habsent] at hreceipt
          exact nomatch hreceipt
      right
      constructor
      · simp only [Event.launches, hslot, beq_self_eq_true, ↓reduceIte]
        exact Nat.succ_le_succ hfree
      · subst hslot
        obtain ⟨next, hnext, htenant', hmember', _⟩ := hkeeps.present hrow
        refine ⟨next, record.tenantId, record.memberId,
          newReceipt before.store
            (reserveInput config record schedule occurrence) clock, hnext,
          htenant'.trans htenant, hmember'.trans hmember, ?_, ?_⟩
        · change getReceipt after.store
            (reserveInput config record schedule occurrence).key = _
          rw [getReceipt_insert hlaunches.reserved, hlaunches.absent,
            if_pos rfl]
          rfl
        · exact ⟨_, _, List.mem_append_right past
            (List.mem_singleton.mpr rfl)⟩
    · simp only [Event.launches, hslot, beq_iff_eq, ↓reduceIte, Nat.add_zero]
      rcases h.bound slot with hle | ⟨hle, hheld⟩
      · exact Or.inl hle
      · exact Or.inr ⟨hle, hheld.kept hretains hkeeps hpast⟩

/-- The schedule of a one-shot reservation whose receipt a settling prompt
still owns is the one it was reserved for. -/
def Matched (scheduler : Scheduler) : Action → Prop
  | .settle key (.preExecution _) _ => ∀ prompt generation,
      findPrompt scheduler.service key = some prompt →
      prompt.scheduleGeneration = some generation →
      prompt.schedule.oneShot = true →
      (getReceipt scheduler.service.store prompt.key).any
        (owned prompt.key prompt.ownerInstance) = true →
      scheduleMatches scheduler.service.store prompt.key.conversationId
        (retryInput prompt generation) = true
  | _ => True

/-- A release keeps the invariant: the deleted receipt was reserved by the
released slot alone. -/
theorem ServiceInv.release {config : Config}
    (h : ServiceInv config service past) {prompt : Prompt} {generation : Nat}
    (hprompt : LaunchedBy past prompt.slot prompt.ownerInstance)
    (hmatched : prompt.schedule.oneShot = true →
      (getReceipt service.store prompt.key).any
        (owned prompt.key prompt.ownerInstance) = true →
      scheduleMatches service.store prompt.key.conversationId
        (retryInput prompt generation) = true) :
    ServiceInv config { service with
        store := (Schedule.release service.store prompt generation).1 }
      (past ++ if (Schedule.release service.store prompt generation).2 then
        [.released prompt.key.conversationId prompt.schedule.scheduleId
          prompt.occurrence prompt.ownerInstance]
        else []) := by
  have hflag : (Schedule.release service.store prompt generation).2 =
      (getReceipt service.store prompt.key).any
        (owned prompt.key prompt.ownerInstance) := by
    rw [Schedule.release, release_flag h.receipts]
    cases howned : (getReceipt service.store prompt.key).any
        (owned prompt.key ((some prompt.ownerInstance).getD
          service.store.instanceId)) with
    | false => exact howned.symm
    | true =>
        rw [Bool.true_and]
        refine Eq.trans ?_ howned.symm
        cases honce : prompt.schedule.oneShot with
        | false => rfl
        | true => exact hmatched honce howned
  have hget : ∀ key, getReceipt
      (Schedule.release service.store prompt generation).1 key =
        (getReceipt service.store key).filter fun row =>
          !owned prompt.key prompt.ownerInstance row :=
    fun key => release_get h.receipts _ _ _ _ key
  have hkeeps : Keeps service.store
      (Schedule.release service.store prompt generation).1 :=
    release_keeps _ _ _ _ _
  generalize (Schedule.release service.store prompt generation).2 = flag
    at hflag ⊢
  have hnoLaunch : ∀ conversationId memberId scheduleId occurrence
      generation owner, Event.launched conversationId memberId scheduleId
        occurrence generation owner ∉ (if flag then
          [Event.released prompt.key.conversationId
            prompt.schedule.scheduleId prompt.occurrence
            prompt.ownerInstance] else []) := by
    intro _ _ _ _ _ _ hmem
    cases flag <;> simp at hmem
  refine ⟨?_, hkeeps.keyed h.conversations, ?_, ?_, ?_, ?_⟩
  · change Keyed _ (releasePreExecutionPrompt _ _ _ _ _).1.receipts
    rw [release_receipts]
    exact h.receipts.filter _
  · intro slot owner hlaunched
    exact h.drawn (launchedBy_append hnoLaunch hlaunched)
  · intro slot other owner hslot hother
    exact h.unique (launchedBy_append hnoLaunch hslot)
      (launchedBy_append hnoLaunch hother)
  · intro other hother
    exact (h.prompts other hother).mono (List.subset_append_left past _)
  · intro slot
    have hlaunches : (past ++ if flag then
        [Event.released prompt.key.conversationId prompt.schedule.scheduleId
          prompt.occurrence prompt.ownerInstance] else []).countP
        (Event.launches slot) = past.countP (Event.launches slot) := by
      cases flag <;> simp [Event.launches]
    have hfrees : (past ++ if flag then
        [Event.released prompt.key.conversationId prompt.schedule.scheduleId
          prompt.occurrence prompt.ownerInstance] else []).countP
        (Event.frees slot) = past.countP (Event.frees slot) +
          if flag && prompt.slot == slot then 1 else 0 := by
      cases flag <;> simp [Event.frees, Prompt.slot, List.countP_singleton]
    rw [hlaunches, hfrees]
    rcases h.bound slot with hle | ⟨hle, hheld⟩
    · exact Or.inl (Nat.le_add_right_of_le hle)
    · obtain ⟨row, tenantId, memberId, receipt, hrow, htenant, hmember,
        hreceipt, hlaunched⟩ := hheld
      cases howned : owned prompt.key prompt.ownerInstance receipt with
      | true =>
          obtain ⟨hkey, _, howner⟩ := owned_accepted howned
          rw [howner] at hlaunched
          have hslot := h.unique hprompt hlaunched
          have hfound : getReceipt service.store prompt.key =
              some receipt := by
            have hsame : receipt.key =
                slotKey config tenantId memberId slot := lookup_key hreceipt
            rw [← hkey, hsame]
            exact hreceipt
          rw [hfound, Option.any_some, howned] at hflag
          rw [hflag, hslot]
          left
          simpa using hle
      | false =>
          right
          refine ⟨Nat.le_trans hle (by omega), ?_⟩
          obtain ⟨next, hnext, htenant', hmember', _⟩ := hkeeps.present hrow
          refine ⟨next, tenantId, memberId, receipt, hnext,
            htenant'.trans htenant, hmember'.trans hmember, ?_,
            hlaunched.mono (List.subset_append_left past _)⟩
          change getReceipt
            (Schedule.release service.store prompt generation).1 _ = _
          rw [hget, hreceipt, Option.filter_some_pos (by simp [howned])]

/-! ### Every action keeps the invariant -/

theorem listScheduledConversations_owns {store : Store}
    (hkeyed : Keyed Conversation.id store.conversations)
    (h : record ∈ listScheduledConversations store) : Owns store record := by
  obtain ⟨row, hrow, hrecord⟩ := List.mem_filterMap.mp h
  split at hrecord
  · rename_i tenantId memberId scheduleJson htenant hmember _
    have heq := (Option.some.inj hrecord).symm
    subst heq
    exact ⟨row, hkeyed row hrow, htenant, hmember⟩
  · exact nomatch hrecord

/-- A service step that keeps the pending records of the ticks. -/
theorem Inv.of_service {config : Config} {before : Scheduler}
    (h : Inv config before past)
    (hservice : ServiceInv config service (past ++ events))
    (hkeeps : Keeps before.service.store service.store)
    (hticks : ∀ tick ∈ ticks, ∀ record ∈ tick.pending,
      ∃ old ∈ before.ticks, record ∈ old.pending) :
    Inv config ⟨service, ticks⟩ (past ++ events) := by
  refine ⟨hservice, ?_⟩
  intro tick htick record hrecord
  obtain ⟨old, hold, hpending⟩ := hticks tick htick record hrecord
  exact (h.records old hold record hpending).keeps hkeeps

theorem Inv.mild {config : Config} {before : Scheduler}
    (h : Inv config before past) (hmild : Mild before.service service)
    (hticks : ∀ tick ∈ ticks, ∀ record ∈ tick.pending,
      ∃ old ∈ before.ticks, record ∈ old.pending) :
    Inv config ⟨service, ticks⟩ (past ++ []) :=
  h.of_service (h.service.mild hmild silent_nil) hmild.keeps hticks

theorem mem_set_pending {tick next : Tick} (htick : ticks[index]? = some tick)
    (hpending : ∀ record ∈ next.pending, record ∈ tick.pending) :
    ∀ other ∈ ticks.set index next, ∀ record ∈ other.pending,
      ∃ old ∈ ticks, record ∈ old.pending := by
  intro other hother record hrecord
  rcases List.mem_or_eq_of_mem_set hother with hold | rfl
  · exact ⟨other, hold, hrecord⟩
  · exact ⟨tick, List.mem_of_getElem? htick, hpending record hrecord⟩

theorem mem_erase_pending :
    ∀ other ∈ ticks.eraseIdx index, ∀ record ∈ other.pending,
      ∃ old ∈ ticks, record ∈ old.pending := fun other hother _ hrecord =>
  ⟨other, List.mem_of_mem_eraseIdx hother, hrecord⟩

theorem visitNext_inv {config : Config} {scheduler : Scheduler}
    (h : Inv config scheduler past) {tick : Tick} {rest : List Record}
    (htick : scheduler.ticks[index]? = some tick)
    (hpending : tick.pending = record :: rest) (answers : Answers)
    (clock : Int) :
    Inv config (visitNext config scheduler index tick record rest answers
      clock).1 (past ++ (visitNext config scheduler index tick record rest
        answers clock).2) := by
  have hrest : ∀ r ∈ rest, r ∈ tick.pending := by
    intro r hr
    rw [hpending]
    exact List.mem_cons_of_mem record hr
  have howns : Owns (draw scheduler.service).store record := by
    refine (h.records tick (List.mem_of_getElem? htick) record ?_).keeps
      (draw_mild scheduler.service).keeps
    rw [hpending]
    exact List.mem_cons_self
  have hvisit : ServiceInv config (visit config (draw scheduler.service)
      tick.previous tick.now record answers clock).1 (past ++ (visit config
        (draw scheduler.service) tick.previous tick.now record answers
        clock).2.2) ∧
      Keeps scheduler.service.store (visit config (draw scheduler.service)
        tick.previous tick.now record answers clock).1.store := by
    have hdrawn : ServiceInv config (draw scheduler.service) past := by
      simpa using h.service.mild (draw_mild _) silent_nil
    rcases visit_cases 0 config (draw scheduler.service) tick.previous tick.now
        record answers clock with
      ⟨hcalm, hsilent⟩ | ⟨middle, schedule, occurrence, htidies, hlaunches⟩
    · exact ⟨hdrawn.mild hcalm.mild hsilent,
        (draw_mild _).keeps.trans hcalm.mild.keeps⟩
    · have hmiddle : ServiceInv config middle past := by
        simpa using hdrawn.mild htidies.mild silent_nil
      have hinstance : middle.store.nextInstance =
          scheduler.service.draws := htidies.nextInstance
      refine ⟨hmiddle.launch (howns.keeps htidies.mild.keeps) ?_ ?_
        hlaunches, (draw_mild _).keeps.trans (htidies.mild.keeps.trans
          (reserveNew_keeps hlaunches.reserved))⟩
      · intro slot owner hlaunched
        rw [hinstance]
        exact h.service.drawn hlaunched
      · rw [hinstance, htidies.draws]
        exact Nat.lt_succ_self _
  unfold visitNext
  simp only
  split
  · exact h.of_service hvisit.1 hvisit.2 (mem_set_pending htick hrest)
  · exact h.of_service hvisit.1 hvisit.2 (mem_set_pending htick hrest)
  · exact h.of_service hvisit.1 hvisit.2 (mem_set_pending htick hrest)
  · exact h.of_service hvisit.1 hvisit.2 mem_erase_pending

theorem settle_inv {config : Config} {scheduler : Scheduler}
    (h : Inv config scheduler past) {key : ReceiptKey} {prompt : Prompt}
    {outcome : Outcome} {clock : Int}
    (hprompt : findPrompt scheduler.service key = some prompt)
    (hmatched : Matched scheduler (.settle key outcome clock)) :
    Inv config ⟨(settle config { scheduler.service with
        prompts := scheduler.service.prompts.erase prompt } prompt outcome
        clock).1, scheduler.ticks⟩
      (past ++ (settle config { scheduler.service with
        prompts := scheduler.service.prompts.erase prompt } prompt outcome
        clock).2) := by
  have hmem : prompt ∈ scheduler.service.prompts :=
    List.mem_of_find?_eq_some hprompt
  have herase : Mild scheduler.service { scheduler.service with
      prompts := scheduler.service.prompts.erase prompt } :=
    ⟨retains_of_advances (advances_of_receipts_eq rfl),
      keeps_of_conversations_eq rfl,
      fun _ hmem => List.mem_of_mem_erase hmem, Nat.le_refl _⟩
  have hserviced : ServiceInv config { scheduler.service with
      prompts := scheduler.service.prompts.erase prompt } past := by
    simpa using h.service.mild herase silent_nil
  have hticks : ∀ tick ∈ scheduler.ticks, ∀ record ∈ tick.pending,
      ∃ old ∈ scheduler.ticks, record ∈ old.pending :=
    fun tick htick record hrecord => ⟨tick, htick, hrecord⟩
  rcases settle_cases 0 config { scheduler.service with
      prompts := scheduler.service.prompts.erase prompt } prompt outcome clock
    with ⟨hcalm, hevents⟩ | ⟨generation, detail, rfl, hgeneration, hsettle⟩
  · rw [hevents]
    exact h.mild (herase.trans hcalm.mild) hticks
  · rw [hsettle]
    obtain ⟨hcalm, hevents⟩ := releasePrompt_cases 0 config
      { scheduler.service with
        prompts := scheduler.service.prompts.erase prompt } prompt generation
      detail clock
    have hreleased := hserviced.release
      (h.service.prompts prompt hmem)
      (fun honce howned => hmatched prompt generation hprompt hgeneration
        honce howned)
    have hsettled := hreleased.mild hcalm.mild silent_nil
    rw [List.append_nil, ← hevents] at hsettled
    refine h.of_service hsettled ?_ hticks
    exact (release_keeps _ _ _ _ _ : Keeps scheduler.service.store
      (release scheduler.service.store prompt generation).1).trans
        hcalm.mild.keeps

theorem step_inv (config : Config) (scheduler : Scheduler)
    (past : List Event) (action : Action) (h : Inv config scheduler past)
    (hmatched : Matched scheduler action) :
    Inv config ((machine config).next scheduler action)
      (past ++ (machine config).emit scheduler action) := by
  have hticks : ∀ tick ∈ scheduler.ticks, ∀ record ∈ tick.pending,
      ∃ old ∈ scheduler.ticks, record ∈ old.pending :=
    fun tick htick record hrecord => ⟨tick, htick, hrecord⟩
  have hsame : Inv config scheduler (past ++ []) := by
    rwa [List.append_nil]
  change Inv config (step config scheduler action).1
    (past ++ (step config scheduler action).2)
  cases action with
  | start now => exact h.mild (setLastTick_calm _ _ : Calm 0 _ _).mild hticks
  | tick now =>
      have hbegun := h.mild (setLastTick_calm scheduler.service
        (some (scheduler.service.lastTick.getD now)) : Calm 0 _ _).mild hticks
      simp only [step, beginTick]
      split
      · exact hbegun
      · refine ⟨hbegun.service, ?_⟩
        intro tick htick record hrecord
        rcases List.mem_append.mp htick with hold | hnew
        · exact h.records tick hold record hrecord
        · rw [List.mem_singleton.mp hnew] at hrecord
          exact listScheduledConversations_owns h.service.conversations
            hrecord
  | visit index answers clock =>
      simp only [step]
      split
      · rename_i previous now record rest blocked htick
        exact visitNext_inv h htick rfl answers clock
      · exact h.mild (endTick_calm _ _ : Calm 0 _ _).mild mem_erase_pending
      · exact hsame
  | resume index authorized =>
      simp only [step]
      split
      · rename_i previous now rest id launched retrying blocked htick
        exact h.mild (resume_calm _ _ _ _ : Calm 0 _ _).mild
          (mem_set_pending htick fun _ hr => hr)
      · exact hsame
  | settle key outcome clock =>
      simp only [step]
      split
      · rename_i prompt hprompt
        exact settle_inv h hprompt hmatched
      · exact hsame
  | heartbeat key clock =>
      simp only [step]
      split
      · exact h.mild (heartbeat_calm _ _ _ clock : Calm 0 _ _).mild hticks
      · exact hsame
  | request request clock =>
      exact h.mild ((draw_mild _).trans
        (serve_mild (draw scheduler.service) clock request)) hticks
  | restart clock =>
      refine h.mild ((draw_mild _).trans
        (restartService_calm _ clock : Calm 0 _ _).mild) ?_
      intro tick htick
      cases htick

theorem inv_initial (config : Config) : Inv config initial [] := by
  refine ⟨⟨Keyed.nil _, Keyed.nil _, ?_, ?_, ?_, ?_⟩, ?_⟩
  · rintro slot owner ⟨_, _, hmem⟩
    exact nomatch hmem
  · rintro slot other owner ⟨_, _, hmem⟩
    exact nomatch hmem
  · intro prompt hprompt
    exact nomatch hprompt
  · intro slot
    exact Or.inl (Nat.le_refl 0)
  · intro tick htick
    exact nomatch htick

/-- Scheduled occurrences run at most once, in runs whose pre-execution
failures find the schedule of their one-shot reservation unchanged: a slot is
launched at most once more than it was released, and every launch finds the
stored schedule at the generation of the snapshot that produced it. -/
theorem occurrences_at_most_once (config : Config) (actions : List Action)
    (hmatched : (machine config).Admissible Matched initial actions) :
    (∀ slot, ((machine config).trace initial actions).countP
        (Event.launches slot) ≤
      1 + ((machine config).trace initial actions).countP
        (Event.frees slot)) ∧
    (∀ action conversationId memberId scheduleId occurrence generation owner,
      Event.launched conversationId memberId scheduleId occurrence generation
          owner ∈ (machine config).emit
            ((machine config).run initial actions) action →
      (∃ tick ∈ ((machine config).run initial actions).ticks,
        ∃ record ∈ tick.pending, record.conversation.id = conversationId ∧
          record.conversation.scheduleGeneration = generation) ∧
      ∃ row, getConversation
          ((machine config).run initial actions).service.store
          conversationId = some row ∧
        row.scheduleGeneration = generation ∧
        row.scheduleJson.any (·.scheduleId == some scheduleId) = true) := by
  constructor
  · have hinv := (machine config).invariant_from (Inv config)
      (fun scheduler past action h hallowed =>
        step_inv config scheduler past action h hallowed)
      actions (inv_initial config) hmatched
    rw [List.nil_append] at hinv
    intro slot
    rcases hinv.service.bound slot with hle | ⟨hle, _⟩ <;> omega
  · intro action conversationId memberId scheduleId occurrence generation
      owner hlaunched
    obtain ⟨index, answers, clock, tick, record, rest, middle, after, events,
      schedule, _, htick, hpending, htidies, hlaunches, _, rfl, rfl, rfl⟩ :=
      emit_launched hlaunched
    obtain ⟨row, hrow, hgeneration, hschedule, _⟩ := hlaunches.current
    refine ⟨⟨tick, List.mem_of_getElem? htick, record, ?_, rfl, rfl⟩, row, ?_,
      hgeneration, ?_⟩
    · rw [hpending]
      exact List.mem_cons_self
    · rw [getConversation, htidies.conversations] at hrow
      exact hrow
    · cases hjson : row.scheduleJson with
      | none => simp [scheduleIs, hjson] at hschedule
      | some json =>
          simp only [scheduleIs, hjson, Option.any_some,
            Bool.and_eq_true] at hschedule ⊢
          exact hschedule.1

namespace AtMostOnceWitness

def config : Config := .plain

def onceJson : ScheduleJson :=
  { ScheduleJson.empty with
    scheduleId := some "once", revision := some 1, enabled := some true,
    atInstant := some 1000, oneShot := some true,
    promptTemplate := some "report" }

def slot : Slot := ⟨"c", "once", 1000⟩

def granted : Answers := ⟨false, true, true, true⟩

def denied : Answers := ⟨false, false, false, false⟩

/-- Two members with a one-shot schedule each; the first is launched, the
second has no identity and holds the watermark. -/
def launchRun : List Action :=
  [.request (.create "c" (some "t") (some "m") (some onceJson)) 0,
    .request (.create "d" (some "t") (some "n") (some onceJson)) 0,
    .start 0, .tick 1500, .visit 0 granted 1500, .resume 0 true,
    .visit 0 denied 1500, .visit 0 denied 1500]

/-- The prompt fails before execution and is retried by the next tick. -/
def retriedRun : List Action :=
  launchRun ++
    [.settle (slotKey config "t" "m" slot) (.preExecution "expired") 1700,
      .tick 2000, .visit 0 granted 2000]

/-- The schedule is edited before the prompt fails, so nothing is released,
yet the next tick hands the same occurrence out again. -/
def editedRun : List Action :=
  launchRun ++
    [.request (.editSchedule "c" (some onceJson)) 1600,
      .settle (slotKey config "t" "m" slot) (.preExecution "expired") 1700,
      .tick 2000, .visit 0 granted 2000]

end AtMostOnceWitness

open AtMostOnceWitness in
theorem occurrences_at_most_once_retriedRun :
    (machine config).Admissible Matched initial retriedRun ∧
      ((machine config).trace initial retriedRun).countP
        (Event.launches slot) = 2 ∧
      ((machine config).trace initial retriedRun).countP
        (Event.launches slot) ≤
          1 + ((machine config).trace initial retriedRun).countP
            (Event.frees slot) := by
  have hadmissible :
      (machine config).Admissible Matched initial retriedRun := by
    refine ⟨trivial, trivial, trivial, trivial, trivial, trivial, trivial,
      trivial, ?_, trivial, trivial, trivial⟩
    intro prompt generation hprompt hgeneration _ _
    have hfound := Option.some.inj hprompt
    subst hfound
    have hcaptured := Option.some.inj hgeneration
    subst hcaptured
    decide
  exact ⟨hadmissible, by decide,
    (occurrences_at_most_once config retriedRun hadmissible).1 slot⟩

open AtMostOnceWitness in
theorem occurrence_launched_twice_without_release :
    ¬ ∀ config actions slot, ((machine config).trace initial actions).countP
        (Event.launches slot) ≤
      1 + ((machine config).trace initial actions).countP
        (Event.frees slot) := by
  intro h
  exact absurd (h config editedRun slot) (by decide)

end AiTeam.Schedule
