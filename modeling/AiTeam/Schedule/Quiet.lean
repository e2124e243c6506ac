/-
Conversations the scheduler leaves alone: their schedule is switched off and
no prompt in flight would switch it on again.
-/
import AiTeam.Schedule.Steps

namespace AiTeam.Schedule

open AiTeam.Receipt

/-! ### The effect of one step -/

/-- What an action of the scheduler does to its service. -/
inductive Effect (config : Config) (before : Service) :
    Action → Service → Prop
  | calm {action : Action} {after : Service} :
      Calm before.draws before after → Effect config before action after
  | launch {action : Action} {middle after : Service} {record : Record}
      {clock : Int} {events : List Event} {schedule : ConversationSchedule}
      {occurrence : Int} :
      Tidies (draw before) middle →
      Launches config record middle clock after events schedule occurrence →
      Effect config before action after
  | release {action : Action} {after : Service} {prompt : Prompt}
      {generation : Nat} :
      prompt ∈ before.prompts →
      prompt.scheduleGeneration = some generation →
      Calm before.draws { before with
        prompts := before.prompts.erase prompt,
        store := (release before.store prompt generation).1 } after →
      Effect config before action after
  | create {id : String} {tenantId memberId : Option String}
      {schedule : Option ScheduleJson} {clock : Int} :
      getConversation before.store id = none →
      Effect config before
        (.request (.create id tenantId memberId schedule) clock)
        { draw before with
          store := saveConversation (draw before).store
            ⟨id, tenantId, memberId, schedule, 0⟩ false }
  | edit {id : String} {schedule : Option ScheduleJson} {clock : Int} :
      Effect config before (.request (.editSchedule id schedule) clock)
        { draw before with
          store := updateSchedule (draw before).store id schedule }

theorem visitNext_effect (config : Config) (scheduler : Scheduler)
    (action : Action) (index : Nat) (tick : Tick) (record : Record)
    (rest : List Record) (answers : Answers) (clock : Int) :
    Effect config scheduler.service action
      (visitNext config scheduler index tick record rest answers
        clock).1.service := by
  have hafter : (visitNext config scheduler index tick record rest answers
      clock).1.service = (visit config (draw scheduler.service) tick.previous
        tick.now record answers clock).1 := by
    unfold visitNext
    simp only
    split <;> rfl
  rw [hafter]
  rcases visit_cases scheduler.service.draws config (draw scheduler.service)
      tick.previous tick.now record answers clock with ⟨hcalm, _⟩ |
    ⟨middle, schedule, occurrence, htidies, hlaunches⟩
  · exact .calm ((draw_calm _).trans hcalm)
  · exact .launch htidies hlaunches

theorem erasePrompt_calm {bound : Nat} (service : Service)
    (prompt : Prompt) :
    Calm bound service { service with
      prompts := service.prompts.erase prompt } :=
  calm_memory rfl rfl (fun _ h => List.mem_of_mem_erase h) (Nat.le_refl _)

theorem request_effect (config : Config) (before : Service)
    (request : Request) (clock : Int) :
    Effect config before (.request request clock) { draw before with
      store := serve (draw before).store clock request } := by
  rcases serve_cases before.draws (draw before) (Nat.le_refl _) clock request
    with hcalm | ⟨id, tenantId, memberId, schedule, rfl, hfresh⟩ |
      ⟨id, schedule, rfl⟩
  · exact .calm ((draw_calm _).trans hcalm)
  · have hcreated : Effect config before
        (.request (.create id tenantId memberId schedule) clock) _ :=
      .create hfresh
    simpa only [serve, hfresh, Option.isSome_none, Bool.false_eq_true,
      ↓reduceIte] using hcreated
  · exact .edit

/-- Everything a step can do to the service. -/
theorem step_effect (config : Config) (scheduler : Scheduler)
    (action : Action) :
    Effect config scheduler.service action
      (step config scheduler action).1.service := by
  cases action with
  | start now => exact .calm (setLastTick_calm _ _)
  | tick now =>
      simp only [step, beginTick]
      split <;> exact .calm (setLastTick_calm _ _)
  | visit index answers clock =>
      simp only [step]
      split
      · exact visitNext_effect config scheduler _ index _ _ _ answers clock
      · exact .calm (endTick_calm _ _)
      · exact .calm (Calm.refl _)
  | resume index authorized =>
      simp only [step]
      split
      · exact .calm (resume_calm _ _ _ _)
      · exact .calm (Calm.refl _)
  | settle key outcome clock =>
      simp only [step]
      split
      · rename_i prompt hprompt
        rcases settle_cases scheduler.service.draws config
            { scheduler.service with
              prompts := scheduler.service.prompts.erase prompt } prompt
            outcome clock with ⟨hcalm, _⟩ | ⟨g, detail, _, hg, hsettle⟩
        · exact .calm ((erasePrompt_calm _ prompt).trans hcalm)
        · rw [hsettle]
          have hcalm := (releasePrompt_cases scheduler.service.draws config
            { scheduler.service with
              prompts := scheduler.service.prompts.erase prompt } prompt g
            detail clock).1
          exact .release (List.mem_of_find?_eq_some hprompt) hg hcalm
      · exact .calm (Calm.refl _)
  | heartbeat key clock =>
      simp only [step]
      split
      · exact .calm (heartbeat_calm _ _ _ clock)
      · exact .calm (Calm.refl _)
  | request request clock => exact request_effect config _ request clock
  | restart clock =>
      exact .calm ((draw_calm _).trans (restartService_calm _ clock))

/-! ### Prompts that would reopen their schedule -/

/-- The prompt still owns its accepted receipt. -/
def Owning (store : Store) (prompt : Prompt) : Prop :=
  (getReceipt store prompt.key).any
    (owned prompt.key prompt.ownerInstance) = true

/-- Failing before execution, the prompt would switch the schedule of its
conversation on again. -/
structure Reopens (store : Store) (prompt : Prompt) (generation : Nat) :
    Prop where
  oneShot : prompt.schedule.oneShot = true
  owning : Owning store prompt
  captured : prompt.scheduleGeneration = some generation
  current : scheduleMatches store prompt.key.conversationId
    (retryInput prompt generation) = true

/-- No prompt in flight would reopen the conversation. -/
def Settled (service : Service) (id : String) : Prop :=
  ∀ prompt ∈ service.prompts, prompt.key.conversationId = id →
    ∀ generation, ¬ Reopens service.store prompt generation

/-- The schedule is absent or switched off. -/
def switchedOff (schedule : Option ScheduleJson) : Bool :=
  schedule.all (·.enabled == some false)

/-- The scheduler has nothing to launch for the conversation, now or after a
release. -/
structure Quiet (service : Service) (id : String) : Prop where
  closed : ∀ row, getConversation service.store id = some row →
    switchedOff row.scheduleJson = true
  settled : Settled service id

/-- A prompt that owns its receipt captured no later generation than the one
its conversation has. -/
def Captured (service : Service) (id : String) : Prop :=
  ∀ prompt ∈ service.prompts, prompt.key.conversationId = id →
    Owning service.store prompt →
    ∃ row, getConversation service.store id = some row ∧
      ∀ generation, prompt.scheduleGeneration = some generation →
        generation ≤ row.scheduleGeneration

structure Bounded (service : Service) : Prop where
  receipts : Keyed IdempotencyReceipt.key service.store.receipts
  conversations : Keyed Conversation.id service.store.conversations
  owners : ∀ prompt ∈ service.prompts, prompt.ownerInstance < service.draws
  captured : ∀ id, Captured service id

/-! ### Steps that spare a conversation -/

/-- No prompt of the conversation is added or comes to own a receipt. -/
def Recedes (id : String) (before after : Service) : Prop :=
  ∀ prompt ∈ after.prompts, prompt.key.conversationId = id →
    prompt ∈ before.prompts ∧
      (Owning after.store prompt → Owning before.store prompt)

/-- The step leaves the conversation alone. -/
structure Spares (id : String) (before after : Service) : Prop where
  row : getConversation after.store id = getConversation before.store id
  recedes : Recedes id before after

theorem Spares.refl (id : String) (service : Service) :
    Spares id service service :=
  ⟨rfl, fun _ hprompt _ => ⟨hprompt, fun h => h⟩⟩

variable {id other : String} {before after service middle : Service}
  {config : Config} {record : Record} {clock occurrence : Int}
  {events : List Event} {schedule : ConversationSchedule} {action : Action}

theorem Spares.trans {first second third : Service}
    (hfirst : Spares id first second) (hsecond : Spares id second third) :
    Spares id first third := by
  refine ⟨hsecond.row.trans hfirst.row, ?_⟩
  intro prompt hprompt hid
  obtain ⟨hmiddle, howning⟩ := hsecond.recedes prompt hprompt hid
  obtain ⟨hbefore, howning'⟩ := hfirst.recedes prompt hmiddle hid
  exact ⟨hbefore, fun h => howning' (howning h)⟩

/-- Whether the schedule matches depends on the row alone. -/
theorem scheduleMatches_congr {before after : Store}
    (h : getConversation after id = getConversation before id)
    (retry : RetryInput) :
    scheduleMatches after id retry = scheduleMatches before id retry := by
  unfold scheduleMatches
  rw [h]

theorem Settled.spared (h : Settled before id)
    (hspares : Spares id before after) : Settled after id := by
  intro prompt hprompt hid generation hreopens
  obtain ⟨hbefore, howning⟩ := hspares.recedes prompt hprompt hid
  refine h prompt hbefore hid generation ⟨hreopens.oneShot,
    howning hreopens.owning, hreopens.captured, ?_⟩
  have hcurrent := hreopens.current
  rw [hid] at hcurrent ⊢
  rwa [scheduleMatches_congr hspares.row] at hcurrent

theorem Quiet.spared (h : Quiet before id) (hspares : Spares id before after) :
    Quiet after id := by
  refine ⟨?_, h.settled.spared hspares⟩
  intro row hrow
  rw [hspares.row] at hrow
  exact h.closed row hrow

theorem Captured.keeps (h : Captured before id)
    (hkeeps : Keeps before.store after.store)
    (hrecedes : Recedes id before after) : Captured after id := by
  intro prompt hprompt hid howning
  obtain ⟨hbefore, howning'⟩ := hrecedes prompt hprompt hid
  obtain ⟨row, hrow, hle⟩ := h prompt hbefore hid (howning' howning)
  obtain ⟨next, hnext, hevolves⟩ := hkeeps.present hrow
  exact ⟨next, hnext, fun generation hg =>
    Nat.le_trans (hle generation hg) hevolves.generation_le⟩

theorem Captured.spared (h : Captured before id)
    (hspares : Spares id before after) : Captured after id := by
  intro prompt hprompt hid howning
  obtain ⟨hbefore, howning'⟩ := hspares.recedes prompt hprompt hid
  rw [hspares.row]
  exact h prompt hbefore hid (howning' howning)

theorem Calm.spares {bound : Nat} (h : Calm bound before after)
    (howners : ∀ prompt ∈ before.prompts, prompt.ownerInstance < bound)
    (id : String) : Spares id before after := by
  constructor
  · rw [getConversation, h.conversations]
    rfl
  · intro prompt hprompt _
    have hbefore := h.prompts prompt hprompt
    exact ⟨hbefore, h.owners prompt.key _ (howners prompt hbefore)⟩

/-- A launch of another conversation. -/
theorem Launches.spares
    (h : Launches config record before clock after events schedule
      occurrence) (hother : record.conversation.id ≠ id) :
    Spares id before after := by
  constructor
  · have hrows := reserveNew_conversations h.reserved
    split at hrows
    · rw [getConversation_updateWhere _ _ hrows fun _ => rfl]
      cases hrow : getConversation before.store id with
      | none => rfl
      | some row =>
          have hid : row.id = id := lookup_key hrow
          have hmiss : oneShotSelects (reserveInput config record schedule
              occurrence) row = false := by
            have hne : row.id ≠ record.conversation.id :=
              fun heq => hother (heq.symm.trans hid)
            simp [oneShotSelects, reserveInput, hne]
          rw [Option.map_some, hmiss]
          rfl
    · rw [getConversation, hrows]
      rfl
  · intro prompt hprompt hid
    rw [h.prompts] at hprompt
    rcases List.mem_append.mp hprompt with hbefore | hnew
    · refine ⟨hbefore, ?_⟩
      intro howning
      have hkey : (reserveInput config record schedule occurrence).key ≠
          prompt.key := by
        intro heq
        apply hother
        rw [← hid, ← heq]
        rfl
      rwa [Owning, getReceipt_insert h.reserved, if_neg hkey,
        Option.or_none] at howning
    · rw [List.mem_singleton.mp hnew] at hid
      exact absurd hid hother

/-- A launch reserves for an instance no prompt in flight has. -/
theorem Launches.captured
    (h : Launches config record before clock after events schedule
      occurrence)
    (howners : ∀ prompt ∈ before.prompts,
      prompt.ownerInstance < before.store.nextInstance)
    (hcaptured : Captured before record.conversation.id) :
    Captured after record.conversation.id := by
  have hkeeps := reserveNew_keeps h.reserved
  intro prompt hprompt hid howning
  rw [h.prompts] at hprompt
  rcases List.mem_append.mp hprompt with hbefore | hnew
  · have howning' : Owning before.store prompt := by
      rw [Owning, getReceipt_insert h.reserved] at howning
      cases hreceipt : getReceipt before.store prompt.key with
      | some receipt =>
          rw [hreceipt] at howning
          rw [Owning, hreceipt]
          exact howning
      | none =>
          rw [hreceipt] at howning
          split at howning
          · have hinstance := (owned_accepted howning).2.2
            have hlt := howners prompt hbefore
            change before.store.nextInstance = _ at hinstance
            omega
          · exact nomatch howning
    obtain ⟨row, hrow, hle⟩ := hcaptured prompt hbefore hid howning'
    obtain ⟨next, hnext, hevolves⟩ := hkeeps.present hrow
    exact ⟨next, hnext, fun generation hg =>
      Nat.le_trans (hle generation hg) hevolves.generation_le⟩
  · rw [List.mem_singleton.mp hnew]
    obtain ⟨row, hrow, hgeneration, hschedule, _⟩ := h.current
    obtain ⟨next, hnext, _⟩ := hkeeps.present hrow
    refine ⟨next, hnext, ?_⟩
    intro generation hg
    by_cases honce : schedule.oneShot = true
    · -- the one-shot update selected the row and moved its generation
      have hrows := reserveNew_conversations h.reserved
      rw [if_pos (show (reserveInput config record schedule
        occurrence).oneShot = true from honce)] at hrows
      have hselects : oneShotSelects (reserveInput config record schedule
          occurrence) row = true := by
        have hrowId : row.id = record.conversation.id := lookup_key hrow
        obtain ⟨json, hjson, hmatch⟩ := (Option.any_eq_true _ _).mp hschedule
        rw [Bool.and_eq_true] at hmatch
        simp [oneShotSelects, reserveInput, hrowId, hjson, hmatch.1, hmatch.2,
          hgeneration]
      rw [getConversation_updateWhere _ _ hrows fun _ => rfl, hrow,
        Option.map_some, if_pos hselects] at hnext
      have hlaunched : generation = row.scheduleGeneration + 1 := by
        simp only [launchedPrompt, reserveInput, honce, ↓reduceIte,
          Option.map_some, Option.some.injEq] at hg
        omega
      rw [hlaunched, ← Option.some.inj hnext]
      exact Nat.le_refl _
    · simp [launchedPrompt, reserveInput, honce] at hg

/-! ### Releases -/

/-- The service after the store part of a release. -/
def released (service : Service) (prompt : Prompt) (generation : Nat) :
    Service :=
  { service with
    prompts := service.prompts.erase prompt,
    store := (release service.store prompt generation).1 }

theorem released_recedes (h : Bounded service) (prompt : Prompt)
    (generation : Nat) (id : String) :
    Recedes id service (released service prompt generation) := by
  intro other hother _
  refine ⟨List.mem_of_mem_erase hother, ?_⟩
  intro howning
  rw [Owning, released, release, release_get h.receipts] at howning
  cases hreceipt : getReceipt service.store other.key with
  | none =>
      rw [hreceipt] at howning
      exact nomatch howning
  | some receipt =>
      rw [hreceipt, Option.filter_some] at howning
      rw [Owning, hreceipt]
      split at howning
      · exact howning
      · exact nomatch howning

/-- A release that does not reopen its schedule changes no conversation, and
one that does changes only its own. -/
theorem released_row (h : Bounded service) (prompt : Prompt) {generation : Nat}
    (hcaptured : prompt.scheduleGeneration = some generation)
    (hspared : prompt.key.conversationId = id →
      ¬ Reopens service.store prompt generation) :
    getConversation (released service prompt generation).store id =
      getConversation service.store id := by
  simp only [released, release, releasePreExecutionPrompt, Option.getD_some]
  split
  · rename_i hany
    split
    · rename_i retry honce hretry
      cases hretry
      split
      · rename_i hmatches
        have howning : Owning service.store prompt := by
          rwa [Owning, ← any_owned h.receipts]
        have hother : prompt.key.conversationId ≠ id := fun hid =>
          hspared hid ⟨honce, howning, hcaptured, hmatches⟩
        simp only [reopenSchedule, setScheduleRetry]
        rw [getConversation, lookup_updateWhere Conversation.id id _
          (setEnabled true) fun _ => rfl]
        change (getConversation service.store id).map _ = _
        cases hrow : getConversation service.store id with
        | none => rfl
        | some row =>
            have hid : row.id = id := lookup_key hrow
            have hne : row.id ≠ prompt.key.conversationId :=
              fun heq => hother (heq.symm.trans hid)
            simp [hne]
      · rfl
    · rfl
  · rfl

theorem released_spares (h : Bounded service) (prompt : Prompt)
    {generation : Nat}
    (hcaptured : prompt.scheduleGeneration = some generation)
    (hspared : prompt.key.conversationId = id →
      ¬ Reopens service.store prompt generation) :
    Spares id service (released service prompt generation) :=
  ⟨released_row h prompt hcaptured hspared,
    released_recedes h prompt generation id⟩

/-! ### Edits and new conversations -/

def editSchedule (service : Service) (id : String)
    (schedule : Option ScheduleJson) : Service :=
  { service with store := updateSchedule service.store id schedule }

theorem editSchedule_recedes (service : Service) (id other : String)
    (schedule : Option ScheduleJson) :
    Recedes other service (editSchedule service id schedule) := by
  intro prompt hprompt _
  refine ⟨hprompt, ?_⟩
  intro howning
  rw [Owning, getReceipt] at howning ⊢
  rwa [editSchedule, updateSchedule_receipts] at howning

theorem updateSchedule_get_of_ne (store : Store)
    (schedule : Option ScheduleJson) (hother : id ≠ other) :
    getConversation (updateSchedule store id schedule) other =
      getConversation store other := by
  cases hcurrent : getConversation store id with
  | none =>
      unfold updateSchedule
      rw [hcurrent]
  | some current =>
      rw [updateSchedule_get hcurrent, if_neg (Ne.symm hother)]

theorem editSchedule_spares (service : Service)
    (schedule : Option ScheduleJson) (hother : id ≠ other) :
    Spares other service (editSchedule service id schedule) :=
  ⟨updateSchedule_get_of_ne service.store schedule hother,
    editSchedule_recedes service id other schedule⟩

/-- An edit outdates every generation captured before it. -/
theorem editSchedule_settled (h : Bounded service) (id : String)
    (schedule : Option ScheduleJson) :
    Settled (editSchedule service id schedule) id := by
  intro prompt hprompt hid generation hreopens
  have howning := (editSchedule_recedes service id id schedule prompt hprompt
    hid).2 hreopens.owning
  obtain ⟨row, hrow, hle⟩ := h.captured id prompt hprompt hid howning
  have hcurrent := hreopens.current
  rw [scheduleMatches, hid, editSchedule, updateSchedule_get hrow,
    if_pos rfl] at hcurrent
  have hcaptured := hle generation hreopens.captured
  simp only [Option.any_some, retryInput, Bool.and_eq_true,
    beq_iff_eq] at hcurrent
  omega

/-- Switching a schedule off leaves its conversation quiet. -/
theorem editSchedule_quiet (h : Bounded service) (id : String)
    {schedule : Option ScheduleJson} (hclosed : switchedOff schedule = true) :
    Quiet (editSchedule service id schedule) id := by
  refine ⟨?_, editSchedule_settled h id schedule⟩
  intro row hrow
  cases hcurrent : getConversation service.store id with
  | none =>
      rw [editSchedule, updateSchedule, hcurrent] at hrow
      exact absurd (hcurrent.symm.trans hrow) (fun h => by cases h)
  | some current =>
      rw [editSchedule, updateSchedule_get hcurrent, if_pos rfl] at hrow
      rw [← Option.some.inj hrow]
      exact hclosed

theorem editSchedule_bounded (h : Bounded service) (id : String)
    (schedule : Option ScheduleJson) :
    Bounded (editSchedule service id schedule) := by
  have hkeeps := updateSchedule_keeps service.store id schedule
  refine ⟨?_, hkeeps.keyed h.conversations, h.owners, ?_⟩
  · rw [editSchedule, updateSchedule_receipts]
    exact h.receipts
  · intro other
    exact (h.captured other).keeps hkeeps
      (editSchedule_recedes service id other schedule)

def createConversation (service : Service) (record : Conversation) :
    Service :=
  { service with store := saveConversation service.store record false }

theorem saveConversation_get_of_ne {store : Store} {record : Conversation}
    (hfresh : getConversation store record.id = none)
    (hother : record.id ≠ other) :
    getConversation (saveConversation store record false) other =
      getConversation store other := by
  unfold saveConversation
  rw [hfresh, getConversation, lookup_append, if_neg hother, Option.or_none]
  rfl

theorem createConversation_recedes (service : Service)
    (record : Conversation) (other : String) :
    Recedes other service (createConversation service record) := by
  intro prompt hprompt _
  refine ⟨hprompt, ?_⟩
  intro howning
  rw [Owning, getReceipt] at howning ⊢
  rwa [createConversation, saveConversation_receipts] at howning

theorem createConversation_spares {record : Conversation}
    (hfresh : getConversation service.store record.id = none)
    (hother : record.id ≠ other) :
    Spares other service (createConversation service record) :=
  ⟨saveConversation_get_of_ne hfresh hother,
    createConversation_recedes service record other⟩

theorem createConversation_bounded (h : Bounded service)
    {record : Conversation}
    (hfresh : getConversation service.store record.id = none) :
    Bounded (createConversation service record) := by
  have hkeeps := saveConversation_keeps_of_fresh false hfresh
  refine ⟨?_, hkeeps.keyed h.conversations, h.owners, ?_⟩
  · rw [createConversation, saveConversation_receipts]
    exact h.receipts
  · intro other
    exact (h.captured other).keeps hkeeps
      (createConversation_recedes service record other)

/-! ### Whole steps -/

theorem Bounded.calm (h : Bounded before)
    (hcalm : Calm before.draws before after) : Bounded after := by
  refine ⟨hcalm.retains.keyed h.receipts, ?_, ?_, ?_⟩
  · rw [hcalm.conversations]
    exact h.conversations
  · intro prompt hprompt
    exact Nat.lt_of_lt_of_le (h.owners prompt (hcalm.prompts prompt hprompt))
      hcalm.draws
  · intro id
    exact (h.captured id).spared (hcalm.spares h.owners id)

theorem draw_bounded (h : Bounded service) : Bounded (draw service) :=
  h.calm (draw_calm service)

theorem initialService_bounded : Bounded initialService :=
  ⟨Keyed.nil _, Keyed.nil _, fun _ h => (nomatch h),
    fun _ _ h => nomatch h⟩

theorem Bounded.released (h : Bounded service) (prompt : Prompt)
    (generation : Nat) : Bounded (released service prompt generation) := by
  have hkeeps : Keeps service.store
      (Schedule.released service prompt generation).store :=
    release_keeps _ _ _ _ _
  refine ⟨?_, hkeeps.keyed h.conversations, ?_, ?_⟩
  · rw [Schedule.released, release, release_receipts]
    exact h.receipts.filter _
  · intro other hother
    exact h.owners other (List.mem_of_mem_erase hother)
  · intro id
    exact (h.captured id).keeps hkeeps
      (released_recedes h prompt generation id)

/-- The instances of prompts in flight stay below the one a visit draws. -/
theorem Tidies.owners (h : Bounded before)
    (htidies : Tidies (draw before) middle) :
    ∀ prompt ∈ middle.prompts,
      prompt.ownerInstance < middle.store.nextInstance := by
  intro prompt hprompt
  rw [htidies.prompts] at hprompt
  rw [htidies.nextInstance]
  exact h.owners prompt hprompt

theorem Tidies.bounded (h : Bounded before)
    (htidies : Tidies (draw before) middle) : Bounded middle :=
  (draw_bounded h).calm htidies.calm

theorem Bounded.launched (h : Bounded before)
    (howners : ∀ prompt ∈ before.prompts,
      prompt.ownerInstance < before.store.nextInstance)
    (hinstance : before.store.nextInstance < before.draws)
    (hlaunches : Launches config record before clock after events schedule
      occurrence) : Bounded after := by
  have hkeeps := reserveNew_keeps hlaunches.reserved
  have hretains := reserveNew_retains hlaunches.absent hlaunches.reserved
  refine ⟨hretains.keyed h.receipts, hkeeps.keyed h.conversations, ?_, ?_⟩
  · intro prompt hprompt
    rw [hlaunches.prompts] at hprompt
    rw [hlaunches.draws]
    rcases List.mem_append.mp hprompt with hbefore | hnew
    · exact h.owners prompt hbefore
    · rw [List.mem_singleton.mp hnew]
      exact hinstance
  · intro id
    by_cases hid : record.conversation.id = id
    · subst hid
      exact hlaunches.captured howners (h.captured _)
    · exact (h.captured id).spared (hlaunches.spares hid)

theorem Effect.bounded (heffect : Effect config before action after)
    (h : Bounded before) : Bounded after := by
  cases heffect with
  | calm hcalm => exact h.calm hcalm
  | launch htidies hlaunches =>
      refine (htidies.bounded h).launched (htidies.owners h) ?_ hlaunches
      rw [htidies.nextInstance, htidies.draws]
      exact Nat.lt_succ_self _
  | release hprompt hcaptured hcalm => exact (h.released _ _).calm hcalm
  | create hfresh => exact createConversation_bounded (draw_bounded h) hfresh
  | edit => exact editSchedule_bounded (draw_bounded h) _ _

/-- A launch found an open schedule. -/
theorem Launches.open
    (h : Launches config record before clock after events schedule
      occurrence) :
    ∃ row, getConversation before.store record.conversation.id = some row ∧
      switchedOff row.scheduleJson = false := by
  obtain ⟨row, hrow, _, _, henabled⟩ := h.current
  obtain ⟨json, hjson, htrue⟩ := (Option.any_eq_true _ _).mp henabled
  refine ⟨row, hrow, ?_⟩
  rw [beq_iff_eq] at htrue
  rw [hjson, switchedOff, Option.all_some, htrue]
  rfl

/-- A launch spares a conversation unless it found its schedule open. -/
theorem Launches.spares_or_open (h : Bounded before)
    (htidies : Tidies (draw before) middle)
    (hlaunches : Launches config record middle clock after events schedule
      occurrence) (id : String) :
    Spares id before after ∨
      ∃ row, getConversation before.store id = some row ∧
        switchedOff row.scheduleJson = false := by
  have hdraw : Spares id before (draw before) :=
    (draw_calm before).spares h.owners id
  have hmiddle : Spares id before middle :=
    hdraw.trans (htidies.calm.spares (draw_bounded h).owners id)
  by_cases hid : record.conversation.id = id
  · right
    obtain ⟨row, hrow, hopen⟩ := hlaunches.open
    rw [hid, hmiddle.row] at hrow
    exact ⟨row, hrow, hopen⟩
  · exact Or.inl (hmiddle.trans (hlaunches.spares hid))

/-- The ways a step can touch a conversation. -/
theorem Effect.spares_or (heffect : Effect config before action after)
    (h : Bounded before) (id : String) :
    Spares id before after ∨
    (∃ row, getConversation before.store id = some row ∧
      switchedOff row.scheduleJson = false) ∨
    (∃ prompt ∈ before.prompts, prompt.key.conversationId = id ∧
      ∃ generation, Reopens before.store prompt generation) ∨
    (∃ tenantId memberId schedule clock,
      action = .request (.create id tenantId memberId schedule) clock) ∨
    ∃ row schedule clock, getConversation before.store id = some row ∧
      action = .request (.editSchedule id schedule) clock ∧
      after = editSchedule (draw before) id schedule := by
  have hdraw : Spares id before (draw before) :=
    (draw_calm before).spares h.owners id
  cases heffect with
  | calm hcalm => exact Or.inl (hcalm.spares h.owners id)
  | launch htidies hlaunches =>
      rcases hlaunches.spares_or_open h htidies id with hspares | hopen
      · exact Or.inl hspares
      · exact Or.inr (Or.inl hopen)
  | release hprompt hcaptured hcalm =>
      rename_i prompt generation
      by_cases hreopens : prompt.key.conversationId = id ∧
          Reopens before.store prompt generation
      · right; right; left
        exact ⟨prompt, hprompt, hreopens.1, generation, hreopens.2⟩
      · left
        have hspares := released_spares h prompt hcaptured
          fun hid hopen => hreopens ⟨hid, hopen⟩
        exact hspares.trans
          (hcalm.spares (h.released prompt generation).owners id)
  | create hfresh =>
      rename_i other tenantId memberId schedule clock
      by_cases hid : other = id
      · subst hid
        right; right; right; left
        exact ⟨tenantId, memberId, schedule, clock, rfl⟩
      · exact Or.inl (hdraw.trans (createConversation_spares hfresh hid))
  | edit =>
      rename_i other schedule clock
      by_cases hid : other = id
      · subst hid
        cases hrow : getConversation before.store other with
        | none =>
            -- an edit of a missing conversation does nothing
            left
            have hsame : updateSchedule (draw before).store other schedule =
                (draw before).store := by
              unfold updateSchedule
              rw [show getConversation (draw before).store other = none
                from hrow]
            rw [hsame]
            exact hdraw
        | some row =>
            right; right; right; right
            exact ⟨row, schedule, clock, rfl, rfl, rfl⟩
      · exact Or.inl
          (hdraw.trans (editSchedule_spares (draw before) schedule hid))

/-- The ways an action can touch a conversation: a launch, the failure of a
prompt before its execution, a creation or an edit. -/
theorem step_spares_or (config : Config) {scheduler : Scheduler}
    (h : Bounded scheduler.service) (action : Action) (id : String) :
    Spares id scheduler.service (step config scheduler action).1.service ∨
    (∃ row, getConversation scheduler.service.store id = some row ∧
      switchedOff row.scheduleJson = false) ∨
    (∃ key detail clock prompt generation,
      action = .settle key (.preExecution detail) clock ∧
      findPrompt scheduler.service key = some prompt ∧
      prompt.key.conversationId = id ∧
      Reopens scheduler.service.store prompt generation) ∨
    (∃ tenantId memberId schedule clock,
      action = .request (.create id tenantId memberId schedule) clock ∧
      getConversation scheduler.service.store id = none ∧
      (step config scheduler action).1.service =
        createConversation (draw scheduler.service)
          ⟨id, tenantId, memberId, schedule, 0⟩) ∨
    ∃ row schedule clock,
      getConversation scheduler.service.store id = some row ∧
      action = .request (.editSchedule id schedule) clock := by
  have hcalm : ∀ {after : Service},
      Calm scheduler.service.draws scheduler.service after →
      Spares id scheduler.service after :=
    fun hafter => hafter.spares h.owners id
  have hdraw : Spares id scheduler.service (draw scheduler.service) :=
    hcalm (draw_calm _)
  cases action with
  | start now => exact Or.inl (hcalm (setLastTick_calm _ _))
  | tick now =>
      left
      simp only [step, beginTick]
      split <;> exact hcalm (setLastTick_calm _ _)
  | visit index answers clock =>
      simp only [step]
      split
      · rename_i previous now record rest blocked _
        have hafter : (visitNext config scheduler index
            ⟨previous, now, record :: rest, none, blocked⟩ record rest answers
            clock).1.service = (visit config (draw scheduler.service) previous
              now record answers clock).1 := by
          unfold visitNext
          simp only
          split <;> rfl
        rw [hafter]
        rcases visit_cases scheduler.service.draws config
            (draw scheduler.service) previous now record answers clock with
          ⟨hvisit, _⟩ | ⟨middle, schedule, occurrence, htidies, hlaunches⟩
        · exact Or.inl (hcalm ((draw_calm _).trans hvisit))
        · rcases hlaunches.spares_or_open h htidies id with hspares | hopen
          · exact Or.inl hspares
          · exact Or.inr (Or.inl hopen)
      · exact Or.inl (hcalm (endTick_calm _ _))
      · exact Or.inl (Spares.refl id _)
  | resume index authorized =>
      left
      simp only [step]
      split
      · exact hcalm (resume_calm _ _ _ _)
      · exact Spares.refl id _
  | settle key outcome clock =>
      simp only [step]
      split
      · rename_i prompt hprompt
        rcases settle_cases scheduler.service.draws config
            { scheduler.service with
              prompts := scheduler.service.prompts.erase prompt } prompt
            outcome clock with ⟨hsettled, _⟩ | ⟨g, detail, rfl, hg, hsettle⟩
        · exact Or.inl (hcalm ((erasePrompt_calm _ prompt).trans hsettled))
        · have hreleased := (releasePrompt_cases scheduler.service.draws config
            { scheduler.service with
              prompts := scheduler.service.prompts.erase prompt } prompt g
            detail clock).1
          by_cases hreopens : prompt.key.conversationId = id ∧
              Reopens scheduler.service.store prompt g
          · right; right; left
            exact ⟨key, detail, clock, prompt, g, rfl, hprompt, hreopens.1,
              hreopens.2⟩
          · left
            rw [hsettle]
            have hspares := released_spares h prompt hg
              fun hid hopen => hreopens ⟨hid, hopen⟩
            exact hspares.trans
              (hreleased.spares (h.released prompt g).owners id)
      · exact Or.inl (Spares.refl id _)
  | heartbeat key clock =>
      left
      simp only [step]
      split
      · exact hcalm (heartbeat_calm _ _ _ clock)
      · exact Spares.refl id _
  | request request clock =>
      rcases serve_cases scheduler.service.draws (draw scheduler.service)
          (Nat.le_refl _) clock request with hserved |
        ⟨other, tenantId, memberId, schedule, rfl, hfresh⟩ |
        ⟨other, schedule, rfl⟩
      · exact Or.inl (hcalm ((draw_calm _).trans hserved))
      · by_cases hid : other = id
        · subst hid
          right; right; right; left
          refine ⟨tenantId, memberId, schedule, clock, rfl, hfresh, ?_⟩
          simp only [step, serve, hfresh, Option.isSome_none,
            Bool.false_eq_true, ↓reduceIte]
          rfl
        · left
          simp only [step, serve, hfresh, Option.isSome_none,
            Bool.false_eq_true, ↓reduceIte]
          exact hdraw.trans (createConversation_spares hfresh hid)
      · by_cases hid : other = id
        · subst hid
          cases hrow : getConversation scheduler.service.store other with
          | none =>
              -- an edit of a missing conversation does nothing
              left
              have hsame : updateSchedule (draw scheduler.service).store other
                  schedule = (draw scheduler.service).store := by
                unfold updateSchedule
                rw [show getConversation (draw scheduler.service).store other =
                  none from hrow]
              simp only [step, serve, hsame]
              exact hdraw
          | some row =>
              right; right; right; right
              exact ⟨row, schedule, clock, rfl, rfl⟩
        · left
          exact hdraw.trans
            (editSchedule_spares (draw scheduler.service) schedule hid)
  | restart clock =>
      exact Or.inl (hcalm ((draw_calm _).trans (restartService_calm _ clock)))

/-- The action puts an open schedule into the conversation. -/
def Opens (store : Store) (id : String) : Action → Prop
  | .request (.create other _ _ _) _ => other = id
  | .request (.editSchedule other schedule) _ =>
      other = id ∧ (getConversation store id).isSome = true ∧
        switchedOff schedule = false
  | _ => False

/-- Only an action that opens its schedule wakes a quiet conversation. -/
theorem Effect.quiet (heffect : Effect config before action after)
    (hbounded : Bounded before) (hopens : ¬ Opens before.store id action)
    (h : Quiet before id) : Quiet after id := by
  rcases heffect.spares_or hbounded id with hspares | ⟨row, hrow, hopen⟩ |
    ⟨prompt, hprompt, hid, generation, hreopens⟩ |
    ⟨_, _, _, _, rfl⟩ | ⟨row, schedule, clock, hrow, rfl, rfl⟩
  · exact h.spared hspares
  · rw [h.closed row hrow] at hopen
    exact nomatch hopen
  · exact absurd hreopens (h.settled prompt hprompt hid generation)
  · exact absurd rfl hopens
  · apply editSchedule_quiet (draw_bounded hbounded)
    cases hcase : switchedOff schedule with
    | true => rfl
    | false => exact absurd ⟨rfl, by rw [hrow]; rfl, hcase⟩ hopens

/-- A conversation appears only by being created. -/
theorem Effect.absent (heffect : Effect config before action after)
    (hbounded : Bounded before)
    (hcreate : ∀ tenantId memberId schedule clock,
      action ≠ .request (.create id tenantId memberId schedule) clock)
    (h : getConversation before.store id = none) :
    getConversation after.store id = none := by
  rcases heffect.spares_or hbounded id with hspares | ⟨row, hrow, _⟩ |
    ⟨prompt, hprompt, hid, generation, hreopens⟩ |
    ⟨_, _, _, _, hcreated⟩ | ⟨row, _, _, hrow, _⟩
  · exact hspares.row.trans h
  · rw [h] at hrow
    exact nomatch hrow
  · have hcurrent := hreopens.current
    rw [scheduleMatches, hid, h] at hcurrent
    exact nomatch hcurrent
  · exact absurd hcreated (hcreate _ _ _ _)
  · rw [h] at hrow
    exact nomatch hrow

theorem Effect.keeps (h : Effect config before action after) :
    Keeps before.store after.store := by
  cases h with
  | calm hcalm => exact hcalm.mild.keeps
  | launch htidies hlaunches =>
      exact ((draw_mild before).trans htidies.mild).keeps.trans
        (reserveNew_keeps hlaunches.reserved)
  | release hprompt hcaptured hcalm =>
      exact (release_keeps _ _ _ _ _).trans hcalm.mild.keeps
  | create hfresh =>
      rename_i id tenantId memberId schedule clock
      have hkeeps : Keeps (draw before).store (saveConversation
          (draw before).store ⟨id, tenantId, memberId, schedule, 0⟩ false) :=
        saveConversation_keeps_of_fresh false hfresh
      exact (draw_mild before).keeps.trans hkeeps
  | edit =>
      rename_i id schedule clock
      exact (draw_mild before).keeps.trans
        (updateSchedule_keeps (draw before).store id schedule)

/-- No visit launches an occurrence of a quiet conversation. -/
theorem Quiet.not_launched {scheduler : Scheduler}
    (hbounded : Bounded scheduler.service) (h : Quiet scheduler.service id)
    (action : Action) (memberId scheduleId : String) (occurrence : Int)
    (generation owner : Nat) :
    Event.launched id memberId scheduleId occurrence generation owner ∉
      (machine config).emit scheduler action := by
  intro hlaunched
  obtain ⟨_, _, _, _, record, _, middle, _, _, schedule, _, _, _, htidies,
    hlaunches, _, hid, _, _⟩ := emit_launched hlaunched
  have hdraw : Spares id scheduler.service (draw scheduler.service) :=
    (draw_calm _).spares hbounded.owners id
  have hmiddle := hdraw.trans
    (htidies.calm.spares (draw_bounded hbounded).owners id)
  obtain ⟨row, hrow, hopen⟩ := hlaunches.open
  rw [hid] at hrow
  rw [(h.spared hmiddle).closed row hrow] at hopen
  exact nomatch hopen

end AiTeam.Schedule
