/-
What the committed operations of the automation service do: how they keep the
links between tasks and conversations, and what they leave of other tasks.
-/
import Mathlib.Data.Option.Basic
import AiTeam.Automation.Linked

namespace AiTeam.Automation

open AiTeam.Receipt AiTeam.Schedule

/-! ### Operations on another task -/

/-- The step does nothing for the task: it may only be deleted, and its
quiet conversations stay quiet. -/
structure Leaves (id : String) (state next : State) : Prop where
  task : ∀ {task}, getTask state id = some task →
    ∃ found, getTask next id = some found ∧
      (task.deleted = true → found.deleted = true)
  initialized : uninitialized state id = false →
    uninitialized next id = false
  bindings : ∀ {conversationId}, (conversationId, id) ∈ next.bindings →
    (conversationId, id) ∈ state.bindings
  quiet : ∀ {conversationId}, (conversationId, id) ∈ state.bindings →
    Quiet state.service conversationId → Quiet next.service conversationId

theorem Leaves.refl (id : String) (state : State) : Leaves id state state :=
  ⟨fun {task} htask => ⟨task, htask, fun h => h⟩, fun h => h, fun h => h,
    fun _ h => h⟩

variable {id other conversationId taskId : String} {owner : Owner}
  {state middle next : State} {conversation : Option Conversation} {row : Task}
  {schedule : ConversationSchedule}

theorem Leaves.trans {first second third : State}
    (hfirst : Leaves id first second) (hsecond : Leaves id second third)
    (hkept : ∀ {conversationId}, (conversationId, id) ∈ first.bindings →
      (conversationId, id) ∈ second.bindings) : Leaves id first third := by
  constructor
  · intro task htask
    obtain ⟨middle, hmiddle, hdeleted⟩ := hfirst.task htask
    obtain ⟨last, hlast, hdeleted'⟩ := hsecond.task hmiddle
    exact ⟨last, hlast, fun h => hdeleted' (hdeleted h)⟩
  · exact fun h => hsecond.initialized (hfirst.initialized h)
  · exact fun h => hfirst.bindings (hsecond.bindings h)
  · intro conversationId hbound hquiet
    exact hsecond.quiet (hkept hbound) (hfirst.quiet hbound hquiet)

theorem updateTask_leaves (state : State) (conversationId : String)
    (deleted : Bool) (hother : other ≠ id) :
    Leaves other state (updateTask state id conversationId deleted) := by
  refine ⟨?_, fun h => h, fun h => h, fun _ h => h⟩
  intro task htask
  rw [getTask_updateTask_of_ne _ _ _ hother]
  exact ⟨task, htask, fun h => h⟩

/-- An edit of a conversation that is not bound to the task. -/
theorem edit_leaves (state : State) (schedule : Option ScheduleJson)
    (hunbound : (conversationId, other) ∉ state.bindings) :
    Leaves other state (state.edit conversationId schedule) := by
  refine ⟨fun {task} htask => ⟨task, htask, fun h => h⟩, fun h => h,
    fun h => h, ?_⟩
  intro bound hbound hquiet
  refine hquiet.spared (editSchedule_spares state.service schedule ?_)
  rintro rfl
  exact hunbound hbound

/-! ### The task an operation works on -/

/-- The conversation a task id stands for: a scheduled conversation without
task is a task of its own id. -/
def targetConversation (state : State) (id : String) : String :=
  (getTask state id).elim id Task.conversationId

/-- The state and the task row after `resolve` and `materialize`. -/
structure Materialized (state : State) (id : String) (owner : Owner)
    (conversation : Option Conversation) (middle : State) (row : Task) :
    Prop where
  linked : Linked middle
  task : getTask middle id = some row
  owner_eq : row.owner = owner
  live : row.deleted = false
  target : row.conversationId = targetConversation state id
  scheduler : middle.scheduler = state.scheduler
  creations : middle.creations = state.creations
  resolved : conversation =
    getOwnedConversation state.store row.conversationId owner
  kept : state.bindings ⊆ middle.bindings
  leaves : ∀ {other}, other ≠ id → Leaves other state middle
  known : (getTask state id).isSome = true → middle = state

theorem getOwnedConversation_some {store : Store} {row : Conversation}
    (h : getOwnedConversation store id owner = some row) :
    getConversation store id = some row ∧ row.id = id ∧
      OwnedBy owner row := by
  obtain ⟨hrow, howned⟩ := Option.filter_eq_some_iff.mp h
  simp only [Bool.and_eq_true, beq_iff_eq] at howned
  exact ⟨hrow, lookup_key hrow, howned⟩

/-- The task is there already, or it is inserted for a scheduled conversation
of the owner. -/
theorem materialize_cases {task : Option Task}
    (hresolve : resolve state id owner = some (task, conversation))
    (hmaterialize : materialize state id owner task conversation =
      some (middle, row)) :
    (task = some row ∧ getTask state id = some row ∧ row.owner = owner ∧
      row.deleted = false ∧ middle = state ∧
      conversation = getOwnedConversation state.store row.conversationId
        owner) ∨
    ∃ found, task = none ∧ conversation = some found ∧
      getOwnedConversation state.store id owner = some found ∧
      row = ⟨id, owner, id, 1, false⟩ ∧
      insertTask state row = some middle := by
  unfold resolve at hresolve
  split at hresolve
  · rename_i found hfound
    obtain ⟨htask, howner⟩ := Option.filter_eq_some_iff.mp hfound
    split at hresolve
    · exact nomatch hresolve
    · rename_i hlive
      simp only [Option.some.injEq, Prod.mk.injEq] at hresolve
      obtain ⟨rfl, rfl⟩ := hresolve
      simp only [materialize, Option.some.injEq, Prod.mk.injEq]
        at hmaterialize
      obtain ⟨rfl, rfl⟩ := hmaterialize
      exact Or.inl ⟨rfl, htask, beq_iff_eq.mp howner,
        Bool.eq_false_iff.mpr hlive, rfl, rfl⟩
  · split at hresolve
    · exact nomatch hresolve
    · rename_i found hfound
      split at hresolve
      · exact nomatch hresolve
      · simp only [Option.some.injEq, Prod.mk.injEq] at hresolve
        obtain ⟨rfl, rfl⟩ := hresolve
        simp only [materialize, Option.map_eq_some_iff, Prod.mk.injEq]
          at hmaterialize
        obtain ⟨_, hinsert, rfl, rfl⟩ := hmaterialize
        rw [(getOwnedConversation_some hfound).2.1] at hinsert ⊢
        exact Or.inr ⟨found, rfl, rfl, hfound, rfl, hinsert⟩

theorem materialize_spec {task : Option Task} (h : Linked state)
    (hresolve : resolve state id owner = some (task, conversation))
    (hmaterialize : materialize state id owner task conversation =
      some (middle, row)) :
    Materialized state id owner conversation middle row := by
  rcases materialize_cases hresolve hmaterialize with
    ⟨-, htask, howner, hlive, rfl, hconversation⟩ |
    ⟨found, -, rfl, hfound, rfl, hinsert⟩
  · refine ⟨h, htask, howner, hlive, ?_, rfl, rfl, hconversation,
      fun _ hb => hb, fun _ => Leaves.refl _ _, fun _ => rfl⟩
    rw [targetConversation, htask]
    rfl
  · obtain ⟨hrow, hid, howned⟩ := getOwnedConversation_some hfound
    have hlinked := insertTask_linked h hinsert fun other hother => by
      rw [show other = found from Option.some.inj (hother.symm.trans hrow)]
      exact howned
    obtain ⟨hfresh, hunbound, rfl⟩ := insertTask_some hinsert
    have hown : lookup Task.id id (state.tasks ++
        [⟨id, owner, id, 1, false⟩]) = some ⟨id, owner, id, 1, false⟩ := by
      rw [getTask_append, show getTask state id = none from hfresh,
        if_pos rfl]
      rfl
    refine ⟨hlinked, hown, rfl, rfl, ?_, rfl, rfl, hfound.symm,
      List.subset_append_left _ _, ?_, ?_⟩
    · rw [targetConversation, show getTask state id = none from hfresh]
      rfl
    · intro other hother
      refine ⟨?_, fun hi => hi, ?_, fun _ hq => hq⟩
      · intro task htask
        refine ⟨task, ?_, fun hd => hd⟩
        change lookup Task.id other (state.tasks ++ _) = some task
        rw [getTask_append, htask]
        rfl
      · intro conversationId hbound
        rcases mem_bind hbound with hold | ⟨_, heq⟩
        · exact hold
        · exact absurd heq hother
    · intro hsome
      rw [show getTask state id = none from hfresh] at hsome
      exact nomatch hsome

/-! ### Enable, pause and delete -/

/-- The enabled flag `action` writes, or the reason why it writes none. -/
inductive Toggles (middle : State) (conversation : Option Conversation)
    (schedule : Option ConversationSchedule) (enabled : Bool) :
    State → Prop
  | gone : conversation = none →
      Toggles middle conversation schedule enabled middle
  | unscheduled : schedule = none →
      Toggles middle conversation schedule enabled middle
  | unchanged {current : ConversationSchedule} :
      schedule = some current → current.enabled = enabled →
      Toggles middle conversation schedule enabled middle
  | written {row : Conversation} {current : ConversationSchedule} :
      conversation = some row →
      (getConversation middle.store row.id = none ∨
        guardSchedule middle row.id = true) →
      Toggles middle conversation schedule enabled
        (middle.edit row.id (some (scheduleJson { current with enabled })))

/-- What a committed action went through. -/
structure Acts (config : Config) (state : State) (id : String)
    (action : TaskAction) (owner : Owner) (next : State)
    (conversation : Option Conversation)
    (schedule : Option ConversationSchedule) (middle : State) (row : Task)
    (edited : State) : Prop where
  materialized : Materialized state id owner conversation middle row
  parsed : parsedSchedule config conversation = some schedule
  initialized : action ≠ .delete → uninitialized state id = false
  toggles : Toggles middle conversation schedule (action == .enable) edited
  next_eq : next = if action == .delete then
    updateTask edited id row.conversationId true else edited

theorem guard_some {p : Prop} [Decidable p] {u : Unit}
    (h : (guard p : Option Unit) = some u) : p := by
  by_contra hp
  rw [guard, if_neg hp] at h
  exact nomatch h

theorem act_some {config : Config} {action : TaskAction} {expected : Nat × Nat}
    {completed : Bool} (h : Linked state)
    (hact : act config state id action owner expected completed =
      some next) :
    ∃ conversation schedule middle row edited,
      Acts config state id action owner next conversation schedule middle row
        edited := by
  simp only [act, Option.bind_eq_bind, Option.bind_eq_some_iff,
    Option.pure_def, Prod.exists] at hact
  obtain ⟨_, _, _, hinitialized, task, conversation, hresolve, middle, row,
    hmaterialize, schedule, hparsed, _, _, edited, hedited, hnext⟩ := hact
  refine ⟨conversation, schedule, middle, row, edited,
    materialize_spec h hresolve hmaterialize, hparsed, ?_, ?_,
    (Option.some.inj hnext).symm⟩
  · intro hkind
    have hguard := guard_some hinitialized
    simpa [hkind] using hguard
  · unfold toggle at hedited
    split at hedited
    · split at hedited
      · obtain ⟨rfl, hguard⟩ := updateConversation_some hedited
        exact .written rfl hguard
      · rename_i current hsame
        rw [← Option.some.inj hedited]
        refine .unchanged rfl ?_
        simpa using hsame
    · rename_i hmissing
      rw [← Option.some.inj hedited]
      cases conversation with
      | none => exact .gone rfl
      | some row =>
          cases schedule with
          | none => exact .unscheduled rfl
          | some current => exact absurd rfl (hmissing row current rfl)

section Materialized

variable {state middle : State} {id : String} {owner : Owner}
  {conversation : Option Conversation} {row : Task}

section

variable (h : Materialized state id owner conversation middle row)
include h

theorem Materialized.conversation_id {found : Conversation}
    (hfound : conversation = some found) : found.id = row.conversationId :=
  (getOwnedConversation_some (h.resolved.symm.trans hfound)).2.1

theorem Materialized.edit_linked (schedule : Option ScheduleJson) :
    Linked (middle.edit row.conversationId schedule) := by
  apply Automation.edit_linked h.linked
  intro other task hbound htask
  have hid := h.linked.unique (h.linked.bound h.task) hbound
  subst hid
  rw [h.task] at htask
  rw [Option.some.inj htask]
  exact Or.inl rfl

theorem Materialized.edit_leaves (schedule : Option ScheduleJson)
    (hother : other ≠ id) :
    Leaves other state (middle.edit row.conversationId schedule) := by
  refine (h.leaves hother).trans
    (Automation.edit_leaves middle schedule ?_) fun hb => h.kept hb
  intro hbound
  exact hother (h.linked.unique hbound (h.linked.bound h.task))

end

end Materialized

section Acts

variable {config : Config} {state next middle edited : State} {id : String}
  {action : TaskAction} {owner : Owner} {conversation : Option Conversation}
  {schedule : Option ConversationSchedule} {row : Task}

section

variable (h : Acts config state id action owner next conversation schedule
  middle row edited)
include h

/-- The state an action leaves before it touches the task. -/
theorem Acts.edited_cases :
    edited = middle ∨
      ∃ json, edited = middle.edit row.conversationId (some json) := by
  cases h.toggles with
  | gone _ => exact Or.inl rfl
  | unscheduled _ => exact Or.inl rfl
  | unchanged _ _ => exact Or.inl rfl
  | written hrow hguard =>
      rw [h.materialized.conversation_id hrow]
      exact Or.inr ⟨_, rfl⟩

theorem Acts.task : getTask edited id = some row := by
  rcases h.edited_cases with rfl | ⟨json, rfl⟩ <;> exact h.materialized.task

theorem Acts.linked : Linked next := by
  have hedited : Linked edited := by
    rcases h.edited_cases with rfl | ⟨json, rfl⟩
    · exact h.materialized.linked
    · exact h.materialized.edit_linked (some json)
  rw [h.next_eq]
  split
  · exact updateTask_linked true hedited h.task
  · exact hedited

theorem Acts.leaves (hother : other ≠ id) : Leaves other state next := by
  have hedited : Leaves other state edited ∧
      state.bindings ⊆ edited.bindings := by
    rcases h.edited_cases with rfl | ⟨json, rfl⟩
    · exact ⟨h.materialized.leaves hother, h.materialized.kept⟩
    · exact ⟨h.materialized.edit_leaves (some json) hother,
        h.materialized.kept⟩
  rw [h.next_eq]
  split
  · exact hedited.1.trans (updateTask_leaves edited _ true hother)
      fun hb => hedited.2 hb
  · exact hedited.1

end

end Acts

/-! ### Patches -/

/-- What a committed patch left. -/
inductive Patched (id : String) (owner : Owner) (middle : State) (row : Task)
    (schedule : Option ScheduleJson) : State → Prop
  | renamed : Patched id owner middle row schedule
      (updateTask middle id row.conversationId false)
  | rescheduled : Patched id owner middle row schedule
      ((updateTask middle id row.conversationId false).edit
        row.conversationId schedule)
  | switched {nextId : String} {found : Conversation} :
      getOwnedConversation middle.store nextId owner = some found →
      lookup Prod.fst nextId middle.bindings = none →
      Patched id owner middle row schedule
        ((switchTask (middle.edit row.conversationId none) id nextId).edit
          nextId schedule)

theorem bind_some (h : bind state taskId conversationId = some next) :
    lookup Prod.fst conversationId state.bindings = none ∧
      next = { state with
        bindings := state.bindings ++ [(conversationId, taskId)] } := by
  unfold bind at h
  split at h
  · cases h
  · rename_i hunbound
    exact ⟨by simpa using hunbound, (Option.some.inj h).symm⟩

theorem patchTask_some {config : Config} {expected : Nat × Nat} {patch : Patch}
    {busy : Bool} (h : Linked state)
    (hpatch : patchTask config state id owner expected patch busy =
      some next) :
    ∃ conversation current schedule middle row,
      Materialized state id owner (some conversation) middle row ∧
      parsedSchedule config (some conversation) = some current ∧
      patchedSchedule id current patch = some schedule ∧
      Patched id owner middle row (schedule.map scheduleJson) next := by
  simp only [patchTask, Option.bind_eq_bind, Option.bind_eq_some_iff,
    Option.pure_def, Prod.exists] at hpatch
  obtain ⟨_, _, _, _, task, conversation, hresolve, found, rfl, current,
    hparsed, schedule, hschedule, middle, row, hmaterialize, hwritten⟩ :=
    hpatch
  have hmaterialized := materialize_spec h hresolve hmaterialize
  have hid := hmaterialized.conversation_id rfl
  refine ⟨found, current, schedule, middle, row, hmaterialized, hparsed,
    hschedule, ?_⟩
  rw [hid] at hwritten
  split at hwritten
  · rename_i nextId _
    simp only [Option.bind_eq_some_iff] at hwritten
    obtain ⟨_, howned, cleared, hcleared, bound, hbound, hnext⟩ := hwritten
    obtain ⟨rfl, _⟩ := updateConversation_some hcleared
    obtain ⟨hunbound, rfl⟩ := bind_some hbound
    obtain ⟨rfl, _⟩ := updateConversation_some hnext
    obtain ⟨nextRow, hnextRow⟩ := Option.isSome_iff_exists.mp
      (guard_some howned)
    exact .switched hnextRow hunbound
  · split at hwritten
    · obtain ⟨rfl, _⟩ := updateConversation_some hwritten
      exact .rescheduled
    · rw [← Option.some.inj hwritten]
      exact .renamed

theorem Patched.linked {schedule : Option ScheduleJson}
    (h : Materialized state id owner conversation middle row)
    (hpatched : Patched id owner middle row schedule next) : Linked next := by
  have hrenamed := updateTask_linked false h.linked h.task
  cases hpatched with
  | renamed => exact hrenamed
  | rescheduled =>
      apply edit_linked hrenamed
      intro other task hbound htask
      have hid := h.linked.unique (h.linked.bound h.task) hbound
      subst hid
      rcases getTask_updateTask_some h.task htask with ⟨_, rfl⟩ | ⟨hne, _⟩
      · exact Or.inl rfl
      · exact absurd rfl hne
  | switched hfound hunbound =>
      rename_i nextId found
      obtain ⟨hrow, _, howned⟩ := getOwnedConversation_some hfound
      have hcleared := h.edit_linked none
      have htask : getTask (middle.edit row.conversationId none) id =
          some row := h.task
      have hne : row.conversationId ≠ nextId := by
        rintro rfl
        exact lookup_none_of_unbound hunbound (h.linked.bound h.task)
      have hswitched : Linked (switchTask
          (middle.edit row.conversationId none) id nextId) := by
        apply switchTask_linked hcleared htask hunbound
        · intro other hother
          have hsame := updateSchedule_get_of_ne middle.store none hne
          have hold := hsame.symm.trans hother
          rw [hrow] at hold
          rw [← Option.some.inj hold, h.owner_eq]
          exact howned
        · exact editSchedule_quiet h.linked.service row.conversationId rfl
      apply edit_linked hswitched
      intro other task hbound htask'
      left
      rcases mem_bind hbound with hold | ⟨_, rfl⟩
      · exact absurd hold (lookup_none_of_unbound hunbound)
      · rcases getTask_updateTask_some (show getTask { middle.edit
            row.conversationId none with bindings := _ } other = some row
            from htask) htask' with ⟨_, rfl⟩ | ⟨hne', _⟩
        · rfl
        · exact absurd rfl hne'

theorem switchTask_leaves (state : State) (nextId : String)
    (hother : other ≠ id) :
    Leaves other state (switchTask state id nextId) := by
  refine ⟨?_, fun h => h, ?_, fun _ h => h⟩
  · intro task htask
    rw [switchTask, getTask_updateTask_of_ne _ _ _ hother]
    exact ⟨task, htask, fun h => h⟩
  · intro conversationId hbound
    rcases mem_bind hbound with hold | ⟨_, heq⟩
    · exact hold
    · exact absurd heq hother

theorem Patched.leaves {schedule : Option ScheduleJson}
    (h : Materialized state id owner conversation middle row)
    (hpatched : Patched id owner middle row schedule next)
    (hother : other ≠ id) : Leaves other state next := by
  have hunbound : (row.conversationId, other) ∉ middle.bindings :=
    fun hbound => hother (h.linked.unique hbound (h.linked.bound h.task))
  have hrenamed := (h.leaves hother).trans
    (updateTask_leaves middle row.conversationId false hother)
    fun hb => h.kept hb
  cases hpatched with
  | renamed => exact hrenamed
  | rescheduled =>
      exact hrenamed.trans (edit_leaves _ schedule hunbound)
        fun hb => h.kept hb
  | switched hfound hnew =>
      rename_i nextId found
      have hcleared := h.edit_leaves none hother
      have hswitched := hcleared.trans
        (switchTask_leaves (middle.edit row.conversationId none) nextId hother)
        fun hb => h.kept hb
      refine hswitched.trans (edit_leaves _ schedule ?_) fun hb =>
        List.mem_append_left _ (h.kept hb)
      intro hbound
      rcases mem_bind hbound with hold | ⟨_, heq⟩
      · exact lookup_none_of_unbound hnew hold
      · exact hother heq

/-! ### Creations -/

/-- What a committed `beginCreate` did. -/
theorem beginCreate_some
    (h : beginCreate state taskId conversationId owner = some next) :
    getConversation state.store conversationId = none ∧
    ∃ inserted, insertTask (state.withStore (saveConversation state.store
        ⟨conversationId, some owner.tenantId, some owner.memberId, none, 0⟩
          false)) ⟨taskId, owner, conversationId, 1, false⟩ = some inserted ∧
      next = { inserted with
        creations := state.creations ++ [⟨taskId, conversationId, false⟩] } := by
  simp only [beginCreate, Option.bind_eq_bind, Option.bind_eq_some_iff,
    Option.pure_def] at h
  obtain ⟨_, hfresh, _, _, inserted, hinsert, hnext⟩ := h
  exact ⟨by simpa using guard_some hfresh, inserted, hinsert,
    (Option.some.inj hnext).symm⟩

theorem beginCreate_linked (h : Linked state)
    (hcreate : beginCreate state taskId conversationId owner = some next) :
    Linked next := by
  obtain ⟨hfresh, inserted, hinsert, rfl⟩ := beginCreate_some hcreate
  obtain ⟨hnone, hunbound, rfl⟩ := insertTask_some hinsert
  have hother : ∀ {other id}, (other, id) ∈ state.bindings →
      conversationId ≠ other := by
    rintro other id hbound rfl
    exact lookup_none_of_unbound hunbound hbound
  have hsaved : Linked (state.withStore (saveConversation state.store
      ⟨conversationId, some owner.tenantId, some owner.memberId, none, 0⟩
        false)) := by
    refine h.of_service (createConversation_bounded h.service hfresh) ?_ ?_
    · intro id task row htask hrow
      rw [saveConversation_get_of_ne hfresh (hother (h.bound htask))] at hrow
      exact h.owned htask hrow
    · intro other id task hbound htask hne hquiet
      exact hquiet.spared
        (createConversation_spares hfresh (hother hbound))
  have hlinked := insertTask_linked hsaved hinsert fun row hrow => by
    change getConversation (saveConversation state.store _ false)
      conversationId = some row at hrow
    rw [saveConversation, hfresh, getConversation, lookup_append] at hrow
    rw [show lookup Conversation.id conversationId state.store.conversations =
      none from hfresh, if_pos rfl] at hrow
    rw [← Option.some.inj hrow]
    exact ⟨rfl, rfl⟩
  refine ⟨hlinked.service, hlinked.tasks, hlinked.bindings, hlinked.bound,
    hlinked.tasked, hlinked.owned, ?_, hlinked.retired⟩
  intro creation hcreation
  rcases List.mem_append.mp hcreation with hold | hnew
  · exact List.mem_append_left _ (h.creations creation hold)
  · rw [List.mem_singleton.mp hnew]
    exact List.mem_append_right _ (List.mem_singleton.mpr rfl)

/-- A creation concerns no task that exists. -/
theorem beginCreate_leaves
    (hcreate : beginCreate state taskId conversationId owner = some next)
    {task : Task} (htask : getTask state other = some task) :
    Leaves other state next := by
  obtain ⟨hfresh, inserted, hinsert, rfl⟩ := beginCreate_some hcreate
  obtain ⟨hnone, hunbound, rfl⟩ := insertTask_some hinsert
  have hother : other ≠ taskId := by
    rintro rfl
    rw [show getTask state other = none from hnone] at htask
    exact nomatch htask
  constructor
  · intro found hfound
    refine ⟨found, ?_, fun h => h⟩
    change lookup Task.id other (state.tasks ++ _) = some found
    rw [getTask_append, hfound]
    rfl
  · intro hinitialized
    rw [uninitialized, List.any_append]
    rw [uninitialized] at hinitialized
    rw [show (state.creations.any fun row => row.taskId == other &&
      !row.completed) = false from hinitialized]
    simp [Ne.symm hother]
  · intro bound hbound
    rcases mem_bind hbound with hold | ⟨_, heq⟩
    · exact hold
    · exact absurd heq hother
  · intro bound hbound hquiet
    refine hquiet.spared (createConversation_spares hfresh ?_)
    rintro rfl
    exact lookup_none_of_unbound hunbound hbound

def completeCreation (state : State) (taskId : String) : State :=
  { state with
    creations := updateWhere (·.taskId == taskId)
      (fun row => { row with completed := true }) state.creations }

/-- What a committed `finishCreate` did. -/
theorem finishCreate_some
    (h : finishCreate state taskId owner schedule = some next) :
    ∃ creation task json, creation ∈ state.creations ∧
      creation.taskId = taskId ∧ uninitialized state taskId = true ∧
      getTask state taskId = some task ∧ task.deleted = false ∧
      next = (completeCreation state taskId).edit creation.conversationId
        (some json) ∧
      (getConversation state.store creation.conversationId = none ∨
        guardSchedule (completeCreation state taskId)
          creation.conversationId = true) := by
  simp only [finishCreate, Option.bind_eq_bind, Option.bind_eq_some_iff] at h
  obtain ⟨creation, hcreation, task, htask, _, hlive, hnext⟩ := h
  obtain ⟨rfl, hguard⟩ := updateConversation_some hnext
  have hfound := List.find?_some hcreation
  have hmem := List.mem_of_find?_eq_some hcreation
  have hid := hfound
  simp only [Bool.and_eq_true, beq_iff_eq] at hid
  refine ⟨creation, task, _, hmem, hid.1, List.any_eq_true.mpr
    ⟨creation, hmem, hfound⟩, (Option.filter_eq_some_iff.mp htask).1, ?_, rfl,
    hguard⟩
  simpa using guard_some hlive

theorem completeCreation_linked (h : Linked state) (taskId : String) :
    Linked (completeCreation state taskId) := by
  refine ⟨h.service, h.tasks, h.bindings, h.bound, h.tasked, h.owned, ?_,
    h.retired⟩
  intro creation hcreation
  obtain ⟨old, hold, rfl⟩ := List.mem_map.mp hcreation
  have hbound := h.creations old hold
  split <;> exact hbound

theorem finishCreate_linked (h : Linked state)
    (hfinish : finishCreate state taskId owner schedule = some next) :
    Linked next := by
  obtain ⟨creation, task, json, _, _, _, _, _, rfl, hguard⟩ :=
    finishCreate_some hfinish
  have hcompleted := completeCreation_linked h taskId
  rcases hguard with hnone | hguard
  · -- the conversation is gone and the edit does nothing
    have hsame : updateSchedule (completeCreation state taskId).store
        creation.conversationId (some json) =
          (completeCreation state taskId).store := by
      unfold updateSchedule
      rw [show getConversation (completeCreation state taskId).store
        creation.conversationId = none from hnone]
    rw [State.edit, hsame]
    exact hcompleted
  · apply edit_linked hcompleted
    intro id found hbound hfound
    exact Or.inl (guardSchedule_spec hcompleted hguard hbound hfound).1

theorem finishCreate_leaves (h : Linked state)
    (hfinish : finishCreate state taskId owner schedule = some next)
    (hother : other ≠ taskId) : Leaves other state next := by
  obtain ⟨creation, task, json, hmem, rfl, _, _, _, rfl, _⟩ :=
    finishCreate_some hfinish
  have hcompleted : Leaves other state
      (completeCreation state creation.taskId) := by
    refine ⟨fun {task} htask => ⟨task, htask, fun hd => hd⟩, ?_,
      fun hb => hb, fun _ hq => hq⟩
    intro hinitialized
    rw [uninitialized, List.any_eq_false] at hinitialized ⊢
    intro row hrow
    obtain ⟨old, hold, rfl⟩ := List.mem_map.mp hrow
    have hdone := hinitialized old hold
    split
    · simp
    · exact hdone
  refine hcompleted.trans (edit_leaves _ _ ?_) fun hb => hb
  intro hbound
  exact hother (h.unique hbound (h.creations creation hmem))

theorem dropConversation_leaves (h : Linked state) (id other : String) :
    Leaves other state (dropConversation state id) := by
  refine ⟨?_, fun hi => hi, fun hb => hb, ?_⟩
  · intro task htask
    rw [getTask_dropConversation, htask]
    refine ⟨_, rfl, ?_⟩
    intro hdeleted
    dsimp only
    split
    · rfl
    · exact hdeleted
  · intro conversationId _ hquiet
    exact forgetConversation_quiet_of_quiet h.service id hquiet

end AiTeam.Automation
