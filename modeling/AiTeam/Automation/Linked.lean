/-
How tasks, bindings and conversations hang together along every run of the
automation service.
-/
import AiTeam.Automation.Task
import AiTeam.Schedule.Quiet

namespace AiTeam.Automation

open AiTeam.Receipt AiTeam.Schedule

def State.service (state : State) : Schedule.Service := state.scheduler.service

def OwnedBy (owner : Owner) (row : Conversation) : Prop :=
  row.tenantId = some owner.tenantId ∧ row.memberId = some owner.memberId

/-- Tasks and bindings refer to each other, a task's conversation belongs to
its owner, and a conversation its task has left is quiet. -/
structure Linked (state : State) : Prop where
  service : Bounded state.service
  tasks : Keyed Task.id state.tasks
  bindings : Keyed Prod.fst state.bindings
  bound : ∀ {id task}, getTask state id = some task →
    (task.conversationId, id) ∈ state.bindings
  tasked : ∀ {conversationId id}, (conversationId, id) ∈ state.bindings →
    ∃ task, getTask state id = some task
  owned : ∀ {id task row}, getTask state id = some task →
    getConversation state.store task.conversationId = some row →
    OwnedBy task.owner row
  creations : ∀ creation ∈ state.creations,
    (creation.conversationId, creation.taskId) ∈ state.bindings
  retired : ∀ {conversationId id task},
    (conversationId, id) ∈ state.bindings → getTask state id = some task →
    task.conversationId ≠ conversationId →
    Quiet state.service conversationId

variable {state next : State} {id conversationId other : String}
  {task found : Task} {action : Schedule.Action}

/-- A conversation is bound to one task. -/
theorem Linked.unique (h : Linked state)
    (hid : (conversationId, id) ∈ state.bindings)
    (hother : (conversationId, other) ∈ state.bindings) : id = other :=
  congrArg Prod.snd (h.bindings.eq_of_key hid hother rfl)

theorem Linked.forConversation (h : Linked state)
    (hbound : (conversationId, id) ∈ state.bindings)
    (htask : getTask state id = some task) :
    forConversation state conversationId = some task := by
  have hfound := h.bindings _ hbound
  rw [Automation.forConversation, hfound]
  exact htask

theorem lookup_none_of_unbound
    (h : lookup Prod.fst conversationId state.bindings = none) :
    (conversationId, id) ∉ state.bindings := by
  intro hmem
  rw [lookup, List.find?_eq_none] at h
  exact h _ hmem (decide_eq_true rfl)

/-- The schedule guard lets only the current conversation of an initialized
live task through. -/
theorem guardSchedule_spec (h : Linked state)
    (hguard : guardSchedule state conversationId = true)
    (hbound : (conversationId, id) ∈ state.bindings)
    (htask : getTask state id = some task) :
    task.conversationId = conversationId ∧ task.deleted = false ∧
      uninitialized state id = false := by
  have hid : task.id = id := lookup_key htask
  rw [guardSchedule, h.forConversation hbound htask] at hguard
  simp only [hid, Bool.and_eq_true, Bool.not_eq_eq_eq_not, Bool.not_true,
    beq_iff_eq] at hguard
  exact ⟨hguard.2, hguard.1.2, hguard.1.1⟩

/-! ### The scheduler moves -/

/-- The service may change as long as it stays bounded, new conversations are
not bound, and retired ones stay quiet. -/
theorem Linked.of_service (h : Linked state) {scheduler : Scheduler}
    (hservice : Bounded scheduler.service)
    (howned : ∀ {id task row}, getTask state id = some task →
      getConversation scheduler.service.store task.conversationId =
        some row → OwnedBy task.owner row)
    (hretired : ∀ {conversationId id task},
      (conversationId, id) ∈ state.bindings → getTask state id = some task →
      task.conversationId ≠ conversationId →
      Quiet state.service conversationId →
      Quiet scheduler.service conversationId) :
    Linked { state with scheduler } where
  service := hservice
  tasks := h.tasks
  bindings := h.bindings
  bound := h.bound
  tasked := h.tasked
  owned := howned
  creations := h.creations
  retired := fun hbound htask hne =>
    hretired hbound htask hne (h.retired hbound htask hne)

/-- The owner of a task's conversation stays. -/
theorem Linked.owned_of_keeps (h : Linked state) {store : Store}
    {row : Conversation} (hkeeps : Keeps state.store store)
    (habsent : getConversation state.store task.conversationId = none →
      getConversation store task.conversationId = none)
    (htask : getTask state id = some task)
    (hrow : getConversation store task.conversationId = some row) :
    OwnedBy task.owner row := by
  cases hold : getConversation state.store task.conversationId with
  | none =>
      rw [habsent hold] at hrow
      exact nomatch hrow
  | some old =>
      obtain ⟨next, hnext, htenant, hmember, _⟩ := hkeeps.present hold
      rw [hrow] at hnext
      rw [Option.some.inj hnext]
      have howned := h.owned htask hold
      exact ⟨htenant.trans howned.1, hmember.trans howned.2⟩

/-- A client creates a conversation under an id that is bound to a task. -/
def Reuses (state : State) : Action → Prop
  | .scheduler (.request (.create id _ _ _) _) =>
      (lookup Prod.fst id state.bindings).isSome = true
  | _ => False

theorem not_create_of_bound (h : Linked state)
    (hreuses : ¬ Reuses state (.scheduler action))
    (hbound : (conversationId, id) ∈ state.bindings)
    (tenantId memberId : Option String) (schedule : Option ScheduleJson)
    (clock : Int) :
    action ≠ .request (.create conversationId tenantId memberId schedule)
      clock := by
  rintro rfl
  apply hreuses
  have hfound := h.bindings _ hbound
  simp only [Reuses, hfound, Option.isSome_some]

/-- An admitted edit of a bound conversation passes the guard, unless the
conversation is gone. -/
theorem admits_edit {schedule : Option ScheduleJson} {clock : Int}
    (h : admits state (.request (.editSchedule id schedule) clock) = true) :
    getConversation state.store id = none ∨
      guardSchedule state id = true := by
  simpa [admits] using h

/-- An admitted action of the scheduler opens no retired conversation and
none of a deleted task. -/
theorem not_opens_retired (h : Linked state)
    (hadmits : admits state action = true)
    (hreuses : ¬ Reuses state (.scheduler action))
    (hbound : (conversationId, id) ∈ state.bindings)
    (htask : getTask state id = some task)
    (hretired : task.conversationId ≠ conversationId ∨
      task.deleted = true) :
    ¬ Opens state.service.store conversationId action := by
  intro hopens
  unfold Opens at hopens
  split at hopens
  · subst hopens
    exact not_create_of_bound h hreuses hbound _ _ _ _ rfl
  · obtain ⟨rfl, hsome, _⟩ := hopens
    rcases admits_edit hadmits with hnone | hguard
    · rw [show getConversation state.service.store _ = none from hnone]
        at hsome
      exact nomatch hsome
    · obtain ⟨hcurrent, hlive, _⟩ := guardSchedule_spec h hguard hbound htask
      rcases hretired with hne | hdeleted
      · exact hne hcurrent
      · rw [hlive] at hdeleted
        exact nomatch hdeleted
  · exact hopens

theorem scheduler_linked {config : Config} (h : Linked state)
    (hadmits : admits state action = true)
    (hreuses : ¬ Reuses state (.scheduler action)) :
    Linked { state with
      scheduler := (Schedule.step config state.scheduler action).1 } := by
  have heffect := step_effect config state.scheduler action
  refine h.of_service (heffect.bounded h.service) ?_ ?_
  · intro id task row htask hrow
    refine h.owned_of_keeps heffect.keeps ?_ htask hrow
    exact heffect.absent h.service
      (not_create_of_bound h hreuses (h.bound htask))
  · intro conversationId id task hbound htask hne hquiet
    exact heffect.quiet h.service
      (not_opens_retired h hadmits hreuses hbound htask (Or.inl hne)) hquiet

/-! ### Edits and new tasks -/

def State.edit (state : State) (id : String)
    (schedule : Option ScheduleJson) : State :=
  state.withStore (updateSchedule state.store id schedule)

/-- A committed `updateConversation` is an edit that passed the guard, unless
the conversation is gone. -/
theorem updateConversation_some {schedule : Option ScheduleJson}
    (h : updateConversation state id schedule = some next) :
    next = state.edit id schedule ∧
      (getConversation state.store id = none ∨
        guardSchedule state id = true) := by
  unfold updateConversation at h
  split at h
  · rename_i hnone
    rw [Option.isNone_iff_eq_none] at hnone
    refine ⟨?_, Or.inl hnone⟩
    have hsame : updateSchedule state.store id schedule = state.store := by
      unfold updateSchedule
      rw [hnone]
    rw [State.edit, hsame]
    exact (Option.some.inj h).symm
  · split at h
    · rename_i hguard
      exact ⟨(Option.some.inj h).symm, Or.inr hguard⟩
    · exact nomatch h

theorem edit_owned (h : Linked state) (conversationId : String)
    (schedule : Option ScheduleJson) {row : Conversation}
    (htask : getTask state id = some task)
    (hrow : getConversation (state.edit conversationId schedule).store
      task.conversationId = some row) : OwnedBy task.owner row := by
  refine h.owned_of_keeps (updateSchedule_keeps state.store conversationId
    schedule) ?_ htask hrow
  intro hnone
  by_cases hid : conversationId = task.conversationId
  · rw [hid, updateSchedule, hnone]
    exact hnone
  · rw [updateSchedule_get_of_ne _ _ hid]
    exact hnone

/-- An edit keeps the links when it does not open a retired conversation. -/
theorem edit_linked (h : Linked state) (conversationId : String)
    (schedule : Option ScheduleJson)
    (hretired : ∀ {id task}, (conversationId, id) ∈ state.bindings →
      getTask state id = some task → task.conversationId = conversationId ∨
        switchedOff schedule = true) :
    Linked (state.edit conversationId schedule) := by
  refine h.of_service (editSchedule_bounded h.service conversationId schedule)
    (edit_owned h conversationId schedule) ?_
  intro other id task hbound htask hne hquiet
  by_cases hid : conversationId = other
  · subst hid
    rcases hretired hbound htask with hcurrent | hclosed
    · exact absurd hcurrent hne
    · exact editSchedule_quiet h.service conversationId hclosed
  · exact hquiet.spared (editSchedule_spares state.service schedule hid)

theorem getTask_append (state : State) (task : Task) (id : String) :
    lookup Task.id id (state.tasks ++ [task]) =
      (getTask state id).or (if task.id = id then some task else none) :=
  lookup_append Task.id id state.tasks task

theorem insertTask_some (h : insertTask state task = some next) :
    getTask state task.id = none ∧
      lookup Prod.fst task.conversationId state.bindings = none ∧
      next = { state with
        tasks := state.tasks ++ [task],
        bindings := state.bindings ++ [(task.conversationId, task.id)] } := by
  unfold insertTask bind at h
  split at h
  · cases h
  rename_i hfresh
  split at h
  · cases h
  rename_i hunbound
  refine ⟨?_, ?_, (Option.some.inj h).symm⟩
  · simpa using hfresh
  · simpa using hunbound

theorem getTask_insert (hfresh : getTask state task.id = none)
    (h : lookup Task.id id (state.tasks ++ [task]) = some found) :
    (id ≠ task.id ∧ getTask state id = some found) ∨
      (id = task.id ∧ found = task) := by
  rw [getTask_append] at h
  by_cases hid : task.id = id
  · subst hid
    rw [hfresh, if_pos rfl] at h
    exact Or.inr ⟨rfl, (Option.some.inj h).symm⟩
  · rw [if_neg hid, Option.or_none] at h
    exact Or.inl ⟨Ne.symm hid, h⟩

theorem mem_bind {nextId : String}
    (h : (conversationId, other) ∈ state.bindings ++ [(nextId, id)]) :
    (conversationId, other) ∈ state.bindings ∨
      (conversationId = nextId ∧ other = id) := by
  rcases List.mem_append.mp h with hold | hnew
  · exact Or.inl hold
  · exact Or.inr (Prod.mk.injEq _ _ _ _ ▸ List.mem_singleton.mp hnew)

/-- A new task is linked to its own conversation. -/
theorem insertTask_linked (h : Linked state)
    (hinsert : insertTask state task = some next)
    (howned : ∀ row, getConversation state.store task.conversationId =
      some row → OwnedBy task.owner row) : Linked next := by
  obtain ⟨hfresh, hunbound, rfl⟩ := insertTask_some hinsert
  refine ⟨h.service, h.tasks.append hfresh, h.bindings.append hunbound, ?_, ?_,
    ?_, ?_, ?_⟩
  · intro id found hfound
    rcases getTask_insert hfresh hfound with ⟨_, hold⟩ | ⟨rfl, rfl⟩
    · exact List.mem_append_left _ (h.bound hold)
    · exact List.mem_append_right _ (List.mem_singleton.mpr rfl)
  · intro conversationId id hbound
    change ∃ found, lookup Task.id id (state.tasks ++ [task]) = some found
    rcases mem_bind hbound with hold | ⟨_, rfl⟩
    · obtain ⟨found, hfound⟩ := h.tasked hold
      rw [getTask_append, hfound]
      exact ⟨found, rfl⟩
    · rw [getTask_append, hfresh, if_pos rfl]
      exact ⟨task, rfl⟩
  · intro id found row hfound hrow
    rcases getTask_insert hfresh hfound with ⟨_, hold⟩ | ⟨rfl, rfl⟩
    · exact h.owned hold hrow
    · exact howned row hrow
  · intro creation hcreation
    exact List.mem_append_left _ (h.creations creation hcreation)
  · intro conversationId id found hbound hfound hne
    rcases getTask_insert hfresh hfound with ⟨hid, hold⟩ | ⟨rfl, rfl⟩
    · rcases mem_bind hbound with hbefore | ⟨_, heq⟩
      · exact h.retired hbefore hold hne
      · exact absurd heq hid
    · rcases mem_bind hbound with hbefore | ⟨heq, _⟩
      · obtain ⟨old, hold⟩ := h.tasked hbefore
        rw [hfresh] at hold
        exact nomatch hold
      · exact absurd heq.symm hne

/-! ### Tasks that change -/

theorem getTask_updateTask (state : State) (id conversationId : String)
    (deleted : Bool) (other : String) :
    getTask (updateTask state id conversationId deleted) other =
      (getTask state other).map fun row => if row.id == id then
        { row with conversationId, deleted, revision := row.revision + 1 }
        else row :=
  lookup_updateWhere Task.id other (·.id == id)
    (fun row => { row with
      conversationId, deleted, revision := row.revision + 1 })
    (fun _ => rfl) state.tasks

theorem getTask_updateTask_of_ne (state : State) (conversationId : String)
    (deleted : Bool) (hother : other ≠ id) :
    getTask (updateTask state id conversationId deleted) other =
      getTask state other := by
  rw [getTask_updateTask]
  cases htask : getTask state other with
  | none => rfl
  | some task =>
      have hid : task.id ≠ id := fun heq =>
        hother ((lookup_key htask).symm.trans heq)
      rw [Option.map_some, if_neg fun heq => hid (beq_iff_eq.mp heq)]

/-- Where an updated task table finds a task. -/
theorem getTask_updateTask_some {deleted : Bool}
    (htask : getTask state id = some task)
    (h : getTask (updateTask state id conversationId deleted) other =
      some found) :
    (other = id ∧ found = { task with
        conversationId, deleted, revision := task.revision + 1 }) ∨
      (other ≠ id ∧ getTask state other = some found) := by
  by_cases hother : other = id
  · subst hother
    have hid : task.id = other := lookup_key htask
    rw [getTask_updateTask, htask, Option.map_some,
      if_pos (beq_iff_eq.mpr hid)] at h
    exact Or.inl ⟨rfl, (Option.some.inj h).symm⟩
  · rw [getTask_updateTask_of_ne _ _ _ hother] at h
    exact Or.inr ⟨hother, h⟩

/-- The task may move to a conversation of its owner that is or becomes bound
to it, when the one it leaves is quiet. -/
theorem moveTask_linked (bindings : List (String × String)) (deleted : Bool)
    (h : Linked state) (htask : getTask state id = some task)
    (hkeyed : Keyed Prod.fst bindings) (hkept : state.bindings ⊆ bindings)
    (hnew : ∀ {other owner}, (other, owner) ∈ bindings →
      (other, owner) ∈ state.bindings ∨
        (other = conversationId ∧ owner = id))
    (hbound : (conversationId, id) ∈ bindings)
    (howned : ∀ row, getConversation state.store conversationId = some row →
      OwnedBy task.owner row)
    (hleft : task.conversationId = conversationId ∨
      Quiet state.service task.conversationId) :
    Linked (updateTask { state with bindings } id conversationId
      deleted) := by
  have hfind : ∀ {other found}, getTask (updateTask { state with bindings } id
      conversationId deleted) other = some found →
      (other = id ∧ found = { task with
        conversationId, deleted, revision := task.revision + 1 }) ∨
      (other ≠ id ∧ getTask state other = some found) :=
    fun hfound => getTask_updateTask_some
      (show getTask { state with bindings } id = some task from htask) hfound
  refine ⟨h.service, h.tasks.updateWhere _ _ fun _ => rfl, hkeyed, ?_, ?_, ?_,
    fun creation hcreation => hkept (h.creations creation hcreation), ?_⟩
  · intro other found hfound
    rcases hfind hfound with ⟨rfl, rfl⟩ | ⟨_, hold⟩
    · exact hbound
    · exact hkept (h.bound hold)
  · intro other owner hother
    have hsome : ∃ found, getTask state owner = some found := by
      rcases hnew hother with hold | ⟨_, rfl⟩
      · exact h.tasked hold
      · exact ⟨task, htask⟩
    obtain ⟨found, hfound⟩ := hsome
    rw [getTask_updateTask, show getTask { state with bindings } owner =
      some found from hfound]
    exact ⟨_, rfl⟩
  · intro other found row hfound hrow
    rcases hfind hfound with ⟨rfl, rfl⟩ | ⟨_, hold⟩
    · exact howned row hrow
    · exact h.owned hold hrow
  · intro other owner found hother hfound hne
    rcases hfind hfound with ⟨rfl, rfl⟩ | ⟨howner, hold⟩
    · rcases hnew hother with hbefore | ⟨heq, _⟩
      · by_cases hcurrent : task.conversationId = other
        · subst hcurrent
          rcases hleft with heq | hquiet
          · exact absurd heq.symm hne
          · exact hquiet
        · exact h.retired hbefore htask hcurrent
      · exact absurd heq.symm hne
    · rcases hnew hother with hbefore | ⟨_, heq⟩
      · exact h.retired hbefore hold hne
      · exact absurd heq howner

theorem updateTask_linked (deleted : Bool) (h : Linked state)
    (htask : getTask state id = some task) :
    Linked (updateTask state id task.conversationId deleted) :=
  moveTask_linked state.bindings deleted h htask h.bindings (fun _ hb => hb)
    Or.inl (h.bound htask) (fun _ hrow => h.owned htask hrow) (Or.inl rfl)

/-- `patch` with a new employee: the task moves to another conversation. -/
def switchTask (state : State) (id nextId : String) : State :=
  updateTask { state with bindings := state.bindings ++ [(nextId, id)] } id
    nextId false

theorem switchTask_linked {nextId : String} (h : Linked state)
    (htask : getTask state id = some task)
    (hunbound : lookup Prod.fst nextId state.bindings = none)
    (howned : ∀ row, getConversation state.store nextId = some row →
      OwnedBy task.owner row)
    (hquiet : Quiet state.service task.conversationId) :
    Linked (switchTask state id nextId) :=
  moveTask_linked _ false h htask (h.bindings.append hunbound)
    (List.subset_append_left _ _) mem_bind
    (List.mem_append_right _ (List.mem_singleton.mpr rfl)) howned
    (Or.inr hquiet)

/-! ### Deleted conversations -/

theorem forgetConversation_get {service : Schedule.Service}
    (h : Bounded service)
    (id other : String) :
    getConversation (forgetConversation service.store id) other =
      (getConversation service.store other).filter (·.id != id) :=
  h.conversations.lookup_filter _ other

theorem forgetConversation_self {service : Schedule.Service}
    (h : Bounded service)
    (id : String) :
    getConversation (forgetConversation service.store id) id = none := by
  rw [forgetConversation_get h]
  cases hrow : getConversation service.store id with
  | none => rfl
  | some row =>
      have hid : row.id = id := lookup_key hrow
      simp [hid]

/-- Only receipts of the deleted conversation are lost. -/
theorem forgetConversation_owning {service : Schedule.Service}
    (h : Bounded service) {prompt : Prompt}
    (howning : Owning (forgetConversation service.store id) prompt) :
    Owning service.store prompt ∧ prompt.key.conversationId ≠ id := by
  have hget : getReceipt (forgetConversation service.store id) prompt.key =
      (getReceipt service.store prompt.key).filter
        (·.key.conversationId != id) :=
    h.receipts.lookup_filter _ prompt.key
  rw [Owning, hget] at howning
  cases hreceipt : getReceipt service.store prompt.key with
  | none =>
      rw [hreceipt] at howning
      cases howning
  | some receipt =>
      have hkey : receipt.key = prompt.key := lookup_key hreceipt
      rw [hreceipt, Option.filter_some] at howning
      split at howning
      · rename_i hkept
        rw [hkey, bne_iff_ne] at hkept
        rw [Owning, hreceipt]
        exact ⟨howning, hkept⟩
      · cases howning

theorem forgetConversation_spares {service : Schedule.Service}
    (h : Bounded service) (hother : other ≠ id) :
    Spares other service { service with
      store := forgetConversation service.store id } := by
  constructor
  · rw [forgetConversation_get h]
    cases hrow : getConversation service.store other with
    | none => rfl
    | some row =>
        have hid : row.id = other := lookup_key hrow
        simp [hid, hother]
  · intro prompt hprompt _
    exact ⟨hprompt, fun howning => (forgetConversation_owning h howning).1⟩

theorem forgetConversation_bounded {service : Schedule.Service}
    (h : Bounded service)
    (id : String) :
    Bounded { service with store := forgetConversation service.store id } := by
  refine ⟨h.receipts.filter _, h.conversations.filter _, h.owners, ?_⟩
  intro other
  by_cases hother : other = id
  · subst hother
    intro prompt _ hid howning
    exact absurd hid (forgetConversation_owning h howning).2
  · exact (h.captured other).spared (forgetConversation_spares h hother)

theorem forgetConversation_quiet {service : Schedule.Service}
    (h : Bounded service)
    (id : String) :
    Quiet { service with store := forgetConversation service.store id }
      id := by
  constructor
  · intro row hrow
    rw [forgetConversation_self h] at hrow
    exact nomatch hrow
  · intro prompt _ hid generation hreopens
    exact (forgetConversation_owning h hreopens.owning).2 hid

theorem forgetConversation_quiet_of_quiet {service : Schedule.Service}
    (h : Bounded service) (id : String) (hquiet : Quiet service other) :
    Quiet { service with store := forgetConversation service.store id }
      other := by
  by_cases hother : other = id
  · subst hother
    exact forgetConversation_quiet h other
  · exact hquiet.spared (forgetConversation_spares h hother)

/-- The tasks of a deleted conversation are deleted, the others stay. -/
theorem getTask_dropConversation (state : State) (id other : String) :
    getTask (dropConversation state id) other =
      (getTask state other).map fun row => if row.conversationId == id then
        { row with deleted := true, revision := row.revision + 1 }
        else row :=
  lookup_updateWhere Task.id other (·.conversationId == id)
    (fun row => { row with deleted := true, revision := row.revision + 1 })
    (fun _ => rfl) state.tasks

theorem dropConversation_task
    (h : getTask (dropConversation state id) other = some found) :
    ∃ task, getTask state other = some task ∧
      found.conversationId = task.conversationId ∧
      found.owner = task.owner ∧
      (task.deleted = true → found.deleted = true) := by
  rw [getTask_dropConversation] at h
  obtain ⟨task, htask, rfl⟩ := Option.map_eq_some_iff.mp h
  refine ⟨task, htask, ?_⟩
  split
  · exact ⟨rfl, rfl, fun _ => rfl⟩
  · exact ⟨rfl, rfl, fun hd => hd⟩

theorem dropConversation_linked (h : Linked state) (id : String) :
    Linked (dropConversation state id) := by
  refine ⟨forgetConversation_bounded h.service id,
    h.tasks.updateWhere _ _ fun _ => rfl, h.bindings, ?_, ?_, ?_,
    h.creations, ?_⟩
  · intro other found hfound
    obtain ⟨task, htask, hsame, _⟩ := dropConversation_task hfound
    rw [hsame]
    exact h.bound htask
  · intro conversationId other hbound
    obtain ⟨task, htask⟩ := h.tasked hbound
    rw [getTask_dropConversation, htask]
    exact ⟨_, rfl⟩
  · intro other found row hfound hrow
    obtain ⟨task, htask, hsame, howner, _⟩ := dropConversation_task hfound
    rw [hsame] at hrow
    have hold := (forgetConversation_get h.service id _).symm.trans hrow
    rw [howner]
    exact h.owned htask (Option.filter_eq_some_iff.mp hold).1
  · intro conversationId other found hbound hfound hne
    obtain ⟨task, htask, hsame, _⟩ := dropConversation_task hfound
    rw [hsame] at hne
    exact forgetConversation_quiet_of_quiet h.service id
      (h.retired hbound htask hne)

end AiTeam.Automation
