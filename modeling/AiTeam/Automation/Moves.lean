/-
The moves that every committed operation of the automation service is made of,
and what each move keeps: tasks stay and their revisions only rise, and the
schedule of a conversation that a task has left behind stays as it is.
-/
import Mathlib.Logic.Relation
import AiTeam.Automation.Stopped

namespace AiTeam.Automation

open AiTeam.Receipt AiTeam.Schedule

/-- How a task row goes on: its owner stays, its revision never falls, and a
deletion is for ever. -/
structure Task.GoesOn (task next : Task) : Prop where
  owner : next.owner = task.owner
  revision : task.revision ≤ next.revision
  deleted : task.deleted = true → next.deleted = true

theorem Task.GoesOn.refl (task : Task) : task.GoesOn task :=
  ⟨rfl, Nat.le_refl _, fun h => h⟩

theorem Task.GoesOn.trans {first middle last : Task}
    (h : first.GoesOn middle) (h' : middle.GoesOn last) :
    first.GoesOn last :=
  ⟨h'.owner.trans h.owner, Nat.le_trans h.revision h'.revision,
    fun hdeleted => h'.deleted (h.deleted hdeleted)⟩

/-- The tasks of the first state are still there in the second. -/
def TasksLast (state next : State) : Prop :=
  Lasts Task.id Task.GoesOn state.tasks next.tasks

theorem TasksLast.refl (state : State) : TasksLast state state :=
  Lasts.refl Task.GoesOn.refl _

theorem TasksLast.trans {first middle last : State}
    (h : TasksLast first middle) (h' : TasksLast middle last) :
    TasksLast first last :=
  Lasts.trans (fun _ _ _ hab hbc => hab.trans hbc) h h'

/-- The conversation is bound to a deleted task, or to one that points at
another conversation. -/
def retired (state : State) (conversationId : String) : Bool :=
  (forConversation state conversationId).any fun task =>
    task.deleted || task.conversationId != conversationId

/-- The stored schedule of a conversation. -/
def scheduleOf (state : State) (conversationId : String) :
    Option ScheduleJson :=
  (getConversation state.store conversationId).bind Conversation.scheduleJson

variable {state next : State} {conversationId other : String} {task : Task}

theorem retired_iff :
    retired state conversationId = true ↔
      ∃ id task, lookup Prod.fst conversationId state.bindings =
          some (conversationId, id) ∧
        getTask state id = some task ∧
        (task.deleted = true ∨ task.conversationId ≠ conversationId) := by
  simp only [retired, forConversation, Option.any_eq_true,
    Option.bind_eq_some_iff, Bool.or_eq_true, bne_iff_ne]
  constructor
  · rintro ⟨task, ⟨⟨bound, id⟩, hbound, htask⟩, hleft⟩
    have hkey : bound = conversationId := lookup_key hbound
    subst hkey
    exact ⟨id, task, hbound, htask, hleft⟩
  · rintro ⟨id, task, hbound, htask, hleft⟩
    exact ⟨task, ⟨(conversationId, id), hbound, htask⟩, hleft⟩

theorem retired_eq_false_of_guard
    (h : guardSchedule state conversationId = true) :
    retired state conversationId = false := by
  rw [retired]
  rw [guardSchedule] at h
  cases hfound : forConversation state conversationId with
  | none => rfl
  | some task =>
      simp only [hfound, Bool.and_eq_true, Bool.not_eq_true', beq_iff_eq] at h
      simp [h.1.2, h.2]

/-- The conversation has no schedule or one that is switched off. -/
def Closed (state : State) (conversationId : String) : Prop :=
  ∀ row, getConversation state.store conversationId = some row →
    switchedOff row.scheduleJson = true

/-- One statement of a committed operation, with what the code has checked
before it. -/
inductive Move : State → State → Prop
  | edit {state : State} {id : String} {schedule : Option ScheduleJson} :
      guardSchedule state id = true → Move state (state.edit id schedule)
  | create {state : State} {record : Conversation} :
      getConversation state.store record.id = none →
      record.scheduleJson = none →
      Move state (state.withStore (saveConversation state.store record false))
  | insert {state next : State} {task : Task} {row : Conversation} :
      insertTask state task = some next → task.deleted = false →
      getConversation state.store task.conversationId = some row →
      OwnedBy task.owner row → Move state next
  | rename {state : State} {id : String} {task : Task} :
      getTask state id = some task → task.deleted = false →
      Move state (updateTask state id task.conversationId false)
  | delete {state : State} {id : String} {task : Task} :
      getTask state id = some task → Closed state task.conversationId →
      Move state (updateTask state id task.conversationId true)
  | switch {state : State} {id nextId : String} {task : Task}
      {row : Conversation} :
      getTask state id = some task → task.deleted = false →
      uninitialized state id = false → Closed state task.conversationId →
      lookup Prod.fst nextId state.bindings = none →
      getConversation state.store nextId = some row →
      OwnedBy task.owner row → Move state (switchTask state id nextId)
  | register {state : State} {taskId : String} {task : Task} :
      getTask state taskId = some task →
      Move state { state with
        creations := state.creations ++
          [⟨taskId, task.conversationId, false⟩] }
  | complete {state : State} {taskId : String} :
      Move state (completeCreation state taskId)

/-- What a committed operation did, statement by statement. -/
abbrev Moves : State → State → Prop := Relation.ReflTransGen Move

/-! ### What one move keeps -/

/-- What an update leaves of a task: its own row is changed in place. -/
theorem getTask_updateTask_of_some {found : Task} (id conversationId : String)
    (deleted : Bool) (hfound : getTask state other = some found) :
    getTask (updateTask state id conversationId deleted) other =
      some (if other = id then { found with
          conversationId, deleted, revision := found.revision + 1 }
        else found) := by
  have hkey : found.id = other := lookup_key hfound
  rw [getTask_updateTask, hfound, Option.map_some]
  by_cases hid : other = id
  · simp [hkey, hid]
  · simp [hkey, hid]

theorem updateTask_lasts (state : State) {id : String} {deleted : Bool}
    (htask : getTask state id = some task)
    (hdeleted : task.deleted = true → deleted = true) :
    TasksLast state (updateTask state id conversationId deleted) := by
  intro other found hfound
  refine ⟨_, getTask_updateTask_of_some id conversationId deleted hfound, ?_⟩
  by_cases hid : other = id
  · subst hid
    have hsame : found = task := Option.some.inj (hfound.symm.trans htask)
    rw [if_pos rfl]
    exact ⟨rfl, Nat.le_succ _, fun hd => hdeleted (hsame ▸ hd)⟩
  · rw [if_neg hid]
    exact Task.GoesOn.refl found

theorem insertTask_lasts (h : insertTask state task = some next) :
    TasksLast state next := by
  obtain ⟨_, _, rfl⟩ := insertTask_some h
  exact Lasts.append Task.GoesOn.refl _ _

theorem Move.lasts (h : Move state next) : TasksLast state next := by
  cases h with
  | edit hguard => exact TasksLast.refl state
  | create hfresh hnone => exact TasksLast.refl state
  | insert hinsert hlive hrow howned => exact insertTask_lasts hinsert
  | rename htask hlive =>
      refine updateTask_lasts state htask fun hd => ?_
      rw [hlive] at hd
      exact nomatch hd
  | delete htask hclosed => exact updateTask_lasts state htask fun _ => rfl
  | switch htask hlive =>
      refine updateTask_lasts { state with bindings := _ } htask fun hd => ?_
      rw [hlive] at hd
      exact nomatch hd
  | register htask => exact TasksLast.refl state
  | complete => exact TasksLast.refl state

theorem Moves.lasts (h : Moves state next) : TasksLast state next := by
  induction h with
  | refl => exact TasksLast.refl state
  | tail _ hmove ih => exact ih.trans hmove.lasts

/-- A changed task keeps what it has left behind. -/
theorem updateTask_retired {id : String} {deleted : Bool}
    {bindings : List (String × String)} (htask : getTask state id = some task)
    (hbindings : ∀ {bound owner}, lookup Prod.fst bound state.bindings =
        some (bound, owner) →
      lookup Prod.fst bound bindings = some (bound, owner))
    (hleft : task.deleted = true ∨ task.conversationId ≠ other →
      deleted = true ∨ conversationId ≠ other) (h : retired state other = true)
    :
    retired (updateTask { state with bindings } id conversationId deleted)
      other = true := by
  obtain ⟨owner, found, hbound, hfound, hfoundLeft⟩ := retired_iff.mp h
  apply retired_iff.mpr
  have hfound' : getTask { state with bindings } owner = some found := hfound
  refine ⟨owner, _, hbindings hbound,
    getTask_updateTask_of_some id conversationId deleted hfound', ?_⟩
  by_cases hid : owner = id
  · subst hid
    have hsame : found = task := Option.some.inj (hfound.symm.trans htask)
    rw [if_pos rfl]
    exact hleft (hsame ▸ hfoundLeft)
  · rw [if_neg hid]
    exact hfoundLeft

theorem lookup_append_of_some {bindings : List (String × String)}
    (binding : String × String) {bound owner : String}
    (h : lookup Prod.fst bound bindings = some (bound, owner)) :
    lookup Prod.fst bound (bindings ++ [binding]) = some (bound, owner) := by
  rw [lookup_append, h, Option.some_or]

theorem insertTask_retired (hinsert : insertTask state task = some next)
    (h : retired state other = true) : retired next other = true := by
  obtain ⟨owner, found, hbound, hfound, hleft⟩ := retired_iff.mp h
  obtain ⟨_, _, rfl⟩ := insertTask_some hinsert
  apply retired_iff.mpr
  refine ⟨owner, found, lookup_append_of_some _ hbound, ?_, hleft⟩
  change lookup Task.id owner (state.tasks ++ [task]) = some found
  rw [getTask_append, hfound, Option.some_or]

/-- A conversation that is left behind stays so. -/
theorem Move.retired (h : Move state next)
    (hretired : Automation.retired state other = true) :
    Automation.retired next other = true := by
  cases h with
  | edit hguard => exact hretired
  | create hfresh hnone => exact hretired
  | insert hinsert => exact insertTask_retired hinsert hretired
  | rename htask hlive =>
      refine updateTask_retired htask (fun hb => hb) ?_ hretired
      rintro (hd | hne)
      · rw [hlive] at hd
        exact nomatch hd
      · exact Or.inr hne
  | delete htask hclosed =>
      exact updateTask_retired htask (fun hb => hb) (fun _ => Or.inl rfl)
        hretired
  | switch htask hlive hinitialized hclosed hunbound =>
      refine updateTask_retired htask (lookup_append_of_some _) ?_ hretired
      intro _
      right
      rintro rfl
      obtain ⟨_, _, hbound, _⟩ := retired_iff.mp hretired
      rw [hunbound] at hbound
      exact nomatch hbound
  | register htask => exact hretired
  | complete => exact hretired

/-- No move writes the schedule of a conversation that is left behind. -/
theorem Move.scheduleOf (h : Move state next)
    (hretired : Automation.retired state other = true) :
    Automation.scheduleOf next other = Automation.scheduleOf state other := by
  cases h with
  | edit hguard =>
      rename_i id schedule
      have hne : id ≠ other := by
        rintro rfl
        rw [retired_eq_false_of_guard hguard] at hretired
        exact nomatch hretired
      have hsame := updateSchedule_get_of_ne state.store schedule hne
      exact congrArg (Option.bind · Conversation.scheduleJson) hsame
  | create hfresh hnone =>
      rename_i record
      by_cases hid : record.id = other
      · subst hid
        rw [Automation.scheduleOf, Automation.scheduleOf, hfresh]
        change (getConversation (saveConversation state.store record false)
          record.id).bind _ = none
        rw [saveConversation, hfresh, getConversation, lookup_append,
          show lookup Conversation.id record.id state.store.conversations =
            none from hfresh, if_pos rfl]
        exact hnone
      · have hsame := saveConversation_get_of_ne hfresh hid
        exact congrArg (Option.bind · Conversation.scheduleJson) hsame
  | insert hinsert =>
      obtain ⟨_, _, rfl⟩ := insertTask_some hinsert
      rfl
  | rename htask hlive => rfl
  | delete htask hclosed => rfl
  | switch htask => rfl
  | register htask => rfl
  | complete => rfl

/-- An operation leaves both alone. -/
theorem Moves.kept (h : Moves state next)
    (hretired : retired state other = true) :
    retired next other = true ∧
      scheduleOf next other = scheduleOf state other := by
  induction h with
  | refl => exact ⟨hretired, rfl⟩
  | tail _ hmove ih =>
      exact ⟨hmove.retired ih.1, (hmove.scheduleOf ih.1).trans ih.2⟩

end AiTeam.Automation
