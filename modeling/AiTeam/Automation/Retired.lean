/-
The invariant of the automation tables, and the schedule of a conversation that
a task has left behind along every run.
-/
import AiTeam.Automation.Moves

namespace AiTeam.Automation

open AiTeam.Receipt AiTeam.Schedule

/-- Bindings have tasks, a live task has a conversation of its owner, and a
task under creation has not been moved. -/
structure Sound (state : State) : Prop where
  service : Bounded state.service
  tasked : ∀ bound owner, lookup Prod.fst bound state.bindings =
    some (bound, owner) → ∃ task, getTask state owner = some task
  live : ∀ id task, getTask state id = some task → task.deleted = false →
    ∃ row, getConversation state.store task.conversationId = some row ∧
      OwnedBy task.owner row
  creating : ∀ creation ∈ state.creations, creation.completed = false →
    ∃ task, getTask state creation.taskId = some task ∧
      task.conversationId = creation.conversationId

/-- What a task has left behind is switched off. -/
def Shut (state : State) : Prop :=
  ∀ other, retired state other = true → Closed state other

variable {state next middle : State} {id conversationId : String}
  {bindings : List (String × String)} {task row : Task} {owner : Owner}
  {conversation : Option Conversation} {config : Config} {expected : Nat × Nat}

/-- The tables after a change of the store that keeps every conversation. -/
theorem Sound.of_scheduler (h : Sound state) {scheduler : Scheduler}
    (hservice : Bounded scheduler.service)
    (hkeeps : Keeps state.store scheduler.service.store) :
    Sound { state with scheduler } where
  service := hservice
  tasked := h.tasked
  live := by
    intro id task htask hlive
    obtain ⟨row, hrow, howned⟩ := h.live id task htask hlive
    obtain ⟨next, hnext, hevolves⟩ := hkeeps.present hrow
    exact ⟨next, hnext, hevolves.1.trans howned.1,
      hevolves.2.1.trans howned.2⟩
  creating := h.creating

theorem lookup_append_cases {bound owner : String}
    (h : lookup Prod.fst bound (bindings ++ [(conversationId, id)]) =
      some (bound, owner)) :
    lookup Prod.fst bound bindings = some (bound, owner) ∨
      (lookup Prod.fst bound bindings = none ∧ bound = conversationId ∧
        owner = id) := by
  rw [lookup_append] at h
  cases hold : lookup Prod.fst bound bindings with
  | some binding =>
      rw [hold, Option.some_or] at h
      exact Or.inl h
  | none =>
      rw [hold, Option.none_or] at h
      split at h
      · obtain ⟨rfl, rfl⟩ := Prod.mk.injEq _ _ _ _ ▸ Option.some.inj h
        exact Or.inr ⟨rfl, rfl, rfl⟩
      · exact nomatch h

theorem Sound.insert (h : Sound state) {row : Conversation}
    (hinsert : insertTask state task = some next)
    (hrow : getConversation state.store task.conversationId = some row)
    (howned : OwnedBy task.owner row) : Sound next := by
  have hlasts := insertTask_lasts hinsert
  obtain ⟨hfresh, hunbound, rfl⟩ := insertTask_some hinsert
  refine ⟨h.service, ?_, ?_, ?_⟩
  · intro bound owner hbound
    rcases lookup_append_cases hbound with hold | ⟨_, _, rfl⟩
    · obtain ⟨found, hfound⟩ := h.tasked bound owner hold
      obtain ⟨kept, hkept, _⟩ := hlasts owner found hfound
      exact ⟨kept, hkept⟩
    · refine ⟨task, ?_⟩
      change lookup Task.id task.id (state.tasks ++ [task]) = some task
      rw [getTask_append, hfresh, if_pos rfl, Option.none_or]
  · intro id found hfound hfoundLive
    rcases getTask_insert hfresh hfound with ⟨_, hfound'⟩ | ⟨rfl, rfl⟩
    · exact h.live id found hfound' hfoundLive
    · exact ⟨row, hrow, howned⟩
  · intro creation hcreation hopen
    obtain ⟨found, hfound, hsame⟩ := h.creating creation hcreation hopen
    refine ⟨found, ?_, hsame⟩
    change lookup Task.id creation.taskId (state.tasks ++ [task]) = some found
    rw [getTask_append, hfound, Option.some_or]

/-- A task row may change when what it points at is there. -/
theorem Sound.update (h : Sound state) {deleted : Bool}
    (htask : getTask state id = some task)
    (hnew : ∀ {bound owner}, lookup Prod.fst bound bindings =
        some (bound, owner) →
      lookup Prod.fst bound state.bindings = some (bound, owner) ∨ owner = id)
    (hlive : deleted = false → ∃ row,
      getConversation state.store conversationId = some row ∧
        OwnedBy task.owner row)
    (hcreating : task.conversationId ≠ conversationId →
      uninitialized state id = false) :
    Sound (updateTask { state with bindings } id conversationId deleted) := by
  have hset : ∀ {other found}, getTask state other = some found → _ :=
    fun {other found} hfound => getTask_updateTask_of_some id conversationId
      deleted (show getTask { state with bindings } other = some found
        from hfound)
  refine ⟨h.service, ?_, ?_, ?_⟩
  · intro bound owner hbound
    rcases hnew hbound with hold | rfl
    · obtain ⟨found, hfound⟩ := h.tasked bound owner hold
      exact ⟨_, hset hfound⟩
    · exact ⟨_, hset htask⟩
  · intro other found hfound hfoundLive
    rcases getTask_updateTask_some
        (show getTask { state with bindings } id = some task from htask)
        hfound with ⟨rfl, rfl⟩ | ⟨_, hsame⟩
    · exact hlive hfoundLive
    · exact h.live other found hsame hfoundLive
  · intro creation hcreation hopen
    obtain ⟨found, hfound, hpoints⟩ := h.creating creation hcreation hopen
    refine ⟨_, hset hfound, ?_⟩
    by_cases hid : creation.taskId = id
    · rw [if_pos hid]
      rw [hid] at hfound
      have hsame : found = task := Option.some.inj (hfound.symm.trans htask)
      rw [← hpoints, hsame]
      by_contra hmoved
      have hdone := hcreating (Ne.symm hmoved)
      rw [uninitialized, List.any_eq_false] at hdone
      exact hdone creation hcreation (by simp [hid, hopen])
    · rw [if_neg hid]
      exact hpoints

theorem Move.sound (h : Move state next) (hsound : Sound state) :
    Sound next := by
  cases h with
  | edit hguard =>
      exact hsound.of_scheduler (editSchedule_bounded hsound.service _ _)
        (updateSchedule_keeps state.store _ _)
  | create hfresh hnone =>
      exact hsound.of_scheduler (createConversation_bounded hsound.service
        hfresh) (saveConversation_keeps_of_fresh false hfresh)
  | insert hinsert hlive hrow howned =>
      exact hsound.insert hinsert hrow howned
  | rename htask hlive =>
      exact hsound.update htask Or.inl
        (fun _ => hsound.live _ _ htask hlive) fun hne => absurd rfl hne
  | delete htask hclosed =>
      exact hsound.update htask Or.inl (fun hfalse => nomatch hfalse)
        fun hne => absurd rfl hne
  | switch htask hlive hinitialized hclosed hunbound hrow howned =>
      exact hsound.update htask
        (fun hbound => (lookup_append_cases hbound).imp_right (·.2.2))
        (fun _ => ⟨_, hrow, howned⟩) fun _ => hinitialized
  | register htask =>
      refine ⟨hsound.service, hsound.tasked, hsound.live, ?_⟩
      intro creation hcreation hopen
      rcases List.mem_append.mp hcreation with hold | hnew
      · exact hsound.creating creation hold hopen
      · rw [List.mem_singleton.mp hnew]
        exact ⟨_, htask, rfl⟩
  | complete =>
      refine ⟨hsound.service, hsound.tasked, hsound.live, ?_⟩
      intro creation hcreation hopen
      obtain ⟨old, hold, rfl⟩ := List.mem_map.mp hcreation
      split at hopen
      · exact nomatch hopen
      · rename_i hother
        rw [if_neg hother]
        exact hsound.creating old hold hopen

theorem Moves.sound (h : Moves state next) (hsound : Sound state) :
    Sound next := by
  induction h with
  | refl => exact hsound
  | tail _ hmove ih => exact hmove.sound ih

/-! ### What is left behind -/

/-- The store may change as long as it keeps the schedules left behind. -/
theorem Shut.of_scheduler (h : Shut state) {scheduler : Scheduler}
    (hkept : ∀ other, retired state other = true →
      scheduleOf { state with scheduler } other = scheduleOf state other) :
    Shut { state with scheduler } := by
  intro other hretired row hrow
  have hsame := hkept other hretired
  rw [scheduleOf, hrow, Option.bind_some] at hsame
  rw [hsame, scheduleOf]
  cases hold : getConversation state.store other with
  | none => rfl
  | some old => exact h other hretired old hold

/-- A changed task leaves nothing open behind. -/
theorem Shut.update (h : Shut state) {deleted : Bool}
    (htask : getTask state id = some task)
    (hnew : ∀ {bound owner}, lookup Prod.fst bound bindings =
        some (bound, owner) →
      lookup Prod.fst bound state.bindings = some (bound, owner) ∨
        (bound = conversationId ∧ owner = id ∧ deleted = false))
    (hclosed : deleted = true ∨ task.conversationId ≠ conversationId →
      Closed state task.conversationId) :
    Shut (updateTask { state with bindings } id conversationId deleted) := by
  intro other hretired
  obtain ⟨owner, found, hbound, hfound, hleft⟩ := retired_iff.mp hretired
  rcases getTask_updateTask_some
      (show getTask { state with bindings } id = some task from htask)
      hfound with ⟨rfl, rfl⟩ | ⟨howner, hsame⟩
  · rcases hnew hbound with hold | ⟨rfl, _, hfalse⟩
    · by_cases hcurrent : task.conversationId = other
      · -- the conversation the task pointed at until now
        subst hcurrent
        exact hclosed (hleft.imp id Ne.symm)
      · exact h other
          (retired_iff.mpr ⟨owner, task, hold, htask, Or.inr hcurrent⟩)
    · rcases hleft with hdeleted | hother
      · rw [hfalse] at hdeleted
        exact nomatch hdeleted
      · exact absurd rfl hother
  · rcases hnew hbound with hold | ⟨_, heq, _⟩
    · exact h other (retired_iff.mpr ⟨owner, found, hold, hsame, hleft⟩)
    · exact absurd heq howner

theorem Move.shut (h : Move state next) (hsound : Sound state)
    (hshut : Shut state) : Shut next := by
  have hmove := h
  cases h with
  | edit hguard =>
      exact hshut.of_scheduler fun other hretired => hmove.scheduleOf hretired
  | create hfresh hnone =>
      exact hshut.of_scheduler fun other hretired => hmove.scheduleOf hretired
  | insert hinsert hlive hrow howned =>
      rename_i task row
      intro other hretired
      have hlasts := insertTask_lasts hinsert
      obtain ⟨owner, found, hbound, hfound, hleft⟩ := retired_iff.mp hretired
      obtain ⟨hfresh, hunbound, rfl⟩ := insertTask_some hinsert
      rcases lookup_append_cases hbound with hold | ⟨_, rfl, rfl⟩
      · apply hshut other
        obtain ⟨before, hbefore⟩ := hsound.tasked other owner hold
        rcases getTask_insert hfresh hfound with ⟨_, hsame⟩ | ⟨rfl, _⟩
        · exact retired_iff.mpr ⟨owner, found, hold, hsame, hleft⟩
        · rw [hfresh] at hbefore
          exact nomatch hbefore
      · -- the new binding leads to the new task, which points back
        rcases getTask_insert hfresh hfound with ⟨hne, _⟩ | ⟨_, rfl⟩
        · exact absurd rfl hne
        · rcases hleft with hdeleted | hother
          · rw [hlive] at hdeleted
            exact nomatch hdeleted
          · exact absurd rfl hother
  | rename htask hlive =>
      apply hshut.update htask Or.inl
      rintro (hfalse | hne)
      · exact nomatch hfalse
      · exact absurd rfl hne
  | delete htask hclosed =>
      exact hshut.update htask Or.inl fun _ => hclosed
  | switch htask hlive hinitialized hclosed hunbound hrow howned =>
      apply hshut.update htask ?_ fun _ => hclosed
      intro bound owner hbound
      rcases lookup_append_cases hbound with hold | ⟨_, rfl, rfl⟩
      · exact Or.inl hold
      · exact Or.inr ⟨rfl, rfl, rfl⟩
  | register htask => exact hshut
  | complete => exact hshut

theorem Moves.shut (h : Moves state next) (hsound : Sound state)
    (hshut : Shut state) : Shut next := by
  induction h with
  | refl => exact hshut
  | tail hmoves hmove ih => exact hmove.shut (Moves.sound hmoves hsound) ih

/-! ### The committed operations -/

/-- The state and the task after `resolve` and `materialize`, with the row of
its conversation if the task has one. -/
structure Opened (state : State) (id : String) (owner : Owner)
    (task : Option Task) (conversation : Option Conversation)
    (middle : State) (row : Task) : Prop where
  moves : Moves state middle
  found : getTask middle id = some row
  owner_eq : row.owner = owner
  live : row.deleted = false
  revision : task.elim 0 Task.revision ≤ row.revision
  store : middle.store = state.store
  creations : middle.creations = state.creations
  resolved : conversation =
    getOwnedConversation middle.store row.conversationId owner

theorem materialize_opened {task : Option Task}
    (hresolve : resolve state id owner = some (task, conversation))
    (hmaterialize : materialize state id owner task conversation =
      some (middle, row)) :
    Opened state id owner task conversation middle row := by
  rcases materialize_cases hresolve hmaterialize with
    ⟨rfl, htask, howner, hlive, rfl, hconversation⟩ |
    ⟨found, rfl, rfl, hfound, rfl, hinsert⟩
  · exact ⟨.refl, htask, howner, hlive, Nat.le_refl _, rfl, rfl,
      hconversation⟩
  · obtain ⟨hrow, -, howned⟩ := getOwnedConversation_some hfound
    have hmove : Move state middle := .insert hinsert rfl hrow howned
    obtain ⟨hfresh, hunbound, rfl⟩ := insertTask_some hinsert
    refine ⟨.single hmove, ?_, rfl, rfl, Nat.zero_le _, rfl, rfl,
      hfound.symm⟩
    change lookup Task.id id (state.tasks ++ [⟨id, owner, id, 1, false⟩])
      = some _
    rw [getTask_append, show getTask state id = none from hfresh,
      if_pos rfl, Option.none_or]

/-- An edit that was let through is a move, or nothing if the conversation is
gone. -/
theorem updateConversation_moves {schedule : Option ScheduleJson}
    (h : updateConversation state id schedule = some next) :
    Moves state next := by
  unfold updateConversation at h
  split at h
  · rw [← Option.some.inj h]
  · split at h
    · rename_i hguard
      rw [← Option.some.inj h]
      exact .single (.edit hguard)
    · exact nomatch h

/-- The row of the task's conversation. -/
theorem Opened.row_eq {task : Option Task}
    (h : Opened state id owner task conversation middle row)
    (hsound : Sound middle) :
    ∃ stored, conversation = some stored ∧
      getConversation middle.store row.conversationId = some stored ∧
      stored.id = row.conversationId := by
  obtain ⟨stored, hstored, howned⟩ := hsound.live id row h.found h.live
  have hid : stored.id = row.conversationId := lookup_key hstored
  refine ⟨stored, ?_, hstored, hid⟩
  rw [h.owner_eq] at howned
  rw [h.resolved, getOwnedConversation, hstored]
  simp [howned.1, howned.2]

/-- What a toggle leaves: the task is as it was, and switched off unless it was
to be enabled. -/
theorem toggle_moves {edited : State} {task : Option Task}
    {schedule : Option ConversationSchedule} {enabled : Bool}
    (h : Opened state id owner task conversation middle row)
    (hsound : Sound middle)
    (hparsed : parsedSchedule config conversation = some schedule)
    (htoggle : toggle middle conversation schedule enabled = some edited) :
    Moves middle edited ∧ getTask edited id = some row ∧
      edited.creations = middle.creations ∧
      (enabled = false → Closed edited row.conversationId) := by
  obtain ⟨stored, rfl, hstored, hid⟩ := h.row_eq hsound
  have hsame : schedule.all (!·.enabled) = true →
      Closed middle row.conversationId := by
    intro hall other hother
    rw [hstored, Option.some.injEq] at hother
    rw [← hother, ← (parsedSchedule_some hparsed).2]
    exact hall
  cases schedule with
  | none =>
      simp only [toggle, Option.some.injEq] at htoggle
      subst htoggle
      exact ⟨.refl, h.found, rfl, fun _ => hsame rfl⟩
  | some current =>
      simp only [toggle] at htoggle
      split at htoggle
      · have hmoves := updateConversation_moves htoggle
        obtain ⟨rfl, _⟩ := updateConversation_some htoggle
        refine ⟨hmoves, h.found, rfl, ?_⟩
        rintro rfl other hother
        rw [hid] at hother
        change getConversation (updateSchedule middle.store row.conversationId
          _) row.conversationId = some other at hother
        rw [updateSchedule_get hstored, if_pos rfl] at hother
        rw [← Option.some.inj hother]
        rfl
      · rename_i hunchanged
        rw [Option.some.injEq] at htoggle
        subst htoggle
        refine ⟨.refl, h.found, rfl, fun hoff => hsame ?_⟩
        have hcurrent : current.enabled = enabled := by simpa using hunchanged
        rw [Option.all_some, hcurrent, hoff]
        rfl

theorem act_moves {action : TaskAction} {completed : Bool}
    (hsound : Sound state)
    (hact : act config state id action owner expected completed = some next) :
    Moves state next := by
  simp only [act, Option.bind_eq_bind, Option.bind_eq_some_iff,
    Option.pure_def, Prod.exists] at hact
  obtain ⟨_, _, _, _, task, conversation, hresolve, middle, row,
    hmaterialize, schedule, hparsed, _, _, edited, hedited, hnext⟩ := hact
  have hopened := materialize_opened hresolve hmaterialize
  have hmiddle := hopened.moves.sound hsound
  obtain ⟨hmoves, htask, _, hclosed⟩ :=
    toggle_moves hopened hmiddle hparsed hedited
  have hreached : Moves state edited := hopened.moves.trans hmoves
  rw [← Option.some.inj hnext]
  split
  · rename_i hdelete
    apply hreached.tail
    apply Move.delete htask
    apply hclosed
    rw [beq_iff_eq.mp hdelete]
    rfl
  · exact hreached

/-- The revision an etag names. -/
theorem etag_revision (h : etag config state id owner = some expected) :
    ∃ task conversation, resolve state id owner = some (task, conversation) ∧
      expected.1 = task.elim 0 Task.revision := by
  simp only [etag, Option.bind_eq_bind, Option.bind_eq_some_iff,
    Option.pure_def, Option.some.injEq, Prod.exists] at h
  obtain ⟨task, conversation, hresolve, _, _, rfl⟩ := h
  exact ⟨task, conversation, hresolve, rfl⟩

/-- A task with a higher revision than the etag names. -/
def Outdates (state : State) (id : String) (owner : Owner)
    (expected : Nat × Nat) : Prop :=
  ∃ task, getTask state id = some task ∧ task.owner = owner ∧
    expected.1 < task.revision

theorem Outdates.lasts (h : Outdates state id owner expected)
    (hlasts : TasksLast state next) : Outdates next id owner expected := by
  obtain ⟨task, htask, howner, hlt⟩ := h
  obtain ⟨found, hfound, hgoes⟩ := hlasts id task htask
  exact ⟨found, hfound, hgoes.owner.trans howner,
    Nat.lt_of_lt_of_le hlt hgoes.revision⟩

/-- No etag of an earlier revision passes the check. -/
theorem Outdates.checkVersion (h : Outdates state id owner expected) :
    Automation.checkVersion config state id owner expected = false := by
  obtain ⟨task, htask, howner, hlt⟩ := h
  rw [Automation.checkVersion, beq_eq_false_iff_ne]
  intro hetag
  obtain ⟨found, conversation, hresolve, hrevision⟩ := etag_revision hetag
  have howned : getOwnedTask state id owner = some task := by
    rw [getOwnedTask, htask]
    simp [howner]
  rw [resolve, howned] at hresolve
  simp only at hresolve
  split at hresolve
  · exact nomatch hresolve
  · simp only [Option.some.injEq, Prod.mk.injEq] at hresolve
    rw [← hresolve.1, Option.elim_some] at hrevision
    omega

/-- The task a rename or a switch writes outdates the etag. -/
theorem updateTask_outdates (conversationId : String) (deleted : Bool)
    (hrow : getTask state id = some row) (howner : row.owner = owner)
    (hle : expected.1 ≤ row.revision) :
    Outdates (updateTask state id conversationId deleted) id owner
      expected := by
  refine ⟨_, getTask_updateTask_of_some id conversationId deleted hrow, ?_, ?_⟩
  · rw [if_pos rfl]
    exact howner
  · rw [if_pos rfl]
    exact Nat.lt_succ_of_le hle

theorem patchTask_moves {patch : Patch} {busy : Bool} (hsound : Sound state)
    (hpatch : patchTask config state id owner expected patch busy =
      some next) : Moves state next ∧ Outdates next id owner expected := by
  simp only [patchTask, Option.bind_eq_bind, Option.bind_eq_some_iff,
    Option.pure_def, Prod.exists] at hpatch
  obtain ⟨_, hversion, _, hidle, task, conversation, hresolve, stored, rfl,
    current, hparsed, schedule, hschedule, middle, row, hmaterialize,
    hwritten⟩ := hpatch
  have hopened := materialize_opened hresolve hmaterialize
  have hmiddle := hopened.moves.sound hsound
  obtain ⟨_, hstored, hrow, hid⟩ := hopened.row_eq hmiddle
  rw [← Option.some.inj hstored] at hrow hid
  have hle : expected.1 ≤ row.revision := by
    obtain ⟨found, other, hfound, hrevision⟩ :=
      etag_revision (beq_iff_eq.mp (guard_some hversion))
    rw [hresolve, Option.some.injEq, Prod.mk.injEq] at hfound
    rw [hrevision, ← hfound.1]
    exact hopened.revision
  split at hwritten
  · rename_i nextId _
    simp only [Option.bind_eq_some_iff] at hwritten
    obtain ⟨_, howned, cleared, hcleared, bound, hbound, hnext⟩ := hwritten
    have hclearing := updateConversation_moves hcleared
    obtain ⟨rfl, _⟩ := updateConversation_some hcleared
    obtain ⟨hunbound, rfl⟩ := bind_some hbound
    obtain ⟨nextRow, hnextRow⟩ := Option.isSome_iff_exists.mp
      (guard_some howned)
    obtain ⟨hfound, _, hnextOwned⟩ := getOwnedConversation_some hnextRow
    obtain ⟨kept, hkept, hevolves⟩ :=
      (updateSchedule_keeps middle.store stored.id none).present hfound
    have hclosed : Closed (middle.edit stored.id none) row.conversationId := by
      intro other hother
      rw [hid] at hother
      change getConversation (updateSchedule middle.store row.conversationId
        none) row.conversationId = some other at hother
      rw [updateSchedule_get hrow, if_pos rfl] at hother
      rw [← Option.some.inj hother]
      rfl
    have hinitialized : uninitialized (middle.edit stored.id none) id =
        false := by
      have hready := guard_some hidle
      rw [Bool.and_eq_true, Bool.not_eq_true'] at hready
      rw [uninitialized] at hready ⊢
      change (middle.creations.any _) = false
      rw [hopened.creations]
      exact hready.1
    have hswitch : Move (middle.edit stored.id none)
        (switchTask (middle.edit stored.id none) id nextId) := by
      have htask : getTask (middle.edit stored.id none) id = some row :=
        hopened.found
      apply Move.switch htask hopened.live hinitialized hclosed hunbound hkept
      rw [hopened.owner_eq]
      exact ⟨hevolves.1.trans hnextOwned.1, hevolves.2.1.trans hnextOwned.2⟩
    have hlast := updateConversation_moves hnext
    refine ⟨(hopened.moves.trans hclearing).trans (hlast.head hswitch), ?_⟩
    have houtdates : Outdates (switchTask (middle.edit stored.id none) id
        nextId) id owner expected :=
      updateTask_outdates nextId false hopened.found hopened.owner_eq hle
    exact houtdates.lasts hlast.lasts
  · have hmove : Move middle (updateTask middle id row.conversationId false) :=
      .rename hopened.found hopened.live
    have houtdates := updateTask_outdates row.conversationId false
      hopened.found hopened.owner_eq hle
    rw [hid] at hwritten
    split at hwritten
    · have hlast := updateConversation_moves hwritten
      exact ⟨hopened.moves.trans (hlast.head hmove),
        houtdates.lasts hlast.lasts⟩
    · rw [← Option.some.inj hwritten]
      exact ⟨hopened.moves.tail hmove, houtdates⟩

theorem beginCreate_moves {taskId : String}
    (h : beginCreate state taskId conversationId owner = some next) :
    Moves state next := by
  obtain ⟨hfresh, inserted, hinsert, rfl⟩ := beginCreate_some h
  have hcreate : Move state (state.withStore (saveConversation state.store
      ⟨conversationId, some owner.tenantId, some owner.memberId, none, 0⟩
        false)) := .create hfresh rfl
  have hrow : getConversation (saveConversation state.store
      ⟨conversationId, some owner.tenantId, some owner.memberId, none, 0⟩
        false) conversationId =
      some ⟨conversationId, some owner.tenantId, some owner.memberId, none,
        0⟩ := by
    rw [saveConversation, hfresh, getConversation, lookup_append,
      show lookup Conversation.id conversationId state.store.conversations =
        none from hfresh, if_pos rfl]
    rfl
  have hinserted : Move _ inserted := .insert hinsert rfl hrow ⟨rfl, rfl⟩
  obtain ⟨hnone, _, rfl⟩ := insertTask_some hinsert
  have htask : lookup Task.id taskId (state.tasks ++
      [⟨taskId, owner, conversationId, 1, false⟩]) =
      some ⟨taskId, owner, conversationId, 1, false⟩ := by
    rw [getTask_append, show getTask state taskId = none from hnone,
      if_pos rfl, Option.none_or]
  exact ((Relation.ReflTransGen.single hcreate).tail hinserted).tail
    (@Move.register _ taskId ⟨taskId, owner, conversationId, 1, false⟩ htask)

theorem finishCreate_moves {taskId : String} {schedule : ConversationSchedule}
    (h : finishCreate state taskId owner schedule = some next) :
    Moves state next := by
  simp only [finishCreate, Option.bind_eq_bind, Option.bind_eq_some_iff] at h
  obtain ⟨_, _, _, _, _, _, hnext⟩ := h
  exact (updateConversation_moves hnext).head .complete

end AiTeam.Automation
