/-
The automation task store along a run: no two patches of one etag commit, one
idempotency key makes one task with one conversation, and the schedule of a
conversation that a task has left behind stays as it is.
-/
import AiTeam.Automation.Recorded

namespace AiTeam.Automation.Creating

open AiTeam.Receipt AiTeam.Schedule AiTeam.Automation

variable {Digest : Type}

/-- What one step of the service did. -/
inductive Steps (config : Config) (digest : CreateInput → Digest)
    (state : Service Digest) : Action → Service Digest → List Event → Prop
  | operated {base : Automation.Action} : isOperation base = true →
      Steps config digest state (.operation base) { state with
        tables := (Automation.machine config).next state.tables base
        creating := if isRestart base then [] else state.creating }
        (patchedEvents config state.tables base)
  | idle {action : Action} : Steps config digest state action state []
  | refused {action : Action} {problem : Problem} {creating : List Call} :
      creating ⊆ state.creating →
      Steps config digest state action { state with creating }
        [.refused problem]
  | replayed {action : Action} {owner : Owner} {key : String}
      {row : Row Digest} {view : TaskView} :
      findRow state owner key = some row → row.response = some view →
      Steps config digest state action state [.answered owner key view]
  | resumed {action : Action} {owner : Owner} {key prompt : String}
      {row : Row Digest} {rule : Option RuleJson} :
      findRow state owner key = some row → storedResponse state row = none →
      Steps config digest state action { state with
        creating := state.creating ++
          [⟨owner, key, row.taskId, prompt, rule⟩] } []
  | started {action : Action} {owner : Owner} {input : CreateInput}
      {key prompt taskId conversationId : String} {rule : Option RuleJson}
      {tables : State} :
      findRow state owner key = none →
      beginCreate state.tables taskId conversationId owner = some tables →
      Steps config digest state action ⟨tables, state.rows ++
          [⟨owner, key, digest input, taskId, conversationId, none⟩],
        state.creating ++ [⟨owner, key, taskId, prompt, rule⟩]⟩
        [.created owner key input taskId conversationId]
  | completed {action : Action} {call : Call} {tables : State}
      {view : TaskView} :
      call ∈ state.creating →
      completeCall config state.tables call = .ok (tables, view) →
      Steps config digest state action ⟨tables,
          updateWhere (·.id == (call.owner, call.key))
            (fun row => { row with response := some view }) state.rows,
          state.creating.filter (·.taskId != call.taskId)⟩
        [.answered call.owner call.key view]

theorem create_steps [DecidableEq Digest] (config : Config)
    (digest : CreateInput → Digest)
    (state : Service Digest) (action : Action) (owner : Owner)
    (body : CreateBody) (key : Option String)
    (selection : Except Problem Unit) (ids : String × String) (now : Int) :
    Steps config digest state action
      (create config digest state owner body key selection ids now).1
      (create config digest state owner body key selection ids now).2 := by
  have hrefused : ∀ {problem},
      Steps config digest state action state [.refused problem] :=
    .refused fun _ h => h
  unfold create
  cases hparse : parseCreate config.temporal body key with
  | error problem => exact hrefused
  | ok parsed =>
      obtain ⟨key, input⟩ := parsed
      dsimp only
      cases hrow : findRow state owner key with
      | some row =>
          dsimp only
          split
          · exact hrefused
          · cases hstored : storedResponse state row with
            | some view =>
                apply Steps.replayed hrow
                unfold storedResponse at hstored
                split at hstored
                · exact nomatch hstored
                · exact hstored
            | none =>
                cases selection with
                | error problem => exact hrefused
                | ok _ =>
                    dsimp only
                    split
                    · exact hrefused
                    · exact .resumed hrow hstored
      | none =>
          cases selection with
          | error problem => exact hrefused
          | ok _ =>
              dsimp only
              split
              · exact hrefused
              · split
                · exact hrefused
                · split
                  · exact hrefused
                  · rename_i tables hbegin
                    exact .started hrow hbegin

theorem initialized_steps (config : Config) (digest : CreateInput → Digest)
    (state : Service Digest) (action : Action) (taskId : String) (ok : Bool) :
    Steps config digest state action
      (initialized config state taskId ok).1
      (initialized config state taskId ok).2 := by
  unfold initialized
  cases hcall : state.creating.find? (·.taskId == taskId) with
  | none => exact .idle
  | some call =>
      have hid : call.taskId = taskId := by
        simpa using List.find?_some hcall
      have hdropped : ∀ {problem}, Steps config digest state action
          { state with creating :=
              state.creating.filter (·.taskId != taskId) }
          [.refused problem] :=
        .refused (List.filter_subset_self _)
      dsimp only
      split
      · cases hcomplete : completeCall config state.tables call with
        | error problem => exact hdropped
        | ok result =>
            obtain ⟨tables, view⟩ := result
            rw [← hid]
            exact .completed (List.mem_of_find?_eq_some hcall) hcomplete
      · exact hdropped

theorem step_steps [DecidableEq Digest] (config : Config)
    (digest : CreateInput → Digest)
    (state : Service Digest) (action : Action) :
    Steps config digest state action (step config digest state action).1
      (step config digest state action).2 := by
  cases action with
  | operation base =>
      simp only [step, operate]
      split
      · exact .operated ‹_›
      · exact .idle
  | create owner body key selection ids now =>
      exact create_steps config digest state _ owner body key selection ids now
  | initialized taskId ok =>
      exact initialized_steps config digest state _ taskId ok

variable {base : Automation.Action} {state next : Service Digest}
  {digest : CreateInput → Digest} {action : Action} {events past : List Event}
  {key : String}

section Steps

variable {config : Config} {digest : CreateInput → Digest}
  {state next : Service Digest} {action : Action} {events : List Event}

/-- The tables go on by one step of the automation machine, and by one of its
operations only if the action is that operation. -/
theorem Steps.tables (h : Steps config digest state action next events)
    (hsound : Sound state.tables) :
    next.tables = state.tables ∨
      ∃ base, next.tables =
          (Automation.machine config).next state.tables base ∧
        (isOperation base = true → action = .operation base) := by
  cases h with
  | operated hoperation => exact Or.inr ⟨_, rfl, fun _ => rfl⟩
  | idle => exact Or.inl rfl
  | refused hcreating => exact Or.inl rfl
  | replayed hrow hview => exact Or.inl rfl
  | resumed hrow hstored => exact Or.inl rfl
  | started hrow hbegin =>
      rename_i owner _ _ _ taskId conversationId _ _
      refine Or.inr ⟨.beginCreate taskId conversationId owner, ?_,
        fun hoperation => nomatch hoperation⟩
      change _ = (Automation.beginCreate _ _ _ _).getD _
      rw [hbegin, Option.getD_some]
  | completed hcall hcomplete =>
      rename_i call _ _
      obtain ⟨⟨schedule, hfinish⟩, _⟩ := completeCall_ok hsound hcomplete
      refine Or.inr ⟨.finishCreate call.taskId call.owner schedule, ?_,
        fun hoperation => nomatch hoperation⟩
      change _ = (Automation.finishCreate _ _ _ _).getD _
      rw [hfinish, Option.getD_some]

theorem Steps.lasts (h : Steps config digest state action next events)
    (hsound : Sound state.tables) :
    TasksLast state.tables next.tables := by
  rcases h.tables hsound with hsame | ⟨base, hbase, _⟩
  · rw [hsame]
    exact TasksLast.refl state.tables
  · rw [hbase]
    exact (next_sound config hsound base).2

theorem operation_creations (config : Config) {tables : State}
    (h : isOperation base = true) :
    ((Automation.machine config).next tables base).creations =
      tables.creations := by
  change (Automation.step config tables base).1.creations = _
  cases base with
  | scheduler request =>
      simp only [Automation.step]
      split <;> rfl
  | beginCreate taskId conversationId owner => cases h
  | finishCreate taskId owner schedule => cases h
  | patch id owner expected patch busy =>
      exact getD_creations fun _ => patchTask_creations
  | act id action owner expected completed =>
      exact getD_creations fun _ => act_creations
  | deleteConversation id owner =>
      simp only [Automation.step, deleteConversation]
      split <;> rfl

theorem Steps.rows (h : Steps config digest state action next events)
    (hrows : Rows state) : Rows next := by
  cases h with
  | operated hoperation =>
      rename_i base
      apply hrows.of_same (next_sound config hrows.tables base).1
        (operation_creations config hoperation)
      split
      · exact List.nil_subset _
      · exact fun _ hcall => hcall
  | idle => exact hrows
  | refused hcreating => exact hrows.of_same hrows.tables rfl hcreating
  | replayed hrow hview => exact hrows
  | resumed hrow hstored =>
      exact hrows.resumed hrow (hrows.open_of_stored hrow hstored) _ _
  | started hrow hbegin => exact hrows.started hrow hbegin _ _
  | completed hcall hcomplete => exact hrows.completed hcall hcomplete

end Steps

/-! ### What the rows record of the events -/

/-- Every creation of the past has its row, every row a creation of the past,
and every answer is the response of its row. -/
structure Recorded (digest : CreateInput → Digest) (state : Service Digest)
    (past : List Event) : Prop where
  rows : Rows state
  created : ∀ owner key input taskId conversationId,
    .created owner key input taskId conversationId ∈ past →
    ∃ row, findRow state owner key = some row ∧
      row.fingerprint = digest input ∧ row.taskId = taskId ∧
      row.conversationId = conversationId
  known : ∀ owner key row, findRow state owner key = some row →
    ∃ input, .created owner key input row.taskId row.conversationId ∈ past
  answered : ∀ owner key view, .answered owner key view ∈ past →
    ∃ row, findRow state owner key = some row ∧ row.response = some view

theorem Steps.rows_last {config : Config}
    (h : Steps config digest state action next events) (hrows : Rows state) :
    Lasts Row.id Row.GoesOn state.rows next.rows := by
  cases h with
  | operated hoperation => exact Lasts.refl Row.GoesOn.refl _
  | idle => exact Lasts.refl Row.GoesOn.refl _
  | refused hcreating => exact Lasts.refl Row.GoesOn.refl _
  | replayed hrow hview => exact Lasts.refl Row.GoesOn.refl _
  | resumed hrow hstored => exact Lasts.refl Row.GoesOn.refl _
  | started hrow hbegin => exact Lasts.append Row.GoesOn.refl _ _
  | completed hcall hcomplete =>
      rename_i call _ view
      obtain ⟨own, hown, _, hopen⟩ := hrows.calls call hcall
      intro id row hrow
      rw [lookup_updateWhere Row.id id _
        (fun row => { row with response := some view }) fun _ => rfl, hrow]
      refine ⟨_, rfl, ?_⟩
      dsimp only
      by_cases hid : row.id = (call.owner, call.key)
      · rw [if_pos (by simp [hid])]
        have hkey : row.id = id := lookup_key hrow
        rw [← hkey, hid] at hrow
        have hsame : row = own := Option.some.inj (hrow.symm.trans hown)
        refine ⟨rfl, rfl, rfl, fun shown hshown => ?_⟩
        rw [hsame, hopen] at hshown
        exact nomatch hshown
      · rw [if_neg (by simp [hid])]
        exact Row.GoesOn.refl row

theorem patchedEvents_cases {config : Config} {tables : State} {event : Event}
    (h : event ∈ patchedEvents config tables base) :
    ∃ id owner expected patch busy,
      base = .patch id owner expected patch busy ∧
      (patchTask config tables id owner expected patch busy).isSome = true ∧
      event = .patched id owner expected := by
  unfold patchedEvents at h
  split at h
  · rename_i id owner expected patch busy
    split at h
    · exact ⟨id, owner, expected, patch, busy, rfl, ‹_›,
        List.mem_singleton.mp h⟩
    · exact nomatch h
  · exact nomatch h

/-- A row of the next state is an old one, with a new response perhaps, or the
one of a creation. -/
theorem Steps.row_known {config : Config}
    (h : Steps config digest state action next events) {owner : Owner}
    {row : Row Digest} (hrow : findRow next owner key = some row) :
    (∃ old, findRow state owner key = some old ∧ row.taskId = old.taskId ∧
      row.conversationId = old.conversationId) ∨
    ∃ input, .created owner key input row.taskId row.conversationId ∈
      events := by
  cases h with
  | operated hoperation => exact Or.inl ⟨row, hrow, rfl, rfl⟩
  | idle => exact Or.inl ⟨row, hrow, rfl, rfl⟩
  | refused hcreating => exact Or.inl ⟨row, hrow, rfl, rfl⟩
  | replayed _ hview => exact Or.inl ⟨row, hrow, rfl, rfl⟩
  | resumed _ hstored => exact Or.inl ⟨row, hrow, rfl, rfl⟩
  | started hfresh hbegin =>
      rw [findRow_append rfl] at hrow
      cases hold : findRow state owner key with
      | some old =>
          rw [hold, Option.some_or, Option.some.injEq] at hrow
          rw [← hrow]
          exact Or.inl ⟨old, rfl, rfl, rfl⟩
      | none =>
          rw [hold, Option.none_or] at hrow
          split at hrow
          · rename_i hkey
            obtain ⟨rfl, rfl⟩ := Prod.mk.inj hkey
            rw [← Option.some.inj hrow]
            exact Or.inr ⟨_, List.mem_singleton.mpr rfl⟩
          · exact nomatch hrow
  | completed hcall hcomplete =>
      rw [findRow_answer rfl, Option.map_eq_some_iff] at hrow
      obtain ⟨old, hold, rfl⟩ := hrow
      refine Or.inl ⟨old, hold, ?_⟩
      split <;> exact ⟨rfl, rfl⟩

/-- A creation that is new has its row, and had none before. -/
theorem Steps.created {config : Config}
    (h : Steps config digest state action next events) {owner : Owner}
    {input : CreateInput} {taskId conversationId : String}
    (hevent : .created owner key input taskId conversationId ∈ events) :
    findRow state owner key = none ∧
    ∃ row, findRow next owner key = some row ∧
      row.fingerprint = digest input ∧ row.taskId = taskId ∧
      row.conversationId = conversationId := by
  cases h with
  | operated hoperation =>
      obtain ⟨_, _, _, _, _, _, _, heq⟩ := patchedEvents_cases hevent
      exact nomatch heq
  | idle => exact nomatch hevent
  | refused hcreating => exact nomatch List.mem_singleton.mp hevent
  | replayed hrow hview => exact nomatch List.mem_singleton.mp hevent
  | resumed hrow hstored => exact nomatch hevent
  | started hrow hbegin =>
      obtain ⟨rfl, rfl, rfl, rfl, rfl⟩ :=
        Event.created.inj (List.mem_singleton.mp hevent)
      refine ⟨hrow, ⟨owner, key, digest input, taskId, conversationId, none⟩,
        ?_, rfl, rfl, rfl⟩
      rw [findRow_append rfl, hrow, Option.none_or]
      exact if_pos rfl
  | completed hcall hcomplete => exact nomatch List.mem_singleton.mp hevent

/-- An answer is the response of its row from then on. -/
theorem Steps.answered {config : Config}
    (h : Steps config digest state action next events) (hrows : Rows state)
    {owner : Owner} {view : TaskView}
    (hevent : .answered owner key view ∈ events) :
    (∃ old, findRow state owner key = some old) ∧
    ∃ row, findRow next owner key = some row ∧ row.response = some view := by
  cases h with
  | operated hoperation =>
      obtain ⟨_, _, _, _, _, _, _, heq⟩ := patchedEvents_cases hevent
      exact nomatch heq
  | idle => exact nomatch hevent
  | refused hcreating => exact nomatch List.mem_singleton.mp hevent
  | replayed hrow hview =>
      obtain ⟨rfl, rfl, rfl⟩ :=
        Event.answered.inj (List.mem_singleton.mp hevent)
      exact ⟨⟨_, hrow⟩, _, hrow, hview⟩
  | resumed hrow hstored => exact nomatch hevent
  | started hrow hbegin => exact nomatch List.mem_singleton.mp hevent
  | completed hcall hcomplete =>
      obtain ⟨rfl, rfl, rfl⟩ :=
        Event.answered.inj (List.mem_singleton.mp hevent)
      obtain ⟨own, hown, _⟩ := hrows.calls _ hcall
      refine ⟨⟨own, hown⟩, { own with response := some view }, ?_, rfl⟩
      rw [findRow_answer rfl, hown, Option.map_some, if_pos rfl]

theorem Recorded.steps {config : Config} (h : Recorded digest state past)
    (hsteps : Steps config digest state action next events) :
    Recorded digest next (past ++ events) where
  rows := hsteps.rows h.rows
  created := by
    intro owner key input taskId conversationId hevent
    rcases List.mem_append.mp hevent with hpast | hnew
    · obtain ⟨row, hrow, hfingerprint, htaskId, hconversationId⟩ :=
        h.created owner key input taskId conversationId hpast
      obtain ⟨row', hrow', hgoes⟩ := hsteps.rows_last h.rows _ row hrow
      exact ⟨row', hrow', hgoes.fingerprint.trans hfingerprint,
        hgoes.taskId.trans htaskId,
        hgoes.conversationId.trans hconversationId⟩
    · exact (hsteps.created hnew).2
  known := by
    intro owner key row hrow
    rcases hsteps.row_known hrow with ⟨old, hold, htaskId, hconversationId⟩ |
      ⟨input, hnew⟩
    · obtain ⟨input, hpast⟩ := h.known owner key old hold
      rw [htaskId, hconversationId]
      exact ⟨input, List.mem_append_left _ hpast⟩
    · exact ⟨input, List.mem_append_right _ hnew⟩
  answered := by
    intro owner key view hevent
    rcases List.mem_append.mp hevent with hpast | hnew
    · obtain ⟨row, hrow, hview⟩ := h.answered owner key view hpast
      obtain ⟨row', hrow', hgoes⟩ := hsteps.rows_last h.rows _ row hrow
      exact ⟨row', hrow', hgoes.response view hview⟩
    · exact (hsteps.answered h.rows hnew).2

/-! ### Patches -/

/-- A patch that commits outdates its etag, which none had outdated before. -/
theorem Steps.patched {config : Config}
    (h : Steps config digest state action next events)
    (hsound : Sound state.tables) {id : String} {owner : Owner}
    {expected : Nat × Nat} (hevent : .patched id owner expected ∈ events) :
    ¬ Outdates state.tables id owner expected ∧
      Outdates next.tables id owner expected := by
  cases h with
  | operated hoperation =>
      obtain ⟨other, member, etag, patch, busy, rfl, hsome, heq⟩ :=
        patchedEvents_cases hevent
      obtain ⟨rfl, rfl, rfl⟩ := Event.patched.inj heq
      obtain ⟨written, hpatch⟩ := Option.isSome_iff_exists.mp hsome
      constructor
      · intro houtdates
        have hstale : checkVersion config state.tables id owner expected =
            false := houtdates.checkVersion
        simp [patchTask, hstale] at hpatch
      · change Outdates ((patchTask config state.tables id owner expected patch
          busy).getD state.tables) id owner expected
        rw [hpatch]
        exact (patchTask_moves hsound hpatch).2
  | idle => cases hevent
  | refused hcreating => cases List.mem_singleton.mp hevent
  | replayed hrow hview => cases List.mem_singleton.mp hevent
  | resumed hrow hstored => cases hevent
  | started hrow hbegin => cases List.mem_singleton.mp hevent
  | completed hcall hcomplete => cases List.mem_singleton.mp hevent

/-- The invariant of a run. -/
structure Holds (digest : CreateInput → Digest) (state : Service Digest)
    (past : List Event) : Prop where
  recorded : Recorded digest state past
  patched : ∀ id owner expected, .patched id owner expected ∈ past →
    Outdates state.tables id owner expected

theorem Holds.sound (h : Holds digest state past) : Sound state.tables :=
  h.recorded.rows.tables

theorem Holds.steps {config : Config} (h : Holds digest state past)
    (hsteps : Steps config digest state action next events) :
    Holds digest next (past ++ events) where
  recorded := h.recorded.steps hsteps
  patched := by
    intro id owner expected hevent
    rcases List.mem_append.mp hevent with hpast | hnew
    · exact (h.patched id owner expected hpast).lasts (hsteps.lasts h.sound)
    · exact (hsteps.patched h.sound hnew).2

theorem holds_initial (digest : CreateInput → Digest) :
    Holds digest initial [] where
  recorded :=
    { rows :=
        { tables := initial_sound
          creations := Keyed.nil _
          joined := fun _ _ _ h => nomatch h
          distinct := fun _ _ _ _ _ _ h => nomatch h
          response := fun _ _ _ _ h => nomatch h
          calls := fun _ h => nomatch h }
      created := fun _ _ _ _ _ h => nomatch h
      known := fun _ _ _ h => nomatch h
      answered := fun _ _ _ h => nomatch h }
  patched := fun _ _ _ h => nomatch h

/-! ### Schedules that a task has left behind -/

/-- The operation writes the schedule of a conversation that a task has left
behind past the guard. -/
def Disturbs (state : Service Digest) : Action → Prop
  | .operation base => Automation.Disturbs state.tables base
  | _ => False

theorem disturbs_of_tables
    (haction : isOperation base = true → action = .operation base)
    (hcalm : ¬ Disturbs state action) :
    ¬ Automation.Disturbs state.tables base := by
  cases hoperation : isOperation base with
  | true =>
      rw [haction hoperation] at hcalm
      exact hcalm
  | false =>
      cases base with
      | beginCreate taskId conversationId owner => exact fun h => h
      | finishCreate taskId owner schedule => exact fun h => h
      | scheduler request => exact nomatch hoperation
      | patch id owner expected patch busy => exact nomatch hoperation
      | act id action owner expected completed => exact nomatch hoperation
      | deleteConversation id owner => exact nomatch hoperation

theorem Steps.shut {config : Config}
    (h : Steps config digest state action next events)
    (hsound : Sound state.tables) (hshut : Shut state.tables)
    (hcalm : ¬ Disturbs state action) :
    Shut next.tables ∧ ∀ other, retired state.tables other = true →
      retired next.tables other = true ∧
        Kept state.tables next.tables other := by
  rcases h.tables hsound with hsame | ⟨base, hbase, haction⟩
  · rw [hsame]
    exact ⟨hshut, fun other hretired => ⟨hretired, Or.inr rfl⟩⟩
  · rw [hbase]
    exact next_shut config hsound hshut (disturbs_of_tables haction hcalm)

/-! ### Consistency of a run -/

/-- The task and the conversation that a creation makes. -/
def Event.madeIds : Event → Option (String × String)
  | .created _ _ _ taskId conversationId => some (taskId, conversationId)
  | _ => none

def taskIds (state : State) : List String := state.tasks.map Task.id

def conversationIds (state : State) : List String :=
  state.store.conversations.map Conversation.id

/-- The task store is consistent in a step that follows a past. -/
structure Consistent [DecidableEq Digest] (config : Config)
    (digest : CreateInput → Digest) (state : Service Digest)
    (past : List Event) (action : Action) : Prop where
  /-- An etag of which a patch has committed serves no other patch. -/
  patched : ∀ id owner etag,
    .patched id owner etag ∈ (machine config digest).emit state action →
    .patched id owner etag ∉ past
  /-- An idempotency key makes one creation. -/
  created : ∀ owner key input taskId conversationId,
    .created owner key input taskId conversationId ∈
      (machine config digest).emit state action →
    ∀ input' taskId' conversationId',
      .created owner key input' taskId' conversationId' ∉ past
  /-- The calls of `create` make the tasks and the conversations of the
  creations, one of each, and no other. -/
  made : (∀ base, action ≠ .operation base) →
    taskIds ((machine config digest).next state action).tables =
        taskIds state.tables ++
          (((machine config digest).emit state action).filterMap
            Event.madeIds).map Prod.fst ∧
      conversationIds ((machine config digest).next state action).tables =
        conversationIds state.tables ++
          (((machine config digest).emit state action).filterMap
            Event.madeIds).map Prod.snd
  /-- The calls with one key are all answered alike, with what was made. -/
  answered : ∀ owner key view,
    .answered owner key view ∈ (machine config digest).emit state action →
    (∃ input taskId conversationId,
      .created owner key input taskId conversationId ∈ past ∧
      view.taskId = taskId ∧ view.conversationId = some conversationId) ∧
    ∀ view', .answered owner key view' ∈ past → view' = view
  /-- A repeated call changes no table, and with a different input nothing. -/
  repeated : ∀ owner body key selection ids now key' input,
    action = .create owner body key selection ids now →
    parseCreate config.temporal body key = .ok (key', input) →
    ∀ input' taskId conversationId,
      .created owner key' input' taskId conversationId ∈ past →
      ((machine config digest).next state action).tables = state.tables ∧
      (input ≠ input' →
        (machine config digest).step state action =
          (state, [.refused keyReused]))
  /-- A conversation that a task has left behind keeps its schedule. -/
  kept : ∀ conversationId, retired state.tables conversationId = true →
    Kept state.tables ((machine config digest).next state action).tables
      conversationId

theorem Steps.made {config : Config}
    (h : Steps config digest state action next events)
    (hsound : Sound state.tables) (hcall : ∀ base, action ≠ .operation base) :
    taskIds next.tables = taskIds state.tables ++
        (events.filterMap Event.madeIds).map Prod.fst ∧
      conversationIds next.tables = conversationIds state.tables ++
        (events.filterMap Event.madeIds).map Prod.snd := by
  have hsame : ∀ {ids : List String}, ids = ids ++ ([] : List String) :=
    (List.append_nil _).symm
  cases h with
  | operated hoperation => exact absurd rfl (hcall _)
  | idle => exact ⟨hsame, hsame⟩
  | refused hcreating => exact ⟨hsame, hsame⟩
  | replayed hrow hview => exact ⟨hsame, hsame⟩
  | resumed hrow hstored => exact ⟨hsame, hsame⟩
  | started hrow hbegin =>
      obtain ⟨htasks, _, _, hconversations⟩ := beginCreate_tables hbegin
      refine ⟨?_, hconversations⟩
      change List.map Task.id _ = _
      rw [htasks, List.map_append]
      rfl
  | completed hcall hcomplete =>
      obtain ⟨⟨schedule, hfinish⟩, _⟩ := completeCall_ok hsound hcomplete
      obtain ⟨htasks, _, hconversations⟩ := finishCreate_tables hfinish
      refine ⟨?_, hconversations.trans hsame⟩
      change List.map Task.id _ = _
      rw [htasks]
      exact hsame

/-- A call whose key has a row. -/
theorem create_repeated [DecidableEq Digest] {config : Config} {owner : Owner}
    {body : CreateBody} {key : Option String} {key' : String}
    {input : CreateInput} {row : Row Digest}
    (hparse : parseCreate config.temporal body key = .ok (key', input))
    (hrow : findRow state owner key' = some row)
    (selection : Except Problem Unit) (ids : String × String) (now : Int) :
    (create config digest state owner body key selection ids now).1.tables =
        state.tables ∧
      (row.fingerprint ≠ digest input →
        create config digest state owner body key selection ids now =
          (state, [.refused keyReused])) := by
  unfold create
  rw [hparse]
  dsimp only
  rw [hrow]
  dsimp only
  split
  · exact ⟨rfl, fun _ => rfl⟩
  · rename_i hsame
    refine ⟨?_, fun hother => absurd hother hsame⟩
    split
    · rfl
    · rfl
    · split <;> rfl

theorem Holds.answered {config : Config} (h : Holds digest state past)
    (hsteps : Steps config digest state action next events) {owner : Owner}
    {view : TaskView} (hevent : .answered owner key view ∈ events) :
    (∃ input taskId conversationId,
      .created owner key input taskId conversationId ∈ past ∧
      view.taskId = taskId ∧ view.conversationId = some conversationId) ∧
    ∀ view', .answered owner key view' ∈ past → view' = view := by
  have hrows := h.recorded.rows
  obtain ⟨⟨old, hold⟩, row, hrow, hview⟩ := hsteps.answered hrows hevent
  obtain ⟨row', hrow', hgoes⟩ := hsteps.rows_last hrows _ old hold
  have hsame : row' = row := Option.some.inj (hrow'.symm.trans hrow)
  subst hsame
  constructor
  · obtain ⟨input, hpast⟩ := h.recorded.known owner key old hold
    obtain ⟨htaskId, hconversationId⟩ :=
      (hsteps.rows hrows).response owner key row' view hrow hview
    exact ⟨input, old.taskId, old.conversationId, hpast,
      htaskId.trans hgoes.taskId,
      hconversationId.trans (congrArg some hgoes.conversationId)⟩
  · intro view' hpast
    obtain ⟨found, hfound, hresponse⟩ :=
      h.recorded.answered owner key view' hpast
    rw [hold, Option.some.injEq] at hfound
    subst hfound
    exact Option.some.inj ((hgoes.response view' hresponse).symm.trans hview)

/-- The automation task store is consistent in every run in which no step
writes the schedule of a conversation that a task has left behind past the
guard. -/
theorem task_store_consistent [DecidableEq Digest] (config : Config)
    (digest : CreateInput → Digest) (hdigest : Function.Injective digest)
    (before : List Action) (action : Action)
    (hcalm : (machine config digest).Admissible
      (fun state action => ¬ Disturbs state action) initial
      (before ++ [action])) :
    Consistent config digest ((machine config digest).run initial before)
      ((machine config digest).trace initial before) action := by
  have hrun := (machine config digest).invariant_from
    (fun state past => Holds digest state past ∧ Shut state.tables)
    (fun state past action h hallowed =>
      have hsteps := step_steps config digest state action
      ⟨h.1.steps hsteps, (hsteps.shut h.1.sound h.2 hallowed).1⟩)
    before ⟨holds_initial digest, initial_shut⟩ (Machine.admissible_left hcalm)
  rw [List.nil_append] at hrun
  obtain ⟨hholds, hshut⟩ := hrun
  have hlast := (Machine.admissible_right hcalm).1
  have hsteps := step_steps config digest
    ((machine config digest).run initial before) action
  constructor
  · intro id owner etag hevent hpast
    exact (hsteps.patched hholds.sound hevent).1
      (hholds.patched id owner etag hpast)
  · intro owner key input taskId conversationId hevent input' taskId'
      conversationId' hpast
    obtain ⟨row, hrow, _⟩ := hholds.recorded.created owner key input' taskId'
      conversationId' hpast
    rw [(hsteps.created hevent).1] at hrow
    exact nomatch hrow
  · exact hsteps.made hholds.sound
  · intro owner key view hevent
    exact hholds.answered hsteps hevent
  · rintro owner body key selection ids now key' input rfl hparse input'
      taskId conversationId hpast
    obtain ⟨row, hrow, hfingerprint, _⟩ := hholds.recorded.created owner key'
      input' taskId conversationId hpast
    have hrepeated : _ ∧ (_ → create config digest _ owner body key selection
      ids now = _) := create_repeated hparse hrow selection ids now
    refine ⟨hrepeated.1, fun hother => hrepeated.2 fun hsame => hother ?_⟩
    exact hdigest (hsame.symm.trans hfingerprint)
  · intro conversationId hretired
    exact ((hsteps.shut hholds.sound hshut hlast).2 conversationId hretired).2

/-- Whatever is called between two moments of a run, the tasks and the
idempotency rows of the first are those of the second: owners and inputs stay,
no etag falls behind, and deletions and responses are for ever. -/
theorem rows_go_on [DecidableEq Digest] (config : Config)
    (digest : CreateInput → Digest) (before after : List Action) :
    let first := (machine config digest).run initial before
    let last := (machine config digest).run initial (before ++ after)
    TasksLast first.tables last.tables ∧
      Lasts Row.id Row.GoesOn first.rows last.rows := by
  intro first last
  have hsteps := fun state => step_steps config digest state
  have hfirst : Rows first := (machine config digest).stateInvariant Rows
    (fun state action h _ => (hsteps state action).rows h) before
    (holds_initial digest).recorded.rows
    ((machine config digest).admissible_true _ _)
  have hlast := (machine config digest).run_related Rows
    (fun state next => TasksLast state.tables next.tables ∧
      Lasts Row.id Row.GoesOn state.rows next.rows)
    (fun _ => ⟨.refl _, Lasts.refl Row.GoesOn.refl _⟩)
    (fun _ _ _ h h' => ⟨h.1.trans h'.1,
      Lasts.trans (fun _ _ _ => .trans) h.2 h'.2⟩)
    (fun state action h => ⟨(hsteps state action).rows h,
      (hsteps state action).lasts h.tables, (hsteps state action).rows_last h⟩)
    after hfirst
  rwa [← Machine.run_append] at hlast

namespace ConsistentWitness

def config : Config := .plain

def owner : Owner := ⟨"t", "m"⟩

def hourly : RuleJson where
  keys := ["mode", "timezone", "interval_seconds", "starts_at"]
  mode := some "interval"
  timezone := some "UTC"
  time := none
  weekday := none
  dayOfMonth := none
  skipsInvalidDates := false
  runAt := none
  startsAt := some 0
  intervalSeconds := some 3600

def body (name : String) : CreateBody where
  keys := ["name", "prompt", "category", "employee_id", "schedule"]
  name := some name
  prompt := some "report"
  category := "report"
  employeeId := some "e"
  connectorIds := none
  schedule := some hourly

/-- A call with the key `k`, whose random ids are those of the draw. -/
def call (name : String) (ids : String × String) : Action :=
  .create owner (body name) (some "k") (.ok ()) ids 5

/-- The participants fail at first; the call is repeated, the task patched and
the call repeated once more. -/
def repeatedRun : List Action :=
  [call "daily" ("t1", "c1"), .initialized "t1" false,
    call "daily" ("t2", "c2"), .initialized "t1" true,
    .operation (.patch "t1" owner (1, 1) ⟨none, some "brief", none⟩ false),
    call "daily" ("t3", "c3")]

/-- A one-shot conversation fires and its task is deleted. -/
def deletedRun : List Action :=
  (StoppedWitness.firedRun StoppedWitness.once).map .operation ++
    [.operation (.act "c" .delete StoppedWitness.owner (0, 1) false)]

/-- Its prompt ends before execution. -/
def ended : Action :=
  .operation (.scheduler
    (.settle StoppedWitness.promptKey (.preExecution "expired") 1700))

end ConsistentWitness

open ConsistentWitness in
theorem task_store_consistent_repeatedRun :
    taskIds ((machine config id).run initial repeatedRun).tables = ["t1"] ∧
      (((machine config id).trace initial repeatedRun).filter fun event =>
        match event with
        | .answered _ _ _ => true
        | _ => false).length = 2 ∧
      Consistent config id ((machine config id).run initial repeatedRun)
        ((machine config id).trace initial repeatedRun)
        (call "weekly" ("t4", "c4")) := by
  refine ⟨by decide +kernel, by decide +kernel,
    task_store_consistent config id Function.injective_id repeatedRun _ ?_⟩
  exact ⟨fun h => h, fun h => h, fun h => h, fun h => h, fun h => h,
    fun h => h, fun h => h, trivial⟩

open ConsistentWitness in
theorem left_schedule_reopens :
    ¬ ∀ (config : Config) (digest : CreateInput → CreateInput),
      Function.Injective digest → ∀ (before : List Action) (action : Action),
        Consistent config digest ((machine config digest).run initial before)
          ((machine config digest).trace initial before) action := by
  intro h
  have hkept := (h config id Function.injective_id deletedRun ended).kept "c"
    (by decide)
  rcases hkept with hgone | hsame
  · revert hgone
    decide
  · revert hsame
    decide

end AiTeam.Automation.Creating
