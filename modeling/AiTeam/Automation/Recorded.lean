/-
What the creation rows record of a run: each row belongs to one creation of one
task, and holds the response that every repetition of the call is given.
-/
import AiTeam.Automation.Creation

namespace AiTeam.Automation

open AiTeam.Receipt AiTeam.Schedule

/-! ### Creations are left alone by the other operations -/

variable {state next tables : State} {id taskId key : String} {owner : Owner}
  {config : Config} {view : TaskView} {call : Call}

theorem updateConversation_creations {schedule : Option ScheduleJson}
    (h : updateConversation state id schedule = some next) :
    next.creations = state.creations := by
  obtain ⟨rfl, _⟩ := updateConversation_some h
  rfl

theorem toggle_creations {conversation : Option Conversation}
    {schedule : Option ConversationSchedule} {enabled : Bool}
    (h : toggle state conversation schedule enabled = some next) :
    next.creations = state.creations := by
  unfold toggle at h
  split at h
  · split at h
    · exact updateConversation_creations h
    · rw [← Option.some.inj h]
  · rw [← Option.some.inj h]

theorem act_creations {action : TaskAction} {expected : Nat × Nat}
    {completed : Bool}
    (hact : act config state id action owner expected completed = some next) :
    next.creations = state.creations := by
  simp only [act, Option.bind_eq_bind, Option.bind_eq_some_iff,
    Option.pure_def, Prod.exists] at hact
  obtain ⟨_, _, _, _, task, conversation, hresolve, middle, row,
    hmaterialize, schedule, _, _, _, edited, hedited, hnext⟩ := hact
  have hmiddle := (materialize_opened hresolve hmaterialize).creations
  have hsame := (toggle_creations hedited).trans hmiddle
  rw [← Option.some.inj hnext]
  split
  · exact hsame
  · exact hsame

theorem patchTask_creations {expected : Nat × Nat} {patch : Patch}
    {busy : Bool}
    (hpatch : patchTask config state id owner expected patch busy =
      some next) : next.creations = state.creations := by
  simp only [patchTask, Option.bind_eq_bind, Option.bind_eq_some_iff,
    Option.pure_def, Prod.exists] at hpatch
  obtain ⟨_, _, _, _, task, conversation, hresolve, stored, rfl, current, _,
    schedule, _, middle, row, hmaterialize, hwritten⟩ := hpatch
  have hmiddle := (materialize_opened hresolve hmaterialize).creations
  split at hwritten
  · simp only [Option.bind_eq_some_iff] at hwritten
    obtain ⟨_, _, cleared, hcleared, bound, hbound, hnext⟩ := hwritten
    have hcleared' := updateConversation_creations hcleared
    obtain ⟨_, rfl⟩ := bind_some hbound
    exact (updateConversation_creations hnext).trans (hcleared'.trans hmiddle)
  · split at hwritten
    · exact (updateConversation_creations hwritten).trans hmiddle
    · rw [← Option.some.inj hwritten]
      exact hmiddle

theorem getD_creations {result : Option State}
    (h : ∀ next, result = some next → next.creations = state.creations) :
    (result.getD state).creations = state.creations := by
  cases result with
  | none => rfl
  | some next => exact h next rfl

/-- A schedule is written in place. -/
theorem updateSchedule_ids (store : Store) (id : String)
    (schedule : Option ScheduleJson) :
    (updateSchedule store id schedule).conversations.map Conversation.id =
      store.conversations.map Conversation.id := by
  cases hcurrent : getConversation store id with
  | none =>
      unfold updateSchedule
      rw [hcurrent]
  | some current =>
      have hid : current.id = id := lookup_key hcurrent
      have hsaved : getConversation store current.id = some current := by
        rw [hid]
        exact hcurrent
      simp only [updateSchedule, hcurrent, clearScheduleRetry,
        saveConversation, hsaved, updateWhere, List.map_map]
      apply List.map_congr_left
      intro row _
      simp only [Function.comp_apply]
      split <;> rfl

/-- What `finishCreate` writes besides the schedule. -/
theorem finishCreate_tables {schedule : ConversationSchedule}
    (h : finishCreate state taskId owner schedule = some next) :
    next.tasks = state.tasks ∧
    next.creations = updateWhere (·.taskId == taskId)
      (fun row => { row with completed := true }) state.creations ∧
    next.store.conversations.map Conversation.id =
      state.store.conversations.map Conversation.id := by
  simp only [finishCreate, Option.bind_eq_bind, Option.bind_eq_some_iff] at h
  obtain ⟨_, _, _, _, _, _, hnext⟩ := h
  obtain ⟨rfl, _⟩ := updateConversation_some hnext
  exact ⟨rfl, rfl, updateSchedule_ids _ _ _⟩

/-- The new rows of `beginCreate`. -/
theorem beginCreate_tables {conversationId : String}
    (h : beginCreate state taskId conversationId owner = some next) :
    next.tasks = state.tasks ++ [⟨taskId, owner, conversationId, 1, false⟩] ∧
    next.creations = state.creations ++ [⟨taskId, conversationId, false⟩] ∧
    lookup Creation.taskId taskId state.creations = none ∧
    next.store.conversations.map Conversation.id =
      state.store.conversations.map Conversation.id ++ [conversationId] := by
  obtain ⟨hfresh, inserted, hinsert, rfl⟩ := beginCreate_some h
  obtain ⟨_, _, rfl⟩ := insertTask_some hinsert
  simp only [beginCreate, Option.bind_eq_bind, Option.bind_eq_some_iff] at h
  obtain ⟨_, _, _, hunused, _⟩ := h
  refine ⟨rfl, rfl, ?_, ?_⟩
  · rw [lookup, List.find?_eq_none]
    intro creation hcreation htask
    have hany := guard_some hunused
    rw [Bool.not_eq_true', List.any_eq_false] at hany
    exact hany creation hcreation (by simpa using htask)
  · change (saveConversation state.store _ false).conversations.map _ = _
    rw [saveConversation, hfresh, List.map_append]
    rfl

namespace Creating

open AiTeam.Automation

theorem get_some (h : get config state id owner = some view) :
    view.taskId = id ∧ ∃ task conversation,
      resolve state id owner = some (task, conversation) ∧
      view.conversationId = conversation.map Conversation.id := by
  simp only [get, Option.bind_eq_bind, Option.bind_eq_some_iff,
    Option.pure_def, Option.some.injEq, Prod.exists] at h
  obtain ⟨task, conversation, hresolve, _, _, rfl⟩ := h
  exact ⟨rfl, task, conversation, hresolve, rfl⟩

/-- What `get` shows of a live task is the conversation it points at. -/
theorem get_live {task : Task} (hsound : Sound state)
    (htask : getTask state id = some task) (howner : task.owner = owner)
    (hview : get config state id owner = some view) :
    view.taskId = id ∧ view.conversationId = some task.conversationId := by
  obtain ⟨hid, found, conversation, hresolve, hshown⟩ := get_some hview
  refine ⟨hid, ?_⟩
  have howned : getOwnedTask state id owner = some task := by
    rw [getOwnedTask, htask]
    simp [howner]
  rw [resolve, howned] at hresolve
  simp only at hresolve
  split at hresolve
  · cases hresolve
  · rename_i hlive
    simp only [Option.some.injEq, Prod.mk.injEq] at hresolve
    obtain ⟨row, hrow, hrowOwned⟩ :=
      hsound.live id task htask (Bool.eq_false_iff.mpr hlive)
    have hfound : getOwnedConversation state.store task.conversationId owner =
        some row := by
      rw [howner] at hrowOwned
      rw [getOwnedConversation, hrow]
      simp [hrowOwned.1, hrowOwned.2]
    rw [hshown, ← hresolve.2, hfound, Option.map_some, lookup_key hrow]

/-- A completed call: what it wrote and what it answers. -/
theorem completeCall_ok (hsound : Sound tables)
    (h : completeCall config tables call = .ok (next, view)) :
    (∃ schedule, finishCreate tables call.taskId call.owner schedule =
      some next) ∧
    ∃ task, getTask tables call.taskId = some task ∧
      view.taskId = call.taskId ∧
      view.conversationId = some task.conversationId := by
  unfold completeCall at h
  split at h
  · rename_i hlive
    obtain ⟨task, howned, _⟩ := Option.any_eq_true _ _ |>.mp hlive
    obtain ⟨htask, howner⟩ := Option.filter_eq_some_iff.mp howned
    cases hschedule : taskSchedule config.temporal call.rule call.prompt
        call.taskId 1 true with
    | error problem =>
        rw [hschedule] at h
        cases h
    | ok schedule =>
        rw [hschedule] at h
        rw [show Except.ok schedule = pure schedule from rfl, pure_bind] at h
        split at h
        · cases h
        · rename_i written hfinish
          split at h
          · cases h
          · rename_i shown hshown
            obtain ⟨rfl, rfl⟩ := Prod.mk.inj (Except.ok.inj h)
            refine ⟨⟨schedule, hfinish⟩, task, htask, ?_⟩
            have hsound' := (finishCreate_moves hfinish).sound hsound
            have htask' : getTask written call.taskId = some task := by
              rw [getTask, (finishCreate_tables hfinish).1]
              exact htask
            exact get_live hsound' htask' (beq_iff_eq.mp howner) hshown
  · cases h

/-! ### The rows of the creations -/

section Rows

variable {Digest : Type}

/-- A row goes on with all it says, and a response is for ever. -/
structure Row.GoesOn (row next : Row Digest) : Prop where
  fingerprint : next.fingerprint = row.fingerprint
  taskId : next.taskId = row.taskId
  conversationId : next.conversationId = row.conversationId
  response : ∀ view, row.response = some view → next.response = some view

theorem Row.GoesOn.refl (row : Row Digest) : row.GoesOn row :=
  ⟨rfl, rfl, rfl, fun _ h => h⟩

theorem Row.GoesOn.trans {first middle last : Row Digest}
    (h : first.GoesOn middle) (h' : middle.GoesOn last) :
    first.GoesOn last :=
  ⟨h'.fingerprint.trans h.fingerprint, h'.taskId.trans h.taskId,
    h'.conversationId.trans h.conversationId,
    fun view hview => h'.response view (h.response view hview)⟩

/-- Each row has a creation of its own, which is completed with the response of
the row, and each call has a row that is still open. -/
structure Rows (state : Service Digest) : Prop where
  tables : Sound state.tables
  creations : Keyed Creation.taskId state.tables.creations
  joined : ∀ owner key row, findRow state owner key = some row →
    ∃ creation, lookup Creation.taskId row.taskId state.tables.creations =
        some creation ∧
      creation.conversationId = row.conversationId ∧
      creation.completed = row.response.isSome
  distinct : ∀ owner key row owner' key' row',
    findRow state owner key = some row →
    findRow state owner' key' = some row' → row.taskId = row'.taskId →
    (owner, key) = (owner', key')
  response : ∀ owner key row view, findRow state owner key = some row →
    row.response = some view →
    view.taskId = row.taskId ∧ view.conversationId = some row.conversationId
  calls : ∀ call ∈ state.creating, ∃ row,
    findRow state call.owner call.key = some row ∧
    row.taskId = call.taskId ∧ row.response = none

theorem uninitialized_eq {creation : Creation}
    (hkeyed : Keyed Creation.taskId state.creations)
    (hfound : lookup Creation.taskId taskId state.creations = some creation) :
    uninitialized state taskId = !creation.completed := by
  have hid : creation.taskId = taskId := lookup_key hfound
  cases hcompleted : creation.completed with
  | false =>
      rw [uninitialized, Bool.not_false, List.any_eq_true]
      exact ⟨creation, lookup_mem hfound, by simp [hid, hcompleted]⟩
  | true =>
      rw [uninitialized, Bool.not_true, List.any_eq_false]
      intro other hother hopen
      simp only [Bool.and_eq_true, beq_iff_eq, Bool.not_eq_true'] at hopen
      have hsame := hkeyed other hother
      rw [hopen.1, hfound, Option.some.injEq] at hsame
      rw [← hsame, hcompleted] at hopen
      cases hopen.2

/-- A row without a stored response is open. -/
theorem Rows.open_of_stored {state : Service Digest} (h : Rows state)
    {row : Row Digest} (hrow : findRow state owner key = some row)
    (hstored : storedResponse state row = none) : row.response = none := by
  obtain ⟨creation, hcreation, _, hcompleted⟩ := h.joined owner key row hrow
  rw [storedResponse, uninitialized_eq h.creations hcreation] at hstored
  cases hresponse : row.response with
  | none => rfl
  | some view => simp [hcompleted, hresponse] at hstored

/-- Steps that leave the rows and the creations alone. -/
theorem Rows.of_same {state : Service Digest} (h : Rows state)
    {creating : List Call} (htables : Sound tables)
    (hcreations : tables.creations = state.tables.creations)
    (hcreating : creating ⊆ state.creating) :
    Rows ⟨tables, state.rows, creating⟩ where
  tables := htables
  creations := by
    change Keyed Creation.taskId tables.creations
    rw [hcreations]
    exact h.creations
  joined := by
    change ∀ owner key row, findRow state owner key = some row →
      ∃ creation, lookup Creation.taskId row.taskId tables.creations =
        some creation ∧ _
    rw [hcreations]
    exact h.joined
  distinct := h.distinct
  response := h.response
  calls := fun call hcall => h.calls call (hcreating hcall)

theorem Rows.resumed {state : Service Digest} (h : Rows state)
    {row : Row Digest} (hrow : findRow state owner key = some row)
    (hopen : row.response = none) (prompt : String) (rule : Option RuleJson) :
    Rows { state with
      creating := state.creating ++ [⟨owner, key, row.taskId, prompt, rule⟩] }
    where
  tables := h.tables
  creations := h.creations
  joined := h.joined
  distinct := h.distinct
  response := h.response
  calls := by
    intro call hcall
    rcases List.mem_append.mp hcall with hold | hnew
    · exact h.calls call hold
    · rw [List.mem_singleton.mp hnew]
      exact ⟨row, hrow, rfl, hopen⟩

/-- The row that a first call adds. -/
theorem findRow_append {state next : Service Digest} {added : Row Digest}
    (hnext : next.rows = state.rows ++ [added]) (owner : Owner)
    (key : String) :
    findRow next owner key = (findRow state owner key).or
      (if added.id = (owner, key) then some added else none) := by
  rw [findRow, hnext, lookup_append]
  rfl

theorem Rows.started {state : Service Digest} (h : Rows state)
    {fingerprint : Digest} {conversationId : String}
    (hfresh : findRow state owner key = none)
    (hbegin : beginCreate state.tables taskId conversationId owner =
      some tables) (prompt : String) (rule : Option RuleJson) :
    Rows ⟨tables, state.rows ++
        [⟨owner, key, fingerprint, taskId, conversationId, none⟩],
      state.creating ++ [⟨owner, key, taskId, prompt, rule⟩]⟩ := by
  obtain ⟨_, hcreations, hunused, _⟩ := beginCreate_tables hbegin
  -- a row is an old one or the new one
  have hrows : ∀ owner' key' row, findRow ⟨tables, state.rows ++
      [⟨owner, key, fingerprint, taskId, conversationId, none⟩],
      state.creating ++ [⟨owner, key, taskId, prompt, rule⟩]⟩ owner' key' =
        some row →
      findRow state owner' key' = some row ∨
        ((owner, key) = (owner', key') ∧
          row = ⟨owner, key, fingerprint, taskId, conversationId, none⟩) := by
    intro owner' key' row hrow
    rw [findRow_append rfl] at hrow
    cases hold : findRow state owner' key' with
    | some found =>
        rw [hold, Option.some_or] at hrow
        exact Or.inl hrow
    | none =>
        rw [hold, Option.none_or] at hrow
        split at hrow
        · rename_i hkey
          exact Or.inr ⟨hkey, (Option.some.inj hrow).symm⟩
        · exact nomatch hrow
  have hother : ∀ {owner' key' row}, findRow state owner' key' = some row →
      row.taskId ≠ taskId := by
    rintro owner' key' row hrow rfl
    obtain ⟨creation, hcreation, _⟩ := h.joined owner' key' row hrow
    rw [hunused] at hcreation
    exact nomatch hcreation
  constructor
  · exact (beginCreate_moves hbegin).sound h.tables
  · change Keyed Creation.taskId tables.creations
    rw [hcreations]
    exact h.creations.append hunused
  · intro owner' key' row hrow
    change ∃ creation, lookup Creation.taskId row.taskId tables.creations =
      some creation ∧ _
    rw [hcreations, lookup_append]
    rcases hrows owner' key' row hrow with hold | ⟨_, rfl⟩
    · obtain ⟨creation, hcreation, hjoined⟩ := h.joined owner' key' row hold
      rw [hcreation, Option.some_or]
      exact ⟨creation, rfl, hjoined⟩
    · rw [hunused, Option.none_or, if_pos rfl]
      exact ⟨_, rfl, rfl, rfl⟩
  · intro o k row o' k' row' hrow hrow' hsame
    rcases hrows o k row hrow with hold | ⟨hkey, rfl⟩
    · rcases hrows o' k' row' hrow' with hold' | ⟨_, rfl⟩
      · exact h.distinct o k row o' k' row' hold hold' hsame
      · exact absurd hsame (hother hold)
    · rcases hrows o' k' row' hrow' with hold' | ⟨hkey', _⟩
      · exact absurd hsame.symm (hother hold')
      · exact hkey.symm.trans hkey'
  · intro owner' key' row view hrow hview
    rcases hrows owner' key' row hrow with hold | ⟨_, rfl⟩
    · exact h.response owner' key' row view hold hview
    · exact nomatch hview
  · intro call hcall
    rw [findRow_append rfl]
    rcases List.mem_append.mp hcall with hold | hnew
    · obtain ⟨row, hrow, hcall⟩ := h.calls call hold
      exact ⟨row, by rw [hrow, Option.some_or], hcall⟩
    · rw [List.mem_singleton.mp hnew]
      change ∃ row, (findRow state owner key).or _ = some row ∧ _
      rw [hfresh, Option.none_or]
      exact ⟨_, if_pos rfl, rfl, rfl⟩

/-- The rows after the response of one of them is stored. -/
theorem findRow_answer {state next : Service Digest}
    (hnext : next.rows = updateWhere (·.id == (call.owner, call.key))
      (fun row => { row with response := some view }) state.rows)
    (owner : Owner) (key : String) :
    findRow next owner key = (findRow state owner key).map fun row =>
      if (owner, key) = (call.owner, call.key) then
        { row with response := some view } else row := by
  rw [findRow, hnext, lookup_updateWhere Row.id (owner, key) _
    (fun row => { row with response := some view }) fun _ => rfl]
  change (findRow state owner key).map _ = _
  cases hrow : findRow state owner key with
  | none => rfl
  | some row =>
      have hid : row.id = (owner, key) := lookup_key hrow
      simp [hid]

theorem Rows.completed {state : Service Digest} (h : Rows state)
    (hcall : call ∈ state.creating)
    (hcomplete : completeCall config state.tables call = .ok (tables, view)) :
    Rows ⟨tables, updateWhere (·.id == (call.owner, call.key))
        (fun row => { row with response := some view }) state.rows,
      state.creating.filter (·.taskId != call.taskId)⟩ := by
  obtain ⟨⟨schedule, hfinish⟩, task, htask, hshown⟩ :=
    completeCall_ok h.tables hcomplete
  obtain ⟨_, hcreations, _⟩ := finishCreate_tables hfinish
  obtain ⟨own, hown, hownTask, hopen⟩ := h.calls call hcall
  have hrows : ∀ {owner key row}, findRow ⟨tables, updateWhere
      (·.id == (call.owner, call.key))
        (fun row => { row with response := some view }) state.rows,
      state.creating.filter (·.taskId != call.taskId)⟩ owner key = some row →
      ((owner, key) = (call.owner, call.key) ∧
        row = { own with response := some view }) ∨
      (findRow state owner key = some row ∧ row.taskId ≠ call.taskId) := by
    intro owner key row hrow
    rw [findRow_answer rfl, Option.map_eq_some_iff] at hrow
    obtain ⟨old, hold, rfl⟩ := hrow
    by_cases hkey : (owner, key) = (call.owner, call.key)
    · left
      obtain ⟨rfl, rfl⟩ := Prod.mk.inj hkey
      have hsame : old = own := Option.some.inj (hold.symm.trans hown)
      exact ⟨rfl, by rw [if_pos rfl, hsame]⟩
    · right
      rw [if_neg hkey]
      refine ⟨hold, fun hsame => hkey ?_⟩
      exact h.distinct owner key old call.owner call.key own hold hown
        (hsame.trans hownTask.symm)
  constructor
  · exact (finishCreate_moves hfinish).sound h.tables
  · change Keyed Creation.taskId tables.creations
    rw [hcreations]
    exact h.creations.updateWhere _ _ fun _ => rfl
  · intro owner key row hrow
    change ∃ creation, lookup Creation.taskId row.taskId tables.creations =
      some creation ∧ _
    rw [hcreations, lookup_updateWhere Creation.taskId row.taskId _
      (fun creation => { creation with completed := true }) fun _ => rfl]
    rcases hrows hrow with ⟨_, rfl⟩ | ⟨hold, hother⟩
    · obtain ⟨creation, hcreation, hjoined, _⟩ :=
        h.joined call.owner call.key own hown
      have hid : creation.taskId = own.taskId := lookup_key hcreation
      rw [hcreation, Option.map_some]
      refine ⟨_, rfl, ?_⟩
      rw [if_pos (by simp [hid, hownTask])]
      exact ⟨hjoined, rfl⟩
    · obtain ⟨creation, hcreation, hjoined⟩ := h.joined owner key row hold
      have hid : creation.taskId = row.taskId := lookup_key hcreation
      rw [hcreation, Option.map_some]
      refine ⟨_, rfl, ?_⟩
      rw [if_neg (by simpa [hid] using hother)]
      exact hjoined
  · intro o k row o' k' row' hrow hrow' hsame
    rcases hrows hrow with ⟨hkey, rfl⟩ | ⟨hold, hother⟩
    · rcases hrows hrow' with ⟨hkey', _⟩ | ⟨_, hother'⟩
      · exact hkey.trans hkey'.symm
      · exact absurd (hsame.symm.trans hownTask) hother'
    · rcases hrows hrow' with ⟨_, rfl⟩ | ⟨hold', _⟩
      · exact absurd (hsame.trans hownTask) hother
      · exact h.distinct o k row o' k' row' hold hold' hsame
  · intro owner key row shown hrow hresponse
    rcases hrows hrow with ⟨_, rfl⟩ | ⟨hold, _⟩
    · rw [← Option.some.inj hresponse]
      obtain ⟨creation, hcreation, hjoined, hcompleted⟩ :=
        h.joined call.owner call.key own hown
      have hid : creation.taskId = own.taskId := lookup_key hcreation
      rw [hopen] at hcompleted
      obtain ⟨found, hfound, hpoints⟩ :=
        h.tables.creating creation (lookup_mem hcreation) hcompleted
      rw [hid, hownTask, htask, Option.some.injEq] at hfound
      subst hfound
      exact ⟨hshown.1.trans hownTask.symm,
        hshown.2.trans (congrArg some (hpoints.trans hjoined))⟩
    · exact h.response owner key row shown hold hresponse
  · intro other hmem
    obtain ⟨hmem, hne⟩ := List.mem_filter.mp hmem
    obtain ⟨row, hrow, htaskId, hnone⟩ := h.calls other hmem
    refine ⟨row, ?_, htaskId, hnone⟩
    rw [findRow_answer rfl, hrow, Option.map_some, if_neg]
    intro hkey
    obtain ⟨howner, hkey⟩ := Prod.mk.inj hkey
    rw [howner, hkey, hown, Option.some.injEq] at hrow
    rw [← hrow, hownTask] at htaskId
    simp [htaskId] at hne

end Rows

end Creating

end AiTeam.Automation
