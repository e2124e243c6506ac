/-
Steps of the automation service: tasks last through every one, and the schedule
of a conversation that a task has left behind stays as it is unless the store
writes it past the guard of the automation tables.
-/
import AiTeam.Automation.Retired

namespace AiTeam.Automation

open AiTeam.Receipt AiTeam.Schedule

/-- The action writes the schedule of a conversation that a task has left
behind: it creates one under its id, or settles a prompt that would switch the
schedule on again. -/
def Disturbs (state : State) : Action → Prop
  | .scheduler (.request (.create id _ _ schedule) _) =>
      retired state id = true ∧ getConversation state.store id = none ∧
        schedule.isSome = true
  | .scheduler (.settle key (.preExecution _) _) =>
      ∃ prompt generation, findPrompt state.service key = some prompt ∧
        retired state prompt.key.conversationId = true ∧
        Reopens state.store prompt generation
  | _ => False

variable {state : State} {other : String}

theorem scheduler_scheduleOf (config : Config) (hsound : Sound state)
    (hshut : Shut state) {action : Schedule.Action}
    (hadmits : admits state action = true)
    (hcalm : ¬ Disturbs state (.scheduler action))
    (hretired : retired state other = true) :
    scheduleOf { state with
      scheduler := (Schedule.step config state.scheduler action).1 } other =
      scheduleOf state other := by
  rcases step_spares_or config hsound.service action other with hspares |
    ⟨row, hrow, hopen⟩ |
    ⟨key, detail, clock, prompt, generation, rfl, hprompt, rfl, hreopens⟩ |
    ⟨tenantId, memberId, schedule, clock, rfl, habsent, hcreated⟩ |
    ⟨row, schedule, clock, hrow, rfl⟩
  · exact congrArg (Option.bind · Conversation.scheduleJson) hspares.row
  · rw [hshut other hretired row hrow] at hopen
    cases hopen
  · exact absurd ⟨prompt, generation, hprompt, hretired, hreopens⟩ hcalm
  · have hnone : schedule = none := by
      by_contra hsome
      exact hcalm ⟨hretired, habsent, Option.isSome_iff_ne_none.mpr hsome⟩
    have hafter : getConversation (Schedule.step config state.scheduler
        (.request (.create other tenantId memberId schedule)
          clock)).1.service.store other =
        some ⟨other, tenantId, memberId, schedule, 0⟩ := by
      have hfresh : getConversation (draw state.scheduler.service).store other =
        none := habsent
      rw [hcreated, createConversation, saveConversation, hfresh,
        getConversation, lookup_append, show lookup Conversation.id other
          (draw state.scheduler.service).store.conversations = none
          from hfresh, if_pos rfl]
      rfl
    rw [scheduleOf, scheduleOf, State.store, hafter, hnone,
      show getConversation state.store other = none from habsent]
    rfl
  · -- the guard refuses the edit
    have hguard : guardSchedule state other = true := by
      rcases admits_edit hadmits with hnone | hguard
      · rw [show getConversation state.store other = some row from hrow]
          at hnone
        cases hnone
      · exact hguard
    rw [retired_eq_false_of_guard hguard] at hretired
    cases hretired

/-! ### A deleted conversation -/

theorem dropConversation_lasts (state : State) (id : String) :
    TasksLast state (dropConversation state id) :=
  Lasts.updateWhere Task.GoesOn.refl _ _ (fun _ => rfl) fun _ =>
    ⟨rfl, Nat.le_succ _, fun _ => rfl⟩

theorem dropConversation_retired {id : String} (h : retired state other = true)
    : retired (dropConversation state id) other = true := by
  obtain ⟨owner, task, hbound, htask, hleft⟩ := retired_iff.mp h
  apply retired_iff.mpr
  refine ⟨owner, _, hbound,
    (getTask_dropConversation state id owner).trans (by rw [htask]; rfl), ?_⟩
  dsimp only
  split
  · exact Or.inl rfl
  · exact hleft

/-- Another conversation than the deleted one is as it was. -/
theorem dropConversation_get (h : Sound state) {id : String}
    (hother : other ≠ id) :
    getConversation (dropConversation state id).store other =
      getConversation state.store other :=
  (forgetConversation_spares h.service hother).row

theorem dropConversation_gone (h : Sound state) (id : String) :
    getConversation (dropConversation state id).store id = none :=
  forgetConversation_self h.service id

theorem Sound.drop (h : Sound state) (id : String) :
    Sound (dropConversation state id) := by
  refine ⟨forgetConversation_bounded h.service id, ?_, ?_, ?_⟩
  · intro bound owner hbound
    obtain ⟨task, htask⟩ := h.tasked bound owner hbound
    obtain ⟨found, hfound, _⟩ := dropConversation_lasts state id owner task htask
    exact ⟨found, hfound⟩
  · intro other found hfound hlive
    rw [getTask_dropConversation] at hfound
    obtain ⟨task, htask, rfl⟩ := Option.map_eq_some_iff.mp hfound
    split at hlive
    · exact nomatch hlive
    · rename_i hne
      rw [if_neg hne]
      have hother : task.conversationId ≠ id := by simpa using hne
      obtain ⟨row, hrow, howned⟩ := h.live other task htask hlive
      exact ⟨row, (dropConversation_get h hother).trans hrow, howned⟩
  · intro creation hcreation hopen
    obtain ⟨task, htask, hpoints⟩ := h.creating creation hcreation hopen
    refine ⟨_, (getTask_dropConversation state id _).trans
      (by rw [htask]; rfl), ?_⟩
    dsimp only
    split <;> exact hpoints

theorem Shut.drop (h : Shut state) (hsound : Sound state) (id : String) :
    Shut (dropConversation state id) := by
  intro other hretired row hrow
  by_cases hother : other = id
  · subst hother
    rw [dropConversation_gone hsound] at hrow
    exact nomatch hrow
  · rw [dropConversation_get hsound hother] at hrow
    apply h other ?_ row hrow
    obtain ⟨owner, found, hbound, hfound, hleft⟩ := retired_iff.mp hretired
    rw [getTask_dropConversation] at hfound
    obtain ⟨task, htask, rfl⟩ := Option.map_eq_some_iff.mp hfound
    apply retired_iff.mpr
    refine ⟨owner, task, hbound, htask, ?_⟩
    split at hleft
    · -- a task that is deleted with its conversation points at that one
      rename_i hcurrent
      right
      rw [beq_iff_eq.mp hcurrent]
      exact Ne.symm hother
    · exact hleft

/-! ### Whole steps -/

/-- The schedule of the conversation is as it was, or went with it. -/
def Kept (state next : State) (conversationId : String) : Prop :=
  getConversation next.store conversationId = none ∨
    scheduleOf next conversationId = scheduleOf state conversationId

theorem getD_moves {result : Option State}
    (h : ∀ next, result = some next → Moves state next) :
    Moves state (result.getD state) := by
  cases result with
  | none => exact .refl
  | some next => exact h next rfl

/-- A step of the service itself is a sequence of moves. -/
theorem step_moves (config : Config) (hsound : Sound state) (action : Action) :
    Moves state (step config state action).1 ∨
    (∃ request, action = .scheduler request ∧ admits state request = true ∧
      (step config state action).1 = { state with
        scheduler := (Schedule.step config state.scheduler request).1 }) ∨
    ∃ id, (step config state action).1 = dropConversation state id := by
  cases action with
  | scheduler request =>
      simp only [step]
      split
      · rename_i hadmits
        exact Or.inr (Or.inl ⟨request, rfl, hadmits, rfl⟩)
      · exact Or.inl .refl
  | beginCreate taskId conversationId owner =>
      exact Or.inl (getD_moves fun _ => beginCreate_moves)
  | finishCreate taskId owner schedule =>
      exact Or.inl (getD_moves fun _ => finishCreate_moves)
  | patch id owner expected patch busy =>
      exact Or.inl (getD_moves fun _ h => (patchTask_moves hsound h).1)
  | act id action owner expected completed =>
      exact Or.inl (getD_moves fun _ => act_moves hsound)
  | deleteConversation id owner =>
      simp only [step, deleteConversation]
      split
      · exact Or.inl .refl
      · exact Or.inr (Or.inr ⟨id, rfl⟩)

/-- One step keeps the tables sound and every task. -/
theorem next_sound (config : Config) (hsound : Sound state) (action : Action) :
    Sound ((machine config).next state action) ∧
      TasksLast state ((machine config).next state action) := by
  change Sound (step config state action).1 ∧
    TasksLast state (step config state action).1
  rcases step_moves config hsound action with hmoves | ⟨request, _, _, hnext⟩ |
    ⟨id, hnext⟩
  · exact ⟨hmoves.sound hsound, hmoves.lasts⟩
  · rw [hnext]
    have heffect := step_effect config state.scheduler request
    exact ⟨hsound.of_scheduler (heffect.bounded hsound.service) heffect.keeps,
      TasksLast.refl state⟩
  · rw [hnext]
    exact ⟨hsound.drop id, dropConversation_lasts state id⟩

/-- One step that disturbs nothing keeps what is left behind. -/
theorem next_shut (config : Config) (hsound : Sound state) (hshut : Shut state)
    {action : Action} (hcalm : ¬ Disturbs state action) :
    Shut ((machine config).next state action) ∧
      ∀ other, retired state other = true →
        retired ((machine config).next state action) other = true ∧
          Kept state ((machine config).next state action) other := by
  change Shut (step config state action).1 ∧ _
  change _ ∧ ∀ other, retired state other = true →
    retired (step config state action).1 other = true ∧
      Kept state (step config state action).1 other
  rcases step_moves config hsound action with hmoves |
    ⟨request, rfl, hadmits, hnext⟩ | ⟨id, hnext⟩
  · refine ⟨hmoves.shut hsound hshut, fun other hretired => ?_⟩
    have hkept := hmoves.kept hretired
    exact ⟨hkept.1, Or.inr hkept.2⟩
  · rw [hnext]
    have hkept : ∀ other, retired state other = true →
        scheduleOf { state with
          scheduler := (Schedule.step config state.scheduler request).1 }
            other = scheduleOf state other :=
      fun other hretired =>
        scheduler_scheduleOf config hsound hshut hadmits hcalm hretired
    exact ⟨hshut.of_scheduler hkept,
      fun other hretired => ⟨hretired, Or.inr (hkept other hretired)⟩⟩
  · rw [hnext]
    refine ⟨hshut.drop hsound id, fun other hretired =>
      ⟨dropConversation_retired hretired, ?_⟩⟩
    by_cases hother : other = id
    · subst hother
      exact Or.inl (dropConversation_gone hsound other)
    · right
      rw [scheduleOf, dropConversation_get hsound hother]
      rfl

theorem initial_sound : Sound initial :=
  ⟨initialService_bounded, fun _ _ h => (nomatch h), fun _ _ h => (nomatch h),
    fun _ h => nomatch h⟩

theorem initial_shut : Shut initial := by
  intro other hretired
  exact nomatch hretired

end AiTeam.Automation
