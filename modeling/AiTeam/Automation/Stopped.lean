/-
A paused or deleted task stays silent: along every run after the action no
tick launches an occurrence for a conversation of the task.
-/
import AiTeam.Automation.Operations

namespace AiTeam.Automation

open AiTeam.Receipt AiTeam.Schedule

/-! ### Schedules that stay off -/

/-- The parsed schedule of a conversation is absent with the stored one, and
is enabled unless the stored one is switched off. -/
theorem parsedSchedule_some {config : Config} {row : Conversation}
    {schedule : Option ConversationSchedule}
    (h : parsedSchedule config (some row) = some schedule) :
    schedule.isSome = row.scheduleJson.isSome ∧
      schedule.all (!·.enabled) = switchedOff row.scheduleJson := by
  unfold parsedSchedule at h
  rw [Option.bind_some] at h
  cases hjson : row.scheduleJson with
  | none =>
      rw [hjson] at h
      rw [← Option.some.inj h]
      exact ⟨rfl, rfl⟩
  | some json =>
      simp only [hjson] at h
      split at h
      · exact nomatch h
      · rename_i current hcurrent
        rw [← Option.some.inj h]
        refine ⟨rfl, ?_⟩
        rw [switchedOff, Option.all_some, Option.all_some,
          validateSchedule_enabled hcurrent]
        cases json.enabled with
        | none => rfl
        | some enabled => cases enabled <;> rfl

theorem switchedOff_scheduleJson (schedule : Option ConversationSchedule) :
    switchedOff (schedule.map scheduleJson) = schedule.all (!·.enabled) := by
  cases schedule with
  | none => rfl
  | some schedule =>
      rw [Option.map_some, switchedOff, Option.all_some, Option.all_some]
      cases henabled : schedule.enabled <;> simp [scheduleJson, henabled]

variable {id : String} {state next : State} {deleted : Bool}

/-- A patch does not switch a schedule on, unless it gives one to a task
without schedule. -/
theorem patchedSchedule_off {current schedule : Option ConversationSchedule}
    {patch : Patch} (h : patchedSchedule id current patch = some schedule)
    (hcurrent : current.all (!·.enabled) = true)
    (hrule : patch.rule.isSome = true → current.isSome = true) :
    schedule.all (!·.enabled) = true := by
  unfold patchedSchedule at h
  split at h
  · rename_i rule prompt hsome
    rw [← Option.some.inj h]
    have hpresent := hrule (by rw [hsome]; rfl)
    obtain ⟨old, rfl⟩ := Option.isSome_iff_exists.mp hpresent
    exact hcurrent
  · obtain ⟨old, rfl, hschedule⟩ := Option.map_eq_some_iff.mp h
    rw [← hschedule]
    exact hcurrent
  · rw [← Option.some.inj h]
    exact hcurrent

/-! ### Stopped tasks -/

/-- The task exists and none of its conversations can fire.  It is deleted, or
at least past its creation. -/
structure Stopped (state : State) (id : String) (deleted : Bool) : Prop where
  task : ∃ task, getTask state id = some task ∧
    (deleted = true → task.deleted = true)
  initialized : deleted = false → uninitialized state id = false
  quiet : ∀ {conversationId}, (conversationId, id) ∈ state.bindings →
    Quiet state.service conversationId

theorem Stopped.leaves (h : Stopped state id deleted)
    (hleaves : Leaves id state next) : Stopped next id deleted := by
  obtain ⟨task, htask, hdeleted⟩ := h.task
  obtain ⟨found, hfound, hkept⟩ := hleaves.task htask
  refine ⟨⟨found, hfound, fun hd => hkept (hdeleted hd)⟩,
    fun hd => hleaves.initialized (h.initialized hd), ?_⟩
  intro conversationId hbound
  have hold := hleaves.bindings hbound
  exact hleaves.quiet hold (h.quiet hold)

section Acts

variable {config : Config} {state next middle edited : State} {id : String}
  {action : TaskAction} {owner : Owner} {conversation : Option Conversation}
  {schedule : Option ConversationSchedule} {row : Task}

theorem Materialized.settled
    (h : Materialized state id owner conversation middle row)
    (hsettled : Settled state.service (targetConversation state id)) :
    Settled middle.service row.conversationId := by
  rw [h.target, State.service, h.scheduler]
  exact hsettled

/-- The conversation of the task is the resolved one. -/
theorem Materialized.row_eq
    (h : Materialized state id owner conversation middle row)
    {found : Conversation}
    (hfound : getConversation middle.store row.conversationId =
      some found) : conversation = some found := by
  have howned := h.linked.owned h.task hfound
  rw [h.owner_eq] at howned
  rw [State.store, h.scheduler] at hfound
  rw [h.resolved, getOwnedConversation, State.store, hfound]
  simp [howned.1, howned.2]

section

variable (h : Acts config state id action owner next conversation schedule
  middle row edited)
include h

/-- After a pause or a deletion the conversation of the task is quiet, when no
prompt in flight would reopen it. -/
theorem Acts.quiet_target (hstop : action ≠ .enable)
    (hsettled : Settled state.service (targetConversation state id)) :
    Quiet edited.service row.conversationId := by
  have hmaterialized := h.materialized
  have hdisabled : (action == .enable) = false := by simpa using hstop
  have hoff : ∀ {current : Option ConversationSchedule}, schedule = current →
      current.all (!·.enabled) = true →
      Quiet middle.service row.conversationId := by
    intro current hcurrent hall
    refine ⟨?_, hmaterialized.settled hsettled⟩
    intro found hfound
    have hparsed := h.parsed
    rw [hmaterialized.row_eq hfound, hcurrent] at hparsed
    rw [← (parsedSchedule_some hparsed).2]
    exact hall
  cases h.toggles with
  | gone hgone =>
      refine ⟨?_, hmaterialized.settled hsettled⟩
      intro found hfound
      rw [hmaterialized.row_eq hfound] at hgone
      exact nomatch hgone
  | unscheduled hnone => exact hoff hnone rfl
  | unchanged hsome henabled =>
      apply hoff hsome
      rw [Option.all_some, henabled, hdisabled]
      rfl
  | written hrow _ =>
      rw [hmaterialized.conversation_id hrow, hdisabled]
      exact editSchedule_quiet hmaterialized.linked.service _ rfl

theorem Acts.quiet (hstop : action ≠ .enable)
    (hsettled : Settled state.service (targetConversation state id))
    {conversationId : String} (hbound : (conversationId, id) ∈ edited.bindings) :
    Quiet edited.service conversationId := by
  by_cases hcurrent : row.conversationId = conversationId
  · rw [← hcurrent]
    exact h.quiet_target hstop hsettled
  · -- a conversation the task has left
    have hlinked := h.materialized.linked
    rcases h.edited_cases with rfl | ⟨json, rfl⟩
    · exact hlinked.retired hbound h.task hcurrent
    · exact (hlinked.retired hbound h.materialized.task hcurrent).spared
        (editSchedule_spares middle.service (some json) hcurrent)

theorem Acts.stopped (hstop : action ≠ .enable)
    (hsettled : Settled state.service (targetConversation state id))
    (hdeleted : deleted = true → action = .delete)
    (hinitialized : deleted = false → uninitialized state id = false) :
    Stopped next id deleted := by
  have hcreations : edited.creations = state.creations := by
    rcases h.edited_cases with rfl | ⟨json, rfl⟩ <;>
      exact h.materialized.creations
  have hinit : deleted = false → uninitialized edited id = false := by
    intro hd
    rw [uninitialized, hcreations]
    exact hinitialized hd
  rw [h.next_eq]
  split
  · refine ⟨?_, hinit, fun hbound => h.quiet hstop hsettled hbound⟩
    rw [getTask_updateTask, h.task]
    refine ⟨_, rfl, ?_⟩
    have hid : row.id = id := lookup_key h.task
    intro _
    simp [hid]
  · rename_i hkind
    refine ⟨⟨row, h.task, ?_⟩, hinit,
      fun hbound => h.quiet hstop hsettled hbound⟩
    intro hd
    rw [hdeleted hd] at hkind
    exact absurd rfl hkind

end

end Acts

/-! ### Runs -/

/-- The writes that let a paused task fire again: `enable`; and two that do not
name it so, storing a schedule that is not switched off in one of its
conversations (the conversation API), and a patch that gives a rule to a task
whose schedule was cleared (`schedule?.enabled ?? true`). -/
def Reenables (state : State) (id : String) : Action → Prop
  | .act other .enable _ _ _ => other = id
  | .scheduler (.request (.editSchedule conversationId schedule) _) =>
      (conversationId, id) ∈ state.bindings ∧ switchedOff schedule = false
  | .patch other _ _ patch _ =>
      other = id ∧ patch.rule.isSome = true ∧
        (getConversation state.store (targetConversation state id)).all
          (·.scheduleJson.isNone) = true
  | _ => False

/-- A patch of a paused task leaves its conversations quiet. -/
theorem Patched.stopped {middle : State} {owner : Owner}
    {conversation : Conversation} {row : Task} {schedule : Option ScheduleJson}
    (hmaterialized : Materialized state id owner (some conversation) middle
      row) (hpatched : Patched id owner middle row schedule next)
    (hsame : middle = state) (hoff : switchedOff schedule = true)
    (h : Stopped state id false) : Stopped next id false := by
  subst hsame
  have hlinked := hmaterialized.linked
  have htask := hmaterialized.task
  have hupdated : ∃ found, getTask (updateTask middle id row.conversationId
      false) id = some found ∧ (false = true → found.deleted = true) := by
    rw [getTask_updateTask, htask]
    exact ⟨_, rfl, fun hd => nomatch hd⟩
  cases hpatched with
  | renamed => exact ⟨hupdated, h.initialized, h.quiet⟩
  | rescheduled =>
      refine ⟨hupdated, h.initialized, ?_⟩
      intro bound hbound
      by_cases hcurrent : row.conversationId = bound
      · subst hcurrent
        exact editSchedule_quiet hlinked.service row.conversationId hoff
      · exact (h.quiet hbound).spared
          (editSchedule_spares middle.service schedule hcurrent)
  | switched hfound hunbound =>
      rename_i nextId found
      have hcleared := editSchedule_bounded hlinked.service
        row.conversationId none
      refine ⟨?_, h.initialized, ?_⟩
      · change ∃ found, getTask (switchTask (middle.edit row.conversationId
          none) id nextId) id = some found ∧ _
        rw [show getTask (switchTask (middle.edit row.conversationId none) id
          nextId) id = (getTask middle id).map _ from
            getTask_updateTask _ id nextId false id, htask]
        exact ⟨_, rfl, fun hd => nomatch hd⟩
      · intro bound hbound
        have hnext : Quiet (editSchedule middle.service row.conversationId
            none) bound ∨ bound = nextId := by
          rcases mem_bind hbound with hold | ⟨heq, _⟩
          · left
            by_cases hcurrent : row.conversationId = bound
            · subst hcurrent
              exact editSchedule_quiet hlinked.service row.conversationId rfl
            · exact (h.quiet hold).spared
                (editSchedule_spares middle.service none hcurrent)
          · exact Or.inr heq
        by_cases hid : nextId = bound
        · subst hid
          exact editSchedule_quiet hcleared nextId hoff
        · rcases hnext with hquiet | heq
          · exact hquiet.spared (editSchedule_spares _ schedule hid)
          · exact absurd heq.symm hid

theorem patchTask_stopped {config : Config} {owner : Owner}
    {expected : Nat × Nat} {patch : Patch} {busy : Bool}
    (hlinked : Linked state)
    (hpatch : patchTask config state id owner expected patch busy =
      some next)
    (hrule : deleted = false → ¬ (patch.rule.isSome = true ∧
      (getConversation state.store (targetConversation state id)).all
        (·.scheduleJson.isNone) = true)) (h : Stopped state id deleted) :
    Stopped next id deleted := by
  obtain ⟨conversation, current, schedule, middle, row, hmaterialized,
    hparsed, hschedule, hpatched⟩ := patchTask_some hlinked hpatch
  obtain ⟨task, htask, hdeleted⟩ := h.task
  have hsame := hmaterialized.known (by rw [htask]; rfl)
  have hrow := hmaterialized.task
  rw [hsame, htask] at hrow
  cases deleted with
  | true =>
      have hlive := hmaterialized.live
      rw [← Option.some.inj hrow, hdeleted rfl] at hlive
      exact nomatch hlive
  | false =>
      obtain ⟨hstored, hid, _⟩ :=
        getOwnedConversation_some hmaterialized.resolved.symm
      have hquiet := h.quiet (hlinked.bound htask)
      rw [Option.some.inj hrow] at hquiet
      have hclosed := hquiet.closed conversation hstored
      obtain ⟨hpresent, hall⟩ := parsedSchedule_some hparsed
      refine hpatched.stopped hmaterialized hsame ?_ h
      rw [switchedOff_scheduleJson]
      refine patchedSchedule_off hschedule (hall.trans hclosed) ?_
      intro hsome
      by_contra hnone
      refine hrule rfl ⟨hsome, ?_⟩
      rw [← hmaterialized.target, hstored, Option.all_some]
      rw [hpresent] at hnone
      simpa using hnone

/-- One step keeps the links, unless it reuses the id of a bound
conversation. -/
theorem next_linked (config : Config) {action : Action} (h : Linked state)
    (hreuses : ¬ Reuses state action) :
    Linked ((machine config).next state action) := by
  change Linked (step config state action).1
  have hgetD : ∀ {result : Option State}, (∀ next, result = some next →
      Linked next) → Linked (result.getD state) := by
    intro result hresult
    cases result with
    | none => exact h
    | some next => exact hresult next rfl
  cases action with
  | scheduler action =>
      simp only [step]
      split
      · exact scheduler_linked h ‹_› hreuses
      · exact h
  | beginCreate taskId conversationId owner =>
      exact hgetD fun next hnext => beginCreate_linked h hnext
  | finishCreate taskId owner schedule =>
      exact hgetD fun next hnext => finishCreate_linked h hnext
  | patch id owner expected patch busy =>
      apply hgetD
      intro next hnext
      obtain ⟨_, _, _, _, _, hmaterialized, _, _, hpatched⟩ :=
        patchTask_some h hnext
      exact hpatched.linked hmaterialized
  | act id action owner expected completed =>
      apply hgetD
      intro next hnext
      obtain ⟨_, _, _, _, _, hacts⟩ := act_some h hnext
      exact hacts.linked
  | deleteConversation id owner =>
      simp only [step, deleteConversation]
      split
      · exact h
      · exact dropConversation_linked h id

theorem scheduler_stopped {config : Config} {action : Schedule.Action}
    (hlinked : Linked state) (hadmits : admits state action = true)
    (hreuses : ¬ Reuses state (.scheduler action))
    (hreenables : deleted = false →
      ¬ Reenables state id (.scheduler action)) (h : Stopped state id deleted) :
    Stopped { state with
      scheduler := (Schedule.step config state.scheduler action).1 } id
      deleted := by
  refine ⟨h.task, h.initialized, ?_⟩
  intro conversationId hbound
  obtain ⟨task, htask, hdeleted⟩ := h.task
  refine (step_effect config state.scheduler action).quiet hlinked.service ?_
    (h.quiet hbound)
  cases deleted with
  | true =>
      exact not_opens_retired hlinked hadmits hreuses hbound htask
        (Or.inr (hdeleted rfl))
  | false =>
      intro hopens
      unfold Opens at hopens
      split at hopens
      · subst hopens
        exact not_create_of_bound hlinked hreuses hbound _ _ _ _ rfl
      · obtain ⟨rfl, _, hopen⟩ := hopens
        exact hreenables rfl ⟨hbound, hopen⟩
      · exact hopens

/-- A stopped task stays stopped; a paused one until it is switched on. -/
theorem next_stopped (config : Config) {action : Action}
    (hlinked : Linked state) (hreuses : ¬ Reuses state action)
    (hreenables : deleted = false → ¬ Reenables state id action)
    (h : Stopped state id deleted) :
    Stopped ((machine config).next state action) id deleted := by
  change Stopped (step config state action).1 id deleted
  obtain ⟨task, htask, hdeleted⟩ := h.task
  have hgetD : ∀ {result : Option State}, (∀ next, result = some next →
      Stopped next id deleted) → Stopped (result.getD state) id deleted := by
    intro result hresult
    cases result with
    | none => exact h
    | some next => exact hresult next rfl
  cases action with
  | scheduler action =>
      simp only [step]
      split
      · exact scheduler_stopped hlinked ‹_› hreuses hreenables h
      · exact h
  | beginCreate taskId conversationId owner =>
      exact hgetD fun next hnext => h.leaves (beginCreate_leaves hnext htask)
  | finishCreate taskId owner schedule =>
      apply hgetD
      intro next hnext
      by_cases hid : id = taskId
      · -- a stopped task is deleted or past its creation
        subst hid
        obtain ⟨_, found, _, _, _, hpending, hfound, hlive, _⟩ :=
          finishCreate_some hnext
        rw [htask] at hfound
        cases deleted with
        | true =>
            rw [← Option.some.inj hfound, hdeleted rfl] at hlive
            exact nomatch hlive
        | false =>
            rw [h.initialized rfl] at hpending
            exact nomatch hpending
      · exact h.leaves (finishCreate_leaves hlinked hnext hid)
  | patch other owner expected patch busy =>
      apply hgetD
      intro next hnext
      by_cases hid : id = other
      · subst hid
        exact patchTask_stopped hlinked hnext
          (fun hd hrule => hreenables hd ⟨rfl, hrule⟩) h
      · obtain ⟨_, _, _, _, _, hmaterialized, _, _, hpatched⟩ :=
          patchTask_some hlinked hnext
        exact h.leaves (hpatched.leaves hmaterialized hid)
  | act other action owner expected completed =>
      apply hgetD
      intro next hnext
      obtain ⟨conversation, schedule, middle, row, edited, hacts⟩ :=
        act_some hlinked hnext
      by_cases hid : id = other
      · subst hid
        have hsame := hacts.materialized.known (by rw [htask]; rfl)
        have hrow := hacts.materialized.task
        rw [hsame, htask] at hrow
        cases deleted with
        | true =>
            have hlive := hacts.materialized.live
            rw [← Option.some.inj hrow, hdeleted rfl] at hlive
            exact nomatch hlive
        | false =>
            have hstop : action ≠ .enable := by
              rintro rfl
              exact hreenables rfl rfl
            have hquiet := h.quiet (hlinked.bound htask)
            have htarget : targetConversation state id =
                task.conversationId := by
              rw [targetConversation, htask]
              rfl
            rw [← htarget] at hquiet
            exact hacts.stopped hstop hquiet.settled (fun hd => nomatch hd)
              h.initialized
      · exact h.leaves (hacts.leaves hid)
  | deleteConversation other owner =>
      simp only [step, deleteConversation]
      split
      · exact h
      · exact h.leaves (dropConversation_leaves hlinked other id)

theorem initial_linked : Linked initial :=
  ⟨initialService_bounded, Keyed.nil _, Keyed.nil _, fun h => (nomatch h),
    fun h => (nomatch h), fun h => (nomatch h), fun _ h => (nomatch h),
    fun h => nomatch h⟩

/-- A paused or deleted task never fires.  In a run in which no client creates
a conversation under an id bound to a task: once a pause or a deletion has
committed while no one-shot prompt in flight would reopen the schedule of the
task, no step launches an occurrence of a conversation of the task, for ever
after a deletion and up to the first write of `Reenables` after a pause. -/
theorem stopped_task_never_fires (config : Config)
    (before after : List Action) (id : String) (action : TaskAction)
    (owner : Owner) (expected : Nat × Nat) (completed : Bool)
    (stopped : State) (hstop : action ≠ .enable)
    (hbefore : (machine config).Admissible
      (fun state action => ¬ Reuses state action) initial before)
    (hact : act config ((machine config).run initial before) id action owner
      expected completed = some stopped)
    (hsettled : Settled ((machine config).run initial before).service
      (targetConversation ((machine config).run initial before) id))
    (hafter : (machine config).Admissible
      (fun state step => ¬ Reuses state step ∧
        (action = .pause → ¬ Reenables state id step)) stopped after)
    (step : Action) (conversationId memberId scheduleId : String)
    (occurrence : Int) (generation instance' : Nat)
    (hbound : (conversationId, id) ∈
      ((machine config).run stopped after).bindings) :
    Event.launched conversationId memberId scheduleId occurrence generation
        instance' ∉
      (machine config).emit ((machine config).run stopped after) step := by
  have hlinked : Linked ((machine config).run initial before) :=
    (machine config).stateInvariant Linked
      (fun _ _ h hreuses => next_linked config h hreuses) before
      initial_linked hbefore
  obtain ⟨conversation, schedule, middle, row, edited, hacts⟩ :=
    act_some hlinked hact
  have hdeleted : ∀ {deleted}, deleted = (action == .delete) →
      Stopped stopped id deleted := by
    rintro deleted rfl
    refine hacts.stopped hstop hsettled (fun hd => beq_iff_eq.mp hd) ?_
    intro hd
    apply hacts.initialized
    rintro rfl
    exact nomatch hd
  have hrun : Linked ((machine config).run stopped after) ∧
      Stopped ((machine config).run stopped after) id (action == .delete) :=
    (machine config).stateInvariant
      (fun state => Linked state ∧ Stopped state id (action == .delete))
      (fun state step h hallowed => by
        refine ⟨next_linked config h.1 hallowed.1,
          next_stopped config h.1 hallowed.1 ?_ h.2⟩
        intro hd
        apply hallowed.2
        cases action with
        | enable => exact absurd rfl hstop
        | pause => rfl
        | delete => exact nomatch hd) after
      ⟨hacts.linked, hdeleted rfl⟩ hafter
  intro hlaunched
  change _ ∈ (Automation.step config _ step).2 at hlaunched
  cases step with
  | scheduler step =>
      simp only [Automation.step] at hlaunched
      split at hlaunched
      · exact (hrun.2.quiet hbound).not_launched hrun.1.service step _ _ _ _ _
          hlaunched
      · exact nomatch hlaunched
  | beginCreate taskId conversationId owner => exact nomatch hlaunched
  | finishCreate taskId owner schedule => exact nomatch hlaunched
  | patch other owner expected patch busy => exact nomatch hlaunched
  | act other action owner expected completed => exact nomatch hlaunched
  | deleteConversation other owner => exact nomatch hlaunched

namespace StoppedWitness

def config : Config := .plain

def everySecond : ScheduleJson :=
  { ScheduleJson.empty with
    scheduleId := some "s", revision := some 1, enabled := some true,
    intervalSeconds := some 1, promptTemplate := some "report" }

def once : ScheduleJson :=
  { ScheduleJson.empty with
    scheduleId := some "s", revision := some 1, enabled := some true,
    atInstant := some 1000, oneShot := some true,
    promptTemplate := some "report" }

def owner : Owner := ⟨"t", "m"⟩

def granted : Answers := ⟨false, true, true, true⟩

/-- The conversation fires once; its prompt is in flight. -/
def firedRun (schedule : ScheduleJson) : List Action :=
  [.scheduler (.request (.create "c" (some "t") (some "m") (some schedule)) 0),
    .scheduler (.start 0), .scheduler (.tick 1500),
    .scheduler (.visit 0 granted 1500), .scheduler (.resume 0 true),
    .scheduler (.visit 0 granted 1500)]

def promptKey : ReceiptKey :=
  ⟨"c", callerId config "t" "m", occurrenceKey config "s" 1000 "c"⟩

/-- The prompt fails before execution and the next tick begins. -/
def failedRun : List Action :=
  [.scheduler (.settle promptKey (.preExecution "expired") 1700),
    .scheduler (.tick 2500)]

/-- The state an action leaves behind. -/
def stoppedBy (schedule : ScheduleJson) (action : TaskAction)
    (expected : Nat × Nat) : State :=
  (machine config).next ((machine config).run initial (firedRun schedule))
    (.act "c" action owner expected false)

end StoppedWitness

open StoppedWitness in
theorem stopped_task_never_fires_pausedRun :
    act config ((machine config).run initial (firedRun everySecond)) "c"
        .pause owner (0, 0) false = some (stoppedBy everySecond .pause (0, 0)) ∧
      Event.launched "c" "m" "s" 2000 1 5 ∉ (machine config).emit
        ((machine config).run (stoppedBy everySecond .pause (0, 0)) failedRun)
        (.scheduler (.visit 0 granted 2500)) := by
  have hact : act config ((machine config).run initial (firedRun everySecond))
      "c" .pause owner (0, 0) false =
        some (stoppedBy everySecond .pause (0, 0)) := by decide
  have hrepeats : ((machine config).run initial
      (firedRun everySecond)).service.prompts.all
        (!·.schedule.oneShot) = true := by decide
  refine ⟨hact, stopped_task_never_fires config (firedRun everySecond)
    failedRun "c" .pause owner (0, 0) false _ (by decide) ?_ hact ?_ ?_ _ "c"
    _ _ _ _ _ (by decide)⟩
  · exact ⟨fun h => (nomatch h), fun h => h, fun h => h, fun h => h,
      fun h => h, fun h => h, trivial⟩
  · intro prompt hprompt _ generation hreopens
    have honce := List.all_eq_true.mp hrepeats prompt hprompt
    rw [hreopens.oneShot] at honce
    exact nomatch honce
  · exact ⟨⟨fun h => h, fun _ h => h⟩, ⟨fun h => h, fun _ h => h⟩, trivial⟩

open StoppedWitness in
theorem deleted_task_fires_after_release :
    ¬ ∀ config before after id owner expected completed stopped step
        conversationId memberId scheduleId occurrence generation instance',
      act config ((machine config).run initial before) id .delete owner
        expected completed = some stopped →
      (conversationId, id) ∈
        ((machine config).run stopped after).bindings →
      Event.launched conversationId memberId scheduleId occurrence generation
          instance' ∉
        (machine config).emit ((machine config).run stopped after) step := by
  intro h
  have hact : act config ((machine config).run initial (firedRun once)) "c"
      .delete owner (0, 1) false = some (stoppedBy once .delete (0, 1)) := by
    decide
  refine h config (firedRun once) failedRun "c" owner (0, 1) false _
    (.scheduler (.visit 0 granted 2500)) "c" "m" "s" 1000 2 3 hact
    (by decide) ?_
  decide

end AiTeam.Automation
