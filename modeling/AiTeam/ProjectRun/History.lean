/-
The runs of a unit over whole histories: what every interleaving keeps, and
what it keeps besides when each start waits for the earlier runs to be over.
-/
import AiTeam.ProjectRun.Restart

namespace AiTeam.ProjectRun

variable {world : World} {run : Run} {r : Nat}

/-! ### The callback -/

def Event.isReady (r : Nat) : Event → Bool
  | .ready other _ => other = r
  | .spawned _ _ => false

/-- The calls of the ready callback of a run. -/
def calls (r : Nat) (events : List Event) : Nat :=
  events.countP (Event.isReady r)

theorem calls_append (r : Nat) (past new : List Event) :
    calls r (past ++ new) = calls r past + calls r new :=
  List.countP_append

/-- The calls that are left to a run, or to one that has not started. -/
def callsLeft (r : Nat) (world : World) : Nat :=
  if (world.runs[r]?).all fun run => run.shared.ready then 1 else 0

theorem callsLeft_of_at (hat : world.runs[r]? = some run) :
    callsLeft r world = if run.shared.ready then 1 else 0 := by
  rw [callsLeft, hat]
  rfl

theorem callsLeft_step (h : RunsOk world) (action : Action) (r : Nat) :
    callsLeft r (step world action).1 ≤ callsLeft r world := by
  cases hat : world.runs[r]? with
  | none =>
      have hone : callsLeft r world = 1 := by
        rw [callsLeft, hat]
        rfl
      rw [hone, callsLeft]
      split <;> omega
  | some run =>
      obtain ⟨run', hat', hevolves⟩ := (step_onward h action).1 r run hat
      rw [callsLeft_of_at hat, callsLeft_of_at hat']
      cases hready : run'.shared.ready with
      | false => exact Nat.zero_le _
      | true =>
          have hsame := hevolves.ready hready
          simp [hsame]

theorem readOutput_calls (r other : Nat) (run : Run) (url : Option String) :
    calls other (readOutput r run url).2 +
        (if r = other then
          if (readOutput r run url).1.shared.ready then 1 else 0 else 0) ≤
      if r = other then if run.shared.ready then 1 else 0 else 0 := by
  have hnone : calls other [] = 0 := rfl
  unfold readOutput
  split
  · split
    · simp [hnone]
    · cases hready : run.shared.ready <;> by_cases hsame : r = other <;>
        simp [called, Shared.open, hready, hsame, calls, Event.isReady]
  · simp [hnone]

theorem probePort_calls (r other : Nat) (run : Run)
    (listening : Option String) :
    calls other (probePort r run listening).2 +
        (if r = other then
          if (probePort r run listening).1.shared.ready then 1 else 0 else 0) ≤
      if r = other then if run.shared.ready then 1 else 0 else 0 := by
  have hnone : calls other [] = 0 := rfl
  cases hprober : run.prober with
  | absent => simp [probePort, hprober, hnone]
  | checking pid =>
      simp only [probePort, hprober]
      repeat' split
      all_goals simp_all
  | connecting pid port =>
      simp only [probePort, hprober]
      cases listening with
      | none => simp [hnone]
      | some url =>
          simp only
          split
          · simp [hnone]
          · cases hready : run.shared.ready <;> by_cases hsame : r = other <;>
              simp [called, Shared.open, hready, hsame, calls, Event.isReady]

theorem supervise_calls (r other : Nat) (run : Run) (spawned : Option Child)
    (status : Status) (world : World) :
    calls other (supervise r run spawned status world).2.2 = 0 := by
  cases hsupervisor : run.supervisor <;> simp only [supervise, hsupervisor]
  all_goals repeat' split
  all_goals rfl

/-- A call uses up the one that was left. -/
theorem step_calls (h : RunsOk world) (action : Action) (r : Nat) :
    calls r (step world action).2 + callsLeft r (step world action).1 ≤
      callsLeft r world := by
  have hleft := callsLeft_step h action r
  cases action with
  | readOutput r' url =>
      cases hat : world.runs[r']? with
      | none =>
          simp only [step, hat] at hleft ⊢
          simp [calls]
      | some run =>
          have hcalls := readOutput_calls r' r run url
          by_cases hsame : r' = r
          · subst hsame
            have hat' := List.getElem?_set_self
              (a := (readOutput r' run url).1)
              (List.getElem?_eq_some_iff.mp hat).1
            simp only [if_true] at hcalls
            simp only [step, hat]
            rw [callsLeft_of_at hat, callsLeft_of_at hat']
            exact hcalls
          · simp only [step, hat] at hleft ⊢
            simp only [hsame, if_false] at hcalls
            omega
  | probePort r' listening =>
      cases hat : world.runs[r']? with
      | none =>
          simp only [step, hat] at hleft ⊢
          simp [calls]
      | some run =>
          have hcalls := probePort_calls r' r run listening
          by_cases hsame : r' = r
          · subst hsame
            have hat' := List.getElem?_set_self
              (a := (probePort r' run listening).1)
              (List.getElem?_eq_some_iff.mp hat).1
            simp only [if_true] at hcalls
            simp only [step, hat]
            rw [callsLeft_of_at hat, callsLeft_of_at hat']
            exact hcalls
          · simp only [step, hat] at hleft ⊢
            simp only [hsame, if_false] at hcalls
            omega
  | supervise r' spawned status =>
      cases hat : world.runs[r']? with
      | none =>
          simp only [step, hat] at hleft ⊢
          simp [calls]
      | some run =>
          have hnone := supervise_calls r' r run spawned status world
          simp only [step, hat] at hleft ⊢
          omega
  | stopRun i =>
      cases hstopper : world.stoppers[i]? <;>
        simp only [step, hstopper] at hleft ⊢
      · simp [calls]
      · change 0 + _ ≤ _
        rw [Nat.zero_add]
        exact hleft
  | _ =>
      change 0 + _ ≤ _
      rw [Nat.zero_add]
      exact hleft

/-! ### Runs that are stopping -/

theorem supervise_spawned {pid : Nat} {spawned : Option Child} {status : Status}
    {other : Nat} (h : Event.spawned other pid ∈
      (supervise r run spawned status world).2.2) :
    other = r ∧ run.shared.stopping = false := by
  cases hsupervisor : run.supervisor with
  | locking index =>
      simp only [supervise, hsupervisor] at h
      split at h
      · cases h
      · next hguard =>
          simp only [Bool.or_eq_true, not_or, Bool.not_eq_true] at hguard
          split at h
          · cases h
          · rw [List.mem_singleton] at h
            cases h
            exact ⟨rfl, hguard.1⟩
  | joining index pid status =>
      simp only [supervise, hsupervisor] at h
      repeat' split at h
      all_goals cases h
  | waiting index pid =>
      simp only [supervise, hsupervisor] at h
      split at h <;> cases h
  | ending index pid status =>
      simp only [supervise, hsupervisor] at h
      cases h
  | removing index pid status =>
      simp only [supervise, hsupervisor] at h
      cases h
  | done =>
      simp only [supervise, hsupervisor] at h
      cases h

theorem called_spawned {shared : Shared} {url : String} {other pid : Nat} :
    Event.spawned other pid ∉ called shared r url := by
  intro h
  unfold called at h
  split at h
  · exact nomatch List.mem_singleton.mp h
  · exact nomatch h

/-- A run that is stopping starts no step. -/
theorem step_spawned (hat : world.runs[r]? = some run)
    (hstopping : run.shared.stopping = true) (action : Action) (pid : Nat) :
    Event.spawned r pid ∉ (step world action).2 := by
  intro h
  cases action with
  | supervise r' spawned status =>
      cases hat' : world.runs[r']? with
      | none =>
          simp only [step, hat'] at h
          cases h
      | some run' =>
          simp only [step, hat'] at h
          obtain ⟨rfl, hnot⟩ := supervise_spawned h
          rw [hat, Option.some.injEq] at hat'
          rw [← hat', hstopping] at hnot
          cases hnot
  | readOutput r' url =>
      cases hat' : world.runs[r']? with
      | none =>
          simp only [step, hat'] at h
          cases h
      | some run' =>
          simp only [step, hat'] at h
          unfold readOutput at h
          split at h
          · split at h
            · cases h
            · exact called_spawned h
          · cases h
  | probePort r' listening =>
      cases hat' : world.runs[r']? with
      | none =>
          simp only [step, hat'] at h
          cases h
      | some run' =>
          simp only [step, hat'] at h
          cases hprober : run'.prober <;>
            simp only [probePort, hprober] at h
          · cases h
          · repeat' split at h
            all_goals cases h
          · repeat' split at h
            · cases h
            · cases h
            · exact called_spawned h
  | stopRun i =>
      cases hstopper : world.stoppers[i]? <;>
        simp only [step, hstopper] at h <;> cases h
  | _ => cases h

/-! ### Whole histories -/

/-- The state a history of an app leaves. -/
abbrev reached (nextPid : Nat) (actions : List Action) : World :=
  machine.run (fresh nextPid) actions

theorem reached_ok (nextPid : Nat) (actions : List Action) :
    RunsOk (reached nextPid actions) := by
  have hinit : RunsOk (fresh nextPid) := fun _ hmem => nomatch hmem
  exact machine.stateInvariant RunsOk
    (fun _ action h _ => (step_onward h action).2) actions hinit
    (machine.admissible_true _ _)

/-- A run goes on through any history. -/
theorem run_onward (h : RunsOk world) (actions : List Action) :
    Onward world.runs (machine.run world actions).runs := by
  induction actions generalizing world with
  | nil => exact Onward.refl h
  | cons action rest ih =>
      intro r run hat
      obtain ⟨honward, hok⟩ := step_onward h action
      obtain ⟨run', hat', hfirst⟩ := honward r run hat
      obtain ⟨run'', hat'', hrest⟩ := ih hok r run' hat'
      refine ⟨run'', hat'', hrest.ok, ?_, ?_, ?_⟩
      · intro hended
        have hphase := hfirst.absorbing hended
        rw [hrest.absorbing (by rw [hphase, hended]), hphase]
      · exact fun hstopping => hrest.stopping (hfirst.stopping hstopping)
      · exact fun hready => hfirst.ready (hrest.ready hready)

/-- A stopping run starts no step in any history. -/
theorem run_spawned (h : RunsOk world) (hat : world.runs[r]? = some run)
    (hstopping : run.shared.stopping = true) (actions : List Action)
    (pid : Nat) : Event.spawned r pid ∉ machine.trace world actions := by
  induction actions generalizing world run with
  | nil => exact fun hmem => nomatch hmem
  | cons action rest ih =>
      intro hmem
      rcases List.mem_append.mp hmem with hfirst | hrest
      · exact step_spawned hat hstopping action pid hfirst
      · obtain ⟨honward, hok⟩ := step_onward h action
        obtain ⟨run', hat', hevolves⟩ := honward r run hat
        exact ih hok hat' (hevolves.stopping hstopping) hrest

theorem run_calls (h : RunsOk world) (actions : List Action) (r : Nat) :
    calls r (machine.trace world actions) +
      callsLeft r (machine.run world actions) ≤ callsLeft r world := by
  induction actions generalizing world with
  | nil =>
      rw [Machine.trace, Machine.run]
      exact Nat.le_of_eq (Nat.zero_add _)
  | cons action rest ih =>
      have hstep := step_calls h action r
      have hrest := ih (step_onward h action).2
      rw [Machine.trace, Machine.run, calls_append]
      change calls r (step world action).2 + _ + _ ≤ _
      change _ ≤ callsLeft r (step world action).1 at hrest
      have hsame : machine.next world action = (step world action).1 := rfl
      rw [hsame]
      omega

/-- What the supervision of a unit promises of a history. -/
structure Supervised (nextPid : Nat) (actions : List Action) : Prop where
  /-- At most one run has living step processes. -/
  alone : ∀ left ∈ (reached nextPid actions).groups,
    ∀ right ∈ (reached nextPid actions).groups, left.alive = true →
    right.alive = true → left.run = right.run
  /-- A stop of an active run makes it stopped for good. -/
  stopped : ∀ {past rest : List Action} {i : Nat} {stopper : Stopper}
    {run : Run},
    actions = past ++ .stopRun i :: rest →
    (reached nextPid past).stoppers[i]? = some stopper →
    stopper.stage = .locking →
    (reached nextPid past).runs[stopper.run]? = some run →
    run.shared.phase.active = true →
    ∃ run', (reached nextPid actions).runs[stopper.run]? = some run' ∧
      run'.shared.phase = .stopped
  /-- A stopping run is not active, and starts no further step. -/
  halted : ∀ {past rest : List Action} {r : Nat} {run : Run},
    actions = past ++ rest →
    (reached nextPid past).runs[r]? = some run →
    run.shared.stopping = true → run.shared.phase.active = false ∧
      ∀ pid, .spawned r pid ∉ machine.trace (reached nextPid past) rest
  /-- Exited, failed and stopped are for good. -/
  absorbing : ∀ {past rest : List Action} {r : Nat} {run : Run},
    actions = past ++ rest →
    (reached nextPid past).runs[r]? = some run →
    run.shared.phase.active = false →
    ∃ run', (reached nextPid actions).runs[r]? = some run' ∧
      run'.shared.phase = run.shared.phase
  /-- The callback of a run is called at most once. -/
  once : ∀ r, calls r (machine.trace (fresh nextPid) actions) ≤ 1
  /-- The record names the process of a step that is not being stopped. -/
  recorded : ∀ group ∈ (reached nextPid actions).groups,
    group.leader = true →
    ∀ run, (reached nextPid actions).runs[group.run]? = some run →
    run.shared.stopping = false →
    (reached nextPid actions).record = some ⟨group.pid, group.started⟩
  /-- Should the app be killed now, a later instance ends it. -/
  leftovers : ∀ group ∈ (reached nextPid actions).groups,
    group.leader = true →
    ∀ run, (reached nextPid actions).runs[group.run]? = some run →
    run.shared.stopping = false →
    ∀ left ∈ (endLeftovers (reached nextPid actions)).groups,
      left.pid = group.pid → left.alive = false

theorem stopRun_stopped {i : Nat} {stopper : Stopper}
    (hstage : stopper.stage = .locking)
    (hat : world.runs[stopper.run]? = some run)
    (hactive : run.shared.phase.active = true) :
    ∃ run', (stopRun i stopper world).runs[stopper.run]? = some run' ∧
      run'.shared.phase = .stopped := by
  refine ⟨{ run with shared := run.shared.stop }, ?_, ?_⟩
  · have hruns : (stopRun i stopper world).runs =
        world.runs.set stopper.run
          { run with shared := run.shared.stop } := by
      simp only [stopRun, hstage, hat]
      split
      · exact finish_runs _ _ _
      · rfl
    rw [hruns]
    exact List.getElem?_set_self (List.getElem?_eq_some_iff.mp hat).1
  · change (if run.shared.phase.active then _ else _) = _
    rw [hactive]
    rfl

/-- The process the record names is ended by the next instance. -/
theorem Single.leftovers (h : Single world) {group : Group}
    (hmem : group ∈ world.groups) (hleader : group.leader = true)
    (hat : world.runs[group.run]? = some run)
    (hstopping : run.shared.stopping = false) :
    ∀ left ∈ (endLeftovers world).groups, left.pid = group.pid →
      left.alive = false := by
  have hrecord := h.recorded group hmem hleader run hat hstopping
  have hstarted : startTime group.pid world.groups = some group.started := by
    unfold startTime
    cases hfound : world.groups.find? fun other =>
        other.pid = group.pid && other.leader with
    | none =>
        have hnone := List.find?_eq_none.mp hfound group hmem
        simp [hleader] at hnone
    | some other =>
        have hother := List.find?_some hfound
        simp only [Bool.and_eq_true, decide_eq_true_eq] at hother
        have hmem' := List.mem_of_find?_eq_some hfound
        have hsame : other.run = group.run := by
          have hnewest := h.alive hmem (Group.alive_of_leader hleader)
          have hnewest' := h.alive hmem' (Group.alive_of_leader hother.2)
          omega
        have hrecord' := h.recorded other hmem' hother.2 run (hsame ▸ hat)
          hstopping
        rw [hrecord, Option.some.injEq, Record.mk.injEq] at hrecord'
        rw [Option.map_some, hrecord'.2]
  intro left hleft hpid
  have hgroups : (endLeftovers world).groups =
      terminateGroup group.pid world.groups := by
    simp only [endLeftovers, hrecord, hstarted, if_true]
  rw [hgroups] at hleft
  by_contra hnot
  exact terminate_dead group.pid world.groups left hleft
    (Bool.not_eq_false _ ▸ hnot) hpid

/-- Supervision keeps its promises in every history in which a run starts only
when no earlier run is active, has a step that is not settled or is being
ended, and the record of every spawned process is written. -/
theorem careful_history_supervised (nextPid : Nat) (actions : List Action)
    (hrun : machine.Admissible Careful (fresh nextPid) actions) :
    Supervised nextPid actions := by
  have hinit : Single (fresh nextPid) :=
    ⟨fun _ hmem => (nomatch hmem), fun _ hmem => (nomatch hmem),
      fun _ _ hat => (nomatch hat), fun _ hmem => (nomatch hmem),
      fun _ hmem => (nomatch hmem)⟩
  have hsingle : Single (reached nextPid actions) :=
    machine.stateInvariant Single
      (fun _ _ h hcareful => single_step h hcareful) actions hinit hrun
  have hlater : ∀ {past rest : List Action}, actions = past ++ rest →
      Onward (reached nextPid past).runs (reached nextPid actions).runs := by
    rintro past rest rfl
    rw [reached, reached, Machine.run_append]
    exact run_onward (reached_ok nextPid past) rest
  refine ⟨?_, ?_, ?_, ?_, ?_, hsingle.recorded, ?_⟩
  · intro left hleft right hright hl hr
    have hnewest := hsingle.alive hleft hl
    have hnewest' := hsingle.alive hright hr
    omega
  · intro past rest i stopper run heq hstopper hstage hat hactive
    have hstep : reached nextPid (past ++ [.stopRun i]) =
        stopRun i stopper (reached nextPid past) := by
      rw [reached, Machine.run_append]
      change (step (reached nextPid past) (.stopRun i)).1 = _
      simp only [step, hstopper]
    obtain ⟨run', hat', hphase⟩ := stopRun_stopped (i := i) hstage hat hactive
    have hsplit : actions = (past ++ [.stopRun i]) ++ rest := by
      rw [heq, List.append_assoc, List.singleton_append]
    rw [← hstep] at hat'
    obtain ⟨run'', hat'', hevolves⟩ := hlater hsplit stopper.run run' hat'
    exact ⟨run'', hat'', by rw [hevolves.absorbing (by rw [hphase]; rfl),
      hphase]⟩
  · rintro past rest r run rfl hat hstopping
    have hok := reached_ok nextPid past
    exact ⟨(hok.at hat).stopped hstopping,
      run_spawned hok hat hstopping rest⟩
  · intro past rest r run heq hat hended
    obtain ⟨run', hat', hevolves⟩ := hlater heq r run hat
    exact ⟨run', hat', hevolves.absorbing hended⟩
  · intro r
    have hcalls := run_calls (reached_ok nextPid []) actions r
    have hleft : callsLeft r (fresh nextPid) = 1 := rfl
    change calls r (machine.trace (fresh nextPid) actions) + _ ≤
      callsLeft r (fresh nextPid) at hcalls
    omega
  · intro group hmem hleader run hat hstopping
    exact hsingle.leftovers hmem hleader hat hstopping

namespace HistoryWitness

def ended : Status := ⟨some 0, true⟩

/-- A process with its record. -/
def started (time : Nat) : Option Child := some ⟨time, .done⟩

/-- An install step and a start step, which prints its address; then a stop to
its end. -/
def first : List Action :=
  [.startCode 2 (some 3000), .supervise 0 (started 100) ended, .leaderExits 2,
    .supervise 0 none ended, .supervise 0 none ended, .supervise 0 none ended,
    .supervise 0 none ended, .supervise 0 (started 200) ended,
    .readOutput 0 (some "http://127.0.0.1:3000/"), .stop, .stopRun 0,
    .stopRun 0, .stopRun 0, .supervise 0 none ended, .supervise 0 none ended,
    .supervise 0 none ended, .supervise 0 none ended]

/-- The unit is started again after that. -/
def history : List Action :=
  first ++ [.startCode 1 none, .supervise 1 (started 300) ended]

/-- The unit is started again while a stop still ends its process group. -/
def hurried : List Action :=
  [.startCode 1 none, .supervise 0 (started 100) ended, .stop, .stopRun 0,
    .startCode 1 none, .supervise 1 (started 200) ended]

end HistoryWitness

open HistoryWitness in
theorem careful_history_supervised_twice :
    Supervised 2 history ∧
      (reached 2 history).record = some ⟨4, 300⟩ :=
  ⟨careful_history_supervised 2 history (by decide),
    by decide⟩

open HistoryWitness in
/-- Two runs have living processes; and when the stop is through, the record
of the second one is gone. -/
theorem hurried_restart_overlaps :
    (reached 2 hurried).groups =
        [⟨0, 2, 100, true, false⟩, ⟨1, 3, 200, true, false⟩] ∧
      (reached 2 (hurried ++ [.stopRun 0, .stopRun 0])).groups =
        [⟨0, 2, 100, false, false⟩, ⟨1, 3, 200, true, false⟩] ∧
      (reached 2 (hurried ++ [.stopRun 0, .stopRun 0])).record = none ∧
      (reached 2 (hurried ++ [.stopRun 0, .stopRun 0])).runs[1]?.map
        (fun run => (run.shared.phase, run.shared.stopping)) =
        some (.starting, false) := by
  decide

end AiTeam.ProjectRun
