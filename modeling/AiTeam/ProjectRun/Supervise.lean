/-
What the threads of one run keep: a run that has ended stays as it ended, one
that is stopping starts nothing more, and its callback is called once.
-/
import AiTeam.ProjectRun.Process

namespace AiTeam.ProjectRun

variable {world : World} {run run' : Run} {r : Nat}

/-- The step whose process has been spawned and is not yet settled. -/
def Supervisor.spawned : Supervisor → Option (Nat × Nat)
  | .waiting index pid => some (index, pid)
  | .ending index pid _ => some (index, pid)
  | .removing index pid _ => some (index, pid)
  | .joining index pid _ => some (index, pid)
  | _ => none

theorem reading_eq (supervisor : Supervisor) :
    supervisor.reading = supervisor.spawned.map Prod.fst := by
  cases supervisor <;> rfl

structure RunOk (run : Run) : Prop where
  pid : run.shared.pid = run.supervisor.spawned.map Prod.snd
  stopped : run.shared.stopping = true → run.shared.phase.active = false
  locking : ∀ index, run.supervisor = .locking index → index < run.steps ∧
    (run.shared.stopping = false → run.shared.phase = .preparing)
  spawned : ∀ index pid, run.supervisor.spawned = some (index, pid) →
    index < run.steps ∧ (run.shared.stopping = false →
      isStart run index = true ∧
          (run.shared.phase = .starting ∨ run.shared.phase = .running) ∨
        isStart run index = false ∧ run.shared.phase = .preparing)
  done : run.supervisor = .done → run.shared.phase.active = false

/-- What a run may become. -/
structure Evolves (run run' : Run) : Prop where
  ok : RunOk run'
  absorbing : run.shared.phase.active = false →
    run'.shared.phase = run.shared.phase
  stopping : run.shared.stopping = true → run'.shared.stopping = true
  ready : run'.shared.ready = true → run.shared.ready = true

theorem Evolves.refl (h : RunOk run) : Evolves run run :=
  ⟨h, fun _ => rfl, id, id⟩

/-- A new run. -/
theorem runOk_start {steps : Nat} (hsteps : steps ≠ 0) (port : Option Nat) :
    RunOk ⟨Shared.empty port, steps, .locking 0, .absent⟩ where
  pid := rfl
  stopped := nofun
  locking := by
    intro index hindex
    cases hindex
    exact ⟨Nat.pos_of_ne_zero hsteps, fun _ => rfl⟩
  spawned := nofun
  done := nofun

theorem stop_ended (shared : Shared) :
    shared.stop.phase.active = false := by
  change (if shared.phase.active then Phase.stopped else shared.phase).active =
    false
  split
  · rfl
  · next hended => exact Bool.eq_false_iff.mpr hended

theorem evolves_stop (h : RunOk run) :
    Evolves run { run with shared := run.shared.stop } where
  ok :=
    ⟨h.pid, fun _ => stop_ended run.shared,
      fun index hindex => ⟨(h.locking index hindex).1, nofun⟩,
      fun index pid hindex => ⟨(h.spawned index pid hindex).1, nofun⟩,
      fun _ => stop_ended run.shared⟩
  absorbing := by
    intro hended
    change (if run.shared.phase.active then _ else _) = _
    rw [hended]
    rfl
  stopping := fun _ => rfl
  ready := id

/-- Outside a start step an address changes nothing. -/
theorem RunOk.starting (h : RunOk run) (hphase : run.shared.phase = .starting)
    (hstopping : run.shared.stopping = false) :
    ∃ index pid, run.supervisor.spawned = some (index, pid) ∧
      isStart run index = true := by
  cases hspawned : run.supervisor.spawned with
  | some at' =>
      obtain ⟨index, pid⟩ := at'
      rcases (h.spawned index pid hspawned).2 hstopping with hstart | hother
      · exact ⟨index, pid, rfl, hstart.1⟩
      · rw [hphase] at hother
        exact nomatch hother.2
  | none =>
      cases hsupervisor : run.supervisor with
      | locking index =>
          have hpreparing := (h.locking index hsupervisor).2 hstopping
          rw [hphase] at hpreparing
          exact nomatch hpreparing
      | done =>
          have hended := h.done hsupervisor
          rw [hphase] at hended
          exact nomatch hended
      | _ =>
          rw [hsupervisor] at hspawned
          exact nomatch hspawned

/-- The first address of a start step that is not stopping. -/
theorem evolves_open (h : RunOk run) {index pid : Nat}
    (hspawned : run.supervisor.spawned = some (index, pid))
    (hstart : isStart run index = true)
    (hstopping : run.shared.stopping = false) (url : String)
    (prober : Prober) :
    Evolves run { run with shared := run.shared.open url, prober } := by
  refine ⟨⟨h.pid, ?_, ?_, ?_, ?_⟩, ?_, id, nofun⟩
  · intro hstop
    rw [Shared.open] at hstop
    rw [hstopping] at hstop
    exact nomatch hstop
  · intro index' hlocking
    change run.supervisor = _ at hlocking
    rw [hlocking] at hspawned
    exact nomatch hspawned
  · intro index' pid' hspawned'
    refine ⟨(h.spawned index' pid' hspawned').1, fun _ => Or.inl ?_⟩
    change run.supervisor.spawned = _ at hspawned'
    rw [hspawned, Option.some.injEq, Prod.mk.injEq] at hspawned'
    rw [← hspawned'.1]
    exact ⟨hstart, Or.inr rfl⟩
  · intro hdone
    change run.supervisor = _ at hdone
    rw [hdone] at hspawned
    exact nomatch hspawned
  · intro hended
    rcases (h.spawned index pid hspawned).2 hstopping with ⟨-, hs | hs⟩ |
      ⟨-, hs⟩
    all_goals
      rw [hs] at hended
      exact nomatch hended

theorem evolves_prober (h : RunOk run) (prober : Prober) :
    Evolves run { run with prober } :=
  ⟨⟨h.pid, h.stopped, h.locking, h.spawned, h.done⟩, fun _ => rfl, id, id⟩

theorem evolves_readOutput (h : RunOk run) (r : Nat) (url : Option String) :
    Evolves run (readOutput r run url).1 := by
  unfold readOutput
  split
  · next index url hreading =>
      split
      · exact Evolves.refl h
      · next hguard =>
          rw [reading_eq, Option.map_eq_some_iff] at hreading
          obtain ⟨⟨index', pid⟩, hspawned, rfl⟩ := hreading
          simp only [Bool.or_eq_true, Bool.not_eq_true', not_or,
            Bool.not_eq_true, Bool.not_eq_false] at hguard
          exact evolves_open h hspawned hguard.1.1 hguard.2 url run.prober
  · exact Evolves.refl h

theorem evolves_probePort (h : RunOk run) (r : Nat)
    (listening : Option String) :
    Evolves run (probePort r run listening).1 := by
  cases hprober : run.prober with
  | absent =>
      simp only [probePort, hprober]
      exact Evolves.refl h
  | checking pid =>
      simp only [probePort, hprober]
      repeat' split
      all_goals exact evolves_prober h _
  | connecting pid port =>
      simp only [probePort, hprober]
      split
      · exact evolves_prober h _
      · split
        · exact evolves_prober h _
        · next hguard =>
            simp only [ne_eq, decide_not, Bool.or_eq_true, Bool.not_eq_true',
              decide_eq_false_iff_not, not_or, not_not,
              Bool.not_eq_true] at hguard
            obtain ⟨index, pid, hspawned, hstart⟩ :=
              h.starting hguard.1.1 hguard.2
            exact evolves_open h hspawned hstart hguard.2 _ _

/-- The supervisor ends with the run. -/
theorem evolves_done (shared : Shared)
    (hpid : shared.pid = none) (hended : shared.phase.active = false)
    (habsorbing : run.shared.phase.active = false →
      shared.phase = run.shared.phase)
    (hstopping : run.shared.stopping = true → shared.stopping = true)
    (hready : shared.ready = run.shared.ready) :
    Evolves run { run with shared, supervisor := .done } :=
  ⟨⟨hpid, fun _ => hended, nofun, nofun, fun _ => hended⟩, habsorbing,
    hstopping, fun hleft => hready ▸ hleft⟩

/-- The supervisor goes on in the same step. -/
theorem evolves_goOn (h : RunOk run) {supervisor : Supervisor}
    (hsame : supervisor.spawned = run.supervisor.spawned)
    (hspawned : supervisor.spawned ≠ none) :
    Evolves run { run with supervisor } where
  ok :=
    ⟨by rw [h.pid, hsame], h.stopped, by
      rintro index rfl
      exact absurd rfl hspawned,
      fun index pid hat => h.spawned index pid (hsame ▸ hat), by
      rintro rfl
      exact absurd rfl hspawned⟩
  absorbing := fun _ => rfl
  stopping := id
  ready := id

/-- One step of the supervisor. -/
theorem evolves_supervise (h : RunOk run) (r : Nat) (spawned : Option Child)
    (status : Status) (world : World) :
    Evolves run (supervise r run spawned status world).1 := by
  cases hsupervisor : run.supervisor with
  | locking index =>
      have hpid : run.shared.pid = none := by
        rw [h.pid, hsupervisor]
        rfl
      obtain ⟨hlt, hphase⟩ := h.locking index hsupervisor
      simp only [supervise, hsupervisor]
      split
      · next hguard =>
          have hstopping : run.shared.stopping = true := by
            simpa [Nat.not_le.mpr hlt] using hguard
          exact evolves_done _ hpid (h.stopped hstopping) (fun _ => rfl) id
            rfl
      · next hguard =>
          have hstopping : run.shared.stopping = false := by
            simp only [Bool.or_eq_true, not_or, Bool.not_eq_true] at hguard
            exact hguard.1
          have hactive : run.shared.phase.active ≠ false := by
            rw [hphase hstopping]
            exact nofun
          split
          · exact evolves_done _ hpid rfl (fun hended => absurd hended hactive)
              id rfl
          · next child =>
              refine ⟨⟨rfl, ?_, nofun, ?_, nofun⟩,
                fun hended => absurd hended hactive, id, id⟩
              · intro hstop
                change run.shared.stopping = true at hstop
                rw [hstopping] at hstop
                exact nomatch hstop
              · intro index' pid' hat
                cases hat
                refine ⟨hlt, fun _ => ?_⟩
                cases hstart : isStart run index with
                | true => exact Or.inl ⟨hstart, Or.inl rfl⟩
                | false => exact Or.inr ⟨hstart, hphase hstopping⟩
  | waiting index pid =>
      simp only [supervise, hsupervisor]
      split
      · exact Evolves.refl h
      · exact evolves_goOn h (by rw [hsupervisor]; rfl) nofun
  | ending index pid status =>
      simp only [supervise, hsupervisor]
      exact evolves_goOn h (by rw [hsupervisor]; rfl) nofun
  | removing index pid status =>
      simp only [supervise, hsupervisor]
      exact evolves_goOn h (by rw [hsupervisor]; rfl) nofun
  | joining index pid status =>
      have hspawned : run.supervisor.spawned = some (index, pid) := by
        rw [hsupervisor]
        rfl
      obtain ⟨hlt, hphase⟩ := h.spawned index pid hspawned
      simp only [supervise, hsupervisor]
      split
      · next hstopping =>
          exact evolves_done _ rfl (h.stopped hstopping) (fun _ => rfl) id rfl
      · next hstopping =>
          have hstopping' := Bool.eq_false_iff.mpr hstopping
          have hactive : run.shared.phase.active ≠ false := by
            rcases hphase hstopping' with ⟨-, hs | hs⟩ | ⟨-, hs⟩ <;>
              rw [hs] <;> exact nofun
          split
          · exact evolves_done _ rfl rfl (fun hended => absurd hended hactive)
              id rfl
          · next hstart =>
              have hother : isStart run index = false ∧
                  run.shared.phase = .preparing := by
                rcases hphase hstopping' with hs | hs
                · exact absurd hs.1 hstart
                · exact hs
              split
              · refine ⟨⟨rfl, h.stopped, ?_, nofun, nofun⟩, fun _ => rfl, id,
                  id⟩
                intro index' hat
                cases hat
                have hne : index + 1 ≠ run.steps := by
                  simpa [isStart] using hstart
                refine ⟨?_, fun _ => hother.2⟩
                change index + 1 < run.steps
                omega
              · exact evolves_done _ rfl rfl
                  (fun hended => absurd hended hactive) id rfl
  | done =>
      simp only [supervise, hsupervisor]
      exact Evolves.refl h

/-! ### All runs -/

@[simp] theorem release_runs (r : Nat) (world : World) :
    (release r world).runs = world.runs := by
  unfold release
  split <;> rfl

@[simp] theorem release_groups (r : Nat) (world : World) :
    (release r world).groups = world.groups := by
  unfold release
  split <;> rfl

@[simp] theorem release_record (r : Nat) (world : World) :
    (release r world).record = world.record := by
  unfold release
  split <;> rfl

@[simp] theorem finish_runs (i : Nat) (stopper : Stopper) (world : World) :
    (finish i stopper world).runs = world.runs := by
  unfold finish
  simp only
  split
  · exact release_runs _ _
  · rfl

@[simp] theorem finish_groups (i : Nat) (stopper : Stopper) (world : World) :
    (finish i stopper world).groups = world.groups := by
  unfold finish
  simp only
  split
  · exact release_groups _ _
  · rfl

@[simp] theorem finish_record (i : Nat) (stopper : Stopper) (world : World) :
    (finish i stopper world).record = world.record := by
  unfold finish
  simp only
  split
  · exact release_record _ _
  · rfl

/-- Every run is still there, and is what it may have become. -/
def Onward (runs runs' : List Run) : Prop :=
  ∀ (r : Nat) (run : Run), runs[r]? = some run →
    ∃ run', runs'[r]? = some run' ∧ Evolves run run'

def RunsOk (world : World) : Prop :=
  ∀ run ∈ world.runs, RunOk run

theorem RunsOk.at (h : RunsOk world) (hat : world.runs[r]? = some run) :
    RunOk run :=
  h run (List.mem_of_getElem? hat)

theorem Onward.refl (h : RunsOk world) : Onward world.runs world.runs :=
  fun _ run hat => ⟨run, hat, Evolves.refl (h.at hat)⟩

theorem Onward.set (h : RunsOk world) (hat : world.runs[r]? = some run)
    (hrun : Evolves run run') : Onward world.runs (world.runs.set r run') := by
  intro i old hold
  by_cases hsame : r = i
  · rw [← hsame, hat, Option.some.injEq] at hold
    rw [← hsame, ← hold]
    exact ⟨run', List.getElem?_set_self (List.getElem?_eq_some_iff.mp hat).1,
      hrun⟩
  · refine ⟨old, ?_, Evolves.refl (h.at hold)⟩
    rw [List.getElem?_set_ne hsame]
    exact hold

theorem Onward.append (h : RunsOk world) (added : List Run) :
    Onward world.runs (world.runs ++ added) := fun _ run hat =>
  ⟨run, List.getElem?_append_left (List.getElem?_eq_some_iff.mp hat).1 ▸ hat,
    Evolves.refl (h.at hat)⟩

theorem RunsOk.set {world' : World} (h : RunsOk world)
    (hruns : world'.runs = world.runs.set r run') (hrun : RunOk run') :
    RunsOk world' := by
  intro other hother
  rw [hruns] at hother
  rcases List.mem_or_eq_of_mem_set hother with hold | rfl
  · exact h other hold
  · exact hrun

theorem startCode_runs (steps : Nat) (port : Option Nat) (world : World) :
    (startCode steps port world).runs = world.runs ∨
      steps ≠ 0 ∧ world.active = false ∧
      (startCode steps port world).runs = world.runs ++
        [⟨Shared.empty port, steps, .locking 0, .absent⟩] := by
  unfold startCode
  split
  · exact Or.inl rfl
  · next hguard =>
      right
      simp only [Bool.or_eq_true, beq_iff_eq, not_or, Bool.not_eq_true]
        at hguard
      refine ⟨hguard.2, hguard.1, ?_⟩
      simp only
      split
      · exact release_runs _ _
      · rfl

theorem stop_runs (world : World) : (stop world).runs = world.runs := by
  unfold stop
  split <;> rfl

theorem stopAll_runs (world : World) : (stopAll world).runs = world.runs := by
  unfold stopAll
  split
  · rfl
  · exact release_runs _ _

/-- What a step of `ProcessRun::stop` does to the runs. -/
theorem stopRun_runs (i : Nat) (stopper : Stopper) (world : World) :
    (stopRun i stopper world).runs = world.runs ∨
      ∃ run, world.runs[stopper.run]? = some run ∧
        (stopRun i stopper world).runs =
          world.runs.set stopper.run
            { run with shared := run.shared.stop } := by
  unfold stopRun
  split
  · split
    · exact Or.inl rfl
    · next run hat =>
        refine Or.inr ⟨run, hat, ?_⟩
        simp only
        split
        · exact finish_runs _ _ _
        · rfl
  · exact Or.inl rfl
  · exact Or.inl (finish_runs _ _ _)
  · exact Or.inl rfl

theorem supervise_runs (r : Nat) (run : Run) (spawned : Option Child)
    (status : Status) (world : World) :
    (supervise r run spawned status world).2.1.runs = world.runs := by
  cases hsupervisor : run.supervisor with
  | locking index =>
      simp only [supervise, hsupervisor]
      split
      · rfl
      · split <;> rfl
  | joining index pid status =>
      simp only [supervise, hsupervisor]
      repeat' split
      all_goals rfl
  | waiting index pid =>
      simp only [supervise, hsupervisor]
      split <;> rfl
  | _ =>
      simp only [supervise, hsupervisor]

/-- One step of the system, as the runs see it. -/
theorem step_onward (h : RunsOk world) (action : Action) :
    Onward world.runs (step world action).1.runs ∧
      RunsOk (step world action).1 := by
  cases action with
  | startCode steps port =>
      rcases startCode_runs steps port world with hruns | ⟨hsteps, -, hruns⟩
      · refine ⟨?_, fun run hmem => h run ?_⟩
        · change Onward _ (startCode steps port world).runs
          rw [hruns]
          exact Onward.refl h
        · change run ∈ (startCode steps port world).runs at hmem
          rwa [hruns] at hmem
      · constructor
        · change Onward _ (startCode steps port world).runs
          rw [hruns]
          exact Onward.append h _
        · intro run hmem
          change run ∈ (startCode steps port world).runs at hmem
          rw [hruns] at hmem
          rcases List.mem_append.mp hmem with hold | hnew
          · exact h run hold
          · rw [List.mem_singleton.mp hnew]
            exact runOk_start hsteps port
  | stop =>
      have hruns := stop_runs world
      refine ⟨?_, fun run hmem => h run (hruns ▸ hmem)⟩
      change Onward _ (stop world).runs
      rw [hruns]
      exact Onward.refl h
  | stopAll =>
      have hruns := stopAll_runs world
      refine ⟨?_, fun run hmem => h run (hruns ▸ hmem)⟩
      change Onward _ (stopAll world).runs
      rw [hruns]
      exact Onward.refl h
  | stopRun i =>
      simp only [step]
      split
      · exact ⟨Onward.refl h, h⟩
      · next stopper hstopper =>
          rcases stopRun_runs i stopper world with hruns | ⟨run, hat, hruns⟩
          · refine ⟨?_, fun run hmem => h run (hruns ▸ hmem)⟩
            rw [hruns]
            exact Onward.refl h
          · have hrun := evolves_stop (h.at hat)
            refine ⟨?_, h.set hruns hrun.ok⟩
            rw [hruns]
            exact Onward.set h hat hrun
  | supervise r spawned status =>
      simp only [step]
      split
      · exact ⟨Onward.refl h, h⟩
      · next run hat =>
          have hrun := evolves_supervise (h.at hat) r spawned status world
          have hruns := supervise_runs r run spawned status world
          refine ⟨?_, h.set (by rw [hruns]) hrun.ok⟩
          rw [hruns]
          exact Onward.set h hat hrun
  | readOutput r url =>
      simp only [step]
      split
      · exact ⟨Onward.refl h, h⟩
      · next run hat =>
          have hrun := evolves_readOutput (h.at hat) r url
          exact ⟨Onward.set h hat hrun, h.set rfl hrun.ok⟩
  | probePort r listening =>
      simp only [step]
      split
      · exact ⟨Onward.refl h, h⟩
      · next run hat =>
          have hrun := evolves_probePort (h.at hat) r listening
          exact ⟨Onward.set h hat hrun, h.set rfl hrun.ok⟩
  | leaderExits pid => exact ⟨Onward.refl h, h⟩
  | background pid alive => exact ⟨Onward.refl h, h⟩

end AiTeam.ProjectRun
