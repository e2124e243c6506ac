/-
The process groups of all runs: a living one is the one that its supervisor
waits for or is ending.
-/
import AiTeam.ProjectRun.Supervise

namespace AiTeam.ProjectRun

variable {world : World} {run run' : Run} {r : Nat}

/-- The process group that may be alive. -/
def Supervisor.running : Supervisor → Option Nat
  | .waiting _ pid => some pid
  | .ending _ pid _ => some pid
  | _ => none

theorem RunOk.pid_of_running (h : RunOk run) {pid : Nat}
    (hrunning : run.supervisor.running = some pid) :
    run.shared.pid = some pid := by
  rw [h.pid]
  cases hsupervisor : run.supervisor
  case waiting => rwa [hsupervisor] at hrunning
  case ending => rwa [hsupervisor] at hrunning
  all_goals
    rw [hsupervisor] at hrunning
    exact nomatch hrunning

/-- A living group is the one its supervisor waits for or is ending. -/
def Owned (world : World) : Prop :=
  ∀ group ∈ world.groups, group.alive = true →
    ∃ run, world.runs[group.run]? = some run ∧
      run.supervisor.running = some group.pid

/-- Nothing comes alive: every living group was alive before, under its run
and pid. -/
def Fewer (groups groups' : List Group) : Prop :=
  ∀ group ∈ groups', group.alive = true → ∃ old ∈ groups,
    old.alive = true ∧ old.run = group.run ∧ old.pid = group.pid ∧
      old.started = group.started ∧ (group.leader = true → old.leader = true)

theorem Fewer.refl (groups : List Group) : Fewer groups groups :=
  fun group hmem halive => ⟨group, hmem, halive, rfl, rfl, rfl, id⟩

theorem fewer_map {groups : List Group} {change : Group → Group}
    (h : ∀ group, (change group).alive = true → group.alive = true ∧
      group.run = (change group).run ∧ group.pid = (change group).pid ∧
      group.started = (change group).started ∧
      ((change group).leader = true → group.leader = true)) :
    Fewer groups (groups.map change) := by
  intro group hmem halive
  obtain ⟨old, hold, rfl⟩ := List.mem_map.mp hmem
  exact ⟨old, hold, h old halive⟩

theorem terminate_fewer (pid : Nat) (groups : List Group) :
    Fewer groups (terminateGroup pid groups) := by
  refine fewer_map fun group halive => ?_
  split
  · next hpid =>
      rw [if_pos hpid] at halive
      exact nomatch halive
  · next hpid =>
      rw [if_neg hpid] at halive
      exact ⟨halive, rfl, rfl, rfl, id⟩

/-- The group that was ended is dead. -/
theorem terminate_dead (pid : Nat) (groups : List Group) :
    ∀ group ∈ terminateGroup pid groups, group.alive = true →
      group.pid ≠ pid := by
  intro group hmem halive hpid
  obtain ⟨old, hold, rfl⟩ := List.mem_map.mp hmem
  by_cases hsame : old.pid = pid
  · simp [hsame, Group.alive] at halive
  · rw [if_neg hsame] at hpid
    exact hsame hpid

theorem leaderExits_fewer (pid : Nat) (groups : List Group) :
    Fewer groups (groups.map fun group =>
      if group.pid = pid then { group with leader := false } else group) := by
  refine fewer_map fun group halive => ?_
  split
  · next hpid =>
      rw [if_pos hpid] at halive
      have hbackground : group.background = true := halive
      exact ⟨by rw [Group.alive, hbackground, Bool.or_true], rfl, rfl, rfl,
        nofun⟩
  · next hpid =>
      rw [if_neg hpid] at halive
      exact ⟨halive, rfl, rfl, rfl, id⟩

theorem background_fewer (pid : Nat) (alive : Bool) (groups : List Group) :
    Fewer groups (groups.map fun group =>
      if group.pid = pid && group.alive then { group with background := alive }
      else group) := by
  refine fewer_map fun group halive => ?_
  split
  · next hguard =>
      simp only [Bool.and_eq_true] at hguard
      exact ⟨hguard.2, rfl, rfl, rfl, id⟩
  · next hguard =>
      rw [if_neg hguard] at halive
      exact ⟨halive, rfl, rfl, rfl, id⟩

/-- Fewer groups under the same supervisors. -/
theorem Owned.fewer {world' : World} (h : Owned world)
    (hgroups : Fewer world.groups world'.groups)
    (hruns : ∀ (i : Nat) (old : Run), world.runs[i]? = some old →
      ∃ new, world'.runs[i]? = some new ∧ new.supervisor = old.supervisor) :
    Owned world' := by
  intro group hmem halive
  obtain ⟨old, hold, halive', hrun, hpid, -, -⟩ := hgroups group hmem halive
  obtain ⟨before, hat, hrunning⟩ := h old hold halive'
  obtain ⟨after, hat', hsame⟩ := hruns old.run before hat
  exact ⟨after, hrun ▸ hat', by rw [hsame, hrunning, hpid]⟩

theorem same_set (hat : world.runs[r]? = some run)
    (hsame : run'.supervisor = run.supervisor) (i : Nat) (old : Run)
    (hold : world.runs[i]? = some old) :
    ∃ new, (world.runs.set r run')[i]? = some new ∧
      new.supervisor = old.supervisor := by
  by_cases heq : r = i
  · subst heq
    rw [hat, Option.some.injEq] at hold
    exact ⟨run', List.getElem?_set_self (List.getElem?_eq_some_iff.mp hat).1,
      by rw [hsame, hold]⟩
  · exact ⟨old, by rw [List.getElem?_set_ne heq]; exact hold, rfl⟩

theorem readOutput_supervisor (r : Nat) (run : Run) (url : Option String) :
    (readOutput r run url).1.supervisor = run.supervisor := by
  unfold readOutput
  repeat' split
  all_goals rfl

theorem probePort_supervisor (r : Nat) (run : Run)
    (listening : Option String) :
    (probePort r run listening).1.supervisor = run.supervisor := by
  cases hprober : run.prober with
  | absent => simp only [probePort, hprober]
  | checking pid =>
      simp only [probePort, hprober]
      repeat' split
      all_goals rfl
  | connecting pid port =>
      simp only [probePort, hprober]
      repeat' split
      all_goals rfl

theorem stopRun_groups (i : Nat) (stopper : Stopper) (world : World) :
    (stopRun i stopper world).groups = world.groups ∨
      ∃ pid, (stopRun i stopper world).groups =
        terminateGroup pid world.groups := by
  unfold stopRun
  split
  · split
    · exact Or.inl rfl
    · simp only
      split
      · exact Or.inl (finish_groups _ _ _)
      · exact Or.inl rfl
  · exact Or.inr ⟨_, rfl⟩
  · exact Or.inl (finish_groups _ _ _)
  · exact Or.inl rfl

theorem startCode_groups (steps : Nat) (port : Option Nat) (world : World) :
    (startCode steps port world).groups = world.groups := by
  unfold startCode
  split
  · rfl
  · simp only
    split
    · exact release_groups _ _
    · rfl

theorem stop_groups (world : World) : (stop world).groups = world.groups := by
  unfold stop
  split <;> rfl

theorem stopAll_groups (world : World) :
    (stopAll world).groups = world.groups := by
  unfold stopAll
  split
  · rfl
  · exact release_groups _ _

/-- A step of the supervisor of a run. -/
theorem owned_supervise (h : Owned world) (hat : world.runs[r]? = some run)
    (spawned : Option Child) (status : Status) :
    Owned { (supervise r run spawned status world).2.1 with
      runs := world.runs.set r (supervise r run spawned status world).1 } := by
  have hlt : r < world.runs.length := (List.getElem?_eq_some_iff.mp hat).1
  -- the living groups of the other runs
  have hother : ∀ {run' : Run} {group : Group}, group ∈ world.groups →
      group.alive = true → run.supervisor.running ≠ some group.pid →
      ∃ new, (world.runs.set r run')[group.run]? = some new ∧
        new.supervisor.running = some group.pid := by
    intro run' group hmem halive hne
    obtain ⟨old, hold, hrunning⟩ := h group hmem halive
    have hdiff : r ≠ group.run := by
      intro hsame
      rw [← hsame, hat, Option.some.injEq] at hold
      rw [← hold] at hrunning
      exact hne hrunning
    exact ⟨old, by rw [List.getElem?_set_ne hdiff]; exact hold, hrunning⟩
  have hidle : ∀ {run' : Run}, run.supervisor.running = none →
      Owned { world with runs := world.runs.set r run' } := by
    intro run' hnone group hmem halive
    refine hother hmem halive ?_
    rw [hnone]
    exact nofun
  cases hsupervisor : run.supervisor with
  | locking index =>
      have hnone : run.supervisor.running = none := by
        rw [hsupervisor]
        rfl
      simp only [supervise, hsupervisor]
      split
      · exact hidle hnone
      · split
        · exact hidle hnone
        · intro group hmem halive
          rcases List.mem_append.mp hmem with hold | hnew
          · refine hother hold halive ?_
            rw [hnone]
            exact nofun
          · rw [List.mem_singleton.mp hnew]
            exact ⟨_, List.getElem?_set_self hlt, rfl⟩
  | waiting index pid =>
      simp only [supervise, hsupervisor]
      split
      · exact h.fewer (Fewer.refl _) (same_set hat rfl)
      · intro group hmem halive
        by_cases hsame : run.supervisor.running = some group.pid
        · obtain ⟨old, hold, hrunning⟩ := h group hmem halive
          by_cases hdiff : r = group.run
          · refine ⟨{ run with supervisor := .ending index pid status }, ?_, ?_⟩
            · rw [← hdiff]
              exact List.getElem?_set_self hlt
            · rw [hsupervisor] at hsame
              exact hsame
          · exact ⟨old, by rw [List.getElem?_set_ne hdiff]; exact hold,
              hrunning⟩
        · exact hother hmem halive hsame
  | ending index pid status =>
      simp only [supervise, hsupervisor]
      intro group hmem halive
      have hpid := terminate_dead pid world.groups group hmem halive
      obtain ⟨old, hold, halive', hrun, hsame, -, -⟩ :=
        terminate_fewer pid world.groups group hmem halive
      have hne : run.supervisor.running ≠ some old.pid := by
        rw [hsupervisor, hsame]
        intro heq
        exact hpid (Option.some.inj heq).symm
      obtain ⟨new, hnew, hrunning⟩ := hother hold halive' hne
      exact ⟨new, hrun ▸ hnew, hsame ▸ hrunning⟩
  | removing index pid status =>
      simp only [supervise, hsupervisor]
      exact hidle (by rw [hsupervisor]; rfl)
  | joining index pid status =>
      have hnone : run.supervisor.running = none := by
        rw [hsupervisor]
        rfl
      simp only [supervise, hsupervisor]
      repeat' split
      all_goals exact hidle hnone
  | done =>
      simp only [supervise, hsupervisor]
      exact hidle (by rw [hsupervisor]; rfl)

theorem owned_step (h : Owned world) (action : Action) :
    Owned (step world action).1 := by
  cases action with
  | startCode steps port =>
      refine h.fewer ?_ ?_
      · change Fewer _ (startCode steps port world).groups
        rw [startCode_groups]
        exact Fewer.refl _
      · intro i old hold
        refine ⟨old, ?_, rfl⟩
        change (startCode steps port world).runs[i]? = some old
        rcases startCode_runs steps port world with hruns | ⟨-, -, hruns⟩
        · rw [hruns]
          exact hold
        · rw [hruns, List.getElem?_append_left
            (List.getElem?_eq_some_iff.mp hold).1]
          exact hold
  | stop =>
      refine h.fewer ?_ fun i old hold => ⟨old, ?_, rfl⟩
      · change Fewer _ (stop world).groups
        rw [stop_groups]
        exact Fewer.refl _
      · change (stop world).runs[i]? = some old
        rw [stop_runs]
        exact hold
  | stopAll =>
      refine h.fewer ?_ fun i old hold => ⟨old, ?_, rfl⟩
      · change Fewer _ (stopAll world).groups
        rw [stopAll_groups]
        exact Fewer.refl _
      · change (stopAll world).runs[i]? = some old
        rw [stopAll_runs]
        exact hold
  | stopRun i =>
      simp only [step]
      split
      · exact h
      · next stopper hstopper =>
          refine h.fewer ?_ ?_
          · rcases stopRun_groups i stopper world with hgroups | ⟨pid, hgroups⟩
            · rw [hgroups]
              exact Fewer.refl _
            · rw [hgroups]
              exact terminate_fewer pid _
          · rcases stopRun_runs i stopper world with hruns | ⟨run, hat, hruns⟩
            · intro i old hold
              exact ⟨old, by rw [hruns]; exact hold, rfl⟩
            · rw [hruns]
              exact same_set hat rfl
  | supervise r spawned status =>
      simp only [step]
      split
      · exact h
      · next run hat =>
          rw [supervise_runs]
          exact owned_supervise h hat spawned status
  | readOutput r url =>
      simp only [step]
      split
      · exact h
      · next run hat =>
          exact h.fewer (Fewer.refl _)
            (same_set hat (readOutput_supervisor r run url))
  | probePort r listening =>
      simp only [step]
      split
      · exact h
      · next run hat =>
          exact h.fewer (Fewer.refl _)
            (same_set hat (probePort_supervisor r run listening))
  | leaderExits pid =>
      exact h.fewer (leaderExits_fewer pid _) fun i old hold => ⟨old, hold, rfl⟩
  | background pid alive =>
      exact h.fewer (background_fewer pid alive _) fun i old hold =>
        ⟨old, hold, rfl⟩

end AiTeam.ProjectRun
