/-
Successive runs of one unit: what they keep in every interleaving, and what
they keep besides when a run starts only after the earlier ones are over.
-/
import AiTeam.ProjectRun.Groups

namespace AiTeam.ProjectRun

variable {world world' : World} {run run' : Run} {r : Nat}

/-- The call of `stop` is ending a group or about to remove the record. -/
def Stage.busy : Stage → Bool
  | .ending _ => true
  | .removing => true
  | _ => false

/-- Every run is over: its steps are settled and no call still ends one. -/
def Settled (world : World) : Prop :=
  (∀ run ∈ world.runs, run.shared.phase.active = false ∧
    run.shared.pid = none) ∧
  ∀ stopper ∈ world.stoppers, stopper.stage.busy = false

instance (world : World) : Decidable (Settled world) :=
  inferInstanceAs (Decidable (_ ∧ _))

/-- A run starts when the earlier runs are over, and the record of a process
is written when it is spawned. -/
def Careful (world : World) : Action → Prop
  | .startCode steps _ => world.active = false → steps ≠ 0 → Settled world
  | .supervise _ spawned _ => ∀ child ∈ spawned, child.written = .done
  | _ => True

instance (world : World) (action : Action) :
    Decidable (Careful world action) := by
  cases action <;> unfold Careful <;> infer_instance

/-! ### The stoppers -/

variable {stopper : Stopper} {i : Nat}

theorem mem_release (h : stopper ∈ (release r world).stoppers) :
    stopper ∈ world.stoppers ∨ stopper.stage.busy = false := by
  unfold release at h
  split at h
  · exact Or.inl h
  · rcases List.mem_append.mp h with hold | hnew
    · exact Or.inl hold
    · rw [List.mem_singleton.mp hnew]
      exact Or.inr rfl

theorem mem_finish {other : Stopper}
    (h : other ∈ (finish i stopper world).stoppers) :
    other ∈ world.stoppers ∨ other.stage.busy = false := by
  have hset : other ∈ world.stoppers.set i ⟨stopper.run, false, .finished⟩ →
      other ∈ world.stoppers ∨ other.stage.busy = false := by
    intro hmem
    rcases List.mem_or_eq_of_mem_set hmem with hold | rfl
    · exact Or.inl hold
    · exact Or.inr rfl
  unfold finish at h
  simp only at h
  split at h
  · rcases mem_release h with hold | hidle
    · exact hset hold
    · exact Or.inr hidle
  · exact hset h

/-- The calls of `stop` that are busy after a step. -/
theorem mem_stopRun {other : Stopper}
    (h : other ∈ (stopRun i stopper world).stoppers) :
    other ∈ world.stoppers ∨ other.stage.busy = false ∨
      other.run = stopper.run ∧ (stopper.stage.busy = true ∨
        ∃ run pid, world.runs[stopper.run]? = some run ∧
          run.shared.pid = some pid ∧ (stopRun i stopper world).runs =
            world.runs.set stopper.run
              { run with shared := run.shared.stop }) := by
  cases hstage : stopper.stage with
  | locking =>
      simp only [stopRun, hstage] at h ⊢
      cases hat : world.runs[stopper.run]? with
      | none =>
          rw [hat] at h
          exact Or.inl h
      | some run =>
          rw [hat] at h
          simp only at h ⊢
          cases hpid : run.shared.pid with
          | none =>
              rw [hpid] at h
              rcases mem_finish h with hold | hidle
              · exact Or.inl hold
              · exact Or.inr (Or.inl hidle)
          | some pid =>
              rw [hpid] at h
              rcases List.mem_or_eq_of_mem_set h with hold | rfl
              · exact Or.inl hold
              · exact Or.inr (Or.inr ⟨rfl, Or.inr ⟨run, pid, rfl, hpid, rfl⟩⟩)
  | ending pid =>
      simp only [stopRun, hstage] at h ⊢
      rcases List.mem_or_eq_of_mem_set h with hold | rfl
      · exact Or.inl hold
      · exact Or.inr (Or.inr ⟨rfl, Or.inl rfl⟩)
  | removing =>
      simp only [stopRun, hstage] at h ⊢
      rcases mem_finish h with hold | hidle
      · exact Or.inl hold
      · exact Or.inr (Or.inl hidle)
  | finished =>
      simp only [stopRun, hstage] at h ⊢
      exact Or.inl h

theorem mem_startCode {steps : Nat} {port : Option Nat}
    (h : stopper ∈ (startCode steps port world).stoppers) :
    stopper ∈ world.stoppers ∨ stopper.stage.busy = false := by
  unfold startCode at h
  split at h
  · exact Or.inl h
  · simp only at h
    split at h
    · have hmem := mem_release h
      exact hmem
    · exact Or.inl h

theorem mem_stop (h : stopper ∈ (stop world).stoppers) :
    stopper ∈ world.stoppers ∨ stopper.stage.busy = false := by
  unfold stop at h
  split at h
  · exact Or.inl h
  · rcases List.mem_append.mp h with hold | hnew
    · exact Or.inl hold
    · rw [List.mem_singleton.mp hnew]
      exact Or.inr rfl

theorem mem_stopAll (h : stopper ∈ (stopAll world).stoppers) :
    stopper ∈ world.stoppers ∨ stopper.stage.busy = false := by
  unfold stopAll at h
  split at h
  · exact Or.inl h
  · have hmem := mem_release h
    exact hmem

/-! ### Runs that are over -/

/-- The threads of a run that is over change nothing it shares. -/
theorem over_spawned (h : RunOk run) (hpid : run.shared.pid = none) :
    run.supervisor.spawned = none := by
  rw [h.pid] at hpid
  exact Option.map_eq_none_iff.mp hpid

theorem readOutput_over (h : RunOk run) (hpid : run.shared.pid = none)
    (url : Option String) : (readOutput r run url).1.shared = run.shared := by
  have hreading : run.supervisor.reading = none := by
    rw [reading_eq, over_spawned h hpid]
    rfl
  unfold readOutput
  rw [hreading]

theorem probePort_over (hended : run.shared.phase.active = false)
    (listening : Option String) :
    (probePort r run listening).1.shared = run.shared := by
  have hphase : run.shared.phase ≠ .starting := by
    intro hstarting
    rw [hstarting] at hended
    exact nomatch hended
  cases hprober : run.prober with
  | absent => simp only [probePort, hprober]
  | checking pid =>
      simp only [probePort, hprober]
      repeat' split
      all_goals rfl
  | connecting pid port =>
      simp only [probePort, hprober]
      cases listening with
      | none => rfl
      | some url =>
          simp only
          rw [if_pos (by simp [hphase])]

theorem supervise_over (h : RunOk run)
    (hended : run.shared.phase.active = false)
    (hpid : run.shared.pid = none) (r : Nat) (spawned : Option Child)
    (status : Status) (world : World) :
    (supervise r run spawned status world).1.shared = run.shared ∧
      (supervise r run spawned status world).2 = (world, []) := by
  have hspawned := over_spawned h hpid
  cases hsupervisor : run.supervisor with
  | locking index =>
      have hstopping : run.shared.stopping = true := by
        by_contra hnot
        have hphase := (h.locking index hsupervisor).2
          (Bool.eq_false_iff.mpr hnot)
        rw [hphase] at hended
        cases hended
      constructor <;>
        simp only [supervise, hsupervisor, hstopping, Bool.true_or, if_true]
  | done => constructor <;> simp only [supervise, hsupervisor]
  | _ =>
      rw [hsupervisor] at hspawned
      cases hspawned

/-! ### One run at a time -/

/-- Only the newest run is not over, and only it is being ended; the record
names the process of its step unless it is stopping. -/
structure Single (world : World) : Prop where
  ok : RunsOk world
  owned : Owned world
  older : ∀ (r : Nat) (run : Run), world.runs[r]? = some run →
    r + 1 < world.runs.length →
    run.shared.phase.active = false ∧ run.shared.pid = none
  ended : ∀ stopper ∈ world.stoppers, stopper.stage.busy = true →
    ∃ run, world.runs[stopper.run]? = some run ∧
      run.shared.stopping = true ∧ stopper.run + 1 = world.runs.length
  recorded : ∀ group ∈ world.groups, group.leader = true →
    ∀ run, world.runs[group.run]? = some run →
    run.shared.stopping = false →
    world.record = some ⟨group.pid, group.started⟩

theorem Group.alive_of_leader {group : Group} (h : group.leader = true) :
    group.alive = true := by
  rw [Group.alive, h, Bool.true_or]

/-- A run with a pid is the newest one. -/
theorem Single.newest (h : Single world) (hat : world.runs[r]? = some run)
    {pid : Nat} (hpid : run.shared.pid = some pid) :
    r + 1 = world.runs.length := by
  have hlt := (List.getElem?_eq_some_iff.mp hat).1
  by_contra hne
  have hnone := (h.older r run hat (by omega)).2
  rw [hpid] at hnone
  exact nomatch hnone

/-- A living group is one of the newest run. -/
theorem Single.alive (h : Single world) {group : Group}
    (hmem : group ∈ world.groups) (halive : group.alive = true) :
    group.run + 1 = world.runs.length := by
  obtain ⟨run, hat, hrunning⟩ := h.owned group hmem halive
  exact h.newest hat ((h.ok.at hat).pid_of_running hrunning)

/-- Steps that write no record. -/
theorem Single.next (h : Single world) (hok : RunsOk world')
    (howned : Owned world') (honward : Onward world.runs world'.runs)
    (hlength : world'.runs.length = world.runs.length)
    (hover : ∀ (r : Nat) (run run' : Run), world.runs[r]? = some run →
      world'.runs[r]? = some run' → run.shared.phase.active = false →
      run.shared.pid = none → run'.shared.pid = none)
    (hended : ∀ stopper ∈ world'.stoppers, stopper.stage.busy = true →
      stopper ∈ world.stoppers ∨ ∃ run, world'.runs[stopper.run]? = some run ∧
        run.shared.stopping = true ∧ stopper.run + 1 = world.runs.length)
    (hfewer : Fewer world.groups world'.groups)
    (hrecord : world'.record = world.record ∨ ∀ group ∈ world'.groups,
      group.leader = true → ∀ run, world'.runs[group.run]? = some run →
      run.shared.stopping = true) : Single world' where
  ok := hok
  owned := howned
  older := by
    intro r run' hat' hlt
    rw [hlength] at hlt
    have hat := List.getElem?_eq_getElem (Nat.lt_of_succ_lt hlt)
    obtain ⟨hactive, hpid⟩ := h.older r _ hat hlt
    obtain ⟨run'', hat'', hevolves⟩ := honward r _ hat
    rw [hat', Option.some.injEq] at hat''
    subst hat''
    exact ⟨by rw [hevolves.absorbing hactive, hactive],
      hover r _ run' hat hat' hactive hpid⟩
  ended := by
    intro stopper hmem hbusy
    rw [hlength]
    rcases hended stopper hmem hbusy with hold | hnew
    · obtain ⟨run, hat, hstopping, hlast⟩ := h.ended stopper hold hbusy
      obtain ⟨run', hat', hevolves⟩ := honward stopper.run run hat
      exact ⟨run', hat', hevolves.stopping hstopping, hlast⟩
    · exact hnew
  recorded := by
    intro group hmem hleader run' hat' hstopping
    rcases hrecord with hsame | hnone
    · obtain ⟨old, hold, halive, hrun, hpid, hstarted, hlead⟩ :=
        hfewer group hmem (Group.alive_of_leader hleader)
      obtain ⟨run, hat, -⟩ := h.owned old hold halive
      obtain ⟨run'', hat'', hevolves⟩ := honward old.run run hat
      rw [hrun, hat', Option.some.injEq] at hat''
      subst hat''
      have hbefore : run.shared.stopping = false := by
        by_contra hnot
        rw [hevolves.stopping (Bool.not_eq_false _ ▸ hnot)] at hstopping
        exact nomatch hstopping
      rw [hsame, h.recorded old hold (hlead hleader) run hat hbefore, hpid,
        hstarted]
    · rw [hnone group hmem hleader run' hat'] at hstopping
      exact nomatch hstopping

/-- A new run, when the earlier ones are over. -/
theorem Single.start (h : Single world) (hsettled : Settled world)
    {steps : Nat} {port : Option Nat} (hok : RunsOk world')
    (howned : Owned world')
    (hruns : world'.runs =
      world.runs ++ [⟨Shared.empty port, steps, .locking 0, .absent⟩])
    (hgroups : world'.groups = world.groups)
    (hstoppers : ∀ stopper ∈ world'.stoppers,
      stopper ∈ world.stoppers ∨ stopper.stage.busy = false) :
    Single world' where
  ok := hok
  owned := howned
  older := by
    intro r run hat hlt
    rw [hruns, List.length_append, List.length_singleton] at hlt
    rw [hruns, List.getElem?_append_left (by omega)] at hat
    exact hsettled.1 run (List.mem_of_getElem? hat)
  ended := by
    intro stopper hmem hbusy
    rcases hstoppers stopper hmem with hold | hidle
    · rw [hsettled.2 stopper hold] at hbusy
      exact nomatch hbusy
    · rw [hidle] at hbusy
      exact nomatch hbusy
  recorded := by
    intro group hmem hleader
    rw [hgroups] at hmem
    obtain ⟨run, hat, hrunning⟩ :=
      h.owned group hmem (Group.alive_of_leader hleader)
    have hpid := (h.ok.at hat).pid_of_running hrunning
    rw [(hsettled.1 run (List.mem_of_getElem? hat)).2] at hpid
    exact nomatch hpid

/-- Steps of the calls that touch only the list of stoppers. -/
theorem Single.idle (h : Single world) (hok : RunsOk world')
    (howned : Owned world') (hruns : world'.runs = world.runs)
    (hgroups : world'.groups = world.groups)
    (hrecord : world'.record = world.record)
    (hstoppers : ∀ stopper ∈ world'.stoppers,
      stopper ∈ world.stoppers ∨ stopper.stage.busy = false) :
    Single world' := by
  refine h.next hok howned ?_ (by rw [hruns]) ?_ ?_ ?_ (Or.inl hrecord)
  · rw [hruns]
    exact Onward.refl h.ok
  · intro r run run' hat hat' _ hpid
    rw [hruns, hat, Option.some.injEq] at hat'
    rw [← hat', hpid]
  · intro stopper hmem hbusy
    rcases hstoppers stopper hmem with hold | hidle
    · exact Or.inl hold
    · rw [hidle] at hbusy
      exact nomatch hbusy
  · rw [hgroups]
    exact Fewer.refl _

theorem stop_record (world : World) : (stop world).record = world.record := by
  unfold stop
  split <;> rfl

theorem stopAll_record (world : World) :
    (stopAll world).record = world.record := by
  unfold stopAll
  split
  · rfl
  · exact release_record _ _

theorem startCode_record (steps : Nat) (port : Option Nat) (world : World) :
    (startCode steps port world).record = world.record := by
  unfold startCode
  split
  · rfl
  · simp only
    split
    · exact release_record _ _
    · rfl

theorem stopRun_record (i : Nat) (stopper : Stopper) (world : World) :
    (stopRun i stopper world).record = world.record ∨
      stopper.stage.busy = true ∧
        (stopRun i stopper world).runs = world.runs := by
  cases hstage : stopper.stage with
  | locking =>
      left
      simp only [stopRun, hstage]
      split
      · rfl
      · split
        · exact finish_record _ _ _
        · rfl
  | ending pid =>
      left
      simp only [stopRun, hstage]
  | removing =>
      simp only [stopRun, hstage]
      exact Or.inr ⟨rfl, finish_runs _ _ _⟩
  | finished =>
      left
      simp only [stopRun, hstage]

theorem single_stopRun (h : Single world)
    (hstopper : world.stoppers[i]? = some stopper)
    (hok : RunsOk (stopRun i stopper world))
    (howned : Owned (stopRun i stopper world))
    (honward : Onward world.runs (stopRun i stopper world).runs) :
    Single (stopRun i stopper world) := by
  have hmem := List.mem_of_getElem? hstopper
  have hlength : (stopRun i stopper world).runs.length =
      world.runs.length := by
    rcases stopRun_runs i stopper world with hruns | ⟨run, -, hruns⟩
    · rw [hruns]
    · rw [hruns, List.length_set]
  refine h.next hok howned honward hlength ?_ ?_ ?_ ?_
  · intro r run run' hat hat' _ hpid
    rcases stopRun_runs i stopper world with hruns | ⟨old, hold, hruns⟩
    · rw [hruns, hat, Option.some.injEq] at hat'
      rw [← hat', hpid]
    · rw [hruns] at hat'
      by_cases hsame : stopper.run = r
      · rw [hsame, hat, Option.some.injEq] at hold
        rw [hsame, List.getElem?_set_self
          (List.getElem?_eq_some_iff.mp hat).1, Option.some.injEq] at hat'
        rw [← hat', ← hold]
        exact hpid
      · rw [List.getElem?_set_ne hsame, hat, Option.some.injEq] at hat'
        rw [← hat', hpid]
  · intro other hother hbusy
    rcases mem_stopRun hother with hold | hidle | ⟨hrun, hcause⟩
    · exact Or.inl hold
    · rw [hidle] at hbusy
      exact nomatch hbusy
    · right
      rw [hrun]
      rcases hcause with hwas | ⟨run, pid, hat, hpid, hruns⟩
      · obtain ⟨run, hat, hstopping, hlast⟩ := h.ended stopper hmem hwas
        obtain ⟨run', hat', hevolves⟩ := honward stopper.run run hat
        exact ⟨run', hat', hevolves.stopping hstopping, hlast⟩
      · refine ⟨{ run with shared := run.shared.stop }, ?_, rfl,
          h.newest hat hpid⟩
        rw [hruns]
        exact List.getElem?_set_self (List.getElem?_eq_some_iff.mp hat).1
  · rcases stopRun_groups i stopper world with hgroups | ⟨pid, hgroups⟩
    · rw [hgroups]
      exact Fewer.refl _
    · rw [hgroups]
      exact terminate_fewer pid _
  · rcases stopRun_record i stopper world with hsame | ⟨hbusy, hruns⟩
    · exact Or.inl hsame
    · -- the record of a stopping run is removed, and no other run is alive
      obtain ⟨last, hat, hstopping, hlast⟩ := h.ended stopper hmem hbusy
      right
      intro group hgroup hleader run hrun
      obtain ⟨old, hold, halive, hsame, -, -, -⟩ : ∃ old ∈ world.groups,
          old.alive = true ∧ old.run = group.run ∧ old.pid = group.pid ∧
            old.started = group.started ∧
            (group.leader = true → old.leader = true) := by
        have halive := Group.alive_of_leader hleader
        rcases stopRun_groups i stopper world with hgroups | ⟨pid, hgroups⟩
        · rw [hgroups] at hgroup
          exact Fewer.refl _ group hgroup halive
        · rw [hgroups] at hgroup
          exact terminate_fewer pid _ group hgroup halive
      have hnewest := h.alive hold halive
      rw [hsame] at hnewest
      have heq : group.run = stopper.run := by omega
      rw [hruns, heq, hat, Option.some.injEq] at hrun
      rw [← hrun, hstopping]

/-- What a step of a supervisor does outside its run: nothing, a spawn, the
end of a group or the removal of the record. -/
theorem supervise_cases (h : RunOk run) (r : Nat) (spawned : Option Child)
    (status : Status) (world : World) :
    (supervise r run spawned status world).2.1 = world ∨
      (∃ child ∈ spawned, run.supervisor.running = none ∧
        run.shared.phase.active = true ∧
        (supervise r run spawned status world).2.1 = { world with
          groups := world.groups ++
            [⟨r, world.nextPid, child.started, true, false⟩]
          record := writeRecord world.nextPid child world.record
          nextPid := world.nextPid + 1 }) ∨
      (∃ pid, (supervise r run spawned status world).2.1 =
        { world with groups := terminateGroup pid world.groups }) ∨
      ∃ pid, run.supervisor.running = none ∧ run.shared.pid = some pid ∧
        (supervise r run spawned status world).2.1 =
          { world with record := none } := by
  cases hsupervisor : run.supervisor with
  | locking index =>
      simp only [supervise, hsupervisor]
      split
      · exact Or.inl rfl
      · next hguard =>
          split
          · exact Or.inl rfl
          · next child =>
              have hstopping : run.shared.stopping = false := by
                simp only [Bool.or_eq_true, not_or, Bool.not_eq_true] at hguard
                exact hguard.1
              refine Or.inr (Or.inl ⟨child, rfl, rfl, ?_, rfl⟩)
              rw [(h.locking index hsupervisor).2 hstopping]
              rfl
  | waiting index pid =>
      left
      simp only [supervise, hsupervisor]
      split <;> rfl
  | ending index pid status =>
      simp only [supervise, hsupervisor]
      exact Or.inr (Or.inr (Or.inl ⟨pid, rfl⟩))
  | removing index pid status =>
      have hpid : run.shared.pid = some pid := by
        rw [h.pid, hsupervisor]
        rfl
      simp only [supervise, hsupervisor]
      exact Or.inr (Or.inr (Or.inr ⟨pid, rfl, hpid, trivial⟩))
  | joining index pid status =>
      left
      simp only [supervise, hsupervisor]
      repeat' split
      all_goals rfl
  | done =>
      left
      simp only [supervise, hsupervisor]

/-- A step of the supervisor of the newest run, or of one that is over. -/
theorem single_supervise (h : Single world) (hat : world.runs[r]? = some run)
    {spawned : Option Child}
    (hwritten : ∀ child ∈ spawned, child.written = .done) (status : Status) {world' : World}
    (hworld : world' = { (supervise r run spawned status world).2.1 with
      runs := world.runs.set r (supervise r run spawned status world).1 })
    (hok : RunsOk world') (howned : Owned world')
    (honward : Onward world.runs world'.runs) : Single world' := by
  have hlt := (List.getElem?_eq_some_iff.mp hat).1
  have hruns : world'.runs =
      world.runs.set r (supervise r run spawned status world).1 := by
    rw [hworld]
  have hlength : world'.runs.length = world.runs.length := by
    rw [hruns, List.length_set]
  have hover : ∀ (i : Nat) (old new : Run), world.runs[i]? = some old →
      world'.runs[i]? = some new → old.shared.phase.active = false →
      old.shared.pid = none → new.shared.pid = none := by
    intro i old new hold hnew hended hpid
    rw [hruns] at hnew
    by_cases hsame : r = i
    · subst hsame
      rw [hat, Option.some.injEq] at hold
      subst hold
      rw [List.getElem?_set_self hlt, Option.some.injEq] at hnew
      rw [← hnew, (supervise_over (h.ok.at hat) hended hpid r spawned status
        world).1, hpid]
    · rw [List.getElem?_set_ne hsame, hold, Option.some.injEq] at hnew
      rw [← hnew, hpid]
  -- the newest run has no living group while it waits for none
  have hdead : run.supervisor.running = none → r + 1 = world.runs.length →
      ∀ group ∈ world.groups, group.alive = false := by
    intro hidle hlast group hmem
    by_contra hnot
    have halive := Bool.not_eq_false _ ▸ hnot
    obtain ⟨owner, howner, hrunning⟩ := h.owned group hmem halive
    have hsame : group.run = r := by
      have hnewest := h.alive hmem halive
      omega
    rw [hsame, hat, Option.some.injEq] at howner
    rw [← howner, hidle] at hrunning
    exact nomatch hrunning
  rcases supervise_cases (h.ok.at hat) r spawned status world with hsame |
    ⟨child, hchild, hidle, hactive, hsame⟩ | ⟨pid, hsame⟩ |
    ⟨pid, hidle, hpid, hsame⟩
  · rw [hsame] at hworld
    refine h.next hok howned honward hlength hover ?_ ?_ (Or.inl ?_) <;>
      rw [hworld]
    · exact fun _ hmem _ => Or.inl hmem
    · exact Fewer.refl _
  · have hlast : r + 1 = world.runs.length := by
      by_contra hne
      rw [(h.older r run hat (by omega)).1] at hactive
      exact nomatch hactive
    rw [hsame] at hworld
    refine ⟨hok, howned, ?_, ?_, ?_⟩
    · intro i new hnew hlt'
      rw [hlength] at hlt'
      have hne : r ≠ i := by omega
      rw [hruns, List.getElem?_set_ne hne] at hnew
      exact h.older i new hnew hlt'
    · intro stopper hmem hbusy
      rw [hworld] at hmem
      obtain ⟨old, hold, hstopping, hnewest⟩ := h.ended stopper hmem hbusy
      obtain ⟨new, hnew, hevolves⟩ := honward stopper.run old hold
      exact ⟨new, hnew, hevolves.stopping hstopping, by rw [hlength, hnewest]⟩
    · intro group hmem hleader _ _ _
      rw [hworld] at hmem ⊢
      rcases List.mem_append.mp hmem with hold | hnew
      · have halive := Group.alive_of_leader hleader
        rw [hdead hidle hlast group hold] at halive
        exact nomatch halive
      · rw [List.mem_singleton.mp hnew, writeRecord, hwritten child hchild]
  · rw [hsame] at hworld
    refine h.next hok howned honward hlength hover ?_ ?_ (Or.inl ?_) <;>
      rw [hworld]
    · exact fun _ hmem _ => Or.inl hmem
    · exact terminate_fewer pid _
  · rw [hsame] at hworld
    refine h.next hok howned honward hlength hover ?_ ?_ (Or.inr ?_) <;>
      rw [hworld]
    · exact fun _ hmem _ => Or.inl hmem
    · exact Fewer.refl _
    · intro group hmem hleader
      have halive := Group.alive_of_leader hleader
      rw [hdead hidle (h.newest hat hpid) group hmem] at halive
      exact nomatch halive

/-- A thread that changes only what its run shares. -/
theorem single_thread (h : Single world) (hat : world.runs[r]? = some run)
    (hshared : run.shared.phase.active = false → run.shared.pid = none →
      run'.shared = run.shared)
    (hok : RunsOk { world with runs := world.runs.set r run' })
    (howned : Owned { world with runs := world.runs.set r run' })
    (honward : Onward world.runs (world.runs.set r run')) :
    Single { world with runs := world.runs.set r run' } := by
  refine h.next hok howned honward List.length_set ?_
    (fun _ hmem _ => Or.inl hmem) (Fewer.refl _) (Or.inl rfl)
  intro i old new hold hnew hended hpid
  change (world.runs.set r run')[i]? = some new at hnew
  by_cases hsame : r = i
  · subst hsame
    rw [hat, Option.some.injEq] at hold
    subst hold
    rw [List.getElem?_set_self (List.getElem?_eq_some_iff.mp hat).1,
      Option.some.injEq] at hnew
    rw [← hnew, hshared hended hpid, hpid]
  · rw [List.getElem?_set_ne hsame, hold, Option.some.injEq] at hnew
    rw [← hnew, hpid]

/-- Processes that end by themselves. -/
theorem Single.processes (h : Single world) {groups : List Group}
    (hok : RunsOk { world with groups }) (howned : Owned { world with groups })
    (hfewer : Fewer world.groups groups) : Single { world with groups } := by
  refine h.next hok howned (Onward.refl h.ok) rfl ?_
    (fun _ hmem _ => Or.inl hmem) hfewer (Or.inl rfl)
  intro i old new hold hnew _ hpid
  change world.runs[i]? = some new at hnew
  rw [hold, Option.some.injEq] at hnew
  rw [← hnew, hpid]

theorem single_step (h : Single world) {action : Action}
    (hcareful : Careful world action) : Single (step world action).1 := by
  obtain ⟨honward, hok⟩ := step_onward h.ok action
  have howned := owned_step h.owned action
  cases action with
  | startCode steps port =>
      rcases startCode_runs steps port world with hruns |
        ⟨hsteps, hactive, hruns⟩
      · exact h.idle hok howned hruns (startCode_groups steps port world)
          (startCode_record steps port world) fun _ => mem_startCode
      · exact h.start (hcareful hactive hsteps) hok howned hruns
          (startCode_groups steps port world) fun _ => mem_startCode
  | stop =>
      exact h.idle hok howned (stop_runs world) (stop_groups world)
        (stop_record world) fun _ => mem_stop
  | stopAll =>
      exact h.idle hok howned (stopAll_runs world) (stopAll_groups world)
        (stopAll_record world) fun _ => mem_stopAll
  | stopRun i =>
      cases hstopper : world.stoppers[i]? with
      | none =>
          simp only [step, hstopper]
          exact h
      | some stopper =>
          simp only [step, hstopper] at hok howned honward ⊢
          exact single_stopRun h hstopper hok howned honward
  | supervise r spawned status =>
      cases hat : world.runs[r]? with
      | none =>
          simp only [step, hat]
          exact h
      | some run =>
          simp only [step, hat] at hok howned honward ⊢
          refine single_supervise h hat hcareful status ?_ hok howned honward
          rw [supervise_runs]
  | readOutput r url =>
      cases hat : world.runs[r]? with
      | none =>
          simp only [step, hat]
          exact h
      | some run =>
          simp only [step, hat] at hok howned honward ⊢
          exact single_thread h hat (fun _ hpid =>
            readOutput_over (h.ok.at hat) hpid url) hok howned honward
  | probePort r listening =>
      cases hat : world.runs[r]? with
      | none =>
          simp only [step, hat]
          exact h
      | some run =>
          simp only [step, hat] at hok howned honward ⊢
          exact single_thread h hat (fun hended _ =>
            probePort_over hended listening) hok howned honward
  | leaderExits pid => exact h.processes hok howned (leaderExits_fewer pid _)
  | background pid alive =>
      exact h.processes hok howned (background_fewer pid alive _)

end AiTeam.ProjectRun
