/-
The runs of one project unit (`project_runner/mod.rs`, `process.rs`): the
threads of every run, one lock-protected section or file operation at a time,
over the record file they share.  Logs, the log file and the timer of the
address are left out.
-/
import AiTeam.Machine

namespace AiTeam.ProjectRun

inductive Phase where
  | preparing
  | starting
  | running
  | exited
  | failed
  | stopped
deriving DecidableEq

/-- `Phase::active`. -/
def Phase.active : Phase → Bool
  | .preparing => true
  | .starting => true
  | .running => true
  | _ => false

/-- What the threads of a run share under its lock. -/
structure Shared where
  phase : Phase
  url : Option String
  exitCode : Option Int
  pid : Option Nat
  stopping : Bool
  /-- The ready callback is still there. -/
  ready : Bool
  port : Option Nat
deriving DecidableEq

/-- `child.wait()`. -/
structure Status where
  code : Option Int
  success : Bool
deriving DecidableEq

/-- Where `supervise` is in its loop. -/
inductive Supervisor where
  | locking (index : Nat)
  | waiting (index pid : Nat)
  | ending (index pid : Nat) (status : Status)
  | removing (index pid : Nat) (status : Status)
  | joining (index pid : Nat) (status : Status)
  | done
deriving DecidableEq

/-- Where `probe_port` is; it is not joined. -/
inductive Prober where
  | absent
  | checking (pid : Nat)
  | connecting (pid port : Nat)
deriving DecidableEq

structure Run where
  shared : Shared
  /-- The number of steps. -/
  steps : Nat
  supervisor : Supervisor
  prober : Prober
deriving DecidableEq

/-- The process group of a step: its leader, and what the leader left in the
background. -/
structure Group where
  run : Nat
  pid : Nat
  started : Nat
  leader : Bool
  background : Bool
deriving DecidableEq

def Group.alive (group : Group) : Bool :=
  group.leader || group.background

structure Record where
  pid : Nat
  started : Nat
deriving DecidableEq

/-- Where a call of `ProcessRun::stop` is. -/
inductive Stage where
  | locking
  | ending (pid : Nat)
  | removing
  | finished
deriving DecidableEq

/-- A thread in `ProcessRun::stop`: one of `stop`, which holds the run, or the
one that dropped its last handle. -/
structure Stopper where
  run : Nat
  handle : Bool
  stage : Stage
deriving DecidableEq

structure World where
  runs : List Run
  /-- The run in the table. -/
  current : Option Nat
  stoppers : List Stopper
  groups : List Group
  record : Option Record
  nextPid : Nat
deriving DecidableEq

inductive Event where
  /-- A step process was spawned. -/
  | spawned (run pid : Nat)
  /-- The ready callback was called. -/
  | ready (run : Nat) (url : String)
deriving DecidableEq

/-! ### Processes -/

/-- `terminate_group`, once it has returned. -/
def terminateGroup (pid : Nat) (groups : List Group) : List Group :=
  groups.map fun group =>
    if group.pid = pid then { group with leader := false, background := false }
    else group

/-- The leader of the group has not exited. -/
def leads (pid : Nat) (groups : List Group) : Bool :=
  groups.any fun group => group.pid = pid && group.leader

/-- `start_time`. -/
def startTime (pid : Nat) (groups : List Group) : Option Nat :=
  (groups.find? fun group => group.pid = pid && group.leader).map Group.started

/-- What becomes of `write_record`, whose errors are ignored: the record is
written; the file stays, when the process has no start time to read or the file
does not open; or the write breaks off and what is there is no record. -/
inductive Written where
  | done
  | kept
  | torn
deriving DecidableEq

/-- What a spawn gives. -/
structure Child where
  started : Nat
  written : Written
deriving DecidableEq

/-- `write_record` -/
def writeRecord (pid : Nat) (child : Child) (record : Option Record) :
    Option Record :=
  match child.written with
  | .done => some ⟨pid, child.started⟩
  | .kept => record
  | .torn => none

/-- `end_leftovers` of the run folder. -/
def endLeftovers (world : World) : World :=
  let groups := match world.record with
    | none => world.groups
    | some record =>
        if startTime record.pid world.groups = some record.started then
          terminateGroup record.pid world.groups
        else world.groups
  { world with groups, record := none }

/-! ### The threads of a run -/

def Shared.empty (port : Option Nat) : Shared :=
  ⟨.preparing, none, none, none, false, true, port⟩

/-- The locked section of `ProcessRun::stop`. -/
def Shared.stop (shared : Shared) : Shared :=
  { shared with
    stopping := true
    phase := if shared.phase.active then .stopped else shared.phase }

/-- A first address: the run counts as running and the callback is taken. -/
def Shared.open (shared : Shared) (url : String) : Shared :=
  { shared with url := some url, phase := .running, ready := false }

def called (shared : Shared) (run : Nat) (url : String) : List Event :=
  if shared.ready then [.ready run url] else []

def isStart (run : Run) (index : Nat) : Bool :=
  index + 1 == run.steps

/-- One step of `supervise`; `spawned` is the process if one could be spawned,
`status` what waiting for it returns. -/
def supervise (r : Nat) (run : Run) (spawned : Option Child) (status : Status)
    (world : World) : Run × World × List Event :=
  match run.supervisor with
  | .locking index =>
      if run.shared.stopping || run.steps ≤ index then
        ({ run with supervisor := .done }, world, [])
      else
        let starting := isStart run index
        let phase := if starting then .starting else run.shared.phase
        match spawned with
        | none =>
            ({ run with
              shared := { run.shared with phase := .failed }
              supervisor := .done }, world, [])
        | some child =>
            let pid := world.nextPid
            ({ run with
              shared := { run.shared with phase, pid := some pid }
              supervisor := .waiting index pid
              prober := if starting then .checking pid else run.prober },
              { world with
                groups := world.groups ++ [⟨r, pid, child.started, true, false⟩]
                record := writeRecord pid child world.record
                nextPid := pid + 1 },
              [.spawned r pid])
  | .waiting index pid =>
      if leads pid world.groups then (run, world, [])
      else ({ run with supervisor := .ending index pid status }, world, [])
  | .ending index pid status =>
      ({ run with supervisor := .removing index pid status },
        { world with groups := terminateGroup pid world.groups }, [])
  | .removing index pid status =>
      ({ run with supervisor := .joining index pid status },
        { world with record := none }, [])
  | .joining index _ status =>
      let shared := { run.shared with pid := none }
      if shared.stopping then
        ({ run with shared, supervisor := .done }, world, [])
      else if isStart run index then
        ({ run with
          shared := { shared with phase := .exited, exitCode := status.code }
          supervisor := .done }, world, [])
      else if status.success then
        ({ run with shared, supervisor := .locking (index + 1) }, world, [])
      else
        ({ run with
          shared := { shared with phase := .failed, exitCode := status.code }
          supervisor := .done }, world, [])
  | .done => (run, world, [])

/-- The step whose output is still read: the readers are joined before the
supervisor takes its lock again. -/
def Supervisor.reading : Supervisor → Option Nat
  | .waiting index _ => some index
  | .ending index _ _ => some index
  | .removing index _ _ => some index
  | .joining index _ _ => some index
  | _ => none

/-- The locked section of `read_output`, for a chunk with the address if it has
one. -/
def readOutput (r : Nat) (run : Run) (url : Option String) :
    Run × List Event :=
  match run.supervisor.reading, url with
  | some index, some url =>
      if !isStart run index || run.shared.url.isSome || run.shared.stopping then
        (run, [])
      else
        ({ run with shared := run.shared.open url }, called run.shared r url)
  | _, _ => (run, [])

/-- One locked section of `probe_port`; `listening` is the address that
accepted a connection. -/
def probePort (r : Nat) (run : Run) (listening : Option String) :
    Run × List Event :=
  match run.prober with
  | .absent => (run, [])
  | .checking pid =>
      let waiting := run.shared.phase = .starting && run.shared.url.isNone &&
        !run.shared.stopping && run.shared.pid = some pid
      match run.shared.port with
      | some port =>
          if waiting then ({ run with prober := .connecting pid port }, [])
          else ({ run with prober := .absent }, [])
      | none => ({ run with prober := .absent }, [])
  | .connecting pid _ =>
      match listening with
      | none => ({ run with prober := .checking pid }, [])
      | some url =>
          if run.shared.phase ≠ .starting || run.shared.url.isSome ||
              run.shared.stopping then
            ({ run with prober := .absent }, [])
          else
            ({ run with shared := run.shared.open url, prober := .absent },
              called run.shared r url)

/-! ### The table -/

/-- A handle of a run goes; without another one the run is stopped. -/
def release (r : Nat) (world : World) : World :=
  if world.current = some r ∨
      world.stoppers.any fun stopper => stopper.run = r && stopper.handle then
    world
  else { world with stoppers := world.stoppers ++ [⟨r, false, .locking⟩] }

/-- The run in the table is running. -/
def World.active (world : World) : Bool :=
  (world.current.bind fun r => world.runs[r]?).any fun run =>
    run.shared.phase.active

/-- `start_code`, from the moment the commands are confirmed. -/
def startCode (steps : Nat) (port : Option Nat) (world : World) : World :=
  if world.active || steps == 0 then world
  else
    let started := { world with
      runs := world.runs ++
        [⟨Shared.empty port, steps, .locking 0, .absent⟩]
      current := some world.runs.length }
    match world.current with
    | some r => release r started
    | none => started

/-- `stop` and `stop_all` up to the calls of `ProcessRun::stop`. -/
def stop (world : World) : World :=
  match world.current with
  | none => world
  | some r =>
      { world with stoppers := world.stoppers ++ [⟨r, true, .locking⟩] }

def stopAll (world : World) : World :=
  match world.current with
  | none => world
  | some r => release r { world with current := none }

/-- The stopper is through and lets go of its handle. -/
def finish (i : Nat) (stopper : Stopper) (world : World) : World :=
  let world := { world with
    stoppers := world.stoppers.set i ⟨stopper.run, false, .finished⟩ }
  if stopper.handle then release stopper.run world else world

/-- One step of `ProcessRun::stop`. -/
def stopRun (i : Nat) (stopper : Stopper) (world : World) : World :=
  match stopper.stage with
  | .locking =>
      match world.runs[stopper.run]? with
      | none => world
      | some run =>
          let world := { world with
            runs := world.runs.set stopper.run
              { run with shared := run.shared.stop } }
          match run.shared.pid with
          | none => finish i stopper world
          | some pid =>
              { world with stoppers :=
                world.stoppers.set i { stopper with stage := .ending pid } }
  | .ending pid =>
      { world with
        groups := terminateGroup pid world.groups
        stoppers := world.stoppers.set i { stopper with stage := .removing } }
  | .removing => finish i stopper { world with record := none }
  | .finished => world

inductive Action where
  | startCode (steps : Nat) (port : Option Nat)
  | stop
  | stopAll
  | stopRun (i : Nat)
  | supervise (r : Nat) (spawned : Option Child) (status : Status)
  | readOutput (r : Nat) (url : Option String)
  | probePort (r : Nat) (listening : Option String)
  /-- The leader of a group exits. -/
  | leaderExits (pid : Nat)
  /-- A living group has a process in the background, or no longer has. -/
  | background (pid : Nat) (alive : Bool)
deriving DecidableEq

def step (world : World) : Action → World × List Event
  | .startCode steps port => (startCode steps port world, [])
  | .stop => (stop world, [])
  | .stopAll => (stopAll world, [])
  | .stopRun i =>
      match world.stoppers[i]? with
      | none => (world, [])
      | some stopper => (stopRun i stopper world, [])
  | .supervise r spawned status =>
      match world.runs[r]? with
      | none => (world, [])
      | some run =>
          let done := supervise r run spawned status world
          ({ done.2.1 with runs := done.2.1.runs.set r done.1 }, done.2.2)
  | .readOutput r url =>
      match world.runs[r]? with
      | none => (world, [])
      | some run =>
          let done := readOutput r run url
          ({ world with runs := world.runs.set r done.1 }, done.2)
  | .probePort r listening =>
      match world.runs[r]? with
      | none => (world, [])
      | some run =>
          let done := probePort r run listening
          ({ world with runs := world.runs.set r done.1 }, done.2)
  | .leaderExits pid =>
      ({ world with groups := world.groups.map fun group =>
        if group.pid = pid then { group with leader := false } else group }, [])
  | .background pid alive =>
      ({ world with groups := world.groups.map fun group =>
        if group.pid = pid && group.alive then
          { group with background := alive }
        else group }, [])

def machine : Machine World Action Event where
  step := step

/-- The app has just started; pids from `nextPid` on are free. -/
def fresh (nextPid : Nat) : World := ⟨[], none, [], [], none, nextPid⟩

end AiTeam.ProjectRun
