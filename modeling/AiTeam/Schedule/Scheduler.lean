/-
The scheduler as a machine.  A tick is a thread that walks over its snapshot of
the scheduled conversations; any number of ticks, settling prompts, requests
and restarts interleave at the awaits.
-/
import AiTeam.Schedule.Service

namespace AiTeam.Schedule

open AiTeam.Receipt

/-- A running tick: its window, the snapshot rows it has not visited, the
`launch` it awaits, and whether the watermark must stay. -/
structure Tick where
  previous : Int
  now : Int
  pending : List Record
  /-- The conversation, and whether it launched and was a retry. -/
  awaiting : Option (String × Bool × Bool)
  blocked : Bool
deriving DecidableEq

structure Scheduler where
  service : Service
  ticks : List Tick
deriving DecidableEq

inductive Action where
  | start (now : Int)
  | tick (now : Int)
  /-- A tick visits its next conversation, or ends. -/
  | visit (index : Nat) (answers : Answers) (clock : Int)
  /-- A tick continues after the await of `launch`. -/
  | resume (index : Nat) (authorized : Bool)
  | settle (key : ReceiptKey) (outcome : Outcome) (clock : Int)
  | heartbeat (key : ReceiptKey) (clock : Int)
  | request (request : Request) (clock : Int)
  | restart (clock : Int)

/-- `tick` up to its loop. -/
def beginTick (scheduler : Scheduler) (now : Int) : Scheduler :=
  let previous := scheduler.service.lastTick.getD now
  let service := { scheduler.service with lastTick := some previous }
  if now ≤ previous then ⟨service, scheduler.ticks⟩
  else
    ⟨service, scheduler.ticks ++
      [⟨previous, now, listScheduledConversations service.store, none,
        false⟩]⟩

/-- The end of the loop: the watermark moves unless an occurrence waits for
its identity. -/
def endTick (service : Service) (tick : Tick) : Service :=
  if tick.blocked then service else { service with lastTick := some tick.now }

/-- A tick visits the first of its pending conversations. -/
def visitNext (config : Config) (scheduler : Scheduler) (index : Nat)
    (tick : Tick) (record : Record) (rest : List Record) (answers : Answers)
    (clock : Int) : Scheduler × List Event :=
  let (service, visited, events) := visit config (draw scheduler.service)
    tick.previous tick.now record answers clock
  let next := { tick with pending := rest }
  match visited with
  | .passed => (⟨service, scheduler.ticks.set index next⟩, events)
  | .blocked =>
      (⟨service, scheduler.ticks.set index { next with blocked := true }⟩,
        events)
  | .awaiting launched retrying =>
      (⟨service, scheduler.ticks.set index { next with
        awaiting := some (record.conversation.id, launched, retrying) }⟩,
        events)
  | .aborted => (⟨service, scheduler.ticks.eraseIdx index⟩, events)

def findPrompt (service : Service) (key : ReceiptKey) : Option Prompt :=
  service.prompts.find? (·.key == key)

def step (config : Config) (scheduler : Scheduler) :
    Action → Scheduler × List Event
  | .start now =>
      (⟨{ scheduler.service with lastTick := some now }, scheduler.ticks⟩, [])
  | .tick now => (beginTick scheduler now, [])
  | .visit index answers clock =>
      match scheduler.ticks[index]? with
      | some ⟨previous, now, record :: rest, none, blocked⟩ =>
          visitNext config scheduler index
            ⟨previous, now, record :: rest, none, blocked⟩ record rest answers
            clock
      | some ⟨previous, now, [], none, blocked⟩ =>
          (⟨endTick scheduler.service ⟨previous, now, [], none, blocked⟩,
            scheduler.ticks.eraseIdx index⟩, [])
      | _ => (scheduler, [])
  | .resume index authorized =>
      match scheduler.ticks[index]? with
      | some ⟨previous, now, rest, some (id, launched, retrying), blocked⟩ =>
          (⟨Schedule.resume scheduler.service id launched retrying,
            scheduler.ticks.set index ⟨previous, now, rest, none,
              blocked || (config.authorization && !authorized)⟩⟩, [])
      | _ => (scheduler, [])
  | .settle key outcome clock =>
      match findPrompt scheduler.service key with
      | some prompt =>
          let service := { scheduler.service with
            prompts := scheduler.service.prompts.erase prompt }
          let (service, events) := Schedule.settle config service prompt
            outcome clock
          (⟨service, scheduler.ticks⟩, events)
      | none => (scheduler, [])
  | .heartbeat key clock =>
      match findPrompt scheduler.service key with
      | some prompt =>
          (⟨{ scheduler.service with
            store := renewLease scheduler.service.store prompt.key
              (some prompt.ownerInstance) none clock }, scheduler.ticks⟩, [])
      | none => (scheduler, [])
  | .request request clock =>
      let service := draw scheduler.service
      (⟨{ service with store := serve service.store clock request },
        scheduler.ticks⟩, [])
  | .restart clock =>
      (⟨restartService (draw scheduler.service) clock, []⟩, [])

def machine (config : Config) : Machine Scheduler Action Event where
  step := step config

def initial : Scheduler := ⟨initialService, []⟩

end AiTeam.Schedule
