import DistinctCount.Container.Restore
import DistinctCount.Container.Sweep
import DistinctCount.Container.Tasks
import DistinctCount.Schedule.Clock

/-!
Containers on one thread. Tasks take turns: one runs until it has to wait, then the next that is
ready. Turns come in rounds. The task that the script waits for has its turn at the start of a
round, and a round is over when no other task is ready or its turns are used up. A task that never
has to wait gives way after a while and is ready again in the next round.
-/

namespace DistinctCount.Schedule

/-- The place of a container among all that were ever opened. -/
abbrev Home := Nat

/-- The way from the containers to their backend. -/
structure Link where
  backend : Backend := {}
  /-- Milliseconds that pass before a call that writes is carried out. -/
  latency : Nat := 0
  /-- The record at which a scan breaks off. -/
  scanLimit : Option Nat := none

/-- A call that a container made, with the time of its answer. -/
structure Call where
  time : Nat
  request : Request
  answer : Backend.Answer

/-- Where a task stands with its next call of the backend. -/
inductive Phase
  | ready
  /-- The call is under way. -/
  | calling (due : Nat)
  /-- The task pauses before it calls again. -/
  | resting (due : Nat)

inductive Closing
  | begin
  /-- The background tasks have been told to end. -/
  | joining
  | draining (phase : Phase)
  | stopping (phase : Phase)

/-- What the caller of a deletion waits for. -/
structure Awaited where
  ticket : Ticket
  /-- When the caller gives up, if ever. -/
  deadline : Option Nat

/--
What a task does, and how far it has come. Ticks are instants in nanoseconds,
all other times are milliseconds of the clock.
-/
inductive Activity
  | sweeper (tick : Option Nat)
  | saver (partition : Partition) (tick : Option Nat)
  | writer (phase : Phase)
  | deletion (key : String) (awaited : Option Awaited)
  | shutdown (stage : Closing)
  | opening (state : Container.Opening) (phase : Phase)
  | writing (job : Job) (phase : Phase)
  | draining (phase : Phase)
  | erasing (key : String) (attempt : UInt32) (phase : Phase)
  | adding (due : Nat) (sketch : SketchId) (hash : UInt32)
  | sleeping (due : Nat)
  | joining (task : TaskId)

/-- Tasks that a container starts for itself. -/
def Activity.isBackground : Activity → Bool
  | sweeper _ | saver _ _ | writer _ => true
  | _ => false

/-- Calls of a client, which keep their container from being dropped. -/
def Activity.isClient : Activity → Bool
  | deletion _ _ | shutdown _ => true
  | _ => false

/-- What a task ends with. -/
inductive Reply
  | done
  | flag (b : Bool)
  | count (n : Nat)
  | failed (error : Error)

structure Task where
  home : Home
  activity : Activity
  reply : Option Reply := none

structure World where
  clock : Clock := {}
  /-- The time of day in epoch seconds. -/
  wall : UInt64 := 0
  link : Link := {}
  /-- The calls since the last look at them, the latest first. -/
  calls : List Call := []
  containers : Array Container := #[]
  /-- The container that the script has open. -/
  current : Option Home := none
  tasks : Array Task := #[]
  ready : Queue TaskId := {}
  running : Option TaskId := none
  /-- How often in its turn the running task has found what it might have had to wait for. -/
  progress : Nat := 0
  /-- The tasks that gave way, the latest first, which is the order in which they go on. -/
  gaveWay : List TaskId := []
  /-- The turns that are left in this round. -/
  turns : Nat := 0
  /-- The task that the script waits for. -/
  script : Option TaskId := none

namespace World

/-- A container for places where none is. -/
def nowhere : Container := .create {} false

def container (w : World) (home : Home) : Container :=
  w.containers.getD home nowhere

def put (w : World) (home : Home) (c : Container) : World :=
  { w with containers := w.containers.setIfInBounds home c }

def found (w : World) (c : Container) : Home × World :=
  (w.containers.size, { w with containers := w.containers.push c })

def isFinished (w : World) (t : TaskId) : Bool :=
  w.tasks[t]?.all (·.reply.isSome)

def reply? (w : World) (t : TaskId) : Option Reply :=
  w.tasks[t]?.bind (·.reply)

def wake (w : World) (t : TaskId) : World :=
  if w.running = some t || w.ready.items.contains t || w.gaveWay.contains t || w.isFinished t then w
  else { w with ready := w.ready.push t }

/-- Wakes the tasks with a property, in the order in which they were started. -/
def wakeAll (w : World) (p : Task → Bool) : World :=
  (List.range w.tasks.size).foldl (fun w t => if w.tasks[t]?.any p then w.wake t else w) w

/-- Wakes the tasks of a container that have one of the activities. -/
def wakeAt (w : World) (home : Home) (p : Activity → Bool) : World :=
  w.wakeAll fun task => task.home == home && p task.activity

def start (w : World) (home : Home) (activity : Activity) : TaskId × World :=
  let t := w.tasks.size
  (t, { w with tasks := w.tasks.push { home, activity }, ready := w.ready.push t })

def stop (w : World) (home : Home) : World :=
  (w.put home (w.container home).tellToStop).wakeAt home (·.isBackground)

/-- Stops a container that neither the script nor a client call holds any more. -/
def release (w : World) (home : Home) : World :=
  let held := w.tasks.any fun task =>
    task.home == home && task.activity.isClient && task.reply.isNone
  if w.current = some home || held then w else w.stop home

/-- The container is let go by the script. -/
def drop (w : World) : World :=
  match w.current with
  | none => w
  | some home => { w with current := none }.release home

def isQuiet (w : World) (home : Home) : Bool :=
  w.tasks.all fun task =>
    task.home != home || !task.activity.isBackground || task.reply.isSome

def sleepUntil (w : World) (t : TaskId) (due : Nat) : World :=
  { w with clock := w.clock.arm t due }

/-- How often in one turn a task may find what it might have had to wait for. -/
def allowance : Nat := 128

/-- The running task has to give way before it waits for anything more. -/
def isSpent (w : World) : Bool :=
  allowance ≤ w.progress

/-- The running task has found what it might have had to wait for. -/
def goOn (w : World) : World :=
  { w with progress := w.progress + 1 }

/-- A task lets the others have their turns before it goes on. -/
def giveWay (w : World) (t : TaskId) : World :=
  { w with gaveWay := t :: w.gaveWay }

/-- The turns of a round. -/
def roundLength : Nat := 61

/-- Sleeps until a time: `ok` when it has come, `error` when the task has to wait. -/
def sleep (w : World) (t : TaskId) (due : Nat) : Except World World :=
  if w.isSpent then .error (w.giveWay t)
  else if due ≤ w.clock.now then .ok w.goOn
  else .error (w.sleepUntil t due)

def perform (w : World) (request : Request) : World × Backend.Answer :=
  let (backend, answer) := w.link.backend.perform request
  ({ w with
      link := { w.link with backend }
      calls := { time := w.clock.now, request, answer } :: w.calls }, answer)

/-- Carries out a call that is under way once its time has come. -/
def arrive (w : World) (t : TaskId) (due : Nat) (request : Request) :
    World × Except Phase Backend.Answer :=
  match w.sleep t due with
  | .error w => (w, .error (.calling due))
  | .ok w =>
    let (w, answer) := w.perform request
    (w, .ok answer)

/-- Calls the backend, or sets out to when there is a latency that has to pass first. -/
def dispatch (w : World) (t : TaskId) (request : Request) : World × Except Phase Backend.Answer :=
  if w.link.latency = 0 then
    let (w, answer) := w.perform request
    (w, .ok answer)
  else w.arrive t (w.clock.wakeAfter w.link.latency) request

/-- Goes on with a call from its phase: a phase to wait in, or the answer. -/
def converse (w : World) (t : TaskId) (phase : Phase) (request : Request) :
    World × Except Phase Backend.Answer :=
  match phase with
  | .ready => w.dispatch t request
  | .resting due =>
    match w.sleep t due with
    | .error w => (w, .error phase)
    | .ok w => w.dispatch t request
  | .calling due => w.arrive t due request

/-- The pause before the next call. -/
def rest (w : World) (pause : Duration) : Phase :=
  .resting (w.clock.wakeAfter (toMillis pause.toNanos))

end World

end DistinctCount.Schedule
