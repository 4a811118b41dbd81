import DistinctCount.Schedule.Turn

namespace DistinctCount.Schedule.World

/-- A task has ended: those who wait for it are woken, and its container may be let go. -/
def finish (w : World) (t : TaskId) (task : Task) (reply : Reply) : World :=
  let w := { w with
    tasks := w.tasks.setIfInBounds t { task with reply := some reply }
    clock := w.clock.disarm t
    running := none
    script := if w.script = some t then none else w.script }
  let w := w.wakeAll fun other =>
    match other.activity with
    | .joining awaited => awaited == t
    | .shutdown .joining => other.home == task.home
    | _ => false
  if task.activity.isClient then w.release task.home else w

def beginTurn (w : World) (t : TaskId) : World :=
  { w with running := some t, progress := 0, ready := { items := w.ready.items.erase t } }

/--
A round begins if a task is ready, with the script's own. Those that gave way in the last round
stand behind the others.
-/
def beginRound? (w : World) : Option World :=
  let ready := w.ready.items ++ w.gaveWay
  if ready.isEmpty then none
  else
    let w := { w with ready := { items := ready }, gaveWay := [], turns := roundLength }
    match w.script.filter ready.contains with
    | some t => some (w.beginTurn t)
    | none => some w

/-- The next turn of the round, or the next round. -/
def pick? (w : World) : Option World :=
  match w.turns, w.ready.items.find? (w.script != some ·) with
  | turns + 1, some t => some { w.beginTurn t with turns }
  | _, _ => w.beginRound?

/-- The next step: the running task moves, another gets its turn, or the clock jumps. -/
def next? (w : World) : Option World :=
  match w.running with
  | some t =>
    match w.tasks[t]? with
    | none => some { w with running := none }
    | some task =>
      match w.turn t task with
      | .again w activity => some { w with tasks := w.tasks.setIfInBounds t { task with activity } }
      | .wait w activity =>
        some { w with tasks := w.tasks.setIfInBounds t { task with activity }, running := none }
      | .finish w reply => some (w.finish t task reply)
  | none =>
    match w.pick? with
    | some w => some w
    | none =>
      if w.script.isNone then none
      else (w.clock.jump?).map fun (fired, clock) =>
        fired.foldl (fun w t => w.wake t) { w with clock, turns := 0 }

/-- Takes steps until the script waits for nothing and no task can go on, at most `fuel` of them. -/
def run : Nat → World → World
  | 0, w => w
  | fuel + 1, w =>
    match w.next? with
    | some w => run fuel w
    | none => w

/-- More steps than any script needs that comes to an end. -/
def enough : Nat := 1000000000000000

def settle (w : World) : World :=
  run enough { w with turns := 0 }

/-- The script waits for a task of its own to end. -/
def call (w : World) (home : Home) (activity : Activity) : Option Reply × World :=
  let (t, w) := w.start home activity
  let w := run enough { w with script := some t, turns := 0 }
  (w.reply? t, w)

/-- The script does nothing for some milliseconds. -/
def advance (w : World) (millis : Nat) : World :=
  (w.call 0 (.sleeping (w.clock.wakeAfter millis))).2

def background (persistent : Bool) : List Activity :=
  .sweeper none ::
    if persistent then (List.finRange 8).map (fun p => .saver p none) ++ [.writer .ready] else []

/-- The records that a scan yields, or the failure that breaks it off. -/
def scanned (w : World) : Except BackendError (List (String × Record)) :=
  let records := w.link.backend.scan
  match w.link.scanLimit with
  | some limit =>
    if limit < records.length then .error (.unavailable "scan failure") else .ok records
  | none => .ok records

/-- Restores a container and puts it at a place. -/
def restore (w : World) (home : Home) (config : Config) : Except Error World :=
  match w.scanned with
  | .error e => .error (.backend e)
  | .ok records =>
    let state := Container.beginOpen config w.wall records
    .ok (w.call home (.opening state .ready)).2

/-- The script opens a container in place of the one it has open. -/
def openContainer (w : World) (config : Config) (persistent : Bool) :
    Except Error Unit × World :=
  let w := w.drop
  match config.validate with
  | .error problem => (.error (.config problem), w)
  | .ok () =>
    let (home, w) := w.found (.create config persistent)
    match if persistent then w.restore home config else .ok w with
    | .error e => (.error e, w)
    | .ok w =>
      let w := (background persistent).foldl (fun w activity => (w.start home activity).2) w
      (.ok (), { w with current := some home })

def write (w : World) (home : Home) (id : SketchId) : World :=
  (w.call home (.writing ((w.container home).begin id) .ready)).2

/-- The script writes a sketch while another task counts a hash in it some milliseconds later. -/
def writeWhileAdding (w : World) (home : Home) (id : SketchId) (hash : UInt32) (millis : Nat) :
    World :=
  let (adding, w) := w.start home (.adding (w.clock.wakeAfter millis) id hash)
  ((w.write home id).call home (.joining adding)).2

/-- The calls since the last look at them, in order, which are forgotten. -/
def takeCalls (w : World) : List Call × World :=
  (w.calls.reverse, { w with calls := [] })

def pendingWrites (w : World) : Nat :=
  match w.current with
  | some home => (w.container home).pendingWrites
  | none => 0

end DistinctCount.Schedule.World
