import DistinctCount.Schedule.World

namespace DistinctCount.Schedule

/-- The end of a move: the task goes on, waits to be woken, or has ended. -/
inductive Turn
  | again (world : World) (activity : Activity)
  | wait (world : World) (activity : Activity)
  | finish (world : World) (reply : Reply)

namespace World

/-- The first tick of a period that begins now. -/
def firstTick? (w : World) (period : Duration) : Option Nat :=
  w.clock.after? period

def hasCome (w : World) (instant : Nat) : Bool :=
  toMillis instant ≤ w.clock.now

def sleepUntilInstant (w : World) (t : TaskId) (instant : Nat) : World :=
  w.sleepUntil t (toMillis instant)

def sweeperTurn (w : World) (t : TaskId) (home : Home) (tick : Option Nat) : Turn :=
  let c := w.container home
  match tick with
  | none =>
    match w.firstTick? c.config.sweepInterval with
    | none => .finish w .done
    | some tick => .again w (.sweeper (some tick))
  | some tick =>
    if w.isSpent then .wait (w.giveWay t) (.sweeper (some tick))
    else if c.stopping then .finish w .done
    else if w.hasCome tick then
      let (_, c) := c.sweep w.wall
      .again (w.goOn.put home c) (.sweeper (some (nextTick tick c.config.sweepInterval)))
    else .wait (w.sleepUntilInstant t tick) (.sweeper (some tick))

/-- A saver ends; the writer learns of it in case it was the last. -/
def saverEnd (w : World) (home : Home) (p : Partition) : Turn :=
  let w := w.put home ((w.container home).saverStop p)
  .finish (w.wakeAt home fun | .writer _ => true | _ => false) .done

def saverTurn (w : World) (t : TaskId) (home : Home) (p : Partition) (tick : Option Nat) : Turn :=
  let c := w.container home
  match tick with
  | none =>
    match w.firstTick? c.config.saveInterval with
    | none => w.saverEnd home p
    | some tick => .again w (.saver p (some tick))
  | some tick =>
    if w.isSpent then .wait (w.giveWay t) (.saver p (some tick))
    else if c.stopping then w.saverEnd home p
    else if (c.savers.get p).held.isEmpty then
      if w.hasCome tick then
        .again (w.goOn.put home (c.saverTake p))
          (.saver p (some (nextTick tick c.config.saveInterval)))
      else .wait (w.sleepUntilInstant t tick) (.saver p (some tick))
    else
      match c.saverSend? p with
      | some c =>
        .again ((w.goOn.put home c).wakeAt home fun | .writer _ => true | _ => false)
          (.saver p (some tick))
      | none => .wait (w.put home (c.saverWait p)) (.saver p (some tick))

/-- Wakes the callers of a container who have been told something. -/
def wakeInformed (w : World) (home : Home) : World :=
  let c := w.container home
  w.wakeAt home fun
    | .deletion _ (some awaited) => (c.notice? awaited.ticket).isSome
    | _ => false

/--
Goes on with a write by its current call: `proceed` makes the move that the answer allows,
`resume` is the activity while the write lasts and `finished` what follows its end.
-/
def jobTurn (w : World) (t : TaskId) (home : Home) (phase : Phase) (job : Job)
    (proceed : Container → Backend.Answer → Progress × Container)
    (resume : Job → Phase → Activity) (finished : World → Turn) : Turn :=
  match w.converse t phase job.request with
  | (w, .error phase) => .wait w (resume job phase)
  | (w, .ok answer) =>
    let (progress, c) := proceed (w.container home) answer
    let w := (w.put home c).wakeInformed home
    match progress with
    | .call job => .again w (resume job .ready)
    | .pause pause job =>
      .again w (resume job (w.rest pause))
    | .done => finished w

def writerTurn (w : World) (t : TaskId) (home : Home) (phase : Phase) : Turn :=
  let c := w.container home
  match c.job with
  | some job =>
    w.jobTurn t home phase job (fun c answer => c.writerProceed job answer)
      (fun _ phase => .writer phase) fun w => .again w (.writer .ready)
  | none =>
    if w.isSpent then .wait (w.giveWay t) (.writer .ready)
    else
      match c.writerTake? with
      | some (granted, c) =>
        let w := (w.goOn.put home c).wakeAt home fun
          | .saver p _ => granted == some p
          | _ => false
        .again w (.writer .ready)
      | none =>
        if c.stopping && c.channel.granted.isEmpty || !c.saversRunning then .finish w .done
        else .wait w (.writer .ready)

def deletionTurn (w : World) (t : TaskId) (home : Home) (key : String)
    (awaited : Option Awaited) : Turn :=
  let c := w.container home
  let timeout := c.config.deleteTimeout
  match awaited with
  | none =>
    let (removal, c) := c.beginDelete key
    let w := w.put home c
    match removal with
    | .refused => .finish w (.failed (.deleteAborted key))
    | .unknown => .finish w (.flag false)
    | .removed => .finish w (.flag true)
    | .waiting ticket =>
      .again w (.deletion key (some { ticket, deadline := w.clock.deadline? timeout }))
  | some { ticket, deadline } =>
    match c.notice? ticket with
    | some .confirmed => .finish w (.flag true)
    | some (.failed e) => .finish w (.failed (.backend e))
    | some .dropped => .finish w (.failed (.deleteAborted key))
    | none =>
      match deadline with
      | none => .wait w (.deletion key awaited)
      | some due =>
        if due ≤ w.clock.now then .finish w (.failed (.deleteTimeout key timeout))
        else .wait (w.sleepUntil t due) (.deletion key awaited)

/-- Goes on with a drain; `finished` says what follows its end. -/
def drainTurn (w : World) (t : TaskId) (home : Home) (phase : Phase) (resume : Phase → Activity)
    (finished : World → Nat → Turn) : Turn :=
  let c := w.container home
  match c.drain with
  | some (drain, some job) =>
    w.jobTurn t home phase job (fun c answer => c.drainProceed drain job answer)
      (fun _ phase => resume phase) fun w => .again w (resume .ready)
  | some (drain, none) =>
    match c.drainAdvance drain with
    | (none, c) => .again (w.put home c) (resume .ready)
    | (some written, c) => finished (w.put home c) written
  | none => .again (w.put home c.beginDrain) (resume .ready)

def shutdownTurn (w : World) (t : TaskId) (home : Home) (stage : Closing) : Turn :=
  let c := w.container home
  match stage with
  | .begin =>
    if c.closed then .finish w .done
    else .again ((w.put home c.close).stop home) (.shutdown .joining)
  | .joining =>
    if !w.isQuiet home then .wait w (.shutdown .joining)
    else if c.persistent then .again w (.shutdown (.draining .ready))
    else .finish w .done
  | .draining phase =>
    w.drainTurn t home phase (fun phase => .shutdown (.draining phase)) fun w _ =>
      .again w (.shutdown (.stopping .ready))
  | .stopping phase =>
    match w.converse t phase .flushAndStop with
    | (w, .error phase) => .wait w (.shutdown (.stopping phase))
    | (w, .ok (.ok ())) => .finish w .done
    | (w, .ok (.error e)) => .finish w (.failed (.backend e))

def openingTurn (w : World) (t : TaskId) (home : Home) (state : Container.Opening)
    (phase : Phase) : Turn :=
  match state.request? with
  | none => .finish (w.put home state.container) .done
  | some request =>
    match w.converse t phase request with
    | (w, .error phase) => .wait w (.opening state phase)
    | (w, .ok answer) =>
      match state.proceed answer with
      | (none, state) => .again w (.opening state .ready)
      | (some pause, state) => .again w (.opening state (w.rest pause))

def erasingTurn (w : World) (t : TaskId) (home : Home) (key : String) (attempt : UInt32)
    (phase : Phase) : Turn :=
  match w.converse t phase (.delete key) with
  | (w, .error phase) => .wait w (.erasing key attempt phase)
  | (w, .ok answer) =>
    match (w.container home).retry.judge attempt answer with
    | .again pause => .again w (.erasing key (attempt + 1) (w.rest pause))
    | .finish (.ok ()) => .finish w .done
    | .finish (.error e) => .finish w (.failed (.backend e))

/-- One move of a task. -/
def turn (w : World) (t : TaskId) (task : Task) : Turn :=
  let home := task.home
  match task.activity with
  | .sweeper tick => w.sweeperTurn t home tick
  | .saver p tick => w.saverTurn t home p tick
  | .writer phase => w.writerTurn t home phase
  | .deletion key awaited => w.deletionTurn t home key awaited
  | .shutdown stage => w.shutdownTurn t home stage
  | .opening state phase => w.openingTurn t home state phase
  | .writing job phase =>
    w.jobTurn t home phase job (fun c answer => c.proceedAlone job answer) .writing
      fun w => .finish w .done
  | .draining phase =>
    w.drainTurn t home phase .draining fun w written => .finish w (.count written)
  | .erasing key attempt phase => w.erasingTurn t home key attempt phase
  | .adding due id h =>
    if due ≤ w.clock.now then
      let c := (w.container home).alter (·.edit id fun s => (s.addHash h).1)
      .finish (w.put home c) .done
    else .wait (w.sleepUntil t due) task.activity
  | .sleeping due =>
    if due ≤ w.clock.now then .finish w .done else .wait (w.sleepUntil t due) task.activity
  | .joining other =>
    if w.isFinished other then .finish w ((w.reply? other).getD .done) else .wait w task.activity

end World

end DistinctCount.Schedule
