import DistinctCount.Duration

/-!
A clock that counts whole milliseconds and moves only when every task waits. Lengths of time are
exact to the nanosecond and a task wakes at the first millisecond that is not before its time.
-/

namespace DistinctCount.Schedule

abbrev TaskId := Nat

def nanosPerMilli : Nat := 1000000

/-- The first millisecond that is not before an instant in nanoseconds. -/
def toMillis (instant : Nat) : Nat :=
  (instant + (nanosPerMilli - 1)) / nanosPerMilli

/-- The end of the instants that can be told apart, in nanoseconds. -/
def lastInstant : Nat := 0x7fffffffffffffff * 1000000000

/-- Thirty years in milliseconds: no sleep lasts longer, nor does a period after its first tick. -/
def longestSleep : Nat := 30 * 365 * 86400 * 1000

/-- The tick after a tick, both in nanoseconds: a period later, but at most the longest sleep. -/
def nextTick (tick : Nat) (period : Duration) : Nat :=
  tick + Nat.min period.toNanos (longestSleep * nanosPerMilli)

structure Timer where
  due : Nat
  task : TaskId

/-- The timers in the order in which they were armed, at most one for each task. -/
structure Clock where
  now : Nat := 0
  timers : List Timer := []

namespace Clock

/-- The instant, in nanoseconds, after a length of time. -/
def after? (c : Clock) (d : Duration) : Option Nat :=
  let instant := c.now * nanosPerMilli + d.toNanos
  if instant < lastInstant then some instant else none

/-- The millisecond at which a task that now goes to sleep for some milliseconds wakes. -/
def wakeAfter (c : Clock) (millis : Nat) : Nat :=
  c.now + Nat.min millis longestSleep

/-- The millisecond at which a task that now begins to wait gives up, or never. -/
def deadline? (c : Clock) (patience : Duration) : Option Nat :=
  (c.after? patience).map toMillis

def isArmed (c : Clock) (task : TaskId) : Bool :=
  c.timers.any (·.task == task)

/-- Arms the timer of a task unless it is armed. -/
def arm (c : Clock) (task : TaskId) (due : Nat) : Clock :=
  if c.isArmed task then c else { c with timers := c.timers ++ [{ due, task }] }

def disarm (c : Clock) (task : TaskId) : Clock :=
  { c with timers := c.timers.filter (·.task != task) }

/-- Moves to the earliest timer and answers the tasks that wake then. -/
def jump? (c : Clock) : Option (List TaskId × Clock) :=
  (c.timers.map (·.due)).min?.map fun due =>
    let now := Nat.max c.now due
    let (fired, timers) := c.timers.partition (·.due ≤ now)
    (fired.map (·.task), { now, timers })

end Clock

end DistinctCount.Schedule
