import DistinctCount.WriteBack.Basic

/-!
The places between the savers and the writer. A saver that finds none free waits in line, and a place
that falls free is given to the first in line, who alone may use it.
-/

namespace DistinctCount

structure Channel where
  capacity : Nat
  buffer : Queue SketchId := {}
  /-- Savers that wait for a place, the first to come first. -/
  line : List Partition := []
  /-- Savers to whom a place was given that they have not used yet. -/
  granted : List Partition := []

namespace Channel

def isFull (c : Channel) : Bool :=
  c.capacity ≤ c.buffer.size + c.granted.length

/-- Sends a sketch on behalf of a saver that may use a place, or `none` when it has to wait. -/
def send? (c : Channel) (p : Partition) (id : SketchId) : Option Channel :=
  if c.granted.contains p then
    some { c with granted := c.granted.erase p, buffer := c.buffer.push id }
  else if c.isFull then none
  else some { c with buffer := c.buffer.push id }

/-- Puts a saver at the end of the line unless it stands there. -/
def wait (c : Channel) (p : Partition) : Channel :=
  if c.line.contains p then c else { c with line := c.line ++ [p] }

/-- Gives a free place to the first in line and answers who that is. -/
def grant (c : Channel) : Option Partition × Channel :=
  match c.line with
  | p :: line =>
    if c.isFull then (none, c) else (some p, { c with line, granted := c.granted ++ [p] })
  | [] => (none, c)

/-- Takes the oldest sketch; its place is free at once. -/
def receive? (c : Channel) : Option (SketchId × Option Partition × Channel) :=
  match c.buffer.items with
  | id :: items =>
    let (granted, c) := grant { c with buffer := { items } }
    some (id, granted, c)
  | [] => none

/-- Takes a saver out of the line and takes back a place it was given. -/
def leave (c : Channel) (p : Partition) : Channel :=
  { c with line := c.line.erase p, granted := c.granted.erase p }

end Channel

end DistinctCount
