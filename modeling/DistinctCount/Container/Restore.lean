import DistinctCount.Container.Client

/-!
A persistent container begins with the records of its backend. Records that have expired are deleted
once all others are read; records that do not decode are left alone.
-/

namespace DistinctCount.Container

/-- Takes over one record, or notes its key for deletion if the record has expired. -/
def restoreRecord (now : UInt64) (state : Container × List String) (key : String)
    (record : Record) : Container × List String :=
  let (c, expired) := state
  if record.expiresAt ≠ 0 ∧ record.expiresAt ≤ now then (c, expired ++ [key])
  else
    let shard := c.shardOf key
    match Sketch.ofBytes key shard record.expiresAt record.data with
    | .error _ => (c, expired)
    | .ok sketch =>
      let (id, r) := c.toRegistry.make sketch
      ({ c with toRegistry := r.insert shard id }.registerExpiry id, expired)

def restore (c : Container) (now : UInt64) (records : List (String × Record)) :
    Container × List String :=
  records.foldl (fun state (key, record) => restoreRecord now state key record) (c, [])

/-- Leaves the deletion of a record to the write-back, with a deleted sketch in its place. -/
def deferDelete (c : Container) (key : String) : Container :=
  let (id, r) := c.toRegistry.make { key, shard := c.shardOf key, expiresAt := 0, deleted := true }
  { c with toRegistry := r }.alter (·.schedule id)

/-- A container that is being opened: the expired records are deleted one after the other. -/
structure Opening where
  container : Container
  expired : List String
  /-- The number of the next call for the first of them. -/
  attempt : UInt32 := 1

def beginOpen (config : Config) (now : UInt64) (records : List (String × Record)) : Opening :=
  let (container, expired) := (create config true).restore now records
  { container, expired }

/-- The next call, unless all expired records are dealt with. -/
def Opening.request? (o : Opening) : Option Request :=
  o.expired.head?.map .delete

/-- Goes on after an answer to the call, possibly after a pause. -/
def Opening.proceed (o : Opening) (answer : Backend.Answer) : Option Duration × Opening :=
  match o.container.retry.judge o.attempt answer, o.expired with
  | .again pause, _ => (some pause, { o with attempt := o.attempt + 1 })
  | .finish (.error _), key :: expired =>
    (none, { container := o.container.deferDelete key, expired })
  | .finish _, expired => (none, { o with expired := expired.tail, attempt := 1 })

end DistinctCount.Container
