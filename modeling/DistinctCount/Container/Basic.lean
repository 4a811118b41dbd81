import DistinctCount.Config.Basic
import DistinctCount.Container.Channel
import DistinctCount.Expiry.Index
import DistinctCount.WriteBack.Drain

namespace DistinctCount

structure Entry where
  shard : Nat
  sketch : SketchId

/-- The task that moves the sketches of one queue to the writer. -/
structure Saver where
  /-- Sketches taken from the queue and not sent yet. -/
  held : List SketchId := []
  running : Bool := true

/--
A registry of sketches with expiry and, if it is persistent, write-back to a backend. The state
covers what its background tasks hold in their hands, so that each of their moves is a function on it.
-/
structure Container extends WriteBack where
  config : Config
  persistent : Bool
  expiry : Expiry.Index Entry := {}
  savers : Vector Saver 8 := Vector.replicate 8 {}
  channel : Channel := { capacity := config.channelCapacity }
  /-- The write in the hands of the writer. -/
  job : Option Job := none
  /-- The final drain and the write in its hands. -/
  drain : Option (Drain × Option Job) := none
  /-- The container has been shut down. -/
  closed : Bool := false
  /-- The background tasks have been told to end. -/
  stopping : Bool := false
  nextTicket : Ticket := 0
  /-- What the callers who wait for a deletion have been told. -/
  notices : List Notice := []

namespace Container

def create (config : Config) (persistent : Bool) : Container :=
  { config, persistent, shards := .ofCount config.shardCount config.hashing, retry := config.retry }

/-- Applies a change of the write-back. -/
def alter (c : Container) (f : WriteBack → WriteBack) : Container :=
  { c with toWriteBack := f c.toWriteBack }

/-- Applies a change that tells waiting callers something. -/
def inform (c : Container) (w : WriteBack) (notices : List Notice) : Container :=
  { c with toWriteBack := w, notices := c.notices ++ notices }

def notice? (c : Container) (ticket : Ticket) : Option Confirmation :=
  c.notices.lookup ticket

/-- The sketch is on its way to the backend. -/
def inPipeline (c : Container) (id : SketchId) : Bool :=
  c.queues.toList.any (·.items.contains id) ||
    c.savers.toList.any (·.held.contains id) ||
    c.channel.buffer.items.contains id ||
    c.job.any (·.sketch == id) ||
    c.drain.any fun (drain, job) => drain.batch.contains id || job.any (·.sketch == id)

def pendingWrites (c : Container) : Nat :=
  c.waiting

end Container

end DistinctCount
