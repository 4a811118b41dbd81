import DistinctCount.Config.Retry
import DistinctCount.Registry.Basic
import DistinctCount.WriteBack.Queue

/-!
The sketches that the backend does not have yet wait in eight queues. A sketch is pushed by the
mutation that takes its pending count from 0 to 1, and by a write that leaves mutations behind.
-/

namespace DistinctCount

/-- The shards are spread over eight queues. -/
abbrev Partition := Fin 8

def partitionOf (shard : Nat) : Partition :=
  ⟨shard % 8, Nat.mod_lt _ (by decide)⟩

/-- The entries of all partitions with another one for `p`. -/
def assign {α : Type} (entries : Vector α 8) (p : Partition) (a : α) : Vector α 8 :=
  entries.set p a p.isLt

structure WriteBack extends Registry where
  queues : Vector (Queue SketchId) 8 := Vector.replicate 8 {}
  retry : RetryPolicy

namespace WriteBack

def edit (w : WriteBack) (id : SketchId) (f : Sketch → Sketch) : WriteBack :=
  { w with toRegistry := w.toRegistry.modify id f }

def editQueue (w : WriteBack) (p : Partition) (f : Queue SketchId → Queue SketchId) : WriteBack :=
  { w with queues := assign w.queues p (f (w.queues.get p)) }

/-- Pushes a sketch onto the queue of its shard. -/
def enqueue (w : WriteBack) (id : SketchId) : WriteBack :=
  w.editQueue (partitionOf (w.sketch id).shard) (·.push id)

/-- Counts a mutation of a sketch and pushes the sketch if it is the first one. -/
def schedule (w : WriteBack) (id : SketchId) : WriteBack :=
  let w := w.edit id Sketch.markDirty
  if (w.sketch id).pending = 1 then w.enqueue id else w

def waiting (w : WriteBack) : Nat :=
  w.queues.foldl (fun n queue => n + queue.size) 0

end WriteBack

end DistinctCount
