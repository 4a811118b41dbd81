import DistinctCount.WriteBack.Job

/-!
The last writes before the backend is stopped: the queues are emptied one after the other, in at most
four passes, as long as the pass before found something.
-/

namespace DistinctCount

structure Drain where
  /-- The passes that are left, the present one included. -/
  passes : Nat := 4
  /-- The next queue of this pass. -/
  queue : Nat := 0
  /-- Sketches taken from the queue before it and not written yet. -/
  batch : List SketchId := []
  /-- This pass has found a sketch. -/
  progressed : Bool := false
  written : Nat := 0

inductive Drain.Step
  | write (id : SketchId) (drain : Drain)
  | advance (writeBack : WriteBack) (drain : Drain)
  | finished (written : Nat)

def WriteBack.drainStep (w : WriteBack) (d : Drain) : Drain.Step :=
  match d.batch with
  | id :: batch => .write id { d with batch }
  | [] =>
    if h : d.queue < 8 then
      let batch := w.queues[d.queue].items
      .advance (w.editQueue ⟨d.queue, h⟩ fun _ => {})
        { d with
          queue := d.queue + 1
          batch
          progressed := d.progressed || !batch.isEmpty
          written := d.written + batch.length }
    else if d.progressed && 1 < d.passes then
      .advance w { d with passes := d.passes - 1, queue := 0, progressed := false }
    else
      .finished d.written

end DistinctCount
