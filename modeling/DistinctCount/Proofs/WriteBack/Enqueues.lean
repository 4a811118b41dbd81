import DistinctCount.Proofs.WriteBack.Succeeded

namespace DistinctCount

/-- The pushes onto the queues in order, each with the partition of its queue. -/
abbrev Pushes := List (Partition × SketchId)

namespace Pushes

variable {log log' : Pushes} {p : Partition} {id : SketchId}

def onto (p : Partition) (log : Pushes) : List SketchId :=
  (log.filter (·.1 = p)).map (·.2)

def sketches (log : Pushes) : List SketchId :=
  log.map (·.2)

@[simp] theorem onto_nil : onto p [] = [] := rfl

@[simp] theorem onto_append : onto p (log ++ log') = onto p log ++ onto p log' := by
  rw [onto, List.filter_append, List.map_append]
  rfl

theorem onto_singleton (p q : Partition) (id : SketchId) :
    onto p [(q, id)] = if q = p then [id] else [] := by
  rw [onto, List.filter_singleton]
  by_cases hq : q = p <;> simp [hq]

@[simp] theorem sketches_append : sketches (log ++ log') = log.sketches ++ log'.sketches :=
  List.map_append

end Pushes

namespace WriteBack

variable {w w' w'' : WriteBack} {log log' : Pushes} {p : Partition} {job : Job}
  {answer : Backend.Answer} {progress : Progress} {notices : List Notice}

/-- A change that does nothing to the queues but push the sketches of the log, one after the other. -/
inductive Enqueues : WriteBack → Pushes → WriteBack → Prop
  | still {w w' : WriteBack} (queues : w'.queues = w.queues) : Enqueues w [] w'
  | push (w : WriteBack) (id : SketchId) :
      Enqueues w [(partitionOf (w.sketch id).shard, id)] (w.enqueue id)
  | trans {w w' w'' : WriteBack} {log log' : Pushes} (first : Enqueues w log w')
      (rest : Enqueues w' log' w'') : Enqueues w (log ++ log') w''

theorem Enqueues.items (h : Enqueues w log w') (p : Partition) :
    (w'.queues.get p).items = (w.queues.get p).items ++ log.onto p := by
  induction h with
  | still queues => rw [queues, Pushes.onto_nil, List.append_nil]
  | push w id =>
    rw [enqueue, queues_editQueue, Pushes.onto_singleton]
    split
    · rename_i hp
      rw [if_pos hp.symm, hp, Queue.push]
    · rename_i hp
      rw [if_neg (Ne.symm hp), List.append_nil]
  | trans _ _ ih ih' => rw [ih', ih, Pushes.onto_append, List.append_assoc]

theorem enqueues_edit (w : WriteBack) (id : SketchId) (f : Sketch → Sketch) :
    Enqueues w [] (w.edit id f) :=
  .still rfl

theorem enqueues_schedule (w : WriteBack) (id : SketchId) :
    Enqueues w (if ((w.edit id Sketch.markDirty).sketch id).pending = 1 then
      [(partitionOf ((w.edit id Sketch.markDirty).sketch id).shard, id)] else []) (w.schedule id) := by
  unfold schedule
  dsimp only
  split
  · exact (enqueues_edit w id _).trans (.push _ id)
  · exact enqueues_edit w id _

theorem enqueues_renewed (w : WriteBack) (id : SketchId) : ∃ log, Enqueues w log (w.renewed id) := by
  unfold renewed
  split
  · exact ⟨_, enqueues_schedule w _⟩
  · exact ⟨[], .still rfl⟩

/-- A sketch is pushed again if a successful write has left mutations behind. -/
theorem enqueues_flushed (w : WriteBack) (job : Job) :
    Enqueues w (if 0 < ((w.edit job.sketch (·.markFlushed job.pending)).sketch job.sketch).pending then
      [(partitionOf ((w.edit job.sketch (·.markFlushed job.pending)).sketch job.sketch).shard,
        job.sketch)] else []) (w.flushed job) := by
  unfold flushed settle
  dsimp only
  split
  · exact (enqueues_edit w job.sketch _).trans (.push _ job.sketch)
  · exact enqueues_edit w job.sketch _

theorem Outcome.enqueues (h : Outcome w job answer w' progress notices) :
    ∃ log, Enqueues w log w' := by
  cases h with
  | pause => exact ⟨[], .still rfl⟩
  | flush => exact ⟨[], enqueues_edit w job.sketch _⟩
  | updated => exact ⟨_, enqueues_flushed w job⟩
  | deleted | confirmed =>
    obtain ⟨log, hrenewed⟩ := enqueues_renewed w job.sketch
    exact ⟨_, hrenewed.trans (enqueues_flushed _ job)⟩
  | postponed e error told w₁ left =>
    rcases left with ⟨rfl, -⟩ | ⟨rfl, -⟩
    · exact ⟨_, .push _ job.sketch⟩
    · exact ⟨_, (enqueues_edit w job.sketch _).trans (.push _ job.sketch)⟩
  | abandoned => exact ⟨[], enqueues_edit w job.sketch _⟩

end WriteBack

end DistinctCount
