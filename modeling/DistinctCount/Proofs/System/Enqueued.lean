import DistinctCount.Proofs.Container.Mutates
import DistinctCount.Proofs.System.Step

namespace DistinctCount

open Container

def Event.mutations (c : Container) (id : SketchId) : Event → Nat
  | .add _ key value _ =>
    if c.get? key = some id then
      (c.sketch id).raisings (Sketch.hashesOf c.config.hashing value.toList) else 0
  | .addMany _ key values _ =>
    if c.get? key = some id then
      (c.sketch id).raisings (Sketch.hashesOf c.config.hashing values) else 0
  | .updateExpiry _ key _ =>
    if c.get? key = some id ∧ (c.sketch id).deleted = false ∧ c.persistent = true then 1 else 0
  | .delete key => if c.get? key = some id ∧ c.closed = false ∧ c.persistent = true then 1 else 0
  | .sweep now => c.deaths (c.sweep now).2 id
  | _ => 0

def Event.moves : Event → Bool
  | .saverTake _ | .saverStop _ | .drainAdvance => true
  | _ => false

namespace System

variable {s s' : System} {e : Event} {h : List Moment} {log : Pushes} {p : Partition}

/-- What a client does counts mutations and pushes sketches, and leaves the tasks alone. -/
theorem mutates_applied (c : Container) (e : Event) :
    Mutates (fun id => e.mutations c id) c (e.applied c) := by
  cases e with
  | add now key value ttl =>
    rw [Event.applied, add_eq_addMany]
    exact mutates_addMany c now key value.toList ttl
  | addMany now key values ttl => exact mutates_addMany c now key values ttl
  | updateExpiry now key ttl => exact mutates_updateExpiry c now key ttl
  | delete key => exact mutates_beginDelete c key
  | sweep now => exact mutates_sweep c now
  | _ => exact .quiet (Nat.le_refl _) (fun _ _ => .refl _) rfl

/-- The pushes of a run in order. What savers and the drain take or give back is none. -/
inductive Enqueued (start : System) : List Moment → System → Pushes → Prop
  | refl : Enqueued start [] start []
  | push {h : List Moment} {s s' : System} {e : Event} {log more : Pushes}
      (first : Enqueued start h s log) (next : s.next? e = some s') (still : e.moves = false)
      (pushes : s.container.toWriteBack.Enqueues more s'.container.toWriteBack) :
      Enqueued start (h ++ [⟨s, e⟩]) s' (log ++ more)
  | move {h : List Moment} {s s' : System} {e : Event} {log : Pushes}
      (first : Enqueued start h s log) (next : s.next? e = some s') (moves : e.moves = true) :
      Enqueued start (h ++ [⟨s, e⟩]) s' log

theorem Enqueued.run {start : System} (h' : Enqueued start h s log) : Run start h s := by
  induction h' with
  | refl => exact .refl
  | push _ next _ _ ih => exact ih.step next
  | move _ next _ ih => exact ih.step next

/-- An event that moves no sketches does nothing to the queues but push onto them. -/
theorem enqueues_next? (he : e.moves = false) (h : s.next? e = some s') :
    ∃ log, s.container.toWriteBack.Enqueues log s'.container.toWriteBack := by
  rcases next?_cases h with ⟨-, callers, rfl⟩ | htask
  · obtain ⟨log, hlog, -⟩ := (mutates_applied s.container e).pushes
    exact ⟨log, hlog⟩
  · cases htask with
    | deleteEnds | wait | receive | writerEnd | drainBegin | backendStop => exact ⟨[], .still rfl⟩
    | send p id held channel =>
      exact ⟨[], .still (Vector.set_getElem_self p.isLt)⟩
    | writerAnswer job answer =>
      exact (WriteBack.outcome_proceed s.container.toWriteBack job answer).enqueues
    | drainAnswer drain job answer =>
      exact (WriteBack.outcome_proceed s.container.toWriteBack job answer).enqueues
    | take | stop | drainOn | drainEnd => cases he

theorem exists_enqueued {start : System} (run : Run start h s) : ∃ log, Enqueued start h s log := by
  induction run with
  | refl => exact ⟨[], .refl⟩
  | @step h s s' e run next ih =>
    obtain ⟨log, hlog⟩ := ih
    cases he : e.moves with
    | true => exact ⟨log, hlog.move next he⟩
    | false =>
      obtain ⟨more, hmore⟩ := enqueues_next? he next
      exact ⟨log ++ more, hlog.push next he hmore⟩

end System

end DistinctCount
