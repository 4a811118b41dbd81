import DistinctCount.Proofs.System.Move

namespace DistinctCount

open Container

/-- What a client makes of the container. -/
def Event.applied (c : Container) : Event → Container
  | .add now key value ttl => c.add now key value ttl
  | .addMany now key values ttl => c.addMany now key values ttl
  | .updateExpiry now key ttl => (c.updateExpiry now key ttl).2
  | .delete key => (c.beginDelete key).2
  | .sweep now => (c.sweep now).2
  | .close => c.close
  | .stop => c.tellToStop
  | _ => c

namespace System

variable {s s' : System} {e : Event}

theorem next?_client (he : e.isClient = true) (h : s.next? e = some s') :
    ∃ callers, s' = { s with container := e.applied s.container, callers } := by
  cases e with
  | add | addMany | updateExpiry | sweep | close | stop =>
    obtain rfl := Option.some.inj h
    exact ⟨s.callers, rfl⟩
  | delete key =>
    rw [Event.applied]
    simp only [next?] at h
    split at h
    all_goals
      rename_i heq
      obtain rfl := Option.some.inj h
      rw [heq]
      exact ⟨_, rfl⟩
  | _ => cases he

theorem next?_delete {key : String} (h : s.next? (.delete key) = some s') :
    s'.container = (s.container.beginDelete key).2 := by
  obtain ⟨callers, rfl⟩ := next?_client rfl h
  rfl

/--
What a task does by an event, with all that has to hold for it. The drain either goes on or has come to
its end; it takes sketches from the queues and puts none back.
-/
inductive Task (s : System) : Event → System → Prop
  | deleteEnds (key : String) (ticket : Ticket) (waits : (key, ticket) ∈ s.callers) :
      Task s (.deleteEnds key ticket) { s with callers := s.callers.erase (key, ticket) }
  | take (p : Partition) (running : (s.container.savers.get p).running = true)
      (idle : (s.container.savers.get p).held.isEmpty = true) :
      Task s (.saverTake p) (s.put (s.container.saverTake p))
  | send (p : Partition) (id : SketchId) (held : List SketchId) (channel : Channel)
      (running : (s.container.savers.get p).running = true) (writing : s.writing = true)
      (first : (s.container.savers.get p).held = id :: held)
      (buffer : channel.buffer.items = s.container.channel.buffer.items ++ [id]) :
      Task s (.saverSend p) (s.put (s.container.arrange p (s.container.queues.get p)
        { (s.container.savers.get p) with held } channel))
  | wait (p : Partition) (channel : Channel) (running : (s.container.savers.get p).running = true)
      (buffer : channel.buffer = s.container.channel.buffer) :
      Task s (.saverWait p) (s.put { s.container with channel })
  | stop (p : Partition) (running : (s.container.savers.get p).running = true) :
      Task s (.saverStop p) (s.put (s.container.saverStop p))
  | receive (id : SketchId) (channel : Channel) (writing : s.writing = true)
      (idle : s.container.job = none)
      (buffer : s.container.channel.buffer.items = id :: channel.buffer.items) :
      Task s .writerTake (s.put { s.container with channel, job := some (s.container.begin id) })
  | writerAnswer (job : Job) (answer : Backend.Answer) (hand : s.container.job = some job) :
      Task s (.writerAnswer answer) (s.put (s.container.writerProceed job answer).2)
  | writerEnd (writing : s.writing = true) (idle : s.container.job = none)
      (empty : s.container.channel.buffer.items = [])
      (last : s.container.stopping = true ∧ s.container.channel.granted.isEmpty = true ∨
        s.container.saversRunning = false) :
      Task s .writerEnd { s with writing := false }
  | drainBegin (serving : s.stage = .serving) (closed : s.container.closed = true)
      (ended : s.writing = false) (parked : s.container.saversRunning = false) :
      Task s .drainBegin { s with container := s.container.beginDrain, stage := .draining }
  | drainOn (drain : Drain) (idle : s.container.drain = some (drain, none))
      (queues : Vector (Queue SketchId) 8) (onward : Drain × Option Job)
      (fewer : ∀ (p : Partition) id, id ∈ (queues.get p).items → id ∈ (s.container.queues.get p).items)
      (advance : s.container.drainAdvance drain =
        (none, { s.container with queues, drain := some onward })) :
      Task s .drainAdvance (s.put { s.container with queues, drain := some onward })
  | drainEnd (drain : Drain) (idle : s.container.drain = some (drain, none))
      (advance : s.container.drainAdvance drain =
        (some drain.written, { s.container with drain := none })) :
      Task s .drainAdvance { s with container := { s.container with drain := none }, stage := .drained }
  | drainAnswer (drain : Drain) (job : Job) (answer : Backend.Answer)
      (hand : s.container.drain = some (drain, some job)) :
      Task s (.drainAnswer answer) (s.put (s.container.drainProceed drain job answer).2)
  | backendStop (answer : Backend.Answer) (drained : s.stage = .drained) :
      Task s (.backendStop answer) { s with stage := .stopped }

theorem task_of_drainAdvance (h : s.next? .drainAdvance = some s') : s.Task .drainAdvance s' := by
  simp only [next?] at h
  split at h
  · rename_i drain hdrain
    obtain ⟨queues, onward, fewer, heq⟩ | heq := s.container.drainAdvance_frame drain
    all_goals
      rw [heq] at h
      obtain rfl := Option.some.inj h
    · exact .drainOn drain hdrain queues onward fewer heq
    · exact .drainEnd drain hdrain heq
  · cases h

/-- All events but those of the clients. -/
theorem task_of_next? (he : e.isClient = false) (h : s.next? e = some s') : s.Task e s' := by
  cases e with
  | deleteEnds key ticket =>
    obtain ⟨hwaits, heq⟩ := Option.ite_none_right_eq_some.1 h
    obtain rfl := Option.some.inj heq
    exact .deleteEnds key ticket hwaits
  | saverTake p =>
    obtain ⟨⟨hrunning, hidle⟩, heq⟩ := Option.ite_none_right_eq_some.1 h
    obtain rfl := Option.some.inj heq
    exact .take p hrunning hidle
  | saverSend p =>
    obtain ⟨⟨hrunning, hwriting⟩, heq⟩ := Option.ite_none_right_eq_some.1 h
    obtain ⟨c', hsend, rfl⟩ := Option.map_eq_some_iff.1 heq
    obtain ⟨id, held, channel, hfirst, hbuffer, rfl⟩ := saverSend?_eq_some hsend
    exact .send p id held channel hrunning hwriting hfirst hbuffer
  | saverWait p =>
    obtain ⟨hrunning, heq⟩ := Option.ite_none_right_eq_some.1 h
    obtain rfl := Option.some.inj heq
    exact .wait p _ hrunning (s.container.channel.buffer_wait p)
  | saverStop p =>
    obtain ⟨hrunning, heq⟩ := Option.ite_none_right_eq_some.1 h
    obtain rfl := Option.some.inj heq
    exact .stop p hrunning
  | writerTake =>
    obtain ⟨⟨hwriting, hidle⟩, heq⟩ := Option.ite_none_right_eq_some.1 h
    obtain ⟨⟨granted, c'⟩, htake, rfl⟩ := Option.map_eq_some_iff.1 heq
    obtain ⟨id, channel, hbuffer, rfl⟩ := writerTake?_eq_some htake
    exact .receive id channel hwriting (Option.isNone_iff_eq_none.1 hidle) hbuffer
  | writerAnswer answer =>
    obtain ⟨job, hjob, rfl⟩ := Option.map_eq_some_iff.1 h
    exact .writerAnswer job answer hjob
  | writerEnd =>
    obtain ⟨⟨hwriting, hidle, hempty, hlast⟩, heq⟩ := Option.ite_none_right_eq_some.1 h
    obtain rfl := Option.some.inj heq
    exact .writerEnd hwriting (Option.isNone_iff_eq_none.1 hidle) (List.isEmpty_iff.1 hempty) hlast
  | drainBegin =>
    obtain ⟨⟨hserving, hclosed, hended, hparked⟩, heq⟩ := Option.ite_none_right_eq_some.1 h
    obtain rfl := Option.some.inj heq
    exact .drainBegin hserving hclosed hended hparked
  | drainAdvance => exact task_of_drainAdvance h
  | drainAnswer answer =>
    simp only [next?] at h
    split at h
    · rename_i drain job hdrain
      obtain rfl := Option.some.inj h
      exact .drainAnswer drain job answer hdrain
    · cases h
  | backendStop answer =>
    obtain ⟨hdrained, heq⟩ := Option.ite_none_right_eq_some.1 h
    obtain rfl := Option.some.inj heq
    exact .backendStop answer hdrained
  | _ => cases he

/-- An event is of a client, who has changed the container at once, or of a task. -/
theorem next?_cases (h : s.next? e = some s') :
    (e.isClient = true ∧ ∃ callers, s' = { s with container := e.applied s.container, callers }) ∨
      s.Task e s' := by
  by_cases he : e.isClient = true
  · exact .inl ⟨he, next?_client he h⟩
  · exact .inr (task_of_next? (Bool.eq_false_iff.2 he) h)

end System

end DistinctCount
