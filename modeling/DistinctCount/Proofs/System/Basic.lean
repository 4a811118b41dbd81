import Mathlib.Tactic
import DistinctCount.Container.Restore
import DistinctCount.Container.Sweep
import DistinctCount.Container.Tasks
import DistinctCount.Proofs.Backend.Serves

/-!
A container with its clients, its tasks and its shutdown as a system that goes from state to state
in any order of events. Every call of the backend is an event of its own that carries its answer.

An operation of a client is one event, and so is a sweep; a deletion is one event up to where its
caller begins to wait. It is assumed that no two of them interleave. Clients on several threads that
nobody orders are beyond this: the index entry of a key that one of them makes anew might be taken
away by a deletion of the key that another has begun before.
-/

namespace DistinctCount

inductive Stage
  | serving
  | draining
  | drained
  | stopped
deriving DecidableEq

structure System where
  container : Container
  /-- The writer has not ended. -/
  writing : Bool := true
  stage : Stage := .serving
  /-- The deletions that wait for a reply. -/
  callers : List (String × Ticket) := []

inductive Event
  | add (now : UInt64) (key : String) (value : Option (List UInt8)) (ttl : UInt64)
  | addMany (now : UInt64) (key : String) (values : List (List UInt8)) (ttl : UInt64)
  | updateExpiry (now : UInt64) (key : String) (ttl : UInt64)
  | delete (key : String)
  /-- The caller of a deletion has its reply, or waits no longer. -/
  | deleteEnds (key : String) (ticket : Ticket)
  | sweep (now : UInt64)
  | close
  | stop
  | saverTake (p : Partition)
  | saverSend (p : Partition)
  | saverWait (p : Partition)
  | saverStop (p : Partition)
  | writerTake
  | writerAnswer (answer : Backend.Answer)
  | writerEnd
  | drainBegin
  | drainAdvance
  | drainAnswer (answer : Backend.Answer)
  /-- The last flush, which ends the shutdown. -/
  | backendStop (answer : Backend.Answer)

/-- What clients do, and what is done to the container as a whole. -/
def Event.isClient : Event → Bool
  | .add .. | .addMany .. | .updateExpiry .. | .delete _ | .sweep _ | .close | .stop => true
  | _ => false

/-- The reply to the caller of a deletion; one who has been told nothing gives up. -/
def Container.deletionReply (c : Container) (key : String) (ticket : Ticket) : Except Error Bool :=
  match c.notice? ticket with
  | some .confirmed => .ok true
  | some (.failed e) => .error (.backend e)
  | some .dropped => .error (.deleteAborted key)
  | none => .error (.deleteTimeout key c.config.deleteTimeout)

namespace System

def put (s : System) (c : Container) : System :=
  { s with container := c }

/-- The state after an event, if the event may come. -/
def next? (s : System) : Event → Option System
  | .add now key value ttl => some (s.put (s.container.add now key value ttl))
  | .addMany now key values ttl => some (s.put (s.container.addMany now key values ttl))
  | .updateExpiry now key ttl => some (s.put (s.container.updateExpiry now key ttl).2)
  | .delete key =>
    match s.container.beginDelete key with
    | (.waiting ticket, c) =>
      some { s with container := c, callers := (key, ticket) :: s.callers }
    | (_, c) => some (s.put c)
  | .deleteEnds key ticket =>
    if (key, ticket) ∈ s.callers then
      some { s with callers := s.callers.erase (key, ticket) }
    else none
  | .sweep now => some (s.put (s.container.sweep now).2)
  | .close => some (s.put s.container.close)
  | .stop => some (s.put s.container.tellToStop)
  | .saverTake p =>
    if (s.container.savers.get p).running ∧ (s.container.savers.get p).held.isEmpty then
      some (s.put (s.container.saverTake p))
    else none
  | .saverSend p =>
    if (s.container.savers.get p).running ∧ s.writing then (s.container.saverSend? p).map s.put else none
  | .saverWait p =>
    if (s.container.savers.get p).running then some (s.put (s.container.saverWait p)) else none
  | .saverStop p =>
    if (s.container.savers.get p).running then some (s.put (s.container.saverStop p)) else none
  | .writerTake =>
    if s.writing ∧ s.container.job.isNone then (s.container.writerTake?).map fun (_, c) => s.put c
    else none
  | .writerAnswer answer =>
    s.container.job.map fun job => s.put (s.container.writerProceed job answer).2
  | .writerEnd =>
    if s.writing ∧ s.container.job.isNone ∧ s.container.channel.buffer.isEmpty ∧
        (s.container.stopping ∧ s.container.channel.granted.isEmpty ∨
          s.container.saversRunning = false) then
      some { s with writing := false }
    else none
  | .drainBegin =>
    if s.stage = .serving ∧ s.container.closed ∧ s.writing = false ∧
        s.container.saversRunning = false then
      some { s with container := s.container.beginDrain, stage := .draining }
    else none
  | .drainAdvance =>
    match s.container.drain with
    | some (drain, none) =>
      match s.container.drainAdvance drain with
      | (none, c) => some (s.put c)
      | (some _, c) => some { s with container := c, stage := .drained }
    | _ => none
  | .drainAnswer answer =>
    match s.container.drain with
    | some (drain, some job) => some (s.put (s.container.drainProceed drain job answer).2)
    | _ => none
  | .backendStop _ => if s.stage = .drained then some { s with stage := .stopped } else none

end System

/-- A state of a run and the event that ends it. -/
structure Moment where
  before : System
  event : Event

namespace Moment

def answered? (m : Moment) : Option (Job × Backend.Answer) :=
  match m.event, m.before.container.job, m.before.container.drain with
  | .writerAnswer answer, some job, _ => some (job, answer)
  | .drainAnswer answer, _, some (_, some job) => some (job, answer)
  | _, _, _ => none

def call? (m : Moment) : Option (Request × Backend.Answer) :=
  match m.event with
  | .backendStop answer => some (.flushAndStop, answer)
  | _ => m.answered?.map fun (job, answer) => (job.request, answer)

theorem call?_of_answered {m : Moment} {job : Job} {answer : Backend.Answer}
    (h : m.answered? = some (job, answer)) : m.call? = some (job.request, answer) := by
  obtain ⟨s, e⟩ := m
  cases e with
  | backendStop _ => simp [answered?] at h
  | _ => exact congrArg (Option.map fun x : Job × Backend.Answer => (x.1.request, x.2)) h

/-- The records after a moment are those after its write, as the last flush changes none. -/
theorem recorded_call? (m : Moment) (records : String → Option Record) :
    Backend.recorded m.call? records =
      Backend.recorded (m.answered?.map fun (job, answer) => (job.request, answer)) records := by
  obtain ⟨s, e⟩ := m
  cases e with
  | backendStop answer => cases answer <;> rfl
  | _ => rfl

end Moment

def calls (h : List Moment) : List (Request × Backend.Answer) :=
  h.filterMap Moment.call?

theorem calls_concat (h : List Moment) (m : Moment) : calls (h ++ [m]) = calls h ++ m.call?.toList := by
  rw [calls, List.filterMap_append, List.filterMap_cons]
  cases m.call? <;> rfl

theorem calls_append (h h' : List Moment) : calls (h ++ h') = calls h ++ calls h' :=
  List.filterMap_append

/-- No answer says that the backend is stopped. -/
def Alive (calls : List (Request × Backend.Answer)) : Prop :=
  ∀ call ∈ calls, call.2 ≠ .error .stopped

instance (calls : List (Request × Backend.Answer)) : Decidable (Alive calls) :=
  inferInstanceAs (Decidable (∀ call ∈ calls, call.2 ≠ .error .stopped))

/-- A run from one state to another through the moments of a history. -/
inductive Run (start : System) : List Moment → System → Prop
  | refl : Run start [] start
  | step {h : List Moment} {s s' : System} {e : Event} (run : Run start h s)
      (next : s.next? e = some s') : Run start (h ++ [⟨s, e⟩]) s'

namespace Run

variable {s₁ s₂ s₃ : System} {h h' : List Moment} {m : Moment}

theorem append (run : Run s₁ h s₂) (run' : Run s₂ h' s₃) : Run s₁ (h ++ h') s₃ := by
  induction run' with
  | refl => rwa [List.append_nil]
  | step _ next ih =>
    rw [← List.append_assoc]
    exact ih.step next

theorem split (run : Run s₁ (h ++ h') s₃) : ∃ s₂, Run s₁ h s₂ ∧ Run s₂ h' s₃ := by
  generalize hh : h ++ h' = all at run
  induction run generalizing h' with
  | refl =>
    obtain ⟨rfl, rfl⟩ := List.append_eq_nil_iff.1 hh
    exact ⟨s₁, .refl, .refl⟩
  | @step before s s' e run next ih =>
    rcases List.eq_nil_or_concat h' with rfl | ⟨last, rest, rfl⟩
    · rw [List.append_nil] at hh
      exact ⟨s', hh ▸ run.step next, .refl⟩
    · rw [List.concat_eq_append, ← List.append_assoc] at hh
      obtain ⟨hinit, hlast⟩ := List.append_inj' hh rfl
      obtain ⟨s₂, hfirst, hrest⟩ := ih hinit
      rw [List.concat_eq_append, hlast]
      exact ⟨s₂, hfirst, hrest.step next⟩

theorem eq_of_nil (run : Run s₁ [] s₂) : s₂ = s₁ := by
  generalize hh : ([] : List Moment) = h at run
  cases run with
  | refl => rfl
  | step => simp at hh

theorem next_of_single (run : Run s₁ [m] s₂) : m.before = s₁ ∧ s₁.next? m.event = some s₂ := by
  generalize hh : [m] = h at run
  cases run with
  | refl => cases hh
  | step run next =>
    have hnil : [] ++ [m] = _ := hh
    obtain ⟨hnil, hlast⟩ := List.append_inj' hnil rfl
    obtain rfl := (hnil ▸ run).eq_of_nil
    obtain rfl := (List.cons.inj hlast).1
    exact ⟨rfl, next⟩

theorem moment (run : Run s₁ (h ++ m :: h') s₃) :
    ∃ s₂, Run s₁ h m.before ∧ m.before.next? m.event = some s₂ ∧ Run s₂ h' s₃ := by
  obtain ⟨s, hfirst, hrest⟩ := run.split
  obtain ⟨s₂, hmoment, hlast⟩ := Run.split (h := [m]) hrest
  obtain ⟨rfl, hnext⟩ := hmoment.next_of_single
  exact ⟨s₂, hfirst, hnext, hlast⟩

theorem since (run : Run s₁ h s₂) (hm : m ∈ h) :
    ∃ before after, h = before ++ m :: after ∧ Run s₁ before m.before ∧
      Run m.before (m :: after) s₂ := by
  obtain ⟨before, after, rfl⟩ := List.append_of_mem hm
  obtain ⟨s, hfirst, hnext, hlast⟩ := run.moment
  exact ⟨before, after, rfl, hfirst, (Run.refl.step hnext).append hlast⟩

end Run

def System.play? (s : System) : List Event → Option (List Moment × System)
  | [] => some ([], s)
  | e :: es => do
    let s' ← s.next? e
    let (h, last) ← s'.play? es
    return (⟨s, e⟩ :: h, last)

theorem run_of_play? {s s' : System} {es : List Event} {h : List Moment}
    (he : s.play? es = some (h, s')) : Run s h s' := by
  induction es generalizing s h with
  | nil =>
    obtain ⟨rfl, rfl⟩ := Prod.mk.inj (Option.some.inj he)
    exact .refl
  | cons e es ih =>
    simp only [System.play?, Option.bind_eq_bind, Option.bind_eq_some_iff] at he
    obtain ⟨next, hnext, ⟨rest, last⟩, hrest, heq⟩ := he
    obtain ⟨rfl, rfl⟩ := Prod.mk.inj (Option.some.inj heq)
    exact ((Run.refl.step hnext).append (ih hrest))

def System.played (s : System) (es : List Event) (h : (s.play? es).isSome = true) :
    List Moment × System :=
  (s.play? es).get h

theorem System.run_played (s : System) (es : List Event) (h : (s.play? es).isSome = true) :
    Run s (s.played es h).1 (s.played es h).2 :=
  run_of_play? (Option.some_get h).symm

end DistinctCount
