import DistinctCount.Proofs.Schedule.Turns
import DistinctCount.Proofs.System.Sane

namespace DistinctCount

open Container Schedule

namespace System

variable {s s' : System} {e : Event} {h : List Moment}

/-- Once the writer has ended nothing is sent to it any more. -/
def WriterEndsInTime (s : System) : Prop :=
  s.writing = false → s.container.stopping = true ∨ s.container.saversRunning = false

theorem saversRunning_congr {c c' : Container} (savers : c'.savers = c.savers) :
    c'.saversRunning = c.saversRunning := by
  rw [saversRunning, savers, saversRunning]

theorem WriterEndsInTime.congr (he : s.WriterEndsInTime) (writing : s'.writing = s.writing)
    (stopping : s.container.stopping = true → s'.container.stopping = true)
    (savers : s'.container.savers = s.container.savers) : s'.WriterEndsInTime := by
  intro hw
  rw [saversRunning_congr savers]
  exact (he (writing ▸ hw)).imp_left stopping

/-- A saver that runs has someone to send to, or has been told to stop. -/
theorem WriterEndsInTime.running (he : s.WriterEndsInTime) {p : Partition}
    (running : (s.container.savers.get p).running = true) (hw : s.writing = false) :
    s.container.stopping = true := by
  rcases he hw with hstopping | hnone
  · exact hstopping
  · rw [saversRunning_eq_false.1 hnone p] at running
    cases running

theorem Task.ended (htask : s.Task e s') (he : s.WriterEndsInTime) : s'.WriterEndsInTime := by
  cases htask with
  | take p running => exact fun hw => .inl (he.running running hw)
  | send p _ _ _ running => exact fun hw => .inl (he.running running hw)
  | wait p _ running => exact fun hw => .inl (he.running running hw)
  | stop p running => exact fun hw => .inl (he.running running hw)
  | receive _ _ writing => exact fun hw => absurd (writing.symm.trans hw) (by decide)
  | writerEnd writing idle empty last => exact fun _ => last.imp_left And.left
  | _ => exact he

theorem writerEndsInTime_next? (he : s.WriterEndsInTime) (h : s.next? e = some s') :
    s'.WriterEndsInTime := by
  rcases next?_cases h with ⟨-, callers, rfl⟩ | htask
  · obtain ⟨closed, stopping, apart, -, hstopping⟩ := apart_applied s.container e
    exact he.congr rfl (fun hs => apart.stopping.trans (hstopping hs)) apart.savers
  · exact htask.ended he

theorem orderly_run (ho : s.Orderly) (he : s.WriterEndsInTime) (run : Run s h s') :
    s'.Orderly ∧ s'.WriterEndsInTime := by
  induction run with
  | refl => exact ⟨ho, he⟩
  | step _ next ih => exact ⟨orderly_next? ih.1 next, writerEndsInTime_next? ih.2 next⟩

end System

namespace Schedule

/-- What a task does in its container until it ends. -/
inductive Part
  | saver (p : Partition)
  | writer
  /-- It waits for a deletion. -/
  | caller (key : String) (ticket : Ticket)
  /-- It shuts the container down. -/
  | closer
deriving DecidableEq

def Activity.part? : Activity → Option Part
  | .saver p _ => some (.saver p)
  | .writer _ => some .writer
  | .deletion key (some awaited) => some (.caller key awaited.ticket)
  | .shutdown .joining => some .closer
  | .shutdown (.draining _) => some .closer
  | .shutdown (.stopping _) => some .closer
  | _ => none

def Activity.FitsStage (s : System) : Activity → Prop
  | .sweeper _ | .saver .. | .writer _ | .deletion .. | .shutdown .begin | .sleeping _ | .joining _ => True
  | .shutdown .joining => s.stage = .serving
  | .shutdown (.draining _) =>
    s.writing = false ∧ s.container.saversRunning = false ∧
      (s.container.drain = none → s.stage = .serving)
  | .shutdown (.stopping _) => s.stage = .drained
  | _ => False

variable {s s' : System} {e : Event} {activity : Activity}

theorem Activity.FitsStage.other (h : activity.FitsStage s) (part : activity.part? ≠ some .closer) :
    activity.FitsStage s' := by
  cases activity with
  | shutdown closing =>
    cases closing with
    | begin => trivial
    | _ => exact absurd rfl part
  | _ => exact h

theorem Activity.FitsStage.carry (h : activity.FitsStage s) (stage : s'.stage = s.stage)
    (drain : s'.container.drain = s.container.drain) (writing : s.writing = false → s'.writing = false)
    (savers : s.container.saversRunning = false → s'.container.saversRunning = false) :
    activity.FitsStage s' := by
  cases activity with
  | shutdown closing =>
    cases closing with
    | begin => trivial
    | joining => exact stage.trans h
    | draining phase =>
      obtain ⟨hw, hs, hd⟩ := h
      exact ⟨writing hw, savers hs, fun hnone => stage.trans (hd (drain.symm.trans hnone))⟩
    | stopping phase => exact stage.trans h
  | _ => exact h

end Schedule

/-- An event that is over at once. Neither a task nor a client waits for anything by it. -/
def Event.isImmediate : Event → Bool
  | .add .. | .addMany .. | .updateExpiry .. | .sweep _ => true
  | _ => false

def System.tally (s : System) : Part → Nat
  | .saver p => (s.container.savers.get p).running.toNat
  | .writer => s.writing.toNat
  | .caller key ticket => s.callers.count (key, ticket)
  | .closer => if s.container.closed ∧ s.stage ≠ .stopped then 1 else 0

@[simp] theorem System.container_put (s : System) (c : Container) : (s.put c).container = c :=
  rfl

theorem System.tally_congr {s s' : System}
    (savers : ∀ p : Partition,
      (s'.container.savers.get p).running = (s.container.savers.get p).running)
    (writing : s'.writing = s.writing) (callers : s'.callers = s.callers)
    (closed : s'.container.closed = s.container.closed) (stage : s'.stage = s.stage) (part : Part) :
    s'.tally part = s.tally part := by
  cases part with
  | saver p => rw [tally, savers, tally]
  | writer => rw [tally, writing, tally]
  | caller key ticket => rw [tally, callers, tally]
  | closer => rw [tally, closed, stage, tally]

namespace Schedule

/-- A run of a system in which one task gives up a part and takes another. -/
structure TaskRun (s : System) (old new : Option Part) (made : List (Request × Backend.Answer))
    (s' : System) : Prop where
  run : ∃ h, Run s h s' ∧ calls h = made
  tally : ∀ part, s'.tally part + old.toList.count part = s.tally part + new.toList.count part
  /-- A shutdown on which another task works goes on. -/
  fits : old ≠ some .closer → new ≠ some .closer → ∀ activity : Activity,
    activity.FitsStage s → activity.FitsStage s'

variable {s s' : System} {e : Event} {p : Partition} {part : Option Part}

theorem run_next (next : s.next? e = some s') (silent : Moment.call? ⟨s, e⟩ = none) :
    ∃ h, Run s h s' ∧ calls h = [] :=
  ⟨_, Run.refl.step next, by rw [calls_concat, silent]; rfl⟩

theorem taskRun_refl (s : System) (part : Option Part) : TaskRun s part part [] s where
  run := ⟨[], .refl, rfl⟩
  tally _ := rfl
  fits _ _ _ := id

/-- A task that keeps its part, in a run in which nobody else begins or ends. -/
theorem taskRun_kept {made : List (Request × Backend.Answer)} (run : ∃ h, Run s h s' ∧ calls h = made)
    (savers : ∀ p : Partition,
      (s'.container.savers.get p).running = (s.container.savers.get p).running)
    (writing : s'.writing = s.writing) (callers : s'.callers = s.callers)
    (closed : s'.container.closed = s.container.closed) (stage : s'.stage = s.stage)
    (drain : part ≠ some .closer → s'.container.drain = s.container.drain) :
    TaskRun s part part made s' where
  run := run
  tally q := by rw [System.tally_congr savers writing callers closed stage q]
  fits hold _ _ hfits := by
    apply hfits.carry stage (drain hold) writing.trans
    intro hnone
    apply System.saversRunning_eq_false.2
    intro p
    rw [savers]
    exact System.saversRunning_eq_false.1 hnone p

theorem apart_immediate (he : e.isImmediate = true) (c : Container) : Apart c (e.applied c) := by
  cases e with
  | add now key value ttl => exact apart_add c now key value ttl
  | addMany now key values ttl => exact apart_addMany c now key values ttl
  | updateExpiry now key ttl => exact apart_updateExpiry c now key ttl
  | sweep now => exact apart_sweep c now
  | _ => cases he

theorem next?_immediate (he : e.isImmediate = true) (s : System) :
    s.next? e = some (s.put (e.applied s.container)) ∧ Moment.call? ⟨s, e⟩ = none := by
  cases e with
  | add | addMany | updateExpiry | sweep => exact ⟨rfl, rfl⟩
  | _ => cases he

theorem taskRun_immediate (he : e.isImmediate = true) (s : System) (part : Option Part) :
    TaskRun s part part [] (s.put (e.applied s.container)) := by
  have apart := apart_immediate he s.container
  obtain ⟨next, silent⟩ := next?_immediate he s
  exact taskRun_kept (run_next next silent) (fun p => by rw [System.container_put, apart.savers]) rfl rfl
    apart.closed rfl fun _ => apart.drain

/-- Telling the tasks to stop leaves all of them at work. -/
theorem taskRun_stop (s : System) (part : Option Part) :
    TaskRun s part part [] (s.put s.container.tellToStop) :=
  taskRun_kept (run_next (e := .stop) rfl rfl) (fun _ => rfl) rfl rfl rfl rfl fun _ => rfl

theorem taskRun_arrange {held : List SketchId} {queue : Queue SketchId} {channel : Channel}
    (next : s.next? e = some (s.put (s.container.arrange p queue
      { (s.container.savers.get p) with held } channel)))
    (silent : Moment.call? ⟨s, e⟩ = none) :
    TaskRun s part part [] (s.put (s.container.arrange p queue
      { (s.container.savers.get p) with held } channel)) := by
  refine taskRun_kept (run_next next silent) ?_ rfl rfl rfl rfl fun _ => rfl
  intro q
  have hget : ((s.container.arrange p queue { (s.container.savers.get p) with held } channel).savers.get q)
      = if q = p then { (s.container.savers.get p) with held } else s.container.savers.get q :=
    get_assign _ _ _ _
  rw [System.container_put, hget]
  split
  · rename_i hqp
    rw [hqp]
  · rfl

theorem taskRun_saverTake (running : (s.container.savers.get p).running = true)
    (idle : (s.container.savers.get p).held.isEmpty = true) :
    TaskRun s part part [] (s.put (s.container.saverTake p)) :=
  taskRun_arrange (e := .saverTake p) (if_pos ⟨running, idle⟩) rfl

theorem taskRun_saverSend {c' : Container} (running : (s.container.savers.get p).running = true)
    (writing : s.writing = true) (send : s.container.saverSend? p = some c') :
    TaskRun s part part [] (s.put c') := by
  have next : s.next? (.saverSend p) = some (s.put c') := by
    rw [System.next?, if_pos ⟨running, writing⟩, send, Option.map_some]
  obtain ⟨id, held, channel, -, -, rfl⟩ := saverSend?_eq_some send
  exact taskRun_arrange next rfl

theorem taskRun_saverWait (running : (s.container.savers.get p).running = true) :
    TaskRun s part part [] (s.put (s.container.saverWait p)) :=
  taskRun_kept (run_next (e := .saverWait p) (if_pos running) rfl) (fun _ => rfl) rfl rfl rfl rfl
    fun _ => rfl

theorem count_part (old q : Part) : (some old).toList.count q = if q = old then 1 else 0 := by
  rw [Option.toList_some, List.count_singleton]
  simp only [beq_iff_eq, eq_comm (a := old)]

theorem taskRun_saverStop (running : (s.container.savers.get p).running = true) :
    TaskRun s (some (.saver p)) none [] (s.put (s.container.saverStop p)) := by
  have hget (q : Partition) : (s.container.saverStop p).savers.get q =
      if q = p then { running := false } else s.container.savers.get q :=
    get_assign _ _ _ _
  refine ⟨run_next (e := .saverStop p) (if_pos running) rfl, fun part => ?_,
    fun _ _ activity hfits => ?_⟩
  · rw [count_part, Option.toList_none, List.count_nil, Nat.add_zero]
    cases part with
    | saver q =>
      rw [System.tally, System.tally, System.container_put, hget]
      by_cases hqp : q = p
      · subst hqp
        rw [if_pos rfl, if_pos rfl, running]
        rfl
      · rw [if_neg hqp, if_neg fun heq => hqp (Part.saver.inj heq), Nat.add_zero]
    | _ => rfl
  · refine hfits.carry rfl rfl id fun hnone => ?_
    rw [System.saversRunning_eq_false.1 hnone p] at running
    cases running

theorem taskRun_writerTake {granted : Option Partition} {c' : Container} (writing : s.writing = true)
    (idle : s.container.job = none) (take : s.container.writerTake? = some (granted, c')) :
    TaskRun s part part [] (s.put c') := by
  have next : s.next? .writerTake = some (s.put c') := by
    rw [System.next?, if_pos ⟨writing, by rw [idle]; rfl⟩, take]
    rfl
  obtain ⟨id, channel, -, rfl⟩ := writerTake?_eq_some take
  exact taskRun_kept (run_next next rfl) (fun _ => rfl) rfl rfl rfl rfl fun _ => rfl

theorem taskRun_writerAnswer {job : Job} (hand : s.container.job = some job)
    (answer : Backend.Answer) :
    TaskRun s part part [(job.request, answer)]
      (s.put (s.container.writerProceed job answer).2) := by
  have next : s.next? (.writerAnswer answer) =
      some (s.put (s.container.writerProceed job answer).2) := by
    rw [System.next?, hand, Option.map_some]
  have answered : Moment.call? ⟨s, .writerAnswer answer⟩ = some (job.request, answer) := by
    apply Moment.call?_of_answered
    simp only [Moment.answered?, hand]
  refine taskRun_kept ⟨_, Run.refl.step next, ?_⟩ (fun _ => rfl) rfl rfl rfl rfl fun _ => rfl
  rw [calls_concat, answered]
  rfl

theorem taskRun_writerEnd (writing : s.writing = true) (idle : s.container.job = none)
    (empty : s.container.channel.buffer.isEmpty = true)
    (last : s.container.stopping = true ∧ s.container.channel.granted.isEmpty = true ∨
      s.container.saversRunning = false) :
    TaskRun s (some .writer) none [] { s with writing := false } := by
  have next : s.next? .writerEnd = some { s with writing := false } :=
    if_pos ⟨writing, by rw [idle]; rfl, empty, last⟩
  refine ⟨run_next next rfl, fun part => ?_, fun _ _ _ hfits => ?_⟩
  · rw [count_part, Option.toList_none, List.count_nil, Nat.add_zero]
    cases part with
    | writer =>
      rw [System.tally, System.tally, writing]
      rfl
    | _ => rfl
  · exact hfits.carry rfl rfl (fun _ => rfl) id

def callerOf (key : String) : Removal → Option Part
  | .waiting ticket => some (.caller key ticket)
  | _ => none

theorem caller_inj {k key : String} {other ticket : Ticket}
    (h : Part.caller k other = .caller key ticket) : (key, ticket) = (k, other) := by
  obtain ⟨rfl, rfl⟩ := Part.caller.inj h
  rfl

theorem taskRun_delete (s : System) (key : String) :
    ∃ s', TaskRun s none (callerOf key (s.container.beginDelete key).1) [] s' ∧
      s'.container = (s.container.beginDelete key).2 := by
  have apart := apart_beginDelete s.container key
  cases hbegin : s.container.beginDelete key with
  | mk removal c =>
    rw [hbegin] at apart
    have hkept (next : s.next? (.delete key) = some (s.put c)) : TaskRun s none none [] (s.put c) :=
      taskRun_kept (run_next next rfl) (fun p => by rw [System.container_put, apart.savers]) rfl rfl
        apart.closed rfl fun _ => apart.drain
    cases removal with
    | refused => exact ⟨s.put c, hkept (by rw [System.next?, hbegin]), rfl⟩
    | unknown => exact ⟨s.put c, hkept (by rw [System.next?, hbegin]), rfl⟩
    | removed => exact ⟨s.put c, hkept (by rw [System.next?, hbegin]), rfl⟩
    | waiting ticket =>
      have next : s.next? (.delete key) =
          some { s with container := c, callers := (key, ticket) :: s.callers } := by
        rw [System.next?, hbegin]
      refine ⟨_, ⟨run_next next rfl, fun part => ?_, fun _ _ _ hfits => ?_⟩, rfl⟩
      · rw [callerOf, count_part, Option.toList_none, List.count_nil, Nat.add_zero]
        cases part with
        | saver p =>
          rw [System.tally, System.tally, apart.savers]
          rfl
        | writer => rfl
        | caller k other =>
          rw [System.tally, System.tally]
          by_cases hsame : (key, ticket) = (k, other)
          · obtain ⟨rfl, rfl⟩ := Prod.mk.inj hsame
            rw [List.count_cons_self, if_pos rfl]
          · rw [List.count_cons_of_ne hsame, if_neg (hsame ∘ caller_inj), Nat.add_zero]
        | closer =>
          rw [System.tally, System.tally, apart.closed]
          rfl
      · exact hfits.carry rfl apart.drain id (System.saversRunning_congr apart.savers).trans

theorem taskRun_deleteEnds {key : String} {ticket : Ticket} (waits : (key, ticket) ∈ s.callers) :
    TaskRun s (some (.caller key ticket)) none []
      { s with callers := s.callers.erase (key, ticket) } := by
  have next : s.next? (.deleteEnds key ticket) =
      some { s with callers := s.callers.erase (key, ticket) } := if_pos waits
  refine ⟨run_next next rfl, fun part => ?_, fun _ _ _ hfits => hfits.carry rfl rfl id id⟩
  rw [count_part, Option.toList_none, List.count_nil, Nat.add_zero]
  cases part with
  | caller k other =>
    rw [System.tally, System.tally]
    by_cases hsame : (key, ticket) = (k, other)
    · obtain ⟨rfl, rfl⟩ := Prod.mk.inj hsame
      have hpos := List.count_pos_iff.2 waits
      rw [List.count_erase_self, if_pos rfl]
      omega
    · rw [List.count_erase_of_ne (Ne.symm hsame), if_neg (hsame ∘ caller_inj), Nat.add_zero]
  | _ => rfl

theorem taskRun_close (ho : s.Orderly) (opened : s.container.closed = false) :
    TaskRun s none (some .closer) [] (s.put s.container.close.tellToStop) ∧ s.stage = .serving := by
  have hserving : s.stage = .serving := by
    by_contra hne
    rw [(ho.quiet hne).1] at opened
    cases opened
  have hrun : Run s ([] ++ [⟨s, .close⟩] ++ [⟨s.put s.container.close, .stop⟩])
      (s.put s.container.close.tellToStop) := (Run.refl.step rfl).step rfl
  refine ⟨⟨⟨_, hrun, rfl⟩, fun part => ?_, fun _ hnew => absurd rfl hnew⟩, hserving⟩
  rw [count_part, Option.toList_none, List.count_nil, Nat.add_zero]
  cases part with
  | closer =>
    have hstage : (s.put s.container.close.tellToStop).stage ≠ .stopped := by
      change s.stage ≠ .stopped
      rw [hserving]
      decide
    have hbefore : s.tally .closer = 0 :=
      if_neg fun h => Bool.false_ne_true (opened.symm.trans h.1)
    rw [hbefore, if_pos rfl]
    exact if_pos ⟨rfl, hstage⟩
  | _ => rfl

theorem taskRun_closer {made : List (Request × Backend.Answer)} (run : ∃ h, Run s h s' ∧ calls h = made)
    (savers : s'.container.savers = s.container.savers) (writing : s'.writing = s.writing)
    (callers : s'.callers = s.callers) (closed : s'.container.closed = s.container.closed)
    (stage : s.stage ≠ .stopped) (stage' : s'.stage ≠ .stopped) :
    TaskRun s (some .closer) (some .closer) made s' := by
  refine ⟨run, fun part => ?_, fun hold => absurd rfl hold⟩
  congr 1
  cases part with
  | saver p => rw [System.tally, System.tally, savers]
  | writer => rw [System.tally, System.tally, writing]
  | caller key ticket => rw [System.tally, System.tally, callers]
  | closer => simp only [System.tally, closed, stage, stage', ne_eq, not_false_eq_true, and_true]

theorem taskRun_backendStop (closed : s.container.closed = true) (drained : s.stage = .drained)
    (answer : Backend.Answer) :
    TaskRun s (some .closer) none [(.flushAndStop, answer)] { s with stage := .stopped } := by
  have next : s.next? (.backendStop answer) = some { s with stage := .stopped } := if_pos drained
  refine ⟨⟨_, Run.refl.step next, rfl⟩, fun part => ?_, fun hold => absurd rfl hold⟩
  rw [count_part, Option.toList_none, List.count_nil, Nat.add_zero]
  cases part with
  | closer =>
    rw [System.tally, System.tally, drained, closed]
    rfl
  | _ => rfl

end Schedule

end DistinctCount
