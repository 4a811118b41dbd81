import DistinctCount.Proofs.Container.Opened
import DistinctCount.Proofs.System.Enqueued

/-!
The way from the queues to the writer. A saver takes a batch from its queue, sends it sketch by sketch as
far as there is room, and gives back what it has not sent when it ends. Whatever comes in between, no
sketch gets lost, comes twice or overtakes another of the same queue.
-/

namespace DistinctCount

open Container

def sends (h : List Moment) : Pushes :=
  h.filterMap fun m =>
    match m.event with
    | .saverSend p => (m.before.container.savers.get p).held.head?.map (p, ·)
    | _ => none

def received (h : List Moment) : List SketchId :=
  h.filterMap fun m =>
    match m.event with
    | .writerTake => m.before.container.channel.buffer.items.head?
    | _ => none

theorem sends_concat (h : List Moment) (m : Moment) : sends (h ++ [m]) = sends h ++ sends [m] :=
  List.filterMap_append

theorem received_concat (h : List Moment) (m : Moment) :
    received (h ++ [m]) = received h ++ received [m] :=
  List.filterMap_append

namespace System

variable {s s' : System} {e : Event} {h : List Moment} {first log : Pushes} {config : Config}
  {now : UInt64} {b : Backend} {opening : List (Request × Backend.Answer)} {c : Container}

theorem serving_of_next? (h : s.next? e = some s') (serving : s'.stage = .serving) :
    s.stage = .serving := by
  rcases next?_cases h with ⟨-, callers, rfl⟩ | htask
  · exact serving
  · cases htask with
    | drainBegin hserving => exact hserving
    | drainEnd | backendStop => cases serving
    | _ => exact serving

theorem dry_of_serving {start : System} (run : Run start h s) (begins : start.container.drain = none)
    (serving : s.stage = .serving) : s.container.drain = none := by
  induction run with
  | refl => exact begins
  | @step h s s' e run next ih =>
    have hdry := ih (serving_of_next? next serving)
    rcases next?_cases next with ⟨-, callers, rfl⟩ | htask
    · exact (mutates_applied s.container e).idle.drain.trans hdry
    · cases htask with
      | drainBegin => cases serving
      | drainOn drain idle | drainEnd drain idle =>
        exact absurd (idle.symm.trans hdry) (Option.some_ne_none _)
      | drainAnswer drain job answer hand => exact absurd (hand.symm.trans hdry) (Option.some_ne_none _)
      | _ => exact hdry

/-- The drain begins when the last saver has ended. -/
theorem serving_of_running {start : System} (run : Run start h s) (begins : start.stage = .serving)
    (dry : start.container.drain = none) {p : Partition}
    (running : (s.container.savers.get p).running = true) : s.stage = .serving := by
  induction run generalizing p with
  | refl => exact begins
  | @step h s s' e run next ih =>
    rcases next?_cases next with ⟨-, callers, rfl⟩ | htask
    · rw [(mutates_applied s.container e).idle.savers] at running
      exact ih running
    · cases htask with
      | take q before => exact ih before
      | send q _ _ _ before => exact ih before
      | stop q before => exact ih before
      | drainBegin _ _ _ parked =>
        exact absurd (running.symm.trans (saversRunning_eq_false.1 parked p)) (by decide)
      | drainOn drain idle | drainEnd drain idle =>
        exact absurd (idle.symm.trans (dry_of_serving run dry (ih running))) (Option.some_ne_none _)
      | backendStop _ drained => exact absurd ((ih running).symm.trans drained) (by decide)
      | _ => exact ih running

theorem parked_assign {savers : Vector Saver 8} {saver : Saver} {p q : Partition}
    (parked : ∀ p : Partition, (savers.get p).running = false → (savers.get p).held = [])
    (hsaver : saver.running = false → saver.held = [])
    (ended : ((assign savers q saver).get p).running = false) :
    ((assign savers q saver).get p).held = [] := by
  rw [get_assign] at ended ⊢
  split at ended
  · rename_i hp
    rw [if_pos hp]
    exact hsaver ended
  · rename_i hp
    rw [if_neg hp]
    exact parked p ended

theorem held_eq_nil_of_ended {start : System} (run : Run start h s)
    (begins : ∀ p : Partition, (start.container.savers.get p).held = []) {p : Partition}
    (ended : (s.container.savers.get p).running = false) : (s.container.savers.get p).held = [] := by
  induction run generalizing p with
  | refl => exact begins p
  | @step h s s' e run next ih =>
    rcases next?_cases next with ⟨-, callers, rfl⟩ | htask
    · rw [(mutates_applied s.container e).idle.savers] at ended ⊢
      exact ih ended
    · cases htask with
      | take q running | send q _ _ _ running =>
        exact parked_assign (fun _ => ih) (fun hnot => absurd (running.symm.trans hnot) (by decide)) ended
      | stop q => exact parked_assign (fun _ => ih) (fun _ => rfl) ended
      | _ => exact ih ended

/--
Before the final drain, what a saver has sent, holds and has before it in its queue are the pushes onto
that queue, those from before the run first.
-/
structure Conserved (first : Pushes) (h : List Moment) (s : System) (log : Pushes) : Prop where
  account : ∀ p, (sends h).onto p ++ (s.container.savers.get p).held ++
    (s.container.queues.get p).items = Pushes.onto p (first ++ log)
  delivered : received h ++ s.container.channel.buffer.items = (sends h).sketches

theorem Conserved.arranged (hs : s.Conserved first h log) (p : Partition) (queue : Queue SketchId)
    (saver : Saver) (channel : Channel)
    (hsaver : saver.held ++ queue.items =
      (s.container.savers.get p).held ++ (s.container.queues.get p).items)
    (hbuffer : channel.buffer = s.container.channel.buffer) :
    Conserved first h (s.put (s.container.arrange p queue saver channel)) log where
  account q := by
    have hqueue : ((s.container.arrange p queue saver channel).queues.get q) =
        if q = p then queue else s.container.queues.get q := get_assign _ _ _ _
    have hheld : ((s.container.arrange p queue saver channel).savers.get q) =
        if q = p then saver else s.container.savers.get q := get_assign _ _ _ _
    rw [put, hqueue, hheld, ← hs.account q]
    split
    · rename_i hq
      rw [List.append_assoc, List.append_assoc, hsaver, hq]
    · rfl
  delivered := by
    change received h ++ channel.buffer.items = _
    rw [hbuffer, hs.delivered]

/-- What neither a saver does nor the writer to the channel leaves the account but for its pushes. -/
theorem Conserved.pushed (hs : s.Conserved first h log) {more : Pushes}
    (pushes : s.container.toWriteBack.Enqueues more s'.container.toWriteBack)
    (savers : s'.container.savers = s.container.savers)
    (buffer : s'.container.channel.buffer = s.container.channel.buffer) :
    Conserved first h s' (log ++ more) where
  account p := by
    have hgrown : Pushes.onto p (first ++ (log ++ more)) =
        Pushes.onto p (first ++ log) ++ more.onto p := by
      rw [← List.append_assoc, Pushes.onto_append]
    rw [savers, pushes.items, ← List.append_assoc, hs.account, hgrown]
  delivered := by rw [buffer, hs.delivered]

theorem Conserved.history (hs : s.Conserved first h log) {m : Moment} (hsends : sends [m] = [])
    (hreceived : received [m] = []) : Conserved first (h ++ [m]) s log := by
  have hsame : sends (h ++ [m]) = sends h := by rw [sends_concat, hsends, List.append_nil]
  have hsame' : received (h ++ [m]) = received h := by
    rw [received_concat, hreceived, List.append_nil]
  exact ⟨by rw [hsame]; exact hs.account, by rw [hsame, hsame']; exact hs.delivered⟩

theorem Conserved.sent (hs : s.Conserved first h log) {p : Partition} {id : SketchId}
    {held : List SketchId} {channel : Channel} {more : Pushes}
    (hfirst : (s.container.savers.get p).held = id :: held)
    (buffer : channel.buffer.items = s.container.channel.buffer.items ++ [id])
    (pushes : s.container.toWriteBack.Enqueues more (s.container.arrange p (s.container.queues.get p)
      { (s.container.savers.get p) with held } channel).toWriteBack) :
    Conserved first (h ++ [⟨s, .saverSend p⟩]) (s.put (s.container.arrange p
      (s.container.queues.get p) { (s.container.savers.get p) with held } channel))
      (log ++ more) := by
  have hsends : sends (h ++ [⟨s, .saverSend p⟩]) = sends h ++ [(p, id)] := by
    rw [sends_concat]
    simp only [sends, List.filterMap_cons, hfirst, List.head?_cons, Option.map_some,
      List.filterMap_nil]
  have hheld (q : Partition) : ((s.container.arrange p (s.container.queues.get p)
      { (s.container.savers.get p) with held } channel).savers.get q) =
      if q = p then { (s.container.savers.get p) with held } else s.container.savers.get q :=
    get_assign _ _ _ _
  refine ⟨fun q => ?_, ?_⟩
  · have hgrown : Pushes.onto q (first ++ (log ++ more)) =
        Pushes.onto q (first ++ log) ++ more.onto q := by
      rw [← List.append_assoc, Pushes.onto_append]
    rw [hsends, put, pushes.items, hheld, hgrown, ← hs.account q, ← List.append_assoc,
      Pushes.onto_append, Pushes.onto_singleton]
    by_cases hq : q = p
    · rw [hq, if_pos rfl, if_pos rfl, hfirst]
      simp only [List.append_assoc, List.cons_append, List.nil_append]
    · rw [if_neg (Ne.symm hq), if_neg hq, List.append_nil]
  · have hreceived : received (h ++ [⟨s, .saverSend p⟩]) = received h := by
      rw [received_concat]
      exact List.append_nil _
    change _ ++ channel.buffer.items = _
    rw [hreceived, buffer, hsends, Pushes.sketches_append, ← hs.delivered, List.append_assoc]
    rfl

theorem Conserved.taken (hs : s.Conserved first h log) {id : SketchId} {channel : Channel}
    (buffer : s.container.channel.buffer.items = id :: channel.buffer.items) (job : Option Job) :
    Conserved first (h ++ [⟨s, .writerTake⟩]) (s.put { s.container with channel, job }) log := by
  have hsends : sends (h ++ [⟨s, .writerTake⟩]) = sends h := by
    rw [sends_concat]
    exact List.append_nil _
  have hreceived : received (h ++ [⟨s, .writerTake⟩]) = received h ++ [id] := by
    rw [received_concat]
    simp only [received, List.filterMap_cons, buffer, List.head?_cons, List.filterMap_nil]
  refine ⟨by rw [hsends]; exact hs.account, ?_⟩
  rw [hsends, hreceived, List.append_assoc]
  exact (congrArg (received h ++ ·) buffer.symm).trans hs.delivered

theorem Enqueued.conserved {start : System} (hlog : Enqueued start h s log)
    (dry : start.container.drain = none) (hstart : start.Conserved first [] [])
    (serving : s.stage = .serving) : s.Conserved first h log := by
  induction hlog with
  | refl => exact hstart
  | @push h s s' e log more hlog next still pushes ih =>
    have hbefore := serving_of_next? next serving
    have hs := ih hbefore
    rcases next?_cases next with ⟨hclient, callers, rfl⟩ | htask
    · have hidle := (mutates_applied s.container e).idle
      apply (hs.pushed pushes hidle.savers (congrArg Channel.buffer hidle.channel)).history <;>
        (cases e <;> first | rfl | cases hclient)
    · cases htask with
      | send p id held channel _ _ hfirst buffer => exact hs.sent hfirst buffer pushes
      | receive id channel writing idle buffer =>
        have hpushed : s.Conserved first h (log ++ more) := hs.pushed pushes rfl rfl
        exact hpushed.taken buffer _
      | wait p channel _ buffer => exact (hs.pushed pushes rfl buffer).history rfl rfl
      | deleteEnds | writerAnswer | writerEnd => exact (hs.pushed pushes rfl rfl).history rfl rfl
      | drainBegin | backendStop => cases serving
      | drainAnswer drain job answer hand =>
        exact absurd (hand.symm.trans (dry_of_serving hlog.run dry hbefore)) (Option.some_ne_none _)
      | take | stop | drainOn | drainEnd => cases still
  | @move h s s' e log hlog next moves ih =>
    have hbefore := serving_of_next? next serving
    have hs := ih hbefore
    have hclient : e.isClient = false := by cases e <;> first | rfl | cases moves
    cases task_of_next? hclient next with
    | take p running =>
      have htaken := hs.arranged p ((s.container.queues.get p).pop s.container.config.saveBatch).2
        { (s.container.savers.get p) with
          held := (s.container.savers.get p).held ++
            ((s.container.queues.get p).pop s.container.config.saveBatch).1 }
        s.container.channel ?_ rfl
      · exact htaken.history rfl rfl
      · rw [Queue.pop, List.append_assoc, List.take_append_drop]
    | stop p running =>
      exact (hs.arranged p ((s.container.queues.get p).requeue (s.container.savers.get p).held)
        { running := false } (s.container.channel.leave p) rfl rfl).history rfl rfl
    | drainOn drain idle | drainEnd drain idle =>
      exact absurd (idle.symm.trans (dry_of_serving hlog.run dry hbefore)) (Option.some_ne_none _)
    | _ => cases moves

end System

namespace Container

theorem queues_restoreRecord (now : UInt64) (state : Container × List String) (key : String)
    (record : Record) : (restoreRecord now state key record).1.queues = state.1.queues := by
  obtain ⟨c, expired⟩ := state
  rcases restoreRecord_cases c now expired key record with ⟨s, -, -, htake⟩ | ⟨-, -, hstay⟩ | ⟨-, hstay⟩
  · rw [htake]
    exact queues_registerExpiry _ _
  · rw [hstay]
  · rw [hstay]

theorem queues_restore (now : UInt64) (records : List (String × Record))
    (state : Container × List String) :
    (records.foldl (fun state (key, record) => restoreRecord now state key record) state).1.queues =
      state.1.queues := by
  induction records generalizing state with
  | nil => rfl
  | cons entry records ih => exact (ih _).trans (queues_restoreRecord now state entry.1 entry.2)

theorem queues_beginOpen (config : Config) (now : UInt64) (records : List (String × Record)) :
    (beginOpen config now records).container.queues = (create config true).queues :=
  queues_restore now records _

end Container

theorem Opens.enqueues {o : Opening} {calls : List (Request × Backend.Answer)} {c : Container}
    (h : Opens o calls c) : ∃ log, o.container.toWriteBack.Enqueues log c.toWriteBack := by
  induction h with
  | done => exact ⟨[], .still rfl⟩
  | @step o request answer calls c call rest ih =>
    obtain ⟨log, hlog⟩ := ih
    obtain ⟨key, expired, hkey, -⟩ := request?_eq_some call
    rcases proceed_cases hkey answer with ⟨e, -, heq⟩ | ⟨-, heq⟩ | ⟨e, -, heq⟩
    · rw [heq] at hlog
      exact ⟨log, hlog⟩
    · rw [heq] at hlog
      exact ⟨log, hlog⟩
    · rw [heq] at hlog
      have hburied : o.container.toWriteBack.Enqueues [] (o.container.bury key).toWriteBack :=
        .still rfl
      exact ⟨_, (hburied.trans (WriteBack.enqueues_schedule _ _)).trans hlog⟩

namespace System

variable {s : System} {h : List Moment} {config : Config} {now : UInt64} {b : Backend}
  {opening : List (Request × Backend.Answer)} {c : Container}

/--
The savers lose nothing, and keep the order. Up to the end of its saver, and on until the final drain,
the sequence of all pushes onto a queue is what its saver has sent, what it holds, and what the queue
has, one after the other. The pushes of the opening come first. A saver that has ended holds nothing, and
the writer receives what all savers send in the order in which they send it.
-/
theorem savers_conserve_pushes (opens : Opens (beginOpen config now b.scan) opening c)
    (run : Run (System.start c) h s) :
    (∃ first log, (create config true).toWriteBack.Enqueues first c.toWriteBack ∧
      Enqueued (System.start c) h s log) ∧
    ∀ first log, (create config true).toWriteBack.Enqueues first c.toWriteBack →
      Enqueued (System.start c) h s log →
      (∀ p : Partition,
        ((s.container.savers.get p).running = true ∨ s.stage = .serving →
          (sends h).onto p ++ (s.container.savers.get p).held ++ (s.container.queues.get p).items =
            Pushes.onto p (first ++ log)) ∧
        ((s.container.savers.get p).running = false → (s.container.savers.get p).held = [])) ∧
      (s.stage = .serving → received h ++ s.container.channel.buffer.items = (sends h).sketches) := by
  obtain ⟨-, hdrain, hbuffer, hheld, -⟩ := opens.ready_beginOpen.idle
  refine ⟨?_, fun first log hfirst hlog => ?_⟩
  · obtain ⟨first, hfirst⟩ := opens.enqueues
    obtain ⟨log, hlog⟩ := exists_enqueued run
    have hbegun : (create config true).toWriteBack.Enqueues []
        (beginOpen config now b.scan).container.toWriteBack :=
      .still (queues_beginOpen config now b.scan)
    exact ⟨_, log, hbegun.trans hfirst, hlog⟩
  · have hstart : (System.start c).Conserved first [] [] := by
      refine ⟨fun p => ?_, hbuffer⟩
      have hempty : ((create config true).queues.get p).items = [] :=
        congrArg Queue.items (Vector.getElem_replicate p.isLt)
      change [] ++ (c.savers.get p).held ++ (c.queues.get p).items = _
      rw [hheld, hfirst.items, hempty, List.append_nil, List.append_nil]
      rfl
    have hconserved := hlog.conserved hdrain hstart
    refine ⟨fun p => ⟨fun hlive => ?_, held_eq_nil_of_ended run hheld⟩,
      fun serving => (hconserved serving).delivered⟩
    have serving : s.stage = .serving := hlive.elim (serving_of_running run rfl hdrain) id
    exact (hconserved serving).account p

/-- A saver is told to end when it has sent one sketch of two, and a third has come meanwhile. -/
def saverEvents : List Event :=
  [.add 1 "a" (some [1]) 0, .add 1 "c" (some [1]) 0, .saverTake 3, .saverSend 3,
    .add 1 "g" (some [1]) 0, .stop, .saverStop 3]

theorem savers_conserve_pushes_sample :
    let played := (System.start sampleContainer).played saverEvents (by decide +kernel)
    (sends played.1).onto 3 = [0] ∧ (played.2.container.savers.get 3).held = [] ∧
      (played.2.container.queues.get 3).items = [1, 2] ∧
      ∀ log, Enqueued (System.start sampleContainer) played.1 played.2 log → log.onto 3 = [0, 1, 2] := by
  intro played
  have hsent : (sends played.1).onto 3 = [0] := by decide +kernel
  have hended : (played.2.container.savers.get 3).running = false := by decide +kernel
  have hitems : (played.2.container.queues.get 3).items = [1, 2] := by decide +kernel
  have hserving : played.2.stage = .serving := by decide +kernel
  have run : Run (System.start sampleContainer) played.1 played.2 :=
    (System.start sampleContainer).run_played saverEvents (by decide +kernel)
  clear_value played
  obtain ⟨-, hall⟩ := savers_conserve_pushes opens_sampleContainer run
  have hopened : (create { shards := 4 } true).toWriteBack.Enqueues [] sampleContainer.toWriteBack :=
    .still rfl
  refine ⟨hsent, ?_, hitems, fun log hlog => ?_⟩
  · obtain ⟨log, hlog⟩ := exists_enqueued run
    exact ((hall [] log hopened hlog).1 3).2 hended
  · obtain ⟨haccount, hheld⟩ := (hall [] log hopened hlog).1 3
    have haccount := haccount (.inr hserving)
    rw [hheld hended, hsent, hitems] at haccount
    exact haccount.symm

end System

end DistinctCount
