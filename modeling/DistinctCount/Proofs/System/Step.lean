import DistinctCount.Proofs.Container.Apart
import DistinctCount.Proofs.System.Next

namespace DistinctCount.System

open Container

variable {s s' : System} {e : Event} {n : Nat}

/-- What holds of the tasks and of the shutdown at all times. -/
structure Orderly (s : System) : Prop where
  persistent : s.container.persistent = true
  idle : s.writing = false → s.container.job = none ∧ s.container.channel.buffer.items = []
  parked : ∀ p : Partition,
    (s.container.savers.get p).running = false → (s.container.savers.get p).held = []
  quiet : s.stage ≠ .serving →
    s.container.closed = true ∧ s.writing = false ∧ s.container.saversRunning = false
  dry : s.stage ≠ .draining → s.container.drain = none

theorem Orderly.draining_of_drain (ho : s.Orderly) {x : Drain × Option Job}
    (hd : s.container.drain = some x) : s.stage = .draining := by
  by_contra hne
  rw [ho.dry hne] at hd
  cases hd

theorem Orderly.job_eq_none (ho : s.Orderly) {x : Drain × Option Job}
    (hd : s.container.drain = some x) : s.container.job = none :=
  (ho.idle (ho.quiet (by rw [ho.draining_of_drain hd]; decide)).2.1).1

theorem Orderly.drain_eq_none (ho : s.Orderly) {job : Job} (hj : s.container.job = some job) :
    s.container.drain = none := by
  cases hd : s.container.drain with
  | none => rfl
  | some x =>
    rw [ho.job_eq_none hd] at hj
    cases hj

theorem Orderly.serving_of_writing (ho : s.Orderly) (hw : s.writing = true) : s.stage = .serving := by
  by_contra hne
  rw [(ho.quiet hne).2.1] at hw
  cases hw

theorem Orderly.drain_of_writing (ho : s.Orderly) (hw : s.writing = true) :
    s.container.drain = none :=
  ho.dry (by rw [ho.serving_of_writing hw]; decide)

theorem saversRunning_eq_false {c : Container} :
    c.saversRunning = false ↔ ∀ p : Partition, (c.savers.get p).running = false := by
  rw [saversRunning, List.any_eq_false]
  simp only [Vector.mem_toList_iff, Vector.mem_iff_getElem, Bool.not_eq_true]
  constructor
  · intro h p
    exact h _ ⟨p.val, p.isLt, rfl⟩
  · rintro h _ ⟨i, hi, rfl⟩
    exact h ⟨i, hi⟩

theorem Orderly.held_eq_nil (ho : s.Orderly) (h : s.container.saversRunning = false) :
    s.container.held = [] := by
  refine List.eq_nil_iff_forall_not_mem.2 fun id hid => ?_
  obtain ⟨p, hp⟩ := mem_held.1 hid
  rw [ho.parked p (saversRunning_eq_false.1 h p)] at hp
  cases hp

theorem Orderly.serving_of_running (ho : s.Orderly) {p : Partition}
    (hp : (s.container.savers.get p).running = true) : s.stage = .serving := by
  by_contra hne
  rw [saversRunning_eq_false.1 (ho.quiet hne).2.2 p] at hp
  cases hp

theorem Orderly.arrange (ho : s.Orderly) {p : Partition}
    (hp : (s.container.savers.get p).running = true) (queue : Queue SketchId) (saver : Saver)
    (channel : Channel) (parked : saver.running = false → saver.held = [])
    (hbuffer : s.writing = true ∨ channel.buffer = s.container.channel.buffer) :
    Orderly (s.put (s.container.arrange p queue saver channel)) := by
  have hserving := ho.serving_of_running hp
  refine ⟨ho.persistent, ?_, ?_, ?_, ho.dry⟩
  · intro hw
    have hold := ho.idle hw
    rcases hbuffer with hw' | hsame
    · exact absurd (hw'.symm.trans hw) (by decide)
    · exact ⟨hold.1, hsame ▸ hold.2⟩
  · intro q
    have hq : (s.container.arrange p queue saver channel).savers.get q =
        if q = p then saver else s.container.savers.get q := get_assign _ _ _ _
    change ((s.container.arrange p queue saver channel).savers.get q).running = false → _
    rw [put, hq]
    split
    · exact parked
    · exact ho.parked q
  · intro hne
    exact absurd hserving hne

theorem Orderly.client (ho : s.Orderly) {closed stopping : Bool} {c' : Container}
    (apart : Apart { s.container with closed, stopping } c')
    (hclosed : s.container.closed = true → closed = true) (callers : List (String × Ticket)) :
    Orderly { s with container := c', callers } := by
  refine ⟨apart.persistent.trans ho.persistent, ?_, ?_, ?_, ?_⟩
  · intro hw
    rw [apart.job, apart.channel]
    exact ho.idle hw
  · intro p
    rw [apart.savers]
    exact ho.parked p
  · intro hstage
    obtain ⟨hshut, hwriting, hrunning⟩ := ho.quiet hstage
    refine ⟨apart.closed.trans (hclosed hshut), hwriting, ?_⟩
    rw [saversRunning, apart.savers]
    exact hrunning
  · intro hstage
    rw [apart.drain]
    exact ho.dry hstage

theorem Orderly.serving_of_job (ho : s.Orderly) {job : Job} (hj : s.container.job = some job) :
    s.stage = .serving := by
  by_contra hne
  rw [(ho.idle (ho.quiet hne).2.1).1] at hj
  cases hj

/-- What a client does is a run of changes, with at most one mutation that no merit accounts for. -/
theorem changes_applied {c : Container} (hc : c.Coherent n) (hn : n < 2 ^ 62)
    (hp : c.persistent = true) (e : Event) : ∃ k ≤ 1, Changes k c (e.applied c) := by
  cases e with
  | add now key value ttl =>
    rw [Event.applied, add_eq_addMany]
    exact ⟨0, Nat.zero_le _, changes_addMany hc hn hp now key _ ttl⟩
  | addMany now key values ttl => exact ⟨0, Nat.zero_le _, changes_addMany hc hn hp now key values ttl⟩
  | updateExpiry now key ttl =>
    cases hget : c.get? key with
    | none =>
      have hnone : c.updateExpiry now key ttl = (false, c) := by
        rw [updateExpiry, hget]
      rw [Event.applied, hnone]
      exact ⟨0, Nat.zero_le _, .refl _⟩
    | some id => exact ⟨1, Nat.le_refl _, changes_updateExpiry hc hn hp now ttl hget⟩
  | delete key => exact ⟨0, Nat.zero_le _, changes_beginDelete hc hn hp key⟩
  | sweep now => exact ⟨0, Nat.zero_le _, changes_sweep hc hn hp now⟩
  | close => exact ⟨0, Nat.zero_le _, (Change.shut true _).changes⟩
  | stop => exact ⟨0, Nat.zero_le _, (Change.shut _ true).changes⟩
  | _ => exact ⟨0, Nat.zero_le _, .refl _⟩

theorem Task.move (htask : s.Task e s') (ho : s.Orderly) :
    Move s.container (Moment.answered? ⟨s, e⟩) s'.container := by
  cases htask with
  | take p => exact move_saverTake s.container p
  | send p id held channel _ _ first buffer => exact move_saverSend first buffer
  | wait p channel _ buffer =>
    exact move_still ⟨rfl, rfl, rfl, rfl, rfl, rfl, rfl⟩ rfl rfl buffer rfl rfl rfl
  | stop p => exact move_saverStop s.container p
  | receive id channel writing idle buffer =>
    refine move_receive ?_ buffer
    rw [jobs, idle, ho.drain_of_writing writing]
    rfl
  | writerAnswer job answer hand =>
    have hanswered : Moment.answered? ⟨s, .writerAnswer answer⟩ = some (job, answer) := by
      simp only [Moment.answered?, hand]
    rw [hanswered]
    exact move_writerProceed hand (ho.drain_eq_none hand) answer
  | drainBegin serving =>
    have hdrain := ho.dry (by rw [serving]; decide)
    refine move_still ⟨rfl, rfl, rfl, rfl, rfl, rfl, rfl⟩ rfl rfl rfl rfl ?_ ?_
    · rw [hdrain]
      rfl
    · rw [hdrain]
      rfl
  | drainOn drain idle queues onward fewer advance =>
    have hmove := move_drainAdvance idle (ho.job_eq_none idle)
    rwa [advance] at hmove
  | drainEnd drain idle advance =>
    have hmove := move_drainAdvance idle (ho.job_eq_none idle)
    rwa [advance] at hmove
  | drainAnswer drain job answer hand =>
    have hjob := ho.job_eq_none hand
    have hanswered : Moment.answered? ⟨s, .drainAnswer answer⟩ = some (job, answer) := by
      simp only [Moment.answered?, hjob, hand]
    rw [hanswered]
    exact move_drainProceed hand hjob answer
  | deleteEnds | writerEnd | backendStop =>
    exact move_still ⟨rfl, rfl, rfl, rfl, rfl, rfl, rfl⟩ rfl rfl rfl rfl rfl rfl

theorem move_next? (ho : s.Orderly) (hc : s.container.Coherent n) (hn : n < 2 ^ 62)
    (h : s.next? e = some s') : Move s.container (Moment.answered? ⟨s, e⟩) s'.container := by
  rcases next?_cases h with ⟨he, callers, rfl⟩ | htask
  · obtain ⟨k, hk, changes⟩ := changes_applied hc hn ho.persistent e
    have hnone : Moment.answered? ⟨s, e⟩ = none := by
      cases e <;> first | rfl | cases he
    rw [hnone]
    exact .client changes hk
  · exact htask.move ho

/-- What a client does leaves the tasks alone, but it may close the container and tell them to stop. -/
theorem apart_applied (c : Container) (e : Event) :
    ∃ closed stopping, Apart { c with closed, stopping } (e.applied c) ∧
      (c.closed = true → closed = true) ∧ (c.stopping = true → stopping = true) := by
  cases e with
  | add now key value ttl => exact ⟨_, _, apart_add c now key value ttl, id, id⟩
  | addMany now key values ttl => exact ⟨_, _, apart_addMany c now key values ttl, id, id⟩
  | updateExpiry now key ttl => exact ⟨_, _, apart_updateExpiry c now key ttl, id, id⟩
  | delete key => exact ⟨_, _, apart_beginDelete c key, id, id⟩
  | sweep now => exact ⟨_, _, apart_sweep c now, id, id⟩
  | close => exact ⟨true, c.stopping, .refl _, fun _ => rfl, id⟩
  | stop => exact ⟨c.closed, true, .refl _, id, fun _ => rfl⟩
  | _ => exact ⟨c.closed, c.stopping, .refl _, id, id⟩

theorem Task.orderly (htask : s.Task e s') (ho : s.Orderly) : s'.Orderly := by
  cases htask with
  | deleteEnds => exact ⟨ho.persistent, ho.idle, ho.parked, ho.quiet, ho.dry⟩
  | take p running =>
    refine ho.arrange running ((s.container.queues.get p).pop s.container.config.saveBatch).2
      { (s.container.savers.get p) with
        held := (s.container.savers.get p).held ++
          ((s.container.queues.get p).pop s.container.config.saveBatch).1 }
      s.container.channel ?_ (.inr rfl)
    intro hr
    exact absurd (running.symm.trans hr) (by decide)
  | send p id held channel running writing =>
    refine ho.arrange running _ _ _ ?_ (.inl writing)
    intro hr
    exact absurd (running.symm.trans hr) (by decide)
  | wait p channel _ buffer =>
    refine ⟨ho.persistent, fun hw => ?_, ho.parked, ho.quiet, ho.dry⟩
    exact ⟨(ho.idle hw).1, (congrArg Queue.items buffer).trans (ho.idle hw).2⟩
  | stop p running =>
    exact ho.arrange running ((s.container.queues.get p).requeue (s.container.savers.get p).held)
      { running := false } (s.container.channel.leave p) (fun _ => rfl) (.inr rfl)
  | receive id channel writing =>
    refine ⟨ho.persistent, fun hw => ?_, ho.parked, ho.quiet, ho.dry⟩
    exact absurd (writing.symm.trans hw) (by decide)
  | writerAnswer job answer hand =>
    refine ⟨ho.persistent, fun hw => ?_, ho.parked, ho.quiet, ho.dry⟩
    exact absurd (hand.symm.trans (ho.idle hw).1) (Option.some_ne_none job)
  | writerEnd writing idle empty =>
    refine ⟨ho.persistent, fun _ => ⟨idle, empty⟩, ho.parked, fun hne => ?_, ho.dry⟩
    exact absurd (ho.serving_of_writing writing) hne
  | drainBegin serving closed ended parked =>
    exact ⟨ho.persistent, ho.idle, ho.parked, fun _ => ⟨closed, ended, parked⟩, fun hne => absurd rfl hne⟩
  | drainOn drain idle | drainAnswer drain job answer idle =>
    have hstage := ho.draining_of_drain idle
    exact ⟨ho.persistent, ho.idle, ho.parked, ho.quiet, fun hne => absurd hstage hne⟩
  | drainEnd drain idle =>
    have hstage := ho.draining_of_drain idle
    exact ⟨ho.persistent, ho.idle, ho.parked, fun _ => ho.quiet (by rw [hstage]; decide), fun _ => rfl⟩
  | backendStop answer drained =>
    refine ⟨ho.persistent, ho.idle, ho.parked, fun _ => ho.quiet ?_, fun _ => ho.dry ?_⟩
    · rw [drained]
      decide
    · rw [drained]
      decide

theorem orderly_next? (ho : s.Orderly) (h : s.next? e = some s') : s'.Orderly := by
  rcases next?_cases h with ⟨-, callers, rfl⟩ | htask
  · obtain ⟨closed, stopping, apart, hclosed, -⟩ := apart_applied s.container e
    exact ho.client apart hclosed callers
  · exact htask.orderly ho

end DistinctCount.System
