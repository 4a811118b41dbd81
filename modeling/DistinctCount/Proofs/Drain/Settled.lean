import DistinctCount.Proofs.Drain.Tended
import DistinctCount.Proofs.System.Opening

/-!
Four passes are enough for a drain in which two writes fail. A pass without a failure leaves only
live sketches waiting, as those it makes wait have taken the place of deleted ones. A second one leaves
none, and of four passes at least two are without a failure.
-/

namespace DistinctCount

/-- If nothing is in the hands of a saver, a writer or a drain, then a drain can bring all to its end. -/
theorem Container.Coherent.drainable {c : Container} {n : Nat} (hc : c.Coherent n) (hf : c.Flow)
    (hi : c.Intact) (hstowed : c.stowed = []) (hjobs : c.jobs = []) : c.Drainable := by
  have hpipeline : c.pipeline = c.queued := by
    rw [pipeline, backlog, hstowed, hjobs, List.append_nil, List.map_nil, List.append_nil]
  have hnonneg (id : SketchId) : 0 ≤ (c.sketch id).pending := by
    rw [Int64.le_iff_toInt_le, Int64.toInt_zero]
    exact (hc.measured id).1
  refine ⟨?_, fun key id hget => (hc.get?_eq_some.1 hget).2.1, ?_, ?_, ?_⟩
  · intro key id hget
    obtain ⟨made, -, hkey⟩ := hc.get?_eq_some.1 hget
    exact ⟨made, hkey, hc.valid id made, hnonneg id⟩
  · intro key id hget hpos
    rw [← hpipeline]
    refine hi id fun hzero => ?_
    rw [hzero] at hpos
    exact absurd hpos (by decide)
  · intro id hid
    rw [← hpipeline] at hid
    exact Int64.lt_of_le_of_ne (hnonneg id) (hf.dirty id hid).symm
  · intro id hid hlive
    rw [← hpipeline] at hid
    exact hc.get?_eq_some.2 ⟨hf.lt_next hid, hlive, rfl⟩

theorem System.Sane.drainable {s s' : System} {n : Nat} (hs : s.Sane n) (hi : s.container.Intact)
    (hbegin : s.next? .drainBegin = some s') : s.container.Drainable := by
  cases System.task_of_next? rfl hbegin with
  | drainBegin serving _ ended parked =>
    obtain ⟨hjob, hbuffer⟩ := hs.orderly.idle ended
    have hdrain := hs.orderly.dry (by rw [serving]; decide)
    have hheld := hs.orderly.held_eq_nil parked
    refine hs.coherent.drainable hs.flow hi ?_ ?_
    · rw [Container.stowed, hheld, hbuffer, hdrain]
      rfl
    · rw [Container.jobs, hdrain, hjob]
      rfl

namespace Drainage

variable {w : WriteBack} {s s' : Drainage} {drain : Drain} {job next : Option Job} {j : Job}
  {clean before limit : Nat} {told : Nat → Option Nat}

/--
How far a drain has come. Of the passes before this one `clean` were without a failure; when it
began, `before` writes had failed.
-/
structure Passing (w : WriteBack) (s : Drainage) (drain : Drain) (job : Option Job)
    (clean before : Nat) : Prop where
  passes : 4 ≤ drain.passes + clean + before
  failed : before ≤ s.failedWrites
  live : 1 ≤ clean → ∀ id, s.Waits id → (w.sketch id).deleted = false
  gone : 2 ≤ clean → ∀ id, ¬ s.Waits id
  passed : s.failedWrites = before → ∀ (p : Partition) id, p.val < drain.queue →
    id ∈ (s.container.queues.get p).items → (w.sketch id).deleted = false ∧ clean = 0
  idle : drain.progressed = false →
    (∀ p : Partition, p.val < drain.queue → (s.container.queues.get p).items = []) ∧
      drain.batch = [] ∧ job = none

def Progressing (w : WriteBack) (s : Drainage) : Prop :=
  match s.container.drain with
  | some (drain, job) => ∃ clean before, Passing w s drain job clean before
  | none => s.failedWrites ≤ 2 → ∀ id, ¬ s.Waits id

theorem progressing_some (hdrain : s.container.drain = some (drain, job)) :
    Progressing w s ↔ ∃ clean before, Passing w s drain job clean before := by
  rw [Progressing, hdrain]

theorem progressing_none (hdrain : s.container.drain = none) :
    Progressing w s ↔ (s.failedWrites ≤ 2 → ∀ id, ¬ s.Waits id) := by
  rw [Progressing, hdrain]

theorem progressing_begin (hdrain : s.container.drain = some ({}, none)) : Progressing w s := by
  refine (progressing_some hdrain).2 ⟨0, 0, by decide, Nat.zero_le _, nofun, nofun, ?_, ?_⟩
  · exact fun _ _ _ hp => absurd hp (Nat.not_lt_zero _)
  · exact fun _ => ⟨fun _ hp => absurd hp (Nat.not_lt_zero _), rfl, rfl⟩

/-- At the end of a pass, what waits is in the queues that the pass has been to. -/
theorem mem_items_of_waits
    (hdrain : s.container.drain = some (drain, none)) (hb : drain.batch = []) (hqueue : 8 ≤ drain.queue)
    {id : SketchId} (hid : s.Waits id) :
    ∃ p : Partition, p.val < drain.queue ∧ id ∈ (s.container.queues.get p).items := by
  rw [waits_idle hdrain, hb, List.mem_nil_iff, or_false, WriteBack.mem_queued] at hid
  obtain ⟨p, hp⟩ := hid
  exact ⟨p, Nat.lt_of_lt_of_le p.isLt hqueue, hp⟩

/-- The pass that ends was without a failure, or has one of its own. -/
theorem Passing.again (h : Passing w s drain none clean before)
    (hdrain : s.container.drain = some (drain, none)) (hb : drain.batch = []) (hqueue : 8 ≤ drain.queue)
    (hpasses : 1 < drain.passes) (hsame : s'.failedWrites = s.failedWrites)
    (hwaits : ∀ id, s'.Waits id ↔ s.Waits id) :
    ∃ clean before, Passing w s'
      { drain with passes := drain.passes - 1, queue := 0, progressed := false } none clean before := by
  have hpass := h.passes
  have hbefore := h.failed
  have hnone {P : Partition → Prop} : ∀ p : Partition, p.val < 0 → P p :=
    fun _ hp => absurd hp (Nat.not_lt_zero _)
  by_cases hfailed : s.failedWrites = before
  -- without a failure, what waits has been made to wait by this pass, which no pass before allowed
  · have hend {id : SketchId} (hid : s'.Waits id) : (w.sketch id).deleted = false ∧ clean = 0 := by
      obtain ⟨p, hp, hmem⟩ := mem_items_of_waits hdrain hb hqueue ((hwaits id).1 hid)
      exact h.passed hfailed p id hp hmem
    refine ⟨clean + 1, before, ?_, by omega, fun _ id hid => (hend hid).1, ?_, ?_, ?_⟩
    · dsimp only
      omega
    · intro hclean id hid
      have hzero := (hend hid).2
      omega
    · exact fun _ p _ hp => absurd hp (Nat.not_lt_zero _)
    · exact fun _ => ⟨hnone, hb, rfl⟩
  · refine ⟨clean, s.failedWrites, ?_, by omega, ?_, ?_, ?_, ?_⟩
    · dsimp only
      omega
    · exact fun hclean id hid => h.live hclean id ((hwaits id).1 hid)
    · exact fun hclean id hid => h.gone hclean id ((hwaits id).1 hid)
    · exact fun _ p _ hp => absurd hp (Nat.not_lt_zero _)
    · exact fun _ => ⟨hnone, hb, rfl⟩

/-- A drain that returns has found no sketch in its last pass, or has made four. -/
theorem Passing.finish (h : Passing w s drain none clean before)
    (hdrain : s.container.drain = some (drain, none)) (hb : drain.batch = []) (hqueue : 8 ≤ drain.queue)
    (hlast : drain.progressed = true → drain.passes ≤ 1) (hfailed : s.failedWrites ≤ 2)
    (id : SketchId) : ¬ s.Waits id := by
  intro hid
  obtain ⟨p, hp, hmem⟩ := mem_items_of_waits hdrain hb hqueue hid
  have hpass := h.passes
  have hbefore := h.failed
  cases hprogressed : drain.progressed with
  | false =>
    rw [(h.idle hprogressed).1 p hp] at hmem
    cases hmem
  | true =>
    -- of the three passes before the last, two at least were without a failure, or one and the last
    have hone := hlast hprogressed
    by_cases hclean : 2 ≤ clean
    · exact h.gone hclean id hid
    · have hzero := (h.passed (by omega) p id hp hmem).2
      omega

theorem Passing.write {batch : List SketchId} {first : SketchId}
    (h : Passing w s drain none clean before) (hb : drain.batch = first :: batch)
    (hsame : s'.failedWrites = s.failedWrites) (hqueues : s'.container.queues = s.container.queues)
    (hwaits : ∀ id, s'.Waits id ↔ s.Waits id) : Passing w s' { drain with batch } job clean before where
  passes := h.passes
  failed := hsame ▸ h.failed
  live := fun hclean id hid => h.live hclean id ((hwaits id).1 hid)
  gone := fun hclean id hid => h.gone hclean id ((hwaits id).1 hid)
  passed := by
    rw [hsame, hqueues]
    exact h.passed
  idle := by
    intro hidle
    obtain ⟨-, hnone, -⟩ := h.idle hidle
    rw [hb] at hnone
    cases hnone

theorem Passing.queue (h : Passing w s drain none clean before) (hqueue : drain.queue < 8)
    (hwaits : ∀ id, Waits { s with container := s.container.drainQueue drain hqueue } id ↔ s.Waits id) :
    Passing w { s with container := s.container.drainQueue drain hqueue }
      { drain with
        queue := drain.queue + 1
        batch := s.container.queues[drain.queue].items
        progressed := drain.progressed || !s.container.queues[drain.queue].items.isEmpty
        written := drain.written + s.container.queues[drain.queue].items.length } none clean before where
  passes := h.passes
  failed := h.failed
  live := fun hclean id hid => h.live hclean id ((hwaits id).1 hid)
  gone := fun hclean id hid => h.gone hclean id ((hwaits id).1 hid)
  passed := by
    intro hsame p id hp hid
    obtain ⟨hne, hold⟩ := (mem_items_drainQueue hqueue p).1 hid
    exact h.passed hsame p id (Nat.lt_of_le_of_ne (Nat.le_of_lt_succ hp) hne) hold
  idle := by
    intro hidle
    obtain ⟨hprogressed, hnone⟩ := Bool.or_eq_false_iff.1 hidle
    refine ⟨fun p hp => List.eq_nil_iff_forall_not_mem.2 fun id hid => ?_,
      List.isEmpty_iff.1 (by simpa using hnone), rfl⟩
    obtain ⟨hne, hold⟩ := (mem_items_drainQueue hqueue p).1 hid
    rw [(h.idle hprogressed).1 p (Nat.lt_of_le_of_ne (Nat.le_of_lt_succ hp) hne)] at hold
    cases hold

theorem Progressing.advance (h : Progressing w s) (hdrain : s.container.drain = some (drain, none)) :
    Progressing w { s with container := (s.container.drainAdvance drain).2 } := by
  obtain ⟨clean, before, h⟩ := (progressing_some hdrain).1 h
  have hwaits := waits_advance hdrain
  obtain ⟨first, batch, hb, heq⟩ | ⟨hb, hqueue, heq⟩ | ⟨hb, hqueue, -, hpasses, heq⟩ |
    ⟨hb, hqueue, hlast, heq⟩ := s.container.drainAdvance_cases drain
  all_goals rw [heq] at hwaits ⊢
  · exact (progressing_some rfl).2 ⟨clean, before, h.write hb rfl rfl hwaits⟩
  · exact (progressing_some rfl).2 ⟨clean, before, h.queue hqueue hwaits⟩
  · exact (progressing_some rfl).2 (h.again hdrain hb hqueue hpasses rfl hwaits)
  · exact (progressing_none rfl).2 fun hfailed id hid =>
      h.finish hdrain hb hqueue hlast hfailed id ((hwaits id).1 hid)

/--
An answer leaves a drain as far as it was if what waits anew is live, and if no pass before was without
a failure.
-/
theorem Passing.answer (h : Passing w s drain (some j) clean before)
    (hfailed : s.failedWrites ≤ s'.failedWrites)
    (hwaits : ∀ id, s'.Waits id → s.Waits id ∨ (w.sketch id).deleted = false ∧ clean = 0)
    (hqueues : s'.failedWrites = s.failedWrites → ∀ (p : Partition) id,
      id ∈ (s'.container.queues.get p).items →
      id ∈ (s.container.queues.get p).items ∨ (w.sketch id).deleted = false ∧ clean = 0) :
    Passing w s' drain next clean before where
  passes := h.passes
  failed := Nat.le_trans h.failed hfailed
  live := fun hclean id hid => (hwaits id hid).elim (h.live hclean id) And.left
  gone := by
    intro hclean id hid
    rcases hwaits id hid with hold | ⟨-, hzero⟩
    · exact h.gone hclean id hold
    · omega
  passed := by
    intro hsame p id hp hid
    have hbefore := h.failed
    exact (hqueues (by omega) p id hid).elim (h.passed (by omega) p id hp) fun hnew => hnew
  idle := by
    intro hidle
    cases (h.idle hidle).2.2

theorem Progressing.answer (hw : w.Drainable) (ht : Tended w s) (h : Progressing w s)
    (hdrain : s.container.drain = some (drain, some j)) (answered : Answered s drain j s') :
    Progressing w s' := by
  obtain ⟨clean, before, h⟩ := (progressing_some hdrain).1 h
  have hj := ht.job j (by rw [job?, hdrain]; rfl)
  have hself : s.Waits j.sketch := (waits_job hdrain).2 (.inr (.inr rfl))
  cases answered with
  | again writeBack next records more failed =>
    refine (progressing_some next).2 ⟨clean, before, h.answer failed.2.ge ?_ ?_⟩
    · intro id hid
      rw [waits_job next, writeBack] at hid
      exact .inl ((waits_job hdrain).2 hid)
    · intro _ p id hid
      rw [writeBack] at hid
      exact .inl hid
  | flush stage writeBack next records failed =>
    refine (progressing_some next).2 ⟨clean, before, h.answer failed.2.ge ?_ ?_⟩
    · intro id hid
      rw [waits_job next, writeBack] at hid
      exact .inl ((waits_job hdrain).2 hid)
    · intro _ p id hid
      rw [writeBack] at hid
      exact .inl hid
  | success writeBack next records failed =>
    have hheir {id : SketchId} (hid : s.container.heir? j = some id) :
        (w.sketch id).deleted = false ∧ clean = 0 := by
      obtain ⟨hdead, hget⟩ := (ht.heir?_eq_some hw hj).1 hid
      refine ⟨hw.live _ id hget, ?_⟩
      by_contra hclean
      rw [h.live (Nat.pos_of_ne_zero hclean) j.sketch hself] at hdead
      cases hdead
    refine (progressing_some next).2 ⟨clean, before, h.answer failed.2.ge ?_ ?_⟩
    · intro id hid
      rcases (ht.waits_success hw hdrain writeBack next id).1 hid with hqueued | ⟨hid, -⟩ | hbatch
      · exact .inl (.inl hqueued)
      · exact .inr (hheir hid)
      · exact .inl ((waits_job hdrain).2 (.inr (.inl hbatch)))
    · intro _ p id hid
      rw [writeBack, (ht.success_spec hw hdrain).queues] at hid
      exact hid.imp_right fun hid => hheir hid.1
  | failure v left writeBack next records last failed =>
    obtain ⟨-, -, hqueues⟩ := kept_left j.sketch left
    refine (progressing_some next).2 ⟨clean, before, h.answer (by omega) ?_ (fun hsame => by omega)⟩
    intro id hid
    rw [waits_idle next, writeBack, WriteBack.mem_queued_enqueue, WriteBack.queued, hqueues] at hid
    refine .inl ((waits_job hdrain).2 ?_)
    rcases hid with (hqueued | rfl) | hbatch
    · exact .inl hqueued
    · exact .inr (.inr rfl)
    · exact .inr (.inl hbatch)

theorem Progressing.step (hw : w.Drainable) (ht : Tended w s) (h : Progressing w s)
    (hopen : s.backend.stopped = false) : Progressing w (s.step told) := by
  match hdrain : s.container.drain with
  | none => rwa [step_of_returned hdrain]
  | some (drain, none) =>
    rw [step_of_idle hdrain]
    exact h.advance hdrain
  | some (drain, some job) =>
    rw [step_of_job hdrain]
    exact h.answer hw ht hdrain (answered_spec drain job hopen _).2

structure Sound (w : WriteBack) (limit : Nat) (s : Drainage) : Prop where
  opened : s.backend.stopped = false
  budgeted : s.Budgeted limit
  tended : Tended w s
  progressing : Progressing w s

theorem Sound.step (hw : w.Drainable) (h : s.Sound w limit) : (s.step told).Sound w limit where
  opened := open_step h.opened
  budgeted := h.budgeted.step h.opened
  tended := h.tended.step hw h.opened
  progressing := h.progressing.step hw h.tended h.opened

theorem Sound.run (hw : w.Drainable) (h : s.Sound w limit) (told : Nat → Option Nat) (n : Nat) :
    ((Drainage.step told)^[n] s).Sound w limit := by
  induction n with
  | zero => exact h
  | succ n ih =>
    rw [Function.iterate_succ_apply']
    exact ih.step hw

theorem sound_begin {c : Container} {b : Backend} (hc : c.Drainable) (hopen : b.stopped = false) :
    Sound c.toWriteBack (max 1 c.retry.maxAttempts.toNat)
      { container := c.beginDrain, backend := b } where
  opened := hopen
  budgeted := ⟨rfl, Nat.le_refl _, nofun⟩
  tended := tended_begin hc rfl rfl
  progressing := progressing_begin rfl

theorem Sound.settled (h : s.Sound w limit) (hgone : ∀ id, ¬ s.Waits id)
    {id : SketchId} (hid : w.Concerned id) : (s.container.sketch id).pending = 0 ∧
      s.container.Recorded s.backend (s.container.sketch id).key := by
  refine ⟨by_contra fun hne => hgone id (h.tended.dirty id hid hne), ?_⟩
  rcases h.tended.recorded id hid with ⟨other, hother, -⟩ | hrecorded
  · exact absurd hother (hgone other)
  · rw [h.tended.view Sketch.key (fun _ => rfl)]
    unfold WriteBack.Recorded at hrecorded ⊢
    rw [h.tended.get?]
    split at hrecorded
    · exact hrecorded
    · rename_i current hget
      obtain ⟨r, hr, hholds⟩ := hrecorded
      exact ⟨r, hr, hholds.congr (h.tended.view Sketch.expiresAt (fun _ => rfl) current)
        (h.tended.view Sketch.slots (fun _ => rfl) current)⟩

/--
A drain returns. If no more than two of its writes have failed, it leaves the queues empty, and every
sketch that was in one of them is clean and its key stands in the store as it stands in its shard.
-/
theorem drain_settles {c : Container} {b : Backend} (hc : c.Drainable) (hopen : b.stopped = false)
    (told : Nat → Option Nat) :
    let run (n : Nat) : Drainage :=
      (Drainage.step told)^[n] { container := c.beginDrain, backend := b }
    (∃ n, (run n).container.drain = none) ∧
    ∀ n, (run n).container.drain = none →
      (run n).failedWrites ≤ 2 ∨ (run n).failedCalls < 3 * max 1 c.retry.maxAttempts.toNat →
      (∀ p : Partition, ((run n).container.queues.get p).items = []) ∧
      ∀ m, ∀ id ∈ (run m).container.queued, ((run n).container.sketch id).pending = 0 ∧
        (run n).container.Recorded (run n).backend ((run n).container.sketch id).key := by
  intro run
  refine ⟨exists_returned told _ hopen, ?_⟩
  intro n hreturned hfailed
  have hn := (sound_begin hc hopen).run hc told n
  have htwo : (run n).failedWrites ≤ 2 :=
    hfailed.elim id fun hcalls => Nat.le_of_lt_succ (hn.budgeted.failedWrites_lt hcalls)
  have hgone := (progressing_none hreturned).1 hn.progressing htwo
  refine ⟨?_, ?_⟩
  · intro p
    refine List.eq_nil_iff_forall_not_mem.2 fun id hid => hgone id (.inl ?_)
    exact WriteBack.mem_queued.2 ⟨p, hid⟩
  · intro m id hid
    have hm := (sound_begin hc hopen).run hc told m
    exact hn.settled hgone (hm.tended.concerned id (.inl hid))

def drainedEvents : List Event :=
  [.add 1 "k" (some [1]) 0, .delete "k", .add 2 "k" (some [2]) 0]

/-- The deletion succeeds, but the flush after it fails three times. -/
def drainedFaults (n : Nat) : Option Nat :=
  if n = 1 then some 3 else none

theorem drain_settles_sample :
    let c := ((System.start sampleContainer).played drainedEvents (by decide +kernel)).2.container
    let s := (Drainage.step drainedFaults)^[60] { container := c.beginDrain, backend := {} }
    c.queued = [0, 1] ∧ s.container.drain = none ∧ s.failedWrites = 1 ∧
      (s.container.sketch 0).pending = 0 ∧ s.container.get? "k" = some 1 ∧
      ∃ record, s.backend.get? "k" = some record ∧ record.Holds (s.container.sketch 1) := by
  intro c s
  have hc : c.Drainable := by
    have hready := opens_sampleContainer.ready_beginOpen
    have run := (System.start sampleContainer).run_played drainedEvents (by decide +kernel)
    have hn : 0 + ((System.start sampleContainer).played drainedEvents (by decide +kernel)).1.length ≤
        2 ^ 62 := by decide +kernel
    have alive : Alive (DistinctCount.calls
        ((System.start sampleContainer).played drainedEvents (by decide +kernel)).1) := by
      decide +kernel
    have hsane := hready.sane.run run hn
    exact hsane.coherent.drainable hsane.flow (hready.sane.intact_run hready.intact run hn alive)
      (by decide +kernel) (List.isEmpty_iff.1 (by decide +kernel))
  have hqueued : c.queued = [0, 1] := by decide +kernel
  have hreturned : s.container.drain.isNone = true := by decide +kernel
  have hfailed : s.failedWrites = 1 := by decide +kernel
  have hget : s.container.get? "k" = some 1 := by decide +kernel
  have hkey : (s.container.sketch 0).key = "k" := by decide +kernel
  have hs : s = (Drainage.step drainedFaults)^[60] { container := c.beginDrain, backend := {} } := rfl
  clear_value s c
  subst hs
  have hreturned := Option.isNone_iff_eq_none.1 hreturned
  have hmem : 0 ∈ c.queued := hqueued ▸ List.mem_cons_self
  obtain ⟨-, hsettles⟩ := drain_settles (b := {}) hc rfl drainedFaults
  dsimp only at hsettles
  obtain ⟨-, hwritten⟩ := hsettles 60 hreturned (.inl (by omega))
  have hdone := hwritten 0 0 hmem
  rw [hkey, WriteBack.recorded_some hget] at hdone
  exact ⟨hqueued, hreturned, hfailed, hdone.1, hget, hdone.2⟩

end Drainage

end DistinctCount
