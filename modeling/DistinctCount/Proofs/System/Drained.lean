import DistinctCount.Proofs.System.Sane
import DistinctCount.Proofs.WriteBack.Succeeded

namespace DistinctCount

open Container

namespace Container

variable {c c' : Container} {drain : Drain} {job next : Option Job} {j : Job} {progress : Progress}
  {notices : List Notice} {id : SketchId} {n : Nat}

def AllLive (c : Container) (ids : List SketchId) : Prop :=
  ∀ id ∈ ids, (c.sketch id).deleted = false

/-- How far a drain has come if no write has failed. -/
structure Draining (c : Container) (drain : Drain) (job : Option Job) : Prop where
  exact : ∀ j ∈ job, j.pending = (c.sketch j.sketch).pending
  passed : ∀ p : Partition, p.val < drain.queue → c.AllLive (c.queues.get p).items
  second : drain.passes < 4 → (∀ p : Partition, c.AllLive (c.queues.get p).items) ∧
    c.AllLive drain.batch ∧ (∀ j ∈ job, (c.sketch j.sketch).deleted = false) ∧
    ∀ p : Partition, p.val < drain.queue → (c.queues.get p).items = []
  third : drain.passes < 3 → (∀ p : Partition, (c.queues.get p).items = []) ∧ drain.batch = [] ∧ job = none
  idle : drain.progressed = false →
    (∀ p : Partition, p.val < drain.queue → (c.queues.get p).items = []) ∧ drain.batch = [] ∧ job = none

theorem AllLive.congr {ids : List SketchId} (h : c.AllLive ids)
    (hd : ∀ id, (c'.sketch id).deleted = (c.sketch id).deleted) : c'.AllLive ids :=
  fun id hid => (hd id).trans (h id hid)

theorem draining_begin (c : Container) : c.Draining {} none where
  exact := nofun
  passed := fun _ hp => absurd hp (Nat.not_lt_zero _)
  second := fun h => absurd h (by decide)
  third := fun h => absurd h (by decide)
  idle := fun _ => ⟨fun _ hp => absurd hp (Nat.not_lt_zero _), rfl, rfl⟩

theorem Draining.congr (h : c.Draining drain job) (hq : c'.queues = c.queues)
    (hd : ∀ id, (c'.sketch id).deleted = (c.sketch id).deleted)
    (exact : ∀ j ∈ next, j.pending = (c'.sketch j.sketch).pending)
    (hnext : ∀ j ∈ next, ∃ j' ∈ job, j.sketch = j'.sketch) : c'.Draining drain next := by
  have hnone : job = none → next = none := by
    rintro rfl
    refine Option.eq_none_iff_forall_ne_some.2 fun j hj => ?_
    obtain ⟨j', hj', -⟩ := hnext j hj
    cases hj'
  refine ⟨exact, ?_, ?_, ?_, ?_⟩
  · rw [hq]
    exact fun p hp => (h.passed p hp).congr hd
  · intro hpass
    obtain ⟨hqueues, hbatch, hjob, hempty⟩ := h.second hpass
    rw [hq]
    refine ⟨fun p => (hqueues p).congr hd, hbatch.congr hd, ?_, hempty⟩
    intro j hj
    obtain ⟨j', hj', hsame⟩ := hnext j hj
    rw [hsame, hd]
    exact hjob j' hj'
  · intro hpass
    obtain ⟨hqueues, hbatch, hjob⟩ := h.third hpass
    rw [hq]
    exact ⟨hqueues, hbatch, hnone hjob⟩
  · intro hidle
    obtain ⟨hqueues, hbatch, hjob⟩ := h.idle hidle
    rw [hq]
    exact ⟨hqueues, hbatch, hnone hjob⟩

theorem Draining.write {batch : List SketchId} (h : c.Draining drain none)
    (hb : drain.batch = id :: batch) : c.Draining { drain with batch } (some (c.begin id)) := by
  refine ⟨?_, h.passed, ?_, ?_, ?_⟩
  · intro j hj
    obtain rfl := Option.some.inj hj
    rfl
  · intro hpass
    obtain ⟨hqueues, hbatch, -, hempty⟩ := h.second hpass
    rw [hb] at hbatch
    refine ⟨hqueues, fun id hid => hbatch id (List.mem_cons_of_mem _ hid), ?_, hempty⟩
    intro j hj
    obtain rfl := Option.some.inj hj
    exact hbatch id List.mem_cons_self
  · intro hpass
    obtain ⟨-, hbatch, -⟩ := h.third hpass
    rw [hb] at hbatch
    cases hbatch
  · intro hidle
    obtain ⟨-, hbatch, -⟩ := h.idle hidle
    rw [hb] at hbatch
    cases hbatch

theorem Draining.queue (h : c.Draining drain none) (hqueue : drain.queue < 8) :
    (c.drainQueue drain hqueue).Draining { drain with
      queue := drain.queue + 1
      batch := c.queues[drain.queue].items
      progressed := drain.progressed || !c.queues[drain.queue].items.isEmpty
      written := drain.written + c.queues[drain.queue].items.length } none := by
  have hq (p : Partition) : ((c.drainQueue drain hqueue).queues.get p).items =
      if p.val = drain.queue then [] else (c.queues.get p).items := by
    have hedit : (c.drainQueue drain hqueue).queues.get p = _ :=
      WriteBack.queues_editQueue (q := p) (p := ⟨drain.queue, hqueue⟩)
    rw [hedit]
    simp only [Fin.ext_iff]
    split <;> rfl
  have hempty (hold : ∀ p : Partition, p.val < drain.queue → (c.queues.get p).items = [])
      (p : Partition) (hp : p.val < drain.queue + 1) :
      ((c.drainQueue drain hqueue).queues.get p).items = [] := by
    rw [hq]
    split
    · rfl
    · exact hold p (by omega)
  have hlive {p : Partition} (hold : p.val ≠ drain.queue → c.AllLive (c.queues.get p).items) :
      (c.drainQueue drain hqueue).AllLive ((c.drainQueue drain hqueue).queues.get p).items := by
    intro id hid
    rw [hq] at hid
    split at hid
    · cases hid
    · rename_i hne
      exact hold hne id hid
  refine ⟨nofun, ?_, ?_, ?_, ?_⟩
  · intro p hp
    change p.val < drain.queue + 1 at hp
    exact hlive fun hne => h.passed p (by omega)
  · intro hpass
    obtain ⟨hqueues, -, -, hold⟩ := h.second hpass
    exact ⟨fun p => hlive fun _ => hqueues p, hqueues ⟨drain.queue, hqueue⟩, nofun, hempty hold⟩
  · intro hpass
    obtain ⟨hqueues, -, -⟩ := h.third hpass
    refine ⟨?_, hqueues ⟨drain.queue, hqueue⟩, rfl⟩
    intro p
    rw [hq]
    split
    · rfl
    · exact hqueues p
  · intro hidle
    obtain ⟨hold, hnone⟩ := Bool.or_eq_false_iff.1 hidle
    exact ⟨hempty (h.idle hold).1, List.isEmpty_iff.1 (by simpa using hnone), rfl⟩

theorem Draining.again (h : c.Draining drain none) (hb : drain.batch = []) (hqueue : 8 ≤ drain.queue) :
    (c.drainAgain drain).Draining
      { drain with passes := drain.passes - 1, queue := 0, progressed := false } none := by
  have hlt (p : Partition) : p.val < drain.queue := Nat.lt_of_lt_of_le p.isLt hqueue
  have hnone {P : Partition → Prop} : ∀ p : Partition, p.val < 0 → P p :=
    fun _ hp => absurd hp (Nat.not_lt_zero _)
  refine ⟨nofun, hnone, ?_, ?_, fun _ => ⟨hnone, hb, rfl⟩⟩
  · intro _
    refine ⟨fun p => h.passed p (hlt p), ?_, nofun, hnone⟩
    rw [hb]
    exact fun _ hid => absurd hid List.not_mem_nil
  · intro hpass
    change drain.passes - 1 < 3 at hpass
    obtain ⟨-, -, -, hempty⟩ := h.second (by omega)
    exact ⟨fun p => hempty p (hlt p), hb, rfl⟩

/-- The drain goes on, or ends with empty queues. -/
theorem Draining.advance (h : c.Draining drain none) :
    (∃ drain' job, (c.drainAdvance drain).1 = none ∧
      (c.drainAdvance drain).2.drain = some (drain', job) ∧
      (c.drainAdvance drain).2.Draining drain' job) ∨
    ((c.drainAdvance drain).1 = some drain.written ∧ (c.drainAdvance drain).2.drain = none ∧
      ∀ p : Partition, ((c.drainAdvance drain).2.queues.get p).items = []) := by
  obtain ⟨id, batch, hb, heq⟩ | ⟨hb, hqueue, heq⟩ | ⟨hb, hqueue, hp, hpasses, heq⟩ |
    ⟨hb, hqueue, hlast, heq⟩ := c.drainAdvance_cases drain
  all_goals rw [heq]
  · exact .inl ⟨_, _, rfl, rfl, (h.write hb).congr rfl (fun _ => rfl) (h.write hb).exact
      fun j hj => ⟨j, hj, rfl⟩⟩
  · exact .inl ⟨_, _, rfl, rfl, h.queue hqueue⟩
  · exact .inl ⟨_, _, rfl, rfl, h.again hb hqueue⟩
  · refine .inr ⟨rfl, rfl, ?_⟩
    intro p
    have hp : p.val < drain.queue := Nat.lt_of_lt_of_le p.isLt hqueue
    cases hprogressed : drain.progressed with
    | false => exact (h.idle hprogressed).1 p hp
    | true => exact (h.third (by have := hlast hprogressed; omega)).1 p

theorem renewed_cases (hc : c.Coherent n) (id : SketchId) :
    (c.toWriteBack.renewed id).sketch id = c.sketch id ∧
      (c.toWriteBack.renewed id).sketches.next = c.sketches.next ∧
      (∀ other, ((c.toWriteBack.renewed id).sketch other).deleted = (c.sketch other).deleted) ∧
      ∀ (p : Partition) other, other ∈ ((c.toWriteBack.renewed id).queues.get p).items →
        other ∈ (c.queues.get p).items ∨ (c.sketch other).deleted = false := by
  unfold WriteBack.renewed
  cases hs : c.toRegistry.successor id with
  | none => exact ⟨rfl, rfl, fun _ => rfl, fun _ _ => .inl⟩
  | some current =>
    obtain ⟨hget, hne, hlive⟩ := Registry.successor_eq_some.1 hs
    obtain ⟨made, -, -⟩ := hc.get?_eq_some.1 hget
    dsimp only
    rw [WriteBack.toRegistry_schedule]
    refine ⟨Registry.sketch_modify_of_ne hne.symm, Registry.next_modify, ?_, ?_⟩
    · intro other
      rw [Registry.sketch_modify]
      split
      · rename_i he
        rw [he.1]
        rfl
      · rfl
    · intro p other hid
      refine ((WriteBack.mem_schedule made).1 hid).imp_right ?_
      rintro ⟨-, rfl, -⟩
      exact hlive

theorem deleted_flushed (w : WriteBack) (j : Job) (other : SketchId) :
    ((w.flushed j).sketch other).deleted = (w.sketch other).deleted := by
  rw [WriteBack.toRegistry_flushed, Registry.sketch_modify]
  split
  · rename_i he
    rw [he.1]
    rfl
  · rfl

/-- A dead sketch is written in the first pass only, which leaves live sketches behind it. -/
theorem Draining.renewed (h : c.Draining drain (some j)) (hc : c.Coherent n)
    (made : j.sketch < c.sketches.next) (hdead : (c.sketch j.sketch).deleted = true)
    (hw : c'.toWriteBack = (c.toWriteBack.renewed j.sketch).flushed j) : c'.Draining drain none := by
  obtain ⟨hself, hnext, hsame, hqueues⟩ := renewed_cases hc j.sketch
  have hq : c'.queues = (c.toWriteBack.renewed j.sketch).queues := by
    rw [hw]
    exact WriteBack.queues_flushed (hnext ▸ made) (by rw [hself, h.exact j rfl])
  refine ⟨nofun, ?_, ?_, ?_, ?_⟩
  · intro p hp id hid
    rw [hq] at hid
    rw [hw, deleted_flushed, hsame]
    exact (hqueues p id hid).elim (h.passed p hp id) fun hlive => hlive
  · intro hpass
    have hlive := (h.second hpass).2.2.1 j rfl
    exact absurd (hlive.symm.trans hdead) (by decide)
  · intro hpass
    cases (h.third hpass).2.2
  · intro hidle
    cases (h.idle hidle).2.2

theorem Draining.answered (h : c.Draining drain (some j)) (hc : c.Coherent n) (hf : c.Flow)
    (hand : c.jobs = [j])
    (outcome : WriteBack.Outcome c.toWriteBack j (.ok ()) c'.toWriteBack progress notices) :
    c'.Draining drain progress.job? := by
  obtain ⟨-, hj, made, -⟩ := hf.in_hand hand
  have hexact := h.exact j rfl
  generalize hw' : c'.toWriteBack = w' at outcome
  cases outcome with
  | flush stage waiting =>
    have hsketch (other : SketchId) : (c'.sketch other).deleted = (c.sketch other).deleted ∧
        (c'.sketch other).pending = (c.sketch other).pending := by
      rw [hw', WriteBack.toRegistry_dismissed, Registry.sketch_modify]
      split
      · rename_i he
        rw [he.1]
        exact ⟨rfl, rfl⟩
      · exact ⟨rfl, rfl⟩
    refine h.congr (by rw [hw']; rfl) (fun other => (hsketch other).1) ?_ ?_
    · intro j' hj'
      obtain rfl := Option.some.inj hj'
      exact hexact.trans (hsketch j.sketch).2.symm
    · intro j' hj'
      obtain rfl := Option.some.inj hj'
      exact ⟨j, rfl, rfl⟩
  | updated expiresAt data stage =>
    refine h.congr ?_ (fun other => by rw [hw', deleted_flushed]) nofun nofun
    rw [hw']
    exact WriteBack.queues_flushed made hexact
  | deleted stage => exact h.renewed hc made (hj.deleted (by simp [stage])) hw'
  | confirmed waiters stage => exact h.renewed hc made (hj.deleted (by simp [stage])) hw'

end Container

/-- Nobody disturbs a shutdown: there are no calls of clients, and no sweeps once the tasks have ended. -/
def Moment.Undisturbed (m : Moment) : Prop :=
  match m.event with
  | .add .. | .addMany .. | .updateExpiry .. | .delete _ => False
  | .sweep _ => m.before.stage = .serving
  | _ => True

instance : DecidablePred Moment.Undisturbed := fun ⟨s, e⟩ =>
  match e with
  | .add .. | .addMany .. | .updateExpiry .. | .delete _ => inferInstanceAs (Decidable False)
  | .sweep _ => inferInstanceAs (Decidable (s.stage = .serving))
  | .deleteEnds .. | .close | .stop | .saverTake _ | .saverSend _ | .saverWait _ | .saverStop _
  | .writerTake | .writerAnswer _ | .writerEnd | .drainBegin | .drainAdvance | .drainAnswer _
  | .backendStop _ => inferInstanceAs (Decidable True)

def Moment.Smooth (m : Moment) : Prop :=
  ∀ request answer, m.call? = some (request, answer) → answer = .ok ()

namespace System

variable {s s' : System} {e : Event} {n : Nat} {h : List Moment}

/-- How far a shutdown has come that nothing has gone wrong with. -/
structure Settling (s : System) : Prop where
  draining : s.stage = .draining → ∃ drain job, s.container.drain = some (drain, job) ∧
    s.container.Draining drain job
  drained : s.stage = .drained ∨ s.stage = .stopped →
    ∀ p : Partition, (s.container.queues.get p).items = []

theorem settling_of_serving (h : s.stage = .serving) : s.Settling where
  draining := fun hd => by rw [h] at hd; cases hd
  drained := fun hd => by rw [h] at hd; rcases hd with hd | hd <;> cases hd

theorem Settling.draining_of_drain (hs : s.Settling) (ho : s.Orderly) {drain : Drain}
    {job : Option Job} (hd : s.container.drain = some (drain, job)) : s.container.Draining drain job := by
  obtain ⟨drain', job', hsame, h⟩ := hs.draining (ho.draining_of_drain hd)
  obtain ⟨rfl, rfl⟩ := Prod.mk.inj (Option.some.inj (hd.symm.trans hsame))
  exact h

theorem settling_of_draining {drain : Drain} {job : Option Job} (hstage : s.stage = .draining)
    (hd : s.container.drain = some (drain, job)) (h : s.container.Draining drain job) : s.Settling where
  draining _ := ⟨drain, job, hd, h⟩
  drained hend := by
    rw [hstage] at hend
    rcases hend with hend | hend <;> cases hend

theorem Settling.shut (hs : s.Settling) (closed stopping : Bool) (callers : List (String × Ticket)) :
    Settling { s with container := { s.container with closed, stopping }, callers } where
  draining hd := by
    obtain ⟨drain, job, hdrain, h⟩ := hs.draining hd
    exact ⟨drain, job, hdrain, h.congr rfl (fun _ => rfl) h.exact fun j hj => ⟨j, hj, rfl⟩⟩
  drained := hs.drained

theorem Task.settling (htask : s.Task e s') (hs : s.Settling) (hsane : s.Sane n)
    (hok : Moment.Smooth ⟨s, e⟩) : s'.Settling := by
  have ho := hsane.orderly
  cases htask with
  | deleteEnds => exact ⟨hs.draining, hs.drained⟩
  | take p running => exact settling_of_serving (ho.serving_of_running running)
  | send p _ _ _ running => exact settling_of_serving (ho.serving_of_running running)
  | wait p _ running => exact settling_of_serving (ho.serving_of_running running)
  | stop p running => exact settling_of_serving (ho.serving_of_running running)
  | receive _ _ writing => exact settling_of_serving (ho.serving_of_writing writing)
  | writerAnswer job answer hand => exact settling_of_serving (ho.serving_of_job hand)
  | writerEnd writing => exact settling_of_serving (ho.serving_of_writing writing)
  | drainBegin => exact settling_of_draining rfl rfl (draining_begin _)
  | drainOn drain idle queues onward fewer advance =>
    have hadvance := (hs.draining_of_drain ho idle).advance
    rw [advance] at hadvance
    rcases hadvance with ⟨next, job, -, hd, h⟩ | ⟨hended, -⟩
    · exact settling_of_draining (ho.draining_of_drain idle) hd h
    · cases hended
  | drainEnd drain idle advance =>
    have hadvance := (hs.draining_of_drain ho idle).advance
    rw [advance] at hadvance
    rcases hadvance with ⟨next, job, hon, -⟩ | ⟨-, -, hempty⟩
    · cases hon
    · exact ⟨fun hend => Stage.noConfusion hend, fun _ => hempty⟩
  | drainAnswer drain job answer hand =>
    have hjob := ho.job_eq_none hand
    have hanswered : Moment.answered? ⟨s, .drainAnswer answer⟩ = some (job, answer) := by
      simp only [Moment.answered?, hjob, hand]
    obtain rfl := hok job.request answer (Moment.call?_of_answered hanswered)
    have hjobs : s.container.jobs = [job] := by
      rw [jobs, hand, hjob]
      rfl
    have hnext : (s.container.drainProceed drain job (.ok ())).2.Draining drain
        (s.container.drainProceed drain job (.ok ())).1.job? :=
      (hs.draining_of_drain ho hand).answered hsane.coherent hsane.flow hjobs
        (WriteBack.outcome_proceed s.container.toWriteBack job (.ok ()))
    exact settling_of_draining (ho.draining_of_drain hand) rfl hnext
  | backendStop answer drained =>
    exact ⟨fun hend => Stage.noConfusion hend, fun _ => hs.drained (.inl drained)⟩

theorem Settling.next? (hs : s.Settling) (hsane : s.Sane n) (hm : Moment.Undisturbed ⟨s, e⟩)
    (hok : Moment.Smooth ⟨s, e⟩) (he : s.next? e = some s') : s'.Settling := by
  rcases next?_cases he with ⟨hclient, callers, rfl⟩ | htask
  · cases e with
    | add | addMany | updateExpiry | delete => exact hm.elim
    | sweep now => exact settling_of_serving hm
    | close => exact hs.shut true s.container.stopping callers
    | stop => exact hs.shut s.container.closed true callers
    | _ => cases hclient
  · exact htask.settling hs hsane hok

theorem Sane.settling_run (hs : s.Sane n) (hset : s.Settling) (run : Run s h s')
    (hm : ∀ m ∈ h, m.Undisturbed ∧ m.Smooth) (hn : n + h.length ≤ 2 ^ 62) : s'.Settling := by
  induction run with
  | refl => exact hset
  | step run next ih =>
    rw [List.length_append, List.length_singleton, ← Nat.add_assoc] at hn
    obtain ⟨hundisturbed, hsmooth⟩ := hm _ (List.mem_append_right _ (List.mem_singleton.2 rfl))
    exact (ih (fun m hmem => hm m (List.mem_append_left _ hmem)) (by omega)).next?
      (hs.run run (by omega)) hundisturbed hsmooth next

/-- When the backend has been stopped, nothing is left in the pipeline. -/
theorem Settling.pipeline (hset : s.Settling) (ho : s.Orderly) (hstopped : s.stage = .stopped) :
    s.container.pipeline = [] := by
  obtain ⟨-, hwriting, hrunning⟩ := ho.quiet (by rw [hstopped]; decide)
  obtain ⟨hjob, hbuffer⟩ := ho.idle hwriting
  have hdrain := ho.dry (by rw [hstopped]; decide)
  have hqueued : s.container.queued = [] := by
    refine List.eq_nil_iff_forall_not_mem.2 fun id hid => ?_
    obtain ⟨p, hp⟩ := WriteBack.mem_queued.1 hid
    rw [hset.drained (.inr hstopped) p] at hp
    cases hp
  have hheld := ho.held_eq_nil hrunning
  rw [Container.pipeline, backlog, stowed, jobs, hqueued, hheld, hbuffer, hdrain, hjob]
  rfl

end System

end DistinctCount
