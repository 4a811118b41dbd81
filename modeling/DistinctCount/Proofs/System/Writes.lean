import DistinctCount.Proofs.Backend.Attempts
import DistinctCount.Proofs.Drain.Run
import DistinctCount.Proofs.System.Enqueued
import DistinctCount.Proofs.WriteBack.Closes

namespace DistinctCount

open Container

def mutations (id : SketchId) (h : List Moment) : Nat :=
  (h.map fun m => m.event.mutations m.before.container id).sum

def Moment.told (m : Moment) : List Notice :=
  m.answered?.elim [] fun (job, answer) => (m.before.container.toWriteBack.proceed job answer).2.2

def tells (h : List Moment) : List Notice :=
  h.flatMap Moment.told

def Moment.Silent (id : SketchId) (m : Moment) : Prop :=
  m.event.moves = false → ∀ s' log, m.before.next? m.event = some s' →
    m.before.container.toWriteBack.Enqueues log s'.container.toWriteBack → log.sketches.count id = 0

namespace System

variable {s s' : System} {e : Event} {job job' : Job} {answer : Backend.Answer} {h h' : List Moment}
  {m : Moment} {id : SketchId} {log : Pushes}

/-- The writer or the final drain has a write in its hands, and is alone in that. -/
inductive Hand (s : System) (job : Job) : Prop
  | writer (hand : s.container.job = some job) (dry : s.container.drain = none)
      (writing : s.writing = true) (serving : s.stage = .serving)
  | drain (d : Drain) (hand : s.container.drain = some (d, some job)) (idle : s.container.job = none)
      (ended : s.writing = false) (draining : s.stage = .draining)

theorem Hand.jobs (h : s.Hand job) : s.container.jobs = [job] := by
  cases h with
  | writer hand dry =>
    rw [Container.jobs, hand, dry]
    rfl
  | drain d hand idle =>
    rw [Container.jobs, hand, idle]
    rfl

/-- A write that is under way alone is in the hands of the writer or of the drain. -/
theorem Orderly.hand (ho : s.Orderly) (hjobs : s.container.jobs = [job]) : s.Hand job := by
  cases hj : s.container.job with
  | some job' =>
    have hdry := ho.drain_eq_none hj
    rw [Container.jobs, hj, hdry] at hjobs
    obtain rfl : job' = job := (List.cons.inj hjobs).1
    have hwriting : s.writing = true := by
      by_contra hended
      rw [(ho.idle (Bool.eq_false_iff.2 hended)).1] at hj
      cases hj
    exact .writer hj hdry hwriting (ho.serving_of_writing hwriting)
  | none =>
    rw [Container.jobs, hj] at hjobs
    cases hd : s.container.drain with
    | none =>
      rw [hd] at hjobs
      cases hjobs
    | some x =>
      obtain ⟨d, job'⟩ := x
      rw [hd] at hjobs
      cases job' with
      | none => cases hjobs
      | some job' =>
        obtain rfl : job' = job := (List.cons.inj hjobs).1
        have hdraining := ho.draining_of_drain hd
        exact .drain d hd hj (ho.quiet (by rw [hdraining]; decide)).2.1 hdraining

theorem Hand.keep (h : s.Hand job) (hjob : s'.container.job = s.container.job)
    (hdrain : s'.container.drain = s.container.drain) (hwriting : s'.writing = s.writing)
    (hstage : s'.stage = s.stage) : s'.Hand job := by
  cases h with
  | writer hand dry writing serving =>
    exact .writer (hjob.trans hand) (hdrain.trans dry) (hwriting.trans writing) (hstage.trans serving)
  | drain d hand idle ended draining =>
    exact .drain d (hdrain.trans hand) (hjob.trans idle) (hwriting.trans ended)
      (hstage.trans draining)

structure Waits (s : System) (job : Job) (e : Event) (s' : System) : Prop where
  uncalled : Moment.call? ⟨s, e⟩ = none
  unanswered : Moment.answered? ⟨s, e⟩ = none
  hand : s'.Hand job
  next : s.container.sketches.next ≤ s'.container.sketches.next
  retry : s'.container.retry = s.container.retry
  gains : (s.container.sketch job.sketch).Gains (e.mutations s.container job.sketch)
    (s'.container.sketch job.sketch)
  silent : Moment.Silent job.sketch ⟨s, e⟩

structure Hears (s : System) (job : Job) (e : Event) (answer : Backend.Answer) (s' : System) :
    Prop where
  answered : Moment.answered? ⟨s, e⟩ = some (job, answer)
  still : e.moves = false
  idle : ∀ id, e.mutations s.container id = 0
  writeBack : s'.container.toWriteBack = (s.container.toWriteBack.proceed job answer).1
  notices : s'.container.notices =
    s.container.notices ++ (s.container.toWriteBack.proceed job answer).2.2
  hand : ∀ job', (s.container.toWriteBack.proceed job answer).2.1.job? = some job' → s'.Hand job'
  finished : (s.container.toWriteBack.proceed job answer).2.1.job? = none → s'.container.jobs = []

theorem silent_of_enqueues (next : s.next? e = some s')
    (pushes : e.moves = false → ∃ log, s.container.toWriteBack.Enqueues log s'.container.toWriteBack ∧
      id ∉ log.sketches) : Moment.Silent id ⟨s, e⟩ := by
  intro still s₁ log hnext hlog
  obtain rfl := Option.some.inj (hnext.symm.trans next)
  obtain ⟨log', hlog', hnot⟩ := pushes still
  rw [hlog'.count_unique hlog, List.count_eq_zero.2 hnot]

theorem waits_still (next : s.next? e = some s') (hand : s'.Hand job)
    (uncalled : Moment.call? ⟨s, e⟩ = none) (unanswered : Moment.answered? ⟨s, e⟩ = none)
    (registry : s'.container.toRegistry = s.container.toRegistry)
    (retry : s'.container.retry = s.container.retry)
    (idle : e.mutations s.container job.sketch = 0)
    (queues : e.moves = false → s'.container.queues = s.container.queues) : s.Waits job e s' where
  uncalled := uncalled
  unanswered := unanswered
  hand := hand
  next := by rw [registry]
  retry := retry
  gains := by
    rw [idle, registry]
    exact .refl _
  silent := silent_of_enqueues next fun still => ⟨[], .still (queues still), List.not_mem_nil⟩

theorem waits_client (hand : s.Hand job) (made : job.sketch < s.container.sketches.next)
    (dirty : 0 < (s.container.sketch job.sketch).pending.toInt)
    (room : (s.container.sketch job.sketch).pending.toInt + e.mutations s.container job.sketch < 2 ^ 63)
    (he : e.isClient = true) (next : s.next? e = some s') : s.Waits job e s' := by
  obtain ⟨callers, rfl⟩ := next?_client he next
  obtain ⟨hidle, log, hlog, hspared⟩ := mutates_applied s.container e
  have hspared := hspared job.sketch
    ⟨made, dirty, by rw [hand.jobs]; exact List.mem_singleton.2 rfl⟩ room
  have hnone : Moment.answered? ⟨s, e⟩ = none := by
    cases e <;> first | rfl | cases he
  refine ⟨?_, hnone, hand.keep hidle.job hidle.drain rfl rfl, hidle.next, hidle.retry,
    hspared.gains, silent_of_enqueues next fun _ => ⟨log, hlog, hspared.unlogged⟩⟩
  cases e <;> first | rfl | cases he

/-- While a write is under way, an event is its answer or leaves it to wait. -/
theorem Hand.next? (hand : s.Hand job) (made : job.sketch < s.container.sketches.next)
    (dirty : 0 < (s.container.sketch job.sketch).pending.toInt)
    (room : (s.container.sketch job.sketch).pending.toInt + e.mutations s.container job.sketch < 2 ^ 63)
    (next : s.next? e = some s') : s.Waits job e s' ∨ ∃ answer, s.Hears job e answer s' := by
  by_cases hclient : e.isClient = true
  · exact .inl (waits_client hand made dirty room hclient next)
  · cases task_of_next? (Bool.eq_false_iff.2 hclient) next with
    | deleteEnds | wait =>
      exact .inl (waits_still next (hand.keep rfl rfl rfl rfl) rfl rfl rfl rfl rfl fun _ => rfl)
    | send p =>
      exact .inl (waits_still next (hand.keep rfl rfl rfl rfl) rfl rfl rfl rfl rfl fun _ =>
        Vector.set_getElem_self p.isLt)
    | take | stop =>
      exact .inl (waits_still next (hand.keep rfl rfl rfl rfl) rfl rfl rfl rfl rfl fun still =>
        absurd still.symm Bool.false_ne_true)
    | receive id channel writing idle =>
      cases hand with
      | writer hand => exact absurd (hand.symm.trans idle) (Option.some_ne_none _)
      | drain d hand idle ended => exact absurd (writing.symm.trans ended) (by decide)
    | writerAnswer job' answer hand' =>
      cases hand with
      | writer hand dry writing serving =>
        obtain rfl := Option.some.inj (hand'.symm.trans hand)
        refine .inr ⟨answer, ?_, rfl, fun _ => rfl, rfl, rfl,
          fun job' h => .writer h dry writing serving, fun hnone => ?_⟩
        · simp only [Moment.answered?, hand]
        · change (s.container.toWriteBack.proceed job' answer).2.1.job?.toList ++
            (s.container.drain.bind (·.2)).toList = []
          rw [hnone, dry]
          rfl
      | drain d hand idle => exact absurd (hand'.symm.trans idle) (Option.some_ne_none _)
    | writerEnd _ idle =>
      cases hand with
      | writer hand => exact absurd (hand.symm.trans idle) (Option.some_ne_none _)
      | drain d hand idle ended draining =>
        exact .inl (waits_still next (.drain d hand idle rfl draining) rfl rfl rfl rfl rfl fun _ => rfl)
    | drainBegin serving _ ended =>
      cases hand with
      | writer hand dry writing => exact absurd (writing.symm.trans ended) (by decide)
      | drain d hand idle ended draining => exact absurd (serving.symm.trans draining) (by decide)
    | drainOn d idle | drainEnd d idle =>
      cases hand with
      | writer hand dry => exact absurd (idle.symm.trans dry) (Option.some_ne_none _)
      | drain d hand =>
        exact absurd (Prod.mk.inj (Option.some.inj (hand.symm.trans idle))).2 (Option.some_ne_none _)
    | drainAnswer d job' answer hand' =>
      cases hand with
      | writer hand dry => exact absurd (hand'.symm.trans dry) (Option.some_ne_none _)
      | drain d hand idle ended draining =>
        obtain ⟨rfl, hsome⟩ := Prod.mk.inj (Option.some.inj (hand'.symm.trans hand))
        obtain rfl := Option.some.inj hsome
        refine .inr ⟨answer, ?_, rfl, fun _ => rfl, rfl, rfl,
          fun job' h => .drain d (congrArg (fun job => some (d, job)) h) idle ended draining,
          fun hnone => ?_⟩
        · simp only [Moment.answered?, hand]
        · change s.container.job.toList ++
            ((some (d, (s.container.toWriteBack.proceed job' answer).2.1.job?)).bind (·.2)).toList = []
          rw [hnone, idle]
          rfl
    | backendStop answer drained =>
      cases hand with
      | writer hand dry writing serving => exact absurd (serving.symm.trans drained) (by decide)
      | drain d hand idle ended draining => exact absurd (draining.symm.trans drained) (by decide)

/-! ### The attempts of one call -/

/-- What has happened up to the final answer of the call that a write makes. -/
structure Pursues (s : System) (job job' : Job) (h : List Moment) (m : Moment)
    (final : Backend.Answer) (s' : System) : Prop where
  same : job' = { job with attempt := job'.attempt }
  faults : ∃ faults : List Backend.Answer, calls h = faults.map (fun answer => (job.request, answer)) ∧
    (∀ answer ∈ faults, ∃ reason, answer = .error (.unavailable reason)) ∧
    job'.attempt.toNat = job.attempt.toNat + faults.length ∧
    (faults ≠ [] → job'.attempt.toNat ≤ s.container.retry.maxAttempts.toNat)
  made : job.sketch < m.before.container.sketches.next
  retry : m.before.container.retry = s.container.retry
  gains : (s.container.sketch job.sketch).Gains (mutations job.sketch h)
    (m.before.container.sketch job.sketch)
  silent : ∀ m ∈ h, m.Silent job.sketch
  quiet : tells h = []
  hears : m.before.Hears job' m.event final s'
  next : m.before.next? m.event = some s'
  full : ∀ reason, final = .error (.unavailable reason) →
    s.container.retry.maxAttempts ≤ job'.attempt
  verdict : m.before.container.retry.judge job'.attempt final = .finish final

theorem mutations_cons (id : SketchId) (m : Moment) (h : List Moment) :
    mutations id (m :: h) = m.event.mutations m.before.container id + mutations id h :=
  List.sum_cons

theorem mutations_append (id : SketchId) (h h' : List Moment) :
    mutations id (h ++ h') = mutations id h + mutations id h' := by
  rw [mutations, List.map_append, List.sum_append]
  rfl

theorem tells_append (h h' : List Moment) : tells (h ++ h') = tells h ++ tells h' :=
  List.flatMap_append

theorem Moment.told_of_unanswered (hnone : m.answered? = none) : m.told = [] := by
  rw [Moment.told, hnone]
  rfl

theorem calls_cons (m : Moment) (h : List Moment) : calls (m :: h) = m.call?.toList ++ calls h := by
  rw [calls, List.filterMap_cons]
  cases m.call? <;> rfl

theorem Pursues.wait {s₁ : System} {final : Backend.Answer} (hwaits : s.Waits job e s₁)
    (h' : s₁.Pursues job job' h m final s') : s.Pursues job job' (⟨s, e⟩ :: h) m final s' := by
  obtain ⟨faults, hcalls, hfaults, hattempt, hmost⟩ := h'.faults
  refine ⟨h'.same, ⟨faults, ?_, hfaults, hattempt, hwaits.retry ▸ hmost⟩, h'.made,
    h'.retry.trans hwaits.retry, ?_, ?_, ?_, h'.hears, h'.next, hwaits.retry ▸ h'.full, h'.verdict⟩
  · rw [calls_cons, hwaits.uncalled, hcalls]
    rfl
  · rw [mutations_cons]
    exact hwaits.gains.trans h'.gains
  · exact List.forall_mem_cons.2 ⟨hwaits.silent, h'.silent⟩
  · rw [tells, List.flatMap_cons, Moment.told_of_unanswered hwaits.unanswered]
    exact h'.quiet

theorem Pursues.again {s₁ : System} {final : Backend.Answer} {reason : String}
    (next : s.next? e = some s₁) (hhears : s.Hears job e (.error (.unavailable reason)) s₁)
    (more : job.attempt < s.container.retry.maxAttempts)
    (hjudge : s.container.retry.judge job.attempt (.error (.unavailable reason)) =
      .again (s.container.retry.backoff job.attempt))
    (h' : s₁.Pursues { job with attempt := job.attempt + 1 } job' h m final s') :
    s.Pursues job job' (⟨s, e⟩ :: h) m final s' := by
  have hproceed := WriteBack.proceed_again hjudge
  have hsame : s₁.container.toWriteBack = s.container.toWriteBack := by
    rw [hhears.writeBack, hproceed]
  have hattempt := Drainage.toNat_attempt more
  have hmore := UInt32.lt_iff_toNat_lt.1 more
  obtain ⟨faults, hcalls, hfaults, hcount, hmost⟩ := h'.faults
  have hcall : Moment.call? ⟨s, e⟩ = some (job.request, .error (.unavailable reason)) :=
    Moment.call?_of_answered hhears.answered
  have hgains := h'.gains
  have hmost' := h'.full
  have hretry := h'.retry
  rw [hsame] at hgains hmost hmost' hretry
  refine ⟨h'.same, ⟨.error (.unavailable reason) :: faults, ?_, ?_, ?_, fun _ => ?_⟩, h'.made, hretry, ?_,
    ?_, ?_, h'.hears, h'.next, hmost', h'.verdict⟩
  · rw [calls_cons, hcall, hcalls]
    rfl
  · exact List.forall_mem_cons.2 ⟨⟨reason, rfl⟩, hfaults⟩
  · rw [hcount, hattempt, List.length_cons]
    omega
  · by_cases hnone : faults = []
    · rw [hcount, hattempt, hnone, List.length_nil]
      omega
    · exact hmost hnone
  · rw [mutations_cons, hhears.idle, Nat.zero_add]
    exact hgains
  · refine List.forall_mem_cons.2 ⟨silent_of_enqueues next fun _ => ⟨[], .still ?_, List.not_mem_nil⟩,
      h'.silent⟩
    rw [hsame]
  · rw [tells, List.flatMap_cons, Moment.told, hhears.answered]
    change (s.container.toWriteBack.proceed job _).2.2 ++ tells h = []
    rw [hproceed, h'.quiet]
    rfl

/-- A write that comes to an end comes to the final answer of its call. -/
theorem Hand.pursue (hand : s.Hand job) (made : job.sketch < s.container.sketches.next)
    (dirty : 0 < (s.container.sketch job.sketch).pending.toInt) (run : Run s h s')
    (lasts : ∀ m ∈ h, m.before.container.jobs ≠ []) (ends : s'.container.jobs = [])
    (room : (s.container.sketch job.sketch).pending.toInt + mutations job.sketch h < 2 ^ 63) :
    ∃ before m after s₁ job' final, h = before ++ m :: after ∧ Run s₁ after s' ∧
      s.Pursues job job' before m final s₁ := by
  induction h generalizing s job with
  | nil =>
    obtain rfl := run.eq_of_nil
    rw [hand.jobs] at ends
    cases ends
  | cons m h ih =>
    obtain ⟨s₂, hfirst, hnext, hrest⟩ := Run.moment (h := []) run
    obtain ⟨before, event⟩ := m
    obtain rfl : before = s := hfirst.eq_of_nil
    obtain ⟨-, hlasts⟩ := List.forall_mem_cons.1 lasts
    rw [mutations_cons] at room
    dsimp only at hnext room
    push_cast at room
    rcases hand.next? made dirty (by omega) hnext with hwaits | ⟨answer, hhears⟩
    · have hgrown := hwaits.gains.pending
      obtain ⟨first, m, after, s₁, job', final, rfl, hafter, hpursues⟩ :=
        ih hwaits.hand (Nat.lt_of_lt_of_le made hwaits.next) (by omega) hrest hlasts (by omega)
      exact ⟨⟨before, event⟩ :: first, m, after, s₁, job', final, rfl, hafter, hpursues.wait hwaits⟩
    · rcases before.container.retry.judge_cases job.attempt answer with
        ⟨reason, rfl, hmore, hjudge⟩ | ⟨hlast, hjudge⟩
      · have hproceed := WriteBack.proceed_again hjudge
        have hsame : s₂.container.toWriteBack = before.container.toWriteBack := by
          rw [hhears.writeBack, hproceed]
        have hhand : s₂.Hand { job with attempt := job.attempt + 1 } :=
          hhears.hand _ (by rw [hproceed]; rfl)
        obtain ⟨first, m, after, s₁, job', final, rfl, hafter, hpursues⟩ :=
          ih hhand (by rwa [hsame]) (by rwa [hsame]) hrest hlasts (by rw [hsame]; dsimp only; omega)
        exact ⟨⟨before, event⟩ :: first, m, after, s₁, job', final, rfl, hafter,
          hpursues.again hnext hhears hmore hjudge⟩
      · refine ⟨[], ⟨before, event⟩, h, s₂, job, answer, rfl, hrest, rfl,
          ⟨[], rfl, List.forall_mem_nil _, rfl, fun h => absurd rfl h⟩, made, rfl, .refl _,
          List.forall_mem_nil _, rfl, hhears, hnext, hlast, hjudge⟩

end System

end DistinctCount
