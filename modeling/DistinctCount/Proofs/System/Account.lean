import DistinctCount.Proofs.System.Opening
import DistinctCount.Proofs.System.Writes

namespace DistinctCount

open Container

theorem Pushes.mem_sketches_of_onto {log : Pushes} {p : Partition} {id : SketchId}
    (h : id ∈ log.onto p) : id ∈ log.sketches := by
  obtain ⟨x, hx, rfl⟩ := List.mem_map.1 h
  exact List.mem_map_of_mem (List.mem_filter.1 hx).1

namespace System

variable {s s' start : System} {e : Event} {job job' : Job} {final : Backend.Answer}
  {h pre : List Moment} {m : Moment} {id : SketchId} {log : Pushes} {p : Partition}

/-! ### A sketch that is in no queue -/

theorem held_next? (still : e.moves = false) (next : s.next? e = some s')
    (hid : id ∈ (s'.container.savers.get p).held) : id ∈ (s.container.savers.get p).held := by
  rcases next?_cases next with ⟨-, callers, rfl⟩ | htask
  · rwa [(mutates_applied s.container e).idle.savers] at hid
  · cases htask with
    | send q first held channel _ _ hfirst =>
      have hheld : ((s.container.arrange q (s.container.queues.get q)
          { (s.container.savers.get q) with held } channel).savers.get p) =
          if p = q then { (s.container.savers.get q) with held } else s.container.savers.get p :=
        get_assign _ _ _ _
      rw [put, hheld] at hid
      split at hid
      · rename_i hp
        rw [hp, hfirst]
        exact List.mem_cons_of_mem first hid
      · exact hid
    | take | stop | drainOn | drainEnd => cases still
    | _ => exact hid

/-- A sketch that no queue and no saver has stays away from them as long as it is not pushed. -/
theorem unheld_next? (next : s.next? e = some s') (silent : Moment.Silent id ⟨s, e⟩)
    (unheld : ∀ p, ¬ s.container.Holds p id) (p : Partition) : ¬ s'.container.Holds p id := by
  cases hmoves : e.moves with
  | false =>
    obtain ⟨log, hlog⟩ := enqueues_next? hmoves next
    have hnot : id ∉ log.sketches := List.count_eq_zero.1 (silent hmoves s' log next hlog)
    rintro (hqueue | hheld)
    · rw [hlog.items, List.mem_append] at hqueue
      rcases hqueue with hold | hnew
      · exact unheld p (.inl hold)
      · exact hnot (Pushes.mem_sketches_of_onto hnew)
    · exact unheld p (.inr (held_next? hmoves next hheld))
  | true =>
    have hclient : e.isClient = false := by
      cases e <;> first | rfl | cases hmoves
    cases task_of_next? hclient next with
    | take q =>
      intro hholds
      have hholds := holds_arrange.1 hholds
      split at hholds
      · rename_i hq
        refine unheld q ?_
        rcases hholds with hqueue | hheld
        · exact .inl (List.mem_of_mem_drop hqueue)
        · rcases List.mem_append.1 hheld with hheld | htaken
          · exact .inr hheld
          · exact .inl (List.mem_of_mem_take htaken)
      · exact unheld p hholds
    | stop q =>
      intro hholds
      have hholds := holds_arrange.1 hholds
      split at hholds
      · rcases hholds with hqueue | hheld
        · exact unheld q (List.mem_append.1 hqueue).symm
        · cases hheld
      · exact unheld p hholds
    | drainOn _ _ _ _ fewer =>
      rintro (hqueue | hheld)
      · exact unheld p (.inl (fewer p id hqueue))
      · exact unheld p (.inr hheld)
    | drainEnd => exact unheld p
    | _ => cases hmoves

theorem unheld_run (run : Run start h s) (silent : ∀ m ∈ h, m.Silent id)
    (unheld : ∀ p, ¬ start.container.Holds p id) : ∀ p, ¬ s.container.Holds p id := by
  induction run with
  | refl => exact unheld
  | step run next ih =>
    obtain ⟨hbefore, hlast⟩ := List.forall_mem_append.1 silent
    exact unheld_next? next (hlast _ (List.mem_singleton.2 rfl)) (ih hbefore)

theorem Enqueued.unpushed (hlog : Enqueued start h s log) (silent : ∀ m ∈ h, m.Silent id) :
    log.sketches.count id = 0 := by
  induction hlog with
  | refl => rfl
  | push _ next still pushes ih =>
    obtain ⟨hbefore, hlast⟩ := List.forall_mem_append.1 silent
    rw [Pushes.sketches_append, List.count_append, ih hbefore, Nat.zero_add]
    exact hlast _ (List.mem_singleton.2 rfl) still _ _ next pushes
  | move _ _ _ ih => exact ih (List.forall_mem_append.1 silent).1

theorem Enqueued.last (hlog : Enqueued start (h ++ [m]) s log) (still : m.event.moves = false) :
    ∃ first more, Enqueued start h m.before first ∧
      m.before.container.toWriteBack.Enqueues more s.container.toWriteBack ∧ log = first ++ more := by
  generalize hh : h ++ [m] = all at hlog
  cases hlog with
  | refl => exact absurd hh (List.append_ne_nil_of_right_ne_nil _ (List.cons_ne_nil _ _))
  | push first next _ pushes =>
    obtain ⟨rfl, hm⟩ := List.append_inj' hh rfl
    obtain rfl := (List.cons.inj hm).1
    exact ⟨_, _, first, pushes, rfl⟩
  | move first next moves =>
    obtain ⟨-, hm⟩ := List.append_inj' hh rfl
    obtain rfl := (List.cons.inj hm).1
    exact absurd (still.symm.trans moves) (by decide)

/-! ### The end of a write -/

structure Settled (start : System) (id : SketchId) (h : List Moment) (s : System)
    (final : Backend.Answer) : Prop where
  pending : (s.container.sketch id).pending.toInt =
    pendingAfter (start.container.sketch id).pending.toInt (mutations id h) final
  pushes : ∀ log, Enqueued start h s log → log.sketches.count id = pushesAfter (mutations id h) final
  queued : (∀ p, ¬ start.container.Holds p id) →
    s.container.queued.count id = pushesAfter (mutations id h) final
  notices : ∀ m ∈ h.getLast?, s.container.notices = m.before.container.notices ++ tells h

theorem settled (hears : m.before.Hears job m.event final s) (run : Run start pre m.before)
    (silent : ∀ m ∈ pre, m.Silent job.sketch) (quiet : tells pre = [])
    (ends : m.before.container.toWriteBack.Ends job final)
    (made : job.sketch < m.before.container.sketches.next) (dirty : 0 < job.pending.toInt)
    (begun : (start.container.sketch job.sketch).pending = job.pending)
    (grown : (m.before.container.sketch job.sketch).pending.toInt =
      job.pending.toInt + mutations job.sketch pre) :
    Settled start job.sketch (pre ++ [m]) s final ∧ s.container.jobs = [] := by
  obtain ⟨hdone, hcloses⟩ := WriteBack.closes_proceed ends made dirty grown
  rw [← hears.writeBack] at hcloses
  obtain ⟨more, hmore, hcount⟩ := hcloses.pushes
  have hmutations : mutations job.sketch (pre ++ [m]) = mutations job.sketch pre := by
    rw [mutations_append, mutations_cons, hears.idle]
    rfl
  refine ⟨⟨?_, fun log hlog => ?_, fun unheld => ?_, fun last hlast => ?_⟩,
    hears.finished (by rw [hdone]; rfl)⟩
  · rw [hmutations, begun]
    exact hcloses.pending
  · obtain ⟨first, more', hfirst, hmore', rfl⟩ := hlog.last hears.still
    rw [Pushes.sketches_append, List.count_append, hfirst.unpushed silent, Nat.zero_add, hmutations,
      hmore.count_unique hmore', hcount]
  · have hnone : m.before.container.queued.count job.sketch = 0 := by
      refine List.count_eq_zero.2 fun hmem => ?_
      obtain ⟨p, hp⟩ := WriteBack.mem_queued.1 hmem
      exact unheld_run run silent unheld p (.inl hp)
    rw [hmutations, hmore.count, hnone, Nat.zero_add, hcount]
  · rw [List.getLast?_concat] at hlast
    obtain rfl := Option.some.inj hlast
    rw [hears.notices, tells_append, quiet, tells, List.flatMap_singleton, Moment.told, hears.answered]
    rfl

theorem Pursues.attempts (h' : s.Pursues job job' h m final s') (first : job.attempt = 1) :
    Backend.Attempts (max 1 s.container.retry.maxAttempts.toNat) job.request (calls (h ++ [m]))
      final := by
  obtain ⟨faults, hcalls, hfaults, hattempt, hmost⟩ := h'.faults
  have hrequest : job'.request = job.request := (congrArg Job.request h'.same).trans rfl
  have hcall : m.call? = some (job.request, final) := by
    rw [← hrequest]
    exact Moment.call?_of_answered h'.hears.answered
  have hall : calls (h ++ [m]) = (faults ++ [final]).map fun answer => (job.request, answer) := by
    rw [calls_concat, hcalls, hcall, List.map_append]
    rfl
  have hlength : (calls (h ++ [m])).length = job'.attempt.toNat := by
    rw [hall, List.length_map, List.length_append, hattempt, first, UInt32.toNat_one,
      List.length_singleton, Nat.add_comm]
  have hle : job'.attempt.toNat ≤ max 1 s.container.retry.maxAttempts.toNat := by
    by_cases hnone : faults = []
    · rw [hattempt, hnone, first, UInt32.toNat_one, List.length_nil]
      omega
    · have := hmost hnone
      omega
  refine ⟨⟨faults, hall, hfaults⟩, hlength.trans_le hle, fun reason hreason => ?_⟩
  have hfull := UInt32.le_iff_toNat_le.1 (h'.full reason hreason)
  rw [first, UInt32.toNat_one] at hattempt
  omega

theorem nil_of_ended {after : List Moment} (run : Run s after s')
    (lasts : ∀ m ∈ after, m.before.container.jobs ≠ []) (ended : s.container.jobs = []) :
    after = [] ∧ s' = s := by
  cases after with
  | nil => exact ⟨rfl, run.eq_of_nil⟩
  | cons m after =>
    obtain ⟨s₂, hfirst, -⟩ := Run.moment (h := []) run
    have hlast := lasts m List.mem_cons_self
    rw [hfirst.eq_of_nil] at hlast
    exact absurd ended hlast

/-- A write ends with the final answer of its only call. -/
theorem Pursues.settled (h' : start.Pursues job job' pre m final s) (run : Run start pre m.before)
    (ends : m.before.container.toWriteBack.Ends job' final) (dirty : 0 < job.pending.toInt)
    (begun : (start.container.sketch job.sketch).pending = job.pending) :
    Settled start job.sketch (pre ++ [m]) s final ∧ s.container.jobs = [] := by
  obtain ⟨attempt, rfl⟩ : ∃ attempt, job' = { job with attempt } := ⟨_, h'.same⟩
  have grown := h'.gains.pending
  rw [begun] at grown
  have hsettled := System.settled h'.hears run h'.silent h'.quiet ends h'.made dirty begun grown
  exact hsettled

/-- The write of a sketch, with all that happens from its begin to its end. -/
structure Writes (start : System) (id : SketchId) (h : List Moment) (s : System) : Prop where
  run : Run start h s
  begins : start.container.jobs = [start.container.begin id]
  lasts : ∀ m ∈ h, m.before.container.jobs ≠ []
  ends : s.container.jobs = []

theorem Writes.update (writes : Writes start id h s) (orderly : start.Orderly)
    (made : id < start.container.sketches.next)
    (dirty : 0 < (start.container.sketch id).pending.toInt)
    (room : (start.container.sketch id).pending.toInt + mutations id h < 2 ^ 63)
    (live : (start.container.sketch id).deleted = false) :
    ∃ final, Backend.Attempts (max 1 start.container.retry.maxAttempts.toNat)
      (.update (start.container.sketch id).key (start.container.sketch id).expiresAt
        (start.container.sketch id).toBytes) (calls h) final ∧ Settled start id h s final := by
  have hstage : (start.container.begin id).stage =
      .update (start.container.sketch id).expiresAt (start.container.sketch id).toBytes :=
    if_neg (by rw [live]; decide)
  obtain ⟨pre, m, after, s₁, job', final, rfl, hafter, hpursues⟩ :=
    (orderly.hand writes.begins).pursue made dirty writes.run writes.lasts writes.ends room
  obtain ⟨s₂, hpre, -⟩ := writes.run.moment
  have hstage' : job'.stage = .update (start.container.sketch id).expiresAt
      (start.container.sketch id).toBytes := (congrArg Job.stage hpursues.same).trans hstage
  have ends : m.before.container.toWriteBack.Ends job' final := by
    refine ⟨hpursues.verdict, fun h => ?_⟩
    rw [hstage'] at h
    cases h.1
  obtain ⟨hsettled, hended⟩ := hpursues.settled hpre ends dirty rfl
  obtain ⟨rfl, rfl⟩ := nil_of_ended hafter
    (fun m hm => writes.lasts m (List.mem_append_right _ (List.mem_cons_of_mem _ hm))) hended
  have hattempts := hpursues.attempts rfl
  have hrequest : (start.container.begin id).request =
      .update (start.container.sketch id).key (start.container.sketch id).expiresAt
        (start.container.sketch id).toBytes := by
    rw [Job.request, hstage]
    rfl
  rw [hrequest] at hattempts
  exact ⟨final, hattempts, hsettled⟩

/-- What becomes of the callers and of the successor of a deleted sketch when its write has ended. -/
structure Resolved (start : System) (id : SketchId) (h : List Moment) (s : System)
    (final : Backend.Answer) (waiters : List Ticket) : Prop where
  told : ∃ late : List Ticket, tells h =
    (waiters.map fun ticket => (ticket, WriteBack.confirmation final)) ++
      late.map (fun ticket => (ticket, .dropped)) ∧ (late ≠ [] → final = .error .stopped)
  renewed : final = .ok () → ∀ last ∈ h.getLast?, ∀ current < last.before.container.sketches.next,
    last.before.container.get? (start.container.sketch id).key = some current → current ≠ id →
    (last.before.container.sketch current).deleted = false →
    last.before.container.toWriteBack.Renews current s.container.toWriteBack

theorem resolved (hears : m.before.Hears job m.event final s) (quiet : tells pre = [])
    (ends : m.before.container.toWriteBack.Ends job final)
    (stage : ∀ expiresAt data, job.stage ≠ .update expiresAt data)
    (hkey : (m.before.container.sketch job.sketch).key = (start.container.sketch job.sketch).key) :
    Resolved start job.sketch (pre ++ [m]) s final
      (m.before.container.toWriteBack.audience job) := by
  refine ⟨?_, ?_⟩
  · have htells : tells (pre ++ [m]) =
        (m.before.container.toWriteBack.proceed job final).2.2 := by
      rw [tells_append, quiet, tells, List.flatMap_singleton, Moment.told, hears.answered]
      rfl
    rw [htells]
    exact WriteBack.notices_proceed ends stage
  · rintro rfl last hlast current made hget hne hlive
    rw [List.getLast?_concat] at hlast
    obtain rfl := Option.some.inj hlast
    rw [← hkey] at hget
    rw [hears.writeBack]
    exact WriteBack.renews_proceed ends stage made hget hne hlive

theorem Hears.flush (hears : s.Hears job e (.ok ()) s') (next : s.next? e = some s')
    (verdict : s.container.retry.judge job.attempt (.ok ()) = .finish (.ok ()))
    (stage : job.stage = .delete) (waiting : (s.container.sketch job.sketch).waiters ≠ []) :
    s'.Hand (job.flushing (s.container.sketch job.sketch).waiters) ∧
      s'.container.toWriteBack = s.container.toWriteBack.dismissed job.sketch ∧
      Moment.Silent job.sketch ⟨s, e⟩ ∧ Moment.told ⟨s, e⟩ = [] := by
  have hproceed := WriteBack.proceed_of_waiting verdict stage waiting
  have hwriteBack := hears.writeBack
  rw [hproceed] at hwriteBack
  refine ⟨hears.hand _ (by rw [hproceed]; rfl), hwriteBack,
    silent_of_enqueues next fun _ => ⟨[], .still ?_, List.not_mem_nil⟩, ?_⟩
  · rw [hwriteBack]
    rfl
  · rw [Moment.told, hears.answered]
    exact congrArg (·.2.2) hproceed

/-- A delete has gone well, and the flush of those who wait for it is next. -/
structure Flushes (start : System) (id : SketchId) (h : List Moment) (waiters : List Ticket)
    (s : System) : Prop where
  hand : s.Hand ((start.container.begin id).flushing waiters)
  retry : s.container.retry = start.container.retry
  made : id < s.container.sketches.next
  pending : (s.container.sketch id).pending.toInt =
    (start.container.sketch id).pending.toInt + mutations id h
  key : (s.container.sketch id).key = (start.container.sketch id).key
  silent : ∀ m ∈ h, m.Silent id
  quiet : tells h = []

theorem Pursues.flushes (h' : start.Pursues (start.container.begin id) job pre m (.ok ()) s)
    (stage : (start.container.begin id).stage = .delete)
    (waiting : (m.before.container.sketch id).waiters ≠ []) :
    Flushes start id (pre ++ [m]) (m.before.container.sketch id).waiters s := by
  obtain ⟨attempt, rfl⟩ : ∃ attempt, job = { start.container.begin id with attempt } :=
    ⟨_, h'.same⟩
  obtain ⟨hhand, hdismissed, hsilent, htold⟩ :
      s.Hand ((start.container.begin id).flushing (m.before.container.sketch id).waiters) ∧
      s.container.toWriteBack = m.before.container.toWriteBack.dismissed id ∧
      m.Silent id ∧ m.told = [] :=
    h'.hears.flush h'.next h'.verdict stage waiting
  obtain ⟨hpending, hkey⟩ : (s.container.sketch id).pending = (m.before.container.sketch id).pending ∧
      (s.container.sketch id).key = (m.before.container.sketch id).key := by
    rw [hdismissed]
    exact WriteBack.sketch_dismissed _ id id
  refine ⟨hhand, ?_, ?_, ?_, hkey.trans h'.gains.key, ?_, ?_⟩
  · rw [hdismissed]
    exact h'.retry
  · rw [hdismissed, WriteBack.toRegistry_dismissed, Registry.next_modify]
    exact h'.made
  · rw [hpending, mutations_append, mutations_cons, h'.hears.idle id]
    exact h'.gains.pending
  · exact List.forall_mem_append.2 ⟨h'.silent, List.forall_mem_singleton.2 hsilent⟩
  · rw [tells_append, h'.quiet, tells, List.flatMap_singleton, htold]
    rfl

theorem Flushes.finish {done after : List Moment} {s₁ : System} {waiters : List Ticket}
    (flushes : Flushes start id done waiters s₁) (run : Run start done s₁) (hafter : Run s₁ after s)
    (lasts : ∀ m ∈ after, m.before.container.jobs ≠ []) (ends : s.container.jobs = [])
    (dirty : 0 < (start.container.sketch id).pending.toInt)
    (room : (start.container.sketch id).pending.toInt + mutations id (done ++ after) < 2 ^ 63) :
    ∃ final, Backend.Attempts (max 1 start.container.retry.maxAttempts.toNat) .flush (calls after) final ∧
      Settled start id (done ++ after) s final ∧ Resolved start id (done ++ after) s final waiters := by
  rw [mutations_append] at room
  push_cast at room
  have hpending := flushes.pending
  obtain ⟨rest, last, beyond, s₂, job, final, rfl, hbeyond, hpursues⟩ :=
    flushes.hand.pursue flushes.made (by change 0 < (s₁.container.sketch id).pending.toInt; omega)
      hafter lasts ends (by change (s₁.container.sketch id).pending.toInt + mutations id after < _; omega)
  obtain ⟨attempt, rfl⟩ : ∃ attempt, job =
      { (start.container.begin id).flushing waiters with attempt } := ⟨_, hpursues.same⟩
  obtain ⟨s₃, hrest, -⟩ := hafter.moment
  have hends : last.before.container.toWriteBack.Ends _ final :=
    ⟨hpursues.verdict, fun h => by cases h.1⟩
  have hquiet : tells (done ++ rest) = [] := by
    rw [tells_append, flushes.quiet, hpursues.quiet]
    rfl
  have hgrown : (last.before.container.sketch id).pending.toInt =
      (start.container.sketch id).pending.toInt + mutations id (done ++ rest) := by
    have hrest : (last.before.container.sketch id).pending.toInt =
        (s₁.container.sketch id).pending.toInt + mutations id rest := hpursues.gains.pending
    rw [hrest, hpending, mutations_append]
    push_cast
    omega
  obtain ⟨hsettled, hended⟩ := settled hpursues.hears (run.append hrest)
    (List.forall_mem_append.2 ⟨flushes.silent, hpursues.silent⟩) hquiet hends hpursues.made dirty rfl
    hgrown
  obtain ⟨rfl, rfl⟩ := nil_of_ended hbeyond
    (fun m hm => lasts m (List.mem_append_right _ (List.mem_cons_of_mem _ hm))) hended
  have hattempts := hpursues.attempts rfl
  have hresolved := resolved hpursues.hears hquiet hends (fun _ _ h => by cases h)
    (hpursues.gains.key.trans flushes.key)
  rw [flushes.retry] at hattempts
  rw [List.append_assoc] at hsettled hresolved
  exact ⟨final, hattempts, hsettled, hresolved⟩

/-- A deleted sketch is deleted, and a flush follows if that is successful and callers wait for it. -/
theorem Writes.delete (writes : Writes start id h s) (orderly : start.Orderly)
    (made : id < start.container.sketches.next)
    (dirty : 0 < (start.container.sketch id).pending.toInt)
    (room : (start.container.sketch id).pending.toInt + mutations id h < 2 ^ 63)
    (dead : (start.container.sketch id).deleted = true) :
    ∃ before m after last final, h = before ++ m :: after ∧
      Backend.Attempts (max 1 start.container.retry.maxAttempts.toNat)
        (.delete (start.container.sketch id).key) (calls (before ++ [m])) last ∧
      (last = .ok () ∧ (m.before.container.sketch id).waiters ≠ [] →
        Backend.Attempts (max 1 start.container.retry.maxAttempts.toNat) .flush (calls after) final) ∧
      (¬ (last = .ok () ∧ (m.before.container.sketch id).waiters ≠ []) → after = [] ∧ final = last) ∧
      Settled start id h s final ∧
      Resolved start id h s final (m.before.container.sketch id).waiters := by
  have hstage : (start.container.begin id).stage = .delete := if_pos dead
  obtain ⟨before, m, after, s₁, job', last, rfl, hafter, hpursues⟩ :=
    (orderly.hand writes.begins).pursue made dirty writes.run writes.lasts writes.ends room
  obtain ⟨s₂, hpre, -⟩ := writes.run.moment
  have hattempts := hpursues.attempts rfl
  have hrequest : (start.container.begin id).request = .delete (start.container.sketch id).key := by
    rw [Job.request, hstage]
    rfl
  rw [hrequest] at hattempts
  by_cases hflush : last = .ok () ∧ (m.before.container.sketch id).waiters ≠ []
  · obtain ⟨rfl, hwaiting⟩ := hflush
    have hwhole : before ++ m :: after = (before ++ [m]) ++ after := (List.append_assoc _ [m] _).symm
    rw [hwhole] at room ⊢
    obtain ⟨final, hflushes, hsettled, hresolved⟩ :=
      (hpursues.flushes hstage hwaiting).finish (hpre.step hpursues.next) hafter
        (fun m hm => writes.lasts m (List.mem_append_right _ (List.mem_cons_of_mem _ hm)))
        writes.ends dirty room
    exact ⟨before, m, after, _, final, hwhole.symm, hattempts, fun _ => hflushes,
      fun hnot => absurd ⟨rfl, hwaiting⟩ hnot, hsettled, hresolved⟩
  · have hstage' : job'.stage = .delete := (congrArg Job.stage hpursues.same).trans hstage
    have hsketch : job'.sketch = id := (congrArg Job.sketch hpursues.same).trans rfl
    have hends : m.before.container.toWriteBack.Ends job' last := by
      refine ⟨hpursues.verdict, ?_⟩
      rw [hsketch]
      exact fun h => hflush h.2
    obtain ⟨hsettled, hended⟩ := hpursues.settled hpre hends dirty rfl
    obtain ⟨rfl, rfl⟩ := nil_of_ended hafter
      (fun m hm => writes.lasts m (List.mem_append_right _ (List.mem_cons_of_mem _ hm))) hended
    have hresolved : Resolved start job'.sketch (before ++ [m]) s last _ :=
      resolved hpursues.hears hpursues.quiet hends (fun _ _ h => by rw [hstage'] at h; cases h)
        (by rw [hsketch]; exact hpursues.gains.key)
    rw [hsketch, WriteBack.audience, hstage', hsketch] at hresolved
    exact ⟨before, m, [], last, last, rfl, hattempts, fun h => absurd h hflush, fun _ => ⟨rfl, rfl⟩,
      hsettled, hresolved⟩

/--
The account of one write of a dirty sketch in any state, with any answers of a store that nobody else
writes. A live sketch is updated as it was at the start, a deleted one is deleted, and a flush follows if
that is successful and callers wait for it. The pending count, the pushes, the queues, the callers, the
successor under the key and the records are in the end what the final answer says.
-/
theorem write_accounts (writes : Writes start id h s) (orderly : start.Orderly)
    (made : id < start.container.sketches.next)
    (dirty : 0 < (start.container.sketch id).pending.toInt)
    (room : (start.container.sketch id).pending.toInt + mutations id h < 2 ^ 63) :
    let sketch := start.container.sketch id
    let limit := max 1 start.container.retry.maxAttempts.toNat
    (sketch.deleted = false → ∃ final,
      Backend.Attempts limit (.update sketch.key sketch.expiresAt sketch.toBytes) (calls h) final ∧
      Settled start id h s final ∧
      ∀ b b' : Backend, b.Attends (calls h) b' → b'.get? = Backend.recorded
        (some (.update sketch.key sketch.expiresAt sketch.toBytes, final)) b.get?) ∧
    (sketch.deleted = true → ∃ before m after last final, h = before ++ m :: after ∧
      Backend.Attempts limit (.delete sketch.key) (calls (before ++ [m])) last ∧
      (last = .ok () ∧ (m.before.container.sketch id).waiters ≠ [] →
        Backend.Attempts limit .flush (calls after) final) ∧
      (¬ (last = .ok () ∧ (m.before.container.sketch id).waiters ≠ []) → after = [] ∧ final = last) ∧
      Settled start id h s final ∧
      Resolved start id h s final (m.before.container.sketch id).waiters ∧
      ∀ b b' : Backend, b.Attends (calls h) b' →
        b'.get? = Backend.recorded (some (.delete sketch.key, last)) b.get?) := by
  intro sketch limit
  refine ⟨fun live => ?_, fun dead => ?_⟩
  · obtain ⟨final, hattempts, hsettled⟩ := writes.update orderly made dirty room live
    refine ⟨final, hattempts, hsettled, fun b b' hattends => ?_⟩
    rw [hattends.get?, hattempts.recordedAll_eq]
  · obtain ⟨before, m, after, last, final, rfl, hattempts, hflush, hnone, hsettled, hresolved⟩ :=
      writes.delete orderly made dirty room dead
    refine ⟨before, m, after, last, final, rfl, hattempts, hflush, hnone, hsettled, hresolved,
      fun b b' hattends => ?_⟩
    have hsplit : calls (before ++ m :: after) = calls (before ++ [m]) ++ calls after := by
      rw [← calls_append, List.append_assoc]
      rfl
    rw [hattends.get?, hsplit, Backend.recordedAll_append, hattempts.recordedAll_eq]
    by_cases hwaiting : last = .ok () ∧ (m.before.container.sketch id).waiters ≠ []
    · rw [(hflush hwaiting).recordedAll_eq, Backend.recorded_flush]
    · obtain ⟨rfl, -⟩ := hnone hwaiting
      rfl

def begunEvents : List Event :=
  [.add 1 "a" (some [1]) 50, .saverTake (partitionOf 3), .saverSend (partitionOf 3), .writerTake]

/-- The update is tried twice. Before it is tried again, a value is counted and the key is deleted. -/
def writtenEvents : List Event :=
  [.writerAnswer (.error Backend.injected), .add 2 "a" (some [2]) 0, .delete "a",
    .writerAnswer (.ok ())]

theorem write_accounts_sample :
    let start := ((System.start sampleContainer).played begunEvents (by decide +kernel)).2
    let written := start.played writtenEvents (by decide +kernel)
    (start.container.sketch 0).pending.toInt = 1 ∧
      (written.2.container.sketch 0).pending.toInt = 2 ∧
      written.2.container.queued.count 0 = 1 ∧
      ∀ b b' : Backend, b.Attends (calls written.1) b' →
        b'.get? "a" = some ⟨51, (start.container.sketch 0).toBytes⟩ := by
  intro start written
  have hlength :
      ((System.start sampleContainer).played begunEvents (by decide +kernel)).1.length = 4 := by
    decide +kernel
  have hrun : Run (System.start sampleContainer) _ start :=
    (System.start sampleContainer).run_played begunEvents (by decide +kernel)
  have hwritten : Run start written.1 written.2 :=
    start.run_played writtenEvents (by decide +kernel)
  have hmade : 0 < start.container.sketches.next := by decide +kernel
  have hpending : (start.container.sketch 0).pending.toInt = 1 := by decide +kernel
  have hlive : (start.container.sketch 0).deleted = false := by decide +kernel
  have hkey : (start.container.sketch 0).key = "a" := by decide +kernel
  have hexpires : (start.container.sketch 0).expiresAt = 51 := by decide +kernel
  have hbegins : start.container.jobs = [start.container.begin 0] := by decide +kernel
  have hlasts : ∀ m ∈ written.1, m.before.container.jobs ≠ [] := by decide +kernel
  have hends : written.2.container.jobs = [] := by decide +kernel
  have hmutations : mutations 0 written.1 = 2 := by decide +kernel
  have hanswers : (calls written.1).map (·.2) = [.error Backend.injected, .ok ()] := by decide +kernel
  have hunheld : ∀ p : Partition, (start.container.queues.get p).items = [] ∧
      (start.container.savers.get p).held = [] := by decide +kernel
  clear_value written start
  have horderly : start.Orderly :=
    (opens_sampleContainer.ready_beginOpen.sane.run hrun (by omega)).orderly
  obtain ⟨hupdate, -⟩ := write_accounts ⟨hwritten, hbegins, hlasts, hends⟩ horderly hmade
    (by omega) (by omega)
  obtain ⟨final, hattempts, hsettled, hrecords⟩ := hupdate hlive
  obtain ⟨faults, hcalls, -⟩ := hattempts.made
  have hall : faults ++ [final] = [.error Backend.injected, .ok ()] := by
    rw [hcalls, List.map_map] at hanswers
    exact (List.map_id _).symm.trans hanswers
  obtain rfl : final = .ok () := by
    have hlast := congrArg List.getLast? hall
    rw [List.getLast?_concat] at hlast
    exact Option.some.inj hlast
  obtain ⟨hsettled, hpushes, hqueued, -⟩ := hsettled
  rw [hmutations] at hsettled hqueued
  refine ⟨hpending, hsettled, hqueued fun p => ?_, fun b b' hattends => ?_⟩
  · rintro (hqueue | hheld)
    · rw [(hunheld p).1] at hqueue
      cases hqueue
    · rw [(hunheld p).2] at hheld
      cases hheld
  · rw [hrecords b b' hattends]
    change (if "a" = (start.container.sketch 0).key then _ else _) = _
    rw [hkey, if_pos rfl, hexpires]

end System

end DistinctCount
