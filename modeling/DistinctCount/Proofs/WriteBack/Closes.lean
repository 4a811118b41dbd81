import DistinctCount.Proofs.WriteBack.Enqueues

/-!
The last answer of a write and what it leaves: the account of the sketch, the pushes, what the callers are
told, and the sketch that has to be written again. Nothing is asked of the write-back but that the
sketch has at least the mutations that the write began with.
-/

namespace DistinctCount

/-- The pending count after a write of `p` mutations during which there were `d` more. -/
def pendingAfter (p : Int) (d : Nat) : Backend.Answer → Int
  | .ok () => d
  | .error _ => p + d

/-- How often the end of a write with `d` mutations meanwhile pushes the sketch. -/
def pushesAfter (d : Nat) : Backend.Answer → Nat
  | .ok () => if d = 0 then 0 else 1
  | .error .stopped => 0
  | .error (.unavailable _) => 1

def Job.flushing (job : Job) (waiters : List Ticket) : Job :=
  { job with stage := .flush waiters, attempt := 1 }

theorem RetryPolicy.judge_cases (p : RetryPolicy) (attempt : UInt32) (answer : Backend.Answer) :
    (∃ reason, answer = .error (.unavailable reason) ∧ attempt < p.maxAttempts ∧
      p.judge attempt answer = .again (p.backoff attempt)) ∨
    ((∀ reason, answer = .error (.unavailable reason) → p.maxAttempts ≤ attempt) ∧
      p.judge attempt answer = .finish answer) := by
  match answer with
  | .ok () => exact .inr ⟨nofun, rfl⟩
  | .error .stopped => exact .inr ⟨nofun, rfl⟩
  | .error (.unavailable reason) =>
    by_cases hlast : p.maxAttempts ≤ attempt
    · exact .inr ⟨fun _ _ => hlast, if_pos hlast⟩
    · exact .inl ⟨reason, rfl, UInt32.not_le.1 hlast, if_neg hlast⟩

namespace WriteBack

variable {w w' w'' : WriteBack} {log log' : Pushes} {job : Job} {id current : SketchId} {d : Nat}
  {final : Backend.Answer} {waiters : List Ticket}

theorem Enqueues.count (h : Enqueues w log w') (id : SketchId) :
    w'.queued.count id = w.queued.count id + log.sketches.count id := by
  induction h with
  | still queues =>
    rw [queued, queued, queues]
    rfl
  | push w pushed =>
    rw [count_queued_enqueue]
    change _ = _ + [pushed].count id
    rw [List.count_singleton]
    exact congrArg (_ + ·) (if_congr (eq_comm.trans beq_iff_eq.symm) rfl rfl)
  | trans _ _ ih ih' => rw [ih', ih, Pushes.sketches_append, List.count_append, Nat.add_assoc]

theorem Enqueues.count_unique (h : Enqueues w log w') (h' : Enqueues w log' w') (id : SketchId) :
    log'.sketches.count id = log.sketches.count id := by
  have hcount := h.count id
  have hcount' := h'.count id
  omega

/-- A write ends with a final answer while its sketch has `d` mutations more. -/
structure Closes (w : WriteBack) (job : Job) (d : Nat) (final : Backend.Answer) (w' : WriteBack) :
    Prop where
  pending : (w'.sketch job.sketch).pending.toInt = pendingAfter job.pending.toInt d final
  pushes : ∃ log, Enqueues w log w' ∧ log.sketches.count job.sketch = pushesAfter d final

/-- What comes before the end without a push of the sketch is no part of the account. -/
theorem Closes.after (first : Enqueues w log w') (unpushed : job.sketch ∉ log.sketches)
    (h : Closes w' job d final w'') : Closes w job d final w'' := by
  obtain ⟨more, hmore, hcount⟩ := h.pushes
  refine ⟨h.pending, _, first.trans hmore, ?_⟩
  rw [Pushes.sketches_append, List.count_append, List.count_eq_zero.2 unpushed, Nat.zero_add, hcount]

theorem closes_flushed (made : job.sketch < w.sketches.next) (dirty : 0 < job.pending.toInt)
    (grown : (w.sketch job.sketch).pending.toInt = job.pending.toInt + d) :
    Closes w job d (.ok ()) (w.flushed job) := by
  have hself : (w.edit job.sketch (·.markFlushed job.pending)).sketch job.sketch =
      (w.sketch job.sketch).markFlushed job.pending := Registry.sketch_modify_self made
  have hrest : ((w.sketch job.sketch).markFlushed job.pending).pending.toInt = d := by
    have hsub := Sketch.toInt_pending_sub (s := w.sketch job.sketch) (Int.le_of_lt dirty) (by omega)
    exact hsub.trans (by omega)
  refine ⟨?_, _, enqueues_flushed w job, ?_⟩
  · rw [toRegistry_flushed, Registry.sketch_modify_self made]
    exact hrest
  · have hleft : 0 < ((w.sketch job.sketch).markFlushed job.pending).pending ↔ d ≠ 0 := by
      rw [Int64.lt_iff_toInt_lt, hrest, Int64.toInt_zero]
      omega
    rw [hself, pushesAfter]
    simp only [hleft, ne_eq, ite_not]
    split
    · rfl
    · exact List.count_singleton_self

theorem sketch_dismissed (w : WriteBack) (id other : SketchId) :
    ((w.dismissed id).sketch other).pending = (w.sketch other).pending ∧
      ((w.dismissed id).sketch other).key = (w.sketch other).key := by
  rw [toRegistry_dismissed, Registry.sketch_modify]
  split
  · rename_i h
    rw [h.1]
    exact ⟨rfl, rfl⟩
  · exact ⟨rfl, rfl⟩

theorem closes_dismissed (grown : (w.sketch job.sketch).pending.toInt = job.pending.toInt + d) :
    Closes w job d (.error .stopped) (w.dismissed job.sketch) := by
  refine ⟨?_, _, enqueues_edit w job.sketch _, rfl⟩
  rw [(w.sketch_dismissed _ _).1]
  exact grown

theorem closes_enqueue (grown : (w.sketch job.sketch).pending.toInt = job.pending.toInt + d)
    (reason : String) : Closes w job d (.error (.unavailable reason)) (w.enqueue job.sketch) :=
  ⟨grown, _, .push w job.sketch, List.count_singleton_self⟩

theorem closes_settle (made : job.sketch < w.sketches.next) (dirty : 0 < job.pending.toInt)
    (grown : (w.sketch job.sketch).pending.toInt = job.pending.toInt + d) (final : Backend.Answer) :
    Closes w job d final (w.settle job final).1 := by
  match final with
  | .ok () => exact closes_flushed made dirty grown
  | .error .stopped => exact closes_dismissed grown
  | .error (.unavailable reason) => exact closes_enqueue grown reason

theorem enqueues_renewed_other (w : WriteBack) (id : SketchId) :
    (w.renewed id).sketches.next = w.sketches.next ∧ (w.renewed id).sketch id = w.sketch id ∧
      ∃ log, Enqueues w log (w.renewed id) ∧ id ∉ log.sketches := by
  unfold renewed
  split
  · rename_i current hsuccessor
    obtain ⟨-, hne, -⟩ := Registry.successor_eq_some.1 hsuccessor
    refine ⟨?_, ?_, _, enqueues_schedule w current, ?_⟩
    · rw [toRegistry_schedule, Registry.next_modify]
    · rw [toRegistry_schedule, Registry.sketch_modify_of_ne hne.symm]
    · split
      · exact fun hmem => hne (List.mem_singleton.1 hmem).symm
      · exact List.not_mem_nil
  · exact ⟨rfl, rfl, [], .still rfl, List.not_mem_nil⟩

theorem closes_settleDelete (made : job.sketch < w.sketches.next) (dirty : 0 < job.pending.toInt)
    (grown : (w.sketch job.sketch).pending.toInt = job.pending.toInt + d) (waiters : List Ticket)
    (final : Backend.Answer) : Closes w job d final (w.settleDelete job waiters final).1 := by
  match final with
  | .ok () =>
    obtain ⟨hnext, hself, log, hlog, hother⟩ := w.enqueues_renewed_other job.sketch
    have hflushed : (w.settleDelete job waiters (.ok ())).1 =
        (w.renewed job.sketch).flushed job := by rw [settleDelete_ok]
    rw [hflushed]
    refine .after hlog hother (closes_flushed ?_ dirty ?_)
    · rwa [hnext]
    · rw [hself, grown]
  | .error .stopped =>
    rw [settleDelete_stopped]
    exact closes_dismissed grown
  | .error (.unavailable reason) =>
    have hne : BackendError.unavailable reason ≠ .stopped := nofun
    rw [settleDelete_error w job waiters hne]
    exact closes_enqueue grown reason

theorem proceed_again {pause : Duration} (h : w.retry.judge job.attempt final = .again pause) :
    w.proceed job final = (w, .pause pause { job with attempt := job.attempt + 1 }, []) := by
  rw [proceed, h]

/-- A delete that is successful and that callers wait for is followed by a flush. -/
theorem proceed_of_waiting (verdict : w.retry.judge job.attempt (.ok ()) = .finish (.ok ()))
    (stage : job.stage = .delete) (waiting : (w.sketch job.sketch).waiters ≠ []) :
    w.proceed job (.ok ()) = (w.dismissed job.sketch,
      .call (job.flushing (w.sketch job.sketch).waiters), []) := by
  obtain ⟨ticket, waiters, hcons⟩ := List.exists_cons_of_ne_nil waiting
  rw [proceed, verdict]
  simp only [stage, takeWaiters_eq, hcons, Job.flushing]

structure Ends (w : WriteBack) (job : Job) (final : Backend.Answer) : Prop where
  verdict : w.retry.judge job.attempt final = .finish final
  last : ¬ (job.stage = .delete ∧ final = .ok () ∧ (w.sketch job.sketch).waiters ≠ [])

def audience (w : WriteBack) (job : Job) : List Ticket :=
  match job.stage with
  | .update _ _ => []
  | .delete => (w.sketch job.sketch).waiters
  | .flush waiters => waiters

theorem proceed_of_delete (h : w.Ends job final) (stage : job.stage = .delete) :
    w.proceed job final = (((w.dismissed job.sketch).settleDelete job
      (w.sketch job.sketch).waiters final).1, .done,
      ((w.dismissed job.sketch).settleDelete job (w.sketch job.sketch).waiters final).2) := by
  have hlast : final = .ok () → (w.sketch job.sketch).waiters = [] := fun hok =>
    Decidable.byContradiction fun hne => h.last ⟨stage, hok, hne⟩
  rw [proceed, h.verdict]
  simp only [stage, takeWaiters_eq]
  split
  · rename_i hcons
    rw [hlast rfl] at hcons
    cases hcons
  · rfl

theorem proceed_of_flush (h : w.Ends job final) (stage : job.stage = .flush waiters) :
    w.proceed job final = ((w.settleDelete job waiters final).1, .done,
      (w.settleDelete job waiters final).2) := by
  rw [proceed, h.verdict]
  simp only [stage]

theorem proceed_of_update (h : w.Ends job final) {expiresAt : UInt64} {data : List UInt8}
    (stage : job.stage = .update expiresAt data) :
    w.proceed job final = ((w.settle job final).1, .done, (w.settle job final).2) := by
  rw [proceed, h.verdict]
  simp only [stage]

theorem closes_proceed (h : w.Ends job final) (made : job.sketch < w.sketches.next)
    (dirty : 0 < job.pending.toInt)
    (grown : (w.sketch job.sketch).pending.toInt = job.pending.toInt + d) :
    (w.proceed job final).2.1 = .done ∧ Closes w job d final (w.proceed job final).1 := by
  cases hstage : job.stage with
  | update expiresAt data =>
    rw [proceed_of_update h hstage]
    exact ⟨rfl, closes_settle made dirty grown final⟩
  | delete =>
    rw [proceed_of_delete h hstage]
    have hdismissed : Enqueues w [] (w.dismissed job.sketch) := enqueues_edit w job.sketch _
    refine ⟨rfl, .after hdismissed List.not_mem_nil
      (closes_settleDelete ?_ dirty ?_ (w.sketch job.sketch).waiters final)⟩
    · rwa [toRegistry_dismissed, Registry.next_modify]
    · rw [(w.sketch_dismissed _ _).1, grown]
  | flush waiters =>
    rw [proceed_of_flush h hstage]
    exact ⟨rfl, closes_settleDelete made dirty grown waiters final⟩

theorem notices_settleDelete (w : WriteBack) (job : Job) (waiters : List Ticket)
    (final : Backend.Answer) : ∃ late : List Ticket,
      (w.settleDelete job waiters final).2 =
        (waiters.map fun ticket => (ticket, confirmation final)) ++
          late.map (fun ticket => (ticket, .dropped)) ∧
      (late ≠ [] → final = .error .stopped) := by
  match final with
  | .ok () =>
    refine ⟨[], ?_, fun h => absurd rfl h⟩
    rw [settleDelete_ok]
    exact (List.append_nil _).symm
  | .error .stopped => exact ⟨_, congrArg Prod.snd (settleDelete_stopped w job waiters), fun _ => rfl⟩
  | .error (.unavailable reason) =>
    have hne : BackendError.unavailable reason ≠ .stopped := nofun
    refine ⟨[], ?_, fun h => absurd rfl h⟩
    rw [settleDelete_error w job waiters hne]
    exact (List.append_nil _).symm

/-- Every caller of a deletion is told the final answer. Those that came after the delete are dropped. -/
theorem notices_proceed (h : w.Ends job final)
    (stage : ∀ expiresAt data, job.stage ≠ .update expiresAt data) :
    ∃ late : List Ticket, (w.proceed job final).2.2 =
      ((w.audience job).map fun ticket => (ticket, confirmation final)) ++
        late.map (fun ticket => (ticket, .dropped)) ∧
      (late ≠ [] → final = .error .stopped) := by
  cases hstage : job.stage with
  | update expiresAt data => exact absurd hstage (stage _ _)
  | delete =>
    rw [proceed_of_delete h hstage, audience, hstage]
    exact notices_settleDelete _ job _ final
  | flush waiters =>
    rw [proceed_of_flush h hstage, audience, hstage]
    exact notices_settleDelete _ job _ final

/-- The end of a deletion counts a mutation of the sketch that has taken the place of the deleted one. -/
structure Renews (w : WriteBack) (current : SketchId) (w' : WriteBack) : Prop where
  pending : (w'.sketch current).pending = (w.sketch current).pending + 1
  pushes : ∃ log, Enqueues w log w' ∧
    log.sketches.count current = if (w.sketch current).pending = 0 then 1 else 0

theorem renews_schedule (made : current < w.sketches.next) : Renews w current (w.schedule current) := by
  have hself : (w.edit current Sketch.markDirty).sketch current = (w.sketch current).markDirty :=
    Registry.sketch_modify_self made
  have hone : (w.sketch current).pending + 1 = 1 ↔ (w.sketch current).pending = 0 := by
    rw [← Int64.add_left_inj 1 (a := (w.sketch current).pending), Int64.zero_add]
  refine ⟨?_, _, enqueues_schedule w current, ?_⟩
  · rw [toRegistry_schedule, Registry.sketch_modify_self made]
    rfl
  · rw [hself]
    simp only [Sketch.markDirty, hone]
    split
    · exact List.count_singleton_self
    · rfl

theorem Renews.flushed (h : Renews w current w') (hne : current ≠ job.sketch) :
    Renews w current (w'.flushed job) := by
  obtain ⟨log, hlog, hcount⟩ := h.pushes
  obtain ⟨more, hmore, hother⟩ : ∃ more, Enqueues w' more (w'.flushed job) ∧
      current ∉ more.sketches := by
    refine ⟨_, enqueues_flushed w' job, ?_⟩
    split
    · exact fun hmem => hne (List.mem_singleton.1 hmem)
    · exact List.not_mem_nil
  refine ⟨?_, _, hlog.trans hmore, ?_⟩
  · rw [toRegistry_flushed, Registry.sketch_modify_of_ne hne, h.pending]
  · rw [Pushes.sketches_append, List.count_append, List.count_eq_zero.2 hother, hcount, Nat.add_zero]

/-- A successful deletion renews the live sketch that has taken the place of the deleted one. -/
theorem renews_proceed (h : w.Ends job (.ok ()))
    (stage : ∀ expiresAt data, job.stage ≠ .update expiresAt data)
    (made : current < w.sketches.next) (hget : w.get? (w.sketch job.sketch).key = some current)
    (hne : current ≠ job.sketch) (hlive : (w.sketch current).deleted = false) :
    Renews w current (w.proceed job (.ok ())).1 := by
  have hsuccessor : w.successor job.sketch = some current :=
    Registry.successor_eq_some.2 ⟨hget, hne, hlive⟩
  have hrenewed : w.renewed job.sketch = w.schedule current := by rw [renewed, hsuccessor]
  have hdone : (w.proceed job (.ok ())).1 = (w.renewed job.sketch).flushed job := by
    cases hstage : job.stage with
    | update expiresAt data => exact absurd hstage (stage _ _)
    | delete =>
      have halone : (w.sketch job.sketch).waiters = [] :=
        Decidable.byContradiction fun hne => h.last ⟨hstage, rfl, hne⟩
      rw [proceed_of_delete h hstage, settleDelete_ok, dismissed_of_alone halone]
    | flush waiters => rw [proceed_of_flush h hstage, settleDelete_ok]
  rw [hdone, hrenewed]
  exact (renews_schedule made).flushed hne

end WriteBack

end DistinctCount
