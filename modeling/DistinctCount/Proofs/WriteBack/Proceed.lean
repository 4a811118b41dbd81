import DistinctCount.WriteBack.Job
import DistinctCount.Proofs.WriteBack.Mutate

namespace DistinctCount.WriteBack

variable {w : WriteBack} {id : SketchId} {job : Job} {answer : Backend.Answer}

def dismissed (w : WriteBack) (id : SketchId) : WriteBack :=
  w.edit id fun s => { s with waiters := [] }

/-- The sketch that has taken the place of a deleted one is to be written again. -/
def renewed (w : WriteBack) (id : SketchId) : WriteBack :=
  match w.successor id with
  | some current => w.schedule current
  | none => w

def flushed (w : WriteBack) (job : Job) : WriteBack :=
  (w.settle job (.ok ())).1

inductive Outcome (w : WriteBack) (job : Job) :
    Backend.Answer → WriteBack → Progress → List Notice → Prop
  | pause (e : BackendError) (length : Duration) (error : e ≠ .stopped)
      (more : job.attempt < w.retry.maxAttempts) :
      Outcome w job (.error e) w (.pause length { job with attempt := job.attempt + 1 }) []
  | flush (stage : job.stage = .delete) (waiting : (w.sketch job.sketch).waiters ≠ []) :
      Outcome w job (.ok ()) (w.dismissed job.sketch)
        (.call { job with stage := .flush (w.sketch job.sketch).waiters, attempt := 1 }) []
  | updated (expiresAt : UInt64) (data : List UInt8) (stage : job.stage = .update expiresAt data) :
      Outcome w job (.ok ()) (w.flushed job) .done []
  | deleted (stage : job.stage = .delete) (alone : (w.sketch job.sketch).waiters = []) :
      Outcome w job (.ok ()) ((w.renewed job.sketch).flushed job) .done []
  | confirmed (waiters : List Ticket) (stage : job.stage = .flush waiters) :
      Outcome w job (.ok ()) ((w.renewed job.sketch).flushed job) .done
        (waiters.map fun ticket => (ticket, .confirmed))
  | postponed (e : BackendError) (error : e ≠ .stopped) (told : List Ticket) (w' : WriteBack)
      (left : w' = w ∧ (told = [] ∨ job.stage = .flush told) ∨
        w' = w.dismissed job.sketch ∧ told = (w.sketch job.sketch).waiters)
      (last : w.retry.maxAttempts ≤ job.attempt) :
      Outcome w job (.error e) (w'.enqueue job.sketch) .done
        (told.map fun ticket => (ticket, .failed e))
  | abandoned (notices : List Notice)
      (denied : ∀ notice ∈ notices, notice.2 ≠ .confirmed ∧
        (notice.1 ∈ (w.sketch job.sketch).waiters ∨
          ∃ waiters, job.stage = .flush waiters ∧ notice.1 ∈ waiters)) :
      Outcome w job (.error .stopped) (w.dismissed job.sketch) .done notices

theorem shards_renewed (w : WriteBack) (id : SketchId) : (w.renewed id).shards = w.shards := by
  unfold renewed
  split
  · rw [toRegistry_schedule, Registry.shards_modify]
  · rfl

theorem settle_ok (w : WriteBack) (job : Job) : w.settle job (.ok ()) = (w.flushed job, []) := rfl

theorem takeWaiters_eq (w : WriteBack) (id : SketchId) :
    w.takeWaiters id = ((w.sketch id).waiters, w.dismissed id) := rfl

theorem dismissed_of_alone (h : (w.sketch id).waiters = []) : w.dismissed id = w := by
  have hsame (s : Sketch) (hs : s.waiters = []) : { s with waiters := [] } = s := by
    cases s
    cases hs
    rfl
  have hedit : w.dismissed id = w.edit id fun s => s := edit_congr (hsame (w.sketch id) h)
  exact hedit.trans (edit_id w id)

theorem dismissed_dismissed (w : WriteBack) (id : SketchId) :
    (w.dismissed id).dismissed id = w.dismissed id :=
  edit_edit w id _ _

theorem settleDelete_ok (w : WriteBack) (job : Job) (waiters : List Ticket) :
    w.settleDelete job waiters (.ok ()) = ((w.renewed job.sketch).flushed job,
      waiters.map fun ticket => (ticket, .confirmed)) := by
  unfold settleDelete renewed
  cases w.successor job.sketch with
  | none => simp only [settle_ok, confirmation, List.append_nil]
  | some current => simp only [settle_ok, confirmation, List.append_nil]

theorem settleDelete_error (w : WriteBack) (job : Job) (waiters : List Ticket) {e : BackendError}
    (he : e ≠ .stopped) :
    w.settleDelete job waiters (.error e) = (w.enqueue job.sketch,
      waiters.map fun ticket => (ticket, .failed e)) := by
  cases e with
  | unavailable reason => exact Prod.ext rfl (List.append_nil _)
  | stopped => exact absurd rfl he

theorem settleDelete_stopped (w : WriteBack) (job : Job) (waiters : List Ticket) :
    w.settleDelete job waiters (.error .stopped) = (w.dismissed job.sketch,
      (waiters.map fun ticket => (ticket, .failed .stopped)) ++
        (w.sketch job.sketch).waiters.map fun ticket => (ticket, .dropped)) := rfl

theorem Outcome.of_eq {w' : WriteBack} {progress : Progress} {notices : List Notice}
    (hp : w.proceed job answer = (w', progress, notices))
    (h : Outcome w job answer w' progress notices) :
    Outcome w job answer (w.proceed job answer).1 (w.proceed job answer).2.1
      (w.proceed job answer).2.2 := by
  rw [hp]
  exact h

theorem outcome_ok (w : WriteBack) (job : Job) :
    Outcome w job (.ok ()) (w.proceed job (.ok ())).1 (w.proceed job (.ok ())).2.1
      (w.proceed job (.ok ())).2.2 := by
  cases hstage : job.stage with
  | update expiresAt data =>
    refine .of_eq ?_ (.updated expiresAt data hstage)
    simp only [proceed, RetryPolicy.judge, hstage, settle_ok]
  | delete =>
    by_cases hw : (w.sketch job.sketch).waiters = []
    · refine .of_eq ?_ (.deleted hstage hw)
      simp only [proceed, RetryPolicy.judge, hstage, takeWaiters_eq, hw, settleDelete_ok,
        dismissed_of_alone hw, List.map_nil]
    · refine .of_eq ?_ (.flush hstage hw)
      obtain ⟨ticket, waiters, hcons⟩ := List.exists_cons_of_ne_nil hw
      simp only [proceed, RetryPolicy.judge, hstage, takeWaiters_eq, hcons]
  | flush waiters =>
    refine .of_eq ?_ (.confirmed waiters hstage)
    simp only [proceed, RetryPolicy.judge, hstage, settleDelete_ok]

theorem waiters_dismissed (w : WriteBack) (id : SketchId) :
    ((w.dismissed id).sketch id).waiters = [] := by
  rw [dismissed, toRegistry_edit, Registry.sketch_modify]
  split
  · rfl
  · rename_i h
    rw [Registry.sketch_of_le (Nat.le_of_not_lt fun hid => h ⟨rfl, hid⟩)]
    rfl

theorem outcome_stopped (w : WriteBack) (job : Job) :
    Outcome w job (.error .stopped) (w.proceed job (.error .stopped)).1
      (w.proceed job (.error .stopped)).2.1 (w.proceed job (.error .stopped)).2.2 := by
  cases hstage : job.stage with
  | update expiresAt data =>
    have hp : w.proceed job (.error .stopped) = (w.dismissed job.sketch, .done,
        (w.sketch job.sketch).waiters.map fun ticket => (ticket, .dropped)) := by
      simp only [proceed, RetryPolicy.judge, hstage, settle, takeWaiters_eq]
    refine .of_eq hp (.abandoned _ ?_)
    intro notice hn
    obtain ⟨ticket, hticket, rfl⟩ := List.mem_map.1 hn
    exact ⟨nofun, .inl hticket⟩
  | delete =>
    have hp : w.proceed job (.error .stopped) = (w.dismissed job.sketch, .done,
        (w.sketch job.sketch).waiters.map fun ticket => (ticket, .failed .stopped)) := by
      simp only [proceed, RetryPolicy.judge, hstage, takeWaiters_eq, settleDelete_stopped,
        waiters_dismissed, dismissed_dismissed, List.map_nil, List.append_nil]
    refine .of_eq hp (.abandoned _ ?_)
    intro notice hn
    obtain ⟨ticket, hticket, rfl⟩ := List.mem_map.1 hn
    exact ⟨nofun, .inl hticket⟩
  | flush waiters =>
    have hp : w.proceed job (.error .stopped) = (w.dismissed job.sketch, .done,
        (waiters.map fun ticket => (ticket, .failed .stopped)) ++
          (w.sketch job.sketch).waiters.map fun ticket => (ticket, .dropped)) := by
      simp only [proceed, RetryPolicy.judge, hstage, settleDelete_stopped]
    refine .of_eq hp (.abandoned _ ?_)
    intro notice hn
    rcases List.mem_append.1 hn with hn | hn
    · obtain ⟨ticket, hticket, rfl⟩ := List.mem_map.1 hn
      exact ⟨nofun, .inr ⟨waiters, hstage, hticket⟩⟩
    · obtain ⟨ticket, hticket, rfl⟩ := List.mem_map.1 hn
      exact ⟨nofun, .inl hticket⟩

theorem outcome_unavailable (w : WriteBack) (job : Job) (reason : String) :
    Outcome w job (.error (.unavailable reason)) (w.proceed job (.error (.unavailable reason))).1
      (w.proceed job (.error (.unavailable reason))).2.1
      (w.proceed job (.error (.unavailable reason))).2.2 := by
  have hne : BackendError.unavailable reason ≠ .stopped := nofun
  by_cases hlast : w.retry.maxAttempts ≤ job.attempt
  · cases hstage : job.stage with
    | update expiresAt data =>
      refine .of_eq ?_ (.postponed _ hne [] w (.inl ⟨rfl, .inl rfl⟩) hlast)
      simp only [proceed, RetryPolicy.judge, if_pos hlast, hstage, settle, List.map_nil]
    | delete =>
      refine .of_eq ?_ (.postponed _ hne _ (w.dismissed job.sketch) (.inr ⟨rfl, rfl⟩) hlast)
      simp only [proceed, RetryPolicy.judge, if_pos hlast, hstage, takeWaiters_eq,
        settleDelete_error _ _ _ hne]
    | flush waiters =>
      refine .of_eq ?_ (.postponed _ hne waiters w (.inl ⟨rfl, .inr hstage⟩) hlast)
      simp only [proceed, RetryPolicy.judge, if_pos hlast, hstage, settleDelete_error _ _ _ hne]
  · refine .of_eq ?_ (.pause _ (w.retry.backoff job.attempt) hne (UInt32.not_le.1 hlast))
    simp only [proceed, RetryPolicy.judge, if_neg hlast]

theorem outcome_proceed (w : WriteBack) (job : Job) (answer : Backend.Answer) :
    Outcome w job answer (w.proceed job answer).1 (w.proceed job answer).2.1
      (w.proceed job answer).2.2 := by
  match answer with
  | .ok () => exact outcome_ok w job
  | .error .stopped => exact outcome_stopped w job
  | .error (.unavailable reason) => exact outcome_unavailable w job reason

/-- A write that goes on is at the same stage, or at the flush after its delete. -/
theorem Outcome.onward {w' : WriteBack} {progress : Progress} {notices : List Notice} {job' : Job}
    (ho : Outcome w job answer w' progress notices) (hjob : progress.job? = some job') :
    job'.sketch = job.sketch ∧ job'.key = job.key ∧ job'.pending = job.pending ∧
      (job'.stage = job.stage ∧ answer ≠ .ok () ∨ answer = .ok () ∧ job.stage = .delete ∧
        job'.stage = .flush (w.sketch job.sketch).waiters) := by
  cases ho with
  | pause =>
    obtain rfl := Option.some.inj hjob
    exact ⟨rfl, rfl, rfl, .inl ⟨rfl, nofun⟩⟩
  | flush stage =>
    obtain rfl := Option.some.inj hjob
    exact ⟨rfl, rfl, rfl, .inr ⟨rfl, stage, rfl⟩⟩
  | updated => cases hjob
  | deleted => cases hjob
  | confirmed => cases hjob
  | postponed => cases hjob
  | abandoned => cases hjob

theorem begin_ne_flush (w : WriteBack) (id : SketchId) (waiters : List Ticket) :
    (w.begin id).stage ≠ .flush waiters := by
  change (if (w.sketch id).deleted then Job.Stage.delete else .update _ _) ≠ _
  split <;> exact nofun

/-- A write begins as an update if its sketch is live, with what the sketch has at the time. -/
theorem begin_update {key : String} {expiresAt : UInt64} {data : List UInt8}
    (h : (w.begin id).request = .update key expiresAt data) :
    (w.sketch id).deleted = false ∧ (w.sketch id).key = key ∧
      (w.sketch id).expiresAt = expiresAt ∧ (w.sketch id).toBytes = data := by
  cases hd : (w.sketch id).deleted with
  | true =>
    simp only [Job.request, begin, hd, if_true] at h
    cases h
  | false =>
    simp only [Job.request, begin, hd, Bool.false_eq_true, if_false] at h
    obtain ⟨hkey, hexpires, hdata⟩ := Request.update.inj h
    exact ⟨rfl, hkey, hexpires, hdata⟩

theorem toRegistry_flushed (w : WriteBack) (job : Job) :
    (w.flushed job).toRegistry = w.toRegistry.modify job.sketch (·.markFlushed job.pending) := by
  unfold flushed settle
  dsimp only
  split <;> rfl

theorem shards_flushed (w : WriteBack) (job : Job) : (w.flushed job).shards = w.shards := by
  rw [toRegistry_flushed, Registry.shards_modify]

theorem toRegistry_dismissed (w : WriteBack) (id : SketchId) :
    (w.dismissed id).toRegistry = w.toRegistry.modify id fun s => { s with waiters := [] } := rfl

theorem flushed_eq (made : job.sketch < w.sketches.next)
    (hle : job.pending.toInt ≤ (w.sketch job.sketch).pending.toInt) (hpos : 0 ≤ job.pending.toInt) :
    w.flushed job =
      if (w.sketch job.sketch).pending ≠ job.pending then
        (w.edit job.sketch (·.markFlushed job.pending)).enqueue job.sketch
      else w.edit job.sketch (·.markFlushed job.pending) := by
  have hsub := Sketch.toInt_pending_sub hpos hle
  have hself : (w.edit job.sketch (·.markFlushed job.pending)).sketch job.sketch =
      (w.sketch job.sketch).markFlushed job.pending := Registry.sketch_modify_self made
  have hiff : 0 < ((w.sketch job.sketch).markFlushed job.pending).pending ↔
      (w.sketch job.sketch).pending ≠ job.pending := by
    rw [Int64.lt_iff_toInt_lt, Int64.toInt_zero, ne_eq, ← Int64.toInt_inj]
    change 0 < ((w.sketch job.sketch).pending - job.pending).toInt ↔ _
    rw [hsub]
    omega
  change (if 0 < ((w.edit job.sketch (·.markFlushed job.pending)).sketch job.sketch).pending then
    _ else _) = _
  rw [hself]
  exact if_congr hiff rfl rfl

/-- The end of a write: its sketch goes back to its queue if `again`, and is changed in its count alone. -/
structure Release (w : WriteBack) (id : SketchId) (again : Prop) [Decidable again] (w' : WriteBack) :
    Prop where
  next : w'.sketches.next = w.sketches.next
  shards : w'.shards = w.shards
  retry : w'.retry = w.retry
  sketch_of_ne : ∀ other ≠ id, w'.sketch other = w.sketch other
  sketch : w'.sketch id = { w.sketch id with pending := (w'.sketch id).pending }
  nonneg : 0 ≤ (w'.sketch id).pending.toInt
  le : (w'.sketch id).pending.toInt ≤ (w.sketch id).pending.toInt
  dirty : again → (w'.sketch id).pending ≠ 0
  count : ∀ other,
    w'.queued.count other = w.queued.count other + if other = id ∧ again then 1 else 0
  home : ∀ (p : Partition) (other : SketchId), other ∈ (w'.queues.get p).items →
    other ∈ (w.queues.get p).items ∨ other = id ∧ p = partitionOf (w.sketch id).shard

theorem release_dropped (hp : 0 ≤ (w.sketch id).pending.toInt) : w.Release id False w where
  next := rfl
  shards := rfl
  retry := rfl
  sketch_of_ne := fun _ _ => rfl
  sketch := rfl
  nonneg := hp
  le := Int.le_refl _
  dirty := False.elim
  count := by simp
  home := fun _ _ => .inl

theorem release_enqueue (hp : 0 ≤ (w.sketch id).pending.toInt) (hd : (w.sketch id).pending ≠ 0) :
    w.Release id True (w.enqueue id) where
  next := rfl
  shards := rfl
  retry := rfl
  sketch_of_ne := fun _ _ => rfl
  sketch := rfl
  nonneg := hp
  le := Int.le_refl _
  dirty := fun _ => hd
  count := by
    intro other
    rw [count_queued_enqueue]
    simp
  home := fun p other h => mem_enqueue.1 h

theorem release_flushed (made : job.sketch < w.sketches.next)
    (hle : job.pending.toInt ≤ (w.sketch job.sketch).pending.toInt) (hpos : 0 < job.pending.toInt) :
    w.Release job.sketch ((w.sketch job.sketch).pending ≠ job.pending) (w.flushed job) := by
  have hsub := Sketch.toInt_pending_sub (Int.le_of_lt hpos) hle
  have hself : (w.flushed job).sketch job.sketch =
      (w.sketch job.sketch).markFlushed job.pending := by
    rw [toRegistry_flushed]
    exact Registry.sketch_modify_self made
  have hpending : ((w.flushed job).sketch job.sketch).pending.toInt =
      (w.sketch job.sketch).pending.toInt - job.pending.toInt := by
    rw [hself]
    exact hsub
  have heq := flushed_eq made hle (Int.le_of_lt hpos)
  refine ⟨?_, ?_, ?_, ?_, ?_, by omega, by omega, ?_, ?_, ?_⟩
  · rw [toRegistry_flushed, Registry.next_modify]
  · rw [toRegistry_flushed, Registry.shards_modify]
  · rw [heq]
    split <;> rfl
  · intro other ho
    rw [toRegistry_flushed, Registry.sketch_modify_of_ne ho]
  · rw [hself]
    rfl
  · intro hne hz
    rw [hz, Int64.toInt_zero] at hpending
    exact hne (Int64.toInt_inj.1 (by omega))
  · intro other
    rw [heq]
    split
    · rename_i hne
      rw [count_queued_enqueue]
      exact congrArg (_ + ·) (if_congr (and_iff_left hne).symm rfl rfl)
    · rename_i hne
      rw [if_neg fun h => hne h.2]
      rfl
  · intro p other hmem
    rw [heq] at hmem
    split at hmem
    · rcases mem_enqueue.1 hmem with hold | ⟨rfl, hp⟩
      · exact .inl hold
      · rw [toRegistry_edit, Registry.sketch_modify_self made] at hp
        exact .inr ⟨rfl, hp⟩
    · exact .inl hmem

end DistinctCount.WriteBack
