import DistinctCount.Proofs.WriteBack.Proceed

namespace DistinctCount.WriteBack

variable {w : WriteBack} {job : Job} {id current : SketchId} {p : Partition}

/-- The sketch that has to be written again when a write has been successful. -/
def heir? (w : WriteBack) (job : Job) : Option SketchId :=
  match job.stage with
  | .update _ _ => none
  | .delete | .flush _ => w.successor job.sketch

def inherited (w : WriteBack) (job : Job) : WriteBack :=
  (w.heir? job).elim w w.schedule

def succeeded (w : WriteBack) (job : Job) : WriteBack :=
  (w.inherited job).flushed job

theorem succeeded_of_update (w : WriteBack) {expiresAt : UInt64} {data : List UInt8}
    (h : job.stage = .update expiresAt data) : w.succeeded job = w.flushed job := by
  simp only [succeeded, inherited, heir?, h, Option.elim_none]

theorem heir?_of_ne_update (h : ∀ expiresAt data, job.stage ≠ .update expiresAt data) :
    w.heir? job = w.successor job.sketch := by
  unfold heir?
  split
  · rename_i hstage
    exact absurd hstage (h _ _)
  · rfl
  · rfl

theorem succeeded_of_ne_update (w : WriteBack) (h : ∀ expiresAt data, job.stage ≠ .update expiresAt data) :
    w.succeeded job = (w.renewed job.sketch).flushed job := by
  rw [succeeded, inherited, heir?_of_ne_update h, renewed]
  cases w.successor job.sketch <;> rfl

theorem heir?_eq_some (h : w.heir? job = some current) :
    (∀ expiresAt data, job.stage ≠ .update expiresAt data) ∧ current ≠ job.sketch ∧
      w.get? (w.sketch job.sketch).key = some current := by
  have hstage : ∀ expiresAt data, job.stage ≠ .update expiresAt data := by
    intro expiresAt data hupdate
    rw [heir?, hupdate] at h
    cases h
  rw [heir?_of_ne_update hstage] at h
  obtain ⟨hget, hne, -⟩ := Registry.successor_eq_some.1 h
  exact ⟨hstage, hne, hget⟩

theorem retry_schedule (w : WriteBack) (id : SketchId) : (w.schedule id).retry = w.retry := by
  rw [schedule]
  split <;> rfl

theorem mem_schedule (made : current < w.sketches.next) :
    id ∈ ((w.schedule current).queues.get p).items ↔ id ∈ (w.queues.get p).items ∨
      (w.sketch current).pending = 0 ∧ id = current ∧ p = partitionOf (w.sketch current).shard := by
  have hself : (w.edit current Sketch.markDirty).sketch current = (w.sketch current).markDirty :=
    Registry.sketch_modify_self made
  have hone : (w.sketch current).pending + 1 = 1 ↔ (w.sketch current).pending = 0 := by
    rw [← Int64.add_left_inj 1 (a := (w.sketch current).pending), Int64.zero_add]
  simp only [schedule, hself, Sketch.markDirty, hone]
  split
  · rename_i hclean
    rw [mem_enqueue, hself]
    simp only [hclean, true_and]
    rfl
  · rename_i hdirty
    simp only [hdirty, false_and, or_false]
    rfl

theorem flushed_of_exact (made : job.sketch < w.sketches.next)
    (exact : job.pending = (w.sketch job.sketch).pending) :
    w.flushed job = w.edit job.sketch (·.markFlushed job.pending) := by
  have hself : (w.edit job.sketch (·.markFlushed job.pending)).sketch job.sketch =
      (w.sketch job.sketch).markFlushed job.pending := Registry.sketch_modify_self made
  have hzero : ((w.sketch job.sketch).markFlushed job.pending).pending = 0 := by
    rw [Sketch.markFlushed, exact, Int64.sub_self]
  rw [flushed, settle]
  simp only [hself, hzero, Int64.lt_irrefl, if_false]

/-- If nothing came in during a write, its end adds nothing to the queues. -/
theorem queues_flushed (made : job.sketch < w.sketches.next)
    (exact : job.pending = (w.sketch job.sketch).pending) : (w.flushed job).queues = w.queues := by
  rw [flushed_of_exact made exact, queues_edit]

theorem inherited_cases (w : WriteBack) (job : Job) :
    w.heir? job = none ∧ w.inherited job = w ∨
      ∃ current, w.heir? job = some current ∧ w.inherited job = w.schedule current := by
  rw [inherited]
  cases w.heir? job with
  | none => exact .inl ⟨rfl, rfl⟩
  | some current => exact .inr ⟨current, rfl, rfl⟩

theorem inherited_self (w : WriteBack) (job : Job) :
    (w.inherited job).sketches.next = w.sketches.next ∧
      (w.inherited job).sketch job.sketch = w.sketch job.sketch := by
  obtain ⟨-, heq⟩ | ⟨current, hheir, heq⟩ := w.inherited_cases job
  · rw [heq]
    exact ⟨rfl, rfl⟩
  · obtain ⟨-, hne, -⟩ := heir?_eq_some hheir
    rw [heq, toRegistry_schedule]
    exact ⟨Registry.next_modify, Registry.sketch_modify_of_ne hne.symm⟩

structure Success (w : WriteBack) (job : Job) (w' : WriteBack) : Prop where
  clean : (w'.sketch job.sketch).pending = 0
  heir : ∀ current, w.heir? job = some current →
    (w'.sketch current).pending = (w.sketch current).pending + 1
  other : ∀ id ≠ job.sketch, w.heir? job ≠ some id → (w'.sketch id).pending = (w.sketch id).pending
  queues : ∀ (p : Partition) id, id ∈ (w'.queues.get p).items ↔ id ∈ (w.queues.get p).items ∨
    w.heir? job = some id ∧ (w.sketch id).pending = 0 ∧ p = partitionOf (w.sketch id).shard

theorem success_succeeded (made : job.sketch < w.sketches.next)
    (exact : job.pending = (w.sketch job.sketch).pending)
    (heir : ∀ current, w.heir? job = some current → current < w.sketches.next) :
    w.Success job (w.succeeded job) := by
  obtain ⟨hnext, hself⟩ := w.inherited_self job
  have heq : w.succeeded job = (w.inherited job).edit job.sketch (·.markFlushed job.pending) :=
    flushed_of_exact (hnext ▸ made) (hself ▸ exact)
  have hof {id : SketchId} (hne : id ≠ job.sketch) :
      (w.succeeded job).sketch id = (w.inherited job).sketch id := by
    rw [heq]
    exact Registry.sketch_modify_of_ne hne
  refine ⟨?_, ?_, ?_, ?_⟩
  · have hflushed : (w.succeeded job).sketch job.sketch =
        (w.sketch job.sketch).markFlushed job.pending := by
      rw [heq, ← hself]
      exact Registry.sketch_modify_self (hnext ▸ made)
    rw [hflushed, Sketch.markFlushed, exact, Int64.sub_self]
  · intro current hheir
    obtain ⟨-, hne, -⟩ := heir?_eq_some hheir
    rw [hof hne, inherited, hheir, Option.elim_some, toRegistry_schedule,
      Registry.sketch_modify_self (heir current hheir)]
    rfl
  · intro id hne hother
    rw [hof hne]
    obtain ⟨-, heq⟩ | ⟨current, hheir, heq⟩ := w.inherited_cases job
    · rw [heq]
    · rw [heq, toRegistry_schedule, Registry.sketch_modify_of_ne]
      rintro rfl
      exact hother hheir
  · intro p id
    rw [heq, queues_edit]
    obtain ⟨hnone, heq⟩ | ⟨current, hheir, heq⟩ := w.inherited_cases job
    · rw [heq, hnone]
      simp
    · rw [heq, hheir]
      refine (mem_schedule (heir current hheir)).trans (or_congr_right ?_)
      constructor
      · rintro ⟨hclean, rfl, hp⟩
        exact ⟨rfl, hclean, hp⟩
      · rintro ⟨hid, hclean, hp⟩
        obtain rfl := Option.some.inj hid
        exact ⟨hclean, rfl, hp⟩

theorem retry_succeeded (w : WriteBack) (job : Job) : (w.succeeded job).retry = w.retry := by
  have hinherited : (w.inherited job).retry = w.retry := by
    obtain ⟨-, heq⟩ | ⟨current, -, heq⟩ := w.inherited_cases job
    · rw [heq]
    · rw [heq, retry_schedule]
  rw [succeeded, flushed, settle]
  split <;> exact hinherited

end DistinctCount.WriteBack
