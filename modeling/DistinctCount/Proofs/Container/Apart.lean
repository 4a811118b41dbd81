import DistinctCount.Container.Sweep
import DistinctCount.Proofs.Container.Restore

namespace DistinctCount.Container

variable {c c' c'' : Container}

/-- Two containers agree in all that belongs to the tasks. -/
structure Apart (c c' : Container) : Prop where
  config : c'.config = c.config
  persistent : c'.persistent = c.persistent
  savers : c'.savers = c.savers
  channel : c'.channel = c.channel
  job : c'.job = c.job
  drain : c'.drain = c.drain
  closed : c'.closed = c.closed
  stopping : c'.stopping = c.stopping

theorem Apart.refl (c : Container) : Apart c c :=
  ⟨rfl, rfl, rfl, rfl, rfl, rfl, rfl, rfl⟩

theorem Apart.trans (h : Apart c c') (h' : Apart c' c'') : Apart c c'' where
  config := h'.config.trans h.config
  persistent := h'.persistent.trans h.persistent
  savers := h'.savers.trans h.savers
  channel := h'.channel.trans h.channel
  job := h'.job.trans h.job
  drain := h'.drain.trans h.drain
  closed := h'.closed.trans h.closed
  stopping := h'.stopping.trans h.stopping

theorem apart_ite {p : Prop} [Decidable p] (h : Apart c c') (h' : Apart c c'') :
    Apart c (if p then c' else c'') := by
  split
  · exact h
  · exact h'

theorem apart_alter (c : Container) (f : WriteBack → WriteBack) : Apart c (c.alter f) :=
  ⟨rfl, rfl, rfl, rfl, rfl, rfl, rfl, rfl⟩

theorem apart_foldl {α ι : Type} {f : α × Container → ι → α × Container}
    (h : ∀ x i, Apart x.2 (f x i).2) (l : List ι) (x : α × Container) :
    Apart x.2 (l.foldl f x).2 := by
  induction l generalizing x with
  | nil => exact .refl _
  | cons i l ih => exact (h x i).trans (ih (f x i))

theorem apart_moveEntry (c : Container) (id : SketchId) (bucket : Option UInt64) :
    Apart c (c.moveEntry id bucket) := by
  rw [frame_moveEntry]
  exact ⟨rfl, rfl, rfl, rfl, rfl, rfl, rfl, rfl⟩

theorem apart_registerExpiry (c : Container) (id : SketchId) : Apart c (c.registerExpiry id) := by
  unfold registerExpiry
  dsimp only
  split
  · exact .refl c
  · exact ⟨rfl, rfl, rfl, rfl, rfl, rfl, rfl, rfl⟩

theorem apart_getOrCreate (c : Container) (now : UInt64) (key : String) (ttl : UInt64) :
    Apart c (c.getOrCreate now key ttl).2 := by
  unfold getOrCreate
  dsimp only
  split
  · have hmade : Apart c { c with
        toRegistry := (c.toRegistry.getOrCreate (c.shardOf key) key (expiryAfter now ttl)).2 } :=
      ⟨rfl, rfl, rfl, rfl, rfl, rfl, rfl, rfl⟩
    exact hmade.trans (apart_registerExpiry _ _)
  · exact ⟨rfl, rfl, rfl, rfl, rfl, rfl, rfl, rfl⟩

theorem apart_enqueueDirty (c : Container) (id : SketchId) (becameDirty : Bool) :
    Apart c (c.enqueueDirty id becameDirty) :=
  apart_ite (apart_alter c _) (.refl c)

theorem apart_count (c : Container) (id : SketchId) (value : List UInt8) :
    Apart c (c.count id value).2 := by
  unfold count
  split
  · exact .refl c
  · exact apart_alter c (·.edit id fun _ => ((c.sketch id).addHash (c.config.hashing.hash32 value)).1)

theorem apart_addMany (c : Container) (now : UInt64) (key : String) (values : List (List UInt8))
    (ttl : UInt64) : Apart c (c.addMany now key values ttl) := by
  refine (apart_getOrCreate c now key ttl).trans (.trans ?_ (apart_enqueueDirty _ _ _))
  refine apart_foldl ?_ values (false, (c.getOrCreate now key ttl).2)
  rintro ⟨dirty, c⟩ value
  exact apart_count c _ value

theorem apart_add (c : Container) (now : UInt64) (key : String) (value : Option (List UInt8))
    (ttl : UInt64) : Apart c (c.add now key value ttl) := by
  cases value with
  | none => exact apart_getOrCreate c now key ttl
  | some value =>
    exact ((apart_getOrCreate c now key ttl).trans (apart_count _ _ value)).trans
      (apart_enqueueDirty _ _ _)

theorem apart_updateExpiry (c : Container) (now : UInt64) (key : String) (ttl : UInt64) :
    Apart c (c.updateExpiry now key ttl).2 := by
  unfold updateExpiry
  split
  · exact .refl c
  · rename_i id _
    split
    · exact .refl c
    · have hmoved := (apart_alter c (·.edit id fun s =>
        { s with expiresAt := expiryAfter now ttl })).trans (apart_moveEntry _ id
          (if expiryAfter now ttl = 0 then none else some (Expiry.bucketOf (expiryAfter now ttl))))
      exact apart_ite (hmoved.trans (apart_alter _ _)) hmoved

theorem apart_markDeleted (c : Container) (id : SketchId) : Apart c (c.markDeleted id) :=
  (apart_moveEntry c id none).trans
    (apart_alter (c.moveEntry id none) (·.edit id fun s => { s with deleted := true }))

theorem apart_beginDelete (c : Container) (key : String) : Apart c (c.beginDelete key).2 := by
  unfold beginDelete
  split
  · exact .refl c
  · split
    · exact .refl c
    · rename_i id r _
      have hremoved : Apart c { c with toRegistry := r } :=
        ⟨rfl, rfl, rfl, rfl, rfl, rfl, rfl, rfl⟩
      have hdead : Apart c ({ c with toRegistry := r }.markDeleted id) :=
        hremoved.trans (apart_markDeleted _ id)
      dsimp only
      split
      · have hissued : Apart ({ c with toRegistry := r }.markDeleted id)
            { { c with toRegistry := r }.markDeleted id with
              nextTicket := ({ c with toRegistry := r }.markDeleted id).nextTicket + 1 } :=
          ⟨rfl, rfl, rfl, rfl, rfl, rfl, rfl, rfl⟩
        have hscheduled := (hdead.trans hissued).trans (apart_alter _ fun w =>
          (w.edit id fun s => { s with
            waiters := s.waiters ++ [({ c with toRegistry := r }.markDeleted id).nextTicket] }).schedule id)
        split
        · exact hscheduled
        · exact hscheduled.trans ⟨rfl, rfl, rfl, rfl, rfl, rfl, rfl, rfl⟩
      · exact hdead

theorem apart_evict (c : Container) (bucket : UInt64) (key : String) (entry : Entry) :
    Apart c (c.evict bucket key entry).2 := by
  unfold evict
  dsimp only
  split
  · exact .refl c
  · have hdead : Apart c { c.alter (·.edit entry.sketch fun s =>
        { s with deleted := true, bucket := none }) with
          toRegistry := ((c.alter (·.edit entry.sketch fun s =>
            { s with deleted := true, bucket := none })).toRegistry.removeIfSame entry.shard key
              entry.sketch).2 } := ⟨rfl, rfl, rfl, rfl, rfl, rfl, rfl, rfl⟩
    exact apart_ite (hdead.trans (apart_alter _ _)) hdead

theorem apart_sweepBucket (c : Container) (bucket : UInt64) :
    Apart c (c.sweepBucket bucket).2 := by
  unfold sweepBucket
  split
  · exact .refl c
  · rename_i entries expiry _
    have hdetached : Apart c { c with expiry } := ⟨rfl, rfl, rfl, rfl, rfl, rfl, rfl, rfl⟩
    refine hdetached.trans (apart_foldl ?_ entries.toList (0, { c with expiry }))
    rintro ⟨evicted, c⟩ ⟨key, entry⟩
    exact apart_evict c bucket key entry

theorem apart_sweep (c : Container) (now : UInt64) : Apart c (c.sweep now).2 := by
  refine apart_foldl ?_ (c.expiry.dueBuckets now c.config.sweepBatch) (0, c)
  rintro ⟨evicted, c⟩ bucket
  exact apart_sweepBucket c bucket

end DistinctCount.Container
