import DistinctCount.Proofs.Container.Sweep
import DistinctCount.Proofs.WriteBack.Proceed

namespace DistinctCount

variable {α β : Type} {view : Sketch → α}

namespace Registry

variable {r r' r'' : Registry} {f : Sketch → Sketch} {id : SketchId}

/-- No sketch is made, and what is to be seen of each is as it was. -/
structure Kept (view : Sketch → α) (r r' : Registry) : Prop where
  next : r'.sketches.next = r.sketches.next
  sketch : ∀ id, view (r'.sketch id) = view (r.sketch id)

theorem Kept.refl (view : Sketch → α) (r : Registry) : Kept view r r :=
  ⟨rfl, fun _ => rfl⟩

theorem Kept.trans (h : Kept view r r') (h' : Kept view r' r'') : Kept view r r'' :=
  ⟨h'.next.trans h.next, fun id => (h'.sketch id).trans (h.sketch id)⟩

theorem Kept.map (h : Kept view r r') (g : α → β) : Kept (g ∘ view) r r' :=
  ⟨h.next, fun id => congrArg g (h.sketch id)⟩

theorem kept_of_sketches (h : r'.sketches = r.sketches) : Kept view r r' :=
  ⟨by rw [h], fun id => by rw [sketch, sketch, h]⟩

theorem kept_modify (r : Registry) (id : SketchId) (hf : ∀ s, view (f s) = view s) :
    Kept view r (r.modify id f) := by
  refine ⟨next_modify, ?_⟩
  intro other
  rw [sketch_modify]
  split
  · rename_i h
    rw [hf, h.1]
  · rfl

theorem kept_removeIfSame (r : Registry) (shard : Nat) (key : String) (id : SketchId) :
    Kept view r (r.removeIfSame shard key id).2 := by
  unfold removeIfSame
  split <;> exact kept_of_sketches rfl

end Registry

namespace Sketch

def core (s : Sketch) : Sketch :=
  { s with pending := 0, waiters := [] }

def written (s : Sketch) : Slots × UInt64 :=
  (s.slots, s.expiresAt)

/-- What only clients and sweeps change. -/
def state (s : Sketch) : (Slots × UInt64) × Bool × Option UInt64 :=
  (s.written, s.deleted, s.bucket)

end Sketch

namespace WriteBack

open Registry

variable {w w' : WriteBack} {id : SketchId} {job : Job} {answer : Backend.Answer}
  {progress : Progress} {notices : List Notice}

theorem kept_schedule (w : WriteBack) (id : SketchId) (hf : ∀ s, view (Sketch.markDirty s) = view s) :
    Kept view w.toRegistry (w.schedule id).toRegistry := by
  rw [toRegistry_schedule]
  exact kept_modify w.toRegistry id hf

theorem kept_renewed (w : WriteBack) (id : SketchId) :
    Kept Sketch.core w.toRegistry (w.renewed id).toRegistry := by
  unfold renewed
  split
  · exact kept_schedule w _ fun _ => rfl
  · exact .refl _ _

theorem kept_dismissed (w : WriteBack) (id : SketchId) :
    Kept Sketch.core w.toRegistry (w.dismissed id).toRegistry :=
  kept_modify w.toRegistry id fun _ => rfl

theorem kept_flushed (w : WriteBack) (job : Job) :
    Kept Sketch.core w.toRegistry (w.flushed job).toRegistry := by
  rw [toRegistry_flushed]
  exact kept_modify w.toRegistry job.sketch fun _ => rfl

theorem Outcome.kept (h : Outcome w job answer w' progress notices) :
    Kept Sketch.core w.toRegistry w'.toRegistry := by
  cases h with
  | pause => exact .refl _ _
  | flush => exact kept_dismissed w job.sketch
  | updated => exact kept_flushed w job
  | deleted => exact (kept_renewed w job.sketch).trans (kept_flushed _ job)
  | confirmed => exact (kept_renewed w job.sketch).trans (kept_flushed _ job)
  | postponed e error told w left =>
    rcases left with ⟨rfl, -⟩ | ⟨rfl, -⟩
    · exact .refl _ _
    · exact kept_dismissed _ job.sketch
  | abandoned => exact kept_dismissed w job.sketch

end WriteBack

namespace Container

open Registry

variable {c c' : Container} {n : Nat} {id : SketchId} {key : String} {now ttl : UInt64}

theorem kept_moveEntry (c : Container) (id : SketchId) (bucket : Option UInt64)
    (hf : ∀ s, view { s with bucket } = view s) :
    Kept view c.toRegistry (c.moveEntry id bucket).toRegistry := by
  have h := kept_modify c.toRegistry id hf
  unfold moveEntry
  dsimp only
  split
  · exact .refl _ _
  · exact h

theorem kept_retire (c : Container) (id : SketchId) (key : String) (tickets : List Ticket) :
    Kept Sketch.written c.toRegistry (c.retire id key tickets).toRegistry := by
  have hremove : Kept Sketch.written c.toRegistry (c.toRegistry.remove (c.shardOf key) key).2 :=
    kept_of_sketches rfl
  rw [toRegistry_retire]
  exact hremove.trans (kept_modify _ id fun _ => rfl)

theorem kept_beginDelete (hc : c.Coherent n) (hn : n < 2 ^ 62) (hp : c.persistent = true)
    (key : String) : Kept Sketch.written c.toRegistry (c.beginDelete key).2.toRegistry := by
  cases hopen : c.closed with
  | true =>
    rw [beginDelete_of_closed hp hopen]
    exact .refl _ _
  | false =>
    cases hget : c.get? key with
    | none =>
      rw [beginDelete_of_unknown hopen hget]
      exact .refl _ _
    | some id =>
      have hmove : Kept Sketch.written c.toRegistry (c.moveEntry id none).toRegistry :=
        kept_moveEntry c id none fun _ => rfl
      have hout := hmove.trans (kept_retire _ id key [c.nextTicket])
      rw [beginDelete_spec hc hn hp hopen hget, awaiting]
      dsimp only
      split
      · exact hout
      · rw [toRegistry_dismiss]
        exact hout.trans (kept_modify _ id fun _ => rfl)

theorem kept_alter_schedule (c : Container) (id : SketchId)
    (hview : ∀ s, view (Sketch.markDirty s) = view s) :
    Kept view c.toRegistry (c.alter (·.schedule id)).toRegistry :=
  WriteBack.kept_schedule c.toWriteBack id hview

/-- Once an eviction has marked its sketch dead, it does no more to it than to count that. -/
theorem kept_evict_rest (view : Sketch → α) (hview : ∀ s, view (Sketch.markDirty s) = view s)
    (c : Container) {bucket : UInt64} (key : String) {entry : Entry}
    (hguard : ¬ ((c.sketch entry.sketch).deleted ||
      decide ((c.sketch entry.sketch).bucket ≠ some bucket)) = true) :
    Kept view (c.toRegistry.modify entry.sketch fun s => { s with deleted := true, bucket := none })
      (c.evict bucket key entry).2.toRegistry := by
  unfold evict
  dsimp only
  rw [if_neg hguard]
  split
  · refine .trans ?_ (kept_alter_schedule _ entry.sketch hview)
    exact kept_removeIfSame _ entry.shard key entry.sketch
  · exact kept_removeIfSame _ entry.shard key entry.sketch

theorem kept_evict (c : Container) (bucket : UInt64) (key : String) (entry : Entry) :
    Kept Sketch.written c.toRegistry (c.evict bucket key entry).2.toRegistry := by
  by_cases hguard : ((c.sketch entry.sketch).deleted ||
      decide ((c.sketch entry.sketch).bucket ≠ some bucket)) = true
  · have hstay : c.evict bucket key entry = (0, c) := if_pos hguard
    rw [hstay]
    exact .refl _ _
  · have hdie : Kept Sketch.written c.toRegistry (c.toRegistry.modify entry.sketch
        fun s => { s with deleted := true, bucket := none }) :=
      kept_modify c.toRegistry entry.sketch fun _ => rfl
    exact hdie.trans (kept_evict_rest _ (fun _ => rfl) c key hguard)

theorem kept_foldl {σ : Type} (f : Nat × Container → σ → Nat × Container)
    (hf : ∀ n c x, Kept view c.toRegistry (f (n, c) x).2.toRegistry) (xs : List σ) (n : Nat)
    (c : Container) : Kept view c.toRegistry (xs.foldl f (n, c)).2.toRegistry := by
  induction xs generalizing n c with
  | nil => exact .refl _ _
  | cons x xs ih => exact (hf n c x).trans (ih _ _)

theorem kept_sweepBucket (c : Container) (bucket : UInt64) :
    Kept Sketch.written c.toRegistry (c.sweepBucket bucket).2.toRegistry := by
  unfold sweepBucket
  split
  · exact .refl _ _
  · rename_i entries expiry heq
    refine kept_foldl _ ?_ _ 0 { c with expiry }
    rintro n c ⟨key, entry⟩
    exact kept_evict c bucket key entry

theorem kept_sweep (c : Container) (now : UInt64) :
    Kept Sketch.written c.toRegistry (c.sweep now).2.toRegistry := by
  refine kept_foldl _ ?_ _ 0 c
  intro n c bucket
  exact kept_sweepBucket c bucket

theorem kept_registerExpiry {α : Type} (view : Sketch → α)
    (hview : ∀ (s : Sketch) bucket, view { s with bucket } = view s) (c : Container) (id : SketchId) :
    Kept view c.toRegistry (c.registerExpiry id).toRegistry := by
  unfold registerExpiry
  dsimp only
  split
  · exact .refl _ _
  · exact kept_modify c.toRegistry id fun _ => hview _ _

/-- A sketch that is made has empty slots, like one that has not been made. -/
theorem slots_getOrCreate (c : Container) (now : UInt64) (key : String) (ttl : UInt64)
    (id : SketchId) :
    ((c.getOrCreate now key ttl).2.sketch id).slots = (c.sketch id).slots := by
  have hmake : ((c.toRegistry.getOrCreate (c.shardOf key) key (expiryAfter now ttl)).2.sketch id).slots =
      (c.sketch id).slots := by
    cases hget : c.shards.get? (c.shardOf key) key with
    | some _ => simp only [Registry.getOrCreate, hget]
    | none =>
      rw [sketch_create _ _ _ hget]
      split
      · rename_i h
        rw [Registry.sketch_of_le (Nat.le_of_eq h.symm)]
        rfl
      · rfl
  unfold getOrCreate
  dsimp only
  split
  · exact ((kept_registerExpiry Sketch.slots (fun _ _ => rfl) _ _).sketch id).trans hmake
  · exact hmake

theorem slots_addMany_of_absent (hc : c.Coherent n) (hn : n < 2 ^ 62) (hp : c.persistent = true)
    {values : List (List UInt8)}
    (absent : ¬ ((∃ value ∈ values, value ≠ []) ∧ (c.getOrCreate now key ttl).1 = id)) :
    ((c.addMany now key values ttl).sketch id).slots = (c.sketch id).slots := by
  obtain ⟨other, c', heq, -, -, hadd⟩ := addMany_spec hc hn hp now key values ttl
  have hslots := slots_getOrCreate c now key ttl id
  rw [heq] at hslots absent
  rw [hadd, toRegistry_alter_mutate, Registry.sketch_modify, ← hslots]
  split
  · rename_i h
    obtain rfl := h.1
    rw [Sketch.absorb_of_forall_nil _ _ fun value hvalue =>
      by_contra fun hne => absent ⟨⟨value, hvalue, hne⟩, rfl⟩]
  · rfl

theorem kept_updateExpiry (hc : c.Coherent n) (hn : n < 2 ^ 62) (hp : c.persistent = true)
    (now : UInt64) (key : String) (ttl : UInt64) :
    Kept Sketch.slots c.toRegistry (c.updateExpiry now key ttl).2.toRegistry := by
  cases hget : c.get? key with
  | none =>
    rw [updateExpiry, hget]
    exact .refl _ _
  | some id =>
    rw [updateExpiry_spec hc hn hp now ttl hget, toRegistry_alter_mutate]
    exact (kept_moveEntry c id _ fun _ => rfl).trans (kept_modify _ id fun _ => rfl)

end Container

end DistinctCount
