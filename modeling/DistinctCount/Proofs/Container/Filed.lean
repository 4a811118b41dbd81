import Mathlib.Data.List.TakeWhile
import DistinctCount.Proofs.Container.Kept

namespace DistinctCount

namespace Sketch

def Filed (s : Sketch) : Prop :=
  ∀ bucket, s.bucket = some bucket → s.expiresAt ≠ 0 ∧ bucket = Expiry.bucketOf s.expiresAt

theorem filed_of_bucket {s : Sketch} (h : s.bucket = none) : s.Filed := by
  intro bucket hb
  rw [h] at hb
  cases hb

theorem Filed.congr {s s' : Sketch} (h : s.Filed) (hx : s'.expiresAt = s.expiresAt)
    (hb : s'.bucket = s.bucket) : s'.Filed := by
  intro bucket hbucket
  rw [hx]
  exact h bucket (hb.symm.trans hbucket)

/-- What is left of a sketch by a sweep: all of it, or a dead sketch that was due. -/
def Swept (now : UInt64) (s s' : Sketch) : Prop :=
  s'.deleted = s.deleted ∧ s'.bucket = s.bucket ∨
    s'.bucket = none ∧ ∃ bucket, s.bucket = some bucket ∧ Expiry.isDue now bucket = true

theorem Swept.refl (now : UInt64) (s : Sketch) : Swept now s s :=
  .inl ⟨rfl, rfl⟩

theorem Swept.trans {now : UInt64} {s s' s'' : Sketch} (h : Swept now s s') (h' : Swept now s' s'') :
    Swept now s s'' := by
  rcases h with ⟨hd, hb⟩ | ⟨hb, hdue⟩
  · rwa [Swept, hd, hb] at h'
  · rcases h' with ⟨-, hb'⟩ | ⟨-, bucket, hsome, -⟩
    · exact .inr ⟨hb'.trans hb, hdue⟩
    · rw [hb] at hsome
      cases hsome

end Sketch

theorem Expiry.le_of_isDue {now expiresAt : UInt64}
    (h : Expiry.isDue now (Expiry.bucketOf expiresAt) = true) : expiresAt ≤ now := by
  have hdue := of_decide_eq_true h
  rw [bucketOf, bucketWidth, UInt64.toNat_mul, UInt64.toNat_div] at hdue
  rw [UInt64.le_iff_toNat_le]
  have hlt := expiresAt.toNat_lt
  simp only [UInt64.reduceToNat] at hdue
  omega

def Registry.Filed (r : Registry) : Prop :=
  ∀ id, (r.sketch id).Filed

namespace Registry

variable {r r' : Registry} {f : Sketch → Sketch} {id : SketchId}

theorem Filed.kept (hf : r.Filed) (h : Kept Sketch.state r r') : r'.Filed := by
  intro id
  have hid := h.sketch id
  exact (hf id).congr (congrArg (·.1.2) hid) (congrArg (·.2.2) hid)

theorem Filed.of_sketches (hf : r.Filed) (h : r'.sketches = r.sketches) : r'.Filed :=
  hf.kept (kept_of_sketches h)

theorem Filed.modify (hf : r.Filed) (hs : (f (r.sketch id)).Filed) : (r.modify id f).Filed := by
  intro other
  rw [sketch_modify]
  split
  · exact hs
  · exact hf other

end Registry

namespace Container

variable {c c' : Container} {n : Nat} {id : SketchId} {key : String} {now ttl : UInt64}

theorem filed_registerExpiry (hf : c.toRegistry.Filed) (id : SketchId) :
    (c.registerExpiry id).toRegistry.Filed := by
  unfold registerExpiry
  dsimp only
  split
  · exact hf
  · rename_i hguard
    apply Registry.Filed.modify hf
    rintro bucket ⟨⟩
    refine ⟨fun hz => hguard ?_, rfl⟩
    rw [hz]
    simp

theorem filed_getOrCreate (hf : c.toRegistry.Filed) (now : UInt64) (key : String) (ttl : UInt64) :
    (c.getOrCreate now key ttl).2.toRegistry.Filed := by
  have hmake : (c.toRegistry.getOrCreate (c.shardOf key) key (expiryAfter now ttl)).2.Filed := by
    cases hget : c.shards.get? (c.shardOf key) key with
    | some _ => simpa only [Registry.getOrCreate, hget] using hf
    | none =>
      intro id
      rw [sketch_create _ _ _ hget]
      split
      · exact Sketch.filed_of_bucket rfl
      · exact hf id
  have hregister := filed_registerExpiry (c := { c with
    toRegistry := (c.toRegistry.getOrCreate (c.shardOf key) key (expiryAfter now ttl)).2 }) hmake
  unfold getOrCreate
  dsimp only
  split
  · exact hregister _
  · exact hmake

theorem filed_addMany (hf : c.toRegistry.Filed) (hc : c.Coherent n) (hn : n < 2 ^ 62)
    (hp : c.persistent = true) (now : UInt64) (key : String) (values : List (List UInt8))
    (ttl : UInt64) : (c.addMany now key values ttl).toRegistry.Filed := by
  obtain ⟨id, c', heq, -, -, hadd⟩ := addMany_spec hc hn hp now key values ttl
  have hf' := filed_getOrCreate hf now key ttl
  rw [heq] at hf'
  obtain ⟨-, hb, -, hx⟩ := (c'.sketch id).absorb_frame c'.config.hashing values
  rw [hadd, toRegistry_alter_mutate]
  exact hf'.modify ((hf' id).congr hx hb)

theorem filed_renewal (s : Sketch) (expiresAt : UInt64) :
    (renewal expiresAt { s with bucket := bucketFor expiresAt }).Filed := by
  intro bucket hb
  change bucketFor expiresAt = some bucket at hb
  rw [bucketFor] at hb
  split at hb
  · cases hb
  · rename_i hne
    exact ⟨hne, (Option.some.inj hb).symm⟩

theorem filed_updateExpiry (hf : c.toRegistry.Filed) (hc : c.Coherent n) (hn : n < 2 ^ 62)
    (hp : c.persistent = true) (now : UInt64) (key : String) (ttl : UInt64) :
    (c.updateExpiry now key ttl).2.toRegistry.Filed := by
  cases hget : c.get? key with
  | none =>
    rw [updateExpiry, hget]
    exact hf
  | some id =>
    obtain ⟨made, -, -⟩ := hc.get?_eq_some.1 hget
    rw [updateExpiry_spec hc hn hp now ttl hget, toRegistry_alter_mutate]
    intro other
    by_cases ho : other = id
    · rw [ho, Registry.sketch_modify_self (Nat.lt_of_lt_of_eq made next_moveEntry.symm),
        sketch_moveEntry _ _ made, if_pos rfl]
      exact filed_renewal _ _
    · rw [Registry.sketch_modify_of_ne ho, sketch_moveEntry _ _ made, if_neg ho]
      exact hf other

theorem filed_beginDelete (hf : c.toRegistry.Filed) (hc : c.Coherent n) (hn : n < 2 ^ 62)
    (hp : c.persistent = true) (key : String) : (c.beginDelete key).2.toRegistry.Filed := by
  cases hopen : c.closed with
  | true =>
    rw [beginDelete_of_closed hp hopen]
    exact hf
  | false =>
    cases hget : c.get? key with
    | none =>
      rw [beginDelete_of_unknown hopen hget]
      exact hf
    | some id =>
      obtain ⟨made, -, -⟩ := hc.get?_eq_some.1 hget
      have hmove : (c.moveEntry id none).toRegistry.Filed := by
        intro other
        rw [sketch_moveEntry _ _ made]
        split
        · exact Sketch.filed_of_bucket rfl
        · exact hf other
      have hretire : ((c.moveEntry id none).retire id key [c.nextTicket]).toRegistry.Filed := by
        rw [toRegistry_retire]
        exact (hmove.of_sketches rfl).modify (Sketch.filed_of_bucket rfl)
      rw [beginDelete_spec hc hn hp hopen hget, awaiting]
      dsimp only
      split
      · exact hretire
      · rw [toRegistry_dismiss]
        exact hretire.modify ((hretire id).congr rfl rfl)

/-- An eviction takes a sketch only if the bucket is the one on record. -/
theorem swept_evict {bucket : UInt64} (hdue : Expiry.isDue now bucket = true) (c : Container)
    (key : String) (entry : Entry) (id : SketchId) :
    Sketch.Swept now (c.sketch id) ((c.evict bucket key entry).2.sketch id) := by
  by_cases hguard : ((c.sketch entry.sketch).deleted ||
      decide ((c.sketch entry.sketch).bucket ≠ some bucket)) = true
  · have hstay : c.evict bucket key entry = (0, c) := if_pos hguard
    rw [hstay]
    exact .refl now _
  · have hbucket : (c.sketch entry.sketch).bucket = some bucket := by
      by_contra hne
      exact hguard (by simp [hne])
    have hrest := kept_evict_rest (fun s => (s.deleted, s.bucket)) (fun _ => rfl) c key hguard
    have hid := hrest.sketch id
    rw [Registry.sketch_modify] at hid
    split at hid
    · rename_i h
      rw [h.1] at hid ⊢
      exact .inr ⟨congrArg Prod.snd hid, bucket, hbucket, hdue⟩
    · exact .inl ⟨congrArg Prod.fst hid, congrArg Prod.snd hid⟩

theorem swept_foldl {σ : Type} {f : Nat × Container → σ → Nat × Container} (xs : List σ)
    (hf : ∀ n c, ∀ x ∈ xs, ∀ id, Sketch.Swept now (c.sketch id) ((f (n, c) x).2.sketch id)) (n : Nat)
    (c : Container) (id : SketchId) :
    Sketch.Swept now (c.sketch id) ((xs.foldl f (n, c)).2.sketch id) := by
  induction xs generalizing n c with
  | nil => exact .refl now _
  | cons x xs ih =>
    exact (hf n c x List.mem_cons_self id).trans
      (ih (fun n c y hy => hf n c y (List.mem_cons_of_mem _ hy)) _ _)

theorem swept_sweepBucket {bucket : UInt64} (hdue : Expiry.isDue now bucket = true) (c : Container)
    (id : SketchId) : Sketch.Swept now (c.sketch id) ((c.sweepBucket bucket).2.sketch id) := by
  unfold sweepBucket
  split
  · exact .refl now _
  · rename_i entries expiry heq
    refine swept_foldl _ ?_ 0 { c with expiry } id
    rintro n c ⟨key, entry⟩ -
    exact swept_evict hdue c key entry

theorem swept_sweep (c : Container) (now : UInt64) (id : SketchId) :
    Sketch.Swept now (c.sketch id) ((c.sweep now).2.sketch id) := by
  refine swept_foldl _ ?_ 0 c id
  intro n c bucket hbucket
  have hdue := List.mem_takeWhile_imp (List.mem_of_mem_take hbucket)
  exact swept_sweepBucket hdue c

theorem filed_sweep (hf : c.toRegistry.Filed) (now : UInt64) : (c.sweep now).2.toRegistry.Filed := by
  intro id
  have hx := congrArg Prod.snd ((kept_sweep c now).sketch id)
  rcases swept_sweep c now id with ⟨-, hb⟩ | ⟨hb, -⟩
  · exact (hf id).congr hx hb
  · exact Sketch.filed_of_bucket hb

end Container

end DistinctCount
