import Mathlib.Data.Finmap
import Mathlib.Data.Finset.Sort
import DistinctCount.Proofs.Expiry.Index

namespace DistinctCount.Expiry

variable {α σ : Type}

inductive Operation (α : Type)
  | insert (bucket : UInt64) (key : String) (entry : α)
  | remove (bucket : UInt64) (key : String)
  | relocate (source : Option UInt64) (target : UInt64) (key : String) (entry : α)
  | detach (bucket : UInt64)

inductive Answer (α : Type)
  | done
  | entry (old : Option α)
  /-- The entries of a bucket by their keys, if there are any. -/
  | entries (old : Option (String → Option α))

def performAll (perform : σ → Operation α → Answer α × σ) (s : σ) :
    List (Operation α) → List (Answer α) × σ
  | [] => ([], s)
  | operation :: rest =>
    let (answer, s) := perform s operation
    let (answers, s) := performAll perform s rest
    (answer :: answers, s)

def Index.perform (x : Index α) : Operation α → Answer α × Index α
  | .insert bucket key entry => (.done, x.insert bucket key entry)
  | .remove bucket key =>
    let (old, x) := x.remove bucket key
    (.entry old, x)
  | .relocate source target key entry => (.done, x.relocate source target key entry)
  | .detach bucket =>
    let (old, x) := x.detach bucket
    (.entries (old.map fun entries key => entries[key]?), x)

/-- A plain map from pairs of a bucket and a key. -/
abbrev Pairs (α : Type) := Finmap fun _ : UInt64 × String => α

namespace Pairs

def buckets (m : Pairs α) : Finset UInt64 :=
  m.keys.image Prod.fst

def bucketsOf (m : Pairs α) (key : String) : List UInt64 :=
  ((m.keys.filter fun pair => pair.2 = key).image Prod.fst).sort (· ≤ ·)

/-- The smallest buckets that have passed, in ascending order and at most `limit`. -/
def dueBuckets (m : Pairs α) (now : UInt64) (limit : Nat) : List UInt64 :=
  ((m.buckets.filter fun bucket => bucket.toNat + 64 ≤ now.toNat).sort (· ≤ ·)).take limit

def without (m : Pairs α) (bucket : UInt64) : Pairs α :=
  Finmap.keysLookupEquiv.symm ⟨(m.keys.filter fun pair => pair.1 ≠ bucket,
    fun pair => if pair.1 = bucket then none else m.lookup pair), by
      intro pair
      by_cases hb : pair.1 = bucket <;> simp [hb, Finmap.mem_keys, Finmap.lookup_isSome]⟩

def perform (m : Pairs α) : Operation α → Answer α × Pairs α
  | .insert bucket key entry => (.done, Finmap.insert (bucket, key) entry m)
  | .remove bucket key => (.entry (m.lookup (bucket, key)), m.erase (bucket, key))
  | .relocate source target key entry =>
    let left := source.elim m fun source => m.erase (source, key)
    (.done, left.insert (target, key) entry)
  | .detach bucket =>
    (.entries (if bucket ∈ m.buckets then some fun key => m.lookup (bucket, key) else none),
      m.without bucket)

theorem lookup_without (m : Pairs α) (bucket : UInt64) (pair : UInt64 × String) :
    (m.without bucket).lookup pair = if pair.1 = bucket then none else m.lookup pair := by
  rw [without, Finmap.keysLookupEquiv_symm_apply_lookup]

theorem lookup_insert (m : Pairs α) (bucket other : UInt64) (key k : String) (entry : α) :
    (Finmap.insert (bucket, key) entry m).lookup (other, k) =
      if other = bucket ∧ k = key then some entry else m.lookup (other, k) := by
  split
  · rename_i h
    rw [h.1, h.2, Finmap.lookup_insert]
  · rename_i h
    exact Finmap.lookup_insert_of_ne _ fun hpair => h (Prod.mk.inj hpair)

theorem lookup_erase (m : Pairs α) (bucket other : UInt64) (key k : String) :
    (m.erase (bucket, key)).lookup (other, k) =
      if other = bucket ∧ k = key then none else m.lookup (other, k) := by
  split
  · rename_i h
    rw [h.1, h.2, Finmap.lookup_erase]
  · rename_i h
    exact Finmap.lookup_erase_ne fun hpair => h (Prod.mk.inj hpair)

theorem mem_buckets {m : Pairs α} {bucket : UInt64} :
    bucket ∈ m.buckets ↔ ∃ key entry, m.lookup (bucket, key) = some entry := by
  simp only [buckets, Finset.mem_image, Finmap.mem_keys, Finmap.mem_iff, Prod.exists,
    exists_and_right, exists_eq_right]

end Pairs

theorem eq_sort_of_mem {l : List UInt64} {s : Finset UInt64} (hl : l.Pairwise (· < ·))
    (hmem : ∀ bucket, bucket ∈ l ↔ bucket ∈ s) : l = s.sort (· ≤ ·) := by
  have hset : s = l.toFinset := by
    ext bucket
    rw [List.mem_toFinset, hmem]
  have hnodup : l.Nodup := hl.imp fun h => UInt64.ne_of_lt h
  rw [hset]
  exact ((List.toFinset_sort _ hnodup).2 (hl.imp fun h => UInt64.le_of_lt h)).symm

/-- An index stands for a map of pairs, and keeps no bucket without a pair. -/
structure Represents (x : Index α) (m : Pairs α) : Prop where
  filled : x.Filled
  get? : ∀ bucket key, x.get? bucket key = m.lookup (bucket, key)

namespace Represents

variable {x : Index α} {m : Pairs α}

theorem empty : Represents ({} : Index α) ∅ where
  filled := Index.filled_empty
  get? bucket key := by rw [Index.get?_empty, Finmap.lookup_empty]

theorem insert (h : Represents x m) (bucket : UInt64) (key : String) (entry : α) :
    Represents (x.insert bucket key entry) (Finmap.insert (bucket, key) entry m) where
  filled := h.filled.replace _ _
  get? other k := by rw [Index.get?_insert, Pairs.lookup_insert, h.get?]

theorem erase (h : Represents x m) (bucket : UInt64) (key : String) :
    Represents (x.erase bucket key) (m.erase (bucket, key)) where
  filled := h.filled.replace _ _
  get? other k := by rw [Index.get?_erase, Pairs.lookup_erase, h.get?]

theorem detach (h : Represents x m) (bucket : UInt64) :
    Represents (x.detach bucket).2 (m.without bucket) where
  filled := h.filled.erase_bucket bucket
  get? other k := by rw [Index.get?_detach, Pairs.lookup_without, h.get?]

theorem mem_buckets (h : Represents x m) (bucket : UInt64) :
    bucket ∈ x.buckets ↔ bucket ∈ m.buckets := by
  rw [h.filled.mem_buckets, Pairs.mem_buckets]
  simp only [h.get?]

theorem fst_detach (h : Represents x m) (bucket : UInt64) :
    (x.detach bucket).1.map (fun entries key => entries[key]?) =
      if bucket ∈ m.buckets then some fun key => m.lookup (bucket, key) else none := by
  have hmem : bucket ∈ m.buckets ↔ (x.buckets[bucket]?).isSome := by
    rw [← h.mem_buckets, Std.TreeMap.mem_iff_isSome_getElem?]
  cases hb : x.buckets[bucket]? with
  | none =>
    have hnot : bucket ∉ m.buckets := by
      rw [hmem, hb]
      exact Bool.false_ne_true
    rw [if_neg hnot, Index.detach, hb, Option.map_none]
  | some entries =>
    rw [if_pos (hmem.2 (by rw [hb]; rfl)), Index.detach, hb, Option.map_some]
    refine congrArg some (funext fun key => ?_)
    rw [← h.get?, Index.get?, Index.entries, Std.TreeMap.getD_eq_getD_getElem?, hb, Option.getD_some]

/-- A change has the same answer on both sides, and what it leaves stands for what it leaves. -/
theorem perform (h : Represents x m) (operation : Operation α) :
    (x.perform operation).1 = (m.perform operation).1 ∧
      Represents (x.perform operation).2 (m.perform operation).2 := by
  cases operation with
  | insert bucket key entry => exact ⟨rfl, h.insert bucket key entry⟩
  | remove bucket key => exact ⟨congrArg Answer.entry (h.get? bucket key), h.erase bucket key⟩
  | relocate source target key entry =>
    refine ⟨rfl, ?_⟩
    cases source with
    | none => exact h.insert target key entry
    | some source => exact (h.erase source key).insert target key entry
  | detach bucket => exact ⟨congrArg Answer.entries (h.fst_detach bucket), h.detach bucket⟩

theorem performAll (h : Represents x m) (operations : List (Operation α)) :
    (Expiry.performAll Index.perform x operations).1 =
        (Expiry.performAll Pairs.perform m operations).1 ∧
      Represents (Expiry.performAll Index.perform x operations).2
        (Expiry.performAll Pairs.perform m operations).2 := by
  induction operations generalizing x m with
  | nil => exact ⟨rfl, h⟩
  | cons operation rest ih =>
    obtain ⟨hanswer, hnext⟩ := h.perform operation
    obtain ⟨hanswers, hlast⟩ := ih hnext
    exact ⟨congrArg₂ List.cons hanswer hanswers, hlast⟩

theorem keys_eq (h : Represents x m) : x.buckets.keys = m.buckets.sort (· ≤ ·) :=
  eq_sort_of_mem x.keys_sorted fun bucket => by rw [Std.TreeMap.mem_keys, h.mem_buckets]

theorem size_eq (h : Represents x m) : x.size = m.buckets.card := by
  rw [Index.size, ← Std.TreeMap.length_keys, h.keys_eq, Finset.length_sort]

theorem bucketsOf_eq (h : Represents x m) (key : String) : x.bucketsOf key = m.bucketsOf key := by
  refine eq_sort_of_mem ?_ fun bucket => ?_
  · have hsub : List.Sublist (x.bucketsOf key) x.buckets.keys := by
      rw [← Std.TreeMap.map_fst_toList_eq_keys]
      exact List.filter_sublist.map _
    exact x.keys_sorted.sublist hsub
  · have hpair : (∃ entries, x.buckets[bucket]? = some entries ∧ entries.contains key = true) ↔
        (x.get? bucket key).isSome := by
      rw [Index.get?, Index.entries, Std.TreeMap.getD_eq_getD_getElem?]
      cases x.buckets[bucket]? <;> simp [Std.TreeMap.isSome_getElem?_eq_contains]
    simp only [Index.bucketsOf, List.mem_map, List.mem_filter, Prod.exists,
      Std.TreeMap.mem_toList_iff_getElem?_eq_some, exists_and_right, exists_eq_right, hpair, h.get?,
      Finset.mem_image, Finset.mem_filter, Finmap.mem_keys, Finmap.lookup_isSome]

theorem dueBuckets_eq (h : Represents x m) (now : UInt64) (limit : Nat) :
    x.dueBuckets now limit = m.dueBuckets now limit := by
  have hdue : x.buckets.keys.filter (isDue now) =
      (m.buckets.filter fun bucket => bucket.toNat + 64 ≤ now.toNat).sort (· ≤ ·) := by
    refine eq_sort_of_mem (x.keys_sorted.filter _) fun bucket => ?_
    rw [List.mem_filter, Std.TreeMap.mem_keys, h.mem_buckets, Finset.mem_filter, isDue,
      decide_eq_true_eq, bucketWidth]
  rw [Index.dueBuckets_eq, hdue, Pairs.dueBuckets]

end Represents

/--
Changes of an index that was empty at first give the answers of the map and leave its pairs. Any list
of changes will do, so the same holds after each of them.
-/
theorem index_refines_pairs (operations : List (Operation α)) :
    let (answers, x) := performAll Index.perform {} operations
    let (expected, m) := performAll Pairs.perform ∅ operations
    answers = expected ∧ (∀ bucket key, x.get? bucket key = m.lookup (bucket, key)) ∧
      x.size = m.buckets.card ∧ (∀ key, x.bucketsOf key = m.bucketsOf key) ∧
      ∀ now limit, x.dueBuckets now limit = m.dueBuckets now limit := by
  obtain ⟨hanswers, h⟩ := Represents.empty.performAll operations
  exact ⟨hanswers, h.get?, h.size_eq, h.bucketsOf_eq, h.dueBuckets_eq⟩

end DistinctCount.Expiry
