import DistinctCount.Proofs.Container.Evicted
import DistinctCount.Proofs.Container.Opened
import Mathlib.Data.String.Basic

namespace DistinctCount

abbrev Table := Std.TreeMap String Account

namespace Account

/-- The first second of the 64 that the expiry lies in; an account that never expires has none. -/
def bucket? (a : Account) : Option UInt64 :=
  if a.expiresAt = 0 then none else some (a.expiresAt / 64 * 64)

def estimate (a : Account) : UInt64 :=
  Sketch.estimate
    { key := "", shard := 0, slots := a.slots, nonZero := a.slots.nonZero, expiresAt := a.expiresAt }

end Account

namespace Table

def deadline (now ttl : UInt64) : UInt64 :=
  if ttl = 0 then 0 else UInt64.ofNat (min (now.toNat + ttl.toNat) (2 ^ 64 - 1))

/-- Counts values under a key; the time to live is that of a key that is made. -/
def add (family : Hash.Family) (t : Table) (now : UInt64) (key : String)
    (values : List (List UInt8)) (ttl : UInt64) : Table :=
  t.insert key (values.foldl (Account.observe family) (t.getD key ⟨.empty, deadline now ttl⟩))

def updateExpiry (t : Table) (now : UInt64) (key : String) (ttl : UInt64) : Bool × Table :=
  match t[key]? with
  | some a => (true, t.insert key { a with expiresAt := deadline now ttl })
  | none => (false, t)

/-- The first buckets of accounts that have passed, in ascending order and at most `limit`. -/
def due (t : Table) (now : UInt64) (limit : Nat) : List UInt64 :=
  let buckets := Std.TreeSet.ofList (t.toList.filterMap fun (_, a) => a.bucket?) compare
  (buckets.toList.filter fun bucket => bucket.toNat + 64 ≤ now.toNat).take limit

/-- Removes the accounts of the buckets that are due and tells how many they were. -/
def sweep (t : Table) (now : UInt64) (limit : Nat) : Nat × Table :=
  let due := t.due now limit
  let left := t.filter fun _ a => !a.bucket?.any due.contains
  (t.size - left.size, left)

/-- The map of some records; what has expired or does not decode is left out. -/
def ofRecords (now : UInt64) (records : List (String × Record)) : Table :=
  records.foldr (fun (key, record) t => t.alter key fun _ => record.account? now) ∅

end Table

namespace Container

variable {c c' : Container} {t : Table} {key : String} {now ttl : UInt64}

def Shows (c : Container) (t : Table) : Prop :=
  ∀ k : String, t[k]? = c.account? k

theorem Alike.shows (h : Alike c c') (hs : c.Shows t) : c'.Shows t :=
  fun k => (hs k).trans (h.account? k).symm

theorem shows_ofRecords {records : List (String × Record)}
    (h : ∀ k, c.account? k = (records.lookup k).bind (·.account? now)) :
    c.Shows (Table.ofRecords now records) := by
  intro k
  rw [h]
  clear h
  induction records with
  | nil => simp [Table.ofRecords]
  | cons entry records ih =>
    obtain ⟨key, record⟩ := entry
    rw [Table.ofRecords, List.foldr_cons, Std.TreeMap.getElem?_alter, List.lookup_cons]
    by_cases hk : k = key
    · simp [hk]
    · have hne : (k == key) = false := beq_eq_false_iff_ne.2 hk
      simp only [Std.LawfulEqCmp.compare_eq_iff_eq, Ne.symm hk, if_false, hne]
      exact ih

theorem expiryAfter_eq (now ttl : UInt64) : expiryAfter now ttl = Table.deadline now ttl := by
  have hnow := now.toNat_lt
  have httl := ttl.toNat_lt
  unfold expiryAfter Table.deadline
  split
  · rfl
  · split
    · rename_i h
      rw [← UInt64.toNat_inj, UInt64.toNat_add, UInt64.toNat_ofNat']
      have hsize : UInt64.size = 2 ^ 64 := rfl
      omega
    · rename_i h
      rw [← UInt64.toNat_inj, UInt64.toNat_ofNat']
      have hsize : UInt64.size = 2 ^ 64 := rfl
      have hlast : (0xffffffffffffffff : UInt64).toNat = 2 ^ 64 - 1 := rfl
      omega

theorem Shows.yields_add (h : c.Shows t) {values : List (List UInt8)}
    (hy : Yields c (fun k => if k = key then
        some (values.foldl (Account.observe c.config.hashing)
          ((c.account? key).getD ⟨.empty, expiryAfter now ttl⟩))
      else c.account? k) c') : c'.Shows (t.add c.config.hashing now key values ttl) := by
  intro k
  rw [hy.account, Table.add, Std.TreeMap.getElem?_insert, Std.TreeMap.getD_eq_getD_getElem?, h key,
    expiryAfter_eq]
  simp only [Std.LawfulEqCmp.compare_eq_iff_eq, eq_comm (a := key)]
  split
  · rfl
  · exact h k

theorem Shows.fst_updateExpiry (h : c.Shows t) (hc : c.Coupled) (now : UInt64) (key : String)
    (ttl : UInt64) : (c.updateExpiry now key ttl).1 = (t.updateExpiry now key ttl).1 := by
  rw [Container.fst_updateExpiry hc, Table.updateExpiry, h key]
  cases c.account? key <;> rfl

theorem Shows.updateExpiry (h : c.Shows t) (hc : c.Coupled) (now : UInt64) (key : String)
    (ttl : UInt64) : (c.updateExpiry now key ttl).2.Shows (t.updateExpiry now key ttl).2 := by
  intro k
  rw [(yields_updateExpiry hc now key ttl).account, Table.updateExpiry, h key]
  cases hkey : c.account? key with
  | none =>
    rw [h k]
    split
    · rename_i hk
      rw [hk, hkey]
      rfl
    · rfl
  | some a =>
    rw [Std.TreeMap.getElem?_insert, expiryAfter_eq]
    simp only [Std.LawfulEqCmp.compare_eq_iff_eq, eq_comm (a := key)]
    split
    · rfl
    · exact h k

theorem Shows.delete (h : c.Shows t) (hc : c.Coupled)
    (hopen : (c.persistent && c.closed) = false) (key : String) :
    (c.beginDelete key).2.Shows (t.erase key) := by
  intro k
  rw [(yields_beginDelete hc hopen key).account, Std.TreeMap.getElem?_erase, h k]
  simp only [Std.LawfulEqCmp.compare_eq_iff_eq, eq_comm (a := key)]

/-! ### Sweeps -/

theorem Coupled.mem_buckets (hc : c.Coupled) (b : UInt64) :
    b ∈ c.expiry.buckets ↔ ∃ k, c.bucket? k = some b := by
  rw [hc.filled.mem_buckets]
  constructor
  · rintro ⟨k, entry, he⟩
    exact ⟨k, hc.bucket?_of_entered ((entered_iff hc.toLinked).1 he)⟩
  · rintro ⟨k, hk⟩
    obtain ⟨entry, he⟩ := hc.entered_of_bucket? hk
    exact ⟨k, entry, (entered_iff hc.toLinked).2 he⟩

theorem Shows.bucket? (h : c.Shows t) (k : String) :
    c.bucket? k = t[k]?.bind Account.bucket? := by
  rw [Container.bucket?, h k]
  rfl

theorem Shows.due (h : c.Shows t) (hc : c.Coupled) (now : UInt64) (limit : Nat) :
    c.expiry.dueBuckets now limit = t.due now limit := by
  have hsame : c.expiry.buckets.keys =
      (Std.TreeSet.ofList (t.toList.filterMap fun (_, a) => a.bucket?) compare).toList := by
    refine c.expiry.keys_sorted.eq_of_mem_iff
      (Std.TreeSet.ordered_toList.imp Std.compare_eq_lt.1) fun b => ?_
    rw [Std.TreeMap.mem_keys, hc.mem_buckets, Std.TreeSet.mem_toList, Std.TreeSet.mem_ofList,
      List.contains_iff_mem, List.mem_filterMap]
    constructor
    · rintro ⟨k, hk⟩
      rw [h.bucket?] at hk
      obtain ⟨a, ha, hb⟩ := Option.bind_eq_some_iff.1 hk
      exact ⟨(k, a), Std.TreeMap.mem_toList_iff_getElem?_eq_some.2 ha, hb⟩
    · rintro ⟨⟨k, a⟩, hm, hb⟩
      refine ⟨k, ?_⟩
      rw [h.bucket?, Std.TreeMap.mem_toList_iff_getElem?_eq_some.1 hm]
      exact hb
  rw [Expiry.Index.dueBuckets_eq, hsame]
  rfl

theorem Shows.sweep (h : c.Shows t) (hc : c.Coupled) (now : UInt64) :
    (c.sweep now).1 = (t.sweep now c.config.sweepBatch).1 ∧
      (c.sweep now).2.Shows (t.sweep now c.config.sweepBatch).2 := by
  obtain ⟨gone, c', heq, hnodup, hgone, -, hcleared⟩ := cleared_sweep hc now
  let due := t.due now c.config.sweepBatch
  have hmem : ∀ k, k ∈ gone ↔ (t[k]?.bind Account.bucket?).any due.contains = true := by
    intro k
    rw [hgone, h.due hc, h.bucket?]
    cases t[k]?.bind Account.bucket? with
    | none => simp
    | some b =>
      rw [Option.any_some, List.contains_iff_mem]
      exact ⟨fun ⟨b', hb', he⟩ => Option.some.inj he ▸ hb', fun hb => ⟨b, hb, rfl⟩⟩
  have hleft : ∀ k, (t.sweep now c.config.sweepBatch).2[k]? = if k ∈ gone then none else t[k]? := by
    intro k
    rw [Table.sweep, Std.TreeMap.getElem?_filter']
    cases ha : t[k]? with
    | none => simp
    | some a =>
      have hk := hmem k
      rw [ha, Option.bind_some] at hk
      by_cases hgone : k ∈ gone
      · have hany : a.bucket?.any (t.due now c.config.sweepBatch).contains = true := hk.1 hgone
        simp [hgone, hany]
      · have hany : a.bucket?.any (t.due now c.config.sweepBatch).contains = false :=
          Bool.eq_false_iff.2 fun hany => hgone (hk.2 hany)
        simp [hgone, hany]
  have hsize : t.size = gone.length + (t.sweep now c.config.sweepBatch).2.size := by
    rw [← Std.TreeMap.length_keys, ← Std.TreeMap.length_keys, ← List.length_append]
    refine List.Perm.length_eq ((List.perm_ext_iff_of_nodup Std.TreeMap.nodup_keys ?_).2 ?_)
    · refine List.nodup_append'.2 ⟨hnodup, Std.TreeMap.nodup_keys, fun k hk hk' => ?_⟩
      rw [Std.TreeMap.mem_keys, Std.TreeMap.mem_iff_isSome_getElem?, hleft, if_pos hk] at hk'
      cases hk'
    · intro k
      rw [List.mem_append, Std.TreeMap.mem_keys, Std.TreeMap.mem_keys,
        Std.TreeMap.mem_iff_isSome_getElem?, Std.TreeMap.mem_iff_isSome_getElem?, hleft]
      by_cases hk : k ∈ gone
      · have hfound : t[k]?.isSome = true := by
          have hany := (hmem k).1 hk
          cases ha : t[k]? with
          | none =>
            rw [ha] at hany
            cases hany
          | some a => rfl
        simp [hk, hfound]
      · simp [hk]
  rw [heq]
  constructor
  · exact (Nat.sub_eq_of_eq_add hsize).symm
  · intro k
    rw [hleft, hcleared.account?, h k]

/-! ### What clients see of a container -/

theorem Shows.contains (h : c.Shows t) (key : String) : c.contains key = t.contains key := by
  rw [← Std.TreeMap.isSome_getElem?_eq_contains, h key, account?, Option.isSome_map]
  rfl

theorem Shows.expiryOf (h : c.Shows t) (key : String) :
    c.expiryOf key = t[key]?.map (·.expiresAt) := by
  rw [h key, account?, Option.map_map]
  rfl

theorem Shows.slots (h : c.Shows t) (key : String) :
    (c.get? key).map (fun id => (c.sketch id).slots) = t[key]?.map (·.slots) := by
  rw [h key, account?, Option.map_map]
  rfl

theorem Shows.cardinality (h : c.Shows t) (hc : c.Coupled) (key : String) :
    c.cardinality key = t[key]?.elim 0 Account.estimate := by
  rw [h key, Container.cardinality]
  cases hget : c.get? key with
  | none =>
    rw [account?_eq_none.2 hget]
    rfl
  | some id =>
    rw [account?_eq hget]
    exact Sketch.estimate_congr rfl (hc.placed key id hget).valid.counted

theorem pairwise_lt_mergeSort {α : Type} [LinearOrder α] {l : List α} (h : l.Nodup) :
    (l.mergeSort (· ≤ ·)).Pairwise (· < ·) := by
  have hsorted : (l.mergeSort (· ≤ ·)).Pairwise fun a b => decide (a ≤ b) = true :=
    List.pairwise_mergeSort (by simpa using fun a b c => le_trans) (by simpa using le_total) l
  have hnodup : (l.mergeSort (· ≤ ·)).Nodup := (List.mergeSort_perm l _).nodup_iff.2 h
  exact (hsorted.and hnodup).imp fun h => lt_of_le_of_ne (of_decide_eq_true h.1) h.2

theorem Shows.mem_keys (h : c.Shows t) (hc : c.Coupled) (k : String) :
    k ∈ c.shards.keys ↔ k ∈ t.keys := by
  rw [hc.sound.mem_keys, Std.TreeMap.mem_keys, Std.TreeMap.mem_iff_isSome_getElem?, h k, account?,
    Option.isSome_map, Option.isSome_iff_exists]

theorem Shows.keys (h : c.Shows t) (hc : c.Coupled) : c.keys = t.keys := by
  refine (pairwise_lt_mergeSort hc.sound.nodup_keys).eq_of_mem_iff
    (Std.TreeMap.ordered_keys.imp compare_lt_iff_lt.1) fun k => ?_
  rw [List.mem_mergeSort, h.mem_keys hc]

theorem Shows.keyCount (h : c.Shows t) (hc : c.Coupled) : c.keyCount = t.size := by
  have hperm := (List.perm_ext_iff_of_nodup hc.sound.nodup_keys Std.TreeMap.nodup_keys).2
    (h.mem_keys hc)
  rw [Container.keyCount, ← Shards.length_keys, hperm.length_eq, Std.TreeMap.length_keys]

end Container

end DistinctCount
