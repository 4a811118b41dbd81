import Mathlib.Tactic
import DistinctCount.Registry.Basic

namespace DistinctCount

namespace Shards

variable {s : Shards} {n m : Nat} {key other : String} {id : SketchId}

theorem shardOf_lt (hs : 0 < s.count) (key : String) : s.shardOf key < s.count := by
  have hand : s.shardOf key ≤ (UInt64.ofNat (s.count - 1)).toNat := by
    rw [shardOf, UInt64.toNat_and]
    exact Nat.and_le_right
  have hle : (UInt64.ofNat (s.count - 1)).toNat ≤ s.count - 1 := by
    rw [UInt64.toNat_ofNat']
    exact Nat.mod_le _ _
  omega

@[simp] theorem count_insert : (s.insert n key id).count = s.count := by
  simp [insert, count]

@[simp] theorem count_erase : (s.erase n key).count = s.count := by
  simp [erase, count]

@[simp] theorem shardOf_insert : (s.insert n key id).shardOf other = s.shardOf other := by
  simp only [shardOf, count_insert]
  rfl

@[simp] theorem shardOf_erase : (s.erase n key).shardOf other = s.shardOf other := by
  simp only [shardOf, count_erase]
  rfl

theorem get?_ofCount {count : Nat} {hashing : Hash.Family} :
    (ofCount count hashing).get? n key = none := by
  simp only [get?, table, ofCount, Array.getD_eq_getD_getElem?, Array.getElem?_replicate]
  split <;> simp

theorem get?_insert (hn : n < s.count) :
    (s.insert n key id).get? m other = if m = n ∧ other = key then some id else s.get? m other := by
  have hn' : n < s.tables.size := hn
  simp only [get?, table, insert, Array.getD_eq_getD_getElem?, Array.getElem?_modify]
  by_cases hm : n = m
  · subst hm
    simp only [if_true, Array.getElem?_eq_getElem hn', Option.map_some, Option.getD_some,
      Std.TreeMap.getElem?_insert, Std.LawfulEqCmp.compare_eq_iff_eq, true_and]
    by_cases hk : key = other
    · simp [hk]
    · simp [hk, Ne.symm hk]
  · simp [hm, Ne.symm hm]

theorem get?_erase :
    (s.erase n key).get? m other = if m = n ∧ other = key then none else s.get? m other := by
  simp only [get?, table, erase, Array.getD_eq_getD_getElem?, Array.getElem?_modify]
  by_cases hm : n = m
  · subst hm
    by_cases hn : n < s.tables.size
    · simp only [if_true, Array.getElem?_eq_getElem hn, Option.map_some, Option.getD_some,
        Std.TreeMap.getElem?_erase, Std.LawfulEqCmp.compare_eq_iff_eq, true_and]
      by_cases hk : key = other
      · simp [hk]
      · simp [hk, Ne.symm hk]
    · simp [Array.getElem?_eq_none (Nat.le_of_not_lt hn)]
  · simp [hm, Ne.symm hm]

theorem get?_eq_some_iff : s.get? n key = some id ↔
    ∃ h : n < s.tables.size, (s.tables[n])[key]? = some id := by
  simp only [get?, table, Array.getD_eq_getD_getElem?]
  by_cases hn : n < s.tables.size
  · simp [hn]
  · simp [hn]

theorem mem_keys : key ∈ s.keys ↔ ∃ n id, s.get? n key = some id := by
  simp only [get?_eq_some_iff]
  rw [keys, List.mem_flatMap]
  constructor
  · rintro ⟨table, hm, hk⟩
    obtain ⟨n, hn, rfl⟩ := Array.mem_iff_getElem.1 (Array.mem_toList_iff.1 hm)
    obtain ⟨id, hid⟩ := Std.TreeMap.mem_iff_isSome_getElem?.1 (Std.TreeMap.mem_keys.1 hk) |>
      Option.isSome_iff_exists.1
    exact ⟨n, id, hn, hid⟩
  · rintro ⟨n, id, hn, hid⟩
    refine ⟨s.tables[n], Array.mem_toList_iff.2 (Array.getElem_mem hn), Std.TreeMap.mem_keys.2 ?_⟩
    rw [Std.TreeMap.mem_iff_isSome_getElem?, hid]
    rfl

theorem length_keys (s : Shards) : s.keys.length = s.keyCount := by
  rw [keys, keyCount, List.length_flatMap, ← Array.foldl_toList]
  simp only [Std.TreeMap.length_keys]
  rw [List.sum_eq_foldl, List.foldl_map]

end Shards

namespace Registry

variable {r : Registry} {id other : SketchId} {f : Sketch → Sketch} {s : Sketch} {key : String}

theorem sketch_modify :
    (r.modify id f).sketch other =
      if other = id ∧ id < r.sketches.next then f (r.sketch id) else r.sketch other := by
  simp only [sketch, modify, Sketches.modify, Sketches.get, Sketches.next,
    Array.getD_eq_getD_getElem?, Array.getElem?_modify]
  by_cases ho : id = other
  · subst ho
    by_cases hid : id < r.sketches.items.size
    · simp [hid]
    · simp [hid]
  · simp [ho, Ne.symm ho]

@[simp] theorem next_modify : (r.modify id f).sketches.next = r.sketches.next := by
  simp [modify, Sketches.modify, Sketches.next]

@[simp] theorem shards_modify : (r.modify id f).shards = r.shards := rfl

@[simp] theorem sketch_modify_self (hid : id < r.sketches.next) :
    (r.modify id f).sketch id = f (r.sketch id) := by
  rw [sketch_modify, if_pos ⟨rfl, hid⟩]

theorem sketch_modify_of_ne (ho : other ≠ id) : (r.modify id f).sketch other = r.sketch other := by
  rw [sketch_modify, if_neg fun h => ho h.1]

theorem sketch_of_le (hid : r.sketches.next ≤ id) : r.sketch id = default := by
  simp only [sketch, Sketches.get, Array.getD_eq_getD_getElem?]
  rw [Array.getElem?_eq_none hid, Option.getD_none]

theorem sketch_make :
    (r.make s).2.sketch other = if other = r.sketches.next then s else r.sketch other := by
  simp only [sketch, make, Sketches.add, Sketches.get, Sketches.next,
    Array.getD_eq_getD_getElem?, Array.getElem?_push]
  split <;> rfl

@[simp] theorem next_make : (r.make s).2.sketches.next = r.sketches.next + 1 := by
  simp [make, Sketches.add, Sketches.next]

@[simp] theorem shards_make : (r.make s).2.shards = r.shards := rfl

theorem successor_eq_some {current : SketchId} : r.successor id = some current ↔
    r.get? (r.sketch id).key = some current ∧ current ≠ id ∧ (r.sketch current).deleted = false := by
  rw [successor, Option.filter_eq_some_iff, Bool.and_eq_true, decide_eq_true_iff, Bool.not_eq_true']

/-- Each shard holds exactly the live sketches of its keys, and every sketch knows its shard. -/
structure Sound (r : Registry) : Prop where
  count_pos : 0 < r.shards.count
  shard_eq : ∀ id < r.sketches.next, (r.sketch id).shard = r.shards.shardOf (r.sketch id).key
  get?_shard : ∀ n key id, r.shards.get? n key = some id ↔
    id < r.sketches.next ∧ (r.sketch id).deleted = false ∧ (r.sketch id).key = key ∧
      n = r.shards.shardOf key

theorem Sound.get?_eq_some (hr : r.Sound) :
    r.get? key = some id ↔
      id < r.sketches.next ∧ (r.sketch id).deleted = false ∧ (r.sketch id).key = key := by
  rw [get?, hr.get?_shard]
  simp

theorem Sound.get?_of_live (hr : r.Sound) (hid : id < r.sketches.next)
    (hlive : (r.sketch id).deleted = false) : r.get? (r.sketch id).key = some id :=
  hr.get?_eq_some.2 ⟨hid, hlive, rfl⟩

theorem Sound.eq_of_live (hr : r.Sound) (hid : id < r.sketches.next)
    (hlive : (r.sketch id).deleted = false) (ho : other < r.sketches.next)
    (hlive' : (r.sketch other).deleted = false) (hk : (r.sketch other).key = (r.sketch id).key) :
    other = id := by
  have h := hr.get?_of_live ho hlive'
  rw [hk, hr.get?_of_live hid hlive] at h
  exact (Option.some.inj h).symm

theorem Sound.congr (hr : r.Sound) {r' : Registry} (hs : r'.shards = r.shards)
    (hn : r'.sketches.next = r.sketches.next)
    (hk : ∀ id, (r'.sketch id).key = (r.sketch id).key)
    (hsh : ∀ id, (r'.sketch id).shard = (r.sketch id).shard)
    (hd : ∀ id, (r'.sketch id).deleted = (r.sketch id).deleted) : r'.Sound where
  count_pos := hs ▸ hr.count_pos
  shard_eq := by
    intro id hid
    rw [hs, hk, hsh]
    exact hr.shard_eq id (hn ▸ hid)
  get?_shard := by
    intro n key id
    rw [hs, hn, hk, hd]
    exact hr.get?_shard n key id

theorem Sound.modify (hr : r.Sound) (hk : (f (r.sketch id)).key = (r.sketch id).key)
    (hsh : (f (r.sketch id)).shard = (r.sketch id).shard)
    (hd : (f (r.sketch id)).deleted = (r.sketch id).deleted) : (r.modify id f).Sound := by
  apply hr.congr shards_modify next_modify
  all_goals
    intro other
    rw [sketch_modify]
    split
    · rename_i h
      rw [h.1]
      assumption
    · rfl

theorem lt_succ_of_ne {n : Nat} (hid : id ≠ n) : id < n + 1 ↔ id < n :=
  ⟨fun h => Nat.lt_of_le_of_ne (Nat.le_of_lt_succ h) hid, Nat.lt_succ_of_lt⟩

theorem Sound.create (hr : r.Sound) (hkey : s.key = key) (hshard : s.shard = r.shards.shardOf key)
    (hlive : s.deleted = false) (hfree : r.get? key = none) :
    ((r.make s).2.insert (r.shards.shardOf key) r.sketches.next).Sound := by
  have hlt := Shards.shardOf_lt hr.count_pos key
  have hsk : ∀ other, ((r.make s).2.insert (r.shards.shardOf key) r.sketches.next).sketch other =
      if other = r.sketches.next then s else r.sketch other := fun _ => sketch_make
  have hself : ((r.make s).2.sketch r.sketches.next).key = key := by
    rw [sketch_make, if_pos rfl, hkey]
  refine ⟨?_, ?_, ?_⟩
  · simpa [insert] using hr.count_pos
  · intro id hid
    rw [hsk]
    simp only [insert, next_make, shards_make, Shards.shardOf_insert] at hid ⊢
    split
    · rw [hshard, hkey]
    · rename_i hne
      exact hr.shard_eq id (Nat.lt_of_le_of_ne (Nat.le_of_lt_succ hid) hne)
  · intro n k id
    rw [hsk]
    simp only [insert, hself, next_make, shards_make, Shards.shardOf_insert, Shards.get?_insert hlt]
    have hold := hr.get?_shard n k id
    by_cases hnk : n = r.shards.shardOf key ∧ k = key
    · obtain ⟨rfl, rfl⟩ := hnk
      have hnone : r.shards.get? (r.shards.shardOf k) k ≠ some id := by
        intro he
        rw [get?, he] at hfree
        cases hfree
      rw [if_pos ⟨rfl, rfl⟩]
      by_cases hid : id = r.sketches.next
      · simp [hid, hlive, hkey]
      · rw [if_neg hid]
        constructor
        · rintro ⟨⟩
          exact absurd rfl hid
        · rintro ⟨hlt', hl, hk, -⟩
          exact absurd (hold.2 ⟨Nat.lt_of_le_of_ne (Nat.le_of_lt_succ hlt') hid, hl, hk, rfl⟩) hnone
    · rw [if_neg hnk, hold]
      by_cases hid : id = r.sketches.next
      · subst hid
        constructor
        · rintro ⟨hlt', -⟩
          exact absurd hlt' (Nat.lt_irrefl _)
        · rintro ⟨-, -, hk, hn⟩
          rw [if_pos rfl, hkey] at hk
          exact absurd ⟨hk ▸ hn, hk.symm⟩ hnk
      · rw [if_neg hid]
        rw [lt_succ_of_ne hid]

theorem Sound.make (hr : r.Sound) (hshard : s.shard = r.shards.shardOf s.key)
    (hdead : s.deleted = true) : (r.make s).2.Sound := by
  refine ⟨hr.count_pos, ?_, ?_⟩
  · intro id hid
    rw [sketch_make]
    rw [next_make] at hid
    split
    · exact hshard
    · rename_i hne
      exact hr.shard_eq id (Nat.lt_of_le_of_ne (Nat.le_of_lt_succ hid) hne)
  · intro n k id
    rw [sketch_make, shards_make, hr.get?_shard, next_make]
    by_cases hid : id = r.sketches.next
    · subst hid
      simp [hdead]
    · rw [if_neg hid]
      rw [lt_succ_of_ne hid]

theorem Sound.retire (hr : r.Sound) (hid : id < r.sketches.next)
    (hlive : (r.sketch id).deleted = false) (hkey : (r.sketch id).key = key)
    (hk : (f (r.sketch id)).key = (r.sketch id).key)
    (hsh : (f (r.sketch id)).shard = (r.sketch id).shard)
    (hd : (f (r.sketch id)).deleted = true) :
    ((r.modify id f).remove (r.shards.shardOf key) key).2.Sound := by
  have hsk : ∀ other, ((r.modify id f).remove (r.shards.shardOf key) key).2.sketch other =
      (r.modify id f).sketch other := fun _ => rfl
  refine ⟨?_, ?_, ?_⟩
  · simpa [remove] using hr.count_pos
  · intro other ho
    rw [hsk]
    simp only [remove, next_modify, shards_modify, Shards.shardOf_erase] at ho ⊢
    rw [sketch_modify]
    split
    · rename_i h
      rw [hsh, hk, hr.shard_eq id hid]
    · exact hr.shard_eq other ho
  · intro n k other
    rw [hsk]
    simp only [remove, next_modify, shards_modify, Shards.shardOf_erase, Shards.get?_erase]
    have hold := hr.get?_shard n k other
    by_cases ho : other = id
    · subst ho
      rw [sketch_modify_self hid, hd]
      simp only [Bool.true_eq_false, false_and, and_false, iff_false]
      split
      · exact nofun
      · rename_i hnk
        rw [hold]
        rintro ⟨-, -, rfl, hn⟩
        exact hnk ⟨hkey ▸ hn, hkey⟩
    · rw [sketch_modify_of_ne ho]
      split
      · rename_i hnk
        obtain ⟨rfl, rfl⟩ := hnk
        constructor
        · exact nofun
        · rintro ⟨hlt, hl, hk', -⟩
          exact absurd (hr.eq_of_live hid hlive hlt hl (hk'.trans hkey.symm)) ho
      · exact hold

theorem Sound.mem_keys (hr : r.Sound) : key ∈ r.shards.keys ↔ ∃ id, r.get? key = some id := by
  rw [Shards.mem_keys]
  constructor
  · rintro ⟨n, id, hid⟩
    obtain ⟨made, hlive, hkey, -⟩ := (hr.get?_shard n key id).1 hid
    exact ⟨id, hr.get?_eq_some.2 ⟨made, hlive, hkey⟩⟩
  · rintro ⟨id, hid⟩
    exact ⟨_, id, hid⟩

/-- No key stands in two shards. -/
theorem Sound.nodup_keys (hr : r.Sound) : r.shards.keys.Nodup := by
  rw [Shards.keys, List.nodup_flatMap]
  refine ⟨fun _ _ => Std.TreeMap.nodup_keys, List.pairwise_iff_getElem.2 ?_⟩
  intro n m hn hm hlt key hk hk'
  rw [Array.getElem_toList, Std.TreeMap.mem_keys, Std.TreeMap.mem_iff_isSome_getElem?] at hk hk'
  obtain ⟨id, hid⟩ := Option.isSome_iff_exists.1 hk
  obtain ⟨id', hid'⟩ := Option.isSome_iff_exists.1 hk'
  have hhome := ((hr.get?_shard n key id).1 (Shards.get?_eq_some_iff.2 ⟨by simpa using hn, hid⟩)).2.2.2
  have hhome' := ((hr.get?_shard m key id').1 (Shards.get?_eq_some_iff.2 ⟨by simpa using hm, hid'⟩)).2.2.2
  omega

end Registry

end DistinctCount
