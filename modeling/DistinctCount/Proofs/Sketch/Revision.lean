import DistinctCount.Sketch.Basic
import DistinctCount.Proofs.Slots.Codec

namespace DistinctCount.Sketch

variable {s s' s'' : Sketch} {h : UInt32} {k m : Nat}

structure Valid (s : Sketch) : Prop where
  bounded : s.slots.Bounded
  counted : s.nonZero = s.slots.nonZero

theorem Valid.decode_toBytes (hs : s.Valid) :
    Slots.decode s.toBytes = .ok ⟨s.slots, s.nonZero⟩ := by
  rw [toBytes, hs.counted]
  exact Slots.decode_encode hs.bounded

theorem valid_new (key : String) (shard : Nat) (expiresAt : UInt64) (deleted : Bool) :
    Valid { key, shard, expiresAt, deleted } :=
  ⟨Slots.bounded_empty, Slots.nonZero_empty.symm⟩

theorem ofBytes_eq_ok {key : String} {shard : Nat} {expiresAt : UInt64} {data : List UInt8} :
    ofBytes key shard expiresAt data = .ok s ↔ ∃ d, Slots.decode data = .ok d ∧
      s = { key, shard, expiresAt, slots := d.slots, nonZero := d.nonZero } := by
  unfold ofBytes
  cases Slots.decode data with
  | error e => exact ⟨nofun, nofun⟩
  | ok d =>
    constructor
    · intro he
      exact ⟨d, rfl, (Except.ok.inj he).symm⟩
    · rintro ⟨_, ⟨⟩, rfl⟩
      rfl

theorem valid_ofBytes {key : String} {shard : Nat} {expiresAt : UInt64} {data : List UInt8}
    (h : ofBytes key shard expiresAt data = .ok s) : s.Valid := by
  obtain ⟨d, hd, rfl⟩ := ofBytes_eq_ok.1 h
  obtain ⟨hbounded, hcounted⟩ := Slots.decode_spec hd
  exact ⟨hbounded, hcounted⟩

theorem rankOf_pos (h : UInt32) : 0 < rankOf h := by
  unfold rankOf
  dsimp only
  split
  · decide
  · rename_i hz
    have hlog : (h.toNat % 0x1000000).log2 < 24 :=
      (Nat.log2_lt hz).2 (Nat.mod_lt _ (by decide))
    rw [UInt8.lt_iff_toNat_lt, UInt8.toNat_ofNat']
    simp only [UInt8.toNat_zero]
    omega

theorem rankOf_le (h : UInt32) : rankOf h ≤ maxRank := by
  unfold rankOf
  dsimp only
  split
  · exact UInt8.le_refl _
  · rw [UInt8.le_iff_toNat_le, UInt8.toNat_ofNat']
    change _ ≤ 25
    omega

def total (s : Sketch) : Nat :=
  (s.slots.toList.map UInt8.toNat).sum

theorem total_le (s : Sketch) : s.total ≤ 65280 := by
  have hb : ∀ n ∈ s.slots.toList.map UInt8.toNat, n ≤ 255 := by
    intro n hn
    obtain ⟨r, -, rfl⟩ := List.mem_map.1 hn
    exact Nat.le_of_lt_succ r.toNat_lt
  have hl := List.sum_le_card_nsmul _ _ hb
  simpa [total] using hl

theorem total_raise {i : Fin 256} {rank : UInt8} (hr : s.slots.get i < rank) :
    s.total < (s.raise i rank).total := by
  let ranks := s.slots.toList.map UInt8.toNat
  have hl : i.val < ranks.length := by simp [ranks]
  have hi : ranks[i.val] = (s.slots.get i).toNat := by
    simp [ranks, Vector.get]
  have hset : (s.raise i rank).total = (ranks.set i.val rank.toNat).sum := by
    simp only [total, raise, ranks]
    rw [← List.map_set, ← Vector.toList_set i.isLt]
  have hsum : s.total = (ranks.take i.val).sum + ranks[i.val] + (ranks.drop (i.val + 1)).sum := by
    change ranks.sum = _
    rw [Nat.add_assoc, ← List.sum_cons, ← List.drop_eq_getElem_cons hl, List.sum_take_add_sum_drop]
  rw [hset, hsum, List.sum_set, if_pos hl, hi]
  have hlt := UInt8.lt_iff_toNat_lt.1 hr
  omega

/-- What a sketch has done to deserve its unwritten mutations: raised slots and died. -/
def merit (s : Sketch) : Nat :=
  s.total + if s.deleted then 1 else 0

theorem merit_le (s : Sketch) : s.merit ≤ 65281 := by
  have ht := s.total_le
  unfold merit
  split <;> omega

theorem toInt_pending_add_one (hs : s.pending.toInt < 2 ^ 63 - 1) :
    (s.pending + 1).toInt = s.pending.toInt + 1 := by
  have hlow := s.pending.le_toInt
  rw [Int64.toInt_add, Int64.toInt_one]
  exact Int.bmod_eq_of_le (by omega) (by omega)

theorem toInt_pending_sub {n : Int64} (hn : 0 ≤ n.toInt) (hle : n.toInt ≤ s.pending.toInt) :
    (s.pending - n).toInt = s.pending.toInt - n.toInt := by
  have hhigh := s.pending.toInt_lt
  rw [Int64.toInt_sub]
  exact Int.bmod_eq_of_le (by omega) (by omega)

/--
What clients may do to a sketch. Of the new mutations, `k` are allowed that neither raised a slot
nor deleted the sketch.
-/
structure Revision (k : Nat) (s s' : Sketch) : Prop where
  key : s'.key = s.key
  shard : s'.shard = s.shard
  deleted : s.deleted = true → s'.deleted = true
  slots : ∀ i : Fin 256, s.slots.get i ≤ s'.slots.get i
  valid : s.Valid → s'.Valid
  pending : s.pending.toInt ≤ s'.pending.toInt
  counted : s'.pending.toInt + s.merit ≤ s.pending.toInt + s'.merit + k
  clean : s'.pending.toInt = s.pending.toInt →
    s'.deleted = s.deleted ∧ s'.expiresAt = s.expiresAt ∧ s'.slots = s.slots ∧ s'.nonZero = s.nonZero

theorem Revision.refl (s : Sketch) : Revision 0 s s where
  key := rfl
  shard := rfl
  deleted := id
  slots := fun _ => UInt8.le_refl _
  valid := id
  pending := Int.le_refl _
  counted := by omega
  clean := fun _ => ⟨rfl, rfl, rfl, rfl⟩

theorem Revision.of_eq (h : s' = s) : Revision 0 s s' :=
  h ▸ .refl s

theorem Revision.mono (hs : Revision k s s') (hkm : k ≤ m) : Revision m s s' :=
  { hs with counted := by have h := hs.counted; omega }

theorem Revision.trans (hs : Revision k s s') (hs' : Revision m s' s'') :
    Revision (k + m) s s'' where
  key := hs'.key.trans hs.key
  shard := hs'.shard.trans hs.shard
  deleted := hs'.deleted ∘ hs.deleted
  slots := fun i => UInt8.le_trans (hs.slots i) (hs'.slots i)
  valid := hs'.valid ∘ hs.valid
  pending := Int.le_trans hs.pending hs'.pending
  counted := by
    have h := hs.counted
    have h' := hs'.counted
    push_cast
    omega
  clean := by
    intro he
    have h := hs.pending
    have h' := hs'.pending
    obtain ⟨hd, hx, hsl, hn⟩ := hs.clean (by omega)
    obtain ⟨hd', hx', hsl', hn'⟩ := hs'.clean (by omega)
    exact ⟨hd'.trans hd, hx'.trans hx, hsl'.trans hsl, hn'.trans hn⟩

/-- A sketch in use has no empty slots alone, and never will have. -/
theorem Revision.slots_ne_empty (hs : Revision k s s') (hne : s.slots ≠ .empty) :
    s'.slots ≠ .empty := by
  intro he
  apply hne
  apply Vector.ext
  intro i hi
  have hle := hs.slots ⟨i, hi⟩
  rw [he, Slots.get_empty, UInt8.le_zero_iff] at hle
  exact hle.trans (Slots.get_empty ⟨i, hi⟩).symm

theorem Valid.raise (hs : s.Valid) {i : Fin 256} {rank : UInt8} (hr : s.slots.get i < rank)
    (hmax : rank ≤ maxRank) : (s.raise i rank).Valid where
  bounded := hs.bounded.set i.isLt hmax
  counted := by
    have hne : rank ≠ 0 := by
      rintro rfl
      exact UInt8.not_lt_zero hr
    by_cases hz : s.slots.get i = 0
    · have hset := Slots.nonZero_set i.isLt hz hne
      simp only [Sketch.raise, hz, if_true, hs.counted]
      exact hset.symm
    · have hset := Slots.nonZero_set_of_ne i.isLt hz hne
      simp only [Sketch.raise, hz, if_false, hs.counted]
      exact hset.symm

theorem Valid.addHash (hs : s.Valid) (h : UInt32) : (s.addHash h).1.Valid := by
  unfold Sketch.addHash
  split
  · rename_i hr
    exact hs.raise hr (rankOf_le h)
  · exact hs

theorem revision_raise {i : Fin 256} {rank : UInt8} (hr : s.slots.get i < rank)
    (hmax : rank ≤ maxRank) (hp : s.pending.toInt < 2 ^ 63 - 1) :
    Revision 0 s (s.raise i rank) := by
  have hadd : (s.raise i rank).pending.toInt = s.pending.toInt + 1 := toInt_pending_add_one hp
  have htotal := total_raise hr
  refine ⟨rfl, rfl, id, ?_, (·.raise hr hmax), by omega, ?_, ?_⟩
  · intro j
    rw [raise, vector_get_set]
    split
    · rename_i hji
      rw [hji]
      exact UInt8.le_of_lt hr
    · exact UInt8.le_refl _
  · rw [hadd]
    change _ + ((s.total + if s.deleted then 1 else 0 : Nat) : Int) ≤
      _ + (((s.raise i rank).total + if s.deleted then 1 else 0 : Nat) : Int) + _
    omega
  · intro he
    omega

theorem revision_unwritten (s : Sketch) (bucket : Option UInt64) (waiters : List Ticket) :
    Revision 0 s { s with bucket, waiters } where
  key := rfl
  shard := rfl
  deleted := id
  slots := fun _ => UInt8.le_refl _
  valid := fun hs => ⟨hs.bounded, hs.counted⟩
  pending := Int.le_refl _
  counted := by simp [merit, total]
  clean := fun _ => ⟨rfl, rfl, rfl, rfl⟩

/-- A new expiry, or none at all, is the one mutation that has no merit. -/
theorem revision_renew (hp : s.pending.toInt < 2 ^ 63 - 1) (expiresAt : UInt64) :
    Revision 1 s { s with expiresAt, pending := s.pending + 1 } where
  key := rfl
  shard := rfl
  deleted := id
  slots := fun _ => UInt8.le_refl _
  valid := fun hs => ⟨hs.bounded, hs.counted⟩
  pending := by rw [toInt_pending_add_one hp]; omega
  counted := by
    rw [toInt_pending_add_one hp]
    simp only [merit, total]
    omega
  clean := by
    intro he
    rw [toInt_pending_add_one hp] at he
    omega

theorem revision_retire (hp : s.pending.toInt < 2 ^ 63 - 1) (hlive : s.deleted = false)
    (waiters : List Ticket) :
    Revision 0 s { s with deleted := true, bucket := none, waiters, pending := s.pending + 1 } where
  key := rfl
  shard := rfl
  deleted := fun _ => rfl
  slots := fun _ => UInt8.le_refl _
  valid := fun hs => ⟨hs.bounded, hs.counted⟩
  pending := by rw [toInt_pending_add_one hp]; omega
  counted := by
    rw [toInt_pending_add_one hp]
    simp only [merit, total, hlive]
    push_cast
    simp
    omega
  clean := by
    intro he
    rw [toInt_pending_add_one hp] at he
    omega

theorem revision_addHash (hp : s.pending.toInt < 2 ^ 63 - 1) : Revision 0 s (s.addHash h).1 := by
  unfold addHash
  split
  · rename_i hr
    exact revision_raise hr (rankOf_le h) hp
  · exact .refl s

/-- A hash answers `true` and 1 exactly if it made a clean sketch dirty. -/
theorem addHash_dirtied (hp : s.pending.toInt < 2 ^ 63 - 1) (hp' : 0 ≤ s.pending.toInt) :
    ((s.addHash h).2.2 && (s.addHash h).2.1 == 1) =
      decide (s.pending = 0 ∧ (s.addHash h).1.pending ≠ 0) := by
  have hadd := toInt_pending_add_one hp
  unfold addHash
  split
  · have hone : s.pending + 1 = 1 ↔ s.pending = 0 := by
      rw [← Int64.toInt_inj, ← Int64.toInt_inj, hadd]
      simp only [Int64.toInt_one, Int64.toInt_zero]
      omega
    have hne : s.pending + 1 ≠ 0 := by
      intro h
      rw [h, Int64.toInt_zero] at hadd
      omega
    have hraise : (s.raise (slotOf h) (rankOf h)).pending = s.pending + 1 := rfl
    simp only [hraise, Bool.true_and, ne_eq, hne, not_false_eq_true, and_true]
    rw [Bool.eq_iff_iff, beq_iff_eq, hone, decide_eq_true_iff]
  · simp

theorem addHash_slots_ne_empty (s : Sketch) (h : UInt32) : (s.addHash h).1.slots ≠ .empty := by
  have hrank := rankOf_pos h
  have hslot : rankOf h ≤ (s.addHash h).1.slots.get (slotOf h) := by
    unfold addHash
    split
    · rw [raise, vector_get_set, if_pos rfl]
      exact UInt8.le_refl _
    · rename_i hr
      exact UInt8.not_lt.1 hr
  intro he
  rw [he] at hslot
  rw [Slots.get_empty] at hslot
  exact UInt8.not_lt.2 hslot hrank

end DistinctCount.Sketch
