import DistinctCount.Sketch.Estimate
import DistinctCount.Proofs.Sketch.Revision

namespace DistinctCount.Sketch

variable {s : Sketch} {h : UInt32} {hashes others : List UInt32}

theorem slotOf_val (h : UInt32) : (slotOf h).val = (h >>> 24).toNat := by
  simp [slotOf, Nat.shiftRight_eq_div_pow]

/-- The zeros that the low 24 bits of a hash begin with, which are all 24 if there is no one. -/
def leadingZeros (h : UInt32) : Nat :=
  (h.toBitVec.setWidth 24).clz.toNat

theorem toNat_rankOf (h : UInt32) : (rankOf h).toNat = 1 + leadingZeros h := by
  let low := h.toBitVec.setWidth 24
  have hlow : low.toNat = h.toNat % 0x1000000 := BitVec.toNat_setWidth ..
  have hle : low.clz.toNat ≤ 24 := BitVec.clz_le
  change _ = 1 + low.clz.toNat
  unfold rankOf
  dsimp only
  split
  · rename_i hz
    have hzero : low = 0#24 := BitVec.eq_of_toNat_eq (hlow.trans hz)
    rw [BitVec.clz_eq_iff_eq_zero.2 hzero]
    rfl
  · rename_i hne
    have hnonzero : low ≠ 0#24 := by
      intro h0
      rw [h0] at hlow
      exact hne hlow.symm
    have hlt : low.clz.toNat < 24 := BitVec.clz_lt_iff_ne_zero.2 hnonzero
    -- the highest one stands behind the zeros
    have hlog : low.toNat.log2 = 23 - low.clz.toNat := by
      rw [Nat.log2_eq_iff (by rwa [hlow])]
      refine ⟨BitVec.two_pow_sub_clz_le_toNat_of_ne_zero (by decide) hnonzero, ?_⟩
      have hupper := BitVec.toNat_lt_two_pow_sub_clz (x := low)
      rwa [show 24 - low.clz.toNat = 23 - low.clz.toNat + 1 by omega] at hupper
    rw [← hlow, hlog, UInt8.toNat_ofNat']
    omega

/-- A hash raises its slot or changes nothing, and the answer tells which. -/
theorem addHash_cases (s : Sketch) (h : UInt32) :
    (s.slots.get (slotOf h) < rankOf h ∧ (s.addHash h).1 = s.raise (slotOf h) (rankOf h) ∧
      (s.addHash h).2 = ((s.addHash h).1.pending, true)) ∨
    (rankOf h ≤ s.slots.get (slotOf h) ∧ s.addHash h = (s, 0, false)) := by
  unfold addHash
  split
  · rename_i hlt
    exact .inl ⟨hlt, rfl, rfl⟩
  · rename_i hle
    exact .inr ⟨UInt8.not_lt.1 hle, rfl⟩

theorem get_addHash (s : Sketch) (h : UInt32) (i : Fin 256) : (s.addHash h).1.slots.get i =
    if slotOf h = i then max (s.slots.get i) (rankOf h) else s.slots.get i := by
  obtain ⟨hlt, heq, -⟩ | ⟨hle, heq⟩ := s.addHash_cases h
  · rw [heq, raise, vector_get_set]
    by_cases hi : i = slotOf h
    · rw [if_pos hi, if_pos hi.symm, hi]
      exact (if_pos (UInt8.le_of_lt hlt)).symm
    · rw [if_neg hi, if_neg (Ne.symm hi)]
  · rw [heq]
    split
    · rename_i hi
      rw [hi] at hle
      change _ = if s.slots.get i ≤ rankOf h then _ else _
      split
      · rename_i hrank
        exact UInt8.le_antisymm hrank hle
      · rfl
    · rfl

theorem estimate_congr {s s' : Sketch} (hslots : s.slots = s'.slots) (hcount : s.nonZero = s'.nonZero) :
    s.estimate = s'.estimate := by
  cases s
  cases s'
  cases hslots
  cases hcount
  rfl

def addHashes (s : Sketch) (hashes : List UInt32) : Sketch :=
  hashes.foldl (fun s h => (s.addHash h).1) s

def answers (s : Sketch) : List UInt32 → List (Int64 × Bool)
  | [] => []
  | h :: hashes => (s.addHash h).2 :: (s.addHash h).1.answers hashes

def raisings (s : Sketch) (hashes : List UInt32) : Nat :=
  (s.answers hashes).countP (·.2)

theorem toNat_max (a b : UInt8) : (max a b).toNat = max a.toNat b.toNat := by
  change (if a ≤ b then b else a).toNat = if a.toNat ≤ b.toNat then b.toNat else a.toNat
  simp only [apply_ite UInt8.toNat, UInt8.le_iff_toNat_le]

/-- What a slot holds depends on the set of the hashes alone. -/
theorem get_addHashes (s : Sketch) (hashes : List UInt32) (i : Fin 256) :
    ((s.addHashes hashes).slots.get i).toNat = max (s.slots.get i).toNat
      ((hashes.toFinset.filter fun h => slotOf h = i).sup fun h => (rankOf h).toNat) := by
  induction hashes generalizing s with
  | nil => exact (Nat.max_zero _).symm
  | cons h hashes ih =>
    rw [addHashes, List.foldl_cons]
    refine (ih _).trans ?_
    rw [get_addHash, List.toFinset_cons, Finset.filter_insert]
    split
    · rw [Finset.sup_insert, toNat_max]
      exact max_assoc _ _ _
    · rfl

theorem slots_addHashes_congr (s : Sketch) (hsame : ∀ h, h ∈ others ↔ h ∈ hashes) :
    (s.addHashes others).slots = (s.addHashes hashes).slots := by
  have hset : others.toFinset = hashes.toFinset := by
    ext h
    rw [List.mem_toFinset, List.mem_toFinset, hsame]
  apply Vector.ext
  intro i hi
  apply UInt8.toNat_inj.1
  change ((s.addHashes others).slots.get ⟨i, hi⟩).toNat = ((s.addHashes hashes).slots.get ⟨i, hi⟩).toNat
  rw [get_addHashes, get_addHashes, hset]

theorem Valid.addHashes (hs : s.Valid) (hashes : List UInt32) : (s.addHashes hashes).Valid := by
  induction hashes generalizing s with
  | nil => exact hs
  | cons h hashes ih => exact ih (hs.addHash h)

theorem Valid.nonZero_le (hs : s.Valid) : s.nonZero ≤ 256 := by
  rw [hs.counted, Slots.nonZero]
  exact List.countP_le_length.trans_eq (by simp)

/-- Every mutation by a hash is a slot raised, and every slot raised adds to the sum of all ranks. -/
theorem raisings_spec (s : Sketch) (hashes : List UInt32)
    (hroom : s.pending.toInt + 65280 < 2 ^ 63 - 1 + s.total) :
    (s.addHashes hashes).pending.toInt = s.pending.toInt + s.raisings hashes ∧
      s.total + s.raisings hashes ≤ (s.addHashes hashes).total := by
  induction hashes generalizing s with
  | nil => exact ⟨(Int.add_zero _).symm, Nat.le_refl _⟩
  | cons h hashes ih =>
    have hcount : s.raisings (h :: hashes) =
        (s.addHash h).1.raisings hashes + if (s.addHash h).2.2 = true then 1 else 0 :=
      List.countP_cons
    have hfold : s.addHashes (h :: hashes) = (s.addHash h).1.addHashes hashes := rfl
    rw [hfold, hcount]
    obtain ⟨hlt, heq, hanswer⟩ | ⟨-, heq⟩ := s.addHash_cases h
    · have hmax := s.total_le
      have hadd : (s.addHash h).1.pending.toInt = s.pending.toInt + 1 := by
        rw [heq]
        exact toInt_pending_add_one (by omega)
      have htotal : s.total < (s.addHash h).1.total := by
        rw [heq]
        exact total_raise hlt
      obtain ⟨hpending, hrise⟩ := ih (s.addHash h).1 (by omega)
      rw [hanswer, if_pos rfl]
      exact ⟨by omega, by omega⟩
    · rw [heq]
      exact ih s hroom

inductive Fresh : Sketch → Prop
  | new (key : String) (shard : Nat) (expiresAt : UInt64) : Fresh { key, shard, expiresAt }
  | ofBytes {key : String} {shard : Nat} {expiresAt : UInt64} {data : List UInt8} {s : Sketch} :
    ofBytes key shard expiresAt data = .ok s → Fresh s

theorem Fresh.valid (hs : s.Fresh) : s.Valid := by
  cases hs with
  | new key shard expiresAt => exact valid_new key shard expiresAt false
  | ofBytes h => exact valid_ofBytes h

theorem Fresh.pending_eq (hs : s.Fresh) : s.pending = 0 := by
  cases hs with
  | new => rfl
  | ofBytes h =>
    obtain ⟨d, -, rfl⟩ := ofBytes_eq_ok.1 h
    rfl

/--
A sketch is the pointwise maximum of the hashes that it has counted since it was made or read. So their
order and their repetition do not matter, no slot is above 25, and the slots in use are counted. Each
hash raises a slot and is answered with the new count of unwritten mutations, or it changes nothing.
The mutations are as many as the raises, and no more than the slots have gained.
-/
theorem maximum_of_hashes (hs : s.Fresh) (hashes : List UInt32) :
    (∀ i : Fin 256, ((s.addHashes hashes).slots.get i).toNat = max (s.slots.get i).toNat
      ((hashes.toFinset.filter fun h : UInt32 => (h >>> 24).toNat = i.val).sup
        fun h => 1 + leadingZeros h)) ∧
    (∀ others : List UInt32, (∀ h, h ∈ others ↔ h ∈ hashes) →
      (s.addHashes others).slots = (s.addHashes hashes).slots ∧
      (s.addHashes others).nonZero = (s.addHashes hashes).nonZero ∧
      (s.addHashes others).toBytes = (s.addHashes hashes).toBytes ∧
      (s.addHashes others).estimate = (s.addHashes hashes).estimate) ∧
    (∀ i : Fin 256, ((s.addHashes hashes).slots.get i).toNat ≤ 25) ∧
    (s.addHashes hashes).nonZero = (s.addHashes hashes).slots.nonZero ∧
    (s.addHashes hashes).nonZero ≤ 256 ∧
    (∀ h, (∃ i, (s.addHashes hashes).slots.get i < ((s.addHashes hashes).addHash h).1.slots.get i) ∧
        ((s.addHashes hashes).addHash h).2 = (((s.addHashes hashes).addHash h).1.pending, true) ∨
      (s.addHashes hashes).addHash h = (s.addHashes hashes, 0, false)) ∧
    (s.addHashes hashes).pending.toInt = s.pending.toInt + s.raisings hashes ∧
    s.total + s.raisings hashes ≤ (s.addHashes hashes).total := by
  have hvalid := hs.valid.addHashes hashes
  obtain ⟨hpending, hrise⟩ := s.raisings_spec hashes (by
    rw [hs.pending_eq, Int64.toInt_zero]
    omega)
  refine ⟨?_, ?_, ?_, hvalid.counted, hvalid.nonZero_le, ?_, hpending, hrise⟩
  · intro i
    simp only [get_addHashes, toNat_rankOf, Fin.ext_iff, slotOf_val]
  · intro others hsame
    have hslots := slots_addHashes_congr s hsame
    have hcount : (s.addHashes others).nonZero = (s.addHashes hashes).nonZero := by
      rw [(hs.valid.addHashes others).counted, hslots, hvalid.counted]
    exact ⟨hslots, hcount, by rw [toBytes, toBytes, hslots, hcount], estimate_congr hslots hcount⟩
  · intro i
    exact UInt8.le_iff_toNat_le.1 (hvalid.bounded i)
  · intro h
    refine ((s.addHashes hashes).addHash_cases h).imp ?_ And.right
    rintro ⟨hlt, heq, hanswer⟩
    refine ⟨⟨slotOf h, ?_⟩, hanswer⟩
    rwa [heq, raise, vector_get_set, if_pos rfl]

/-- Slot 2 holds 7. Of the hashes for it one is too low and another comes twice. -/
theorem maximum_of_hashes_sample :
    ∃ s : Sketch, ofBytes "k" 3 0 [1, 2, 7] = .ok s ∧
      ((s.addHashes [0x02ffffff, 0x02000001, 0x05000000, 0x02000001]).slots.get 2).toNat = 24 ∧
      (s.addHashes [0x05000000, 0x02000001, 0x02ffffff]).toBytes =
        (s.addHashes [0x02ffffff, 0x02000001, 0x05000000, 0x02000001]).toBytes ∧
      (s.addHashes [0x02ffffff, 0x02000001, 0x05000000, 0x02000001]).pending.toInt = 2 := by
  have hsame : ∀ h : UInt32, h ∈ [0x05000000, 0x02000001, 0x02ffffff] ↔
      h ∈ [0x02ffffff, 0x02000001, 0x05000000, 0x02000001] := by
    intro h
    simp only [List.mem_cons, List.not_mem_nil, or_false]
    tauto
  have hsample : (ofBytes "k" 3 0 [1, 2, 7]).toOption.map (fun s => (s.slots.get 2, s.pending,
      s.raisings [0x02ffffff, 0x02000001, 0x05000000, 0x02000001])) = some (7, 0, 2) := by
    decide +kernel
  cases hread : ofBytes "k" 3 0 [1, 2, 7] with
  | error e =>
    rw [hread] at hsample
    exact absurd hsample nofun
  | ok s =>
    rw [hread] at hsample
    obtain ⟨hseven, hcount⟩ := Prod.mk.inj (Option.some.inj hsample)
    obtain ⟨hclean, hraised⟩ := Prod.mk.inj hcount
    obtain ⟨hslots, hset, -, -, -, -, hpending, -⟩ :=
      maximum_of_hashes (.ofBytes hread) [0x02ffffff, 0x02000001, 0x05000000, 0x02000001]
    refine ⟨s, rfl, ?_, (hset _ hsame).2.2.1, ?_⟩
    · rw [hslots, hseven]
      decide +kernel
    · rw [hpending, hclean, hraised]
      rfl

end DistinctCount.Sketch
