import Mathlib.Tactic
import DistinctCount.Slots.Packed

namespace DistinctCount.Packed

variable {p q : Packed} {i j : Fin 256} {r : UInt8} {n t : Nat}

/-- The bit at a place of the packed form, counted from the lowest bit of the first byte. -/
def bit (p : Packed) (n : Nat) : Bool :=
  (p[n / 8]?.getD 0).toBitVec.getLsbD (n % 8)

theorem getLsbD_mask (t : Nat) : (31#8).getLsbD t = decide (t < 5) := by
  by_cases h : t < 8
  · interval_cases t <;> rfl
  · rw [BitVec.getLsbD_of_ge _ _ (Nat.le_of_not_lt h)]
    exact (decide_eq_false (by omega)).symm

theorem getLsbD_shiftRight {a : UInt8} {b : Nat} (hb : b < 8) (t : Nat) :
    (a >>> UInt8.ofNat b).toBitVec.getLsbD t = a.toBitVec.getLsbD (b + t) := by
  simp [Nat.mod_eq_of_lt hb]

theorem getLsbD_shiftLeft {a : UInt8} {b : Nat} (hb : b < 8) (t : Nat) :
    (a <<< UInt8.ofNat b).toBitVec.getLsbD t =
      (decide (t < 8) && !decide (t < b) && a.toBitVec.getLsbD (t - b)) := by
  simp [Nat.mod_eq_of_lt hb]

theorem eight_sub {b : Nat} (hb : b ≤ 8) : 8 - UInt8.ofNat b = UInt8.ofNat (8 - b) := by
  interval_cases b <;> rfl

theorem getLsbD_byte {k : Nat} (hk : k < 160) {b : Nat} (hb : b < 8) :
    p[k].toBitVec.getLsbD b = p.bit (8 * k + b) := by
  have hd : (8 * k + b) / 8 = k := by omega
  have hm : (8 * k + b) % 8 = b := by omega
  rw [bit, hd, hm, Vector.getElem?_eq_getElem hk, Option.getD_some]

theorem byteOf_bitOf (i : Fin 256) : 8 * byteOf i + bitOf i = 5 * i.val := by
  unfold byteOf bitOf
  omega

theorem bitOf_lt (i : Fin 256) : bitOf i < 8 := by
  unfold bitOf
  omega

theorem getLsbD_get (p : Packed) (i : Fin 256) (t : Nat) :
    (p.get i).toBitVec.getLsbD t = (decide (t < 5) && p.bit (5 * i.val + t)) := by
  have hb := bitOf_lt i
  have hk := byteOf_lt i
  have hpos := byteOf_bitOf i
  have hmask (x : UInt8) : (x &&& 31).toBitVec.getLsbD t =
      (decide (t < 5) && x.toBitVec.getLsbD t) := by
    simp [getLsbD_mask, Bool.and_comm]
  by_cases ht : t < 5
  · unfold get
    split
    · rename_i h
      simp only [hmask, ht, decide_true, Bool.true_and, getLsbD_shiftRight hb]
      rw [getLsbD_byte hk (by omega), ← hpos, Nat.add_assoc]
    · rename_i h
      have hk' := byteOf_succ_lt i h
      simp only [hmask, ht, decide_true, Bool.true_and, UInt8.toBitVec_or, BitVec.getLsbD_or,
        getLsbD_shiftRight hb, eight_sub (Nat.le_of_lt hb), getLsbD_shiftLeft (b := 8 - bitOf i) (by omega)]
      by_cases hlow : bitOf i + t < 8
      · rw [getLsbD_byte hk hlow, ← hpos, Nat.add_assoc]
        have : t < 8 - bitOf i := by omega
        simp [this]
      · rw [BitVec.getLsbD_of_ge _ (bitOf i + t) (by omega),
          getLsbD_byte hk' (b := t - (8 - bitOf i)) (by omega)]
        have : ¬ t < 8 - bitOf i := by omega
        have h8 : t < 8 := by omega
        simp only [h8, this, decide_true, decide_false, Bool.not_false, Bool.true_and, Bool.false_or]
        congr 1
        omega
  · unfold get
    split <;> simp only [hmask, ht, decide_false, Bool.false_and]

theorem getLsbD_low {a : UInt8} {b m : Nat} (hb : b < 8) (hm : m < 8) :
    ((a &&& ~~~ (31 <<< UInt8.ofNat b)) ||| (r &&& 31) <<< UInt8.ofNat b).toBitVec.getLsbD m =
      if b ≤ m ∧ m < b + 5 then r.toBitVec.getLsbD (m - b) else a.toBitVec.getLsbD m := by
  simp only [UInt8.toBitVec_or, UInt8.toBitVec_and, UInt8.toBitVec_not, BitVec.getLsbD_or,
    BitVec.getLsbD_and, BitVec.getLsbD_not, getLsbD_shiftLeft hb, UInt8.toBitVec_ofNat, getLsbD_mask,
    hm, decide_true, Bool.true_and]
  by_cases h : b ≤ m ∧ m < b + 5
  · have h1 : ¬ m < b := by omega
    have h2 : m - b < 5 := by omega
    simp [h, h1, h2]
  · have h1 : m < b ∨ ¬ m - b < 5 := by omega
    rcases h1 with h1 | h1 <;> simp [h, h1]

theorem getLsbD_high {a : UInt8} {b m : Nat} (hb : b < 8) (hm : m < 8) :
    ((a &&& ~~~ (31 >>> UInt8.ofNat b)) ||| (r &&& 31) >>> UInt8.ofNat b).toBitVec.getLsbD m =
      if b + m < 5 then r.toBitVec.getLsbD (b + m) else a.toBitVec.getLsbD m := by
  simp only [UInt8.toBitVec_or, UInt8.toBitVec_and, UInt8.toBitVec_not, BitVec.getLsbD_or,
    BitVec.getLsbD_and, BitVec.getLsbD_not, getLsbD_shiftRight hb, UInt8.toBitVec_ofNat, getLsbD_mask,
    hm, decide_true, Bool.true_and]
  by_cases h : b + m < 5 <;> simp [h]

theorem bit_set (p : Packed) (i : Fin 256) (r : UInt8) (n : Nat) :
    (p.set i r).bit n =
      if 5 * i.val ≤ n ∧ n < 5 * i.val + 5 then r.toBitVec.getLsbD (n - 5 * i.val) else p.bit n := by
  have hb := bitOf_lt i
  have hk := byteOf_lt i
  have hpos := byteOf_bitOf i
  have hm : n % 8 < 8 := Nat.mod_lt _ (by decide)
  unfold set
  split
  · rename_i h
    simp only [bit, Vector.getElem?_set]
    split
    · rename_i hn
      rw [Option.getD_some, getLsbD_low hb hm, ← hn, Vector.getElem?_eq_getElem hk, Option.getD_some]
      have hc : (bitOf i ≤ n % 8 ∧ n % 8 < bitOf i + 5) ↔ (5 * i.val ≤ n ∧ n < 5 * i.val + 5) := by omega
      simp only [hc]
      have hs : n % 8 - bitOf i = n - 5 * i.val := by omega
      rw [hs]
    · rename_i hn
      rw [if_neg (by omega)]
  · rename_i h
    have hk' := byteOf_succ_lt i h
    have hb' : 8 - bitOf i < 8 := by omega
    simp only [bit, Vector.getElem?_set, eight_sub (Nat.le_of_lt hb)]
    split
    · rename_i hn
      rw [Option.getD_some, getLsbD_high hb' hm, ← hn, Vector.getElem?_eq_getElem hk', Option.getD_some]
      have hc : 8 - bitOf i + n % 8 < 5 ↔ (5 * i.val ≤ n ∧ n < 5 * i.val + 5) := by omega
      simp only [hc]
      have hs : 8 - bitOf i + n % 8 = n - 5 * i.val := by omega
      rw [hs]
    · split
      · rename_i hn' hn
        rw [Option.getD_some, getLsbD_low hb hm, ← hn, Vector.getElem?_eq_getElem hk, Option.getD_some]
        have hc : (bitOf i ≤ n % 8 ∧ n % 8 < bitOf i + 5) ↔ (5 * i.val ≤ n ∧ n < 5 * i.val + 5) := by omega
        simp only [hc]
        have hs : n % 8 - bitOf i = n - 5 * i.val := by omega
        rw [hs]
      · rename_i hn' hn
        rw [if_neg (by omega)]

theorem ext_getLsbD {a b : UInt8} (h : ∀ t < 8, a.toBitVec.getLsbD t = b.toBitVec.getLsbD t) :
    a = b := by
  apply UInt8.toBitVec_inj.1
  exact BitVec.eq_of_getLsbD_eq h

theorem get_set (p : Packed) (i j : Fin 256) (r : UInt8) :
    (p.set i r).get j = if i = j then r &&& 31 else p.get j := by
  apply ext_getLsbD
  intro t ht
  rw [getLsbD_get, bit_set]
  by_cases hij : i = j
  · subst hij
    by_cases ht' : t < 5
    · simp [ht', getLsbD_mask]
    · simp [ht', getLsbD_mask]
  · rw [if_neg hij, getLsbD_get]
    by_cases ht' : t < 5
    · have hne : i.val ≠ j.val := fun h => hij (Fin.ext h)
      rw [if_neg (by omega)]
    · simp [ht']

/-- Slots that are written one after the other hold what was written, in whatever order. -/
theorem get_foldl_set (ranks : Fin 256 → UInt8) (l : List (Fin 256)) (p : Packed) (j : Fin 256) :
    (l.foldl (fun p i => p.set i (ranks i)) p).get j = if j ∈ l then ranks j &&& 31 else p.get j := by
  induction l generalizing p with
  | nil => simp
  | cons i l ih =>
    rw [List.foldl_cons, ih, get_set]
    by_cases hj : j ∈ l
    · simp [hj]
    · by_cases hij : i = j
      · simp [hj, hij]
      · simp [hj, hij, Ne.symm hij]

theorem get_ofSlots (s : Slots) (j : Fin 256) : (ofSlots s).get j = Vector.get s j &&& 31 := by
  rw [ofSlots, get_foldl_set, if_pos (List.mem_finRange j)]

/-- The packed form is determined by its bits, and these by the slots. -/
theorem eq_of_get (h : ∀ i, p.get i = q.get i) : p = q := by
  have hbit : ∀ n < 1280, p.bit n = q.bit n := by
    intro n hn
    have hslot := congrArg (·.toBitVec.getLsbD (n % 5)) (h ⟨n / 5, by omega⟩)
    simpa only [getLsbD_get, Nat.div_add_mod, Nat.mod_lt n (by decide : 5 > 0), decide_true,
      Bool.true_and] using hslot
  apply Vector.ext
  intro k hk
  apply ext_getLsbD
  intro t ht
  rw [getLsbD_byte hk ht, getLsbD_byte hk ht]
  exact hbit _ (by omega)

theorem and_eq_mod (r : UInt8) : r &&& 31 = r % 32 := by
  apply UInt8.toNat_inj.1
  rw [UInt8.toNat_and, UInt8.toNat_mod]
  exact Nat.and_two_pow_sub_one_eq_mod r.toNat 5

theorem get_and_mask (p : Packed) (i : Fin 256) : p.get i &&& 31 = p.get i := by
  apply ext_getLsbD
  intro t _
  simp only [UInt8.toBitVec_and, BitVec.getLsbD_and, UInt8.toBitVec_ofNat, getLsbD_mask, getLsbD_get]
  cases decide (t < 5) <;> simp

end DistinctCount.Packed
