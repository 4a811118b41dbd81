import Mathlib.Tactic
import DistinctCount.Proofs.Slots.Packed

/-!
Slots read and written in place, in a buffer of bytes of any length. The part of a slot that lies in one
byte and the part in the byte after it have masks of their own, and every access may miss the buffer. In
a buffer of 160 bytes none does for the 256 slots, what is read and written is that of the packed form,
and the slots are independent of each other and determine the buffer.
-/

namespace DistinctCount.Packed

variable {k t w : Nat}

/-- How many bits of slot `i` lie in its first byte. -/
def lowWidth (i : Nat) : Nat := min 5 (8 - 5 * i % 8)

def highWidth (i : Nat) : Nat := 5 - lowWidth i

def mask (width : Nat) : UInt16 := (1 <<< UInt16.ofNat width) - 1

def lowPart (byte : UInt8) (i : Nat) : UInt16 :=
  byte.toUInt16 >>> UInt16.ofNat (5 * i % 8) &&& mask (lowWidth i)

def highPart (byte : UInt8) (i : Nat) : UInt16 :=
  (byte.toUInt16 &&& mask (highWidth i)) <<< UInt16.ofNat (lowWidth i)

/-- Reads slot `i`, each part from its own byte; nothing if a byte is beyond the buffer. -/
def read? (data : List UInt8) (i : Nat) : Option UInt8 := do
  let first ← data[5 * i / 8]?
  if highWidth i = 0 then
    return (lowPart first i).toUInt8
  let second ← data[5 * i / 8 + 1]?
  return (lowPart first i ||| highPart second i).toUInt8

def change? (data : List UInt8) (k : Nat) (f : UInt8 → UInt8) : Option (List UInt8) := do
  let byte ← data[k]?
  return data.set k (f byte)

/-- Clears each part of slot `i` in its own byte and sets it to that of `rank`; nothing if a byte is beyond
the buffer. -/
def write? (data : List UInt8) (i : Nat) (rank : UInt8) : Option (List UInt8) := do
  let bit := UInt8.ofNat (5 * i % 8)
  let lowMask := (mask (lowWidth i)).toUInt8
  let highMask := (mask (highWidth i)).toUInt8
  let data ← change? data (5 * i / 8) (· &&& ~~~ (lowMask <<< bit))
  let data ← change? data (5 * i / 8) (· ||| (rank &&& lowMask) <<< bit)
  if highWidth i = 0 then
    return data
  let data ← change? data (5 * i / 8 + 1) (· &&& ~~~ highMask)
  change? data (5 * i / 8 + 1) (· ||| rank >>> UInt8.ofNat (lowWidth i) &&& highMask)

theorem lowWidth_le (i : Nat) : lowWidth i ≤ 5 :=
  Nat.min_le_left 5 _

theorem highWidth_le (i : Nat) : highWidth i ≤ 5 :=
  Nat.sub_le 5 _

theorem lowWidth_eq (i : Fin 256) : lowWidth i = min 5 (8 - bitOf i) :=
  rfl

/-- A slot lies in one byte, or it goes on to the end of its first byte and has its rest in the next. -/
theorem widths (i : Fin 256) : highWidth i = 0 ∧ lowWidth i = 5 ∧ bitOf i ≤ 3 ∨
    highWidth i = bitOf i - 3 ∧ lowWidth i = 8 - bitOf i ∧ ¬ bitOf i ≤ 3 := by
  have hb := bitOf_lt i
  have hlow := lowWidth_eq i
  have hhigh : highWidth i = 5 - lowWidth i := rfl
  omega

/-! ### Bits of the parts -/

theorem getLsbD_mask16 (hw : w ≤ 5) (t : Nat) : (mask w).toBitVec.getLsbD t = decide (t < w) := by
  have hvalue : (mask w).toNat = 2 ^ w - 1 := by interval_cases w <;> rfl
  have h := Nat.testBit_two_pow_sub_one w t
  rwa [← hvalue] at h

theorem getLsbD_toUInt16 (a : UInt8) (t : Nat) :
    a.toUInt16.toBitVec.getLsbD t = a.toBitVec.getLsbD t := by
  rw [UInt8.toBitVec_toUInt16, BitVec.getLsbD_setWidth]
  by_cases ht : t < 16
  · rw [decide_eq_true ht, Bool.true_and]
  · rw [decide_eq_false ht, Bool.false_and, BitVec.getLsbD_of_ge _ _ (by omega)]

theorem getLsbD_lowPart (p : Packed) (i : Fin 256) (hk : byteOf i < 160) (t : Nat) :
    (lowPart p[byteOf i] i).toBitVec.getLsbD t =
      (decide (t < lowWidth i) && p.bit (5 * i.val + t)) := by
  have hb := bitOf_lt i
  have hshift (x : UInt16) : (x >>> UInt16.ofNat (bitOf i)).toBitVec.getLsbD t =
      x.toBitVec.getLsbD (bitOf i + t) := by
    have hb16 : bitOf i % 16 = bitOf i := by omega
    simp [hb16]
  have hbit : 5 * i.val % 8 = bitOf i := rfl
  rw [lowPart, hbit, UInt16.toBitVec_and, BitVec.getLsbD_and, hshift, getLsbD_toUInt16,
    getLsbD_mask16 (lowWidth_le i), Bool.and_comm]
  by_cases ht : t < lowWidth i
  · have hin : bitOf i + t < 8 := by
      rw [lowWidth_eq] at ht
      omega
    rw [getLsbD_byte hk hin, ← byteOf_bitOf, Nat.add_assoc]
  · rw [decide_eq_false ht, Bool.false_and, Bool.false_and]

theorem getLsbD_highPart (p : Packed) (i : Fin 256) (h : ¬ bitOf i ≤ 3) (hk : byteOf i + 1 < 160)
    (ht : t < 8) : (highPart p[byteOf i + 1] i).toBitVec.getLsbD t =
      (decide (lowWidth i ≤ t ∧ t < 5) && p.bit (5 * i.val + t)) := by
  have hb := bitOf_lt i
  have hpos := byteOf_bitOf i
  have hwidth := widths i
  have hshift (x : UInt16) : (x <<< UInt16.ofNat (lowWidth i)).toBitVec.getLsbD t =
      (decide (t < 16) && !decide (t < lowWidth i) && x.toBitVec.getLsbD (t - lowWidth i)) := by
    have hw16 : lowWidth i % 16 = lowWidth i := by omega
    simp [hw16]
  rw [highPart, hshift, UInt16.toBitVec_and, BitVec.getLsbD_and, getLsbD_toUInt16,
    getLsbD_mask16 (highWidth_le i)]
  by_cases hin : lowWidth i ≤ t ∧ t < 5
  · have hplace : 8 * (byteOf i + 1) + (t - lowWidth i) = 5 * i.val + t := by omega
    rw [getLsbD_byte hk (by omega), hplace]
    have h16 : t < 16 := by omega
    have hlow : ¬ t < lowWidth i := by omega
    have hhigh : t - lowWidth i < highWidth i := by omega
    simp [hin, h16, hlow, hhigh]
  · have hout : t < lowWidth i ∨ ¬ t - lowWidth i < highWidth i := by omega
    rcases hout with hout | hout <;> simp [hin, hout]

/-! ### Reading -/

theorem getElem?_toList (p : Packed) (hk : k < 160) : p.toList[k]? = some p[k] := by
  rw [Vector.getElem?_toList, Vector.getElem?_eq_getElem hk]

theorem getElem?_beyond (p : Packed) {n : Nat} (hn : ¬ n < 256) : p.toList[5 * n / 8]? = none := by
  rw [List.getElem?_eq_none_iff, Vector.length_toList]
  omega

theorem read?_packed (p : Packed) (i : Fin 256) : read? p.toList i = some (p.get i) := by
  have hbyte : 5 * i.val / 8 = byteOf i := rfl
  rw [read?, hbyte, getElem?_toList p (byteOf_lt i), Option.bind_eq_bind, Option.bind_some]
  rcases widths i with ⟨hhigh, hlow, -⟩ | ⟨hhigh, -, hb⟩
  · rw [if_pos hhigh]
    refine congrArg some (ext_getLsbD fun t ht => ?_)
    rw [UInt16.toBitVec_toUInt8, BitVec.getLsbD_setWidth, getLsbD_lowPart, getLsbD_get, hlow,
      decide_eq_true ht, Bool.true_and]
  · rw [if_neg (by omega), getElem?_toList p (byteOf_succ_lt i hb), Option.bind_some]
    refine congrArg some (ext_getLsbD fun t ht => ?_)
    have hparts : t < lowWidth i ∨ lowWidth i ≤ t ∧ t < 5 ↔ t < 5 := by
      have hlow := lowWidth_le i
      omega
    rw [UInt16.toBitVec_toUInt8, BitVec.getLsbD_setWidth, UInt16.toBitVec_or, BitVec.getLsbD_or,
      getLsbD_lowPart, getLsbD_highPart p i hb _ ht, getLsbD_get, decide_eq_true ht, Bool.true_and,
      ← Bool.and_or_distrib_right, ← Bool.decide_or, decide_eq_decide.2 hparts]

theorem read?_ne_none (p : Packed) (n : Nat) : read? p.toList n ≠ none ↔ n < 256 := by
  constructor
  · intro h
    by_contra hn
    rw [read?, getElem?_beyond p hn] at h
    exact h rfl
  · intro h
    rw [read?_packed p ⟨n, h⟩]
    exact Option.some_ne_none _

/-! ### Writing -/

theorem change?_packed (p : Packed) (hk : k < 160) (f : UInt8 → UInt8) :
    change? p.toList k f = some (Vector.set p k (f p[k]) hk).toList := by
  rw [change?, getElem?_toList p hk, Vector.toList_set]
  rfl

/-- Whatever the mask has beyond the first byte is shifted out of it. -/
theorem mask_shiftLeft (i : Fin 256) : (mask (lowWidth i)).toUInt8 <<< UInt8.ofNat (bitOf i) =
    31 <<< UInt8.ofNat (bitOf i) := by
  have hb := bitOf_lt i
  rw [lowWidth_eq]
  generalize bitOf i = b at hb
  interval_cases b <;> rfl

theorem mask_highWidth (i : Fin 256) :
    (mask (highWidth i)).toUInt8 = 31 >>> UInt8.ofNat (lowWidth i) := by
  have hw := lowWidth_le i
  rw [highWidth]
  generalize lowWidth i = w at hw
  interval_cases w <;> rfl

theorem write?_packed (p : Packed) (i : Fin 256) (r : UInt8) :
    write? p.toList i r = some (p.set i r).toList := by
  have hk := byteOf_lt i
  have hbyte : 5 * i.val / 8 = byteOf i := rfl
  have hbit : 5 * i.val % 8 = bitOf i := rfl
  have hrank : (r &&& (mask (lowWidth i)).toUInt8) <<< UInt8.ofNat (bitOf i) =
      (r &&& 31) <<< UInt8.ofNat (bitOf i) := by
    rw [UInt8.shiftLeft_and, mask_shiftLeft, UInt8.shiftLeft_and]
  -- what is cleared and set in one byte is one change of it
  simp only [write?, hbyte, hbit, mask_shiftLeft, hrank, change?_packed _ hk, Option.bind_eq_bind,
    Option.bind_some, Vector.getElem_set_self, Vector.set_set]
  rcases widths i with ⟨hhigh, -, hb⟩ | ⟨hhigh, hlow, hb⟩
  · rw [if_pos hhigh, set, dif_pos hb]
    rfl
  · have hk' := byteOf_succ_lt i hb
    have hshift : UInt8.ofNat (lowWidth i) = 8 - UInt8.ofNat (bitOf i) := by
      rw [hlow, eight_sub (Nat.le_of_lt (bitOf_lt i))]
    rw [if_neg (by omega), set, dif_neg hb, mask_highWidth, hshift]
    simp only [change?_packed _ hk', Option.bind_some, Vector.getElem_set_self, Vector.set_set,
      UInt8.shiftRight_and]
    rw [Vector.getElem_set_ne _ _ (by omega)]

/-- Slot 1 has its lowest bits at the end of a byte and its highest at the start of the next. -/
example : write? [0, 0] 1 40 = some [0, 1] ∧ write? [255, 255] 1 0 = some [31, 252] := by decide

theorem write?_ne_none (p : Packed) (n : Nat) (r : UInt8) :
    write? p.toList n r ≠ none ↔ n < 256 := by
  constructor
  · intro h
    by_contra hn
    simp only [write?, change?, getElem?_beyond p hn] at h
    exact h rfl
  · intro h
    rw [write?_packed p ⟨n, h⟩]
    exact Option.some_ne_none _

/-! ### Copying -/

/-- Copies slots from one buffer into another, one after the other. -/
def copy? (source target : List UInt8) (order : List (Fin 256)) : Option (List UInt8) :=
  order.foldlM (fun data (i : Fin 256) => do write? data i (← read? source i)) target

theorem copy?_packed (p q : Packed) (order : List (Fin 256)) : copy? p.toList q.toList order =
    some (order.foldl (fun out i => out.set i (p.get i)) q).toList := by
  induction order generalizing q with
  | nil => rfl
  | cons i order ih =>
    rw [List.foldl_cons, ← ih, copy?, List.foldlM_cons, read?_packed, Option.bind_eq_bind,
      Option.bind_eq_bind, Option.bind_some, write?_packed, Option.bind_some]
    rfl

theorem foldl_set_get (p q : Packed) {order : List (Fin 256)} (h : ∀ i, i ∈ order) :
    order.foldl (fun out i => out.set i (p.get i)) q = p := by
  apply eq_of_get
  intro i
  rw [get_foldl_set, if_pos (h i), get_and_mask]

/-- A slot that is written holds the rank modulo 32 and no other slot changes, all in place and with no
access beyond the 160 bytes. The slots determine the bytes: copied in any order into any other buffer,
all of them together make it the same. -/
theorem slots_independent (p q : Packed) (i : Fin 256) (r : UInt8) :
    (read? p.toList i = some (p.get i) ∧ write? p.toList i r = some (p.set i r).toList) ∧
    (∀ n, (read? p.toList n ≠ none ↔ n < 256) ∧ (write? p.toList n r ≠ none ↔ n < 256)) ∧
    (p.set i r).get i = r % 32 ∧
    (∀ j ≠ i, (p.set i r).get j = p.get j) ∧
    ((∀ j, p.get j = q.get j) → p = q) ∧
    ∀ order : List (Fin 256), (∀ j, j ∈ order) → copy? p.toList q.toList order = some p.toList := by
  refine ⟨⟨read?_packed p i, write?_packed p i r⟩, ?_, ?_, ?_, eq_of_get, ?_⟩
  · intro n
    exact ⟨read?_ne_none p n, write?_ne_none p n r⟩
  · rw [get_set, if_pos rfl, and_eq_mod]
  · intro j hj
    rw [get_set, if_neg hj.symm]
  · intro order horder
    rw [copy?_packed, foldl_set_get p q horder]

theorem slots_independent_straddling :
    let p : Packed := Vector.replicate 160 255
    write? p.toList 1 40 = some (p.set 1 40).toList ∧ (p.set 1 40).get 1 = 8 ∧
      (p.set 1 40).get 2 = 31 ∧ p = p.set 1 255 ∧
      copy? p.toList empty.toList (List.finRange 256).reverse = some p.toList := by
  intro p
  obtain ⟨⟨-, hwrite⟩, -, hself, hother, -, hcopy⟩ := slots_independent p empty 1 40
  have hdetermined := (slots_independent p (p.set 1 255) 1 40).2.2.2.2.1
  have hone : p.get 1 = 255 &&& 31 := by decide +kernel
  have htwo : p.get 2 = 31 := by decide +kernel
  have hsame (j : Fin 256) : p.get j = (p.set 1 255).get j := by
    rw [get_set]
    split
    · rename_i hj
      rw [← hj, hone]
    · rfl
  refine ⟨hwrite, hself, (hother 2 (by decide)).trans htwo, hdetermined hsame, ?_⟩
  exact hcopy _ fun j => List.mem_reverse.2 (List.mem_finRange j)

end DistinctCount.Packed
