import Mathlib.Data.Nat.Digits.Lemmas
import Mathlib.Tactic
import DistinctCount.Hash.LittleEndian

namespace DistinctCount.Hash

open Function

section Width

variable {w n : Nat}

theorem mul_injective_of_odd {c : BitVec w} (hc : Odd c.toNat) :
    Injective fun x : BitVec w => x * c := by
  intro x y h
  have hmod : x.toNat * c.toNat ≡ y.toNat * c.toNat [MOD 2 ^ w] := by
    have hnat := congrArg BitVec.toNat h
    simpa only [BitVec.toNat_mul, Nat.ModEq] using hnat
  have hcoprime : Nat.gcd (2 ^ w) c.toNat = 1 := (Nat.coprime_two_left.2 hc).pow_left w
  exact BitVec.eq_of_toNat_eq
    ((hmod.cancel_right_of_coprime hcoprime).eq_of_lt_of_lt x.isLt y.isLt)

/-- Two words with the same image differ by a word that is its own shift, and only zero is. -/
theorem xor_shiftRight_injective (hn : 0 < n) : Injective fun x : BitVec w => x ^^^ x >>> n := by
  intro x y h
  have hself : x ^^^ y = (x ^^^ y) >>> n := by
    have hzero : x ^^^ x >>> n ^^^ (y ^^^ y >>> n) = 0#w := BitVec.xor_eq_zero_iff.2 h
    rw [BitVec.ushiftRight_xor_distrib]
    refine BitVec.xor_eq_zero_iff.1 (Eq.trans ?_ hzero)
    ac_rfl
  have hnat : (x ^^^ y).toNat = (x ^^^ y).toNat / 2 ^ n := by
    conv_lhs => rw [hself, BitVec.toNat_ushiftRight, Nat.shiftRight_eq_div_pow]
  have hzero : (x ^^^ y).toNat = 0 := by
    by_contra hpos
    have hlt := Nat.div_lt_self (Nat.pos_of_ne_zero hpos) (Nat.one_lt_two_pow hn.ne')
    omega
  exact BitVec.xor_eq_zero_iff.1 (BitVec.eq_of_toNat_eq hzero)

theorem rotateLeft_injective (n : Nat) : Injective fun x : BitVec w => x.rotateLeft n := by
  intro x y h
  refine BitVec.eq_of_getLsbD_eq fun i hi => ?_
  have hr : n % w < w := Nat.mod_lt n (by omega)
  -- the place that the bit has come to
  have hbit := congrArg (fun z : BitVec w => z.getLsbD (if i + n % w < w then i + n % w
    else i + n % w - w)) h
  simp only [BitVec.getLsbD_rotateLeft] at hbit
  by_cases hlow : i + n % w < w
  · have hnot : ¬ i + n % w < n % w := by omega
    simpa [hlow, hnot] using hbit
  · have hwrap : i + n % w - w < n % w := by omega
    have hback : w - n % w + (i + n % w - w) = i := by omega
    simpa [hlow, hwrap, hback] using hbit

end Width

theorem injective32 {f : UInt32 → UInt32} {g : BitVec 32 → BitVec 32} (hg : Injective g)
    (h : ∀ x, (f x).toBitVec = g x.toBitVec) : Injective f := by
  intro x y hxy
  refine UInt32.toBitVec_inj.1 (hg ?_)
  rw [← h, ← h, hxy]

theorem injective64 {f : UInt64 → UInt64} {g : BitVec 64 → BitVec 64} (hg : Injective g)
    (h : ∀ x, (f x).toBitVec = g x.toBitVec) : Injective f := by
  intro x y hxy
  refine UInt64.toBitVec_inj.1 (hg ?_)
  rw [← h, ← h, hxy]

theorem mul_injective32 {c : UInt32} (hc : Odd c.toNat) : Injective fun x : UInt32 => x * c :=
  injective32 (mul_injective_of_odd hc) fun _ => rfl

theorem mul_injective64 {c : UInt64} (hc : Odd c.toNat) : Injective fun x : UInt64 => x * c :=
  injective64 (mul_injective_of_odd hc) fun _ => rfl

/-! ### Bytes of a word -/

/-- The number whose digits to the base 256 are the bytes, the least significant first. -/
def valueOf (bytes : List UInt8) : Nat :=
  Nat.ofDigits 256 (bytes.map UInt8.toNat)

variable {s t : List UInt8}

theorem valueOf_cons (b : UInt8) (bytes : List UInt8) :
    valueOf (b :: bytes) = b.toNat + 256 * valueOf bytes := by
  rw [valueOf, List.map_cons, Nat.ofDigits_cons]
  rfl

theorem lt_of_mem_digits {d : Nat} (hd : d ∈ s.map UInt8.toNat) : d < 256 := by
  obtain ⟨b, -, rfl⟩ := List.mem_map.1 hd
  exact b.toNat_lt

theorem valueOf_lt (bytes : List UInt8) : valueOf bytes < 256 ^ bytes.length := by
  have hlt := Nat.ofDigits_lt_base_pow_length (b := 256) (by decide) fun d => lt_of_mem_digits (s := bytes)
  rwa [List.length_map] at hlt

theorem eq_of_valueOf (hlength : s.length = t.length) (h : valueOf s = valueOf t) : s = t := by
  have hdigits : s.map UInt8.toNat = t.map UInt8.toNat :=
    Nat.ofDigits_inj_of_len_eq (by decide) (by rw [List.length_map, List.length_map, hlength])
      (fun _ => lt_of_mem_digits) (fun _ => lt_of_mem_digits) h
  exact List.map_injective_iff.2 (fun _ _ => UInt8.toNat_inj.1) hdigits

theorem valueOf_shiftLeft_lt {width : Nat} (hs : s.length < width) :
    valueOf s <<< 8 < 256 ^ width := by
  have hfull : 256 ^ (s.length + 1) ≤ 256 ^ width := Nat.pow_le_pow_right (by decide) hs
  have hlt := valueOf_lt s
  rw [Nat.pow_succ] at hfull
  rw [Nat.shiftLeft_eq]
  omega

theorem or_shiftLeft_eq (b : UInt8) (n : Nat) : b.toNat ||| n <<< 8 = b.toNat + 256 * n := by
  have hdisjoint := Nat.shiftLeft_add_eq_or_of_lt (i := 8) b.toNat_lt n
  rw [Nat.or_comm, ← hdisjoint, Nat.shiftLeft_eq]
  omega

theorem toNat_littleEndian32 (hs : s.length ≤ 4) : (littleEndian32 s).toNat = valueOf s := by
  induction s with
  | nil => rfl
  | cons b s ih =>
    rw [List.length_cons] at hs
    have hrest := ih (by omega)
    rw [littleEndian32, UInt32.toNat_or, UInt32.toNat_shiftLeft, UInt8.toNat_toUInt32, hrest,
      valueOf_cons, ← or_shiftLeft_eq]
    exact congrArg _ (Nat.mod_eq_of_lt (valueOf_shiftLeft_lt hs))

theorem toNat_littleEndian64 (hs : s.length ≤ 8) : (littleEndian64 s).toNat = valueOf s := by
  induction s with
  | nil => rfl
  | cons b s ih =>
    rw [List.length_cons] at hs
    have hrest := ih (by omega)
    rw [littleEndian64, UInt64.toNat_or, UInt64.toNat_shiftLeft, UInt8.toNat_toUInt64, hrest,
      valueOf_cons, ← or_shiftLeft_eq]
    exact congrArg _ (Nat.mod_eq_of_lt (valueOf_shiftLeft_lt hs))

theorem eq_of_littleEndian32 (hs : s.length ≤ 4) (hlength : s.length = t.length)
    (h : littleEndian32 s = littleEndian32 t) : s = t := by
  refine eq_of_valueOf hlength ?_
  rw [← toNat_littleEndian32 hs, ← toNat_littleEndian32 (hlength ▸ hs), h]

theorem eq_of_littleEndian64 (hs : s.length ≤ 8) (hlength : s.length = t.length)
    (h : littleEndian64 s = littleEndian64 t) : s = t := by
  refine eq_of_valueOf hlength ?_
  rw [← toNat_littleEndian64 hs, ← toNat_littleEndian64 (hlength ▸ hs), h]

end DistinctCount.Hash
