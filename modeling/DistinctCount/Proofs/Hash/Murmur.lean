import DistinctCount.Hash.Murmur
import DistinctCount.Proofs.Hash.Word

namespace DistinctCount.Hash

open Function

/-! ### Strings that differ in one block -/

/--
Strings of one length that differ, but only in one of their aligned blocks of `width` bytes. The last block
may be shorter.
-/
structure DifferInOneBlock (width : Nat) (s t : List UInt8) : Prop where
  length_eq : s.length = t.length
  ne : s ≠ t
  same : ∃ block, ∀ i, i / width ≠ block → s[i]? = t[i]?

variable {width : Nat} {s t : List UInt8}

theorem differInOneBlock_of_length_le (hlength : s.length = t.length) (hs : s.length ≤ width)
    (hne : s ≠ t) : DifferInOneBlock width s t := by
  refine ⟨hlength, hne, 0, fun i hi => ?_⟩
  have hwide : width ≤ i := by
    by_contra hlt
    exact hi (Nat.div_eq_of_lt (Nat.lt_of_not_le hlt))
  rw [List.getElem?_eq_none (hs.trans hwide), List.getElem?_eq_none (hlength ▸ hs.trans hwide)]

theorem differInOneBlock_append (front block block' rest : List UInt8) (hwidth : 0 < width)
    (hfront : width ∣ front.length) (hlength : block.length = block'.length) (hne : block ≠ block')
    (hlast : block.length = width ∨ block.length ≤ width ∧ rest = []) :
    DifferInOneBlock width (front ++ block ++ rest) (front ++ block' ++ rest) := by
  obtain ⟨k, hk⟩ := hfront
  refine ⟨by simp only [List.length_append, hlength], ?_, k, fun i hi => ?_⟩
  · rwa [ne_eq, List.append_left_inj, List.append_right_inj]
  · rcases Nat.lt_or_gt_of_ne hi with hbefore | hafter
    · have hlt : i < front.length := by
        rw [hk, Nat.mul_comm]
        exact (Nat.div_lt_iff_lt_mul hwidth).1 hbefore
      rw [List.append_assoc, List.append_assoc, List.getElem?_append_left hlt,
        List.getElem?_append_left hlt]
    · have hle : front.length + width ≤ i := by
        rw [hk, ← Nat.mul_succ, Nat.mul_comm]
        exact (Nat.le_div_iff_mul_le hwidth).1 hafter
      have hblock : (front ++ block).length ≤ i := by
        rw [List.length_append]
        omega
      have hblock' : (front ++ block').length ≤ i := by
        rw [List.length_append, ← hlength]
        omega
      rw [List.getElem?_append_right hblock, List.getElem?_append_right hblock',
        List.length_append, List.length_append, hlength]

/-- The block at fault is the first one, or it is one of the others. -/
theorem DifferInOneBlock.split (h : DifferInOneBlock width s t) (hwidth : 0 < width) :
    (s.take width ≠ t.take width ∧ s.drop width = t.drop width) ∨
      (s.take width = t.take width ∧ DifferInOneBlock width (s.drop width) (t.drop width)) := by
  obtain ⟨block, hsame⟩ := h.same
  cases block with
  | zero =>
    have hdrop : s.drop width = t.drop width := by
      refine List.ext_getElem? fun i => ?_
      have hlater : (width + i) / width ≠ 0 := by
        rw [Nat.add_div_left i hwidth]
        exact Nat.succ_ne_zero _
      rw [List.getElem?_drop, List.getElem?_drop, hsame _ hlater]
    refine .inl ⟨fun htake => h.ne ?_, hdrop⟩
    rw [← List.take_append_drop width s, htake, hdrop, List.take_append_drop]
  | succ block =>
    have htake : s.take width = t.take width := by
      refine List.ext_getElem? fun i => ?_
      rw [List.getElem?_take, List.getElem?_take]
      split
      · rename_i hi
        have hfirst : i / width ≠ block + 1 := by
          rw [Nat.div_eq_of_lt hi]
          exact (Nat.succ_ne_zero block).symm
        exact hsame i hfirst
      · rfl
    refine .inr ⟨htake, ?_, fun hdrop => h.ne ?_, block, fun i hi => ?_⟩
    · rw [List.length_drop, List.length_drop, h.length_eq]
    · rw [← List.take_append_drop width s, htake, hdrop, List.take_append_drop]
    · have hlater : (width + i) / width ≠ block + 1 := by
        rw [Nat.add_div_left i hwidth]
        exact fun heq => hi (Nat.succ.inj heq)
      rw [List.getElem?_drop, List.getElem?_drop, hsame _ hlater]

/-! ### Hashes that take in one block after the other -/

/--
Input is taken in block by block, then what is left of it. Neither the state nor the block is lost on
the way.
-/
structure TakesBlocks {σ : Type} (width : Nat) (absorb blocks : σ → List UInt8 → σ) : Prop where
  pos : 0 < width
  append : ∀ h block rest, block.length = width →
    blocks h (block ++ rest) = blocks (absorb h block) rest
  state : ∀ block, Injective (absorb · block)
  block : ∀ h s t, s.length = width → t.length = width → absorb h s = absorb h t → s = t
  restState : ∀ rest, rest.length < width → Injective (blocks · rest)
  rest : ∀ h s t, s.length < width → s.length = t.length → blocks h s = blocks h t → s = t

namespace TakesBlocks

variable {σ : Type} {absorb blocks : σ → List UInt8 → σ}

theorem blocks_eq (hb : TakesBlocks width absorb blocks) (h : σ) (hs : width ≤ s.length) :
    blocks h s = blocks (absorb h (s.take width)) (s.drop width) := by
  conv_lhs => rw [← List.take_append_drop width s]
  exact hb.append h _ _ (List.length_take_of_le hs)

theorem injective (hb : TakesBlocks width absorb blocks) (s : List UInt8) :
    Injective (blocks · s) := by
  by_cases hs : width ≤ s.length
  · intro h h' heq
    dsimp only at heq
    rw [hb.blocks_eq h hs, hb.blocks_eq h' hs] at heq
    exact hb.state _ (hb.injective (s.drop width) heq)
  · exact hb.restState s (Nat.lt_of_not_le hs)
termination_by s.length
decreasing_by
  have := hb.pos
  rw [List.length_drop]
  omega

/-- Input that differs in one block leads from one state to two. -/
theorem ne {s t : List UInt8} (hb : TakesBlocks width absorb blocks)
    (hd : DifferInOneBlock width s t) (h : σ) : blocks h s ≠ blocks h t := by
  by_cases hs : width ≤ s.length
  · have ht : width ≤ t.length := hd.length_eq ▸ hs
    rw [hb.blocks_eq h hs, hb.blocks_eq h ht]
    rcases hd.split hb.pos with ⟨htake, hdrop⟩ | ⟨htake, hrest⟩
    · rw [hdrop]
      intro heq
      exact htake (hb.block h _ _ (List.length_take_of_le hs) (List.length_take_of_le ht)
        (hb.injective _ heq))
    · rw [htake]
      exact hb.ne hrest _
  · intro heq
    exact hd.ne (hb.rest h s t (Nat.lt_of_not_le hs) hd.length_eq heq)
termination_by s.length
decreasing_by
  have := hb.pos
  rw [List.length_drop]
  omega

end TakesBlocks

/-! ### The 32-bit hash -/

namespace Murmur32

theorem scramble_injective : Injective scramble := by
  have hfirst : Injective fun k : UInt32 => k * 0xcc9e2d51 := mul_injective32 (by decide)
  have hrotate : Injective fun k => rotateLeft32 k 15 :=
    injective32 (rotateLeft_injective 15) fun _ => rfl
  have hsecond : Injective fun k : UInt32 => k * 0x1b873593 := mul_injective32 (by decide)
  exact hsecond.comp (hrotate.comp hfirst)

theorem advance_injective : Injective fun h => rotateLeft32 h 13 * 5 + 0xe6546b64 := by
  have hrotate : Injective fun h => rotateLeft32 h 13 :=
    injective32 (rotateLeft_injective 13) fun _ => rfl
  have hmul : Injective fun h : UInt32 => h * 5 := mul_injective32 (by decide)
  have hadd : Injective fun h : UInt32 => h + 0xe6546b64 := fun _ _ heq =>
    (UInt32.add_left_inj _).1 heq
  exact hadd.comp (hmul.comp hrotate)

theorem finish_injective : Injective finish := by
  have hfirst : Injective fun h : UInt32 => h ^^^ h >>> 16 :=
    injective32 (xor_shiftRight_injective (n := 16) (by decide)) fun _ => rfl
  have hmul : Injective fun h : UInt32 => h * 0x85ebca6b := mul_injective32 (by decide)
  have hsecond : Injective fun h : UInt32 => h ^^^ h >>> 13 :=
    injective32 (xor_shiftRight_injective (n := 13) (by decide)) fun _ => rfl
  have hmul' : Injective fun h : UInt32 => h * 0xc2b2ae35 := mul_injective32 (by decide)
  exact hfirst.comp (hmul'.comp (hsecond.comp (hmul.comp hfirst)))

-- unfolded, the sum in `absorb` would be counted down number by number
attribute [local irreducible] absorb in
theorem blocks_block (h : UInt32) (a b c d : UInt8) (rest : List UInt8) :
    blocks h (a :: b :: c :: d :: rest) = blocks (absorb h (littleEndian32 [a, b, c, d])) rest :=
  rfl

theorem blocks_rest (h : UInt32) (hs : s.length < 4) :
    blocks h s = h ^^^ scramble (littleEndian32 s) := by
  match s with
  | [] | [_] | [_, _] | [_, _, _] => rfl
  | _ :: _ :: _ :: _ :: _ => exact absurd hs (by simp)

theorem takesBlocks :
    TakesBlocks 4 (fun h block => absorb h (littleEndian32 block)) blocks where
  pos := by decide
  append h block rest hlength := by
    match block with
    | [a, b, c, d] => exact blocks_block h a b c d rest
  state block h h' heq := (UInt32.xor_left_inj _).1 (advance_injective heq)
  block h s t hs ht heq := by
    have hword := scramble_injective ((UInt32.xor_right_inj h).1 (advance_injective heq))
    exact eq_of_littleEndian32 hs.le (hs.trans ht.symm) hword
  restState rest hrest h h' heq := by
    dsimp only at heq
    rw [blocks_rest h hrest, blocks_rest h' hrest] at heq
    exact (UInt32.xor_left_inj _).1 heq
  rest h s t hs hlength heq := by
    rw [blocks_rest h hs, blocks_rest h (hlength ▸ hs)] at heq
    exact eq_of_littleEndian32 hs.le hlength (scramble_injective ((UInt32.xor_right_inj h).1 heq))

end Murmur32

theorem murmur32_ne (hd : DifferInOneBlock 4 s t) (seed : UInt32) :
    murmur32 s seed ≠ murmur32 t seed := by
  intro heq
  have hstate := Murmur32.finish_injective heq
  rw [hd.length_eq] at hstate
  exact Murmur32.takesBlocks.ne hd seed ((UInt32.xor_left_inj _).1 hstate)

/-! ### The 64-bit hash -/

namespace Murmur64

theorem mul_injective : Injective fun h : UInt64 => h * multiplier :=
  mul_injective64 (by decide)

theorem xor_shift_injective : Injective fun h : UInt64 => h ^^^ h >>> 47 :=
  injective64 (xor_shiftRight_injective (n := 47) (by decide)) fun _ => rfl

theorem scramble_injective : Injective scramble :=
  mul_injective.comp (xor_shift_injective.comp mul_injective)

theorem finish_injective : Injective finish :=
  xor_shift_injective.comp (mul_injective.comp xor_shift_injective)

theorem blocks_rest (h : UInt64) (hs : s.length < 8) (hne : s ≠ []) :
    blocks h s = (h ^^^ littleEndian64 s) * multiplier := by
  match s with
  | [] => exact absurd rfl hne
  | [_] | [_, _] | [_, _, _] | [_, _, _, _] | [_, _, _, _, _] | [_, _, _, _, _, _]
  | [_, _, _, _, _, _, _] => rfl
  | _ :: _ :: _ :: _ :: _ :: _ :: _ :: _ :: _ => exact absurd hs (by simp)

theorem takesBlocks :
    TakesBlocks 8 (fun h block => absorb h (littleEndian64 block)) blocks where
  pos := by decide
  append h block rest hlength := by
    match block with
    | [_, _, _, _, _, _, _, _] => rfl
  state block h h' heq := (UInt64.xor_left_inj _).1 (mul_injective heq)
  block h s t hs ht heq := by
    have hword := scramble_injective ((UInt64.xor_right_inj h).1 (mul_injective heq))
    exact eq_of_littleEndian64 hs.le (hs.trans ht.symm) hword
  restState rest hrest h h' heq := by
    dsimp only at heq
    by_cases hnil : rest = []
    · rw [hnil] at heq
      exact heq
    · rw [blocks_rest h hrest hnil, blocks_rest h' hrest hnil] at heq
      exact (UInt64.xor_left_inj _).1 (mul_injective heq)
  rest h s t hs hlength heq := by
    by_cases hnil : s = []
    · rw [hnil] at hlength ⊢
      exact (List.eq_nil_of_length_eq_zero hlength.symm).symm
    · have hnil' : t ≠ [] := by
        rintro rfl
        exact hnil (List.eq_nil_of_length_eq_zero hlength)
      rw [blocks_rest h hs hnil, blocks_rest h (hlength ▸ hs) hnil'] at heq
      exact eq_of_littleEndian64 hs.le hlength ((UInt64.xor_right_inj h).1 (mul_injective heq))

end Murmur64

theorem murmur64_ne (hd : DifferInOneBlock 8 s t) (seed : UInt64) :
    murmur64 s seed ≠ murmur64 t seed := by
  intro heq
  have hstate := Murmur64.finish_injective heq
  rw [hd.length_eq] at hstate
  exact Murmur64.takesBlocks.ne hd _ hstate

/--
Strings of one length that differ in one aligned block only, be it the shorter one at the end, have
different hashes, whatever the seed. So words of four bytes never have the same 32-bit hash, nor
keys of one length the same 64-bit hash if they have eight bytes or less.
-/
theorem murmur_loses_no_block :
    (∀ seed s t, DifferInOneBlock 4 s t → murmur32 s seed ≠ murmur32 t seed) ∧
    (∀ seed s t, DifferInOneBlock 8 s t → murmur64 s seed ≠ murmur64 t seed) ∧
    (∀ seed s t, s.length = 4 → t.length = 4 → s ≠ t → murmur32 s seed ≠ murmur32 t seed) ∧
    ∀ seed s t, s.length ≤ 8 → s.length = t.length → s ≠ t → murmur64 s seed ≠ murmur64 t seed := by
  refine ⟨fun seed s t hd => murmur32_ne hd seed, fun seed s t hd => murmur64_ne hd seed, ?_, ?_⟩
  · intro seed s t hs ht hne
    exact murmur32_ne (differInOneBlock_of_length_le (hs.trans ht.symm) hs.le hne) seed
  · intro seed s t hs hlength hne
    exact murmur64_ne (differInOneBlock_of_length_le hlength hs hne) seed

/-- The second block of four bytes is changed, and the two bytes after the first block of eight. -/
theorem murmur_loses_no_block_sample :
    DifferInOneBlock 4 [1, 2, 3, 4, 5, 6, 7, 8, 9] [1, 2, 3, 4, 5, 6, 0, 0, 9] ∧
      murmur32 [1, 2, 3, 4, 5, 6, 7, 8, 9] 32 ≠ murmur32 [1, 2, 3, 4, 5, 6, 0, 0, 9] 32 ∧
      DifferInOneBlock 8 [1, 2, 3, 4, 5, 6, 7, 8, 9, 10] [1, 2, 3, 4, 5, 6, 7, 8, 10, 9] ∧
      murmur64 [1, 2, 3, 4, 5, 6, 7, 8, 9, 10] 32 ≠ murmur64 [1, 2, 3, 4, 5, 6, 7, 8, 10, 9] 32 ∧
      murmur32 [0, 0, 0, 0] 7 ≠ murmur32 [0, 0, 0, 1] 7 ∧
      murmur64 [0, 0, 0] 7 ≠ murmur64 [0, 0, 1] 7 := by
  have hblock : DifferInOneBlock 4 [1, 2, 3, 4, 5, 6, 7, 8, 9] [1, 2, 3, 4, 5, 6, 0, 0, 9] :=
    differInOneBlock_append [1, 2, 3, 4] [5, 6, 7, 8] [5, 6, 0, 0] [9] (by decide) (by decide) rfl
      (by decide) (.inl rfl)
  have hrest : DifferInOneBlock 8 [1, 2, 3, 4, 5, 6, 7, 8, 9, 10] [1, 2, 3, 4, 5, 6, 7, 8, 10, 9] :=
    differInOneBlock_append [1, 2, 3, 4, 5, 6, 7, 8] [9, 10] [10, 9] [] (by decide) (by decide) rfl
      (by decide) (.inr ⟨by decide, rfl⟩)
  obtain ⟨hwide, hlong, hword, hkey⟩ := murmur_loses_no_block
  exact ⟨hblock, hwide 32 _ _ hblock, hrest, hlong 32 _ _ hrest,
    hword 7 _ _ rfl rfl (by decide), hkey 7 _ _ (by decide) rfl (by decide)⟩

end DistinctCount.Hash
