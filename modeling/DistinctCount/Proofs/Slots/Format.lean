import DistinctCount.Proofs.Slots.Codec

namespace DistinctCount

namespace Packed

/-- The five bits of slot `i` are those of a rank, least significant first. -/
def Holds (p : Packed) (i : Fin 256) (rank : UInt8) : Prop :=
  rank.toNat < 32 ∧ ∀ t < 5, p.bit (5 * i.val + t) = rank.toBitVec.getLsbD t

variable {p q : Packed} {i : Fin 256} {rank : UInt8}

theorem holds_iff : p.Holds i rank ↔ p.get i = rank := by
  have hget (t : Nat) (ht : t < 5) : (p.get i).toBitVec.getLsbD t = p.bit (5 * i.val + t) := by
    rw [getLsbD_get, decide_eq_true ht, Bool.true_and]
  constructor
  · rintro ⟨hlt, hbits⟩
    apply ext_getLsbD
    intro t _
    by_cases ht : t < 5
    · rw [hget t ht, hbits t ht]
    · have hpow : rank.toNat < 2 ^ t :=
        Nat.lt_of_lt_of_le hlt (Nat.pow_le_pow_right Nat.two_pos (Nat.not_lt.1 ht))
      rw [getLsbD_get, decide_eq_false ht, Bool.false_and, BitVec.getLsbD]
      exact (Nat.testBit_lt_two_pow hpow).symm
  · rintro rfl
    refine ⟨?_, fun t ht => (hget t ht).symm⟩
    rw [← get_and_mask, UInt8.toNat_and]
    exact Nat.lt_of_le_of_lt Nat.and_le_right (by decide)

end Packed

namespace Slots

variable {s : Slots} {data data' : List UInt8} {d d' : Decoded} {e : DecodeError}

def inUse (s : Slots) : List (Fin 256) :=
  (List.finRange 256).filter fun i => s.get i ≠ 0

/-- The number of slots in use, which is at most 80, then where they are, then what they hold. -/
def SparseForm (s : Slots) (data : List UInt8) : Prop :=
  s.inUse.length ≤ 80 ∧ data = UInt8.ofNat s.inUse.length ::
    (s.inUse.map (fun i => UInt8.ofNat i.val) ++ s.inUse.map s.get)

/-- The byte 255, then 160 bytes that hold all slots, five bits for each. -/
def DenseForm (s : Slots) (data : List UInt8) : Prop :=
  ∃ p : Packed, data = 255 :: p.toList ∧ ∀ i, p.Holds i (s.get i)

theorem mem_inUse {i : Fin 256} : i ∈ s.inUse ↔ s.get i ≠ 0 := by
  simp only [inUse, List.mem_filter, List.mem_finRange, true_and, decide_eq_true_iff]

theorem occupied_eq (s : Slots) :
    s.occupied = s.inUse.map fun i => (UInt8.ofNat i.val, s.get i) := by
  have hlt (i j : Fin 256) : UInt8.ofNat i.val < UInt8.ofNat j.val ↔ i < j := by
    rw [UInt8.lt_iff_toNat_lt, UInt8.toNat_ofNat', UInt8.toNat_ofNat', Nat.mod_eq_of_lt i.isLt,
      Nat.mod_eq_of_lt j.isLt]
    rfl
  refine eq_of_sorted s.occupied_sorted ?_ ?_
  · rw [List.pairwise_map]
    exact ((List.pairwise_lt_finRange 256).filter _).imp (hlt _ _).2
  · rintro ⟨index, rank⟩
    simp only [mem_occupied, List.mem_map, mem_inUse, Prod.mk.injEq]
    constructor
    · rintro ⟨rfl, hne⟩
      exact ⟨index.toFin, hne, UInt8.ofNat_toNat, rfl⟩
    · rintro ⟨i, hne, rfl, rfl⟩
      have hi : (UInt8.ofNat i.val).toFin = i := Fin.ext (by simp)
      exact ⟨by rw [hi], hne⟩

theorem length_inUse (s : Slots) : s.inUse.length = s.nonZero := by
  rw [← length_occupied, occupied_eq, List.length_map]

theorem sparseForm_iff : s.SparseForm data ↔
    s.nonZero ≤ Encoding.sparseMax ∧ data = s.encodeSparse s.nonZero := by
  have hform : s.encodeSparse s.nonZero = UInt8.ofNat s.inUse.length ::
      (s.inUse.map (fun i => UInt8.ofNat i.val) ++ s.inUse.map s.get) := by
    rw [encodeSparse_nonZero, pairsForm, length_occupied, length_inUse, occupied_eq, List.map_map,
      List.map_map]
    rfl
  rw [SparseForm, hform, length_inUse]
  rfl

theorem denseForm_iff (h : s.Bounded) : s.DenseForm data ↔ data = s.encodeDense := by
  have hget (i : Fin 256) : (Packed.ofSlots s).get i = Vector.get s i := by
    rw [← Packed.get_toSlots, Packed.toSlots_ofSlots h]
  constructor
  · rintro ⟨p, rfl, hp⟩
    have heq : p = Packed.ofSlots s := Packed.eq_of_get fun i =>
      (Packed.holds_iff.1 (hp i)).trans (hget i).symm
    rw [heq]
    rfl
  · rintro rfl
    exact ⟨Packed.ofSlots s, rfl, fun i => Packed.holds_iff.2 (hget i)⟩

/-- What is wrong with a byte string, of several things the first. -/
inductive Refused : List UInt8 → DecodeError → Prop
  | empty : Refused [] .empty
  | overcounted {count : UInt8} {body : List UInt8} (many : 80 < count.toNat) (sparse : count ≠ 255) :
    Refused (count :: body) (.sparseCountTooLarge count.toNat)
  | miscounted {count : UInt8} {body : List UInt8} (few : count.toNat ≤ 80)
    (length : body.length ≠ 2 * count.toNat) :
    Refused (count :: body) (.invalidLength count (body.length + 1))
  | misfit {body : List UInt8} (length : body.length ≠ 160) :
    Refused (255 :: body) (.invalidLength 255 (body.length + 1))
  | unsorted {before after : List (UInt8 × UInt8)} {last pair : UInt8 × UInt8}
    (few : (before ++ pair :: after).length ≤ 80) (good : InOrder none before)
    (previous : before.getLast? = some last) (below : pair.1 ≤ last.1) :
    Refused (pairsForm (before ++ pair :: after)) (.unsortedIndex before.length)
  | unranked {before after : List (UInt8 × UInt8)} {pair : UInt8 × UInt8}
    (few : (before ++ pair :: after).length ≤ 80) (good : InOrder none before)
    (above : ∀ last ∈ before.getLast?, last.1 < pair.1) (bad : pair.2 = 0 ∨ 25 < pair.2) :
    Refused (pairsForm (before ++ pair :: after)) (.invalidRank pair.1.toNat pair.2)
  | overfull {p : Packed} {i : Fin 256} {rank : UInt8} (good : ∀ j < i, ∃ r ≤ 25, p.Holds j r)
    (holds : p.Holds i rank) (bad : 25 < rank) :
    Refused (255 :: p.toList) (.invalidRank i.val rank)

theorem fault?_eq_some {position : Nat} {before : List (UInt8 × UInt8)} {pair : UInt8 × UInt8} :
    fault? position (lastIndex none before) pair = some e ↔
      (∃ last, before.getLast? = some last ∧ pair.1 ≤ last.1) ∧ e = .unsortedIndex position ∨
      (∀ last ∈ before.getLast?, last.1 < pair.1) ∧ (pair.2 = 0 ∨ maxRank < pair.2) ∧
        e = .invalidRank pair.1.toNat pair.2 := by
  have hlast : lastIndex none before = before.getLast?.map (·.1) := by
    rw [lastIndex, Option.or_none]
  rw [hlast, fault?]
  cases before.getLast? with
  | none => simp [eq_comm]
  | some last =>
    by_cases hle : pair.1 ≤ last.1
    · have habove : ¬ last.1 < pair.1 := UInt8.not_lt.2 hle
      simp [hle, habove, eq_comm]
    · have habove : last.1 < pair.1 := UInt8.not_le.1 hle
      simp [hle, habove, eq_comm]

theorem decode_faulty {before after : List (UInt8 × UInt8)} {pair : UInt8 × UInt8}
    (hfew : (before ++ pair :: after).length ≤ Encoding.sparseMax) (horder : InOrder none before)
    (he : fault? before.length (lastIndex none before) pair = some e) :
    decode (pairsForm (before ++ pair :: after)) = .error e := by
  rw [← Nat.zero_add before.length] at he
  rw [decode_pairsForm hfew, readPairs_of_fault horder he]
  rfl

theorem decode_eq_error : decode data = .error e ↔ Refused data e := by
  constructor
  · intro h
    cases shape data with
    | empty =>
      obtain rfl := Except.error.inj h
      exact .empty
    | overcounted hsparse hmany =>
      rw [decode_overcounted hsparse hmany] at h
      obtain rfl := Except.error.inj h
      exact .overcounted hmany hsparse
    | miscounted hfew hlen =>
      rw [decode_miscounted hfew hlen] at h
      obtain rfl := Except.error.inj h
      exact .miscounted hfew hlen
    | @pairs pairs hfew =>
      rw [decode_pairsForm hfew] at h
      cases hread : readPairs Slots.empty 0 none pairs with
      | ok s =>
        rw [hread] at h
        cases h
      | error e' =>
        rw [hread] at h
        obtain rfl := Except.error.inj h
        obtain ⟨before, pair, after, rfl, horder, hfault⟩ := readPairs_eq_error.1 hread
        rw [Nat.zero_add] at hfault
        rcases fault?_eq_some.1 hfault with ⟨⟨last, hlast, hle⟩, rfl⟩ | ⟨habove, hbad, rfl⟩
        · exact .unsorted hfew horder hlast hle
        · exact .unranked hfew horder habove hbad
    | misfit hlen =>
      rw [decode_misfit hlen] at h
      obtain rfl := Except.error.inj h
      exact .misfit hlen
    | packed p =>
      rw [decode_packed] at h
      cases hover : overfull? p with
      | none =>
        rw [hover] at h
        simp only [reduceCtorEq] at h
      | some i =>
        rw [hover] at h
        obtain rfl := Except.error.inj h
        obtain ⟨hbad, hgood⟩ := overfull?_eq_some.1 hover
        have hbefore : ∀ j < i, ∃ r ≤ 25, p.Holds j r := fun j hj =>
          ⟨p.get j, hgood j hj, Packed.holds_iff.2 rfl⟩
        exact .overfull hbefore (Packed.holds_iff.2 rfl) hbad
  · intro h
    cases h with
    | empty => rfl
    | overcounted hmany hsparse => exact decode_overcounted hsparse hmany
    | miscounted hfew hlen => exact decode_miscounted hfew hlen
    | misfit hlen => exact decode_misfit hlen
    | unsorted hfew horder hlast hle =>
      exact decode_faulty hfew horder (fault?_eq_some.2 (.inl ⟨⟨_, hlast, hle⟩, rfl⟩))
    | unranked hfew horder habove hbad =>
      exact decode_faulty hfew horder (fault?_eq_some.2 (.inr ⟨habove, hbad, rfl⟩))
    | overfull hgood hholds hbad =>
      obtain rfl := Packed.holds_iff.1 hholds
      have hfirst : overfull? _ = some _ := overfull?_eq_some.2 ⟨hbad, fun j hj => by
        obtain ⟨r, hr, hrank⟩ := hgood j hj
        exact (Packed.holds_iff.1 hrank).trans_le hr⟩
      exact (decode_packed _).trans (by rw [hfirst])

theorem SparseForm.not_dense (h : s.SparseForm data) : ¬ s.DenseForm data := by
  rintro ⟨p, hdense, -⟩
  have hcount := (List.cons_eq_cons.1 (h.2.symm.trans hdense)).1
  exact (toNat_count h.1).2 hcount

theorem encode_eq_iff (h : s.Bounded) (hform : s.SparseForm data ∨ s.DenseForm data) :
    s.encode s.nonZero = data ↔ ¬ (s.DenseForm data ∧ s.nonZero ≤ 80) := by
  rw [encode, Encoding.select]
  by_cases hfew : s.nonZero ≤ Encoding.sparseMax
  · have hwritten : s.SparseForm (s.encodeSparse s.nonZero) := sparseForm_iff.2 ⟨hfew, rfl⟩
    rw [if_pos hfew]
    constructor
    · rintro rfl hdense
      exact hwritten.not_dense hdense.1
    · intro hdense
      have hsparse := hform.resolve_right fun hd => hdense ⟨hd, hfew⟩
      exact (sparseForm_iff.1 hsparse).2.symm
  · rw [if_neg hfew]
    constructor
    · rintro - hdense
      exact hfew hdense.2
    · intro _
      have hdense := hform.resolve_left fun hs => hfew (sparseForm_iff.1 hs).1
      exact ((denseForm_iff h).1 hdense).symm

/-- The reader accepts the two forms of bounded slots and nothing else, and tells of any other byte
string what is wrong with it first. Slots have one form of each kind, and the writer chooses the sparse
one whenever there is one. -/
theorem decode_accepts_forms (data data' : List UInt8) (d d' : Decoded) (e : DecodeError) :
    (decode data = .ok d ↔ d.slots.Bounded ∧ d.nonZero = d.slots.inUse.length ∧
      (d.slots.SparseForm data ∨ d.slots.DenseForm data)) ∧
    (decode data = .ok d → decode data' = .ok d' → d.slots = d'.slots → data ≠ data' →
      d.slots.SparseForm data ∧ d.slots.DenseForm data' ∨
        d.slots.DenseForm data ∧ d.slots.SparseForm data') ∧
    (decode data = .ok d →
      (d.slots.encode d.nonZero = data ↔ ¬ (d.slots.DenseForm data ∧ d.nonZero ≤ 80))) ∧
    (decode data = .error e ↔ Refused data e) := by
  have haccept {data : List UInt8} {d : Decoded} : decode data = .ok d ↔ d.slots.Bounded ∧
      d.nonZero = d.slots.nonZero ∧ (d.slots.SparseForm data ∨ d.slots.DenseForm data) := by
    rw [decode_eq_ok]
    refine and_congr_right fun h => and_congr_right fun hn => ?_
    rw [sparseForm_iff, denseForm_iff h, hn]
  refine ⟨by rw [haccept, length_inUse], ?_, ?_, decode_eq_error⟩
  · intro h h' hs hne
    obtain ⟨hbounded, -, hform⟩ := haccept.1 h
    obtain ⟨-, -, hform'⟩ := haccept.1 h'
    rw [← hs] at hform'
    rcases hform with hsparse | hdense <;> rcases hform' with hsparse' | hdense'
    · exact absurd (hsparse.2.trans hsparse'.2.symm) hne
    · exact .inl ⟨hsparse, hdense'⟩
    · exact .inr ⟨hdense, hsparse'⟩
    · have heq := (denseForm_iff hbounded).1 hdense
      exact absurd (heq.trans ((denseForm_iff hbounded).1 hdense').symm) hne
  · intro h
    obtain ⟨hbounded, hn, hform⟩ := haccept.1 h
    rw [hn]
    exact encode_eq_iff hbounded hform

theorem decode_accepts_forms_sample :
    let s : Slots := Slots.empty.set 0 3
    let dense : List UInt8 := 255 :: 3 :: List.replicate 159 0
    decode [1, 0, 3] = .ok ⟨s, 1⟩ ∧ decode dense = .ok ⟨s, 1⟩ ∧ s.encode 1 = [1, 0, 3] ∧
      (SparseForm s [1, 0, 3] ∧ DenseForm s dense ∨ DenseForm s [1, 0, 3] ∧ SparseForm s dense) ∧
      decode [2, 7, 7, 3, 0] = .error (.unsortedIndex 1) := by
  intro s dense
  have hsparse : decode [1, 0, 3] = .ok ⟨s, 1⟩ := rfl
  have hboth := decode_accepts_forms [1, 0, 3] dense ⟨s, 1⟩ ⟨s, 1⟩ .empty
  obtain ⟨hbounded, hcount, -⟩ := hboth.1.1 hsparse
  have hform : DenseForm s dense := by
    refine ⟨Packed.empty.set 0 3, rfl, fun i => Packed.holds_iff.2 ?_⟩
    have hempty : Packed.empty.get i = 0 := by simp [Packed.get, Packed.empty]
    rw [Packed.get_set, hempty]
    refine Eq.trans ?_ (vector_get_set Slots.empty 0 i 3).symm
    rw [get_empty]
    simp only [eq_comm]
    rfl
  have hdense : decode dense = .ok ⟨s, 1⟩ :=
    (decode_accepts_forms dense [] ⟨s, 1⟩ ⟨s, 1⟩ .empty).1.2 ⟨hbounded, hcount, .inr hform⟩
  have hsame : s.encode 1 = [1, 0, 3] := rfl
  refine ⟨hsparse, hdense, hsame, hboth.2.1 hsparse hdense rfl (by decide), ?_⟩
  refine (decode_accepts_forms [2, 7, 7, 3, 0] [] ⟨s, 1⟩ ⟨s, 1⟩ (.unsortedIndex 1)).2.2.2.2 ?_
  have hgood : InOrder none [(7, 3)] := (inOrder_cons 0).2 ⟨by decide, inOrder_nil⟩
  have hlast : [(7, 3)].getLast? = some ((7, 3) : UInt8 × UInt8) := rfl
  exact @Refused.unsorted [(7, 3)] [] (7, 3) (7, 0) (by decide) hgood hlast (by decide)

end Slots

end DistinctCount
