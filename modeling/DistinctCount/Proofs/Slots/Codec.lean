import DistinctCount.Slots.Codec
import DistinctCount.Proofs.Slots.Occupied
import DistinctCount.Proofs.Slots.Packed

namespace DistinctCount

namespace Packed

theorem get_toSlots (p : Packed) (i : Fin 256) : Vector.get p.toSlots i = p.get i := by
  change p.toSlots[i.val] = p.get i
  rw [toSlots, Vector.getElem_ofFn]

theorem toSlots_ofSlots {s : Slots} (h : s.Bounded) : (ofSlots s).toSlots = s := by
  apply Vector.ext
  intro j hj
  have hmax : s[j] &&& 31 = s[j] := by
    have hle : s[j] ≤ 25 := h ⟨j, hj⟩
    rw [and_eq_mod, UInt8.mod_eq_of_lt (UInt8.lt_of_le_of_lt hle (by decide))]
  rw [toSlots, Vector.getElem_ofFn]
  exact (get_ofSlots s ⟨j, hj⟩).trans hmax

theorem ofSlots_toSlots (p : Packed) : ofSlots p.toSlots = p := by
  apply eq_of_get
  intro i
  rw [get_ofSlots, get_toSlots, get_and_mask]

end Packed

namespace Slots

variable {s s' : Slots} {n position : Nat} {previous : Option UInt8}
  {pair : UInt8 × UInt8} {pairs before after : List (UInt8 × UInt8)}
  {marker : UInt8} {body data : List UInt8} {d : Decoded} {e : DecodeError}

/-! ### Pairs of an index and a rank -/

/-- Indices in increasing order after `previous`, each with a rank of a slot in use. -/
structure InOrder (previous : Option UInt8) (pairs : List (UInt8 × UInt8)) : Prop where
  after : ∀ p ∈ previous, ∀ pair ∈ pairs, p < pair.1
  sorted : pairs.Pairwise fun a b => a.1 < b.1
  ranked : ∀ pair ∈ pairs, pair.2 ≠ 0 ∧ pair.2 ≤ maxRank

def fault? (position : Nat) (previous : Option UInt8) (pair : UInt8 × UInt8) : Option DecodeError :=
  if previous.any (pair.1 ≤ ·) then some (.unsortedIndex position)
  else if pair.2 = 0 ∨ maxRank < pair.2 then some (.invalidRank pair.1.toNat pair.2)
  else none

def lastIndex (previous : Option UInt8) (pairs : List (UInt8 × UInt8)) : Option UInt8 :=
  (pairs.getLast?.map (·.1)).or previous

theorem lastIndex_cons (previous : Option UInt8) (pair : UInt8 × UInt8)
    (pairs : List (UInt8 × UInt8)) :
    lastIndex previous (pair :: pairs) = lastIndex (some pair.1) pairs := by
  rw [lastIndex, lastIndex, List.getLast?_cons]
  cases pairs.getLast? <;> rfl

theorem fault?_eq_none : fault? position previous pair = none ↔
    (∀ p ∈ previous, p < pair.1) ∧ pair.2 ≠ 0 ∧ pair.2 ≤ maxRank := by
  have hafter : previous.any (pair.1 ≤ ·) = true ↔ ¬ ∀ p ∈ previous, p < pair.1 := by
    cases previous <;> simp
  unfold fault?
  split
  · rename_i h
    exact ⟨nofun, fun h' => absurd h'.1 (hafter.1 h)⟩
  · rename_i h
    have hlt := not_not.1 (mt hafter.2 h)
    split
    · rename_i hrank
      exact ⟨nofun, fun h' => absurd hrank (not_or.2 (h'.2.imp_right UInt8.not_lt.2))⟩
    · rename_i hrank
      exact ⟨fun _ => ⟨hlt, (not_or.1 hrank).imp_right UInt8.not_lt.1⟩, fun _ => rfl⟩

theorem inOrder_nil : InOrder previous [] :=
  ⟨fun _ _ => nofun, .nil, nofun⟩

theorem inOrder_cons (position : Nat) : InOrder previous (pair :: pairs) ↔
    fault? position previous pair = none ∧ InOrder (some pair.1) pairs := by
  rw [fault?_eq_none]
  constructor
  · intro h
    obtain ⟨hlt, hsorted⟩ := List.pairwise_cons.1 h.sorted
    obtain ⟨hrank, hranked⟩ := List.forall_mem_cons.1 h.ranked
    refine ⟨⟨fun p hp => h.after p hp pair List.mem_cons_self, hrank⟩, ?_, hsorted, hranked⟩
    rintro p ⟨⟩
    exact hlt
  · rintro ⟨⟨hafter, hrank⟩, h⟩
    have hlt := h.after pair.1 rfl
    refine ⟨?_, List.pairwise_cons.2 ⟨hlt, h.sorted⟩, List.forall_mem_cons.2 ⟨hrank, h.ranked⟩⟩
    intro p hp
    exact List.forall_mem_cons.2 ⟨hafter p hp, fun other ho =>
      UInt8.lt_trans (hafter p hp) (hlt other ho)⟩

theorem InOrder.take (h : InOrder previous pairs) (n : Nat) : InOrder previous (pairs.take n) where
  after := fun p hp pair hm => h.after p hp pair (List.mem_of_mem_take hm)
  sorted := h.sorted.sublist (List.take_sublist n pairs)
  ranked := fun pair hm => h.ranked pair (List.mem_of_mem_take hm)

theorem eq_of_sorted {others : List (UInt8 × UInt8)} (h : pairs.Pairwise fun a b => a.1 < b.1)
    (h' : others.Pairwise fun a b => a.1 < b.1) (hsame : ∀ pair, pair ∈ pairs ↔ pair ∈ others) :
    pairs = others := by
  have hne {a b : UInt8 × UInt8} (hab : a.1 < b.1) : a ≠ b := by
    rintro rfl
    exact UInt8.lt_irrefl _ hab
  have hperm : pairs.Perm others :=
    (List.perm_ext_iff_of_nodup (h.imp hne) (h'.imp hne)).2 hsame
  refine hperm.eq_of_pairwise ?_ h h'
  intro a b _ _ hab hba
  exact absurd (UInt8.lt_trans hab hba) (UInt8.lt_irrefl _)

theorem occupied_inOrder (h : s.Bounded) : InOrder none s.occupied where
  after := nofun
  sorted := s.occupied_sorted
  ranked := by
    rintro ⟨i, r⟩ hp
    obtain ⟨rfl, hr⟩ := mem_occupied.1 hp
    exact ⟨hr, h ⟨i.toNat, i.toNat_lt⟩⟩

theorem mem_occupied_fill (h : InOrder none pairs) :
    pair ∈ (empty.fill pairs).occupied ↔ pair ∈ pairs := by
  obtain ⟨i, r⟩ := pair
  rw [mem_occupied]
  constructor
  · rintro ⟨hget, hr⟩
    by_cases hi : ∃ r', (i, r') ∈ pairs
    · obtain ⟨r', hm⟩ := hi
      rwa [← hget, getElem_fill_of_mem h.sorted hm]
    · have hfree : (empty.fill pairs).get i.toFin = empty.get i.toFin := by
        apply getElem_fill_of_not_mem i.toNat_lt
        rintro ⟨j, r'⟩ hm hj
        exact hi ⟨r', UInt8.toNat_inj.1 hj ▸ hm⟩
      rw [hget, get_empty] at hfree
      exact absurd hfree hr
  · intro hm
    exact ⟨getElem_fill_of_mem h.sorted hm, (h.ranked _ hm).1⟩

theorem occupied_fill (h : InOrder none pairs) : (empty.fill pairs).occupied = pairs :=
  eq_of_sorted (occupied_sorted _) h.sorted fun _ => mem_occupied_fill h

theorem bounded_fill (h : InOrder none pairs) : (empty.fill pairs).Bounded := by
  intro i
  by_cases hz : (empty.fill pairs).get i = 0
  · rw [hz]
    decide
  · have hi : (UInt8.ofNat i.val).toFin = i := Fin.ext (by simp)
    have hm : (UInt8.ofNat i.val, (empty.fill pairs).get i) ∈ (empty.fill pairs).occupied := by
      rw [mem_occupied, hi]
      exact ⟨rfl, hz⟩
    exact (h.ranked _ ((mem_occupied_fill h).1 hm)).2

theorem readPairs_cons (s : Slots) (position : Nat) (previous : Option UInt8)
    (pair : UInt8 × UInt8) (pairs : List (UInt8 × UInt8)) :
    readPairs s position previous (pair :: pairs) = match fault? position previous pair with
      | some e => .error e
      | none => readPairs (s.set pair.1.toNat pair.2 pair.1.toNat_lt) (position + 1)
          (some pair.1) pairs := by
  obtain ⟨index, rank⟩ := pair
  rw [readPairs, fault?]
  split
  · rfl
  · split <;> rfl

theorem readPairs_append (h : InOrder previous before) :
    readPairs s position previous (before ++ after) =
    readPairs (s.fill before) (position + before.length) (lastIndex previous before) after := by
  induction before generalizing s position previous with
  | nil => rfl
  | cons pair before ih =>
    obtain ⟨hnone, h⟩ := (inOrder_cons position).1 h
    rw [List.cons_append, readPairs_cons, hnone, lastIndex_cons, List.length_cons,
      Nat.add_comm before.length, ← Nat.add_assoc]
    exact ih h

theorem readPairs_of_inOrder (h : InOrder previous pairs) :
    readPairs s position previous pairs = .ok (s.fill pairs) := by
  rw [← List.append_nil pairs, readPairs_append h, List.append_nil]
  rfl

/-- Pairs are in order, or there is a first one that is at fault. -/
theorem inOrder_or_fault (position : Nat) (previous : Option UInt8) (pairs : List (UInt8 × UInt8)) :
    InOrder previous pairs ∨ ∃ before pair after e, pairs = before ++ pair :: after ∧
      InOrder previous before ∧
      fault? (position + before.length) (lastIndex previous before) pair = some e := by
  induction pairs generalizing position previous with
  | nil => exact .inl inOrder_nil
  | cons pair pairs ih =>
    cases hfault : fault? position previous pair with
    | some e => exact .inr ⟨[], pair, pairs, e, rfl, inOrder_nil, hfault⟩
    | none =>
      rcases ih (position + 1) (some pair.1) with h | ⟨before, faulty, after, e, rfl, h, he⟩
      · exact .inl ((inOrder_cons position).2 ⟨hfault, h⟩)
      · refine .inr ⟨pair :: before, faulty, after, e, rfl, (inOrder_cons position).2 ⟨hfault, h⟩, ?_⟩
        rwa [lastIndex_cons, List.length_cons, Nat.add_comm before.length, ← Nat.add_assoc]

theorem readPairs_of_fault (h : InOrder previous before)
    (he : fault? (position + before.length) (lastIndex previous before) pair = some e) :
    readPairs s position previous (before ++ pair :: after) = .error e := by
  rw [readPairs_append h, readPairs_cons, he]

theorem readPairs_eq_ok : readPairs s position previous pairs = .ok s' ↔
    InOrder previous pairs ∧ s' = s.fill pairs := by
  constructor
  · intro hread
    rcases inOrder_or_fault position previous pairs with h | ⟨before, pair, after, e, rfl, h, he⟩
    · rw [readPairs_of_inOrder h] at hread
      exact ⟨h, (Except.ok.inj hread).symm⟩
    · rw [readPairs_of_fault h he] at hread
      cases hread
  · rintro ⟨h, rfl⟩
    exact readPairs_of_inOrder h

theorem readPairs_eq_error : readPairs s position previous pairs = .error e ↔
    ∃ before pair after, pairs = before ++ pair :: after ∧ InOrder previous before ∧
      fault? (position + before.length) (lastIndex previous before) pair = some e := by
  constructor
  · intro hread
    rcases inOrder_or_fault position previous pairs with h | ⟨before, pair, after, e', rfl, h, he⟩
    · rw [readPairs_of_inOrder h] at hread
      cases hread
    · rw [readPairs_of_fault h he] at hread
      exact ⟨before, pair, after, rfl, h, Except.error.inj hread ▸ he⟩
  · rintro ⟨before, pair, after, rfl, h, he⟩
    exact readPairs_of_fault h he

/-! ### The two forms -/

/-- The number of some pairs, their indices, their ranks. -/
def pairsForm (pairs : List (UInt8 × UInt8)) : List UInt8 :=
  UInt8.ofNat pairs.length :: (pairs.map (·.1) ++ pairs.map (·.2))

theorem exists_pairs (h : body.length = 2 * n) :
    ∃ pairs : List (UInt8 × UInt8), pairs.length = n ∧ body = pairs.map (·.1) ++ pairs.map (·.2) := by
  have htake : (body.take n).length = n := by rw [List.length_take]; omega
  have hdrop : (body.drop n).length = n := by rw [List.length_drop]; omega
  refine ⟨(body.take n).zip (body.drop n), by rw [List.length_zip]; omega, ?_⟩
  rw [List.map_fst_zip (by omega), List.map_snd_zip (by omega), List.take_append_drop]

theorem toNat_count (h : n ≤ Encoding.sparseMax) :
    (UInt8.ofNat n).toNat = n ∧ UInt8.ofNat n ≠ Encoding.denseMarker := by
  have h80 : n ≤ 80 := h
  have hn : (UInt8.ofNat n).toNat = n := by
    rw [UInt8.toNat_ofNat']
    exact Nat.mod_eq_of_lt (by omega)
  refine ⟨hn, fun he => ?_⟩
  have : n = 255 := hn.symm.trans (congrArg UInt8.toNat he)
  omega

theorem decode_pairsForm (h : pairs.length ≤ Encoding.sparseMax) :
    decode (pairsForm pairs) = (readPairs empty 0 none pairs).map fun s => ⟨s, pairs.length⟩ := by
  obtain ⟨hn, hd⟩ := toNat_count h
  have hzip : ((pairs.map (·.1) ++ pairs.map (·.2)).take pairs.length).zip
      ((pairs.map (·.1) ++ pairs.map (·.2)).drop pairs.length) = pairs := by
    rw [List.take_left' (List.length_map _), List.drop_left' (List.length_map _), List.zip_map']
    exact List.map_id' _
  rw [pairsForm, decode, if_neg hd, decodeSparse, hn, if_neg (Nat.not_lt.2 h), if_neg, hzip]
  · cases readPairs empty 0 none pairs <;> rfl
  · simp only [List.length_append, List.length_map]
    omega

/-- The first slot of a packed form that holds more than the highest rank. -/
def overfull? (p : Packed) : Option (Fin 256) :=
  (List.finRange 256).find? fun i => maxRank < p.get i

theorem decode_packed (p : Packed) : decode (Encoding.denseMarker :: p.toList) = match overfull? p with
    | some i => .error (.invalidRank i.val (p.get i))
    | none => .ok ⟨p.toSlots, p.toSlots.nonZero⟩ := by
  have hp : (⟨p.toList.toArray, by simp⟩ : Packed) = p := Vector.toArray_inj.1 Array.toArray_toList
  rw [decode, if_pos rfl, decodeDense, dif_pos (by simp)]
  simp only [hp]
  rfl

theorem overfull?_eq_none {p : Packed} : overfull? p = none ↔ p.toSlots.Bounded := by
  simp only [overfull?, List.find?_eq_none, List.mem_finRange, forall_const, decide_eq_true_iff,
    UInt8.not_lt, Bounded, Packed.get_toSlots]

theorem overfull?_eq_some {p : Packed} {i : Fin 256} :
    overfull? p = some i ↔ maxRank < p.get i ∧ ∀ j < i, p.get j ≤ maxRank := by
  rw [overfull?, List.find?_eq_some_iff_getElem, decide_eq_true_iff]
  refine and_congr_right fun _ => ?_
  simp only [List.getElem_finRange, List.length_finRange, Fin.cast_mk, Bool.not_eq_true',
    decide_eq_false_iff_not, UInt8.not_lt]
  constructor
  · rintro ⟨_, _, rfl, hbefore⟩ j hj
    exact hbefore j.val hj
  · intro hbefore
    exact ⟨i.val, i.isLt, rfl, fun j hj => hbefore ⟨j, Nat.lt_trans hj i.isLt⟩ hj⟩

inductive Shape : List UInt8 → Prop
  | empty : Shape []
  | overcounted {marker : UInt8} {body : List UInt8} (sparse : marker ≠ Encoding.denseMarker)
    (many : Encoding.sparseMax < marker.toNat) : Shape (marker :: body)
  | miscounted {marker : UInt8} {body : List UInt8} (few : marker.toNat ≤ Encoding.sparseMax)
    (length : body.length ≠ 2 * marker.toNat) : Shape (marker :: body)
  | pairs {pairs : List (UInt8 × UInt8)} (few : pairs.length ≤ Encoding.sparseMax) :
    Shape (pairsForm pairs)
  | misfit {body : List UInt8} (length : body.length ≠ 160) : Shape (Encoding.denseMarker :: body)
  | packed (p : Packed) : Shape (Encoding.denseMarker :: p.toList)

theorem shape (data : List UInt8) : Shape data := by
  match data with
  | [] => exact .empty
  | marker :: body =>
    by_cases hd : marker = Encoding.denseMarker
    · rw [hd]
      by_cases hlen : body.length = 160
      · exact .packed ⟨body.toArray, by simpa using hlen⟩
      · exact .misfit hlen
    · by_cases hmax : marker.toNat ≤ Encoding.sparseMax
      · by_cases hlen : body.length = 2 * marker.toNat
        · obtain ⟨pairs, hn, rfl⟩ := exists_pairs hlen
          have hform : marker :: (pairs.map (·.1) ++ pairs.map (·.2)) = pairsForm pairs := by
            rw [pairsForm, hn, UInt8.ofNat_toNat]
          rw [hform]
          exact .pairs (hn.trans_le hmax)
        · exact .miscounted hmax hlen
      · exact .overcounted hd (Nat.lt_of_not_le hmax)

theorem decode_overcounted (hd : marker ≠ Encoding.denseMarker)
    (h : Encoding.sparseMax < marker.toNat) :
    decode (marker :: body) = .error (.sparseCountTooLarge marker.toNat) := by
  rw [decode, if_neg hd, decodeSparse, if_pos h]

theorem decode_miscounted (h : marker.toNat ≤ Encoding.sparseMax)
    (hlen : body.length ≠ 2 * marker.toNat) :
    decode (marker :: body) = .error (.invalidLength marker (body.length + 1)) := by
  have hd : marker ≠ Encoding.denseMarker := by
    rintro rfl
    exact absurd h (by decide)
  rw [decode, if_neg hd, decodeSparse, if_neg (Nat.not_lt.2 h), if_pos hlen]

theorem decode_misfit (hlen : body.length ≠ 160) : decode (Encoding.denseMarker :: body) =
    .error (.invalidLength Encoding.denseMarker (body.length + 1)) := by
  rw [decode, if_pos rfl, decodeDense, dif_neg hlen]

def padded (n : Nat) (pairs : List (UInt8 × UInt8)) : List (UInt8 × UInt8) :=
  pairs ++ List.replicate (n - pairs.length) (0, 0)

theorem length_padded (h : pairs.length ≤ n) : (padded n pairs).length = n := by
  rw [padded, List.length_append, List.length_replicate]
  omega

theorem encodeSparse_eq (s : Slots) (n : Nat) :
    s.encodeSparse n = pairsForm (padded n (s.occupied.take n)) := by
  simp [encodeSparse, pairsForm, padded]

theorem encodeSparse_nonZero (s : Slots) : s.encodeSparse s.nonZero = pairsForm s.occupied := by
  rw [encodeSparse_eq, padded, ← length_occupied, List.take_length, Nat.sub_self,
    List.replicate_zero, List.append_nil]

theorem decode_encodeSparse (h : s.Bounded) (hfew : s.nonZero ≤ Encoding.sparseMax) :
    decode (s.encodeSparse s.nonZero) = .ok ⟨s, s.nonZero⟩ := by
  rw [encodeSparse_nonZero, decode_pairsForm (s.length_occupied.trans_le hfew),
    readPairs_of_inOrder (occupied_inOrder h), fill_occupied, length_occupied]
  rfl

theorem decode_encodeDense (h : s.Bounded) : decode s.encodeDense = .ok ⟨s, s.nonZero⟩ := by
  have hs := Packed.toSlots_ofSlots h
  have hfits : overfull? (Packed.ofSlots s) = none := by
    rwa [overfull?_eq_none, hs]
  rw [encodeDense, decode_packed, hfits, hs]

/-- Bounded slots are read from their sparse form if few are in use, and from their packed form. -/
theorem decode_eq_ok : decode data = .ok d ↔ d.slots.Bounded ∧ d.nonZero = d.slots.nonZero ∧
    (d.nonZero ≤ Encoding.sparseMax ∧ data = d.slots.encodeSparse d.nonZero ∨
      data = d.slots.encodeDense) := by
  constructor
  · intro h
    cases shape data with
    | empty => cases h
    | overcounted hd hover =>
      rw [decode_overcounted hd hover] at h
      cases h
    | miscounted hfew hlen =>
      rw [decode_miscounted hfew hlen] at h
      cases h
    | @pairs pairs hfew =>
      rw [decode_pairsForm hfew] at h
      cases hread : readPairs empty 0 none pairs with
      | error e =>
        rw [hread] at h
        cases h
      | ok s =>
        rw [hread] at h
        cases h
        obtain ⟨horder, rfl⟩ := readPairs_eq_ok.1 hread
        have hcount : pairs.length = (empty.fill pairs).nonZero := by
          rw [← length_occupied, occupied_fill horder]
        refine ⟨bounded_fill horder, hcount, .inl ⟨hfew, ?_⟩⟩
        change _ = (empty.fill pairs).encodeSparse pairs.length
        rw [hcount, encodeSparse_nonZero, occupied_fill horder]
    | misfit hlen =>
      rw [decode_misfit hlen] at h
      cases h
    | packed p =>
      rw [decode_packed] at h
      cases hover : overfull? p with
      | some i =>
        rw [hover] at h
        cases h
      | none =>
        rw [hover] at h
        obtain ⟨slots, n⟩ := d
        obtain ⟨hslots, hn⟩ := Decoded.mk.inj (Except.ok.inj h)
        refine ⟨hslots ▸ overfull?_eq_none.1 hover, hslots ▸ hn.symm, .inr ?_⟩
        rw [encodeDense, ← hslots, Packed.ofSlots_toSlots]
  · obtain ⟨s, n⟩ := d
    rintro ⟨hbounded, hn, hform⟩
    obtain rfl : n = s.nonZero := hn
    rcases hform with ⟨hfew, hform⟩ | hform
    · rw [hform]
      exact decode_encodeSparse hbounded hfew
    · rw [hform]
      exact decode_encodeDense hbounded

theorem decode_spec (h : decode data = .ok d) : d.slots.Bounded ∧ d.nonZero = d.slots.nonZero := by
  obtain ⟨hbounded, hcount, -⟩ := decode_eq_ok.1 h
  exact ⟨hbounded, hcount⟩

theorem decode_encode (h : s.Bounded) : decode (s.encode s.nonZero) = .ok ⟨s, s.nonZero⟩ := by
  refine decode_eq_ok.2 ⟨h, rfl, ?_⟩
  unfold encode Encoding.select
  by_cases hn : s.nonZero ≤ Encoding.sparseMax
  · rw [if_pos hn]
    exact .inl ⟨hn, rfl⟩
  · rw [if_neg hn]
    exact .inr rfl

end Slots

end DistinctCount
