import DistinctCount.Proofs.Slots.Format

/-!
The writer. It works in place, in a buffer of the length of the form, and stays inside it whatever
number of slots it is told to be in use. A number too small keeps the first slots in use and forgets
the others; one too large leaves a form that no reader takes.
-/

namespace DistinctCount.Slots

variable {s : Slots} {n k : Nat} {i : Fin 256} {rank : UInt8} {p : Packed}
  {pairs : List (UInt8 × UInt8)} {pair : UInt8 × UInt8} {out : List UInt8}

/-! ### Writing in place -/

def put? (out : List UInt8) (k : Nat) (byte : UInt8) : Option (List UInt8) :=
  if k < out.length then some (out.set k byte) else none

def putPairs? (n k : Nat) (out : List UInt8) : List (UInt8 × Nat) → Option (List UInt8)
  | [] => some out
  | (rank, i) :: rest =>
    if rank = 0 then putPairs? n k out rest
    else if k = n then some out
    else do
      let out ← put? out (1 + k) (UInt8.ofNat i)
      let out ← put? out (1 + n + k) rank
      putPairs? n (k + 1) out rest

def putSlot? (out : List UInt8) (i : Fin 256) (rank : UInt8) : Option (List UInt8) := do
  let bit := UInt8.ofNat (Packed.bitOf i)
  let low ← out[1 + Packed.byteOf i]?
  let out ← put? out (1 + Packed.byteOf i) ((low &&& ~~~ (31 <<< bit)) ||| (rank &&& 31) <<< bit)
  if Packed.bitOf i ≤ 3 then
    return out
  let high ← out[1 + Packed.byteOf i + 1]?
  put? out (1 + Packed.byteOf i + 1)
    ((high &&& ~~~ (31 >>> (8 - bit))) ||| (rank &&& 31) >>> (8 - bit))

/-- Writes the byte form in place, in a buffer of zeros; nothing if a write misses the buffer. -/
def encode? (s : Slots) (n : Nat) : Option (List UInt8) :=
  let out := List.replicate ((Encoding.select n).length n) 0
  match Encoding.select n with
  | .sparse => do
    let out ← put? out 0 (UInt8.ofNat n)
    putPairs? n 0 out s.toList.zipIdx
  | .dense => do
    let out ← put? out 0 Encoding.denseMarker
    (List.finRange 256).foldlM (fun out i => putSlot? out i (s.get i)) out

theorem put?_eq (h : k < out.length) {byte : UInt8} : put? out k byte = some (out.set k byte) :=
  if_pos h

theorem put_first (k : Nat) (byte : UInt8) :
    put? (List.replicate (k + 1) 0) 0 byte = some (byte :: List.replicate k 0) := by
  rw [put?_eq (by rw [List.length_replicate]; omega), List.replicate_succ, List.set_cons_zero]

theorem put_pair (h : k < pairs.length) (pair : UInt8 × UInt8) :
    (do
      let out ← put? (pairsForm pairs) (1 + k) pair.1
      put? out (1 + pairs.length + k) pair.2) = some (pairsForm (pairs.set k pair)) := by
  have hindex : (pairsForm pairs).set (1 + k) pair.1 =
      UInt8.ofNat pairs.length :: ((pairs.map (·.1)).set k pair.1 ++ pairs.map (·.2)) := by
    rw [pairsForm, Nat.add_comm, List.set_cons_succ, List.set_append_left _ _ (by simpa using h)]
  have hrank : (1 + pairs.length + k) = ((pairs.map (·.1)).set k pair.1).length + k + 1 := by
    rw [List.length_set, List.length_map]
    omega
  rw [put?_eq (by simp [pairsForm]; omega), hindex, Option.bind_eq_bind, Option.bind_some,
    put?_eq (by simp; omega), hrank, List.set_cons_succ, List.set_append_right _ _ (by omega),
    Nat.add_sub_cancel_left, pairsForm, List.length_set, List.map_set, List.map_set]

theorem padded_concat (h : pairs.length < n) (pair : UInt8 × UInt8) :
    padded n (pairs ++ [pair]) = (padded n pairs).set pairs.length pair := by
  have hroom : n - pairs.length = n - (pairs.length + 1) + 1 := by omega
  rw [padded, padded, hroom, List.replicate_succ, List.set_append_right _ _ (Nat.le_refl _),
    Nat.sub_self, List.set_cons_zero, List.append_assoc, List.length_append]
  rfl

def used (slots : List (UInt8 × Nat)) : List (UInt8 × UInt8) :=
  slots.filterMap fun (rank, i) => if rank = 0 then none else some (UInt8.ofNat i, rank)

theorem used_cons_zero (i : Nat) (rest : List (UInt8 × Nat)) : used ((0, i) :: rest) = used rest :=
  rfl

theorem used_cons (h : rank ≠ 0) (i : Nat) (rest : List (UInt8 × Nat)) :
    used ((rank, i) :: rest) = (UInt8.ofNat i, rank) :: used rest :=
  List.filterMap_cons_some (if_neg h)

/-- The buffer holds the pairs written so far and zeros for those to come. -/
theorem putPairs_spec (h : pairs.length ≤ n) (rest : List (UInt8 × Nat)) :
    putPairs? n pairs.length (pairsForm (padded n pairs)) rest =
      some (pairsForm (padded n ((pairs ++ used rest).take n))) := by
  induction rest generalizing pairs with
  | nil =>
    rw [used, List.filterMap_nil, List.append_nil, List.take_of_length_le h]
    rfl
  | cons slot rest ih =>
    obtain ⟨rank, i⟩ := slot
    rw [putPairs?]
    by_cases hrank : rank = 0
    · rw [if_pos hrank, hrank, used_cons_zero, ih h]
    · rw [if_neg hrank, used_cons hrank]
      by_cases hfull : pairs.length = n
      · rw [if_pos hfull, List.take_left' hfull]
      · have hroom : pairs.length < n := Nat.lt_of_le_of_ne h hfull
        have hpair := put_pair (k := pairs.length) (by rwa [length_padded h]) (UInt8.ofNat i, rank)
        rw [length_padded h, ← padded_concat hroom] at hpair
        have hnext := @ih (pairs ++ [(UInt8.ofNat i, rank)]) (by rwa [List.length_append])
        rw [List.length_append, List.append_assoc] at hnext
        rw [if_neg hfull, ← bind_assoc, hpair]
        exact hnext

theorem put_packed (p : Packed) {k : Nat} (h : k < 160) (byte : UInt8) :
    put? (Encoding.denseMarker :: p.toList) (1 + k) byte =
      some (Encoding.denseMarker :: (Vector.set p k byte h).toList) := by
  have hlen : 1 + k < (Encoding.denseMarker :: p.toList).length := by
    rw [List.length_cons, Vector.length_toList]
    omega
  rw [put?_eq hlen, Nat.add_comm, List.set_cons_succ, Vector.toList_set]

theorem getElem_packed (p : Packed) {k : Nat} (h : k < 160) :
    (Encoding.denseMarker :: p.toList)[1 + k]? = some p[k] := by
  have hlen : k < p.toList.length := by rwa [Vector.length_toList]
  rw [Nat.add_comm, List.getElem?_cons_succ, List.getElem?_eq_getElem hlen, Vector.getElem_toList]

theorem putSlot_spec (p : Packed) (i : Fin 256) (rank : UInt8) :
    putSlot? (Encoding.denseMarker :: p.toList) i rank =
      some (Encoding.denseMarker :: (p.set i rank).toList) := by
  have hk := Packed.byteOf_lt i
  rw [putSlot?, getElem_packed p hk, Packed.set]
  simp only [Option.bind_eq_bind, Option.bind_some, put_packed p hk]
  by_cases h : Packed.bitOf i ≤ 3
  · rw [if_pos h, dif_pos h]
    rfl
  · have hk' := Packed.byteOf_succ_lt i h
    rw [if_neg h, dif_neg h, Nat.add_assoc, getElem_packed _ hk', Option.bind_some,
      put_packed _ hk', Vector.getElem_set_ne _ _ (by omega)]

theorem encode?_eq (s : Slots) (n : Nat) : s.encode? n = some (s.encode n) := by
  unfold encode? encode
  cases Encoding.select n with
  | sparse =>
    have hempty : put? (List.replicate (2 * n + 1) 0) 0 (UInt8.ofNat n) =
        some (pairsForm (padded n [])) := by
      rw [put_first, Nat.two_mul, List.replicate_add, pairsForm, length_padded (Nat.zero_le n),
        padded]
      simp only [List.length_nil, Nat.sub_zero, List.nil_append, List.map_replicate]
    have hall : putPairs? n 0 (pairsForm (padded n [])) s.toList.zipIdx =
        some (pairsForm (padded n ((used s.toList.zipIdx).take n))) :=
      @putPairs_spec n [] (Nat.zero_le n) s.toList.zipIdx
    simp only [Encoding.length, hempty, encodeSparse_eq]
    exact hall
  | dense =>
    have hslots (l : List (Fin 256)) (p : Packed) :
        l.foldlM (fun out i => putSlot? out i (s.get i)) (Encoding.denseMarker :: p.toList) =
          some (Encoding.denseMarker :: (l.foldl (fun p i => p.set i (s.get i)) p).toList) := by
      induction l generalizing p with
      | nil => rfl
      | cons i l ih =>
        rw [List.foldlM_cons, putSlot_spec, List.foldl_cons, ← ih]
        rfl
    have hempty : put? (List.replicate Encoding.denseLength 0) 0 Encoding.denseMarker =
        some (Encoding.denseMarker :: Packed.empty.toList) := by
      rw [Packed.empty, Vector.toList_replicate]
      exact put_first 160 Encoding.denseMarker
    dsimp only [Encoding.length]
    rw [hempty, Option.bind_eq_bind, Option.bind_some, hslots, encodeDense, Packed.ofSlots]

/-! ### Any number of slots said to be in use -/

/-- The first `n` slots in use, in index order; all others are free. -/
def first (s : Slots) (n : Nat) : Slots :=
  Vector.ofFn fun i => if i ∈ s.inUse.take n then s.get i else 0

theorem length_encode (s : Slots) (n : Nat) :
    (s.encode n).length = if n ≤ 80 then 2 * n + 1 else 161 := by
  rw [encode, Encoding.select, Encoding.sparseMax]
  by_cases hn : n ≤ 80
  · have hlen : (padded n (s.occupied.take n)).length = n :=
      length_padded (List.length_take_le n s.occupied)
    simp only [if_pos hn, encodeSparse_eq, pairsForm, List.length_cons, List.length_append,
      List.length_map, hlen]
    omega
  · simp only [if_neg hn, encodeDense, List.length_cons, Vector.length_toList]

theorem getElem_first (s : Slots) (n : Nat) {j : Nat} (hj : j < 256) :
    (s.first n)[j] = if ⟨j, hj⟩ ∈ s.inUse.take n then s[j] else 0 :=
  Vector.getElem_ofFn hj

theorem first_nonZero (s : Slots) : s.first s.nonZero = s := by
  apply Vector.ext
  intro j hj
  rw [getElem_first, ← length_inUse, List.take_length]
  split
  · rfl
  · rename_i hfree
    exact (not_not.1 (mt mem_inUse.2 hfree)).symm

theorem fill_take (s : Slots) (n : Nat) : empty.fill (s.occupied.take n) = s.first n := by
  apply Vector.ext
  intro j hj
  have hindex : (UInt8.ofNat j).toFin = ⟨j, hj⟩ := Fin.ext (by simpa using Nat.mod_eq_of_lt hj)
  have htake : s.occupied.take n = (s.inUse.take n).map fun i => (UInt8.ofNat i.val, s.get i) := by
    rw [occupied_eq, List.map_take]
  rw [getElem_first]
  split
  · rename_i hmem
    have hpair : (UInt8.ofNat j, s[j]) ∈ s.occupied.take n := by
      rw [htake]
      exact List.mem_map_of_mem hmem
    have hsorted := s.occupied_sorted.sublist (List.take_sublist n _)
    have hget := getElem_fill_of_mem (s := empty) hsorted hpair
    rwa [hindex] at hget
  · rename_i hmem
    rw [getElem_fill_of_not_mem hj, ← get_empty ⟨j, hj⟩]
    · rfl
    · rw [htake]
      rintro pair hpair rfl
      obtain ⟨i, hi, rfl⟩ := List.mem_map.1 hpair
      have : i = ⟨(UInt8.ofNat i.val).toNat, hj⟩ := Fin.ext (by simp)
      exact hmem (this ▸ hi)

theorem encode_sparse (s : Slots) (hn : n ≤ 80) :
    s.encode n = pairsForm (padded n (s.occupied.take n)) := by
  rw [encode, Encoding.select, Encoding.sparseMax, if_pos hn, encodeSparse_eq]

theorem decode_truncated (h : s.Bounded) (hn : n ≤ 80) (hless : n ≤ s.nonZero) :
    decode (s.encode n) = .ok ⟨s.first n, n⟩ := by
  have hlen : (s.occupied.take n).length = n := by
    rw [List.length_take, length_occupied, Nat.min_eq_left hless]
  have hall : padded n (s.occupied.take n) = s.occupied.take n := by
    rw [padded, hlen, Nat.sub_self, List.replicate_zero, List.append_nil]
  rw [encode_sparse s hn, hall, decode_pairsForm (hlen.trans_le hn),
    readPairs_of_inOrder ((occupied_inOrder h).take n), fill_take, hlen]
  rfl

theorem decode_overstated (h : s.Bounded) (hn : n ≤ 80) (hmore : s.nonZero < n) :
    decode (s.encode n) = .error
      (if s.nonZero = 0 then .invalidRank 0 0 else .unsortedIndex s.nonZero) := by
  have hroom : n - s.nonZero = n - s.nonZero - 1 + 1 := by omega
  have hpairs : padded n (s.occupied.take n) =
      s.occupied ++ (0, 0) :: List.replicate (n - s.nonZero - 1) (0, 0) := by
    rw [padded, List.take_of_length_le (s.length_occupied.trans_le (Nat.le_of_lt hmore)),
      length_occupied, hroom, List.replicate_succ]
    rfl
  have hfew : (padded n (s.occupied.take n)).length ≤ Encoding.sparseMax :=
    (length_padded (List.length_take_le n s.occupied)).trans_le hn
  rw [encode_sparse s hn, hpairs]
  refine decode_faulty (hpairs ▸ hfew) (occupied_inOrder h) (fault?_eq_some.2 ?_)
  rw [length_occupied]
  by_cases hnone : s.nonZero = 0
  · rw [if_pos hnone]
    have hempty : s.occupied = [] := List.eq_nil_of_length_eq_zero (s.length_occupied.trans hnone)
    rw [hempty]
    exact .inr ⟨fun _ h => (by cases h), .inl rfl, rfl⟩
  · rw [if_neg hnone]
    have hsome : s.occupied ≠ [] := by
      intro hempty
      rw [← length_occupied, hempty] at hnone
      exact hnone rfl
    exact .inl ⟨⟨_, List.getLast?_eq_some_getLast hsome, UInt8.zero_le⟩, rfl⟩

/-- Whatever number of slots in use the writer is told, it stays inside its buffer, and the reader
finds all slots, or the first ones, or that the number was too large. -/
theorem decode_encode_any (h : s.Bounded) (n : Nat) :
    s.encode? n = some (s.encode n) ∧
    (s.encode n).length = (if n ≤ 80 then 2 * n + 1 else 161) ∧
    (80 < n → decode (s.encode n) = .ok ⟨s, s.nonZero⟩) ∧
    (n ≤ 80 → n ≤ s.nonZero → decode (s.encode n) = .ok ⟨s.first n, n⟩) ∧
    s.first s.nonZero = s ∧
    (n ≤ 80 → s.nonZero < n → decode (s.encode n) = .error
      (if s.nonZero = 0 then .invalidRank 0 0 else .unsortedIndex s.nonZero)) := by
  refine ⟨s.encode?_eq n, s.length_encode n, ?_, decode_truncated h, s.first_nonZero,
    decode_overstated h⟩
  intro hn
  rw [encode, Encoding.select, Encoding.sparseMax, if_neg (Nat.not_le.2 hn)]
  exact decode_encodeDense h

theorem decode_encode_any_sample :
    let s : Slots := (Slots.empty.set 2 5).set 7 3
    s.encode? 1 = some [1, 2, 5] ∧ decode [1, 2, 5] = .ok ⟨s.first 1, 1⟩ ∧
      decode (s.encode 3) = .error (.unsortedIndex 2) ∧ decode (s.encode 81) = .ok ⟨s, 2⟩ := by
  intro s
  have hbounded : Bounded s := (bounded_empty.set _ (by decide)).set _ (by decide)
  have hcount : Slots.nonZero s = 2 := by decide +kernel
  have hsparse : s.encode 1 = [1, 2, 5] := by decide +kernel
  have hkept := (decode_encode_any hbounded 1).2.2.2.1 (by decide) (by rw [hcount]; decide)
  have hover := (decode_encode_any hbounded 3).2.2.2.2.2 (by decide) (by rw [hcount]; decide)
  have hall := (decode_encode_any hbounded 81).2.2.1 (by decide)
  rw [hcount] at hover hall
  rw [hsparse] at hkept
  exact ⟨(decode_encode_any hbounded 1).1.trans (congrArg some hsparse), hkept, hover, hall⟩

end DistinctCount.Slots
