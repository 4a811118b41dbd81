import Mathlib.Tactic
import DistinctCount.Slots.Basic

namespace DistinctCount

theorem vector_get_set {α : Type} {n : Nat} (v : Vector α n) (i j : Fin n) (a : α) :
    (v.set i a i.isLt).get j = if j = i then a else v.get j := by
  change (v.set i a i.isLt)[j.val] = _
  rw [Vector.getElem_set]
  simp only [Fin.ext_iff, eq_comm]
  rfl

namespace Slots

variable {s : Slots} {r : UInt8} {pairs : List (UInt8 × UInt8)}

theorem get_empty (i : Fin 256) : empty.get i = 0 :=
  Vector.getElem_replicate i.isLt

def Bounded (s : Slots) : Prop :=
  ∀ i : Fin 256, s.get i ≤ maxRank

theorem Bounded.set (h : s.Bounded) {i : Nat} (hi : i < 256) (hr : r ≤ maxRank) :
    Bounded (s.set i r hi) := by
  intro j
  change (s.set i r hi)[j.val] ≤ maxRank
  rw [Vector.getElem_set]
  split
  · exact hr
  · exact h j

theorem bounded_empty : empty.Bounded := by
  intro i
  rw [get_empty]
  decide

theorem nonZero_empty : empty.nonZero = 0 := by
  rw [nonZero, empty, Vector.toList_replicate, List.countP_replicate]
  rfl

theorem nonZero_set {i : Nat} (hi : i < 256) (h : s[i] = 0) (hr : r ≠ 0) :
    nonZero (s.set i r hi) = s.nonZero + 1 := by
  have hl : i < s.toList.length := by simpa using hi
  rw [nonZero, Vector.toList_set, List.countP_set hl]
  simp [nonZero, h, hr]

theorem nonZero_set_of_ne {i : Nat} (hi : i < 256) (h : s[i] ≠ 0) (hr : r ≠ 0) :
    nonZero (s.set i r hi) = s.nonZero := by
  have hl : i < s.toList.length := by simpa using hi
  have hpos : 0 < s.toList.countP (· != 0) := by
    apply List.countP_pos_iff.2
    exact ⟨s[i], Vector.getElem_mem hi |> Vector.mem_toList_iff.2, by simpa using h⟩
  rw [nonZero, Vector.toList_set, List.countP_set hl]
  simp only [Vector.getElem_toList, bne_iff_ne, ne_eq, h, hr, not_false_eq_true, if_true]
  rw [nonZero, Nat.sub_add_cancel hpos]

theorem mem_occupied {i : UInt8} :
    (i, r) ∈ s.occupied ↔ s.get i.toFin = r ∧ r ≠ 0 := by
  simp only [occupied, List.mem_filterMap, Prod.exists, List.mem_zipIdx_iff_getElem?]
  constructor
  · rintro ⟨rank, n, hn, h⟩
    split at h
    · cases h
    · rename_i hr
      obtain ⟨hlt, hn⟩ := List.getElem?_eq_some_iff.1 hn
      have hlt' : n < 256 := by simpa using hlt
      simp only [Option.some.injEq, Prod.mk.injEq] at h
      obtain ⟨rfl, rfl⟩ := h
      have he : (UInt8.ofNat n).toFin = ⟨n, hlt'⟩ := Fin.ext (by simpa using Nat.mod_eq_of_lt hlt')
      refine ⟨?_, hr⟩
      rw [he]
      simpa [Vector.get] using hn
  · rintro ⟨h, hr⟩
    refine ⟨r, i.toNat, ?_, ?_⟩
    · rw [List.getElem?_eq_some_iff]
      exact ⟨by simpa using i.toNat_lt, by simpa [Vector.get] using h⟩
    · simp [hr]

theorem occupied_sorted (s : Slots) : s.occupied.Pairwise fun a b => a.1 < b.1 := by
  rw [occupied, List.pairwise_filterMap]
  have hl : s.toList.zipIdx.Pairwise fun a b => a.2 < b.2 := by
    rw [← List.pairwise_map (f := Prod.snd) (R := (· < ·)), List.zipIdx_map_snd]
    exact List.pairwise_lt_range' 1
  apply hl.imp_of_mem
  rintro ⟨x, m⟩ ⟨y, n⟩ hm hn hlt a ha b hb
  have hn' : n < 256 := by
    obtain ⟨h, -⟩ := List.getElem?_eq_some_iff.1 (List.mem_zipIdx_iff_getElem?.1 hn)
    simpa using h
  simp only [Option.ite_none_left_eq_some, Option.some.injEq] at ha hb
  obtain ⟨-, rfl⟩ := ha
  obtain ⟨-, rfl⟩ := hb
  change m < n at hlt
  rw [UInt8.lt_iff_toNat_lt]
  simp only [UInt8.toNat_ofNat']
  omega

theorem length_occupied (s : Slots) : s.occupied.length = s.nonZero := by
  rw [occupied, List.length_filterMap_eq_countP, nonZero]
  conv_rhs => rw [← List.zipIdx_map_fst 0 s.toList, List.countP_map]
  congr 1
  funext ⟨x, n⟩
  by_cases h : x = 0 <;> simp [h]

def fill (s : Slots) (pairs : List (UInt8 × UInt8)) : Slots :=
  pairs.foldl (fun s pair => s.set pair.1.toNat pair.2 pair.1.toNat_lt) s

theorem getElem_fill_of_not_mem {j : Nat} (hj : j < 256)
    (h : ∀ pair ∈ pairs, pair.1.toNat ≠ j) : (s.fill pairs)[j] = s[j] := by
  induction pairs generalizing s with
  | nil => rfl
  | cons pair pairs ih =>
    obtain ⟨hne, h⟩ := List.forall_mem_cons.1 h
    exact (ih h).trans (Vector.getElem_set_ne _ _ hne)

theorem getElem_fill_of_mem {i : UInt8} (hs : pairs.Pairwise fun a b => a.1 < b.1)
    (h : (i, r) ∈ pairs) : (s.fill pairs).get i.toFin = r := by
  induction pairs generalizing s with
  | nil => cases h
  | cons pair pairs ih =>
    obtain ⟨hlt, hs⟩ := List.pairwise_cons.1 hs
    rcases List.mem_cons.1 h with rfl | h
    · have hne : ∀ pair ∈ pairs, pair.1.toNat ≠ i.toNat := by
        intro pair hp
        exact Nat.ne_of_gt (UInt8.lt_iff_toNat_lt.1 (hlt pair hp))
      exact (getElem_fill_of_not_mem i.toNat_lt hne).trans (Vector.getElem_set_self i.toNat_lt)
    · exact ih hs h

theorem fill_occupied (s : Slots) : empty.fill s.occupied = s := by
  apply Vector.ext
  intro j hj
  by_cases h : s[j] = 0
  · rw [getElem_fill_of_not_mem hj]
    · simp [empty, h]
    · rintro ⟨i, r⟩ hp rfl
      obtain ⟨he, hr⟩ := mem_occupied.1 hp
      exact hr (he.symm.trans h)
  · have he : (UInt8.ofNat j).toFin = ⟨j, hj⟩ := Fin.ext (by simpa using Nat.mod_eq_of_lt hj)
    have hm : (UInt8.ofNat j, s[j]) ∈ s.occupied := by
      rw [mem_occupied]
      exact ⟨by rw [he]; rfl, h⟩
    have hg := getElem_fill_of_mem (s := empty) s.occupied_sorted hm
    rwa [he] at hg

end Slots

end DistinctCount
