import Mathlib.Tactic
import DistinctCount.Expiry.Index

namespace DistinctCount.Expiry.Index

variable {α : Type} {x : Index α} {bucket target other : UInt64} {key k : String} {entry e : α}
  {entries : Std.TreeMap String α}

theorem get?_empty : ({} : Index α).get? bucket key = none := by
  simp [get?, Index.entries]

theorem entries_replace :
    (x.replace bucket entries).entries other =
      if other = bucket ∧ ¬ entries.isEmpty then entries
      else if other = bucket then ∅ else x.entries other := by
  unfold replace
  split
  · rename_i h
    simp only [Index.entries, Std.TreeMap.getD_erase, Std.LawfulEqCmp.compare_eq_iff_eq, h]
    by_cases ho : bucket = other
    · simp [ho]
    · simp [ho, Ne.symm ho]
  · rename_i h
    simp only [Index.entries, Std.TreeMap.getD_insert, Std.LawfulEqCmp.compare_eq_iff_eq, h]
    by_cases ho : bucket = other
    · simp [ho]
    · simp [ho, Ne.symm ho]

theorem get?_replace :
    (x.replace bucket entries).get? other k = if other = bucket then entries[k]? else x.get? other k := by
  rw [get?, entries_replace]
  by_cases ho : other = bucket
  · by_cases he : entries.isEmpty
    · have hk : entries[k]? = none :=
        Std.TreeMap.getElem?_eq_none (Std.TreeMap.isEmpty_iff_forall_not_mem.1 he k)
      simp [ho, he, hk]
    · simp [ho, he]
  · simp [ho, get?]

theorem get?_insert :
    (x.insert bucket key entry).get? other k =
      if other = bucket ∧ k = key then some entry else x.get? other k := by
  rw [insert, get?_replace]
  by_cases ho : other = bucket
  · subst ho
    simp only [if_true, Std.TreeMap.getElem?_insert, Std.LawfulEqCmp.compare_eq_iff_eq, true_and]
    by_cases hk : key = k
    · simp [hk]
    · simp [hk, Ne.symm hk, get?]
  · simp [ho]

theorem get?_erase :
    (x.erase bucket key).get? other k =
      if other = bucket ∧ k = key then none else x.get? other k := by
  rw [erase, get?_replace]
  by_cases ho : other = bucket
  · subst ho
    simp only [if_true, Std.TreeMap.getElem?_erase, Std.LawfulEqCmp.compare_eq_iff_eq, true_and]
    by_cases hk : key = k
    · simp [hk]
    · simp [hk, Ne.symm hk, get?]
  · simp [ho]

theorem get?_detach :
    (x.detach bucket).2.get? other k = if other = bucket then none else x.get? other k := by
  simp only [detach, get?, Index.entries, Std.TreeMap.getD_erase, Std.LawfulEqCmp.compare_eq_iff_eq]
  by_cases ho : bucket = other
  · simp [ho]
  · simp [ho, Ne.symm ho]

theorem detach_eq_some (h : (x.detach bucket).1 = some entries) :
    (k, e) ∈ entries.toList ↔ x.get? bucket k = some e := by
  have hb : x.buckets[bucket]? = some entries := h
  have he : x.entries bucket = entries := by
    rw [Index.entries, Std.TreeMap.getD_eq_getD_getElem?, hb, Option.getD_some]
  rw [Std.TreeMap.mem_toList_iff_getElem?_eq_some, get?, he]

theorem get?_of_detach_eq_none (h : (x.detach bucket).1 = none) : x.get? bucket k = none := by
  have hb : x.buckets[bucket]? = none := h
  rw [get?, Index.entries, Std.TreeMap.getD_eq_getD_getElem?, hb]
  simp

def Filled (x : Index α) : Prop :=
  ∀ (bucket : UInt64) (entries : Std.TreeMap String α), x.buckets[bucket]? = some entries →
    entries.isEmpty = false

theorem filled_empty : ({} : Index α).Filled := by
  intro bucket entries h
  simp at h

theorem Filled.erase_bucket (h : x.Filled) (bucket : UInt64) :
    Filled { buckets := x.buckets.erase bucket } := by
  intro b m hm
  rw [Std.TreeMap.getElem?_erase] at hm
  split at hm
  · cases hm
  · exact h b m hm

theorem Filled.replace (h : x.Filled) (bucket : UInt64) (entries : Std.TreeMap String α) :
    (x.replace bucket entries).Filled := by
  unfold Index.replace
  split
  · exact h.erase_bucket bucket
  · rename_i hne
    intro b m hm
    rw [Std.TreeMap.getElem?_insert] at hm
    split at hm
    · obtain rfl := Option.some.inj hm
      exact Bool.eq_false_iff.2 hne
    · exact h b m hm

theorem Filled.relocate (h : x.Filled) (source : Option UInt64) (target : UInt64) (key : String)
    (entry : α) : (x.relocate source target key entry).Filled := by
  cases source with
  | none => exact h.replace _ _
  | some source => exact (h.replace _ _).replace _ _

/-- The buckets that are kept are those with an entry. -/
theorem Filled.mem_buckets (h : x.Filled) : bucket ∈ x.buckets ↔ ∃ k e, x.get? bucket k = some e := by
  constructor
  · intro hm
    obtain ⟨m, hb⟩ := Std.TreeMap.mem_iff_isSome_getElem?.1 hm |> Option.isSome_iff_exists.1
    have hne := h bucket m hb
    obtain ⟨k, hk⟩ := Std.TreeMap.isEmpty_eq_false_iff_exists_mem.1 hne
    refine ⟨k, m[k], ?_⟩
    rw [get?, Index.entries, Std.TreeMap.getD_eq_getD_getElem?, hb, Option.getD_some]
    exact Std.TreeMap.getElem?_eq_some_getElem hk
  · rintro ⟨k, e, hget⟩
    by_contra hm
    rw [get?, Index.entries, Std.TreeMap.getD_eq_getD_getElem?, Std.TreeMap.getElem?_eq_none hm] at hget
    simp at hget

theorem isDue_of_lt {now a b : UInt64} (hab : a < b) (hb : isDue now b = true) : isDue now a = true := by
  have hlt := UInt64.lt_iff_toNat_lt.1 hab
  simp only [isDue, decide_eq_true_eq] at hb ⊢
  omega

theorem takeWhile_isDue {buckets : List UInt64} (hs : buckets.Pairwise (· < ·)) (now : UInt64) :
    buckets.takeWhile (isDue now) = buckets.filter (isDue now) := by
  induction buckets with
  | nil => rfl
  | cons b buckets ih =>
    obtain ⟨hb, hs⟩ := List.pairwise_cons.1 hs
    cases hdue : isDue now b with
    | true => simp [hdue, ih hs]
    | false =>
      have hnone : ∀ b' ∈ buckets, ¬ isDue now b' = true := by
        intro b' hb' hdue'
        rw [isDue_of_lt (hb b' hb') hdue'] at hdue
        cases hdue
      simp [hdue, List.filter_eq_nil_iff.2 hnone]

theorem keys_sorted (x : Index α) : x.buckets.keys.Pairwise (· < ·) :=
  Std.TreeMap.ordered_keys.imp Std.compare_eq_lt.1

theorem dueBuckets_eq (x : Index α) (now : UInt64) (limit : Nat) :
    x.dueBuckets now limit = (x.buckets.keys.filter (isDue now)).take limit := by
  rw [dueBuckets, takeWhile_isDue x.keys_sorted]

end DistinctCount.Expiry.Index
