import DistinctCount.Proofs.Container.Effect
import DistinctCount.Proofs.Sketch.Maximum

/-!
Values that are counted together. A sketch has fewer slots to raise than its count of mutations has room
for, so of all values of a batch one at most makes it dirty, and pushing the sketch after the batch is
pushing it after that value.
-/

namespace DistinctCount

namespace Sketch

variable {s : Sketch} {hashes others : List UInt32}

def hashesOf (family : Hash.Family) (values : List (List UInt8)) : List UInt32 :=
  (values.filter (!·.isEmpty)).map family.hash32

theorem hashesOf_append (family : Hash.Family) (values more : List (List UInt8)) :
    hashesOf family (values ++ more) = hashesOf family values ++ hashesOf family more := by
  rw [hashesOf, List.filter_append, List.map_append]
  rfl

theorem addHashes_append (s : Sketch) (hashes others : List UInt32) :
    s.addHashes (hashes ++ others) = (s.addHashes hashes).addHashes others :=
  List.foldl_append

theorem observe_eq_addHashes (family : Hash.Family) (s : Sketch) (value : List UInt8) :
    s.observe family value = s.addHashes (hashesOf family [value]) := by
  cases value <;> rfl

theorem absorb_eq_addHashes (family : Hash.Family) (values : List (List UInt8)) (s : Sketch) :
    s.absorb family values = s.addHashes (hashesOf family values) := by
  induction values generalizing s with
  | nil => rfl
  | cons value values ih =>
    have hsplit := hashesOf_append family [value] values
    rw [List.singleton_append] at hsplit
    rw [hsplit, addHashes_append, ← observe_eq_addHashes]
    exact ih (s.observe family value)

theorem raisings_cons (s : Sketch) (h : UInt32) (hashes : List UInt32) :
    s.raisings (h :: hashes) =
      (s.addHash h).1.raisings hashes + if (s.addHash h).2.2 = true then 1 else 0 :=
  List.countP_cons

theorem total_raisings_le (s : Sketch) (hashes : List UInt32) :
    s.total + s.raisings hashes ≤ (s.addHashes hashes).total := by
  induction hashes generalizing s with
  | nil => exact Nat.le_refl _
  | cons h hashes ih =>
    have hrest := ih (s.addHash h).1
    rw [raisings_cons]
    change _ ≤ ((s.addHash h).1.addHashes hashes).total
    obtain ⟨hlt, heq, -⟩ | ⟨-, heq⟩ := s.addHash_cases h
    · have htotal : s.total < (s.addHash h).1.total := by
        rw [heq]
        exact total_raise hlt
      split <;> omega
    · rw [heq] at hrest ⊢
      exact hrest

theorem raisings_le (s : Sketch) (hashes : List UInt32) : s.raisings hashes ≤ 65280 := by
  have hgain := s.total_raisings_le hashes
  have hmax := (s.addHashes hashes).total_le
  omega

theorem raisings_pos : 0 < s.raisings hashes ↔ ∃ h ∈ hashes, s.slots.get (slotOf h) < rankOf h := by
  induction hashes generalizing s with
  | nil =>
    refine ⟨fun h => absurd h (Nat.lt_irrefl 0), ?_⟩
    rintro ⟨h, hh, -⟩
    cases hh
  | cons h hashes ih =>
    rw [raisings_cons, List.exists_mem_cons_iff]
    obtain ⟨hlt, -, hanswer⟩ | ⟨hle, heq⟩ := s.addHash_cases h
    · rw [hanswer, if_pos rfl]
      exact ⟨fun _ => .inl hlt, fun _ => Nat.succ_pos _⟩
    · rw [heq, if_neg Bool.false_ne_true, Nat.add_zero, ih]
      exact (or_iff_right (UInt8.not_lt.2 hle)).symm

theorem pending_addHashes (hroom : s.pending.toInt + s.raisings hashes < 2 ^ 63) :
    (s.addHashes hashes).pending.toInt = s.pending.toInt + s.raisings hashes := by
  induction hashes generalizing s with
  | nil => exact (Int.add_zero _).symm
  | cons h hashes ih =>
    change ((s.addHash h).1.addHashes hashes).pending.toInt = _
    rw [raisings_cons] at hroom ⊢
    obtain ⟨-, heq, hanswer⟩ | ⟨-, heq⟩ := s.addHash_cases h
    · rw [hanswer, if_pos rfl] at hroom ⊢
      have hadd : (s.addHash h).1.pending.toInt = s.pending.toInt + 1 := by
        rw [heq]
        exact toInt_pending_add_one (by omega)
      rw [ih (by omega)]
      omega
    · rw [heq] at hroom ⊢
      exact ih (by simpa using hroom)

def wakes (s : Sketch) (hashes : List UInt32) : Bool :=
  (s.answers hashes).any fun (pending, updated) => updated && pending == 1

theorem wakes_cons (s : Sketch) (h : UInt32) (hashes : List UInt32) :
    s.wakes (h :: hashes) =
      ((s.addHash h).2.2 && (s.addHash h).2.1 == 1 || (s.addHash h).1.wakes hashes) :=
  rfl

theorem wakes_append (s : Sketch) (hashes others : List UInt32) :
    s.wakes (hashes ++ others) = (s.wakes hashes || (s.addHashes hashes).wakes others) := by
  induction hashes generalizing s with
  | nil => rfl
  | cons h hashes ih =>
    rw [List.cons_append, wakes_cons, wakes_cons, ih, Bool.or_assoc]
    rfl

theorem wakes_of_dirty (hdirty : 0 < s.pending.toInt)
    (hroom : s.pending.toInt + s.raisings hashes < 2 ^ 63) : s.wakes hashes = false := by
  induction hashes generalizing s with
  | nil => rfl
  | cons h hashes ih =>
    rw [raisings_cons] at hroom
    rw [wakes_cons]
    obtain ⟨-, heq, hanswer⟩ | ⟨-, heq⟩ := s.addHash_cases h
    · rw [hanswer, if_pos rfl] at hroom
      have hadd : (s.addHash h).1.pending.toInt = s.pending.toInt + 1 := by
        rw [heq]
        exact toInt_pending_add_one (by omega)
      have hne : (s.addHash h).1.pending ≠ 1 := by
        intro hone
        rw [hone, Int64.toInt_one] at hadd
        omega
      rw [ih (by omega) (by omega), hanswer]
      simpa using hne
    · rw [heq] at hroom ⊢
      exact ih hdirty (by simpa using hroom)

/-- The hash that makes a sketch dirty leaves it with a count that is far from an overflow. -/
theorem pending_of_wakes (h : s.wakes hashes = true) :
    0 < (s.addHashes hashes).pending.toInt ∧ (s.addHashes hashes).pending.toInt ≤ 65281 := by
  induction hashes generalizing s with
  | nil => cases h
  | cons first hashes ih =>
    rw [wakes_cons, Bool.or_eq_true, Bool.and_eq_true] at h
    rcases h with ⟨hraised, hone⟩ | hlater
    · obtain ⟨-, -, hanswer⟩ | ⟨-, heq⟩ := s.addHash_cases first
      · have hone : (s.addHash first).1.pending = 1 := by
          rw [hanswer, beq_iff_eq] at hone
          exact hone
        have hmost := (s.addHash first).1.raisings_le hashes
        have hpending : ((s.addHash first).1.addHashes hashes).pending.toInt =
            (s.addHash first).1.pending.toInt + (s.addHash first).1.raisings hashes := by
          apply pending_addHashes
          rw [hone, Int64.toInt_one]
          omega
        rw [hone, Int64.toInt_one] at hpending
        change 0 < ((s.addHash first).1.addHashes hashes).pending.toInt ∧
          ((s.addHash first).1.addHashes hashes).pending.toInt ≤ 65281
        omega
      · rw [heq] at hraised
        cases hraised
    · exact ih hlater

/-- Of all hashes one at most makes the sketch dirty. -/
theorem wakes_once (h : s.wakes hashes = true) (others : List UInt32) :
    (s.addHashes hashes).wakes others = false := by
  obtain ⟨hpos, hle⟩ := pending_of_wakes h
  have hmost := (s.addHashes hashes).raisings_le others
  exact wakes_of_dirty hpos (by omega)

theorem wakes_iff (hnonneg : 0 ≤ s.pending.toInt)
    (hroom : s.pending.toInt + s.raisings hashes < 2 ^ 63) :
    s.wakes hashes = true ↔ s.pending = 0 ∧ 0 < s.raisings hashes := by
  by_cases hclean : s.pending = 0
  · induction hashes generalizing s with
    | nil => exact ⟨fun h => (by cases h), fun h => absurd h.2 (Nat.lt_irrefl 0)⟩
    | cons h hashes ih =>
      rw [wakes_cons, raisings_cons]
      obtain ⟨-, heq, hanswer⟩ | ⟨-, heq⟩ := s.addHash_cases h
      · have hone : (s.addHash h).1.pending = 1 := by
          rw [heq, raise, hclean]
          rfl
        rw [hanswer, hone]
        simp [hclean]
      · rw [raisings_cons, heq] at hroom
        rw [heq]
        simpa using ih hnonneg (by simpa using hroom) hclean
  · have hpos : 0 < s.pending.toInt := by
      have hne : s.pending.toInt ≠ 0 := fun h0 => hclean (Int64.toInt_inj.1 h0)
      omega
    rw [wakes_of_dirty hpos hroom]
    exact ⟨fun h => (by cases h), fun h => absurd h.1 hclean⟩

end Sketch

namespace WriteBack

theorem edit_enqueue {w : WriteBack} {id : SketchId} {f : Sketch → Sketch}
    (hshard : (f (w.sketch id)).shard = (w.sketch id).shard) :
    (w.enqueue id).edit id f = (w.edit id f).enqueue id := by
  have hsame : ((w.edit id f).sketch id).shard = (w.sketch id).shard := by
    rw [toRegistry_edit, Registry.sketch_modify]
    split
    · exact hshard
    · rfl
  rw [enqueue, enqueue, hsame]
  rfl

end WriteBack

namespace Container

variable {c c' : Container} {id : SketchId} {key : String} {values more : List (List UInt8)}
  {now ttl : UInt64}

theorem queues_registerExpiry (c : Container) (id : SketchId) :
    (c.registerExpiry id).queues = c.queues := by
  unfold registerExpiry
  dsimp only
  split <;> rfl

theorem count_eq_wakes (c : Container) (id : SketchId) (value : List UInt8) :
    c.count id value = ((c.sketch id).wakes (Sketch.hashesOf c.config.hashing [value]),
      c.alter (·.edit id (·.observe c.config.hashing value))) := by
  refine Prod.ext ?_ (snd_count c id value)
  cases value with
  | nil => rfl
  | cons first rest => exact (Bool.or_false _).symm

/-- The container after values have been counted in a sketch that it has. -/
def counted (c : Container) (id : SketchId) (values : List (List UInt8)) : Container :=
  (c.alter (·.edit id (·.absorb c.config.hashing values))).enqueueDirty id
    ((c.sketch id).wakes (Sketch.hashesOf c.config.hashing values))

/-- The values of a batch are counted one after the other, and any of them may make the sketch dirty. -/
theorem foldl_count (c : Container) (made : id < c.sketches.next) (dirty : Bool)
    (values : List (List UInt8)) :
    values.foldl (fun (dirty, c) value =>
      let (becameDirty, c) := c.count id value
      (dirty || becameDirty, c)) (dirty, c) =
      (dirty || (c.sketch id).wakes (Sketch.hashesOf c.config.hashing values),
        c.alter (·.edit id (·.absorb c.config.hashing values))) := by
  refine Prod.ext ?_ (snd_count_foldl c id dirty values)
  induction values generalizing c dirty with
  | nil => exact (Bool.or_false dirty).symm
  | cons value values ih =>
    have hself : (c.alter (·.edit id (·.observe c.config.hashing value))).sketch id =
        (c.sketch id).addHashes (Sketch.hashesOf c.config.hashing [value]) := by
      rw [← Sketch.observe_eq_addHashes]
      exact Registry.sketch_modify_self made
    have hsplit := Sketch.hashesOf_append c.config.hashing [value] values
    rw [List.singleton_append] at hsplit
    rw [List.foldl_cons]
    dsimp only
    rw [count_eq_wakes, ih _ (Nat.lt_of_lt_of_eq made Registry.next_modify.symm), hself, hsplit,
      Sketch.wakes_append, Bool.or_assoc]
    rfl

theorem addMany_eq_counted (hget : (c.getOrCreate now key ttl) = (id, c'))
    (made : id < c'.sketches.next) : c.addMany now key values ttl = c'.counted id values := by
  rw [addMany, hget]
  dsimp only
  rw [foldl_count c' made, Bool.false_or]
  rfl

theorem get?_counted (c : Container) (id : SketchId) (values : List (List UInt8)) (key : String) :
    (c.counted id values).get? key = c.get? key :=
  (alike_enqueueDirty _ _ _).get? key

theorem next_counted (c : Container) (id : SketchId) (values : List (List UInt8)) :
    (c.counted id values).sketches.next = c.sketches.next :=
  (alike_enqueueDirty _ _ _).kept.next.trans Registry.next_modify

theorem counted_nil (c : Container) (id : SketchId) : c.counted id [] = c := by
  have hedit : c.alter (·.edit id fun s => s) = c :=
    congrArg (fun w => { c with toWriteBack := w }) (WriteBack.edit_id c.toWriteBack id)
  exact hedit

theorem enqueueDirty_false (c : Container) (id : SketchId) : c.enqueueDirty id false = c := by
  rw [enqueueDirty, Bool.false_and, if_neg Bool.false_ne_true]

theorem enqueueDirty_enqueueDirty {d d' : Bool} (h : d = true → d' = false) :
    (c.enqueueDirty id d).enqueueDirty id d' = c.enqueueDirty id (d || d') := by
  cases d with
  | false => rw [enqueueDirty_false, Bool.false_or]
  | true => rw [h rfl, enqueueDirty_false, Bool.or_false]

theorem edit_enqueueDirty {f : Sketch → Sketch} {d : Bool}
    (hshard : (f (c.sketch id)).shard = (c.sketch id).shard) :
    (c.enqueueDirty id d).alter (·.edit id f) = (c.alter (·.edit id f)).enqueueDirty id d := by
  have hpersistent : (c.alter (·.edit id f)).persistent = c.persistent := rfl
  rw [enqueueDirty, enqueueDirty, hpersistent]
  split
  · exact congrArg (fun w => { c with toWriteBack := w }) (WriteBack.edit_enqueue hshard)
  · rfl

theorem toRegistry_enqueueDirty (c : Container) (id : SketchId) (d : Bool) :
    (c.enqueueDirty id d).toRegistry = c.toRegistry := by
  unfold enqueueDirty
  split <;> rfl

theorem counted_counted (c : Container) (made : id < c.sketches.next) :
    (c.counted id values).counted id more = c.counted id (values ++ more) := by
  have hconfig : (c.counted id values).config = c.config := (alike_enqueueDirty _ _ _).config
  have hself : (c.counted id values).sketch id =
      (c.sketch id).addHashes (Sketch.hashesOf c.config.hashing values) := by
    rw [counted, toRegistry_enqueueDirty, ← Sketch.absorb_eq_addHashes]
    exact Registry.sketch_modify_self made
  have habsorb : (fun s : Sketch => s.absorb c.config.hashing (values ++ more)) =
      (·.absorb c.config.hashing more) ∘ (·.absorb c.config.hashing values) :=
    funext fun s => List.foldl_append
  have hboth : (c.alter (·.edit id (·.absorb c.config.hashing values))).alter
      (·.edit id (·.absorb c.config.hashing more)) =
      c.alter (·.edit id (·.absorb c.config.hashing (values ++ more))) := by
    rw [habsorb]
    exact congrArg (fun w => { c with toWriteBack := w }) (WriteBack.edit_edit c.toWriteBack id _ _)
  obtain ⟨-, hshard⟩ :=
    ((c.alter (·.edit id (·.absorb c.config.hashing values))).sketch id).absorb_core
      c.config.hashing more
  rw [counted, hself, hconfig, counted, edit_enqueueDirty hshard, hboth,
    enqueueDirty_enqueueDirty fun hfirst => Sketch.wakes_once hfirst _, ← Sketch.wakes_append,
    ← Sketch.hashesOf_append]
  rfl

theorem foldl_add (hget : c.get? key = some id) (made : id < c.sketches.next) (now ttl : UInt64)
    (values : List (List UInt8)) :
    values.foldl (fun c value => c.add now key (some value) ttl) c = c.counted id values := by
  induction values generalizing c with
  | nil => exact (c.counted_nil id).symm
  | cons value values ih =>
    have hone : c.add now key (some value) ttl = c.counted id [value] := by
      rw [add_eq_addMany]
      exact addMany_eq_counted (getOrCreate_of_get? hget now ttl) made
    rw [List.foldl_cons, hone, ih ((get?_counted ..).trans hget) (by rwa [next_counted]),
      counted_counted c made]
    rfl

/-- A batch leaves what its values leave one by one, and an empty one makes the key alone. -/
theorem Coupled.addMany_eq (hc : c.Coupled) (now : UInt64) (key : String)
    (values : List (List UInt8)) (ttl : UInt64) :
    c.addMany now key values ttl =
      if values = [] then c.add now key none ttl
      else values.foldl (fun c value => c.add now key (some value) ttl) c := by
  obtain ⟨id, c', hcreate, hget, -, -, hl, -⟩ := aside_getOrCreate hc now key ttl
  have made := (hl.get?_eq_some.1 hget).1
  cases values with
  | nil => rfl
  | cons value values =>
    have hone : c.add now key (some value) ttl = c'.counted id [value] := by
      rw [add_eq_addMany]
      exact addMany_eq_counted hcreate made
    rw [if_neg (List.cons_ne_nil _ _), addMany_eq_counted hcreate made, List.foldl_cons, hone,
      foldl_add ((get?_counted ..).trans hget) (by rwa [next_counted]), counted_counted c' made]
    rfl

end Container

end DistinctCount
