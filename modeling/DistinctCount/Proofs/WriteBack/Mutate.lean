import DistinctCount.WriteBack.Basic
import DistinctCount.Proofs.Registry.Sound
import DistinctCount.Proofs.Sketch.Revision

namespace DistinctCount

/-- Replacing one item of a list moves no other of the items listed under it. -/
theorem count_flatMap_set {α : Type} (l : List α) (f : α → List SketchId) (a : α) {i : Nat}
    (hi : i < l.length) (id : SketchId) :
    ((l.set i a).flatMap f).count id + (f l[i]).count id = (l.flatMap f).count id + (f a).count id := by
  induction l generalizing i with
  | nil => cases hi
  | cons b l ih =>
    cases i with
    | zero =>
      simp only [List.set_cons_zero, List.flatMap_cons, List.count_append, List.getElem_cons_zero]
      omega
    | succ i =>
      have hl := ih (Nat.lt_of_succ_lt_succ hi)
      simp only [List.set_cons_succ, List.flatMap_cons, List.count_append, List.getElem_cons_succ]
      omega

theorem get_assign {α : Type} (entries : Vector α 8) (p q : Partition) (a : α) :
    (assign entries p a).get q = if q = p then a else entries.get q :=
  vector_get_set entries p q a

namespace WriteBack

variable {w : WriteBack} {id other : SketchId} {f g : Sketch → Sketch} {p q : Partition}

def queued (w : WriteBack) : List SketchId :=
  w.queues.toList.flatMap (·.items)

theorem mem_queued : id ∈ w.queued ↔ ∃ p : Partition, id ∈ (w.queues.get p).items := by
  simp only [queued, List.mem_flatMap, Vector.mem_toList_iff, Vector.mem_iff_getElem]
  constructor
  · rintro ⟨q, ⟨i, hi, rfl⟩, hid⟩
    exact ⟨⟨i, hi⟩, hid⟩
  · rintro ⟨p, hid⟩
    exact ⟨w.queues.get p, ⟨p.val, p.isLt, rfl⟩, hid⟩

theorem queues_editQueue {f : Queue SketchId → Queue SketchId} :
    (w.editQueue p f).queues.get q = if q = p then f (w.queues.get p) else w.queues.get q :=
  get_assign _ _ _ _

theorem count_queued_editQueue {f : Queue SketchId → Queue SketchId} (id : SketchId) :
    (w.editQueue p f).queued.count id + (w.queues.get p).items.count id =
      w.queued.count id + (f (w.queues.get p)).items.count id := by
  have hp : p.val < w.queues.toList.length := by simp
  have h := count_flatMap_set w.queues.toList (·.items) (f (w.queues.get p)) hp id
  rw [← Vector.toList_set p.isLt] at h
  simpa [queued, editQueue, assign, Vector.get] using h

theorem count_queued_enqueue (w : WriteBack) (id other : SketchId) :
    (w.enqueue id).queued.count other = w.queued.count other + if other = id then 1 else 0 := by
  have h := count_queued_editQueue (w := w) (p := partitionOf (w.sketch id).shard)
    (f := (·.push id)) other
  simp only [Queue.push, List.count_append, List.count_singleton, beq_iff_eq] at h
  rw [enqueue]
  simp only [eq_comm (a := other)]
  simp only [Queue.push]
  omega

theorem mem_enqueue : other ∈ ((w.enqueue id).queues.get q).items ↔
    other ∈ (w.queues.get q).items ∨ other = id ∧ q = partitionOf (w.sketch id).shard := by
  rw [enqueue, queues_editQueue]
  split
  · rename_i h
    subst h
    simp [Queue.push]
  · rename_i h
    simp [h]

/-- Changes a sketch, and pushes it if it was clean and is so no more. -/
def mutate (w : WriteBack) (id : SketchId) (f : Sketch → Sketch) : WriteBack :=
  if (w.sketch id).pending = 0 ∧ (f (w.sketch id)).pending ≠ 0 then (w.edit id f).enqueue id
  else w.edit id f

@[simp] theorem toRegistry_edit : (w.edit id f).toRegistry = w.toRegistry.modify id f := rfl

@[simp] theorem queues_edit : (w.edit id f).queues = w.queues := rfl

@[simp] theorem toRegistry_mutate : (w.mutate id f).toRegistry = w.toRegistry.modify id f := by
  unfold mutate
  split <;> rfl

theorem count_queued_mutate (w : WriteBack) (id other : SketchId) (f : Sketch → Sketch) :
    (w.mutate id f).queued.count other = w.queued.count other +
      if other = id ∧ (w.sketch id).pending = 0 ∧ (f (w.sketch id)).pending ≠ 0 then 1 else 0 := by
  unfold mutate
  split
  · rename_i h
    rw [count_queued_enqueue]
    simp only [h, ne_eq, not_false_eq_true, and_self, and_true]
    rfl
  · rename_i h
    rw [if_neg fun hc => h hc.2]
    rfl

theorem mem_mutate (hid : id < w.sketches.next) : other ∈ ((w.mutate id f).queues.get q).items →
    other ∈ (w.queues.get q).items ∨ other = id ∧ q = partitionOf (f (w.sketch id)).shard := by
  unfold mutate
  split
  · intro h
    rw [mem_enqueue, toRegistry_edit, Registry.sketch_modify_self hid] at h
    exact h
  · exact .inl

theorem edit_edit (w : WriteBack) (id : SketchId) (f g : Sketch → Sketch) :
    (w.edit id f).edit id g = w.edit id (g ∘ f) := by
  simp only [edit, Registry.modify, Sketches.modify]
  congr 3
  apply Array.ext_getElem?
  intro i
  simp only [Array.getElem?_modify]
  split <;> simp

theorem mutate_edit (hid : id < w.sketches.next) (hf : (f (w.sketch id)).pending = (w.sketch id).pending) :
    (w.edit id f).mutate id g = w.mutate id (g ∘ f) := by
  simp only [mutate, toRegistry_edit, Registry.sketch_modify_self hid, hf, edit_edit, Function.comp]

theorem edit_const (w : WriteBack) (id : SketchId) (f : Sketch → Sketch) :
    (w.edit id fun _ => f (w.sketch id)) = w.edit id f := by
  simp only [edit, Registry.modify, Sketches.modify]
  congr 3
  apply Array.ext_getElem?
  intro i
  simp only [Array.getElem?_modify]
  split
  · rename_i h
    subst h
    cases hi : w.sketches.items[id]? with
    | none => rfl
    | some s =>
      simp [Registry.sketch, Sketches.get, Array.getD_eq_getD_getElem?, hi]
  · rfl

theorem edit_congr (h : f (w.sketch id) = g (w.sketch id)) : w.edit id f = w.edit id g := by
  rw [← edit_const w id f, ← edit_const w id g, h]

theorem edit_id (w : WriteBack) (id : SketchId) : (w.edit id fun s => s) = w := by
  have hitems : w.sketches.items.modify id (fun s => s) = w.sketches.items := by
    apply Array.ext_getElem?
    intro i
    rw [Array.getElem?_modify]
    split <;> simp
  change { w with sketches := { items := w.sketches.items.modify id fun s => s } } = w
  rw [hitems]

theorem mutate_congr (h : f (w.sketch id) = g (w.sketch id)) : w.mutate id f = w.mutate id g := by
  simp only [mutate, h, edit_congr h]

/-- No sketch has more unwritten mutations than its merits and `n` more. -/
def Measured (n : Nat) (w : WriteBack) : Prop :=
  ∀ id, 0 ≤ (w.sketch id).pending.toInt ∧ (w.sketch id).pending.toInt ≤ (w.sketch id).merit + n

/-- The counter of a sketch has room for one mutation more in any run of fewer than `2 ^ 62` steps. -/
theorem Measured.room {n : Nat} (hw : w.Measured n) (hn : n < 2 ^ 62) (id : SketchId) :
    (w.sketch id).pending.toInt < 2 ^ 63 - 1 := by
  have h := (hw id).2
  have hm := (w.sketch id).merit_le
  omega

theorem Measured.mono {n m : Nat} (hw : w.Measured n) (hnm : n ≤ m) : w.Measured m := by
  intro id
  have h := hw id
  omega

theorem toRegistry_schedule (w : WriteBack) (id : SketchId) :
    (w.schedule id).toRegistry = w.toRegistry.modify id Sketch.markDirty := by
  rw [schedule]
  split <;> rfl

theorem schedule_eq_mutate (hid : id < w.sketches.next) (hw : 0 ≤ (w.sketch id).pending.toInt)
    (hroom : (w.sketch id).pending.toInt < 2 ^ 63 - 1) :
    w.schedule id = w.mutate id Sketch.markDirty := by
  have hadd := Sketch.toInt_pending_add_one hroom
  have hne : (w.sketch id).pending + 1 ≠ 0 := by
    intro h
    rw [h] at hadd
    change (0 : Int) = _ at hadd
    omega
  have hiff : (w.sketch id).pending + 1 = 1 ↔ (w.sketch id).pending = 0 := by
    rw [← Int64.toInt_inj, ← Int64.toInt_inj, hadd]
    simp only [Int64.toInt_one, Int64.toInt_zero]
    omega
  simp only [schedule, mutate, toRegistry_edit, Registry.sketch_modify_self hid, Sketch.markDirty,
    hiff, ne_eq, hne, not_false_eq_true, and_true]

theorem schedule_edit (hid : id < w.sketches.next) (hf : (f (w.sketch id)).pending = (w.sketch id).pending)
    (hw : 0 ≤ (w.sketch id).pending.toInt) (hroom : (w.sketch id).pending.toInt < 2 ^ 63 - 1) :
    (w.edit id f).schedule id = w.mutate id (Sketch.markDirty ∘ f) := by
  have hself : (w.edit id f).sketch id = f (w.sketch id) := Registry.sketch_modify_self hid
  rw [schedule_eq_mutate (Nat.lt_of_lt_of_eq hid Registry.next_modify.symm), mutate_edit hid hf]
  · rwa [hself, hf]
  · rwa [hself, hf]

end WriteBack

end DistinctCount
