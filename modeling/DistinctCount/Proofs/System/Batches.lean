import DistinctCount.Proofs.System.Coupled
import DistinctCount.Proofs.System.Enqueued

namespace DistinctCount

open Container

namespace Container

variable {c c' : Container} {id : SketchId} {key : String} {values : List (List UInt8)}

def slotsUnder (c : Container) (key : String) : Slots :=
  (c.get? key).elim .empty fun id => (c.sketch id).slots

def pendingUnder (c : Container) (key : String) : Int64 :=
  (c.get? key).elim 0 fun id => (c.sketch id).pending

def Raises (c : Container) (key : String) (values : List (List UInt8)) : Prop :=
  ∃ value ∈ values, value ≠ [] ∧
    (c.slotsUnder key).get (Sketch.slotOf (c.config.hashing.hash32 value)) <
      Sketch.rankOf (c.config.hashing.hash32 value)

instance (c : Container) (key : String) (values : List (List UInt8)) :
    Decidable (c.Raises key values) :=
  inferInstanceAs (Decidable (∃ value ∈ values, value ≠ [] ∧
    (c.slotsUnder key).get (Sketch.slotOf (c.config.hashing.hash32 value)) <
      Sketch.rankOf (c.config.hashing.hash32 value)))

/-- The sketch of a key has the slots and the pending mutations of the key before it counts anything. -/
theorem getOrCreate_under (c : Container) (now : UInt64) (key : String) (ttl : UInt64) :
    ∃ id c', c.getOrCreate now key ttl = (id, c') ∧ c'.queues = c.queues ∧ c'.config = c.config ∧
      c'.persistent = c.persistent ∧ (c'.sketch id).slots = c.slotsUnder key ∧
      (c'.sketch id).pending = c.pendingUnder key := by
  cases hget : c.get? key with
  | some id =>
    refine ⟨id, c, getOrCreate_of_get? hget now ttl, rfl, rfl, rfl, ?_, ?_⟩
    · rw [slotsUnder, hget, Option.elim_some]
    · rw [pendingUnder, hget, Option.elim_some]
  | none =>
    let made := c.adopt { key, shard := c.shardOf key, expiresAt := expiryAfter now ttl }
    have hidle := (mutates_registerExpiry made c.sketches.next).idle
    have hself := (kept_registerExpiry (fun s => (s.slots, s.pending)) (fun _ _ => rfl) made
      c.sketches.next).sketch c.sketches.next
    rw [sketch_adopt, if_pos rfl] at hself
    refine ⟨_, _, getOrCreate_of_none hget now ttl, queues_registerExpiry _ _, hidle.config,
      hidle.persistent, (congrArg Prod.fst hself).trans ?_, (congrArg Prod.snd hself).trans ?_⟩
    · rw [slotsUnder, hget, Option.elim_none]
    · rw [pendingUnder, hget, Option.elim_none]

theorem raises_iff {s : Sketch} (hslots : s.slots = c.slotsUnder key) :
    0 < s.raisings (Sketch.hashesOf c.config.hashing values) ↔ c.Raises key values := by
  rw [Sketch.raisings_pos, hslots]
  constructor
  · rintro ⟨h, hh, hlt⟩
    obtain ⟨value, hvalue, rfl⟩ := List.mem_map.1 hh
    obtain ⟨hmem, hne⟩ := List.mem_filter.1 hvalue
    exact ⟨value, hmem, by simpa using hne, hlt⟩
  · rintro ⟨value, hmem, hne, hlt⟩
    have hcounts : (!value.isEmpty) = true := by simpa using hne
    exact ⟨_, List.mem_map_of_mem (List.mem_filter.2 ⟨hmem, hcounts⟩), hlt⟩

theorem queues_counted (c : Container) (id : SketchId) (values : List (List UInt8)) (p : Partition) :
    ((c.counted id values).queues.get p).items = (c.queues.get p).items ++
      if ((c.sketch id).wakes (Sketch.hashesOf c.config.hashing values) && c.persistent) = true ∧
        p = partitionOf ((c.counted id values).sketch id).shard then [id] else [] := by
  rw [counted, toRegistry_enqueueDirty, enqueueDirty]
  have hpersistent : (c.alter (·.edit id (·.absorb c.config.hashing values))).persistent =
    c.persistent := rfl
  rw [hpersistent]
  split
  · rename_i hpushed
    have hitems := (WriteBack.Enqueues.push
      (c.alter (·.edit id (·.absorb c.config.hashing values))).toWriteBack id).items p
    rw [Pushes.onto_singleton] at hitems
    refine hitems.trans ?_
    simp only [hpushed, true_and, eq_comm]
    rfl
  · rename_i hnot
    rw [if_neg fun h => hnot h.1, List.append_nil]
    rfl

end Container

namespace System

variable {s s' : System} {h : List Moment} {config : Config} {start : UInt64}
  {records : List (String × Record)} {c : Container}

theorem persistent_run (run : Run s h s') : s'.container.persistent = s.container.persistent := by
  induction run with
  | refl => rfl
  | @step h s' s'' e run next ih =>
    rcases next?_cases next with ⟨-, callers, rfl⟩ | htask
    · exact (mutates_applied s'.container e).idle.persistent.trans ih
    · cases htask <;> exact ih

theorem pendingUnder_bounds (hc : Opened config start records c) (run : Run (System.start c) h s)
    (persistent : s.container.persistent = true) (short : h.length < 2 ^ 62) (key : String) :
    0 ≤ (s.container.pendingUnder key).toInt ∧
      (s.container.pendingUnder key).toInt ≤ 2 ^ 62 + 65281 := by
  cases hc with
  | memory => exact absurd ((persistent_run run).symm.trans persistent) Bool.false_ne_true
  | stored b calls c opens =>
    have hsane := opens.ready_beginOpen.sane.run run (by omega)
    rw [pendingUnder]
    cases s.container.get? key with
    | none =>
      rw [Option.elim_none, Int64.toInt_zero]
      omega
    | some id =>
      have hmeasured := hsane.coherent.measured id
      have hmerit := (s.container.sketch id).merit_le
      rw [Option.elim_some]
      omega

/--
Many values added at once leave the container that they leave one by one, or the one that adding no
value leaves if there are none. The sketch of the key is pushed at most once, and is pushed just if it was
clean, there is a backend, and a value is above its slot.
-/
theorem addMany_eq_foldl_add (hc : Opened config start records c) (run : Run (System.start c) h s)
    (now : UInt64) (key : String) (values : List (List UInt8)) (ttl : UInt64) :
    let after := s.container.addMany now key values ttl
    after = (if values = [] then s.container.add now key none ttl
      else values.foldl (fun c value => c.add now key (some value) ttl) s.container) ∧
    ∃ id, after.get? key = some id ∧ ∃ pushed : Bool,
      (∀ p, (after.queues.get p).items = (s.container.queues.get p).items ++
        if pushed = true ∧ p = partitionOf (after.sketch id).shard then [id] else []) ∧
      (h.length < 2 ^ 62 → (pushed = true ↔ s.container.persistent = true ∧
        s.container.pendingUnder key = 0 ∧ s.container.Raises key values)) := by
  intro after
  obtain ⟨hstart, -⟩ := hc.accounts
  obtain ⟨hcoupled, -⟩ := coupled_run run hstart
  refine ⟨hcoupled.addMany_eq now key values ttl, ?_⟩
  obtain ⟨id, made, hcreate, hqueues, hconfig, hpersistent, hslots, hpending⟩ :=
    getOrCreate_under s.container now key ttl
  obtain ⟨_, _, hcreate', hget, -, -, hl, -⟩ := aside_getOrCreate hcoupled now key ttl
  obtain ⟨rfl, rfl⟩ := Prod.mk.inj (hcreate.symm.trans hcreate')
  have hafter : after = made.counted id values :=
    addMany_eq_counted hcreate (hl.get?_eq_some.1 hget).1
  have hraises : 0 < (made.sketch id).raisings (Sketch.hashesOf made.config.hashing values) ↔
      s.container.Raises key values := by
    rw [hconfig]
    exact raises_iff hslots
  refine ⟨id, ?_, (made.sketch id).wakes (Sketch.hashesOf made.config.hashing values) &&
    made.persistent, fun p => ?_, fun short => ?_⟩
  · rw [hafter, get?_counted, hget]
  · rw [hafter, queues_counted, hqueues]
  · rw [hpersistent, Bool.and_eq_true, and_comm]
    refine and_congr_right fun persistent => ?_
    obtain ⟨hnonneg, hle⟩ := pendingUnder_bounds hc run persistent short key
    have hmost := (made.sketch id).raisings_le (Sketch.hashesOf made.config.hashing values)
    rw [← hpending] at hnonneg hle ⊢
    rw [Sketch.wakes_iff hnonneg (by omega), hraises]

def batchEvents : List Event := [.add 1 "a" (some [1]) 100]

theorem addMany_eq_foldl_add_sample :
    let s := ((System.start sampleContainer).played batchEvents (by decide +kernel)).2
    s.container.addMany 2 "b" [[], [1]] 0 =
      (s.container.add 2 "b" (some []) 0).add 2 "b" (some [1]) 0 ∧
    ((s.container.addMany 2 "b" [[], [1]] 0).queues.get 2).items = [1] := by
  intro s
  have hlength :
      ((System.start sampleContainer).played batchEvents (by decide +kernel)).1.length = 1 := by
    decide +kernel
  have hpersistent : s.container.persistent = true := by decide +kernel
  have hclean : s.container.pendingUnder "b" = 0 := by decide +kernel
  have hraises : s.container.Raises "b" [[], [1]] := by decide +kernel
  have hqueue : (s.container.queues.get 2).items = [] := by decide +kernel
  have hget : (s.container.addMany 2 "b" [[], [1]] 0).get? "b" = some 1 := by decide +kernel
  have hshard : partitionOf ((s.container.addMany 2 "b" [[], [1]] 0).sketch 1).shard = 2 := by
    decide +kernel
  have run : Run (System.start sampleContainer) _ s :=
    (System.start sampleContainer).run_played batchEvents (by decide +kernel)
  clear_value s
  obtain ⟨heq, id, hid, pushed, hitems, hpushed⟩ := addMany_eq_foldl_add
    (.stored ({} : Backend) [] sampleContainer opens_sampleContainer) run 2 "b" [[], [1]] 0
  obtain rfl := Option.some.inj (hid.symm.trans hget)
  have hpushed := (hpushed (by omega)).2 ⟨hpersistent, hclean, hraises⟩
  rw [if_neg (List.cons_ne_nil _ _), List.foldl_cons, List.foldl_cons, List.foldl_nil] at heq
  refine ⟨heq, ?_⟩
  rw [hitems, hqueue, if_pos ⟨hpushed, hshard.symm⟩]
  rfl

end System

end DistinctCount
