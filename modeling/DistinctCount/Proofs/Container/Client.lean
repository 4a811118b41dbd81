import DistinctCount.Container.Client
import DistinctCount.Proofs.Container.Change

namespace DistinctCount

namespace Sketch

variable {s : Sketch} {n : Nat} {family : Hash.Family} {values : List (List UInt8)}

def observe (family : Hash.Family) (s : Sketch) (value : List UInt8) : Sketch :=
  if value.isEmpty then s else (s.addHash (family.hash32 value)).1

def absorb (family : Hash.Family) (values : List (List UInt8)) (s : Sketch) : Sketch :=
  values.foldl (observe family) s

theorem revision_observe (family : Hash.Family) (hs : s.pending.toInt ≤ s.merit + n) (hn : n < 2 ^ 62)
    (value : List UInt8) : Revision 0 s (s.observe family value) := by
  have hm := s.merit_le
  unfold observe
  split
  · exact .refl s
  · exact revision_addHash (by omega)

theorem revision_absorb (family : Hash.Family) (hs : s.pending.toInt ≤ s.merit + n) (hn : n < 2 ^ 62)
    (values : List (List UInt8)) : Revision 0 s (s.absorb family values) := by
  induction values generalizing s with
  | nil => exact .refl s
  | cons value values ih =>
    have hstep := revision_observe family hs hn value
    have hcount := hstep.counted
    have hrest := ih (s := s.observe family value) (by omega)
    have hall := hstep.trans hrest
    exact hall

theorem absorb_frame (s : Sketch) (family : Hash.Family) (values : List (List UInt8)) :
    (s.absorb family values).deleted = s.deleted ∧
    (s.absorb family values).bucket = s.bucket ∧ (s.absorb family values).waiters = s.waiters ∧
    (s.absorb family values).expiresAt = s.expiresAt := by
  induction values generalizing s with
  | nil => exact ⟨rfl, rfl, rfl, rfl⟩
  | cons value values ih =>
    obtain ⟨hd, hb, hw, hx⟩ := ih (s.observe family value)
    have hone : (s.observe family value).deleted = s.deleted ∧
        (s.observe family value).bucket = s.bucket ∧
        (s.observe family value).waiters = s.waiters ∧
        (s.observe family value).expiresAt = s.expiresAt := by
      unfold observe addHash
      split
      · exact ⟨rfl, rfl, rfl, rfl⟩
      · split <;> exact ⟨rfl, rfl, rfl, rfl⟩
    exact ⟨hd.trans hone.1, hb.trans hone.2.1, hw.trans hone.2.2.1, hx.trans hone.2.2.2⟩

theorem absorb_of_forall_nil (family : Hash.Family) (s : Sketch) (hv : ∀ value ∈ values, value = []) :
    s.absorb family values = s := by
  induction values generalizing s with
  | nil => rfl
  | cons first values ih =>
    obtain ⟨rfl, hrest⟩ := List.forall_mem_cons.1 hv
    exact ih s hrest

/-- A value that counts leaves a mark for good. -/
theorem absorb_slots_ne_empty (hs : s.pending.toInt ≤ s.merit + n) (hn : n < 2 ^ 62)
    {value : List UInt8} (hv : value ∈ values) (hne : value ≠ []) :
    (s.absorb family values).slots ≠ .empty := by
  induction values generalizing s with
  | nil => cases hv
  | cons first values ih =>
    have hstep := revision_observe family hs hn first
    have hcount := hstep.counted
    have hs' : (s.observe family first).pending.toInt ≤ (s.observe family first).merit + n := by
      omega
    rcases List.mem_cons.1 hv with rfl | hrest
    · apply (revision_absorb family hs' hn values).slots_ne_empty
      rw [observe, if_neg (by simpa using hne)]
      exact addHash_slots_ne_empty _ _
    · exact ih hs' hrest

end Sketch

namespace Container

variable {c c' : Container} {n : Nat} {id : SketchId} {key : String} {now ttl : UInt64}

theorem count_eq (c : Container) (id : SketchId) (value : List UInt8)
    (hs : 0 ≤ (c.sketch id).pending.toInt) (hr : (c.sketch id).pending.toInt < 2 ^ 63 - 1) :
    c.count id value =
      (decide ((c.sketch id).pending = 0 ∧
        ((c.sketch id).observe c.config.hashing value).pending ≠ 0),
        c.alter (·.edit id (·.observe c.config.hashing value))) := by
  unfold count Sketch.observe
  split
  · have hedit : c.alter (·.edit id fun s => s) = c :=
      congrArg (fun w => { c with toWriteBack := w }) (WriteBack.edit_id c.toWriteBack id)
    rw [hedit]
    simp
  · have hdirty := Sketch.addHash_dirtied (h := c.config.hashing.hash32 value) hr hs
    have hedit := WriteBack.edit_const c.toWriteBack id
      fun s => (s.addHash (c.config.hashing.hash32 value)).1
    apply Prod.ext hdirty
    exact congrArg (fun w => { c with toWriteBack := w }) hedit

theorem count_foldl (c : Container) (made : id < c.sketches.next) (dirty : Bool)
    (hs : 0 ≤ (c.sketch id).pending.toInt)
    (hm : (c.sketch id).pending.toInt ≤ (c.sketch id).merit + n) (hn : n < 2 ^ 62)
    (values : List (List UInt8)) :
    values.foldl (fun (dirty, c) value =>
      let (becameDirty, c) := c.count id value
      (dirty || becameDirty, c)) (dirty, c) =
      (dirty || decide ((c.sketch id).pending = 0 ∧
        ((c.sketch id).absorb c.config.hashing values).pending ≠ 0),
        c.alter (·.edit id (·.absorb c.config.hashing values))) := by
  induction values generalizing c dirty with
  | nil =>
    have hedit : c.alter (·.edit id fun s => s) = c :=
      congrArg (fun w => { c with toWriteBack := w }) (WriteBack.edit_id c.toWriteBack id)
    have hnone : ¬ ((c.sketch id).pending = 0 ∧ (c.sketch id).pending ≠ 0) := fun h => h.2 h.1
    simp only [List.foldl_nil, Sketch.absorb, hnone, decide_false, Bool.or_false]
    rw [hedit]
  | cons value values ih =>
    have hmerit := (c.sketch id).merit_le
    have hself : (c.alter (·.edit id (·.observe c.config.hashing value))).sketch id =
        (c.sketch id).observe c.config.hashing value := Registry.sketch_modify_self made
    have hstep := Sketch.revision_observe c.config.hashing hm hn value
    have hcount := hstep.counted
    have hgrow := hstep.pending
    have hm' : ((c.sketch id).observe c.config.hashing value).pending.toInt ≤
        ((c.sketch id).observe c.config.hashing value).merit + n := by omega
    have hrest := Sketch.revision_absorb c.config.hashing hm' hn values
    have hgrow' := hrest.pending
    have hih := ih (c.alter (·.edit id (·.observe c.config.hashing value)))
      (Nat.lt_of_lt_of_eq made Registry.next_modify.symm)
      (dirty || decide ((c.sketch id).pending = 0 ∧
        ((c.sketch id).observe c.config.hashing value).pending ≠ 0))
      (by rw [hself]; omega) (by rw [hself]; exact hm')
    rw [List.foldl_cons]
    dsimp only
    rw [count_eq c id value hs (by omega)]
    apply hih.trans
    rw [hself]
    apply Prod.ext
    · have hbool : ∀ a b d : Int64, 0 ≤ a.toInt → a.toInt ≤ b.toInt → b.toInt ≤ d.toInt →
          (decide (a = 0 ∧ b ≠ 0) || decide (b = 0 ∧ d ≠ 0)) = decide (a = 0 ∧ d ≠ 0) := by
        intro a b d
        simp only [← Int64.toInt_inj, Int64.toInt_zero, ne_eq]
        intro ha hab hbd
        rw [← Bool.decide_or, decide_eq_decide]
        omega
      exact (Bool.or_assoc _ _ _).trans (congrArg (dirty || ·) (hbool _ _ _ hs hgrow hgrow'))
    · exact congrArg (fun w => { c with toWriteBack := w }) (WriteBack.edit_edit _ id _ _)

theorem registerExpiry_eq (hlive : (c.sketch id).deleted = false)
    (hbucket : (c.sketch id).bucket = none) :
    c.registerExpiry id = if (c.sketch id).expiresAt = 0 then c
      else c.moveEntry id (some (Expiry.bucketOf (c.sketch id).expiresAt)) := by
  simp only [registerExpiry, moveEntry, hlive, hbucket, Option.isSome_none, Bool.or_self,
    Bool.false_or, beq_iff_eq, reduceCtorEq, if_false]
  rfl

/-- A key has its sketch, or it is made and listed. -/
theorem getOrCreate_spec (hc : c.Coherent n) (now : UInt64) (key : String) (ttl : UInt64) :
    ∃ id c', c.getOrCreate now key ttl = (id, c') ∧ Changes 0 c c' ∧ c'.config = c.config ∧
      c'.get? key = some id := by
  cases hget : c.get? key with
  | some id =>
    refine ⟨id, c, ?_, .refl c, rfl, hget⟩
    have hreg : c.toRegistry.getOrCreate (c.shardOf key) key (expiryAfter now ttl) =
        ((id, false), c.toRegistry) := by
      have hshard : c.shards.get? (c.shardOf key) key = some id := hget
      simp only [Registry.getOrCreate, hshard]
    simp only [getOrCreate, hreg]
    rfl
  | none =>
    have hcreate := Change.create (expiryAfter now ttl) hget
    have hsketch := sketch_create c.sketches.next (c.shardOf key) (expiryAfter now ttl) hget
    rw [if_pos rfl] at hsketch
    have hnext := next_create (c.shardOf key) (expiryAfter now ttl) hget
    have hreg : (c.toRegistry.getOrCreate (c.shardOf key) key (expiryAfter now ttl)).1 =
        (c.sketches.next, true) := by
      have hshard : c.shards.get? (c.shardOf key) key = none := hget
      simp only [Registry.getOrCreate, hshard, Registry.make]
    generalize hc₁ : { c with toRegistry := (c.toRegistry.getOrCreate (c.shardOf key) key
      (expiryAfter now ttl)).2 } = c₁ at hcreate
    have hs : c₁.sketch c.sketches.next =
        { key, shard := c.shardOf key, expiresAt := expiryAfter now ttl } := hc₁ ▸ hsketch
    have hmade : c.sketches.next < c₁.sketches.next :=
      hc₁ ▸ Nat.lt_of_lt_of_eq (Nat.lt_succ_self _) hnext.symm
    have hlive : (c₁.sketch c.sketches.next).deleted = false := by rw [hs]
    have hregister := registerExpiry_eq hlive (by rw [hs])
    have hrun : Changes 0 c (c₁.registerExpiry c.sketches.next) := by
      rw [hregister]
      split
      · exact hcreate.changes
      · exact hcreate.changes.step (.move _ hmade hlive)
    refine ⟨c.sketches.next, c₁.registerExpiry c.sketches.next, ?_, hrun, ?_, ?_⟩
    · have heq : c.getOrCreate now key ttl =
          ((c.toRegistry.getOrCreate (c.shardOf key) key (expiryAfter now ttl)).1.1,
            if (c.toRegistry.getOrCreate (c.shardOf key) key (expiryAfter now ttl)).1.2 then
              c₁.registerExpiry
                (c.toRegistry.getOrCreate (c.shardOf key) key (expiryAfter now ttl)).1.1
            else c₁) := by rw [← hc₁]; rfl
      rw [heq, hreg]
      rfl
    · rw [hregister]
      split
      · rw [← hc₁]
      · rw [(Change.move _ hmade hlive).frame.1, ← hc₁]
    · rw [(hrun.coherent hc).get?_eq_some, hregister]
      split
      · exact ⟨hmade, hlive, by rw [hs]⟩
      · rw [next_moveEntry, sketch_moveEntry _ _ hmade, if_pos rfl]
        exact ⟨hmade, hlive, by rw [hs]⟩

theorem addMany_spec (hc : c.Coherent n) (hn : n < 2 ^ 62) (hp : c.persistent = true)
    (now : UInt64) (key : String) (values : List (List UInt8)) (ttl : UInt64) :
    ∃ id c', c.getOrCreate now key ttl = (id, c') ∧ Changes 0 c c' ∧ c'.get? key = some id ∧
      c.addMany now key values ttl =
        c'.alter (·.mutate id (·.absorb c'.config.hashing values)) := by
  obtain ⟨id, c', heq, hrun, -, hget⟩ := getOrCreate_spec hc now key ttl
  refine ⟨id, c', heq, hrun, hget, ?_⟩
  have hc' := hrun.coherent hc
  have hp' : c'.persistent = true := hrun.frame.2.1.trans hp
  obtain ⟨made, -, -⟩ := hc'.get?_eq_some.1 hget
  have hfold := count_foldl c' made false (hc'.measured id).1 (hc'.measured id).2 hn values
  rw [addMany, heq]
  dsimp only
  rw [hfold]
  simp only [enqueueDirty, Bool.false_or, Bool.and_eq_true, decide_eq_true_eq]
  have hpersistent : (c'.alter (·.edit id (·.absorb c'.config.hashing values))).persistent = true :=
    hp'
  simp only [hpersistent, and_true]
  split
  · rename_i hdirty
    refine congrArg (fun w => { c' with toWriteBack := w }) ?_
    exact (if_pos hdirty).symm
  · rename_i hclean
    refine congrArg (fun w => { c' with toWriteBack := w }) ?_
    exact (if_neg hclean).symm

theorem changes_addMany (hc : c.Coherent n) (hn : n < 2 ^ 62) (hp : c.persistent = true)
    (now : UInt64) (key : String) (values : List (List UInt8)) (ttl : UInt64) :
    Changes 0 c (c.addMany now key values ttl) := by
  obtain ⟨id, c', -, hrun, hget, heq⟩ := addMany_spec hc hn hp now key values ttl
  have hc' := hrun.coherent hc
  obtain ⟨made, -, -⟩ := hc'.get?_eq_some.1 hget
  obtain ⟨hd, hb, hw, -⟩ := (c'.sketch id).absorb_frame c'.config.hashing values
  rw [heq]
  exact hrun.step (.revise made (Sketch.revision_absorb _ (hc'.measured id).2 hn values) hd hb hw)

theorem add_eq_addMany (c : Container) (now : UInt64) (key : String) (value : Option (List UInt8))
    (ttl : UInt64) : c.add now key value ttl = c.addMany now key value.toList ttl := by
  cases value with
  | none => rfl
  | some value =>
    simp only [add, addMany, Option.toList_some, List.foldl_cons, List.foldl_nil, Bool.false_or]

def renewal (expiresAt : UInt64) (s : Sketch) : Sketch :=
  { s with expiresAt, pending := s.pending + 1 }

def bucketFor (expiresAt : UInt64) : Option UInt64 :=
  if expiresAt = 0 then none else some (Expiry.bucketOf expiresAt)

theorem moveEntry_edit_expiresAt (made : id < c.sketches.next) (expiresAt : UInt64)
    (bucket : Option UInt64) :
    (c.alter (·.edit id fun s => { s with expiresAt })).moveEntry id bucket =
      (c.moveEntry id bucket).alter (·.edit id fun s => { s with expiresAt }) := by
  have hself : (c.alter (·.edit id fun s => { s with expiresAt })).sketch id =
      { c.sketch id with expiresAt } := Registry.sketch_modify_self made
  simp only [moveEntry, hself]
  split
  · rfl
  · simp only [alter, WriteBack.edit_edit]
    rfl

theorem persistent_moveEntry (c : Container) (id : SketchId) (bucket : Option UInt64) :
    (c.moveEntry id bucket).persistent = c.persistent := by
  unfold moveEntry
  dsimp only
  split <;> rfl

theorem updateExpiry_spec (hc : c.Coherent n) (hn : n < 2 ^ 62) (hp : c.persistent = true)
    (now : UInt64) (ttl : UInt64) (hget : c.get? key = some id) :
    c.updateExpiry now key ttl =
      (true, (c.moveEntry id (bucketFor (expiryAfter now ttl))).alter
        (·.mutate id (renewal (expiryAfter now ttl)))) := by
  obtain ⟨made, live, -⟩ := hc.get?_eq_some.1 hget
  have hmove := Change.move (bucketFor (expiryAfter now ttl)) made live
  have hc' := hmove.coherent hc
  have made' := Nat.lt_of_lt_of_le made hmove.next_le
  have hp' := (persistent_moveEntry c id (bucketFor (expiryAfter now ttl))).trans hp
  have hbucket : (if expiryAfter now ttl = 0 then none
      else some (Expiry.bucketOf (expiryAfter now ttl))) = bucketFor (expiryAfter now ttl) := rfl
  simp only [updateExpiry, hget, live, Bool.false_eq_true, if_false, moveEntry_edit_expiresAt made,
    hbucket]
  generalize c.moveEntry id (bucketFor (expiryAfter now ttl)) = c' at made' hc' hp' ⊢
  have hschedule := WriteBack.schedule_edit (f := fun s => { s with expiresAt := expiryAfter now ttl })
    made' rfl (hc'.measured id).1 (hc'.room hn id)
  apply (congrArg (Prod.mk true) (if_pos hp')).trans
  exact congrArg (fun w => (true, { c' with toWriteBack := w })) hschedule

theorem changes_updateExpiry (hc : c.Coherent n) (hn : n < 2 ^ 62) (hp : c.persistent = true)
    (now : UInt64) (ttl : UInt64) (hget : c.get? key = some id) :
    Changes 1 c (c.updateExpiry now key ttl).2 := by
  obtain ⟨made, live, -⟩ := hc.get?_eq_some.1 hget
  have hmove := Change.move (bucketFor (expiryAfter now ttl)) made live
  have hc' := hmove.coherent hc
  rw [updateExpiry_spec hc hn hp now ttl hget]
  have made' := Nat.lt_of_lt_of_le made hmove.next_le
  have hrenew : Sketch.Revision 1 ((c.moveEntry id _).sketch id) _ :=
    Sketch.revision_renew (hc'.room hn id) (expiryAfter now ttl)
  exact hmove.changes.step (.revise (f := renewal (expiryAfter now ttl)) made' hrenew rfl rfl rfl)

theorem moveEntry_without (c : Container) (id : SketchId) (bucket : Option UInt64) (shard : Nat)
    (key : String) :
    (c.without shard key).moveEntry id bucket = (c.moveEntry id bucket).without shard key := by
  by_cases h : (c.sketch id).bucket = bucket
  · have hmove : c.moveEntry id bucket = _ := if_pos h
    have hmove' : (c.without shard key).moveEntry id bucket = _ := if_pos h
    rw [hmove, hmove']
  · have hmove : c.moveEntry id bucket = _ := if_neg h
    have hmove' : (c.without shard key).moveEntry id bucket = _ := if_neg h
    rw [hmove, hmove']
    rfl

theorem retire_eq (made : id < c.sketches.next) (hs : 0 ≤ (c.sketch id).pending.toInt)
    (hr : (c.sketch id).pending.toInt < 2 ^ 63 - 1) (key : String) (tickets : List Ticket)
    {f : Sketch → Sketch} (hf : (f (c.sketch id)).pending = (c.sketch id).pending)
    (hd : (f (c.sketch id)).markDirty = dying tickets (c.sketch id)) :
    { c.without (c.shardOf key) key with nextTicket := c.nextTicket + tickets.length }.alter
      (fun w => (w.edit id f).schedule id) = c.retire id key tickets := by
  let w := { c.toWriteBack with toRegistry := (c.toRegistry.remove (c.shardOf key) key).2 }
  have hw : (w.edit id f).schedule id = w.mutate id (dying tickets) := by
    rw [WriteBack.schedule_edit (w := w) made hf hs hr]
    exact WriteBack.mutate_congr hd
  exact congrArg (fun w => { c with
    toWriteBack := w
    nextTicket := c.nextTicket + tickets.length }) hw

/-- The answer to the caller of a deletion; one who finds the sketch given up is told so. -/
def awaiting (id : SketchId) (ticket : Ticket) (c : Container) : Removal × Container :=
  (.waiting ticket, if c.inPipeline id then c else c.dismiss id [ticket])

theorem persistent_markDeleted (c : Container) (id : SketchId) :
    (c.markDeleted id).persistent = c.persistent :=
  persistent_moveEntry c id none

theorem beginDelete_eq (hp : c.persistent = true) (hopen : c.closed = false)
    (hget : c.get? key = some id) {d : Container}
    (hd : d = (c.without (c.shardOf key) key).markDeleted id) :
    c.beginDelete key = awaiting id d.nextTicket
      ({ d with nextTicket := d.nextTicket + 1 }.alter fun w =>
        (w.edit id fun s => { s with waiters := s.waiters ++ [d.nextTicket] }).schedule id) := by
  have hpd : d.persistent = true := by
    rw [hd]
    exact (persistent_markDeleted _ id).trans hp
  have hremove : c.toRegistry.remove (c.shardOf key) key =
      (some id, (c.toRegistry.remove (c.shardOf key) key).2) := Prod.ext hget rfl
  unfold beginDelete
  rw [if_neg (by rw [hopen, Bool.and_false]; exact Bool.false_ne_true), hremove]
  dsimp only
  rw [← without, ← hd, if_pos hpd, awaiting]
  split <;> rfl

/-- The deletion of a key: its sketch leaves the index and dies, and the caller gets a ticket. -/
theorem beginDelete_spec (hc : c.Coherent n) (hn : n < 2 ^ 62) (hp : c.persistent = true)
    (hopen : c.closed = false) (hget : c.get? key = some id) :
    c.beginDelete key =
      awaiting id c.nextTicket ((c.moveEntry id none).retire id key [c.nextTicket]) := by
  obtain ⟨made, live, hkey⟩ := hc.get?_eq_some.1 hget
  have hmove := Change.move none made live
  have hc' := hmove.coherent hc
  have made' := Nat.lt_of_lt_of_le made hmove.next_le
  have hself := sketch_moveEntry id none made
  rw [if_pos rfl] at hself
  have hshard : c.shardOf key = (c.moveEntry id none).shardOf key := by
    rw [shardOf, shardOf, shards_moveEntry]
  have hmark : (c.without (c.shardOf key) key).markDeleted id =
      ((c.moveEntry id none).without (c.shardOf key) key).alter
        (·.edit id fun s => { s with deleted := true }) :=
    congrArg (·.alter (·.edit id fun s => { s with deleted := true }))
      (moveEntry_without c id none (c.shardOf key) key)
  have hticket : c.nextTicket = (c.moveEntry id none).nextTicket := nextTicket_moveEntry.symm
  rw [beginDelete_eq hp hopen hget hmark.symm, hshard, hticket]
  generalize c.moveEntry id none = c' at *
  rw [← retire_eq made' (hc'.measured id).1 (hc'.room hn id) key [c'.nextTicket]
    (f := fun s => { s with deleted := true, waiters := s.waiters ++ [c'.nextTicket] }) rfl
    (by rw [hself]; rfl)]
  exact congrArg (fun w : WriteBack => awaiting id c'.nextTicket { c' with
    toWriteBack := w.schedule id
    nextTicket := c'.nextTicket + 1 }) (WriteBack.edit_edit
      (c'.without (c'.shardOf key) key).toWriteBack id (fun s => { s with deleted := true })
      fun s => { s with waiters := s.waiters ++ [c'.nextTicket] })

theorem beginDelete_of_closed (hp : c.persistent = true) (hclosed : c.closed = true) (key : String) :
    c.beginDelete key = (.refused, c) :=
  if_pos (by rw [hp, hclosed]; rfl)

theorem beginDelete_of_unknown (hopen : c.closed = false) (hget : c.get? key = none) :
    c.beginDelete key = (.unknown, c) := by
  have hremove : c.toRegistry.remove (c.shardOf key) key =
      (none, (c.toRegistry.remove (c.shardOf key) key).2) := Prod.ext hget rfl
  unfold beginDelete
  rw [if_neg (by rw [hopen, Bool.and_false]; exact Bool.false_ne_true), hremove]

theorem changes_beginDelete (hc : c.Coherent n) (hn : n < 2 ^ 62) (hp : c.persistent = true)
    (key : String) : Changes 0 c (c.beginDelete key).2 := by
  cases hopen : c.closed with
  | true =>
    rw [beginDelete_of_closed hp hopen]
    exact .refl c
  | false =>
    cases hget : c.get? key with
    | none =>
      rw [beginDelete_of_unknown hopen hget]
      exact .refl c
    | some id =>
      obtain ⟨made, live, hkey⟩ := hc.get?_eq_some.1 hget
      have hmove := Change.move none made live
      have hc' := hmove.coherent hc
      have hself := sketch_moveEntry id none made
      rw [if_pos rfl] at hself
      have hretire : Change 0 (c.moveEntry id none)
          ((c.moveEntry id none).retire id key [c.nextTicket]) := by
        refine .retire _ (Nat.lt_of_lt_of_le made hmove.next_le) ?_ ?_ (hc'.room hn id) ?_ ?_
        · rw [hself]
          exact live
        · rw [hself]
          exact hkey
        · exact hc'.unlisted (by rw [hself])
        · intro ticket ht
          rw [nextTicket_moveEntry]
          exact List.mem_singleton.1 ht
      rw [beginDelete_spec hc hn hp hopen hget, awaiting]
      dsimp only
      split
      · exact hmove.changes.step hretire
      · refine (hmove.changes.step hretire).step (.dismiss _ ?_)
        intro ticket ht
        rw [List.mem_singleton.1 ht]
        change _ < (c.moveEntry id none).nextTicket + 1
        rw [nextTicket_moveEntry]
        exact Nat.lt_succ_self _

end Container

end DistinctCount
