import DistinctCount.Proofs.Container.Coupled
import DistinctCount.Proofs.Sketch.Maximum

namespace DistinctCount

namespace Account

/-- The account after one value: the slot of its hash holds its rank or more. -/
def observe (family : Hash.Family) (a : Account) (value : List UInt8) : Account :=
  if value.isEmpty then a
  else
    let h := family.hash32 value
    { a with slots := Vector.ofFn fun i =>
        if i.val = (h >>> 24).toNat then max (a.slots.get i) (Sketch.rankOf h) else a.slots.get i }

end Account

namespace Sketch

variable {s : Sketch} {family : Hash.Family} {value : List UInt8} {values : List (List UInt8)}

theorem account_observe (family : Hash.Family) (s : Sketch) (value : List UInt8) :
    (s.observe family value).account = s.account.observe family value := by
  unfold observe Account.observe
  split
  · rfl
  · dsimp only
    generalize family.hash32 value = h
    have hexpires : (s.addHash h).1.expiresAt = s.expiresAt := by
      unfold addHash
      split <;> rfl
    rw [account, hexpires]
    refine congrArg (fun slots => Account.mk slots s.expiresAt) (Vector.ext fun i hi => ?_)
    refine (s.get_addHash h ⟨i, hi⟩).trans ?_
    rw [Vector.getElem_ofFn]
    simp only [Fin.ext_iff, slotOf_val, eq_comm (a := (h >>> 24).toNat)]
    rfl

theorem account_absorb (family : Hash.Family) (values : List (List UInt8)) (s : Sketch) :
    (s.absorb family values).account = values.foldl (Account.observe family) s.account := by
  induction values generalizing s with
  | nil => rfl
  | cons value values ih =>
    rw [List.foldl_cons, ← account_observe]
    exact ih _

theorem absorb_core (s : Sketch) (family : Hash.Family) (values : List (List UInt8)) :
    (s.absorb family values).key = s.key ∧ (s.absorb family values).shard = s.shard := by
  induction values generalizing s with
  | nil => exact ⟨rfl, rfl⟩
  | cons value values ih =>
    obtain ⟨hkey, hshard⟩ := ih (s.observe family value)
    have hone : (s.observe family value).key = s.key ∧ (s.observe family value).shard = s.shard := by
      unfold observe addHash
      split
      · exact ⟨rfl, rfl⟩
      · split <;> exact ⟨rfl, rfl⟩
    exact ⟨hkey.trans hone.1, hshard.trans hone.2⟩

theorem Valid.absorb (hs : s.Valid) (family : Hash.Family) (values : List (List UInt8)) :
    (s.absorb family values).Valid := by
  induction values generalizing s with
  | nil => exact hs
  | cons value values ih =>
    refine ih ?_
    unfold observe
    split
    · exact hs
    · exact hs.addHash _

end Sketch

namespace Container

variable {c c' : Container} {id : SketchId} {key : String} {now ttl : UInt64}
  {accounts : String → Option Account}

/-- The container that is left is in step, and its keys stand for the accounts given. -/
structure Yields (c : Container) (accounts : String → Option Account) (c' : Container) : Prop where
  coupled : c'.Coupled
  account : ∀ k, c'.account? k = accounts k
  config : c'.config = c.config
  closed : c'.closed = c.closed

theorem Coupled.yields (hc : c.Coupled) : Yields c c.account? c :=
  ⟨hc, fun _ => rfl, rfl, rfl⟩

theorem Yields.of_present (hc : c.Coupled) (h : Aside key c c') (hl : c'.Linked none)
    (hget : c'.get? key = some id) (hp : Placed (c'.sketch id)) :
    Yields c (fun k => if k = key then some (c'.sketch id).account else c.account? k) c' := by
  refine ⟨hc.aside h hl ?_, ?_, h.config, h.closed⟩
  · intro id' hid'
    obtain rfl := Option.some.inj (hget.symm.trans hid')
    exact hp
  · intro k
    by_cases hk : k = key
    · rw [if_pos hk, hk, account?_eq hget]
    · rw [if_neg hk, h.account? hk]

theorem Yields.of_absent (hc : c.Coupled) (h : Aside key c c') (hl : c'.Linked none)
    (hget : c'.get? key = none) :
    Yields c (fun k => if k = key then none else c.account? k) c' := by
  refine ⟨hc.aside h hl ?_, ?_, h.config, h.closed⟩
  · intro id hid
    rw [hget] at hid
    cases hid
  · intro k
    by_cases hk : k = key
    · rw [if_pos hk, hk, account?, hget]
      rfl
    · rw [if_neg hk, h.account? hk]

theorem Yields.of_edit (hc : c.Coupled) (h : Aside key c c') (hl : c'.Linked none)
    (hget : c'.get? key = some id) {f : Sketch → Sketch}
    (hkey : (f (c'.sketch id)).key = (c'.sketch id).key)
    (hshard : (f (c'.sketch id)).shard = (c'.sketch id).shard)
    (hdeleted : (f (c'.sketch id)).deleted = (c'.sketch id).deleted)
    (hbucket : (f (c'.sketch id)).bucket = (c'.sketch id).bucket)
    (hp : Placed (f (c'.sketch id))) :
    Yields c (fun k => if k = key then some (f (c'.sketch id)).account else c.account? k)
      (c'.alter (·.edit id f)) := by
  have made := (hl.get?_eq_some.1 hget).1
  have hself : (c'.alter (·.edit id f)).sketch id = f (c'.sketch id) :=
    Registry.sketch_modify_self made
  have hget' : (c'.alter (·.edit id f)).get? key = some id := hget
  rw [← hself]
  exact .of_present hc (h.trans (aside_edit hl hget f)) (hl.edit hget hkey hshard hdeleted hbucket)
    hget' (hself ▸ hp)

theorem Yields.alike {c'' : Container} (h : Yields c accounts c') (h' : Alike c' c'') :
    Yields c accounts c'' :=
  ⟨h'.coupled h.coupled, fun k => (h'.account? k).trans (h.account k), h'.config.trans h.config,
    h'.closed.trans h.closed⟩

/-! ### Making a sketch -/

theorem registerExpiry_eq_moveEntry (hlive : (c.sketch id).deleted = false)
    (hbucket : (c.sketch id).bucket = none) :
    c.registerExpiry id = c.moveEntry id (bucketFor (c.sketch id).expiresAt) := by
  rw [registerExpiry_eq hlive hbucket, bucketFor]
  split
  · exact (if_pos hbucket).symm
  · rfl

theorem yields_adopt {s : Sketch} (hc : c.Coupled) (hvalid : s.Valid)
    (hshard : s.shard = c.shards.shardOf s.key) (hlive : s.deleted = false)
    (hbucket : s.bucket = none) (hfree : c.get? s.key = none) :
    ∃ c', (c.adopt s).registerExpiry c.sketches.next = c' ∧
      c'.get? s.key = some c.sketches.next ∧ (c'.sketch c.sketches.next).account = s.account ∧
      Placed (c'.sketch c.sketches.next) ∧ c'.Linked none ∧ Aside s.key c c' := by
  have hself : (c.adopt s).sketch c.sketches.next = s := sketch_adopt.trans (if_pos rfl)
  have hget : (c.adopt s).get? s.key = some c.sketches.next := by
    rw [get?_adopt hc.toLinked hshard, if_pos rfl]
  have hl := hc.toLinked.adopt hshard hlive hbucket hfree
  obtain ⟨made, -, -⟩ := hl.get?_eq_some.1 hget
  have hregister : (c.adopt s).registerExpiry c.sketches.next =
      (c.adopt s).moveEntry c.sketches.next (bucketFor s.expiresAt) := by
    rw [registerExpiry_eq_moveEntry (by rw [hself, hlive]) (by rw [hself, hbucket]), hself]
  have hmoved := sketch_moveEntry c.sketches.next (bucketFor s.expiresAt) made
  rw [if_pos rfl, hself] at hmoved
  refine ⟨_, hregister, ?_, by rw [hmoved]; rfl, ?_, hl.moveEntry hget _,
    (aside_adopt hc.toLinked hshard).trans (aside_moveEntry hl hget _)⟩
  · rw [Registry.get?, shards_moveEntry]
    exact hget
  · rw [hmoved]
    exact ⟨rfl, hvalid.bounded, hvalid.counted⟩

theorem getOrCreate_of_get? (hget : c.get? key = some id) (now ttl : UInt64) :
    c.getOrCreate now key ttl = (id, c) := by
  have hshard : c.shards.get? (c.shardOf key) key = some id := hget
  have hreg : c.toRegistry.getOrCreate (c.shardOf key) key (expiryAfter now ttl) =
      ((id, false), c.toRegistry) := by
    simp only [Registry.getOrCreate, hshard]
  simp only [getOrCreate, hreg]
  rfl

theorem getOrCreate_of_none (hget : c.get? key = none) (now ttl : UInt64) :
    c.getOrCreate now key ttl = (c.sketches.next,
      (c.adopt { key, shard := c.shardOf key, expiresAt := expiryAfter now ttl }).registerExpiry
        c.sketches.next) := by
  have hshard : c.shards.get? (c.shardOf key) key = none := hget
  have hreg : c.toRegistry.getOrCreate (c.shardOf key) key (expiryAfter now ttl) =
      ((c.sketches.next, true),
        (c.adopt { key, shard := c.shardOf key, expiresAt := expiryAfter now ttl }).toRegistry) := by
    simp only [Registry.getOrCreate, hshard]
    rfl
  simp only [getOrCreate, hreg]
  rfl

theorem aside_getOrCreate (hc : c.Coupled) (now : UInt64) (key : String) (ttl : UInt64) :
    ∃ id c', c.getOrCreate now key ttl = (id, c') ∧ c'.get? key = some id ∧
      (c'.sketch id).account = (c.account? key).getD ⟨.empty, expiryAfter now ttl⟩ ∧
      Placed (c'.sketch id) ∧ c'.Linked none ∧ Aside key c c' := by
  cases hget : c.get? key with
  | some id =>
    refine ⟨id, c, getOrCreate_of_get? hget now ttl, hget, ?_, hc.placed key id hget, hc.toLinked,
      .refl key c⟩
    rw [account?_eq hget]
    rfl
  | none =>
    let s : Sketch := { key, shard := c.shardOf key, expiresAt := expiryAfter now ttl }
    have hcreate : c.getOrCreate now key ttl =
        (c.sketches.next, (c.adopt s).registerExpiry c.sketches.next) := getOrCreate_of_none hget now ttl
    obtain ⟨c', heq, hget', haccount, hplaced, hl, haside⟩ :=
      yields_adopt (s := s) hc (Sketch.valid_new _ _ _ _) rfl rfl rfl hget
    refine ⟨c.sketches.next, c', by rw [hcreate, heq], hget', ?_, hplaced, hl, haside⟩
    rw [haccount, account?, hget]
    rfl

/-! ### Counting values -/

theorem snd_count (c : Container) (id : SketchId) (value : List UInt8) :
    (c.count id value).2 = c.alter (·.edit id (·.observe c.config.hashing value)) := by
  unfold count Sketch.observe
  split
  · exact (congrArg (fun w => { c with toWriteBack := w }) (WriteBack.edit_id c.toWriteBack id)).symm
  · exact congrArg (fun w => { c with toWriteBack := w })
      (WriteBack.edit_const c.toWriteBack id fun s => (s.addHash (c.config.hashing.hash32 value)).1)

theorem snd_count_foldl (c : Container) (id : SketchId) (dirty : Bool) (values : List (List UInt8)) :
    (values.foldl (fun (dirty, c) value =>
      let (becameDirty, c) := c.count id value
      (dirty || becameDirty, c)) (dirty, c)).2 =
      c.alter (·.edit id (·.absorb c.config.hashing values)) := by
  induction values generalizing c dirty with
  | nil =>
    exact (congrArg (fun w => { c with toWriteBack := w })
      (WriteBack.edit_id c.toWriteBack id)).symm
  | cons value values ih =>
    have hone := snd_count c id value
    obtain ⟨becameDirty, c', hcount⟩ : ∃ d c', c.count id value = (d, c') := ⟨_, _, rfl⟩
    simp only [hcount] at hone
    simp only [List.foldl_cons, hcount]
    rw [ih, hone]
    exact congrArg (fun w => { c with toWriteBack := w }) (WriteBack.edit_edit _ id _ _)

theorem alike_enqueueDirty (c : Container) (id : SketchId) (dirty : Bool) :
    Alike c (c.enqueueDirty id dirty) := by
  unfold enqueueDirty
  split
  · exact ⟨.refl _ _, rfl, rfl, rfl, rfl⟩
  · exact .refl c

theorem yields_addMany (hc : c.Coupled) (now : UInt64) (key : String) (values : List (List UInt8))
    (ttl : UInt64) :
    Yields c (fun k => if k = key then
        some (values.foldl (Account.observe c.config.hashing)
          ((c.account? key).getD ⟨.empty, expiryAfter now ttl⟩))
      else c.account? k) (c.addMany now key values ttl) := by
  obtain ⟨id, c', heq, hget, haccount, hplaced, hl, haside⟩ := aside_getOrCreate hc now key ttl
  have hfold := snd_count_foldl c' id false values
  have hadd : Alike (c'.alter (·.edit id (·.absorb c'.config.hashing values)))
      (c.addMany now key values ttl) := by
    rw [addMany, heq, ← hfold]
    exact alike_enqueueDirty _ _ _
  obtain ⟨hkey, hshard⟩ := (c'.sketch id).absorb_core c'.config.hashing values
  obtain ⟨hdeleted, hbucket, -, hexpires⟩ := (c'.sketch id).absorb_frame c'.config.hashing values
  have hplace : Placed ((c'.sketch id).absorb c'.config.hashing values) := by
    refine ⟨?_, hplaced.valid.absorb _ _⟩
    rw [hbucket, hexpires]
    exact hplaced.bucket
  have hyields := Yields.of_edit hc haside hl hget hkey hshard hdeleted hbucket hplace
  rw [Sketch.account_absorb, haccount, haside.config] at hyields
  rw [haside.config] at hadd
  exact hyields.alike hadd

/-! ### Expiry and deletion -/

theorem shards_schedule (w : WriteBack) (id : SketchId) : (w.schedule id).shards = w.shards := by
  rw [WriteBack.toRegistry_schedule, Registry.shards_modify]

theorem alike_alter (c : Container) {g : WriteBack → WriteBack}
    (hkept : Registry.Kept Sketch.core c.toRegistry (g c.toWriteBack).toRegistry)
    (hshards : (g c.toWriteBack).shards = c.shards) : Alike c (c.alter g) :=
  ⟨hkept, hshards, rfl, rfl, rfl⟩

theorem alike_schedule (c : Container) (id : SketchId) : Alike c (c.alter (·.schedule id)) :=
  alike_alter c (WriteBack.kept_schedule c.toWriteBack id fun _ => rfl) (shards_schedule _ id)

theorem alike_schedule_if (c : Container) (id : SketchId) :
    Alike c (if c.persistent then c.alter (·.schedule id) else c) := by
  split
  · exact alike_schedule c id
  · exact .refl c

theorem get?_moved (hget : c.get? key = some id) (bucket : Option UInt64) :
    (c.moveEntry id bucket).get? key = some id := by
  rw [Registry.get?, shards_moveEntry]
  exact hget

theorem fst_updateExpiry (hc : c.Coupled) (now : UInt64) (key : String) (ttl : UInt64) :
    (c.updateExpiry now key ttl).1 = (c.account? key).isSome := by
  unfold updateExpiry
  cases hget : c.get? key with
  | none =>
    rw [account?_eq_none.2 hget]
    rfl
  | some id =>
    have live := (hc.get?_eq_some.1 hget).2.1
    rw [account?_eq hget]
    simp only [live, Bool.false_eq_true, if_false, Option.isSome_some]

theorem yields_updateExpiry (hc : c.Coupled) (now : UInt64) (key : String) (ttl : UInt64) :
    Yields c (fun k => if k = key then
        (c.account? key).map fun a => { a with expiresAt := expiryAfter now ttl }
      else c.account? k) (c.updateExpiry now key ttl).2 := by
  cases hget : c.get? key with
  | none =>
    have hnone : c.account? key = none := account?_eq_none.2 hget
    have hstay : (c.updateExpiry now key ttl).2 = c := by rw [updateExpiry, hget]
    have hsame : (fun k => if k = key then (none : Option Account) else c.account? k) =
        c.account? := by
      funext k
      split
      · rename_i hk
        rw [hk, hnone]
      · rfl
    rw [hstay, hnone, Option.map_none, hsame]
    exact hc.yields
  | some id =>
    let expiresAt := expiryAfter now ttl
    obtain ⟨made, live, -⟩ := hc.get?_eq_some.1 hget
    have hmoved := sketch_moveEntry id (bucketFor expiresAt) made
    rw [if_pos rfl] at hmoved
    have hplaced := hc.placed key id hget
    have hyields := Yields.of_edit hc (aside_moveEntry hc.toLinked hget (bucketFor expiresAt))
      (hc.toLinked.moveEntry hget _) (get?_moved hget _) (f := fun s => { s with expiresAt })
      rfl rfl rfl rfl (by rw [hmoved]; exact ⟨rfl, hplaced.valid.bounded, hplaced.valid.counted⟩)
    rw [hmoved] at hyields
    rw [account?_eq hget]
    have hbucket : (if expiryAfter now ttl = 0 then none
        else some (Expiry.bucketOf (expiryAfter now ttl))) = bucketFor expiresAt := rfl
    have hrest : Alike ((c.moveEntry id (bucketFor expiresAt)).alter
        (·.edit id fun s => { s with expiresAt })) (c.updateExpiry now key ttl).2 := by
      simp only [updateExpiry, hget, live, Bool.false_eq_true, if_false,
        moveEntry_edit_expiresAt made, hbucket]
      exact alike_schedule_if _ id
    exact hyields.alike hrest

theorem alike_dismiss (c : Container) (id : SketchId) (tickets : List Ticket) :
    Alike c (c.dismiss id tickets) :=
  ⟨Registry.kept_modify c.toRegistry id fun _ => rfl, rfl, rfl, rfl, rfl⟩

/-- The dead sketch of a key that is gone waits for its ticket. -/
theorem alike_awaiting (c : Container) (id : SketchId) (ticket : Ticket) :
    Alike c (awaiting id ticket ({ c with nextTicket := c.nextTicket + 1 }.alter fun w =>
      (w.edit id fun s => { s with waiters := s.waiters ++ [ticket] }).schedule id)).2 := by
  have hnext : Alike c { c with nextTicket := c.nextTicket + 1 } := ⟨.refl _ _, rfl, rfl, rfl, rfl⟩
  have hkept : Registry.Kept Sketch.core c.toRegistry
      (c.toWriteBack.edit id fun s => { s with waiters := s.waiters ++ [ticket] }).toRegistry :=
    Registry.kept_modify c.toRegistry id fun _ => rfl
  have hall := hnext.trans (alike_alter { c with nextTicket := c.nextTicket + 1 }
    (g := fun w => (w.edit id fun s => { s with waiters := s.waiters ++ [ticket] }).schedule id)
    (hkept.trans (WriteBack.kept_schedule _ id fun _ => rfl)) (shards_schedule _ id))
  unfold awaiting
  dsimp only
  split
  · exact hall
  · exact hall.trans (alike_dismiss _ id [ticket])

theorem markDeleted_eq_strike (c : Container) (id : SketchId) (key : String) :
    (c.without (c.shardOf key) key).markDeleted id =
      (c.moveEntry id none).strike key id fun s => { s with deleted := true } := by
  have hshard : (c.moveEntry id none).shardOf key = c.shardOf key := by
    rw [shardOf, shardOf, shards_moveEntry]
  rw [markDeleted, moveEntry_without, strike, hshard]

theorem beginDelete_unknown (hopen : (c.persistent && c.closed) = false) (hget : c.get? key = none) :
    c.beginDelete key = (.unknown, c) := by
  have hremove : c.toRegistry.remove (c.shardOf key) key =
      (none, (c.toRegistry.remove (c.shardOf key) key).2) := Prod.ext hget rfl
  unfold beginDelete
  rw [hopen, if_neg Bool.false_ne_true, hremove]

theorem beginDelete_found (hopen : (c.persistent && c.closed) = false)
    (hget : c.get? key = some id) : (c.beginDelete key).1 ≠ .unknown ∧ Alike
      ((c.moveEntry id none).strike key id fun s => { s with deleted := true })
      (c.beginDelete key).2 := by
  rw [← markDeleted_eq_strike]
  cases hp : c.persistent with
  | true =>
    rw [hp, Bool.true_and] at hopen
    rw [beginDelete_eq hp hopen hget rfl]
    exact ⟨fun h => (by cases h), alike_awaiting _ id _⟩
  | false =>
    have hremove : c.toRegistry.remove (c.shardOf key) key =
        (some id, (c.toRegistry.remove (c.shardOf key) key).2) := Prod.ext hget rfl
    have hpd : ((c.without (c.shardOf key) key).markDeleted id).persistent = false :=
      (persistent_markDeleted _ id).trans hp
    have hdelete : c.beginDelete key =
        (.removed, (c.without (c.shardOf key) key).markDeleted id) := by
      unfold beginDelete
      rw [hopen, if_neg Bool.false_ne_true, hremove]
      dsimp only
      rw [← without, hpd]
      rfl
    rw [hdelete]
    exact ⟨fun h => (by cases h), .refl _⟩

/-- A deletion finds exactly the keys that stand for something. -/
theorem fst_beginDelete (hopen : (c.persistent && c.closed) = false) (key : String) :
    (c.beginDelete key).1 = .unknown ↔ c.account? key = none := by
  cases hget : c.get? key with
  | none =>
    rw [beginDelete_unknown hopen hget, account?_eq_none]
    exact ⟨fun _ => hget, fun _ => rfl⟩
  | some id =>
    rw [account?_eq hget]
    exact ⟨fun h => absurd h (beginDelete_found hopen hget).1, nofun⟩

theorem yields_beginDelete (hc : c.Coupled) (hopen : (c.persistent && c.closed) = false)
    (key : String) : Yields c (fun k => if k = key then none else c.account? k)
      (c.beginDelete key).2 := by
  cases hget : c.get? key with
  | none =>
    have hsame : (fun k => if k = key then (none : Option Account) else c.account? k) =
        c.account? := by
      funext k
      split
      · rename_i hk
        rw [hk, account?_eq_none.2 hget]
      · rfl
    rw [beginDelete_unknown hopen hget, hsame]
    exact hc.yields
  | some id =>
    obtain ⟨made, -, -⟩ := hc.get?_eq_some.1 hget
    have hmoved := sketch_moveEntry id none made
    rw [if_pos rfl] at hmoved
    have hl := hc.toLinked.moveEntry hget none
    have hget' := get?_moved hget none
    have hstrike := hl.strike hget' (f := fun s => { s with deleted := true })
      (.inl (by rw [hmoved])) rfl rfl rfl
    have haside := (aside_moveEntry hc.toLinked hget none).trans
      (aside_strike hl hget' (f := fun s => { s with deleted := true }))
    have hyields := Yields.of_absent hc haside hstrike (by rw [get?_strike, if_pos rfl])
    exact hyields.alike (beginDelete_found hopen hget).2

/-- A container that has a backend and has been shut down refuses to delete. -/
theorem beginDelete_refused (hclosed : (c.persistent && c.closed) = true) (key : String) :
    c.beginDelete key = (.refused, c) :=
  if_pos hclosed

end Container

end DistinctCount
