import DistinctCount.Proofs.Container.Restore

/-!
The shards and the expiry index of a container go together: the index lists the live sketch of each key
in the bucket of its expiry, and nothing else. What a key stands for is then a matter of its shard
alone, whatever the write-back does meanwhile.
-/

namespace DistinctCount

/-- What a key stands for. -/
structure Account where
  slots : Slots
  expiresAt : UInt64
deriving DecidableEq

namespace Sketch

def account (s : Sketch) : Account :=
  { slots := s.slots, expiresAt := s.expiresAt }

theorem core_eq {s s' : Sketch} (h : s'.core = s.core) :
    s'.key = s.key ∧ s'.shard = s.shard ∧ s'.slots = s.slots ∧ s'.nonZero = s.nonZero ∧
      s'.expiresAt = s.expiresAt ∧ s'.bucket = s.bucket ∧ s'.deleted = s.deleted := by
  cases s
  cases s'
  simp only [core, Sketch.mk.injEq, and_true, true_and] at h
  exact h

end Sketch

namespace Container

variable {c c' c'' : Container} {id : SketchId} {key : String} {s : Sketch} {out bucket : Option UInt64}
  {f : Sketch → Sketch} {b : UInt64}

def account? (c : Container) (key : String) : Option Account :=
  (c.get? key).map fun id => (c.sketch id).account

/-- The entry that the index is to have of a key in a bucket. -/
def listing (c : Container) (b : UInt64) (key : String) : Option Entry :=
  (c.get? key).bind fun id =>
    if (c.sketch id).bucket = some b then some { shard := (c.sketch id).shard, sketch := id } else none

/-- The registry is sound, and the index lists the live sketches that are not in the bucket `out`. -/
structure Linked (out : Option UInt64) (c : Container) : Prop where
  sound : c.toRegistry.Sound
  listed : ∀ b k, out ≠ some b → c.expiry.get? b k = c.listing b k
  gone : ∀ b k, out = some b → c.expiry.get? b k = none
  filled : c.expiry.Filled
  count : c.shards.count = c.config.shardCount
  hashing : c.shards.hashing = c.config.hashing

/-- The sketch is in order and on record in the bucket of its expiry. -/
structure Placed (s : Sketch) : Prop where
  bucket : s.bucket = bucketFor s.expiresAt
  valid : s.Valid

/-- The index lists all live sketches, each in the bucket of its expiry. -/
structure Coupled (c : Container) : Prop extends Linked none c where
  placed : ∀ key id, c.get? key = some id → Placed (c.sketch id)

/-- Two containers with the same settings that differ in the sketch of one key at most. -/
structure Aside (key : String) (c c' : Container) : Prop where
  get? : ∀ k ≠ key, c'.get? k = c.get? k
  core : ∀ k ≠ key, ∀ id, c.get? k = some id → (c'.sketch id).core = (c.sketch id).core
  config : c'.config = c.config
  closed : c'.closed = c.closed

structure Alike (c c' : Container) : Prop where
  kept : Registry.Kept Sketch.core c.toRegistry c'.toRegistry
  shards : c'.shards = c.shards
  expiry : c'.expiry = c.expiry
  config : c'.config = c.config
  closed : c'.closed = c.closed

theorem Aside.refl (key : String) (c : Container) : Aside key c c :=
  ⟨fun _ _ => rfl, fun _ _ _ _ => rfl, rfl, rfl⟩

theorem Aside.trans (h : Aside key c c') (h' : Aside key c' c'') : Aside key c c'' where
  get? k hk := (h'.get? k hk).trans (h.get? k hk)
  core k hk id hid := (h'.core k hk id ((h.get? k hk).trans hid)).trans (h.core k hk id hid)
  config := h'.config.trans h.config
  closed := h'.closed.trans h.closed

theorem Alike.refl (c : Container) : Alike c c :=
  ⟨.refl _ _, rfl, rfl, rfl, rfl⟩

theorem Alike.trans (h : Alike c c') (h' : Alike c' c'') : Alike c c'' :=
  ⟨h.kept.trans h'.kept, h'.shards.trans h.shards, h'.expiry.trans h.expiry,
    h'.config.trans h.config, h'.closed.trans h.closed⟩

theorem Alike.get? (h : Alike c c') (k : String) : c'.get? k = c.get? k := by
  rw [Registry.get?, Registry.get?, h.shards]

theorem Alike.core (h : Alike c c') (id : SketchId) : (c'.sketch id).core = (c.sketch id).core :=
  h.kept.sketch id

theorem account_of_core {s' : Sketch} (h : s'.core = s.core) : s'.account = s.account := by
  obtain ⟨-, -, hslots, -, hexpires, -⟩ := Sketch.core_eq h
  rw [Sketch.account, Sketch.account, hslots, hexpires]

theorem Placed.of_core {s' : Sketch} (hp : Placed s) (h : s'.core = s.core) : Placed s' := by
  obtain ⟨-, -, hslots, hnonZero, hexpires, hbucket, -⟩ := Sketch.core_eq h
  refine ⟨?_, ?_, ?_⟩
  · rw [hbucket, hexpires]
    exact hp.bucket
  · rw [hslots]
    exact hp.valid.bounded
  · rw [hslots, hnonZero]
    exact hp.valid.counted

theorem listing_congr {k : String} (hget : c'.get? k = c.get? k)
    (hcore : ∀ id, c.get? k = some id → (c'.sketch id).core = (c.sketch id).core) (b : UInt64) :
    c'.listing b k = c.listing b k := by
  rw [listing, listing, hget]
  cases hid : c.get? k with
  | none => rfl
  | some id =>
    obtain ⟨-, hshard, -, -, -, hbucket, -⟩ := Sketch.core_eq (hcore id hid)
    rw [Option.bind_some, Option.bind_some, hbucket, hshard]

theorem Aside.account? (h : Aside key c c') {k : String} (hk : k ≠ key) :
    c'.account? k = c.account? k := by
  rw [Container.account?, Container.account?, h.get? k hk]
  cases hid : c.get? k with
  | none => rfl
  | some id => exact congrArg some (account_of_core (h.core k hk id hid))

theorem Alike.account? (h : Alike c c') (k : String) : c'.account? k = c.account? k := by
  rw [Container.account?, Container.account?, h.get? k]
  cases c.get? k with
  | none => rfl
  | some id => exact congrArg some (account_of_core (h.core id))

theorem listing_eq (hget : c.get? key = some id) (b : UInt64) :
    c.listing b key = if (c.sketch id).bucket = some b then
      some { shard := (c.sketch id).shard, sketch := id } else none := by
  rw [listing, hget, Option.bind_some]

theorem account?_eq (hget : c.get? key = some id) : c.account? key = some (c.sketch id).account := by
  rw [account?, hget, Option.map_some]

theorem account?_eq_none : c.account? key = none ↔ c.get? key = none :=
  Option.map_eq_none_iff

/-- What is left to show of a change of one key is that its own sketch is listed and in its place. -/
theorem Coupled.aside (hc : c.Coupled) (h : Aside key c c') (hl : c'.Linked none)
    (hself : ∀ id, c'.get? key = some id → Placed (c'.sketch id)) : c'.Coupled := by
  refine ⟨hl, ?_⟩
  intro k id hid
  by_cases hk : k = key
  · exact hself id (hk ▸ hid)
  · have hold : c.get? k = some id := (h.get? k hk).symm.trans hid
    exact (hc.placed k id hold).of_core (h.core k hk id hold)

theorem Alike.linked (h : Alike c c') (hc : c.Linked out) : c'.Linked out where
  sound := hc.sound.congr h.shards h.kept.next (fun id => (Sketch.core_eq (h.core id)).1)
    (fun id => (Sketch.core_eq (h.core id)).2.1)
    fun id => (Sketch.core_eq (h.core id)).2.2.2.2.2.2
  listed b k hb := by
    rw [h.expiry, listing_congr (h.get? k) fun id _ => h.core id]
    exact hc.listed b k hb
  gone b k hb := by
    rw [h.expiry]
    exact hc.gone b k hb
  filled := h.expiry ▸ hc.filled
  count := by rw [h.shards, h.config, hc.count]
  hashing := by rw [h.shards, h.config, hc.hashing]

theorem Alike.coupled (h : Alike c c') (hc : c.Coupled) : c'.Coupled where
  toLinked := h.linked hc.toLinked
  placed k id hid := (hc.placed k id ((h.get? k).symm.trans hid)).of_core (h.core id)

theorem Coupled.shut (hc : c.Coupled) (closed stopping : Bool) :
    Coupled { c with closed, stopping } :=
  ⟨⟨hc.sound, hc.listed, hc.gone, hc.filled, hc.count, hc.hashing⟩, hc.placed⟩

theorem Linked.get?_eq_some (hc : c.Linked out) : c.get? key = some id ↔
    id < c.sketches.next ∧ (c.sketch id).deleted = false ∧ (c.sketch id).key = key :=
  hc.sound.get?_eq_some

/-! ### The changes that keep the index in step -/

theorem aside_edit (hc : c.Linked out) (hget : c.get? key = some id) (f : Sketch → Sketch) :
    Aside key c (c.alter (·.edit id f)) := by
  obtain ⟨-, -, hkey⟩ := hc.get?_eq_some.1 hget
  refine ⟨fun _ _ => rfl, ?_, rfl, rfl⟩
  intro k hk other hother
  have hne : other ≠ id := by
    rintro rfl
    exact hk ((hc.get?_eq_some.1 hother).2.2.symm.trans hkey)
  exact congrArg Sketch.core (Registry.sketch_modify_of_ne hne)

theorem Linked.edit (hc : c.Linked out) (hget : c.get? key = some id)
    (hkey : (f (c.sketch id)).key = (c.sketch id).key)
    (hshard : (f (c.sketch id)).shard = (c.sketch id).shard)
    (hdeleted : (f (c.sketch id)).deleted = (c.sketch id).deleted)
    (hbucket : (f (c.sketch id)).bucket = (c.sketch id).bucket) :
    (c.alter (·.edit id f)).Linked out where
  sound := hc.sound.modify hkey hshard hdeleted
  listed b k hb := by
    have made := (hc.get?_eq_some.1 hget).1
    have hself : (c.alter (·.edit id f)).sketch id = f (c.sketch id) :=
      Registry.sketch_modify_self made
    have hlisting : (c.alter (·.edit id f)).listing b k = c.listing b k := by
      by_cases hk : k = key
      · have hget' : (c.alter (·.edit id f)).get? k = some id := hk ▸ hget
        rw [listing_eq hget', listing_eq (hk ▸ hget), hself, hbucket, hshard]
      · have haside := aside_edit hc hget f
        exact listing_congr (haside.get? k hk) (haside.core k hk) b
    rw [hlisting]
    exact hc.listed b k hb
  gone := hc.gone
  filled := hc.filled
  count := hc.count
  hashing := hc.hashing

theorem filled_moveEntry (h : c.expiry.Filled) (id : SketchId) (bucket : Option UInt64) :
    (c.moveEntry id bucket).expiry.Filled := by
  unfold moveEntry
  dsimp only
  split
  · exact h
  · split
    · exact h.relocate _ _ _ _
    · exact h.replace _ _
    · exact h

theorem aside_moveEntry (hc : c.Linked none) (hget : c.get? key = some id)
    (bucket : Option UInt64) : Aside key c (c.moveEntry id bucket) := by
  obtain ⟨made, -, hkey⟩ := hc.get?_eq_some.1 hget
  have hframe := frame_moveEntry c id bucket
  refine ⟨?_, ?_, ?_, ?_⟩
  · intro k _
    rw [Registry.get?, Registry.get?, shards_moveEntry]
  · intro k hk other hother
    have hne : other ≠ id := by
      rintro rfl
      exact hk ((hc.get?_eq_some.1 hother).2.2.symm.trans hkey)
    rw [sketch_moveEntry _ _ made, if_neg hne]
  · rw [hframe]
  · rw [hframe]

theorem Linked.moveEntry (hc : c.Linked none) (hget : c.get? key = some id)
    (bucket : Option UInt64) : (c.moveEntry id bucket).Linked none where
  sound := by
    obtain ⟨made, -, -⟩ := hc.get?_eq_some.1 hget
    apply hc.sound.congr shards_moveEntry next_moveEntry
    all_goals
      intro other
      rw [sketch_moveEntry _ _ made]
      split
      · rename_i he
        rw [he]
      · rfl
  listed b k _ := by
    obtain ⟨made, -, hkey⟩ := hc.get?_eq_some.1 hget
    have haside := aside_moveEntry hc hget bucket
    rw [get?_moveEntry, hkey, hc.listed b k nofun]
    by_cases hk : k = key
    · have hget' : (c.moveEntry id bucket).get? k = some id := by
        rw [Registry.get?, shards_moveEntry, hk]
        exact hget
      rw [listing_eq hget', listing_eq (hk ▸ hget), sketch_moveEntry _ _ made, if_pos rfl]
      by_cases hsame : (c.sketch id).bucket = bucket
      · rw [if_pos hsame, hsame]
      · rw [if_neg hsame]
        by_cases hb : bucket = some b
        · simp [hb, hk]
        · by_cases hleft : (c.sketch id).bucket = some b
          · simp [hb, hk, hleft]
          · simp [hb, hleft]
    · rw [listing_congr (haside.get? k hk) (haside.core k hk) b]
      simp only [hk, and_false, if_false, ite_self]
  gone := nofun
  filled := filled_moveEntry hc.filled id bucket
  count := by rw [shards_moveEntry, hc.count, (aside_moveEntry hc hget bucket).config]
  hashing := by rw [shards_moveEntry, hc.hashing, (aside_moveEntry hc hget bucket).config]

/-- A sketch in no bucket that stays in the index is taken into its shard. -/
theorem get?_adopt (hc : c.Linked out) (hshard : s.shard = c.shards.shardOf s.key) (k : String) :
    (c.adopt s).get? k = if k = s.key then some c.sketches.next else c.get? k := by
  have hlt := Shards.shardOf_lt hc.sound.count_pos s.key
  have hself : ((c.toRegistry.make s).2.sketch c.sketches.next).key = s.key := by
    rw [Registry.sketch_make, if_pos rfl]
  have hshards : (c.adopt s).shards = c.shards.insert (c.shards.shardOf s.key) s.key c.sketches.next := by
    rw [← hshard, ← hself]
    rfl
  rw [Registry.get?, hshards, Shards.shardOf_insert, Shards.get?_insert hlt]
  by_cases hk : k = s.key
  · rw [if_pos ⟨by rw [hk], hk⟩, if_pos hk]
  · rw [if_neg fun h => hk h.2, if_neg hk]
    rfl

theorem aside_adopt (hc : c.Linked out) (hshard : s.shard = c.shards.shardOf s.key) :
    Aside s.key c (c.adopt s) := by
  refine ⟨?_, ?_, rfl, rfl⟩
  · intro k hk
    rw [get?_adopt hc hshard, if_neg hk]
  · intro k _ id hid
    rw [sketch_adopt, if_neg (Nat.ne_of_lt (hc.get?_eq_some.1 hid).1)]

theorem Linked.adopt (hc : c.Linked none) (hshard : s.shard = c.shards.shardOf s.key)
    (hlive : s.deleted = false) (hbucket : s.bucket = none) (hfree : c.get? s.key = none) :
    (c.adopt s).Linked none where
  sound := by
    have h := hc.sound.create rfl hshard hlive hfree
    rwa [← hshard] at h
  listed b k _ := by
    have haside := aside_adopt hc hshard
    refine (hc.listed b k nofun).trans ?_
    by_cases hk : k = s.key
    · have hget : (c.adopt s).get? k = some c.sketches.next := by
        rw [get?_adopt hc hshard, if_pos hk]
      rw [listing_eq hget, sketch_adopt, if_pos rfl, hbucket, if_neg nofun, listing, hk, hfree]
      rfl
    · exact (listing_congr (haside.get? k hk) (haside.core k hk) b).symm
  gone := nofun
  filled := hc.filled
  count := Shards.count_insert.trans hc.count
  hashing := hc.hashing

def strike (c : Container) (key : String) (id : SketchId) (f : Sketch → Sketch) : Container :=
  (c.without (c.shardOf key) key).alter (·.edit id f)

theorem get?_strike (c : Container) (key : String) (id : SketchId) (f : Sketch → Sketch)
    (k : String) : (c.strike key id f).get? k = if k = key then none else c.get? k := by
  have hshards : (c.strike key id f).shards = c.shards.erase (c.shards.shardOf key) key := rfl
  rw [Registry.get?, hshards, Shards.shardOf_erase, Shards.get?_erase]
  by_cases hk : k = key
  · rw [if_pos ⟨by rw [hk], hk⟩, if_pos hk]
  · rw [if_neg fun h => hk h.2, if_neg hk]
    rfl

theorem aside_strike (hc : c.Linked out) (hget : c.get? key = some id) :
    Aside key c (c.strike key id f) := by
  obtain ⟨-, -, hkey⟩ := hc.get?_eq_some.1 hget
  refine ⟨?_, ?_, rfl, rfl⟩
  · intro k hk
    rw [get?_strike, if_neg hk]
  · intro k hk other hother
    have hne : other ≠ id := by
      rintro rfl
      exact hk ((hc.get?_eq_some.1 hother).2.2.symm.trans hkey)
    change ((c.toRegistry.modify id f).sketch other).core = _
    rw [Registry.sketch_modify_of_ne hne]

theorem Linked.strike (hc : c.Linked out) (hget : c.get? key = some id)
    (hout : (c.sketch id).bucket = none ∨ (c.sketch id).bucket = out)
    (hkey : (f (c.sketch id)).key = (c.sketch id).key)
    (hshard : (f (c.sketch id)).shard = (c.sketch id).shard)
    (hdead : (f (c.sketch id)).deleted = true) : (c.strike key id f).Linked out where
  sound := by
    obtain ⟨made, live, under⟩ := hc.get?_eq_some.1 hget
    exact hc.sound.retire made live under hkey hshard hdead
  listed b k hb := by
    have haside : Aside key c (c.strike key id f) := aside_strike hc hget
    refine (hc.listed b k hb).trans ?_
    by_cases hk : k = key
    · have hgone : (c.strike key id f).listing b k = none := by
        rw [listing, get?_strike, if_pos hk]
        rfl
      rw [hgone, listing_eq (hk ▸ hget)]
      rcases hout with h | h
      · rw [h]
        rfl
      · rw [h, if_neg hb]
    · rw [listing_congr (haside.get? k hk) (haside.core k hk) b]
  gone := hc.gone
  filled := hc.filled
  count := Shards.count_erase.trans hc.count
  hashing := hc.hashing

theorem Linked.detach (hc : c.Linked none) (b : UInt64) :
    Linked (some b) { c with expiry := (c.expiry.detach b).2 } where
  sound := hc.sound
  listed other k ho := by
    rw [Expiry.Index.get?_detach, if_neg fun h => ho (congrArg some h.symm)]
    exact hc.listed other k nofun
  gone other k ho := by
    rw [Expiry.Index.get?_detach, if_pos (Option.some.inj ho).symm]
  filled := hc.filled.erase_bucket b
  count := hc.count
  hashing := hc.hashing

/-- A bucket that no live sketch is in need not be listed. -/
theorem Linked.settle (hc : c.Linked (some b))
    (hnone : ∀ k id, c.get? k = some id → (c.sketch id).bucket ≠ some b) : c.Linked none where
  sound := hc.sound
  listed other k _ := by
    by_cases ho : b = other
    · subst ho
      rw [hc.gone b k rfl]
      cases hget : c.get? k with
      | none => rw [listing, hget, Option.bind_none]
      | some id => rw [listing_eq hget, if_neg (hnone k id hget)]
    · exact hc.listed other k fun h => ho (Option.some.inj h)
  gone := nofun
  filled := hc.filled
  count := hc.count
  hashing := hc.hashing

end Container

end DistinctCount
