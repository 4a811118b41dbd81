import DistinctCount.Proofs.Container.Effect

namespace DistinctCount.Container

variable {c c' c'' : Container} {id : SketchId} {key : String} {keys keys' gone : List String}
  {b : UInt64} {entry : Entry}

/-- Some keys are gone, and all others are as they were. -/
structure Cleared (keys : List String) (c c' : Container) : Prop where
  gone : ∀ k ∈ keys, c'.get? k = none
  get? : ∀ k ∉ keys, c'.get? k = c.get? k
  core : ∀ k ∉ keys, ∀ id, c.get? k = some id → (c'.sketch id).core = (c.sketch id).core
  config : c'.config = c.config
  closed : c'.closed = c.closed

theorem Cleared.refl (c : Container) : Cleared [] c c :=
  ⟨nofun, fun _ _ => rfl, fun _ _ _ _ => rfl, rfl, rfl⟩

theorem Cleared.trans (h : Cleared keys c c') (h' : Cleared keys' c' c'') :
    Cleared (keys ++ keys') c c'' where
  gone k hk := by
    by_cases hk' : k ∈ keys'
    · exact h'.gone k hk'
    · rw [h'.get? k hk', h.gone k ((List.mem_append.1 hk).resolve_right hk')]
  get? k hk := by
    obtain ⟨hk, hk'⟩ := not_or.1 (mt List.mem_append.2 hk)
    rw [h'.get? k hk', h.get? k hk]
  core k hk id hid := by
    obtain ⟨hk, hk'⟩ := not_or.1 (mt List.mem_append.2 hk)
    rw [h'.core k hk' id ((h.get? k hk).trans hid), h.core k hk id hid]
  config := h'.config.trans h.config
  closed := h'.closed.trans h.closed

theorem Cleared.of_aside (h : Aside key c c') (hgone : c'.get? key = none) : Cleared [key] c c' where
  gone _ hk := List.mem_singleton.1 hk ▸ hgone
  get? k hk := h.get? k fun he => hk (List.mem_singleton.2 he)
  core k hk := h.core k fun he => hk (List.mem_singleton.2 he)
  config := h.config
  closed := h.closed

theorem Cleared.alike (h : Cleared keys c c') (h' : Alike c' c'') : Cleared keys c c'' where
  gone k hk := (h'.get? k).trans (h.gone k hk)
  get? k hk := (h'.get? k).trans (h.get? k hk)
  core k hk id hid := (h'.core id).trans (h.core k hk id hid)
  config := h'.config.trans h.config
  closed := h'.closed.trans h.closed

theorem Cleared.account? (h : Cleared keys c c') (k : String) :
    c'.account? k = if k ∈ keys then none else c.account? k := by
  split
  · rename_i hk
    rw [Container.account?, h.gone k hk]
    rfl
  · rename_i hk
    rw [Container.account?, Container.account?, h.get? k hk]
    cases hid : c.get? k with
    | none => rfl
    | some id => exact congrArg some (account_of_core (h.core k hk id hid))

structure Entered (c : Container) (b : UInt64) (key : String) (entry : Entry) : Prop where
  get? : c.get? key = some entry.sketch
  bucket : (c.sketch entry.sketch).bucket = some b
  shard : entry.shard = (c.sketch entry.sketch).shard

theorem Cleared.entered (h : Cleared keys c c') (hk : key ∉ keys) (he : c.Entered b key entry) :
    c'.Entered b key entry := by
  obtain ⟨-, hshard, -, -, -, hbucket, -⟩ := Sketch.core_eq (h.core key hk _ he.get?)
  exact ⟨(h.get? key hk).trans he.get?, hbucket.trans he.bucket, he.shard.trans hshard.symm⟩

theorem entered_iff (hc : c.Linked none) :
    c.expiry.get? b key = some entry ↔ c.Entered b key entry := by
  rw [hc.listed b key nofun]
  constructor
  · intro h
    obtain ⟨id, hget, hentry⟩ := Option.bind_eq_some_iff.1 h
    split at hentry
    · rename_i hbucket
      obtain rfl := Option.some.inj hentry
      exact ⟨hget, hbucket, rfl⟩
    · cases hentry
  · rintro ⟨hget, hbucket, hshard⟩
    rw [listing_eq hget, if_pos hbucket, ← hshard]

theorem cleared_evict (hc : c.Linked (some b)) (he : c.Entered b key entry) :
    ∃ c', c.evict b key entry = (1, c') ∧ c'.Linked (some b) ∧ Cleared [key] c c' := by
  obtain ⟨made, live, hkey⟩ := hc.get?_eq_some.1 he.get?
  have hhome : entry.shard = c.shardOf key := by
    rw [he.shard, hc.sound.shard_eq _ made, hkey]
    rfl
  have hguard : ((c.sketch entry.sketch).deleted ||
      decide ((c.sketch entry.sketch).bucket ≠ some b)) = false := by
    rw [live, he.bucket]
    simp
  let f : Sketch → Sketch := fun s => { s with deleted := true, bucket := none }
  have hremove : ((c.alter (·.edit entry.sketch f)).toRegistry.removeIfSame entry.shard key
      entry.sketch).2 = (c.strike key entry.sketch f).toRegistry := by
    have hsame : (c.alter (·.edit entry.sketch f)).shards.get? entry.shard key =
        some entry.sketch := hhome ▸ he.get?
    rw [Registry.removeIfSame, if_pos hsame, hhome]
    rfl
  have hstrike : c.Linked (some b) → (c.strike key entry.sketch f).Linked (some b) := fun hc =>
    hc.strike he.get? (.inr he.bucket) rfl rfl rfl
  have hrest := alike_schedule_if (c.strike key entry.sketch f) entry.sketch
  refine ⟨_, ?_, hrest.linked (hstrike hc), ?_⟩
  · unfold evict
    dsimp only
    rw [hguard, if_neg Bool.false_ne_true, hremove]
    rfl
  · exact (Cleared.of_aside (aside_strike hc he.get?) (by rw [get?_strike, if_pos rfl])).alike hrest

theorem cleared_entries (entries : List (String × Entry)) (evicted : Nat)
    (hc : c.Linked (some b)) (hnodup : (entries.map Prod.fst).Nodup)
    (he : ∀ e ∈ entries, c.Entered b e.1 e.2) :
    ∃ c', entries.foldl (fun (evicted, c) (key, entry) =>
        let (n, c) := c.evict b key entry
        (evicted + n, c)) (evicted, c) = (evicted + entries.length, c') ∧
      c'.Linked (some b) ∧ Cleared (entries.map Prod.fst) c c' := by
  induction entries generalizing c evicted with
  | nil => exact ⟨c, rfl, hc, .refl c⟩
  | cons first entries ih =>
    obtain ⟨key, entry⟩ := first
    obtain ⟨hnew, hnodup⟩ := List.nodup_cons.1 hnodup
    obtain ⟨c₁, heq, hc₁, hcleared⟩ := cleared_evict hc (he (key, entry) List.mem_cons_self)
    obtain ⟨c', hfold, hc', hrest⟩ := ih (evicted + 1) hc₁ hnodup fun e hm =>
      hcleared.entered
        (fun hk => hnew (List.mem_singleton.1 hk ▸ List.mem_map_of_mem hm))
        (he e (List.mem_cons_of_mem _ hm))
    refine ⟨c', ?_, hc', hcleared.trans hrest⟩
    rw [List.foldl_cons]
    dsimp only
    rw [heq]
    dsimp only
    rw [hfold, List.length_cons, Nat.add_right_comm, Nat.add_assoc]

def bucket? (c : Container) (key : String) : Option UInt64 :=
  (c.account? key).bind fun a => bucketFor a.expiresAt

theorem Coupled.bucket?_eq (hc : c.Coupled) (hget : c.get? key = some id) :
    c.bucket? key = (c.sketch id).bucket := by
  rw [bucket?, account?_eq hget, (hc.placed key id hget).bucket]
  rfl

theorem Coupled.entered_of_bucket? (hc : c.Coupled) (h : c.bucket? key = some b) :
    ∃ entry, c.Entered b key entry := by
  cases hget : c.get? key with
  | none =>
    rw [bucket?, account?, hget] at h
    cases h
  | some id => exact ⟨⟨(c.sketch id).shard, id⟩, hget, (hc.bucket?_eq hget).symm.trans h, rfl⟩

theorem Coupled.bucket?_of_entered (hc : c.Coupled) (he : c.Entered b key entry) :
    c.bucket? key = some b :=
  (hc.bucket?_eq he.get?).trans he.bucket

theorem Cleared.coupled (h : Cleared keys c c') (hc : c.Coupled) (hl : c'.Linked none) :
    c'.Coupled := by
  refine ⟨hl, ?_⟩
  intro k id hid
  by_cases hk : k ∈ keys
  · rw [h.gone k hk] at hid
    cases hid
  · have hold := (h.get? k hk).symm.trans hid
    exact (hc.placed k id hold).of_core (h.core k hk id hold)

theorem cleared_sweepBucket (hc : c.Coupled) (b : UInt64) :
    ∃ gone c', c.sweepBucket b = (gone.length, c') ∧ gone.Nodup ∧
      (∀ k, k ∈ gone ↔ c.bucket? k = some b) ∧ c'.Coupled ∧ Cleared gone c c' := by
  have hlisted : ∀ k entry, c.expiry.get? b k = some entry ↔ c.Entered b k entry :=
    fun k entry => entered_iff hc.toLinked
  unfold sweepBucket
  cases hd : c.expiry.detach b with
  | mk detached expiry =>
    cases detached with
    | none =>
      refine ⟨[], c, rfl, .nil, fun k => ⟨nofun, fun hk => ?_⟩, hc, .refl c⟩
      obtain ⟨entry, hentry⟩ := hc.entered_of_bucket? hk
      have hget := (hlisted k entry).2 hentry
      rw [Expiry.Index.get?_of_detach_eq_none (congrArg Prod.fst hd)] at hget
      cases hget
    | some entries =>
      have hmem : ∀ k entry, (k, entry) ∈ entries.toList ↔ c.Entered b k entry :=
        fun k entry => (Expiry.Index.detach_eq_some (congrArg Prod.fst hd)).trans (hlisted k entry)
      have hnodup : (entries.toList.map Prod.fst).Nodup := by
        rw [Std.TreeMap.map_fst_toList_eq_keys]
        exact Std.TreeMap.nodup_keys
      have hdetach := hc.toLinked.detach b
      rw [hd] at hdetach
      obtain ⟨c', hfold, hc', hcleared⟩ := cleared_entries entries.toList 0 hdetach hnodup
        fun e he => ⟨((hmem e.1 e.2).1 he).get?, ((hmem e.1 e.2).1 he).bucket,
          ((hmem e.1 e.2).1 he).shard⟩
      have hkeys : ∀ k, k ∈ entries.toList.map Prod.fst ↔ c.bucket? k = some b := by
        intro k
        rw [List.mem_map]
        constructor
        · rintro ⟨⟨_, entry⟩, hm, rfl⟩
          exact hc.bucket?_of_entered ((hmem _ entry).1 hm)
        · intro hk
          obtain ⟨entry, hentry⟩ := hc.entered_of_bucket? hk
          exact ⟨(k, entry), (hmem k entry).2 hentry, rfl⟩
      have hall : Cleared (entries.toList.map Prod.fst) c c' :=
        ⟨hcleared.gone, hcleared.get?, hcleared.core, hcleared.config, hcleared.closed⟩
      refine ⟨_, c', ?_, hnodup, hkeys, hall.coupled hc (hc'.settle ?_), hall⟩
      · rw [List.length_map]
        exact hfold.trans (by rw [Nat.zero_add])
      · intro k id hid hbucket
        by_cases hk : k ∈ entries.toList.map Prod.fst
        · rw [hall.gone k hk] at hid
          cases hid
        · have hold := (hall.get? k hk).symm.trans hid
          obtain ⟨-, -, -, -, -, hsame, -⟩ := Sketch.core_eq (hall.core k hk id hold)
          exact hk ((hkeys k).2 ((hc.bucket?_eq hold).trans (hsame.symm.trans hbucket)))

theorem Cleared.bucket? (h : Cleared keys c c') (hk : key ∉ keys) : c'.bucket? key = c.bucket? key := by
  rw [Container.bucket?, Container.bucket?, h.account?, if_neg hk]

theorem cleared_buckets (buckets : List UInt64) (evicted : Nat) (hc : c.Coupled) :
    ∃ gone c', buckets.foldl (fun (evicted, c) bucket =>
        let (n, c) := c.sweepBucket bucket
        (evicted + n, c)) (evicted, c) = (evicted + gone.length, c') ∧ gone.Nodup ∧
      (∀ k, k ∈ gone ↔ ∃ b ∈ buckets, c.bucket? k = some b) ∧ c'.Coupled ∧ Cleared gone c c' := by
  induction buckets generalizing c evicted with
  | nil => exact ⟨[], c, rfl, .nil, by simp, hc, .refl c⟩
  | cons first buckets ih =>
    obtain ⟨gone₁, c₁, heq, hnodup₁, hgone₁, hc₁, hcleared₁⟩ := cleared_sweepBucket hc first
    obtain ⟨gone, c', hfold, hnodup, hgone, hc', hcleared⟩ := ih (evicted + gone₁.length) hc₁
    have hapart : ∀ k ∈ gone, k ∉ gone₁ := by
      intro k hk hk₁
      obtain ⟨b, -, hb⟩ := (hgone k).1 hk
      rw [Container.bucket?, hcleared₁.account?, if_pos hk₁] at hb
      cases hb
    refine ⟨gone₁ ++ gone, c', ?_, ?_, ?_, hc', hcleared₁.trans hcleared⟩
    · rw [List.foldl_cons]
      dsimp only
      rw [heq]
      dsimp only
      rw [hfold, List.length_append, Nat.add_assoc]
    · exact List.nodup_append'.2 ⟨hnodup₁, hnodup, fun k hk₁ hk => hapart k hk hk₁⟩
    · intro k
      rw [List.mem_append]
      constructor
      · rintro (hk | hk)
        · exact ⟨first, List.mem_cons_self, (hgone₁ k).1 hk⟩
        · obtain ⟨b, hb, hbucket⟩ := (hgone k).1 hk
          exact ⟨b, List.mem_cons_of_mem _ hb, (hcleared₁.bucket? (hapart k hk)).symm.trans hbucket⟩
      · rintro ⟨b, hb, hbucket⟩
        by_cases hk : k ∈ gone₁
        · exact .inl hk
        · rcases List.mem_cons.1 hb with rfl | hb
          · exact .inl ((hgone₁ k).2 hbucket)
          · exact .inr ((hgone k).2 ⟨b, hb, (hcleared₁.bucket? hk).trans hbucket⟩)

/-- A sweep takes exactly the keys whose bucket is one of the first that are due. -/
theorem cleared_sweep (hc : c.Coupled) (now : UInt64) :
    ∃ gone c', c.sweep now = (gone.length, c') ∧ gone.Nodup ∧
      (∀ k, k ∈ gone ↔ ∃ b ∈ c.expiry.dueBuckets now c.config.sweepBatch, c.bucket? k = some b) ∧
      c'.Coupled ∧ Cleared gone c c' := by
  obtain ⟨gone, c', hfold, hrest⟩ :=
    cleared_buckets (c.expiry.dueBuckets now c.config.sweepBatch) 0 hc
  exact ⟨gone, c', hfold.trans (by rw [Nat.zero_add]), hrest⟩

end DistinctCount.Container
