import DistinctCount.Container.Sweep
import DistinctCount.Proofs.Container.Client

namespace DistinctCount.Container

variable {c : Container} {n : Nat} {bucket : UInt64} {key : String} {entry : Entry}

/-- What a detached entry says of its sketch for good. -/
def Names (c : Container) (key : String) (entry : Entry) : Prop :=
  entry.sketch < c.sketches.next ∧ (c.sketch entry.sketch).key = key ∧
    entry.shard = (c.sketch entry.sketch).shard

theorem Change.names {k : Nat} {c' : Container} (h : Change k c c') (he : c.Names key entry) :
    c'.Names key entry := by
  obtain ⟨made, hkey, hshard⟩ := he
  have hrev := h.revision made
  exact ⟨Nat.lt_of_lt_of_le made h.next_le, hrev.key.trans hkey, hshard.trans hrev.shard.symm⟩

theorem evict_eq (hc : c.Coherent n) (hn : n < 2 ^ 62) (hp : c.persistent = true)
    (he : c.Names key entry) (hlive : (c.sketch entry.sketch).deleted = false)
    (hbucket : (c.sketch entry.sketch).bucket = some bucket) :
    c.evict bucket key entry = (1, c.retire entry.sketch key []) := by
  obtain ⟨made, hkey, hshard⟩ := he
  have hhome : entry.shard = c.shardOf key := by
    rw [hshard, hc.sound.shard_eq _ made, hkey]
    rfl
  have hsame : c.shards.get? (c.shardOf key) key = some entry.sketch :=
    hc.get?_eq_some.2 ⟨made, hlive, hkey⟩
  have hretire := retire_eq made (hc.measured entry.sketch).1 (hc.room hn entry.sketch) key []
    (f := fun s => { s with deleted := true, bucket := none }) rfl (by simp [Sketch.markDirty, dying])
  have hremove : ((c.alter (·.edit entry.sketch fun s =>
      { s with deleted := true, bucket := none })).toRegistry.removeIfSame entry.shard key
        entry.sketch).2 = _ := congrArg Prod.snd (if_pos (hhome ▸ hsame))
  have hguard : ((c.sketch entry.sketch).deleted ||
      decide ((c.sketch entry.sketch).bucket ≠ some bucket)) = false := by
    rw [hlive, hbucket]
    simp
  unfold evict
  dsimp only
  rw [hguard, if_neg Bool.false_ne_true, hremove, hhome]
  refine congrArg (Prod.mk 1) ((if_pos hp).trans ?_)
  exact hretire

theorem changes_evict (hc : c.Coherent n) (hn : n < 2 ^ 62) (hp : c.persistent = true)
    (he : c.Names key entry) (hx : ∀ k, c.expiry.get? bucket k = none) :
    Changes 0 c (c.evict bucket key entry).2 ∧
      (c.evict bucket key entry).2.expiry = c.expiry ∧
      (∀ k e, c.Names k e → (c.evict bucket key entry).2.Names k e) := by
  by_cases hlive : (c.sketch entry.sketch).deleted = false ∧
      (c.sketch entry.sketch).bucket = some bucket
  · have hunlisted : ∀ b k e, c.expiry.get? b k = some e → e.sketch ≠ entry.sketch := by
      intro b k e hget heq
      obtain ⟨-, -, -, -, hb⟩ := hc.indexed b k e hget
      rw [heq, hlive.2] at hb
      rw [← Option.some.inj hb, hx] at hget
      cases hget
    have hretire : Change 0 c (c.retire entry.sketch key []) :=
      .retire [] he.1 hlive.1 he.2.1 (hc.room hn _) hunlisted (fun _ => nofun)
    rw [evict_eq hc hn hp he hlive.1 hlive.2]
    exact ⟨hretire.changes, rfl, fun _ _ => hretire.names⟩
  · have hstay : c.evict bucket key entry = (0, c) := by
      apply if_pos
      rw [Bool.or_eq_true, decide_eq_true_iff]
      by_cases hd : (c.sketch entry.sketch).deleted = true
      · exact .inl hd
      · exact .inr fun hb => hlive ⟨Bool.eq_false_iff.2 hd, hb⟩
    rw [hstay]
    exact ⟨.refl c, rfl, fun _ _ => id⟩

theorem changes_evictAll (hn : n < 2 ^ 62) (entries : List (String × Entry)) (evicted : Nat)
    (hc : c.Coherent n) (hp : c.persistent = true)
    (he : ∀ e ∈ entries, c.Names e.1 e.2) (hx : ∀ k, c.expiry.get? bucket k = none) :
    Changes 0 c (entries.foldl (fun (evicted, c) (key, entry) =>
      let (n, c) := c.evict bucket key entry
      (evicted + n, c)) (evicted, c)).2 := by
  induction entries generalizing c evicted with
  | nil => exact .refl c
  | cons first entries ih =>
    obtain ⟨hrun, hexpiry, hnames⟩ :=
      changes_evict hc hn hp (he first List.mem_cons_self) hx
    refine hrun.trans (ih _ (hrun.coherent hc) (hrun.frame.2.1.trans hp) ?_ ?_)
    · intro e hm
      exact hnames _ _ (he e (List.mem_cons_of_mem _ hm))
    · intro k
      rw [hexpiry, hx]

theorem changes_sweepBucket (hc : c.Coherent n) (hn : n < 2 ^ 62) (hp : c.persistent = true)
    (bucket : UInt64) : Changes 0 c (c.sweepBucket bucket).2 := by
  unfold sweepBucket
  cases hd : c.expiry.detach bucket with
  | mk detached expiry =>
    cases detached with
    | none => exact .refl c
    | some entries =>
      have hdetach := Change.detach (c := c) bucket
      rw [hd] at hdetach
      refine hdetach.changes.trans (changes_evictAll hn _ _ (hdetach.coherent hc) hp ?_ ?_)
      · intro e hm
        have hget := (Expiry.Index.detach_eq_some (congrArg Prod.fst hd)).1 hm
        obtain ⟨hlt, hkey, hshard, -, -⟩ := hc.indexed _ _ _ hget
        exact ⟨hlt, hkey, hshard⟩
      · intro k
        have hget : (c.expiry.detach bucket).2.get? bucket k = none := by
          rw [Expiry.Index.get?_detach, if_pos rfl]
        rwa [hd] at hget

theorem changes_sweep (hc : c.Coherent n) (hn : n < 2 ^ 62) (hp : c.persistent = true)
    (now : UInt64) : Changes 0 c (c.sweep now).2 := by
  have hall : ∀ (buckets : List UInt64) (evicted : Nat) (c : Container), c.Coherent n →
      c.persistent = true → Changes 0 c (buckets.foldl (fun (evicted, c) bucket =>
        let (n, c) := c.sweepBucket bucket
        (evicted + n, c)) (evicted, c)).2 := by
    intro buckets
    induction buckets with
    | nil => exact fun _ c _ _ => .refl c
    | cons first buckets ih =>
      intro evicted c hc hp
      have hrun := changes_sweepBucket hc hn hp first
      exact hrun.trans (ih _ _ (hrun.coherent hc) (hrun.frame.2.1.trans hp))
  exact hall _ 0 c hc hp

end DistinctCount.Container
