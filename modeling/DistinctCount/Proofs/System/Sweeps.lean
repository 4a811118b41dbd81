import Mathlib.Algebra.Order.Floor.Div
import DistinctCount.Proofs.Container.Table
import DistinctCount.Proofs.System.Coupled

/-!
Sweeps that follow one another. Each takes as many of the buckets that have passed as it may, and every
bucket has a key, so a sweep that finds no key has none left to find.
-/

namespace DistinctCount

namespace Expiry

variable {now e : UInt64}

/-- All seconds of the bucket of an expiry have passed. -/
def Elapsed (now expiresAt : UInt64) : Prop :=
  expiresAt ≠ 0 ∧ (bucketOf expiresAt).toNat + 64 ≤ now.toNat

instance (now expiresAt : UInt64) : Decidable (Elapsed now expiresAt) :=
  inferInstanceAs (Decidable (_ ∧ _))

theorem toNat_bucketOf (e : UInt64) : (bucketOf e).toNat = e.toNat / 64 * 64 := by
  have hdiv : (e / 64).toNat = e.toNat / 64 := UInt64.toNat_div e 64
  have hlt := e.toNat_lt
  have hwidth : (64 : UInt64).toNat = 64 := rfl
  rw [bucketOf, UInt64.toNat_mul, hdiv, hwidth]
  exact Nat.mod_eq_of_lt (by omega)

theorem not_elapsed_of_le (h : now ≤ e) : ¬ Elapsed now e := by
  rintro ⟨-, hpassed⟩
  rw [toNat_bucketOf] at hpassed
  have hle := UInt64.le_iff_toNat_le.1 h
  omega

/-- The last bucket never passes. -/
theorem not_elapsed_of_last (h : 2 ^ 64 - 64 ≤ e.toNat) : ¬ Elapsed now e := by
  rintro ⟨-, hpassed⟩
  rw [toNat_bucketOf] at hpassed
  have hlt := now.toNat_lt
  omega

theorem elapsed_of_add_le (hne : e ≠ 0) (h : e.toNat + 64 ≤ now.toNat) : Elapsed now e := by
  refine ⟨hne, ?_⟩
  rw [toNat_bucketOf]
  omega

end Expiry

open Expiry

namespace Container

variable {c c' c'' : Container} {now : UInt64} {n m : Nat} {key : String} {a : Account}

theorem elapsed_iff {e b : UInt64} (hb : bucketFor e = some b) :
    Elapsed now e ↔ isDue now b = true := by
  unfold bucketFor at hb
  split at hb
  · cases hb
  · rename_i hne
    obtain rfl := Option.some.inj hb
    rw [isDue, decide_eq_true_iff]
    exact ⟨fun h => h.2, fun h => ⟨hne, h⟩⟩

def elapsed (c : Container) (now : UInt64) : Finset UInt64 :=
  (((c.shards.keys.filterMap c.expiryOf).filter (Elapsed now ·)).map bucketOf).toFinset

theorem expiryOf_eq (c : Container) (key : String) :
    c.expiryOf key = (c.account? key).map (·.expiresAt) := by
  rw [account?, Option.map_map]
  rfl

theorem bucket?_eq_some {b : UInt64} : c.bucket? key = some b ↔
    ∃ a, c.account? key = some a ∧ bucketFor a.expiresAt = some b :=
  Option.bind_eq_some_iff

theorem Coupled.mem_keys (hc : c.Coupled) :
    key ∈ c.shards.keys ↔ ∃ a, c.account? key = some a := by
  rw [hc.sound.mem_keys, ← Option.isSome_iff_exists, ← Option.isSome_iff_exists, account?,
    Option.isSome_map]

theorem Coupled.mem_elapsed (hc : c.Coupled) {b : UInt64} :
    b ∈ c.elapsed now ↔ (∃ k, c.bucket? k = some b) ∧ isDue now b = true := by
  simp only [elapsed, List.mem_toFinset, List.mem_map, List.mem_filter, List.mem_filterMap,
    hc.mem_keys, expiryOf_eq, Option.map_eq_some_iff, decide_eq_true_iff, bucket?_eq_some]
  constructor
  · rintro ⟨e, ⟨⟨k, -, a, ha, rfl⟩, helapsed⟩, rfl⟩
    have hb : bucketFor a.expiresAt = some (bucketOf a.expiresAt) := if_neg helapsed.1
    exact ⟨⟨k, a, ha, hb⟩, (elapsed_iff hb).1 helapsed⟩
  · rintro ⟨⟨k, a, ha, hb⟩, hdue⟩
    have helapsed := (elapsed_iff hb).2 hdue
    refine ⟨a.expiresAt, ⟨⟨k, ⟨a, ha⟩, a, ha, rfl⟩, helapsed⟩, ?_⟩
    exact Option.some.inj ((if_neg helapsed.1).symm.trans hb)

theorem Coupled.elapsed_eq_empty (hc : c.Coupled) :
    c.elapsed now = ∅ ↔ ∀ key a, c.account? key = some a → ¬ Elapsed now a.expiresAt := by
  rw [Finset.eq_empty_iff_forall_notMem]
  constructor
  · intro h key a ha helapsed
    have hb : bucketFor a.expiresAt = some (bucketOf a.expiresAt) := if_neg helapsed.1
    exact h _ (hc.mem_elapsed.2 ⟨⟨key, bucket?_eq_some.2 ⟨a, ha, hb⟩⟩, (elapsed_iff hb).1 helapsed⟩)
  · intro h b hb
    obtain ⟨⟨k, hk⟩, hdue⟩ := hc.mem_elapsed.1 hb
    obtain ⟨a, ha, hb⟩ := bucket?_eq_some.1 hk
    exact h k a ha ((elapsed_iff hb).2 hdue)

theorem Coupled.elapsed_eq (hc : c.Coupled) (now : UInt64) :
    c.elapsed now = (c.expiry.buckets.keys.filter (isDue now)).toFinset := by
  ext b
  rw [hc.mem_elapsed, List.mem_toFinset, List.mem_filter, Std.TreeMap.mem_keys, hc.mem_buckets]

/-- What sweeps at one time have made of a container when they could take `n` buckets. -/
structure Thinned (now : UInt64) (n : Nat) (c c' : Container) : Prop where
  coupled : c'.Coupled
  config : c'.config = c.config
  card : (c'.elapsed now).card = (c.elapsed now).card - n
  account : ∀ key, c'.account? key = c.account? key ∨
    c'.account? key = none ∧ ∃ a, c.account? key = some a ∧ Elapsed now a.expiresAt

theorem Thinned.refl (hc : c.Coupled) (now : UInt64) : Thinned now 0 c c :=
  ⟨hc, rfl, rfl, fun _ => .inl rfl⟩

theorem Thinned.trans (h : Thinned now n c c') (h' : Thinned now m c' c'') : Thinned now (n + m) c c'' where
  coupled := h'.coupled
  config := h'.config.trans h.config
  card := by rw [h'.card, h.card, Nat.sub_sub]
  account key := by
    rcases h'.account key with heq | ⟨hgone, a, ha, helapsed⟩
    · rw [heq]
      exact h.account key
    · rcases h.account key with heq | ⟨hnone, -⟩
      · exact .inr ⟨hgone, a, heq.symm.trans ha, helapsed⟩
      · rw [hnone] at ha
        cases ha

theorem Thinned.kept (h : Thinned now n c c') (ha : c.account? key = some a)
    (hstay : ¬ Elapsed now a.expiresAt) : c'.account? key = some a := by
  rcases h.account key with heq | ⟨-, a', ha', helapsed⟩
  · rw [heq, ha]
  · obtain rfl := Option.some.inj (ha.symm.trans ha')
    exact absurd helapsed hstay

/-- Once no bucket is left that has passed, exactly the keys of such buckets are gone. -/
theorem Thinned.finished (h : Thinned now n c c') (hn : (c.elapsed now).card ≤ n) (key : String) :
    c'.account? key = (c.account? key).filter fun a => ¬ Elapsed now a.expiresAt := by
  have hempty : c'.elapsed now = ∅ := by
    rw [← Finset.card_eq_zero, h.card, Nat.sub_eq_zero_of_le hn]
  have hleft := h.coupled.elapsed_eq_empty.1 hempty key
  rcases h.account key with heq | ⟨hgone, a, ha, helapsed⟩
  · rw [heq]
    cases ha : c.account? key with
    | none => rfl
    | some a =>
      rw [Option.filter_some, if_pos]
      exact decide_eq_true (hleft a (heq.trans ha))
  · rw [hgone, ha, Option.filter_some, if_neg]
    simpa using helapsed

theorem Cleared.keyCount {gone : List String} (h : Cleared gone c c') (hc : c.Coupled)
    (hc' : c'.Coupled) (hnodup : gone.Nodup) (hgone : ∀ k ∈ gone, ∃ a, c.account? k = some a) :
    c.keyCount = c'.keyCount + gone.length := by
  have hperm : c.shards.keys.Perm (c'.shards.keys ++ gone) := by
    refine (List.perm_ext_iff_of_nodup hc.sound.nodup_keys ?_).2 ?_
    · refine List.nodup_append'.2 ⟨hc'.sound.nodup_keys, hnodup, fun k hk hk' => ?_⟩
      obtain ⟨a, ha⟩ := hc'.mem_keys.1 hk
      rw [h.account?, if_pos hk'] at ha
      cases ha
    · intro k
      rw [List.mem_append, hc.mem_keys, hc'.mem_keys, h.account?]
      by_cases hk : k ∈ gone
      · simp [hk, hgone k hk]
      · simp [hk]
  rw [Container.keyCount, Container.keyCount, ← Shards.length_keys, ← Shards.length_keys,
    hperm.length_eq, List.length_append]

theorem Cleared.elapsed_eq {gone : List String} {taken : List UInt64} (h : Cleared gone c c')
    (hc : c.Coupled) (hc' : c'.Coupled)
    (hgone : ∀ k, k ∈ gone ↔ ∃ b ∈ taken, c.bucket? k = some b) :
    c'.elapsed now = c.elapsed now \ taken.toFinset := by
  ext b
  rw [hc'.mem_elapsed, Finset.mem_sdiff, hc.mem_elapsed, List.mem_toFinset]
  constructor
  · rintro ⟨⟨k, hk⟩, hb⟩
    by_cases hk' : k ∈ gone
    · rw [Container.bucket?, h.account?, if_pos hk'] at hk
      cases hk
    · rw [h.bucket? hk'] at hk
      exact ⟨⟨⟨k, hk⟩, hb⟩, fun htake => hk' ((hgone k).2 ⟨b, htake, hk⟩)⟩
  · rintro ⟨⟨⟨k, hk⟩, hb⟩, htake⟩
    refine ⟨⟨k, ?_⟩, hb⟩
    rw [h.bucket?, hk]
    intro hk'
    obtain ⟨b', hb', hbucket⟩ := (hgone k).1 hk'
    obtain rfl := Option.some.inj (hk.symm.trans hbucket)
    exact htake hb'

theorem gone_eq_nil_iff {gone : List String} {taken : List UInt64}
    (hgone : ∀ k, k ∈ gone ↔ ∃ b ∈ taken, c.bucket? k = some b)
    (htaken : ∀ b ∈ taken, ∃ k, c.bucket? k = some b) : gone = [] ↔ taken = [] := by
  rw [List.eq_nil_iff_forall_not_mem, List.eq_nil_iff_forall_not_mem]
  constructor
  · intro h b hb
    obtain ⟨k, hk⟩ := htaken b hb
    exact h k ((hgone k).2 ⟨b, hb, hk⟩)
  · intro h k hk
    obtain ⟨b, hb, -⟩ := (hgone k).1 hk
    exact h b hb

/-- One sweep takes up to `sweepBatch` buckets that have passed, and finds a key if there is one. -/
theorem thinned_sweep (hc : c.Coupled) (now : UInt64) :
    Thinned now c.config.sweepBatch c (c.sweep now).2 ∧
      c.keyCount = (c.sweep now).2.keyCount + (c.sweep now).1 ∧
      ((c.sweep now).1 = 0 ↔ (c.elapsed now).card = 0 ∨ c.config.sweepBatch = 0) := by
  obtain ⟨gone, c', heq, hnodup, hgone, hc', hcleared⟩ := cleared_sweep hc now
  rw [heq]
  dsimp only
  let due := c.expiry.buckets.keys.filter (isDue now)
  have hdue : due.Nodup := Std.TreeMap.nodup_keys.filter _
  have htaken : c.expiry.dueBuckets now c.config.sweepBatch = due.take c.config.sweepBatch :=
    Index.dueBuckets_eq ..
  rw [htaken] at hgone
  have hmem : ∀ b ∈ due.take c.config.sweepBatch, b ∈ c.elapsed now := by
    intro b hb
    rw [hc.elapsed_eq]
    exact List.mem_toFinset.2 (List.mem_of_mem_take hb)
  have hpassed : ∀ k ∈ gone, ∃ a, c.account? k = some a ∧ Elapsed now a.expiresAt := by
    intro k hk
    obtain ⟨b, hb, hbucket⟩ := (hgone k).1 hk
    obtain ⟨a, ha, hfor⟩ := bucket?_eq_some.1 hbucket
    exact ⟨a, ha, (elapsed_iff hfor).2 (hc.mem_elapsed.1 (hmem b hb)).2⟩
  refine ⟨⟨hc', hcleared.config, ?_, ?_⟩, ?_, ?_⟩
  · have hsub : (due.take c.config.sweepBatch).toFinset ⊆ c.elapsed now :=
      fun b hb => hmem b (List.mem_toFinset.1 hb)
    rw [hcleared.elapsed_eq hc hc' hgone, Finset.card_sdiff_of_subset hsub, hc.elapsed_eq,
      List.toFinset_card_of_nodup hdue,
      List.toFinset_card_of_nodup (hdue.sublist (List.take_sublist _ _)), List.length_take]
    omega
  · intro k
    rw [hcleared.account?]
    split
    · rename_i hk
      exact .inr ⟨rfl, hpassed k hk⟩
    · exact .inl rfl
  · exact hcleared.keyCount hc hc' hnodup fun k hk => (hpassed k hk).imp fun _ => And.left
  · have hnil := gone_eq_nil_iff hgone fun b hb => (hc.mem_elapsed.1 (hmem b hb)).1
    rw [List.length_eq_zero_iff, hnil, List.take_eq_nil_iff, hc.elapsed_eq,
      List.toFinset_card_of_nodup hdue, List.length_eq_zero_iff, or_comm]

def sweeps (c : Container) (now : UInt64) (n : Nat) : Container :=
  (fun c => (c.sweep now).2)^[n] c

theorem sweeps_succ (c : Container) (now : UInt64) (n : Nat) :
    c.sweeps now (n + 1) = ((c.sweeps now n).sweep now).2 :=
  Function.iterate_succ_apply' _ n c

theorem thinned_sweeps (hc : c.Coupled) (now : UInt64) (n : Nat) :
    Thinned now (n * c.config.sweepBatch) c (c.sweeps now n) := by
  induction n with
  | zero =>
    rw [Nat.zero_mul]
    exact .refl hc now
  | succ n ih =>
    obtain ⟨hone, -, -⟩ := thinned_sweep ih.coupled now
    rw [ih.config] at hone
    rw [sweeps_succ, Nat.succ_mul]
    exact ih.trans hone

theorem keyCount_sweeps (hc : c.Coupled) (now : UInt64) (n : Nat) :
    c.keyCount = (c.sweeps now n).keyCount + ∑ i ∈ Finset.range n, ((c.sweeps now i).sweep now).1 := by
  induction n with
  | zero => rfl
  | succ n ih =>
    obtain ⟨-, hcount, -⟩ := thinned_sweep (thinned_sweeps hc now n).coupled now
    rw [Finset.sum_range_succ, sweeps_succ]
    omega

def evicted (c : Container) (now : UInt64) (n : Nat) : Nat :=
  ((c.sweeps now n).sweep now).1

/-- How many sweeps it takes to go through the buckets that have passed, `batch` at a time. -/
def rounds (c : Container) (batch : Nat) (now : UInt64) : Nat :=
  (c.elapsed now).card ⌈/⌉ batch

/-- What sweeps that follow one another at one time do to the keys. -/
structure EvictsElapsed (c : Container) (batch : Nat) (now : UInt64) : Prop where
  finds : ∀ n, 0 < c.evicted now n ↔ n < c.rounds batch now
  ends : ∀ n, c.evicted now n = 0 ↔
    ∀ key a, (c.sweeps now n).account? key = some a → ¬ Elapsed now a.expiresAt
  counts : ∀ n, c.keyCount = (c.sweeps now n).keyCount + ∑ i ∈ Finset.range n, c.evicted now i
  gone : ∀ n ≥ c.rounds batch now, ∀ key, (c.sweeps now n).account? key =
    (c.account? key).filter fun a => ¬ Elapsed now a.expiresAt
  kept : ∀ n key a, c.account? key = some a → ¬ Elapsed now a.expiresAt →
    (c.sweeps now n).account? key = some a
  untouched : ∀ n key a, (c.sweeps now n).account? key = some a → c.account? key = some a
  /-- A key is not evicted before it has expired, and one of the last bucket never is. -/
  unexpired : ∀ n key a, c.account? key = some a → now ≤ a.expiresAt ∨ 2 ^ 64 - 64 ≤ a.expiresAt.toNat →
    (c.sweeps now n).account? key = some a
  /-- A key is gone once it has been expired for the width of a bucket. -/
  expired : ∀ n ≥ c.rounds batch now, ∀ key a, c.account? key = some a → a.expiresAt ≠ 0 →
    a.expiresAt.toNat + 64 ≤ now.toNat → (c.sweeps now n).account? key = none

end Container

namespace System

open Container

variable {s : System} {h : List Moment} {config : Config} {opened now : UInt64}
  {records : List (String × Record)} {c : Container}

/--
Sweeps that follow one another at one time find keys as often as it takes to go through the buckets that
have passed, `sweepBatch` at a time, and none from then on. The counts are what the number of keys has
lost. Gone in the end are the keys whose bucket has passed, and no other key is ever touched.
-/
theorem sweeps_evict_elapsed (hc : Opened config opened records c) (run : Run (System.start c) h s)
    (hbatch : 0 < config.sweepBatch) (now : UInt64) :
    s.container.EvictsElapsed config.sweepBatch now := by
  obtain ⟨hstart, hconfig, -⟩ := hc.accounts
  obtain ⟨hcoupled, hsame⟩ := coupled_run run hstart
  have hsame : s.container.config = config := hsame.trans hconfig
  have hthin (n : Nat) : Thinned now (n * config.sweepBatch) s.container (s.container.sweeps now n) := by
    rw [← hsame]
    exact thinned_sweeps hcoupled now n
  have hrounds (n : Nat) : s.container.rounds config.sweepBatch now ≤ n ↔
      (s.container.elapsed now).card ≤ n * config.sweepBatch := by
    rw [Nat.mul_comm]
    exact ceilDiv_le_iff_le_mul hbatch
  have hnone (n : Nat) : s.container.evicted now n = 0 ↔
      ((s.container.sweeps now n).elapsed now).card = 0 := by
    obtain ⟨-, -, hzero⟩ := thinned_sweep (hthin n).coupled now
    rw [(hthin n).config, hsame] at hzero
    exact hzero.trans (or_iff_left (Nat.pos_iff_ne_zero.1 hbatch))
  have hgone : ∀ n ≥ s.container.rounds config.sweepBatch now, ∀ key,
      (s.container.sweeps now n).account? key =
        (s.container.account? key).filter fun a => ¬ Elapsed now a.expiresAt :=
    fun n hn => (hthin n).finished ((hrounds n).1 hn)
  refine ⟨?_, ?_, keyCount_sweeps hcoupled now, hgone, fun n _ _ => (hthin n).kept, ?_, ?_, ?_⟩
  · intro n
    rw [Nat.pos_iff_ne_zero, Ne, hnone, (hthin n).card, Nat.sub_eq_zero_iff_le, ← hrounds,
      Nat.not_le]
  · intro n
    rw [hnone, Finset.card_eq_zero, (hthin n).coupled.elapsed_eq_empty]
  · intro n key a ha
    rcases (hthin n).account key with heq | ⟨hgone, -⟩
    · exact heq.symm.trans ha
    · rw [hgone] at ha
      cases ha
  · rintro n key a ha (hlate | hlast)
    · exact (hthin n).kept ha (not_elapsed_of_le hlate)
    · exact (hthin n).kept ha (not_elapsed_of_last hlast)
  · intro n hn key a ha hne hpassed
    rw [hgone n hn, ha, Option.filter_some, if_neg]
    simpa using elapsed_of_add_le hne hpassed

def sweepsEvents : List Event :=
  [.add 1 "a" (some [1]) 50, .add 1 "b" none 99, .add 1 "c" none 109, .add 1 "d" none 199,
    .add 1 "e" none 129, .add 1 "f" none 0]

theorem sweeps_evict_elapsed_sample :
    let s := ((System.start (create { shards := 4, sweepBatch := 2 } false)).played sweepsEvents
      (by decide +kernel)).2
    (s.container.elapsed 255).card = 3 ∧ 0 < ((s.container.sweeps 255 1).sweep 255).1 ∧
      ((s.container.sweeps 255 2).sweep 255).1 = 0 ∧
      (s.container.sweeps 255 2).account? "e" = none ∧
      (s.container.sweeps 255 2).account? "d" = s.container.account? "d" := by
  intro s
  have hcard : (s.container.elapsed 255).card = 3 := by decide +kernel
  have he : s.container.expiryOf "e" = some 130 := by decide +kernel
  have hd : s.container.expiryOf "d" = some 200 := by decide +kernel
  have run : Run (System.start (create { shards := 4, sweepBatch := 2 } false)) _ s :=
    (System.start (create { shards := 4, sweepBatch := 2 } false)).run_played sweepsEvents
      (by decide +kernel)
  clear_value s
  have hopened : Opened { shards := 4, sweepBatch := 2 } 0 []
    (create { shards := 4, sweepBatch := 2 } false) := .memory
  have evicts := sweeps_evict_elapsed hopened run (by decide) 255
  have hrounds : s.container.rounds 2 255 = 2 := by
    rw [rounds, hcard]
    decide
  rw [expiryOf_eq, Option.map_eq_some_iff] at he hd
  obtain ⟨a, he, hexpires⟩ := he
  obtain ⟨a', hd, hexpires'⟩ := hd
  refine ⟨hcard, (evicts.finds 1).2 ?_, ?_, ?_, ?_⟩
  · rw [hrounds]
    decide
  · refine Nat.eq_zero_of_not_pos fun h => absurd ((evicts.finds 2).1 h) ?_
    rw [hrounds]
    decide
  · rw [evicts.gone 2 hrounds.le, he, Option.filter_some, hexpires]
    exact if_neg (by decide)
  · rw [evicts.kept 2 "d" a' hd (by rw [hexpires']; decide), hd]

end System

end DistinctCount
