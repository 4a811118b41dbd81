import DistinctCount.Proofs.Container.Evicted
import DistinctCount.Proofs.Container.Opened
import DistinctCount.Proofs.System.Touched

namespace DistinctCount

open Container

namespace WriteBack

variable {w w' : WriteBack} {job : Job} {answer : Backend.Answer} {progress : Progress}
  {notices : List Notice}

theorem Outcome.shards (h : Outcome w job answer w' progress notices) : w'.shards = w.shards := by
  cases h with
  | pause => rfl
  | flush => rfl
  | updated => exact shards_flushed w job
  | deleted => exact (shards_flushed _ job).trans (shards_renewed w job.sketch)
  | confirmed => exact (shards_flushed _ job).trans (shards_renewed w job.sketch)
  | postponed e error told w left =>
    rcases left with ⟨rfl, -⟩ | ⟨rfl, -⟩
    · rfl
    · rfl
  | abandoned => rfl

end WriteBack

namespace System

variable {s s' : System} {e : Event} {h : List Moment} {config : Config} {now : UInt64}
  {records : List (String × Record)} {c : Container}

theorem alike_proceed {c c' : Container} (job : Job) (answer : Backend.Answer)
    (heq : c'.toWriteBack = (c.toWriteBack.proceed job answer).1) (hexpiry : c'.expiry = c.expiry)
    (hconfig : c'.config = c.config) (hclosed : c'.closed = c.closed) : Alike c c' := by
  have hout := WriteBack.outcome_proceed c.toWriteBack job answer
  refine ⟨?_, ?_, hexpiry, hconfig, hclosed⟩
  · rw [heq]
    exact hout.kept
  · rw [heq]
    exact hout.shards

theorem Task.alike (htask : s.Task e s') : Alike s.container s'.container := by
  cases htask with
  | writerAnswer job answer => exact alike_proceed job answer rfl rfl rfl rfl
  | drainAnswer drain job answer => exact alike_proceed job answer rfl rfl rfl rfl
  | _ => exact ⟨.refl _ _, rfl, rfl, rfl, rfl⟩

/-- What a client does keeps the registry and the index coupled, and opens nothing that was shut down. -/
theorem coupled_applied (hc : c.Coupled) (e : Event) :
    (e.applied c).Coupled ∧ (e.applied c).config = c.config ∧
      ((e.applied c).closed = false → c.closed = false) := by
  cases e with
  | add now key value ttl =>
    have hyields := yields_addMany hc now key value.toList ttl
    rw [← add_eq_addMany] at hyields
    exact ⟨hyields.coupled, hyields.config, hyields.closed.symm.trans⟩
  | addMany now key values ttl =>
    have hyields := yields_addMany hc now key values ttl
    exact ⟨hyields.coupled, hyields.config, hyields.closed.symm.trans⟩
  | updateExpiry now key ttl =>
    have hyields := yields_updateExpiry hc now key ttl
    exact ⟨hyields.coupled, hyields.config, hyields.closed.symm.trans⟩
  | delete key =>
    rw [Event.applied]
    cases hopen : c.persistent && c.closed with
    | true =>
      rw [beginDelete_refused hopen]
      exact ⟨hc, rfl, id⟩
    | false =>
      have hyields := yields_beginDelete hc hopen key
      exact ⟨hyields.coupled, hyields.config, hyields.closed.symm.trans⟩
  | sweep now =>
    obtain ⟨gone, c', heq, -, -, hc', hcleared⟩ := cleared_sweep hc now
    have hsweep : (c.sweep now).2 = c' := congrArg Prod.snd heq
    rw [Event.applied, hsweep]
    exact ⟨hc', hcleared.config, hcleared.closed.symm.trans⟩
  | close => exact ⟨hc.shut true c.stopping, rfl, fun h => by cases h⟩
  | stop => exact ⟨hc.shut c.closed true, rfl, id⟩
  | _ => exact ⟨hc, rfl, id⟩

theorem coupled_next? (hc : s.container.Coupled) (h : s.next? e = some s') :
    s'.container.Coupled ∧ s'.container.config = s.container.config ∧
      (s'.container.closed = false → s.container.closed = false) := by
  rcases next?_cases h with ⟨-, callers, rfl⟩ | htask
  · exact coupled_applied hc e
  · have halike := htask.alike
    exact ⟨halike.coupled hc, halike.config, halike.closed.symm.trans⟩

theorem coupled_run (run : Run s h s') (hc : s.container.Coupled) :
    s'.container.Coupled ∧ s'.container.config = s.container.config := by
  induction run with
  | refl => exact ⟨hc, rfl⟩
  | step _ next ih =>
    obtain ⟨hstep, hconfig, -⟩ := coupled_next? ih.1 next
    exact ⟨hstep, hconfig.trans ih.2⟩

/--
In every state of a container, the sketch under a key is live, stands in the one shard that the hash of
its key selects, and has the bucket of its expiry on record. The index has an entry of it in that
bucket and in no other, it has no other entries, and no empty buckets.
-/
theorem registry_index_coupled (hc : Opened config now records c)
    (run : Run (System.start c) h s) :
    (∀ n key id, s.container.shards.get? n key = some id →
      id < s.container.sketches.next ∧ (s.container.sketch id).deleted = false ∧
      (s.container.sketch id).key = key ∧ (s.container.sketch id).shard = n ∧
      n = (config.hashing.hash64 key.toUTF8.toList &&&
        UInt64.ofNat (config.shardCount - 1)).toNat ∧
      (s.container.sketch id).bucket = (if (s.container.sketch id).expiresAt = 0 then none
        else some (Expiry.bucketOf (s.container.sketch id).expiresAt)) ∧
      ∀ bucket entry, s.container.expiry.get? bucket key = some entry ↔
        (s.container.sketch id).bucket = some bucket ∧ entry = { shard := n, sketch := id }) ∧
    (∀ bucket key entry, s.container.expiry.get? bucket key = some entry →
      s.container.get? key = some entry.sketch) ∧
    ∀ (bucket : UInt64) (entries : Std.TreeMap String Entry),
      s.container.expiry.buckets[bucket]? = some entries → entries.isEmpty = false := by
  obtain ⟨hstart, hconfig, -⟩ := hc.accounts
  obtain ⟨hcoupled, hsame⟩ := coupled_run run hstart
  have hsame : s.container.config = config := hsame.trans hconfig
  have hhome : ∀ key, s.container.shards.shardOf key =
      (config.hashing.hash64 key.toUTF8.toList &&& UInt64.ofNat (config.shardCount - 1)).toNat := by
    intro key
    rw [Shards.shardOf, hcoupled.hashing, hcoupled.count, hsame]
  refine ⟨?_, ?_, hcoupled.filled⟩
  · intro n key id hid
    obtain ⟨made, hlive, hkey, hn⟩ := (hcoupled.sound.get?_shard n key id).1 hid
    have hget : s.container.get? key = some id := hcoupled.get?_eq_some.2 ⟨made, hlive, hkey⟩
    have hshard : (s.container.sketch id).shard = n := by
      rw [hcoupled.sound.shard_eq id made, hkey, hn]
    refine ⟨made, hlive, hkey, hshard, hn.trans (hhome key), (hcoupled.placed key id hget).bucket, ?_⟩
    intro bucket entry
    rw [hcoupled.listed bucket key (Option.some_ne_none bucket).symm, listing_eq hget, hshard]
    split
    · rename_i hbucket
      rw [Option.some.injEq, eq_comm]
      exact ⟨fun h => ⟨hbucket, h⟩, fun h => h.2⟩
    · rename_i hbucket
      exact ⟨fun h => (by cases h), fun h => absurd h.1 hbucket⟩
  · intro bucket key entry he
    exact ((entered_iff hcoupled.toLinked).1 he).get?

def coupledEvents : List Event :=
  [.add 1 "a" (some [1]) 100, .updateExpiry 2 "a" 300, .addMany 3 "b" [] 0, .sweep 170]

theorem registry_index_coupled_sample :
    let s := ((System.start sampleContainer).played coupledEvents (by decide +kernel)).2
    s.container.get? "a" = some 0 ∧ (s.container.sketch 0).expiresAt = 302 ∧
      (s.container.sketch 0).bucket = some 256 ∧ s.container.expiry.get? 64 "a" = none ∧
      ∃ entry, s.container.expiry.get? 256 "a" = some entry ∧ entry.sketch = 0 := by
  intro s
  have hget : s.container.get? "a" = some 0 := by decide +kernel
  have hexpires : (s.container.sketch 0).expiresAt = 302 := by decide +kernel
  have run : Run (System.start sampleContainer) _ s :=
    (System.start sampleContainer).run_played coupledEvents (by decide +kernel)
  clear_value s
  obtain ⟨hkeys, -, -⟩ := registry_index_coupled
    (.stored ({} : Backend) [] sampleContainer opens_sampleContainer) run
  obtain ⟨-, -, -, -, -, hbucket, hentries⟩ := hkeys _ "a" 0 hget
  have hbucket : (s.container.sketch 0).bucket = some 256 := by
    refine hbucket.trans ?_
    rw [hexpires]
    decide
  refine ⟨hget, hexpires, hbucket, ?_, ⟨s.container.shards.shardOf "a", 0⟩,
    (hentries 256 _).2 ⟨hbucket, rfl⟩, rfl⟩
  rw [Option.eq_none_iff_forall_ne_some]
  intro entry he
  have hother := ((hentries 64 entry).1 he).1
  rw [hbucket] at hother
  exact absurd hother (by decide)

end System

end DistinctCount
