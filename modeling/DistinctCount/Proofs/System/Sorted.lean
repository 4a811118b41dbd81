import DistinctCount.Proofs.Container.Opened
import DistinctCount.Proofs.Schedule.Opening
import DistinctCount.Proofs.System.Attempts
import DistinctCount.Proofs.System.Restart

namespace DistinctCount

open Container

variable {b b' : Backend} {config : Config} {now : UInt64} {ds : List Discard} {d : Discard}
  {c : Container} {key k : String} {id : SketchId} {p : Partition}
  {calls : List (Request × Backend.Answer)}

namespace Container

/-! ### Deletes that are left to the write-back -/

/-- The dead sketch that stands for a delete still to be made. -/
def tombstone (c : Container) (key : String) : Sketch :=
  { key, shard := c.shardOf key, expiresAt := 0, deleted := true, pending := 1 }

def queuedFor (c : Container) (p : Partition) (key : String) : List SketchId :=
  (c.queues.get p).items.filter fun id => (c.sketch id).key = key

theorem items_deferDelete (hc : c.Coherent 0) (key : String) (p : Partition) :
    ((c.deferDelete key).queues.get p).items = (c.queues.get p).items ++
      if p = partitionOf (c.shardOf key) then [c.sketches.next] else [] := by
  have made : c.sketches.next < (c.bury key).sketches.next := by
    rw [next_bury]
    exact Nat.lt_succ_self _
  have hself : (c.bury key).sketch c.sketches.next =
      { key, shard := c.shardOf key, expiresAt := 0, deleted := true } :=
    sketch_bury.trans (if_pos rfl)
  rw [deferDelete_eq hc]
  change (((c.bury key).toWriteBack.mutate c.sketches.next Sketch.markDirty).queues.get p).items = _
  rw [WriteBack.mutate, hself, if_pos ⟨rfl, (by decide : (1 : Int64) ≠ 0)⟩, WriteBack.enqueue,
    WriteBack.queues_editQueue, WriteBack.toRegistry_edit, Registry.sketch_modify_self made, hself]
  change (if p = partitionOf (c.shardOf key) then _ else _ : Queue SketchId).items = _
  split
  · rename_i hp
    rw [hp]
    rfl
  · exact (List.append_nil _).symm

theorem shardOf_deferDelete (hc : c.Coherent 0) (key k : String) :
    (c.deferDelete key).shardOf k = c.shardOf k := by
  rw [shardOf, shardOf, deferDelete_eq hc, toRegistry_alter_mutate, Registry.shards_modify]
  rfl

theorem next_deferDelete (hc : c.Coherent 0) (key : String) :
    (c.deferDelete key).sketches.next = c.sketches.next + 1 := by
  rw [deferDelete_eq hc, toRegistry_alter_mutate, Registry.next_modify, next_bury]

theorem queuedFor_deferDelete (hr : Ready config c) (key k : String) (p : Partition) :
    (c.deferDelete key).queuedFor p k = c.queuedFor p k ++
      if p = partitionOf (c.shardOf key) ∧ key = k then [c.sketches.next] else [] := by
  have hold : ∀ id ∈ (c.queues.get p).items, (c.deferDelete key).sketch id = c.sketch id := by
    intro id hid
    have hlt := (hr.flow.home p id (.inl hid)).1
    rw [sketch_deferDelete hr.coherent, if_neg (Nat.ne_of_lt hlt)]
  have hnew : ((c.deferDelete key).sketch c.sketches.next).key = key := by
    rw [sketch_deferDelete hr.coherent, if_pos rfl]
  have hbefore : ((c.queues.get p).items.filter fun id => ((c.deferDelete key).sketch id).key = k) =
      c.queuedFor p k :=
    List.filter_congr fun id hid => by rw [hold id hid]
  rw [queuedFor, items_deferDelete hr.coherent, List.filter_append, hbefore]
  refine congrArg (c.queuedFor p k ++ ·) ?_
  by_cases hp : p = partitionOf (c.shardOf key)
  · rw [if_pos hp]
    simp only [hp, true_and, List.filter_cons, List.filter_nil, hnew, decide_eq_true_iff]
  · rw [if_neg hp, if_neg fun h => hp h.1, List.filter_nil]

theorem Ready.afterDiscard (hr : Ready config c) (d : Discard) :
    Ready config (c.afterDiscard d) := by
  unfold Container.afterDiscard
  split
  · exact hr.deferDelete d.key
  · exact hr

theorem afterDiscards_frame (hr : Ready config c) (ds : List Discard) :
    c.sketches.next ≤ (ds.foldl afterDiscard c).sketches.next ∧
      (∀ id < c.sketches.next, (ds.foldl afterDiscard c).sketch id = c.sketch id) ∧
      ∀ k, (ds.foldl afterDiscard c).shardOf k = c.shardOf k := by
  induction ds generalizing c with
  | nil => exact ⟨Nat.le_refl _, fun _ _ => rfl, fun _ => rfl⟩
  | cons d ds ih =>
    obtain ⟨hnext, hsketch, hshard⟩ := ih (hr.afterDiscard d)
    rw [List.foldl_cons]
    by_cases hfailed : d.Failed
    · have hdefer : c.afterDiscard d = c.deferDelete d.key := if_pos hfailed
      rw [hdefer] at hnext hsketch hshard ⊢
      rw [next_deferDelete hr.coherent] at hnext hsketch
      have hshard' := fun k => (hshard k).trans (shardOf_deferDelete hr.coherent d.key k)
      refine ⟨Nat.le_of_succ_le hnext, ?_, hshard'⟩
      intro id hid
      rw [hsketch id (Nat.lt_succ_of_lt hid), sketch_deferDelete hr.coherent,
        if_neg (Nat.ne_of_lt hid)]
    · have hstay : c.afterDiscard d = c := if_neg hfailed
      rw [hstay] at hnext hsketch hshard ⊢
      exact ⟨hnext, hsketch, hshard⟩

theorem queuedFor_of_settled (hr : Ready config c) (hd : ∀ d ∈ ds, d.key = k → ¬ d.Failed)
    (p : Partition) : (ds.foldl afterDiscard c).queuedFor p k = c.queuedFor p k := by
  induction ds generalizing c with
  | nil => rfl
  | cons d ds ih =>
    obtain ⟨hfirst, hrest⟩ := List.forall_mem_cons.1 hd
    rw [List.foldl_cons, ih (hr.afterDiscard d) hrest, afterDiscard]
    split
    · rename_i hfailed
      rw [queuedFor_deferDelete hr, if_neg fun h => hfirst h.2 hfailed, List.append_nil]
    · rfl

theorem queuedFor_of_failed (hr : Ready config c) (hkeys : (ds.map (·.key)).Nodup) (hd : d ∈ ds)
    (hfailed : d.Failed) : ∃ id, (ds.foldl afterDiscard c).sketch id = c.tombstone d.key ∧
      ∀ p, (ds.foldl afterDiscard c).queuedFor p d.key =
        c.queuedFor p d.key ++ if p = partitionOf (c.shardOf d.key) then [id] else [] := by
  induction ds generalizing c with
  | nil => cases hd
  | cons first ds ih =>
    obtain ⟨hnew, hkeys⟩ := List.nodup_cons.1 hkeys
    rw [List.foldl_cons]
    rcases List.mem_cons.1 hd with rfl | hd
    · have hdefer : c.afterDiscard d = c.deferDelete d.key := if_pos hfailed
      have hready := hr.deferDelete d.key
      have hmade : c.sketches.next < (c.deferDelete d.key).sketches.next := by
        rw [next_deferDelete hr.coherent]
        exact Nat.lt_succ_self _
      rw [hdefer]
      refine ⟨c.sketches.next, ?_, fun p => ?_⟩
      · rw [(afterDiscards_frame hready ds).2.1 _ hmade, sketch_deferDelete hr.coherent, if_pos rfl]
        rfl
      · have hothers : ∀ d' ∈ ds, d'.key = d.key → ¬ d'.Failed :=
          fun d' hd' h => absurd (List.mem_map.2 ⟨d', hd', h⟩) hnew
        rw [queuedFor_of_settled hready hothers, queuedFor_deferDelete hr]
        simp only [and_true]
    · have hne : first.key ≠ d.key := fun h => hnew (List.mem_map.2 ⟨d, hd, h.symm⟩)
      obtain ⟨id, hsketch, hqueued⟩ := ih (hr.afterDiscard first) hkeys hd
      have hothers : ∀ d' ∈ [first], d'.key = d.key → ¬ d'.Failed :=
        fun d' hd' h => absurd (List.mem_singleton.1 hd' ▸ h) hne
      have hstay : ∀ p, (c.afterDiscard first).queuedFor p d.key = c.queuedFor p d.key :=
        queuedFor_of_settled hr hothers
      have hshard : ∀ k, (c.afterDiscard first).shardOf k = c.shardOf k :=
        (afterDiscards_frame hr [first]).2.2
      refine ⟨id, hsketch.trans ?_, fun p => ?_⟩
      · rw [tombstone, tombstone, hshard]
      · rw [hqueued, hstay, hshard]

end Container

theorem Backend.scan_ascending (b : Backend) : b.scan.Pairwise fun x y => x.1 < y.1 := by
  have h := Std.TreeMap.ordered_keys_toList (t := b.records)
  exact h.imp compareOfLessAndEq_eq_lt.1

/-! ### What has been restored -/

theorem Container.Coupled.shard_eq (hc : c.Coupled) (hid : c.get? key = some id) :
    (c.sketch id).shard = c.shardOf key := by
  obtain ⟨made, -, hkey⟩ := hc.get?_eq_some.1 hid
  rw [hc.sound.shard_eq id made, hkey]
  rfl

theorem Container.Coupled.listed_iff (hc : c.Coupled) {bucket : UInt64} {entry : Entry} :
    c.expiry.get? bucket key = some entry ↔ ∃ id, c.get? key = some id ∧
      (c.sketch id).bucket = some bucket ∧ entry = { shard := c.shardOf key, sketch := id } := by
  rw [hc.listed bucket key nofun, listing, Option.bind_eq_some_iff]
  refine exists_congr fun id => and_congr_right fun hid => ?_
  rw [Option.ite_none_right_eq_some, hc.shard_eq hid, Option.some.injEq, eq_comm (a := entry)]

theorem sketch_of_holds {s : Sketch} {record : Record} (hr : record.Holds s) (hp : Placed s)
    (hkey : s.key = key) (hlive : s.deleted = false) (hpending : s.pending = 0)
    (hwaiters : s.waiters = []) : ∃ d, Slots.decode record.data = .ok d ∧ s =
      { key, shard := s.shard, slots := d.slots, nonZero := d.nonZero,
        expiresAt := record.expiresAt, bucket := bucketFor record.expiresAt } := by
  obtain ⟨hexpires, d, hd, hslots⟩ := hr
  have hcount := (Slots.decode_spec hd).2
  have hbucket := hp.bucket
  have hcounted := hp.valid.counted
  refine ⟨d, hd, ?_⟩
  rw [hcount, hslots, ← hcounted, hexpires, ← hbucket, ← hkey]
  cases s
  dsimp only at hlive hpending hwaiters
  rw [hlive, hpending, hwaiters]

/-- A live key has a record that is current and decodes, and stands for just that record. -/
theorem Opens.restored (opens : Opens (beginOpen config now b.scan) calls c)
    (hid : c.get? key = some id) : ∃ record d, b.get? key = some record ∧ record.Current now ∧
      Slots.decode record.data = .ok d ∧ c.sketch id =
        { key, shard := c.shardOf key, slots := d.slots, nonZero := d.nonZero,
          expiresAt := record.expiresAt, bucket := bucketFor record.expiresAt } := by
  obtain ⟨hr, -⟩ := restored_beginOpen config now b.nodup_scan
  obtain ⟨hget, -, hsketch⟩ := opens.frame hr.ready
  obtain ⟨hcoupled, -⟩ := (Opened.stored b calls c opens).accounts
  obtain ⟨record, hrecord, hcurrent, hholds⟩ := (opens.live_iff key).1 id hid
  obtain ⟨-, hlive, hkey⟩ := hcoupled.get?_eq_some.1 hid
  have hsame := hsketch id (hr.coherent.get?_eq_some.1 ((hget key).symm.trans hid)).1
  obtain ⟨hpending, hwaiters⟩ := hr.clean id
  obtain ⟨d, hd, heq⟩ := sketch_of_holds hholds (hcoupled.placed key id hid) hkey hlive
    (hsame ▸ hpending) (hsame ▸ hwaiters)
  rw [hcoupled.shard_eq hid] at heq
  exact ⟨record, d, hrecord, hcurrent, hd, heq⟩

theorem Opens.dead {record : Record} (opens : Opens (beginOpen config now b.scan) calls c)
    (hrecord : b.get? key = some record)
    (hlost : record.Current now → ∀ d, Slots.decode record.data ≠ .ok d) : c.get? key = none := by
  refine Option.eq_none_iff_forall_ne_some.2 fun id hid => ?_
  obtain ⟨record', d, hrecord', hcurrent, hd, -⟩ := opens.restored hid
  rw [hrecord] at hrecord'
  obtain rfl := Option.some.inj hrecord'
  exact hlost hcurrent d hd

theorem Container.queuedFor_beginOpen (config : Config) (now : UInt64) (b : Backend) (p : Partition)
    (key : String) : (beginOpen config now b.scan).container.queuedFor p key = [] := by
  have hitems : ((beginOpen config now b.scan).container.queues.get p).items = [] := by
    rw [(restored_beginOpen config now b.nodup_scan).1.frame]
    exact congrArg Queue.items (Vector.getElem_replicate p.isLt)
  rw [queuedFor, hitems]
  rfl

/-! ### What has become of the store -/

theorem get?_of_discards (serves : b.Serves (ds.flatMap (·.calls)) b') (key : String) :
    ((∃ d ∈ ds, d.key = key ∧ ¬ d.Failed) → b'.get? key = none) ∧
      ((∀ d ∈ ds, d.key = key → d.Failed) → b'.get? key = b.get? key) := by
  have hdelete : ∀ call ∈ ds.flatMap (·.calls), ∃ key, call.1 = .delete key := by
    rintro ⟨request, answer⟩ hcall
    obtain ⟨d, -, hcall⟩ := List.mem_flatMap.1 hcall
    exact ⟨d.key, (Discard.mem_calls.1 hcall).1⟩
  have hmem : (.delete key, .ok ()) ∈ ds.flatMap (·.calls) ↔
      ∃ d ∈ ds, d.key = key ∧ ¬ d.Failed := by
    simp only [List.mem_flatMap, Discard.mem_calls, Request.delete.injEq, Discard.Failed, not_not,
      eq_comm]
  obtain ⟨hgone, hkept⟩ := get?_of_deletes serves hdelete key
  refine ⟨fun h => hgone (hmem.2 h), fun h => hkept fun hin => ?_⟩
  obtain ⟨d, hd, hkey, hsettled⟩ := hmem.1 hin
  exact hsettled (h d hd hkey)

def Discard.Settles (d : Discard) (record : Record) (c : Container) (b' : Backend) : Prop :=
  ¬ d.Failed ∧ b'.get? d.key = none ∧ (∀ p, c.queuedFor p d.key = []) ∨
    d.Failed ∧ b'.get? d.key = some record ∧ ∃ id, c.sketch id = c.tombstone d.key ∧
      ∀ p, c.queuedFor p d.key = if p = partitionOf (c.shardOf d.key) then [id] else []

theorem settles_of_mem {record : Record} (serves : b.Serves (ds.flatMap (·.calls)) b')
    (hc : c = ds.foldl afterDiscard (beginOpen config now b.scan).container)
    (hkeys : (ds.map (·.key)).Nodup) (hd : d ∈ ds) (hrecord : b.get? d.key = some record) :
    d.Settles record c b' := by
  have hr := (restored_beginOpen config now b.nodup_scan).1.ready
  have hshard : ∀ key, c.shardOf key = (beginOpen config now b.scan).container.shardOf key := by
    rw [hc]
    exact (afterDiscards_frame hr ds).2.2
  have honly : ∀ d' ∈ ds, d'.key = d.key → d' = d := fun d' hd' h =>
    List.inj_on_of_nodup_map hkeys hd' hd h
  obtain ⟨hgone, hkept⟩ := get?_of_discards serves d.key
  by_cases hfailed : d.Failed
  · obtain ⟨id, htomb, hplace⟩ := queuedFor_of_failed hr hkeys hd hfailed
    have hstay := hkept fun d' hd' h => honly d' hd' h ▸ hfailed
    refine .inr ⟨hfailed, hstay.trans hrecord, id, ?_, fun p => ?_⟩
    · rw [tombstone, hshard, hc]
      exact htomb
    · rw [hshard, hc, hplace, queuedFor_beginOpen, List.nil_append]
  · refine .inl ⟨hfailed, hgone ⟨d, hd, rfl, hfailed⟩, fun p => ?_⟩
    rw [hc, queuedFor_of_settled hr fun d' hd' h => honly d' hd' h ▸ hfailed, queuedFor_beginOpen]

/-- What an opening makes of the records of a store and of these deletes. -/
structure Sorted (now : UInt64) (limit : Nat) (b : Backend) (ds : List Discard) (c : Container)
    (b' : Backend) : Prop where
  /-- A live key has a record that is current and decodes, and stands for just that record. -/
  live : ∀ key id, c.get? key = some id → ∃ record d, b.get? key = some record ∧
    record.Current now ∧ Slots.decode record.data = .ok d ∧ c.sketch id =
      { key, shard := c.shardOf key, slots := d.slots, nonZero := d.nonZero,
        expiresAt := record.expiresAt, bucket := bucketFor record.expiresAt,
        pending := 0, deleted := false, waiters := [] }
  found : ∀ key record d, b.get? key = some record → record.Current now →
    Slots.decode record.data = .ok d → ∃ id, c.get? key = some id
  /-- The index lists the live keys that expire, each in the bucket of its expiry. -/
  listed : ∀ key bucket entry, c.expiry.get? bucket key = some entry ↔ ∃ id,
    c.get? key = some id ∧ (c.sketch id).bucket = some bucket ∧
      entry = { shard := c.shardOf key, sketch := id }
  /-- An expired record is deleted, or its delete is left to the write-back. -/
  expired : ∀ key record, b.get? key = some record → ¬ record.Current now →
    c.get? key = none ∧ ∃ d ∈ ds, d.key = key ∧ d.Settles record c b'
  /-- A current record that does not decode is left alone. -/
  corrupt : ∀ key record e, b.get? key = some record → record.Current now →
    Slots.decode record.data = .error e → c.get? key = none ∧ b'.get? key = some record
  /-- Nothing but the deletes touches the store or the queues. -/
  untouched : ∀ key, (∀ d ∈ ds, d.key ≠ key) →
    b'.get? key = b.get? key ∧ ∀ p, c.queuedFor p key = []
  keys : ds.map (·.key) = (b.scan.filter fun entry => ¬ entry.2.Current now).map (·.1)
  ascending : (ds.map (·.key)).Pairwise (· < ·)
  tried : ∀ d ∈ ds, d.Tried limit

theorem Opens.sorted (opens : Opens (beginOpen config now b.scan) calls c)
    (serves : b.Serves calls b') : ∃ ds : List Discard, calls = ds.flatMap (·.calls) ∧
      Sorted now (max 1 config.retry.maxAttempts.toNat) b ds c b' := by
  obtain ⟨hr, hexpired⟩ := restored_beginOpen config now b.nodup_scan
  obtain ⟨hcoupled, -⟩ := (Opened.stored b calls c opens).accounts
  obtain ⟨ds, hkeys, rfl, htried, hc⟩ := opens.discards rfl
  have hmem {key : String} : key ∈ ds.map (·.key) ↔
      ∃ record, b.get? key = some record ∧ ¬ record.Current now := by
    rw [hkeys, mem_expired]
  have hdistinct : (ds.map (·.key)).Nodup := by
    rw [hkeys, hexpired]
    exact b.nodup_scan.sublist (List.filter_sublist.map _)
  have huntouched : ∀ key, (∀ d ∈ ds, d.key ≠ key) →
      b'.get? key = b.get? key ∧ ∀ p, c.queuedFor p key = [] := by
    intro key hkey
    refine ⟨(get?_of_discards serves key).2 fun d hd h => absurd h (hkey d hd), fun p => ?_⟩
    rw [hc, queuedFor_of_settled hr.ready fun d hd h => absurd h (hkey d hd), queuedFor_beginOpen]
  refine ⟨ds, rfl, fun _ _ => opens.restored, ?_, fun _ _ _ => hcoupled.listed_iff, ?_, ?_,
    huntouched, ?_, ?_, ?_⟩
  · intro key record d hrecord hcurrent hd
    exact (opens.live_iff key).2 record hrecord hcurrent ⟨d, hd⟩
  · intro key record hrecord hpast
    obtain ⟨d, hd, rfl⟩ := List.mem_map.1 (hmem.2 ⟨record, hrecord, hpast⟩)
    exact ⟨opens.dead hrecord fun h => absurd h hpast, d, hd, rfl,
      settles_of_mem serves hc hdistinct hd hrecord⟩
  · intro key record e hrecord hcurrent hd
    have hkeep : ∀ d ∈ ds, d.key ≠ key := by
      intro d hd hkey
      obtain ⟨record', hrecord', hpast⟩ := hmem.1 (List.mem_map.2 ⟨d, hd, hkey⟩)
      rw [hrecord] at hrecord'
      obtain rfl := Option.some.inj hrecord'
      exact hpast hcurrent
    refine ⟨opens.dead hrecord fun _ d h => ?_, (huntouched key hkeep).1.trans hrecord⟩
    rw [hd] at h
    cases h
  · rw [hkeys, hexpired]
  · rw [hkeys, hexpired, List.pairwise_map]
    exact b.scan_ascending.sublist List.filter_sublist
  · have hretry : (beginOpen config now b.scan).container.retry = config.retry := by
      rw [hr.frame]
      rfl
    rwa [hretry] at htried

open Schedule in
/-- What opening a container makes of the records of a store, and how the task that opens it comes to it. -/
structure SortsRecords (config : Config) (now : UInt64) (b : Backend) : Prop where
  sorts : ∀ calls c b', Opens (beginOpen config now b.scan) calls c → b.Serves calls b' →
    ∃ ds : List Discard, calls = ds.flatMap (·.calls) ∧
      Sorted now (max 1 config.retry.maxAttempts.toNat) b ds c b'
  /-- The opening comes to its end whichever calls fail. -/
  ends : ∀ fails : Nat → Bool, ∃ calls c b', Opens (beginOpen config now b.scan) calls c ∧
    b.Serves calls b' ∧
    ∀ i request answer, calls[i]? = some (request, answer) → answer = b.reply (fails i)
  /-- The task of the opening makes these calls and no others. -/
  turns : ∀ t home phase calls c, World.Turns t home (beginOpen config now b.scan) phase calls c →
    Opens (beginOpen config now b.scan) calls c
  /-- It starts on all records. -/
  starts : ∀ (w : World) home, w.link.backend = b → w.wall = now →
    (∀ limit ∈ w.link.scanLimit, b.scan.length ≤ limit) →
    w.restore home config =
      .ok (w.call home (.opening (beginOpen config now b.scan) .ready)).2
  /-- There is no call if the scan breaks off. -/
  breaks : ∀ (w : World) limit, w.link.backend = b → w.link.scanLimit = some limit →
    limit < b.scan.length → config.validate = .ok () →
    ∃ w', w.openContainer config true = (.error (.backend (.unavailable "scan failure")), w') ∧
      World.SameCalls w w'

open Schedule in
/--
The records of a store are sorted by a container that is opened on it, whichever deletes fail. The opening
starts on all records. Its task makes these deletes and no other call, and there is none if the scan breaks
off.
-/
theorem opening_sorts_records (config : Config) (now : UInt64) (b : Backend) :
    SortsRecords config now b := by
  refine ⟨fun calls c b' opens serves => opens.sorted serves, exists_opens _ b, ?_, ?_, ?_⟩
  · intro t home phase calls c turns
    exact turns.opens
  · rintro w home rfl rfl hall
    exact World.restore_of_scan home config hall
  · intro w limit hbackend hlimit hlt hvalid
    refine World.openContainer_of_scan hvalid ?_
    simp only [World.scanned, hlimit, hbackend, if_pos hlt]

def sampleStore : Backend :=
  ((((({} : Backend).insert "live" ⟨500, [1, 7, 3]⟩).insert "kept" ⟨60, []⟩).insert "gone"
    ⟨50, [0]⟩).insert "corrupt" ⟨0, [9]⟩)

def sampleConfig : Config :=
  { shards := 4, retry := { maxAttempts := 1 } }

theorem opening_sorts_records_sample :
    ∃ c b' ds, Opens (beginOpen sampleConfig 100 sampleStore.scan)
        [(.delete "gone", .ok ()), (.delete "kept", .error Backend.injected)] c ∧
      Sorted 100 1 sampleStore ds c b' ∧ (∃ id, c.get? "live" = some id) ∧
      c.get? "corrupt" = none ∧ c.get? "gone" = none ∧ c.get? "kept" = none ∧
      b'.get? "gone" = none ∧ (b'.get? "kept").isSome = true ∧
      ∃ w', ({ link := { backend := sampleStore, scanLimit := some 2 } } :
          Schedule.World).openContainer sampleConfig true =
        (.error (.backend (.unavailable "scan failure")), w') ∧ w'.calls = [] := by
  have hsorts := opening_sorts_records sampleConfig 100 sampleStore
  have hplay : (do
      let o := beginOpen sampleConfig 100 sampleStore.scan
      let o' := (o.proceed (.ok ())).2
      let b' ← sampleStore.replay?
        [(.delete "gone", .ok ()), (.delete "kept", .error Backend.injected)]
      guard (o.expired = ["gone", "kept"] ∧ o'.expired = ["kept"] ∧
        (o'.proceed (.error Backend.injected)).2.expired = [] ∧ (b'.get? "gone").isNone ∧
        (b'.get? "kept").isSome)
      return b').isSome = true := by decide +kernel
  simp only [Option.isSome_iff_exists, Option.bind_eq_bind, Option.bind_eq_some_iff] at hplay
  obtain ⟨_, b', hreplay, _, hguard, _⟩ := hplay
  obtain ⟨hfirst, hsecond, hend, hgone, hkept⟩ := (Option.guard_eq_some' _).1 hguard
  have hdone := Opens.done (by rw [Opening.request?, hend]; rfl)
  have opens := Opens.step (request?_of_expired hfirst) (.step (request?_of_expired hsecond) hdone)
  obtain ⟨ds, -, sorted⟩ := hsorts.sorts _ _ _ opens (Backend.serves_of_replay? hreplay)
  obtain ⟨w', hopen, hsame⟩ :=
    hsorts.breaks { link := { backend := sampleStore, scanLimit := some 2 } } 2 rfl rfl
      (by decide +kernel) rfl
  exact ⟨_, b', ds, opens, sorted,
    sorted.found "live" ⟨500, [1, 7, 3]⟩ ⟨Slots.empty.set 7 3, 1⟩ rfl (by decide) rfl,
    (sorted.corrupt "corrupt" ⟨0, [9]⟩ (.invalidLength 9 1) rfl (by decide) rfl).1,
    (sorted.expired "gone" ⟨50, [0]⟩ rfl (by decide)).1,
    (sorted.expired "kept" ⟨60, []⟩ rfl (by decide)).1,
    Option.isNone_iff_eq_none.1 hgone, hkept, w', hopen, hsame.calls⟩

end DistinctCount
