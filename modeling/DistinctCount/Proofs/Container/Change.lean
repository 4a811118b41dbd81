import DistinctCount.Container.Sweep
import DistinctCount.Proofs.Expiry.Index
import DistinctCount.Proofs.WriteBack.Mutate

namespace DistinctCount.Container

variable {c c' c'' : Container} {k m n : Nat} {id other : SketchId} {key : String}
  {bucket : Option UInt64} {f : Sketch → Sketch}

/-- Every entry of the index is that of a live sketch in the bucket that the sketch has on record. -/
def Indexed (c : Container) : Prop :=
  ∀ bucket key entry, c.expiry.get? bucket key = some entry →
    entry.sketch < c.sketches.next ∧ (c.sketch entry.sketch).key = key ∧
      entry.shard = (c.sketch entry.sketch).shard ∧ (c.sketch entry.sketch).deleted = false ∧
      (c.sketch entry.sketch).bucket = some bucket

/-- The container is in order, with `n` mutations at most that no merit accounts for. -/
structure Coherent (n : Nat) (c : Container) : Prop where
  sound : c.toRegistry.Sound
  measured : c.toWriteBack.Measured n
  valid : ∀ id < c.sketches.next, (c.sketch id).Valid
  indexed : c.Indexed

def dying (tickets : List Ticket) (s : Sketch) : Sketch :=
  { s with deleted := true, bucket := none, waiters := s.waiters ++ tickets, pending := s.pending + 1 }

def without (c : Container) (shard : Nat) (key : String) : Container :=
  { c with toRegistry := (c.toRegistry.remove shard key).2 }

/-- A live sketch dies under its key, and the tickets are left with it. -/
def retire (c : Container) (id : SketchId) (key : String) (tickets : List Ticket) : Container :=
  { c.without (c.shardOf key) key with nextTicket := c.nextTicket + tickets.length }.alter
    (·.mutate id (dying tickets))

def dismiss (c : Container) (id : SketchId) (tickets : List Ticket) : Container :=
  { c with notices := c.notices ++ tickets.map fun ticket => (ticket, Confirmation.dropped) }.alter
    (·.edit id fun s => { s with waiters := [] })

/-- A single change, with `k` mutations that no merit accounts for. -/
inductive Change : Nat → Container → Container → Prop
  | create {c : Container} {key : String} (expiresAt : UInt64) (free : c.get? key = none) :
      Change 0 c
        { c with toRegistry := (c.toRegistry.getOrCreate (c.shardOf key) key expiresAt).2 }
  | move {c : Container} {id : SketchId} (bucket : Option UInt64) (made : id < c.sketches.next)
      (live : (c.sketch id).deleted = false) : Change 0 c (c.moveEntry id bucket)
  | detach {c : Container} (bucket : UInt64) :
      Change 0 c { c with expiry := (c.expiry.detach bucket).2 }
  | revise {c : Container} {k : Nat} {id : SketchId} {f : Sketch → Sketch}
      (made : id < c.sketches.next)
      (revision : Sketch.Revision k (c.sketch id) (f (c.sketch id)))
      (deleted : (f (c.sketch id)).deleted = (c.sketch id).deleted)
      (bucket : (f (c.sketch id)).bucket = (c.sketch id).bucket)
      (waiters : (f (c.sketch id)).waiters = (c.sketch id).waiters) :
      Change k c (c.alter (·.mutate id f))
  | retire {c : Container} {id : SketchId} {key : String} (tickets : List Ticket)
      (made : id < c.sketches.next) (live : (c.sketch id).deleted = false)
      (under : (c.sketch id).key = key) (room : (c.sketch id).pending.toInt < 2 ^ 63 - 1)
      (unlisted : ∀ bucket key entry, c.expiry.get? bucket key = some entry → entry.sketch ≠ id)
      (issued : ∀ ticket ∈ tickets, ticket = c.nextTicket) :
      Change 0 c (c.retire id key tickets)
  | dismiss {c : Container} {id : SketchId} (tickets : List Ticket)
      (issued : ∀ ticket ∈ tickets, ticket < c.nextTicket) : Change 0 c (c.dismiss id tickets)
  | shut {c : Container} (closed stopping : Bool) : Change 0 c { c with closed, stopping }

inductive Changes : Nat → Container → Container → Prop
  | refl (c : Container) : Changes 0 c c
  | step {k m : Nat} {c c' c'' : Container} (first : Changes k c c') (last : Change m c' c'') :
      Changes (k + m) c c''

theorem Change.changes (h : Change k c c') : Changes k c c' := by
  have hs := Changes.step (.refl c) h
  rwa [Nat.zero_add] at hs

theorem Changes.trans (h : Changes k c c') (h' : Changes m c' c'') : Changes (k + m) c c'' := by
  induction h' with
  | refl => exact h
  | step _ last ih =>
    rw [← Nat.add_assoc]
    exact (ih h).step last

@[simp] theorem toRegistry_alter_mutate :
    (c.alter (·.mutate id f)).toRegistry = c.toRegistry.modify id f :=
  WriteBack.toRegistry_mutate

theorem toRegistry_retire {tickets : List Ticket} :
    (c.retire id key tickets).toRegistry =
      ((c.toRegistry.remove (c.shardOf key) key).2).modify id (dying tickets) :=
  WriteBack.toRegistry_mutate

theorem sketch_retire {tickets : List Ticket} :
    (c.retire id key tickets).sketch other = (c.toRegistry.modify id (dying tickets)).sketch other := by
  rw [toRegistry_retire]
  rfl

@[simp] theorem next_retire {tickets : List Ticket} :
    (c.retire id key tickets).sketches.next = c.sketches.next := by
  rw [toRegistry_retire]
  exact Registry.next_modify

@[simp] theorem toRegistry_dismiss {tickets : List Ticket} :
    (c.dismiss id tickets).toRegistry = c.toRegistry.modify id fun s => { s with waiters := [] } :=
  rfl

theorem sketch_moveEntry (other : SketchId) (bucket : Option UInt64) (made : id < c.sketches.next) :
    (c.moveEntry id bucket).sketch other =
      if other = id then { c.sketch id with bucket } else c.sketch other := by
  unfold moveEntry
  dsimp only
  split
  · rename_i h
    split
    · rename_i ho
      rw [ho, ← h]
    · rfl
  · change (c.toRegistry.modify id _).sketch other = _
    rw [Registry.sketch_modify]
    simp only [made, and_true]

@[simp] theorem next_moveEntry : (c.moveEntry id bucket).sketches.next = c.sketches.next := by
  unfold moveEntry
  dsimp only
  split
  · rfl
  · exact Registry.next_modify

@[simp] theorem shards_moveEntry : (c.moveEntry id bucket).shards = c.shards := by
  unfold moveEntry
  dsimp only
  split <;> rfl

@[simp] theorem queues_moveEntry : (c.moveEntry id bucket).queues = c.queues := by
  unfold moveEntry
  dsimp only
  split <;> rfl

@[simp] theorem nextTicket_moveEntry : (c.moveEntry id bucket).nextTicket = c.nextTicket := by
  unfold moveEntry
  dsimp only
  split <;> rfl

/-- The index after a sketch has moved: its old entry is gone, its new one is there. -/
theorem get?_moveEntry {b : UInt64} {k : String} :
    (c.moveEntry id bucket).expiry.get? b k =
      if (c.sketch id).bucket = bucket then c.expiry.get? b k
      else if bucket = some b ∧ k = (c.sketch id).key then
        some { shard := (c.sketch id).shard, sketch := id }
      else if (c.sketch id).bucket = some b ∧ k = (c.sketch id).key then none
      else c.expiry.get? b k := by
  unfold moveEntry
  dsimp only
  split
  · rfl
  · cases bucket with
    | none =>
      cases (c.sketch id).bucket with
      | none => simp
      | some source =>
        simp only [Expiry.Index.get?_erase, reduceCtorEq, false_and, if_false, Option.some.injEq,
          eq_comm (a := b)]
    | some target =>
      cases (c.sketch id).bucket with
      | none =>
        simp only [Expiry.Index.relocate, Expiry.Index.get?_insert, reduceCtorEq, false_and,
          if_false, Option.some.injEq, eq_comm (a := b)]
      | some source =>
        simp only [Expiry.Index.relocate, Expiry.Index.get?_insert, Expiry.Index.get?_erase,
          Option.some.injEq, eq_comm (a := b)]

/-! What a change leaves alone, and what it may do to the sketches and the queues. -/

theorem toRegistry_getOrCreate (r : Registry) (shard : Nat) {key : String} (expiresAt : UInt64)
    (free : r.shards.get? shard key = none) :
    (r.getOrCreate shard key expiresAt).2 =
      (r.make { key, shard, expiresAt }).2.insert shard r.sketches.next := by
  simp only [Registry.getOrCreate, free, Registry.make]

theorem Change.frame (h : Change k c c') :
    c'.config = c.config ∧ c'.persistent = c.persistent ∧ c'.retry = c.retry ∧
      c'.savers = c.savers ∧ c'.channel = c.channel ∧ c'.job = c.job ∧ c'.drain = c.drain := by
  cases h with
  | move bucket =>
    unfold moveEntry
    dsimp only
    split <;> exact ⟨rfl, rfl, rfl, rfl, rfl, rfl, rfl⟩
  | revise =>
    refine ⟨rfl, rfl, ?_, rfl, rfl, rfl, rfl⟩
    change (WriteBack.mutate _ _ _).retry = _
    unfold WriteBack.mutate
    split <;> rfl
  | retire =>
    refine ⟨rfl, rfl, ?_, rfl, rfl, rfl, rfl⟩
    change (WriteBack.mutate _ _ _).retry = _
    unfold WriteBack.mutate
    split <;> rfl
  | _ => exact ⟨rfl, rfl, rfl, rfl, rfl, rfl, rfl⟩

theorem sketch_create (id : SketchId) (shard : Nat) {key : String} (expiresAt : UInt64) {r : Registry}
    (free : r.shards.get? shard key = none) :
    (r.getOrCreate shard key expiresAt).2.sketch id =
      if id = r.sketches.next then { key, shard, expiresAt } else r.sketch id := by
  rw [toRegistry_getOrCreate _ _ _ free]
  exact Registry.sketch_make

theorem next_create (shard : Nat) {key : String} (expiresAt : UInt64) {r : Registry}
    (free : r.shards.get? shard key = none) :
    (r.getOrCreate shard key expiresAt).2.sketches.next = r.sketches.next + 1 := by
  rw [toRegistry_getOrCreate _ _ _ free]
  exact Registry.next_make

theorem Change.next_le (h : Change k c c') : c.sketches.next ≤ c'.sketches.next := by
  cases h with
  | create expiresAt free =>
    exact Nat.le_trans (Nat.le_succ _) (Nat.le_of_eq (next_create _ expiresAt free).symm)
  | move => exact Nat.le_of_eq next_moveEntry.symm
  | revise => exact Nat.le_of_eq (by rw [toRegistry_alter_mutate, Registry.next_modify])
  | retire => exact Nat.le_of_eq next_retire.symm
  | dismiss => exact Nat.le_of_eq Registry.next_modify.symm
  | _ => exact Nat.le_refl _

/-- A sketch that was there is revised. -/
theorem Change.revision (h : Change k c c') (hid : id < c.sketches.next) :
    Sketch.Revision k (c.sketch id) (c'.sketch id) := by
  cases h with
  | create expiresAt free =>
    have hs := sketch_create id _ expiresAt free
    rw [if_neg (Nat.ne_of_lt hid)] at hs
    exact .of_eq hs
  | move bucket made =>
    rw [sketch_moveEntry _ _ made]
    split
    · rename_i he
      subst he
      exact Sketch.revision_unwritten _ _ _
    · exact .refl _
  | revise made revision =>
    rw [toRegistry_alter_mutate, Registry.sketch_modify]
    split
    · rename_i he
      rw [he.1]
      exact revision
    · exact (Sketch.Revision.refl _).mono (Nat.zero_le _)
  | retire tickets made live under room =>
    rw [sketch_retire, Registry.sketch_modify]
    split
    · rename_i he
      rw [he.1]
      exact Sketch.revision_retire room live _
    · exact .refl _
  | dismiss =>
    rw [toRegistry_dismiss, Registry.sketch_modify]
    split
    · rename_i he
      rw [he.1]
      exact Sketch.revision_unwritten _ _ _
    · exact .refl _
  | _ => exact .refl _

theorem Change.fresh (h : Change k c c') (hle : c.sketches.next ≤ id)
    (hid : id < c'.sketches.next) :
    ∃ key expiresAt, c.get? key = none ∧
      c'.sketch id = { key, shard := c.shardOf key, expiresAt } := by
  have hold : c'.sketches.next = c.sketches.next → False := fun he => by
    rw [he] at hid
    exact absurd hid (Nat.not_lt.2 hle)
  cases h with
  | @create _ key expiresAt free =>
    have hn := next_create (c.shardOf key) expiresAt free
    have hs := sketch_create id _ expiresAt free
    have heq : id = c.sketches.next := by
      change id < Sketches.next (Registry.sketches _) at hid
      rw [hn] at hid
      exact Nat.le_antisymm (Nat.le_of_lt_succ hid) hle
    rw [if_pos heq] at hs
    exact ⟨key, expiresAt, free, hs⟩
  | move => exact (hold next_moveEntry).elim
  | revise => exact (hold (by rw [toRegistry_alter_mutate, Registry.next_modify])).elim
  | retire => exact (hold next_retire).elim
  | dismiss => exact (hold Registry.next_modify).elim
  | _ => exact (hold rfl).elim

theorem queued_congr {w w' : WriteBack} (h : w.queues = w'.queues) : w.queued = w'.queued := by
  rw [WriteBack.queued, WriteBack.queued, h]

/-- A change pushes exactly the clean sketch that it leaves dirty. -/
theorem Change.count (h : Change k c c') (id : SketchId) :
    c'.queued.count id = c.queued.count id +
      if (c.sketch id).pending = 0 ∧ (c'.sketch id).pending ≠ 0 then 1 else 0 := by
  have hstill (hq : c'.queues = c.queues) (hp : (c'.sketch id).pending = (c.sketch id).pending) :
      c'.queued.count id = c.queued.count id +
        if (c.sketch id).pending = 0 ∧ (c'.sketch id).pending ≠ 0 then 1 else 0 := by
    rw [queued_congr hq, hp, if_neg fun h => h.2 h.1, Nat.add_zero]
  cases h with
  | create expiresAt free =>
    apply hstill rfl
    apply (congrArg Sketch.pending (sketch_create _ _ expiresAt free)).trans
    split
    · rename_i he
      rw [Registry.sketch_of_le (Nat.le_of_eq he.symm)]
      rfl
    · rfl
  | move bucket made =>
    apply hstill queues_moveEntry
    rw [sketch_moveEntry _ _ made]
    split
    · rename_i he
      rw [he]
    · rfl
  | @revise _ _ moved f made =>
    rw [toRegistry_alter_mutate, Registry.sketch_modify]
    apply (WriteBack.count_queued_mutate _ _ _ _).trans
    by_cases he : id = moved
    · simp [he, made]
    · simp [he]
  | @retire _ moved key tickets made =>
    rw [sketch_retire, Registry.sketch_modify]
    apply (WriteBack.count_queued_mutate _ _ _ _).trans
    by_cases he : id = moved
    · simp only [he, made, and_self, if_true, true_and]
      rfl
    · simp only [he, false_and, if_false]
      rw [if_neg fun h => h.2 h.1]
      rfl
  | dismiss =>
    apply hstill rfl
    apply (congrArg Sketch.pending Registry.sketch_modify).trans
    split
    · rename_i he
      rw [he.1]
    · rfl
  | _ => exact hstill rfl rfl

theorem Change.home (h : Change k c c') {p : Partition} (hid : id ∈ (c'.queues.get p).items) :
    id ∈ (c.queues.get p).items ∨ id < c.sketches.next ∧ p = partitionOf (c.sketch id).shard := by
  cases h with
  | move =>
    rw [queues_moveEntry] at hid
    exact .inl hid
  | revise made revision =>
    rcases WriteBack.mem_mutate made hid with hq | ⟨rfl, hp⟩
    · exact .inl hq
    · rw [revision.shard] at hp
      exact .inr ⟨made, hp⟩
  | @retire _ _ key tickets made =>
    let w := { c.toWriteBack with toRegistry := (c.toRegistry.remove (c.shardOf key) key).2 }
    rcases WriteBack.mem_mutate (w := w) made hid with hq | ⟨rfl, hp⟩
    · exact .inl hq
    · exact .inr ⟨made, hp⟩
  | _ => exact .inl hid

theorem Change.measured (h : Change k c c') (hc : c.toWriteBack.Measured n) :
    c'.toWriteBack.Measured (n + k) := by
  intro id
  by_cases hid : id < c.sketches.next
  · have hrev := h.revision hid
    have hp := hrev.pending
    have hm := hrev.counted
    have hold := hc id
    push_cast
    omega
  · have hz : (c'.sketch id).pending = 0 := by
      by_cases hid' : id < c'.sketches.next
      · obtain ⟨key, expiresAt, -, he⟩ := h.fresh (Nat.le_of_not_lt hid) hid'
        rw [he]
      · rw [Registry.sketch_of_le (Nat.le_of_not_lt hid')]
        rfl
    change 0 ≤ (c'.sketch id).pending.toInt ∧ (c'.sketch id).pending.toInt ≤ _
    rw [hz, Int64.toInt_zero]
    omega

theorem Change.valid (h : Change k c c') (hc : ∀ id < c.sketches.next, (c.sketch id).Valid) :
    ∀ id < c'.sketches.next, (c'.sketch id).Valid := by
  intro id hid'
  by_cases hid : id < c.sketches.next
  · exact (h.revision hid).valid (hc id hid)
  · obtain ⟨key, expiresAt, -, he⟩ := h.fresh (Nat.le_of_not_lt hid) hid'
    rw [he]
    exact Sketch.valid_new _ _ _ _

theorem Change.sound (h : Change k c c') (hc : c.toRegistry.Sound) : c'.toRegistry.Sound := by
  cases h with
  | @create _ key expiresAt free =>
    change Registry.Sound (c.toRegistry.getOrCreate (c.shardOf key) key expiresAt).2
    rw [toRegistry_getOrCreate c.toRegistry (c.shardOf key) expiresAt free]
    exact hc.create rfl rfl rfl free
  | @move _ id bucket made =>
    apply hc.congr shards_moveEntry next_moveEntry
    all_goals
      intro other
      rw [sketch_moveEntry _ _ made]
      split
      · rename_i he
        rw [he]
      · rfl
  | revise made revision deleted =>
    rw [toRegistry_alter_mutate]
    exact hc.modify revision.key revision.shard deleted
  | @retire _ id key tickets made live under =>
    rw [toRegistry_retire]
    exact hc.retire (f := dying tickets) made live under rfl rfl rfl
  | dismiss => exact hc.modify rfl rfl rfl
  | _ => exact hc

theorem Indexed.congr (hc : c.Indexed)
    (hx : ∀ bucket key entry, c'.expiry.get? bucket key = some entry →
      c.expiry.get? bucket key = some entry)
    (hn : c.sketches.next ≤ c'.sketches.next)
    (hs : ∀ bucket key entry, c.expiry.get? bucket key = some entry →
      c'.expiry.get? bucket key = some entry →
      (c'.sketch entry.sketch).key = (c.sketch entry.sketch).key ∧
        (c'.sketch entry.sketch).shard = (c.sketch entry.sketch).shard ∧
        (c'.sketch entry.sketch).deleted = (c.sketch entry.sketch).deleted ∧
        (c'.sketch entry.sketch).bucket = (c.sketch entry.sketch).bucket) : c'.Indexed := by
  intro bucket key entry he
  have hold := hx bucket key entry he
  obtain ⟨hlt, hkey, hshard, hlive, hbucket⟩ := hc bucket key entry hold
  obtain ⟨hk, hsh, hd, hb⟩ := hs bucket key entry hold he
  exact ⟨Nat.lt_of_lt_of_le hlt hn, hk.trans hkey, hshard.trans hsh.symm, hd.trans hlive,
    hb.trans hbucket⟩

theorem indexed_moveEntry (hc : c.Indexed) (made : id < c.sketches.next)
    (live : (c.sketch id).deleted = false) : (c.moveEntry id bucket).Indexed := by
  intro b k entry he
  rw [next_moveEntry, sketch_moveEntry _ _ made]
  rw [get?_moveEntry] at he
  split at he
  · rename_i hsame
    obtain ⟨hlt, hkey, hshard, hlive, hbucket⟩ := hc b k entry he
    split
    · rename_i heq
      rw [heq] at hkey hshard hbucket
      exact ⟨hlt, hkey, hshard, live, hsame.symm.trans hbucket⟩
    · exact ⟨hlt, hkey, hshard, hlive, hbucket⟩
  · split at he
    · rename_i hnew
      obtain rfl := Option.some.inj he
      rw [if_pos rfl]
      exact ⟨made, hnew.2.symm, rfl, live, hnew.1⟩
    · split at he
      · cases he
      · rename_i hold
        obtain ⟨hlt, hkey, hshard, hlive, hbucket⟩ := hc b k entry he
        rw [if_neg]
        · exact ⟨hlt, hkey, hshard, hlive, hbucket⟩
        · intro heq
          rw [heq] at hkey hbucket
          exact hold ⟨hbucket, hkey.symm⟩

theorem Change.indexed (h : Change k c c') (hc : c.Indexed) : c'.Indexed := by
  have hnext := h.next_le
  have hlive : ∀ bucket key entry, c.expiry.get? bucket key = some entry →
      entry.sketch < c.sketches.next := fun _ _ _ he => (hc _ _ _ he).1
  cases h with
  | @create _ key expiresAt free =>
    refine hc.congr (fun _ _ _ => id) hnext ?_
    intro b k entry he _
    have hs := sketch_create entry.sketch _ expiresAt free
    rw [if_neg (Nat.ne_of_lt (hlive _ _ _ he))] at hs
    exact ⟨congrArg Sketch.key hs, congrArg Sketch.shard hs, congrArg Sketch.deleted hs,
      congrArg Sketch.bucket hs⟩
  | move bucket made live => exact indexed_moveEntry hc made live
  | detach =>
    refine hc.congr ?_ hnext fun _ _ _ _ _ => ⟨rfl, rfl, rfl, rfl⟩
    intro b k entry he
    rw [Expiry.Index.get?_detach] at he
    split at he
    · cases he
    · exact he
  | revise made revision deleted bucket =>
    refine hc.congr (fun _ _ _ => id) hnext ?_
    intro b k entry _ _
    rw [toRegistry_alter_mutate, Registry.sketch_modify]
    split
    · rename_i heq
      rw [heq.1]
      exact ⟨revision.key, revision.shard, deleted, bucket⟩
    · exact ⟨rfl, rfl, rfl, rfl⟩
  | retire tickets made live under room unlisted issued =>
    refine hc.congr (fun _ _ _ => id) hnext ?_
    intro b k entry he _
    rw [sketch_retire, Registry.sketch_modify_of_ne (unlisted b k entry he)]
    exact ⟨rfl, rfl, rfl, rfl⟩
  | dismiss =>
    refine hc.congr (fun _ _ _ => id) hnext ?_
    intro b k entry _ _
    rw [toRegistry_dismiss, Registry.sketch_modify]
    split
    · rename_i heq
      rw [heq.1]
      exact ⟨rfl, rfl, rfl, rfl⟩
    · exact ⟨rfl, rfl, rfl, rfl⟩
  | shut => exact hc

theorem Coherent.mono (hc : c.Coherent n) (hnm : n ≤ m) : c.Coherent m :=
  { hc with measured := hc.measured.mono hnm }

theorem Change.coherent (h : Change k c c') (hc : c.Coherent n) : c'.Coherent (n + k) where
  sound := h.sound hc.sound
  measured := h.measured hc.measured
  valid := h.valid hc.valid
  indexed := h.indexed hc.indexed

theorem Changes.coherent (h : Changes k c c') (hc : c.Coherent n) : c'.Coherent (n + k) := by
  induction h with
  | refl => exact hc
  | step _ last ih =>
    rw [← Nat.add_assoc]
    exact last.coherent (ih hc)

theorem Changes.frame (h : Changes k c c') :
    c'.config = c.config ∧ c'.persistent = c.persistent ∧ c'.retry = c.retry ∧
      c'.savers = c.savers ∧ c'.channel = c.channel ∧ c'.job = c.job ∧ c'.drain = c.drain := by
  induction h with
  | refl => exact ⟨rfl, rfl, rfl, rfl, rfl, rfl, rfl⟩
  | step _ last ih =>
    obtain ⟨h1, h2, h3, h4, h5, h6, h7⟩ := ih
    obtain ⟨g1, g2, g3, g4, g5, g6, g7⟩ := last.frame
    exact ⟨g1.trans h1, g2.trans h2, g3.trans h3, g4.trans h4, g5.trans h5, g6.trans h6, g7.trans h7⟩

theorem Changes.next_le (h : Changes k c c') : c.sketches.next ≤ c'.sketches.next := by
  induction h with
  | refl => exact Nat.le_refl _
  | step _ last ih => exact Nat.le_trans ih last.next_le

theorem Changes.revision (h : Changes k c c') (hid : id < c.sketches.next) :
    Sketch.Revision k (c.sketch id) (c'.sketch id) := by
  induction h with
  | refl => exact .refl _
  | step first last ih =>
    exact (ih hid).trans (last.revision (Nat.lt_of_lt_of_le hid first.next_le))

theorem Coherent.get?_eq_some (hc : c.Coherent n) :
    c.get? key = some id ↔
      id < c.sketches.next ∧ (c.sketch id).deleted = false ∧ (c.sketch id).key = key :=
  hc.sound.get?_eq_some

theorem Coherent.room (hc : c.Coherent n) (hn : n < 2 ^ 62) (id : SketchId) :
    (c.sketch id).pending.toInt < 2 ^ 63 - 1 :=
  hc.measured.room hn id

theorem Coherent.unlisted (hc : c.Coherent n) (hid : (c.sketch id).bucket = none)
    (bucket : UInt64) (key : String) (entry : Entry)
    (he : c.expiry.get? bucket key = some entry) : entry.sketch ≠ id := by
  rintro rfl
  obtain ⟨-, -, -, -, hb⟩ := hc.indexed bucket key entry he
  rw [hid] at hb
  cases hb

end DistinctCount.Container
