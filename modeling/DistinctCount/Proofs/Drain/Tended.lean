import DistinctCount.Proofs.Container.Kept
import DistinctCount.Proofs.Container.Restore
import DistinctCount.Proofs.Drain.Run

/-!
What a drain owes to the keys of the sketches that waited when it began. The sketch under such a key, or
a deleted one that stood under it, still waits, or else the store has what it should have of the key.
-/

namespace DistinctCount

namespace WriteBack

variable {w : WriteBack} {id other : SketchId} {key : String}

/--
A write-back that a drain can bring to its end: what is not written yet waits in the queues, and what
waits there is either deleted or stands in its shard. In which queue a sketch waits is all the same.
-/
structure Drainable (w : WriteBack) : Prop where
  /-- A registered sketch is one of those made and has the key it stands under; its data is sound. -/
  made : ∀ key id, w.get? key = some id → id < w.sketches.next ∧ (w.sketch id).key = key ∧
    (w.sketch id).Valid ∧ 0 ≤ (w.sketch id).pending
  live : ∀ key id, w.get? key = some id → (w.sketch id).deleted = false
  dirty : ∀ key id, w.get? key = some id → 0 < (w.sketch id).pending → id ∈ w.queued
  queued : ∀ id ∈ w.queued, 0 < (w.sketch id).pending
  current : ∀ id ∈ w.queued, (w.sketch id).deleted = false → w.get? (w.sketch id).key = some id

/-- A sketch waits, or stands under the key of one that does. -/
def Concerned (w : WriteBack) (id : SketchId) : Prop :=
  ∃ other ∈ w.queued, id = other ∨ w.get? (w.sketch other).key = some id

def Recorded (w : WriteBack) (b : Backend) (key : String) : Prop :=
  match w.get? key with
  | none => b.get? key = none
  | some id => ∃ r, b.get? key = some r ∧ r.Holds (w.sketch id)

theorem recorded_none {b : Backend} (h : w.get? key = none) :
    w.Recorded b key ↔ b.get? key = none := by
  rw [Recorded, h]

theorem recorded_some {b : Backend} (h : w.get? key = some id) :
    w.Recorded b key ↔ ∃ r, b.get? key = some r ∧ r.Holds (w.sketch id) := by
  rw [Recorded, h]

theorem Drainable.key_eq (hw : w.Drainable) (h : w.get? key = some id) : (w.sketch id).key = key :=
  (hw.made key id h).2.1

theorem Drainable.lt_next (hw : w.Drainable) (h : w.Concerned id) : id < w.sketches.next := by
  obtain ⟨other, hother, rfl | hget⟩ := h
  · by_contra hle
    have hpos := hw.queued id hother
    rw [Registry.sketch_of_le (Nat.le_of_not_lt hle)] at hpos
    exact absurd hpos (by decide)
  · exact (hw.made _ id hget).1

theorem Drainable.get? (hw : w.Drainable) (h : w.Concerned id) (hlive : (w.sketch id).deleted = false) :
    w.get? (w.sketch id).key = some id := by
  obtain ⟨other, hother, rfl | hget⟩ := h
  · exact hw.current id hother hlive
  · rwa [hw.key_eq hget]

theorem Concerned.current (hw : w.Drainable) (h : w.Concerned id)
    (hget : w.get? (w.sketch id).key = some other) : w.Concerned other := by
  obtain ⟨first, hfirst, rfl | hid⟩ := h
  · exact ⟨id, hfirst, .inr hget⟩
  · rw [hw.key_eq hid] at hget
    exact ⟨first, hfirst, .inr hget⟩

theorem shards_succeeded (w : WriteBack) (job : Job) : (w.succeeded job).shards = w.shards := by
  rw [succeeded, shards_flushed]
  obtain ⟨-, heq⟩ | ⟨current, -, heq⟩ := w.inherited_cases job
  · rw [heq]
  · rw [heq, toRegistry_schedule, Registry.shards_modify]

theorem kept_succeeded (w : WriteBack) (job : Job) :
    Registry.Kept Sketch.core w.toRegistry (w.succeeded job).toRegistry := by
  refine .trans ?_ (kept_flushed _ job)
  obtain ⟨-, heq⟩ | ⟨current, -, heq⟩ := w.inherited_cases job
  · rw [heq]
    exact .refl _ _
  · rw [heq]
    exact kept_schedule w current fun _ => rfl

theorem mem_queued_enqueue : other ∈ (w.enqueue id).queued ↔ other ∈ w.queued ∨ other = id := by
  simp only [mem_queued, mem_enqueue, exists_or, exists_and_left, exists_eq, and_true]

end WriteBack

namespace Drainage

variable {w : WriteBack} {s s' : Drainage} {drain : Drain} {job : Job} {id other : SketchId}
  {told : Nat → Option Nat}

def batch (s : Drainage) : List SketchId :=
  s.container.drain.elim [] (·.1.batch)

def Waits (s : Drainage) (id : SketchId) : Prop :=
  id ∈ s.container.queued ∨ id ∈ s.batch ∨ ∃ job, s.job? = some job ∧ job.sketch = id

theorem waits_idle (h : s.container.drain = some (drain, none)) :
    s.Waits id ↔ id ∈ s.container.queued ∨ id ∈ drain.batch := by
  simp [Waits, batch, job?, h]

theorem waits_job (h : s.container.drain = some (drain, some job)) :
    s.Waits id ↔ id ∈ s.container.queued ∨ id ∈ drain.batch ∨ job.sketch = id := by
  simp [Waits, batch, job?, h]

/-- A write is up to date: nothing has happened to its sketch since it began. -/
structure Faithful (w : WriteBack) (s : Drainage) (job : Job) : Prop where
  key : job.key = (w.sketch job.sketch).key
  pending : job.pending = (s.container.sketch job.sketch).pending
  stage : match job.stage with
    | .update expiresAt data => (w.sketch job.sketch).deleted = false ∧
        expiresAt = (w.sketch job.sketch).expiresAt ∧ data = (w.sketch job.sketch).toBytes
    | .delete => (w.sketch job.sketch).deleted = true
    | .flush _ => (w.sketch job.sketch).deleted = true ∧ s.backend.get? job.key = none

/-- A drain that began with `w` has neglected nothing so far. -/
structure Tended (w : WriteBack) (s : Drainage) : Prop where
  kept : Registry.Kept Sketch.core w.toRegistry s.container.toRegistry
  shards : s.container.shards = w.shards
  concerned : ∀ id, s.Waits id → w.Concerned id
  dirty : ∀ id, w.Concerned id → (s.container.sketch id).pending ≠ 0 → s.Waits id
  recorded : ∀ id, w.Concerned id →
    (∃ other, s.Waits other ∧ (w.sketch other).key = (w.sketch id).key) ∨
      w.Recorded s.backend (w.sketch id).key
  job : ∀ job, s.job? = some job → Faithful w s job

theorem tended_begin (hw : w.Drainable) (hwriteBack : s.container.toWriteBack = w)
    (hdrain : s.container.drain = some ({}, none)) : Tended w s := by
  have hwaits (id : SketchId) : s.Waits id ↔ id ∈ w.queued := by
    rw [waits_idle hdrain, hwriteBack]
    simp
  refine ⟨hwriteBack ▸ .refl _ _, by rw [hwriteBack], ?_, ?_, ?_, ?_⟩
  · intro id hid
    exact ⟨id, (hwaits id).1 hid, .inl rfl⟩
  · intro id hid hne
    rw [hwriteBack] at hne
    rw [hwaits]
    obtain ⟨other, hother, rfl | hget⟩ := hid
    · exact hother
    · have hpos := (hw.made _ id hget).2.2.2
      refine hw.dirty _ id hget (Int64.lt_of_le_of_ne hpos hne.symm)
  · rintro id ⟨other, hother, rfl | hget⟩
    · exact .inl ⟨id, (hwaits id).2 hother, rfl⟩
    · exact .inl ⟨other, (hwaits other).2 hother, (hw.key_eq hget).symm⟩
  · intro job hjob
    rw [job?, hdrain] at hjob
    cases hjob

theorem Tended.view {α : Type} (h : Tended w s) (view : Sketch → α)
    (hview : ∀ s, view (Sketch.core s) = view s) (id : SketchId) :
    view (s.container.sketch id) = view (w.sketch id) := by
  have hcore := congrArg view (h.kept.sketch id)
  rwa [hview, hview] at hcore

/-- A step that writes nothing off. -/
theorem Tended.carry (h : Tended w s)
    (hkept : Registry.Kept (fun s => (s.core, s.pending)) s.container.toRegistry
      s'.container.toRegistry)
    (hshards : s'.container.shards = s.container.shards) (hwaits : ∀ id, s'.Waits id ↔ s.Waits id)
    (hrecords : ∀ key, s'.backend.get? key = s.backend.get? key ∨
      ∃ id, s'.Waits id ∧ (w.sketch id).key = key)
    (hjob : ∀ job, s'.job? = some job → Faithful w s' job) : Tended w s' where
  kept := h.kept.trans (hkept.map Prod.fst)
  shards := hshards.trans h.shards
  concerned := fun id hid => h.concerned id ((hwaits id).1 hid)
  dirty := by
    intro id hid hne
    have hpending : (s'.container.sketch id).pending = _ := congrArg Prod.snd (hkept.sketch id)
    rw [hpending] at hne
    exact (hwaits id).2 (h.dirty id hid hne)
  recorded := by
    intro id hid
    rcases hrecords (w.sketch id).key with hsame | hwaiting
    · rcases h.recorded id hid with ⟨other, hother, hkey⟩ | hrecorded
      · exact .inl ⟨other, (hwaits other).2 hother, hkey⟩
      · refine .inr ?_
        unfold WriteBack.Recorded at hrecorded ⊢
        rwa [hsame]
    · exact .inl hwaiting
  job := hjob

theorem Tended.faithful_begin (h : Tended w s)
    (hsame : s'.container.toRegistry = s.container.toRegistry) (id : SketchId) :
    Faithful w s' (s.container.begin id) := by
  have hdeleted := h.view Sketch.deleted (fun _ => rfl) id
  have hexpires := h.view Sketch.expiresAt (fun _ => rfl) id
  have hbytes := h.view Sketch.toBytes (fun _ => rfl) id
  refine ⟨h.view Sketch.key (fun _ => rfl) id, by rw [hsame]; rfl, ?_⟩
  have hsketch : (s.container.begin id).sketch = id := rfl
  cases hd : (s.container.sketch id).deleted with
  | true =>
    have hstage : (s.container.begin id).stage = .delete := by
      rw [WriteBack.begin, hd]
      rfl
    rw [hd] at hdeleted
    rw [hstage, hsketch]
    exact hdeleted.symm
  | false =>
    have hstage : (s.container.begin id).stage =
        .update (s.container.sketch id).expiresAt (s.container.sketch id).toBytes := by
      rw [WriteBack.begin, hd]
      rfl
    rw [hd] at hdeleted
    rw [hstage, hsketch]
    exact ⟨hdeleted.symm, hexpires, hbytes⟩

theorem mem_items_drainQueue {c : Container} (hqueue : drain.queue < 8) (p : Partition) :
    id ∈ ((c.drainQueue drain hqueue).queues.get p).items ↔
      p.val ≠ drain.queue ∧ id ∈ (c.queues.get p).items := by
  have hedit : (c.drainQueue drain hqueue).queues.get p = _ :=
    WriteBack.queues_editQueue (q := p) (p := ⟨drain.queue, hqueue⟩)
  rw [hedit]
  simp only [Fin.ext_iff]
  split
  · rename_i hp
    simp [hp]
  · rename_i hp
    simp [hp]

theorem queued_drainQueue {c : Container} (hqueue : drain.queue < 8) :
    id ∈ c.queued ↔ id ∈ (c.drainQueue drain hqueue).queued ∨ id ∈ c.queues[drain.queue].items := by
  simp only [WriteBack.mem_queued, mem_items_drainQueue]
  constructor
  · rintro ⟨p, hp⟩
    by_cases hcurrent : p.val = drain.queue
    · obtain rfl : p = ⟨drain.queue, hqueue⟩ := Fin.ext hcurrent
      exact .inr hp
    · exact .inl ⟨p, hcurrent, hp⟩
  · rintro (⟨p, -, hp⟩ | hbatch)
    · exact ⟨p, hp⟩
    · exact ⟨⟨drain.queue, hqueue⟩, hbatch⟩

theorem waits_advance (hdrain : s.container.drain = some (drain, none)) (id : SketchId) :
    Waits { s with container := (s.container.drainAdvance drain).2 } id ↔ s.Waits id := by
  rw [waits_idle hdrain]
  obtain ⟨first, batch, hb, heq⟩ | ⟨hb, hqueue, heq⟩ | ⟨hb, -, -, -, heq⟩ | ⟨hb, -, -, heq⟩ :=
    s.container.drainAdvance_cases drain
  all_goals rw [heq, hb]
  · rw [waits_job rfl, List.mem_cons, eq_comm (a := id), or_comm (a := first = id)]
    rfl
  · rw [waits_idle rfl, queued_drainQueue (c := s.container) hqueue, List.mem_nil_iff, or_false]
  · rw [waits_idle rfl, hb]
    rfl
  · simp [Waits, Drainage.batch, job?]

theorem Tended.advance (h : Tended w s) (hdrain : s.container.drain = some (drain, none)) :
    Tended w { s with container := (s.container.drainAdvance drain).2 } := by
  obtain ⟨hsame, -, hbegin⟩ := advance_still s drain
  refine h.carry (hsame ▸ .refl _ _) (by rw [hsame]) (waits_advance hdrain) (fun _ => .inl rfl) ?_
  intro job hjob
  obtain ⟨id, rfl⟩ := hbegin job hjob
  exact h.faithful_begin hsame id

theorem kept_left {v : WriteBack} (id : SketchId)
    (left : v = s.container.toWriteBack ∨ v = s.container.dismissed id) :
    Registry.Kept (fun s => (s.core, s.pending)) s.container.toRegistry v.toRegistry ∧
      v.shards = s.container.shards ∧ v.queues = s.container.queues := by
  rcases left with rfl | rfl
  · exact ⟨.refl _ _, rfl, rfl⟩
  · exact ⟨Registry.kept_modify _ id fun _ => rfl, rfl, rfl⟩

theorem Tended.again (h : Tended w s) (hdrain : s.container.drain = some (drain, some job))
    (writeBack : s'.container.toWriteBack = s.container.toWriteBack)
    (next : s'.container.drain = some (drain, some { job with attempt := job.attempt + 1 }))
    (records : s'.backend.get? = s.backend.get?) : Tended w s' := by
  have hj := h.job job (by rw [job?, hdrain]; rfl)
  refine h.carry (writeBack ▸ .refl _ _) (by rw [writeBack]) ?_ (fun key => .inl (by rw [records])) ?_
  · intro id
    rw [waits_job next, waits_job hdrain, writeBack]
  · intro job' hjob'
    rw [job?, next] at hjob'
    obtain rfl := Option.some.inj hjob'
    refine ⟨hj.key, by rw [writeBack]; exact hj.pending, ?_⟩
    rw [records]
    exact hj.stage

/-- A record has been deleted. The sketch of its key is not forgotten, since the write goes on. -/
theorem Tended.flush (h : Tended w s) (hdrain : s.container.drain = some (drain, some job))
    (stage : job.stage = .delete)
    (writeBack : s'.container.toWriteBack = s.container.dismissed job.sketch)
    {waiters : List Ticket}
    (next : s'.container.drain = some (drain, some { job with stage := .flush waiters, attempt := 1 }))
    (records : s'.backend.get? = Backend.after job.request s.backend.get?) : Tended w s' := by
  have hj := h.job job (by rw [job?, hdrain]; rfl)
  have hdead := hj.stage
  rw [stage] at hdead
  obtain ⟨hkept, hshards, hqueues⟩ := kept_left (s := s) job.sketch (.inr rfl)
  have hrecords (key : String) :
      s'.backend.get? key = if key = job.key then none else s.backend.get? key := by
    rw [records, Job.request, stage]
    rfl
  have hwaits (id : SketchId) : s'.Waits id ↔ s.Waits id := by
    rw [waits_job next, waits_job hdrain, writeBack]
    rfl
  refine h.carry (writeBack ▸ hkept) (by rw [writeBack, hshards]) hwaits ?_ ?_
  · intro key
    rw [hrecords]
    split
    · rename_i hkey
      refine .inr ⟨job.sketch, ?_, by rw [hkey, hj.key]⟩
      rw [waits_job next]
      exact .inr (.inr rfl)
    · exact .inl rfl
  · intro job' hjob'
    rw [job?, next] at hjob'
    obtain rfl := Option.some.inj hjob'
    refine ⟨hj.key, ?_, hdead, by rw [hrecords, if_pos rfl]⟩
    rw [writeBack]
    exact hj.pending.trans (congrArg Prod.snd (hkept.sketch job.sketch)).symm

theorem Tended.failure (h : Tended w s) (hdrain : s.container.drain = some (drain, some job))
    {v : WriteBack} (left : v = s.container.toWriteBack ∨ v = s.container.dismissed job.sketch)
    (writeBack : s'.container.toWriteBack = v.enqueue job.sketch)
    (next : s'.container.drain = some (drain, none))
    (records : s'.backend.get? = s.backend.get?) : Tended w s' := by
  obtain ⟨hkept, hshards, hqueues⟩ := kept_left job.sketch left
  refine h.carry (by rw [writeBack]; exact hkept) (by rw [writeBack]; exact hshards) ?_
    (fun key => .inl (by rw [records])) ?_
  · intro id
    rw [waits_idle next, waits_job hdrain, writeBack, WriteBack.mem_queued_enqueue,
      WriteBack.queued, hqueues, or_assoc, or_comm (a := id = job.sketch), eq_comm (a := id)]
    rfl
  · intro job' hjob'
    rw [job?, next] at hjob'
    cases hjob'

theorem Faithful.live_iff (h : Faithful w s job) :
    (w.sketch job.sketch).deleted = false ↔ ∃ expiresAt data, job.stage = .update expiresAt data := by
  have hstage := h.stage
  cases hs : job.stage with
  | update expiresAt data =>
    rw [hs] at hstage
    exact ⟨fun _ => ⟨expiresAt, data, rfl⟩, fun _ => hstage.1⟩
  | delete =>
    rw [hs] at hstage
    simp [hstage]
  | flush waiters =>
    rw [hs] at hstage
    simp [hstage.1]

theorem Faithful.records (h : Faithful w s job)
    (records : s'.backend.get? = Backend.after job.request s.backend.get?) (key : String) :
    s'.backend.get? key = if key = job.key then
        if (w.sketch job.sketch).deleted then none
        else some ⟨(w.sketch job.sketch).expiresAt, (w.sketch job.sketch).toBytes⟩
      else s.backend.get? key := by
  have hstage := h.stage
  cases hs : job.stage with
  | update expiresAt data =>
    rw [hs] at hstage
    obtain ⟨hlive, rfl, rfl⟩ := hstage
    rw [records, Job.request, hs, hlive]
    rfl
  | delete =>
    rw [hs] at hstage
    have hdead : (w.sketch job.sketch).deleted = true := hstage
    rw [records, Job.request, hs, hdead]
    rfl
  | flush waiters =>
    rw [hs] at hstage
    -- A flush leaves the records as they are, and there was none for the key.
    obtain ⟨hdead, habsent⟩ := hstage
    rw [records, Job.request, hs, hdead]
    by_cases hkey : key = job.key
    · rw [if_pos hkey, hkey]
      exact habsent
    · rw [if_neg hkey]
      rfl

theorem Tended.get? (h : Tended w s) (key : String) : s.container.get? key = w.get? key := by
  rw [Registry.get?, Registry.get?, h.shards]

theorem Tended.lt_next (hw : w.Drainable) (h : Tended w s) (hid : w.Concerned id) :
    id < s.container.sketches.next :=
  h.kept.next ▸ hw.lt_next hid

theorem Tended.heir?_eq_some (hw : w.Drainable) (h : Tended w s) (hj : Faithful w s job) :
    s.container.heir? job = some id ↔
      (w.sketch job.sketch).deleted = true ∧ w.get? job.key = some id := by
  have hkey : (s.container.sketch job.sketch).key = job.key :=
    (h.view Sketch.key (fun _ => rfl) job.sketch).trans hj.key.symm
  constructor
  · intro hheir
    obtain ⟨hstage, -, hget⟩ := WriteBack.heir?_eq_some hheir
    refine ⟨Bool.eq_true_of_not_eq_false fun hlive => ?_, ?_⟩
    · obtain ⟨expiresAt, data, heq⟩ := hj.live_iff.1 hlive
      exact hstage expiresAt data heq
    · rwa [h.get?, hkey] at hget
  · rintro ⟨hdead, hget⟩
    have hlive := hw.live job.key id hget
    have hne : id ≠ job.sketch := by
      rintro rfl
      rw [hdead] at hlive
      cases hlive
    have hstage : ∀ expiresAt data, job.stage ≠ .update expiresAt data := by
      intro expiresAt data heq
      rw [hj.live_iff.2 ⟨expiresAt, data, heq⟩] at hdead
      cases hdead
    rw [WriteBack.heir?_of_ne_update hstage, Registry.successor_eq_some, hkey, h.get?,
      h.view Sketch.deleted (fun _ => rfl) id]
    exact ⟨hget, hne, hlive⟩

theorem Tended.concerned_job (h : Tended w s) (hdrain : s.container.drain = some (drain, some job)) :
    w.Concerned job.sketch :=
  h.concerned job.sketch ((waits_job hdrain).2 (.inr (.inr rfl)))

theorem Tended.concerned_heir (hw : w.Drainable) (h : Tended w s)
    (hdrain : s.container.drain = some (drain, some job)) (hheir : s.container.heir? job = some id) :
    w.Concerned id := by
  have hj := h.job job (by rw [job?, hdrain]; rfl)
  obtain ⟨-, hget⟩ := (h.heir?_eq_some hw hj).1 hheir
  rw [hj.key] at hget
  exact (h.concerned_job hdrain).current hw hget

theorem Tended.success_spec (hw : w.Drainable) (h : Tended w s)
    (hdrain : s.container.drain = some (drain, some job)) :
    s.container.Success job (s.container.succeeded job) :=
  WriteBack.success_succeeded (h.lt_next hw (h.concerned_job hdrain))
    (h.job job (by rw [job?, hdrain]; rfl)).pending
    fun _ hid => h.lt_next hw (h.concerned_heir hw hdrain hid)

theorem Tended.waits_success (hw : w.Drainable) (h : Tended w s)
    (hdrain : s.container.drain = some (drain, some job))
    (writeBack : s'.container.toWriteBack = s.container.succeeded job)
    (next : s'.container.drain = some (drain, none)) (id : SketchId) :
    s'.Waits id ↔ id ∈ s.container.queued ∨
      s.container.heir? job = some id ∧ (s.container.sketch id).pending = 0 ∨ id ∈ drain.batch := by
  rw [waits_idle next, WriteBack.mem_queued, WriteBack.mem_queued, writeBack]
  simp only [(h.success_spec hw hdrain).queues, exists_or, exists_and_left, exists_eq, and_true,
    or_assoc]

/-- After a successful write the store is right about its key, or there is an heir. -/
theorem Faithful.recorded (hw : w.Drainable) (h : Faithful w s job) (hjob : w.Concerned job.sketch)
    (records : s'.backend.get? = Backend.after job.request s.backend.get?) :
    w.Recorded s'.backend job.key ∨
      ∃ current, (w.sketch job.sketch).deleted = true ∧ w.get? job.key = some current := by
  have hrecord := h.records records job.key
  rw [if_pos rfl] at hrecord
  cases hdeleted : (w.sketch job.sketch).deleted with
  | false =>
    rw [hdeleted, if_neg Bool.false_ne_true] at hrecord
    have hget := hw.get? hjob hdeleted
    rw [← h.key] at hget
    have hvalid := (hw.made job.key job.sketch hget).2.2.1
    exact .inl ((WriteBack.recorded_some hget).2 ⟨_, hrecord, rfl, _, hvalid.decode_toBytes, rfl⟩)
  | true =>
    rw [hdeleted, if_pos rfl] at hrecord
    cases hget : w.get? job.key with
    | none => exact .inl ((WriteBack.recorded_none hget).2 hrecord)
    | some current => exact .inr ⟨current, rfl, rfl⟩

/-- A successful write leaves its sketch clean, and its key to the store or to the heir. -/
theorem Tended.success (hw : w.Drainable) (h : Tended w s)
    (hdrain : s.container.drain = some (drain, some job))
    (writeBack : s'.container.toWriteBack = s.container.succeeded job)
    (next : s'.container.drain = some (drain, none))
    (records : s'.backend.get? = Backend.after job.request s.backend.get?) : Tended w s' := by
  have hj := h.job job (by rw [job?, hdrain]; rfl)
  have hconcerned := h.concerned_job hdrain
  have hheirs (id : SketchId) : s.container.heir? job = some id ↔ _ := h.heir?_eq_some hw hj
  have hheir {id : SketchId} (hid : s.container.heir? job = some id) : w.Concerned id :=
    h.concerned_heir hw hdrain hid
  have success : s.container.Success job s'.container.toWriteBack :=
    writeBack ▸ h.success_spec hw hdrain
  have hwaits := h.waits_success hw hdrain writeBack next
  have hstay {id : SketchId} (hid : s.Waits id) (hne : id ≠ job.sketch) : s'.Waits id := by
    rw [hwaits]
    rcases (waits_job hdrain).1 hid with hqueued | hbatch | rfl
    · exact .inl hqueued
    · exact .inr (.inr hbatch)
    · exact absurd rfl hne
  have hwaiting {id : SketchId} (hid : s.container.heir? job = some id) : s'.Waits id := by
    obtain ⟨-, hne, -⟩ := WriteBack.heir?_eq_some hid
    by_cases hclean : (s.container.sketch id).pending = 0
    · exact (hwaits id).2 (.inr (.inl ⟨hid, hclean⟩))
    · exact hstay (h.dirty id (hheir hid) hclean) hne
  refine ⟨?_, ?_, ?_, ?_, ?_, ?_⟩
  · rw [writeBack]
    exact h.kept.trans (WriteBack.kept_succeeded _ job)
  · rw [writeBack, WriteBack.shards_succeeded, h.shards]
  · intro id hid
    rcases (hwaits id).1 hid with hqueued | ⟨hid, -⟩ | hbatch
    · exact h.concerned id (.inl hqueued)
    · exact hheir hid
    · exact h.concerned id ((waits_job hdrain).2 (.inr (.inl hbatch)))
  · intro id hid hne
    by_cases hself : id = job.sketch
    · rw [hself] at hne
      exact absurd success.clean hne
    · by_cases hother : s.container.heir? job = some id
      · exact hwaiting hother
      · rw [success.other id hself hother] at hne
        exact hstay (h.dirty id hid hne) hself
  · intro id hid
    by_cases hkey : (w.sketch id).key = job.key
    · rw [hkey]
      rcases hj.recorded hw hconcerned records with hrecorded | ⟨current, hdeleted, hget⟩
      · exact .inr hrecorded
      · exact .inl ⟨current, hwaiting ((hheirs current).2 ⟨hdeleted, hget⟩), hw.key_eq hget⟩
    · have hrecords := hj.records records (w.sketch id).key
      rw [if_neg hkey] at hrecords
      rcases h.recorded id hid with ⟨other, hother, hsame⟩ | hrecorded
      · refine .inl ⟨other, hstay hother ?_, hsame⟩
        rintro rfl
        exact hkey (hsame.symm.trans hj.key.symm)
      · refine .inr ?_
        unfold WriteBack.Recorded at hrecorded ⊢
        rwa [hrecords]
  · intro job' hjob'
    rw [job?, next] at hjob'
    cases hjob'

/-- No step of the drain neglects anything. -/
theorem Tended.step (hw : w.Drainable) (h : Tended w s) (hopen : s.backend.stopped = false) :
    Tended w (s.step told) := by
  match hdrain : s.container.drain with
  | none => rwa [step_of_returned hdrain]
  | some (drain, none) =>
    rw [step_of_idle hdrain]
    exact h.advance hdrain
  | some (drain, some job) =>
    rw [step_of_job hdrain]
    cases (answered_spec drain job hopen (told s.calls)).2 with
    | again writeBack next records => exact h.again hdrain writeBack next records
    | flush stage writeBack next records => exact h.flush hdrain stage writeBack next records
    | success writeBack next records => exact h.success hw hdrain writeBack next records
    | failure v left writeBack next records => exact h.failure hdrain left writeBack next records

end Drainage

end DistinctCount
