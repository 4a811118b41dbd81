import DistinctCount.Proofs.System.Step
import DistinctCount.Proofs.WriteBack.Proceed

/-!
The way of a sketch from its first mutation to the end of its write. A sketch is in the pipeline once
at most, only while it is dirty, and always while it is dirty unless the backend has been stopped.
-/

namespace DistinctCount

/--
A write knows how many mutations it stands for, and its data is that of the sketch if there are no more.
-/
structure Job.Sound (job : Job) (s : Sketch) : Prop where
  key : job.key = s.key
  pos : 0 < job.pending.toInt
  le : job.pending.toInt ≤ s.pending.toInt
  current : ∀ expiresAt data, job.stage = .update expiresAt data → s.pending = job.pending →
    s.deleted = false ∧ s.expiresAt = expiresAt ∧ s.toBytes = data
  deleted : (∀ expiresAt data, job.stage ≠ .update expiresAt data) → s.deleted = true

theorem Job.Sound.revise {job : Job} {s s' : Sketch} {k : Nat} (hj : job.Sound s)
    (hs : s.Revision k s') : job.Sound s' where
  key := hj.key.trans hs.key.symm
  pos := hj.pos
  le := Int.le_trans hj.le hs.pending
  current := by
    intro expiresAt data hstage he
    have hle := hj.le
    have hmono := hs.pending
    have hsame : s'.pending.toInt = s.pending.toInt := by
      rw [he] at hmono ⊢
      omega
    have hold : s.pending = job.pending := by
      rw [← he]
      exact Int64.toInt_inj.1 hsame.symm
    obtain ⟨hd, hx, hb⟩ := hj.current expiresAt data hstage hold
    obtain ⟨hd', hx', hs', hn'⟩ := hs.clean hsame
    refine ⟨hd'.trans hd, hx'.trans hx, ?_⟩
    rw [← hb, Sketch.toBytes, Sketch.toBytes, hs', hn']
  deleted := fun hstage => hs.deleted (hj.deleted hstage)

theorem Job.Sound.again {job : Job} {s : Sketch} (hj : job.Sound s) {attempt : UInt32} :
    Job.Sound { job with attempt } s :=
  ⟨hj.key, hj.pos, hj.le, hj.current, hj.deleted⟩

namespace Container

variable {c c' : Container} {id : SketchId} {k n : Nat} {job : Job}

/-- Every sketch is in one place at most, which is a place for it, and is there for a reason. -/
structure Flow (c : Container) : Prop where
  once : ∀ id, c.pipeline.count id ≤ 1
  dirty : ∀ id ∈ c.pipeline, (c.sketch id).pending ≠ 0
  home : ∀ p id, c.Holds p id → id < c.sketches.next ∧ partitionOf (c.sketch id).shard = p
  sound : ∀ job ∈ c.jobs, job.Sound (c.sketch job.sketch)

def Intact (c : Container) : Prop :=
  ∀ id, (c.sketch id).pending ≠ 0 → id ∈ c.pipeline

theorem lt_next_of_dirty (h : (c.sketch id).pending ≠ 0) : id < c.sketches.next := by
  by_contra hid
  rw [Registry.sketch_of_le (Nat.le_of_not_lt hid)] at h
  exact h rfl

theorem lt_next_of_dead (h : (c.sketch id).deleted = true) : id < c.sketches.next := by
  by_contra hid
  rw [Registry.sketch_of_le (Nat.le_of_not_lt hid)] at h
  cases h

theorem count_pipeline (c : Container) (id : SketchId) :
    c.pipeline.count id = c.queued.count id + c.stowed.count id + (c.jobs.map (·.sketch)).count id := by
  rw [pipeline, List.count_append, backlog, List.count_append]

theorem Holds.mem_pipeline {p : Partition} (h : c.Holds p id) : id ∈ c.pipeline := by
  apply List.mem_append_left _
  rcases h with h | h
  · exact List.mem_append_left _ (WriteBack.mem_queued.2 ⟨p, h⟩)
  · exact List.mem_append_right _ (List.mem_append_left _ (List.mem_append_left _ (mem_held.2 ⟨p, h⟩)))

theorem Flow.lt_next (hf : c.Flow) (hid : id ∈ c.pipeline) : id < c.sketches.next :=
  lt_next_of_dirty (hf.dirty id hid)

theorem Change.count_pipeline (h : Change k c c') (id : SketchId) :
    c'.pipeline.count id = c.pipeline.count id +
      if (c.sketch id).pending = 0 ∧ (c'.sketch id).pending ≠ 0 then 1 else 0 := by
  obtain ⟨-, -, -, hsavers, hchannel, hjob, hdrain⟩ := h.frame
  have hstowed : c'.stowed = c.stowed := by
    rw [stowed, stowed, held, held, hsavers, hchannel, hdrain]
  have hjobs : c'.jobs = c.jobs := by
    rw [jobs, jobs, hjob, hdrain]
  rw [Container.count_pipeline, Container.count_pipeline, h.count, hstowed, hjobs]
  omega

theorem Change.mem_pipeline (h : Change k c c') : id ∈ c'.pipeline ↔
    id ∈ c.pipeline ∨ (c.sketch id).pending = 0 ∧ (c'.sketch id).pending ≠ 0 := by
  rw [← List.count_pos_iff, ← List.count_pos_iff, h.count_pipeline]
  split
  · rename_i hd
    simp [hd]
  · rename_i hd
    simp [hd]

theorem Change.dirty (h : Change k c c') (hc : c.Coherent n) (hd : (c.sketch id).pending ≠ 0) :
    (c'.sketch id).pending ≠ 0 := by
  have hmono := (h.revision (lt_next_of_dirty hd)).pending
  have hpos := (hc.measured id).1
  intro hz
  rw [hz, Int64.toInt_zero] at hmono
  exact hd (Int64.toInt_inj.1 (Int.le_antisymm hmono hpos))

theorem Change.flow (h : Change k c c') (hc : c.Coherent n) (hf : c.Flow) : c'.Flow where
  once := by
    intro id
    rw [h.count_pipeline]
    split
    · rename_i hd
      have hnot : c.pipeline.count id = 0 :=
        List.count_eq_zero.2 fun hid => hf.dirty id hid hd.1
      omega
    · exact hf.once id
  dirty := by
    intro id hid
    rcases h.mem_pipeline.1 hid with hid | hid
    · exact h.dirty hc (hf.dirty id hid)
    · exact hid.2
  home := by
    intro p id hid
    have hsavers := h.frame.2.2.2.1
    have hold : id < c.sketches.next ∧ partitionOf (c.sketch id).shard = p := by
      rcases hid with hq | hs
      · rcases h.home hq with hq | ⟨hlt, hp⟩
        · exact hf.home p id (.inl hq)
        · exact ⟨hlt, hp.symm⟩
      · rw [hsavers] at hs
        exact hf.home p id (.inr hs)
    rw [(h.revision hold.1).shard]
    exact ⟨Nat.lt_of_lt_of_le hold.1 h.next_le, hold.2⟩
  sound := by
    intro job hj
    obtain ⟨-, -, -, -, -, hjob, hdrain⟩ := h.frame
    rw [jobs, hjob, hdrain] at hj
    have hold := hf.sound job hj
    have hmem : job.sketch ∈ c.pipeline :=
      List.mem_append_right _ (List.mem_map_of_mem hj)
    exact hold.revise (h.revision (hf.lt_next hmem))

theorem Change.intact (h : Change k c c') (hi : c.Intact) : c'.Intact := by
  intro id hd
  rw [h.mem_pipeline]
  by_cases hold : (c.sketch id).pending = 0
  · exact .inr ⟨hold, hd⟩
  · exact .inl (hi id hold)

theorem Changes.flow (h : Changes k c c') (hc : c.Coherent n) (hf : c.Flow) : c'.Flow := by
  induction h with
  | refl => exact hf
  | step first last ih => exact last.flow (first.coherent hc) (ih hc hf)

theorem Changes.intact (h : Changes k c c') (hi : c.Intact) : c'.Intact := by
  induction h with
  | refl => exact hi
  | step _ last ih => exact last.intact (ih hi)

theorem Flow.carry (hf : c.Flow) (still : Still c c') (hjobs : c'.jobs = c.jobs)
    (hbacklog : ∀ id, c'.backlog.count id = c.backlog.count id)
    (hholds : ∀ p id, c'.Holds p id → c.Holds p id) : c'.Flow := by
  have hcount (id : SketchId) : c'.pipeline.count id = c.pipeline.count id := by
    rw [pipeline, pipeline, List.count_append, List.count_append, hbacklog, hjobs]
  have hmem (id : SketchId) : id ∈ c'.pipeline ↔ id ∈ c.pipeline := by
    rw [← List.count_pos_iff, ← List.count_pos_iff, hcount]
  refine ⟨fun id => hcount id ▸ hf.once id, ?_, ?_, ?_⟩
  · intro id hid
    rw [still.registry]
    exact hf.dirty id ((hmem id).1 hid)
  · intro p id hid
    rw [still.registry]
    exact hf.home p id (hholds p id hid)
  · intro job hj
    rw [still.registry]
    exact hf.sound job (hjobs ▸ hj)

theorem begin_sound (c : Container) (hc : c.Coherent n) (hd : (c.sketch id).pending ≠ 0) :
    (c.begin id).Sound (c.sketch id) where
  key := rfl
  pos := by
    have h := (hc.measured id).1
    have hne : (c.sketch id).pending.toInt ≠ 0 := fun h0 => hd (Int64.toInt_inj.1 h0)
    change 0 < (c.sketch id).pending.toInt
    change 0 ≤ (c.sketch id).pending.toInt at h
    omega
  le := Int.le_refl _
  current := by
    intro expiresAt data hstage _
    change (if (c.sketch id).deleted then Job.Stage.delete
      else .update (c.sketch id).expiresAt (c.sketch id).toBytes) = _ at hstage
    split at hstage
    · cases hstage
    · rename_i hlive
      obtain ⟨rfl, rfl⟩ := Job.Stage.update.inj hstage
      exact ⟨Bool.eq_false_iff.2 hlive, rfl, rfl⟩
  deleted := by
    intro hstage
    by_contra hlive
    exact hstage _ _ (if_neg hlive)

theorem count_pipeline_start (idle : c.jobs = []) (hjobs : c'.jobs = [c.begin id])
    (hbacklog : ∀ other, c.backlog.count other =
      c'.backlog.count other + if other = id then 1 else 0) (other : SketchId) :
    c'.pipeline.count other = c.pipeline.count other := by
  rw [pipeline, pipeline, List.count_append, List.count_append, hbacklog, hjobs, idle,
    List.map_singleton, List.count_singleton]
  simp only [List.map_nil, List.count_nil, beq_iff_eq, eq_comm (a := other)]
  rfl

theorem Flow.start (hf : c.Flow) (hc : c.Coherent n) (still : Still c c') (idle : c.jobs = [])
    (hjobs : c'.jobs = [c.begin id])
    (hbacklog : ∀ other, c.backlog.count other =
      c'.backlog.count other + if other = id then 1 else 0)
    (hholds : ∀ p id, c'.Holds p id → c.Holds p id) : c'.Flow := by
  have hcount := count_pipeline_start idle hjobs hbacklog
  have hmem (other : SketchId) : other ∈ c'.pipeline ↔ other ∈ c.pipeline := by
    rw [← List.count_pos_iff, ← List.count_pos_iff, hcount]
  have hid : id ∈ c'.pipeline := by
    apply List.mem_append_right _
    rw [hjobs]
    exact List.mem_singleton.2 rfl
  refine ⟨fun id => hcount id ▸ hf.once id, ?_, ?_, ?_⟩
  · intro other ho
    rw [still.registry]
    exact hf.dirty other ((hmem other).1 ho)
  · intro p other ho
    rw [still.registry]
    exact hf.home p other (hholds p other ho)
  · intro job hj
    rw [hjobs, List.mem_singleton] at hj
    rw [hj, still.registry]
    exact begin_sound c hc (hf.dirty id ((hmem id).1 hid))

/-! The end of a write. -/

section

variable {w' : WriteBack} {again : Prop} [Decidable again]

theorem release_sketch (hr : c.toWriteBack.Release id again w') (other : SketchId) :
    w'.sketch other =
      { c.sketch other with pending := (w'.sketch other).pending } := by
  by_cases ho : other = id
  · rw [ho]
    exact hr.sketch
  · rw [hr.sketch_of_ne other ho]

theorem Coherent.release (hc : c.Coherent n) (hr : c.toWriteBack.Release id again w')
    (hw : c'.toWriteBack = w') (hx : c'.expiry = c.expiry) : c'.Coherent n := by
  subst hw
  have hs := release_sketch hr
  have hkey (other : SketchId) : (c'.sketch other).key = (c.sketch other).key :=
    (congrArg Sketch.key (hs other)).trans rfl
  have hshard (other : SketchId) : (c'.sketch other).shard = (c.sketch other).shard :=
    (congrArg Sketch.shard (hs other)).trans rfl
  have hdeleted (other : SketchId) : (c'.sketch other).deleted = (c.sketch other).deleted :=
    (congrArg Sketch.deleted (hs other)).trans rfl
  have hbucket (other : SketchId) : (c'.sketch other).bucket = (c.sketch other).bucket :=
    (congrArg Sketch.bucket (hs other)).trans rfl
  refine ⟨hc.sound.congr hr.shards hr.next hkey hshard hdeleted, ?_, ?_, ?_⟩
  · intro other
    have hold := hc.measured other
    by_cases ho : other = id
    · subst ho
      have hmerit : (c'.sketch other).merit = (c.sketch other).merit := by
        rw [hs other]
        rfl
      have hnonneg := hr.nonneg
      have hle := hr.le
      change 0 ≤ (c'.sketch other).pending.toInt ∧ _ ≤ ((c'.sketch other).merit : Int) + n
      rw [hmerit]
      exact ⟨hnonneg, Int.le_trans hle hold.2⟩
    · rw [hr.sketch_of_ne other ho]
      exact hold
  · intro other ho
    rw [hs other]
    exact ⟨(hc.valid other (hr.next ▸ ho)).bounded, (hc.valid other (hr.next ▸ ho)).counted⟩
  · refine hc.indexed.congr ?_ (Nat.le_of_eq hr.next.symm) ?_
    · intro bucket key entry he
      rwa [hx] at he
    · intro bucket key entry _ _
      exact ⟨hkey _, hshard _, hdeleted _, hbucket _⟩

theorem count_pipeline_release (hand : c.jobs.map (·.sketch) = [id])
    (hr : c.toWriteBack.Release id again w') (hw : c'.toWriteBack = w') (hjobs : c'.jobs = [])
    (hstowed : c'.stowed = c.stowed) (other : SketchId) :
    c'.pipeline.count other + (if other = id then 1 else 0) =
      c.pipeline.count other + if other = id ∧ again then 1 else 0 := by
  subst hw
  rw [count_pipeline, count_pipeline, hjobs, hand, hstowed, hr.count, List.map_nil,
    List.count_nil, List.count_singleton]
  simp only [beq_iff_eq, eq_comm (a := other)]
  omega

/-- A write ends: its sketch has left the pipeline, or is in its queue again. -/
theorem Flow.release (hf : c.Flow) (hand : c.jobs.map (·.sketch) = [id])
    (hr : c.toWriteBack.Release id again w') (hw : c'.toWriteBack = w') (hjobs : c'.jobs = [])
    (hstowed : c'.stowed = c.stowed) (hsavers : c'.savers = c.savers) : c'.Flow := by
  have hcount := count_pipeline_release hand hr hw hjobs hstowed
  subst hw
  have honce := hf.once
  refine ⟨?_, ?_, ?_, ?_⟩
  · intro other
    have h := hcount other
    have h' := honce other
    by_cases ho : other = id
    · have hone : (if other = id ∧ again then 1 else 0) ≤ 1 := by split <;> decide
      rw [if_pos ho] at h
      omega
    · rw [if_neg ho, if_neg fun hno => ho hno.1] at h
      omega
  · intro other ho
    by_cases hid : other = id
    · subst hid
      have h := hcount other
      have h' := honce other
      have hpos := List.count_pos_iff.2 ho
      apply hr.dirty
      by_contra hnot
      simp only [if_true, hnot, and_false, if_false] at h
      omega
    · have h := hcount other
      simp only [hid, false_and, if_false] at h
      rw [hr.sketch_of_ne other hid]
      refine hf.dirty other (List.count_pos_iff.1 ?_)
      have hpos := List.count_pos_iff.2 ho
      omega
  · intro p other ho
    have hshard : (c'.sketch other).shard = (c.sketch other).shard :=
      (congrArg Sketch.shard (release_sketch hr other)).trans rfl
    have hnext : c'.sketches.next = c.sketches.next := hr.next
    rw [hshard, hnext]
    rcases ho with hq | hs
    · rcases hr.home p other hq with hq | ⟨rfl, hp⟩
      · exact hf.home p other (.inl hq)
      · refine ⟨hf.lt_next ?_, hp.symm⟩
        rw [pipeline, hand]
        exact List.mem_append_right _ (List.mem_singleton.2 rfl)
    · rw [hsavers] at hs
      exact hf.home p other (.inr hs)
  · intro job hj
    rw [hjobs] at hj
    cases hj

theorem Intact.release (hi : c.Intact) (hand : c.jobs.map (·.sketch) = [id])
    (hr : c.toWriteBack.Release id again w') (hw : c'.toWriteBack = w') (hjobs : c'.jobs = [])
    (hstowed : c'.stowed = c.stowed)
    (hagain : ¬ again → (w'.sketch id).pending = 0) : c'.Intact := by
  have hcount := count_pipeline_release hand hr hw hjobs hstowed
  subst hw
  intro other hd
  have h := hcount other
  by_cases hid : other = id
  · subst hid
    have hyes : again := by
      by_contra hnot
      exact hd (hagain hnot)
    have hone := List.count_pos_iff.2 (hi other (by
      intro hz
      have hle := hr.le
      have hnonneg := hr.nonneg
      rw [hz, Int64.toInt_zero] at hle
      exact hd (Int64.toInt_inj.1 (Int.le_antisymm hle hnonneg))))
    simp only [if_true, hyes, and_self] at h
    exact List.count_pos_iff.1 (by omega)
  · rw [hr.sketch_of_ne other hid] at hd
    have hpos := List.count_pos_iff.2 (hi other hd)
    simp only [hid, false_and, if_false] at h
    exact List.count_pos_iff.1 (by omega)

end

end Container

end DistinctCount
