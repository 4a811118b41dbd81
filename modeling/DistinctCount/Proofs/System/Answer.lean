import DistinctCount.Proofs.System.Flow

namespace DistinctCount

open WriteBack

namespace Container

variable {c c' : Container} {id : SketchId} {k n : Nat} {job : Job} {answer : Backend.Answer}
  {w' : WriteBack} {progress : Progress} {notices : List Notice}

/-- What remains of an answer after the changes that come with it. -/
inductive Ending (job : Job) (w : WriteBack) : Backend.Answer → WriteBack → Option Job → Prop
  | onward {answer : Backend.Answer} (job' : Job) (sketch : job'.sketch = job.sketch)
      (sound : ∀ s, job.Sound s → job'.Sound s) : Ending job w answer w (some job')
  | flushed : Ending job w (.ok ()) (w.flushed job) none
  | requeued (e : BackendError) (error : e ≠ .stopped) :
      Ending job w (.error e) (w.enqueue job.sketch) none
  | dropped : Ending job w (.error .stopped) w none

theorem changes_dismissed (c : Container) (id : SketchId) :
    Changes 0 c { c with toWriteBack := c.toWriteBack.dismissed id } := by
  have h : Changes 0 c (c.dismiss id []) := (Change.dismiss [] nofun).changes
  simp only [dismiss, List.map_nil, List.append_nil] at h
  exact h

theorem changes_renewed (hc : c.Coherent n) (hn : n < 2 ^ 62) (id : SketchId) :
    ∃ k ≤ 1, Changes k c { c with toWriteBack := c.toWriteBack.renewed id } := by
  unfold renewed
  cases hs : c.toRegistry.successor id with
  | none => exact ⟨0, Nat.zero_le _, .refl c⟩
  | some current =>
    obtain ⟨hget, -, -⟩ := Registry.successor_eq_some.1 hs
    obtain ⟨made, live, hkey⟩ := hc.get?_eq_some.1 hget
    have hrev := Sketch.revision_renew (hc.room hn current) (c.sketch current).expiresAt
    have hchange : Change 1 c (c.alter (·.mutate current Sketch.markDirty)) :=
      .revise made hrev rfl rfl rfl
    refine ⟨1, Nat.le_refl _, ?_⟩
    dsimp only
    rw [schedule_eq_mutate made (hc.measured current).1 (hc.room hn current)]
    exact hchange.changes

theorem Flow.in_hand (hf : c.Flow) (hand : c.jobs = [job]) :
    c.jobs.map (·.sketch) = [job.sketch] ∧ job.Sound (c.sketch job.sketch) ∧
      job.sketch < c.sketches.next ∧ (c.sketch job.sketch).pending ≠ 0 := by
  have hmap : c.jobs.map (·.sketch) = [job.sketch] := by
    rw [hand]
    rfl
  have hmem : job.sketch ∈ c.pipeline := by
    rw [pipeline, hmap]
    exact List.mem_append_right _ (List.mem_singleton.2 rfl)
  refine ⟨hmap, hf.sound job ?_, hf.lt_next hmem, hf.dirty _ hmem⟩
  rw [hand]
  exact List.mem_singleton.2 rfl

theorem ending_of_outcome (hc : c.Coherent n) (hn : n < 2 ^ 62)
    (ho : Outcome c.toWriteBack job answer w' progress notices) :
    ∃ k ≤ 1, ∃ w, Changes k c { c with toWriteBack := w } ∧
      Ending job w answer w' progress.job? := by
  cases ho with
  | pause e length error =>
    exact ⟨0, Nat.zero_le _, _, .refl c, .onward _ rfl fun _ hj => hj.again⟩
  | flush stage waiting =>
    refine ⟨0, Nat.zero_le _, _, changes_dismissed c job.sketch, .onward _ rfl ?_⟩
    intro s hj
    have hdeleted := hj.deleted (by rw [stage]; nofun)
    exact ⟨hj.key, hj.pos, hj.le, nofun, fun _ => hdeleted⟩
  | updated => exact ⟨0, Nat.zero_le _, _, .refl c, .flushed⟩
  | deleted =>
    obtain ⟨k, hk, hchanges⟩ := changes_renewed hc hn job.sketch
    exact ⟨k, hk, _, hchanges, .flushed⟩
  | confirmed =>
    obtain ⟨k, hk, hchanges⟩ := changes_renewed hc hn job.sketch
    exact ⟨k, hk, _, hchanges, .flushed⟩
  | postponed e error told w left =>
    refine ⟨0, Nat.zero_le _, w, ?_, .requeued e error⟩
    rcases left with ⟨rfl, -⟩ | ⟨rfl, -⟩
    · exact .refl c
    · exact changes_dismissed c job.sketch
  | abandoned notices denied =>
    exact ⟨0, Nat.zero_le _, _, changes_dismissed c job.sketch, .dropped⟩

theorem Ending.sketch {w : WriteBack} {next : Option Job} (he : Ending job w answer w' next)
    (other : SketchId) :
    w'.sketch other = { w.sketch other with pending := (w'.sketch other).pending } ∧
      w'.sketches.next = w.sketches.next ∧ w'.shards = w.shards ∧
      (other ≠ job.sketch → w'.sketch other = w.sketch other) := by
  cases he with
  | flushed =>
    rw [toRegistry_flushed, Registry.next_modify, Registry.shards_modify, Registry.sketch_modify]
    refine ⟨?_, rfl, rfl, fun hne => if_neg fun h => hne h.1⟩
    split
    · rename_i h
      rw [h.1]
      rfl
    · rfl
  | _ => exact ⟨rfl, rfl, rfl, fun _ => rfl⟩

theorem Ending.sketch_of_error {w : WriteBack} {next : Option Job} {e : BackendError}
    (he : Ending job w (.error e) w' next) (other : SketchId) : w'.sketch other = w.sketch other := by
  cases he <;> rfl

/-- A sketch is clean after its write if the write was successful and stood for all of it. -/
theorem Ending.clean {w : WriteBack} {next : Option Job} (he : Ending job w answer w' next)
    (made : job.sketch < w.sketches.next) (hdirty : (w.sketch job.sketch).pending ≠ 0)
    (hclean : (w'.sketch job.sketch).pending = 0) :
    answer = .ok () ∧ (w.sketch job.sketch).pending = job.pending := by
  cases he with
  | flushed =>
    have hself : (w.flushed job).sketch job.sketch =
        (w.sketch job.sketch).markFlushed job.pending := by
      rw [toRegistry_flushed]
      exact Registry.sketch_modify_self made
    have hdiff : (w.sketch job.sketch).pending - job.pending = 0 :=
      (congrArg Sketch.pending hself).symm.trans hclean
    exact ⟨rfl, Int64.sub_eq_iff_eq_add.1 hdiff |>.trans (Int64.zero_add _)⟩
  | _ => exact absurd hclean hdirty

theorem Ending.coherent {w : WriteBack} {next : Option Job}
    (he : Ending job w answer c'.toWriteBack next)
    (hc : Coherent n { c with toWriteBack := w }) (hj : job.Sound (w.sketch job.sketch))
    (made : job.sketch < w.sketches.next) (hx : c'.expiry = c.expiry) : c'.Coherent n := by
  have hnonneg := (hc.measured job.sketch).1
  have hdirty : (w.sketch job.sketch).pending ≠ 0 := by
    intro hz
    have hle := hj.le
    have hpos := hj.pos
    rw [hz, Int64.toInt_zero] at hle
    omega
  generalize hw' : c'.toWriteBack = w' at he
  cases he with
  | onward job' => exact hc.release (release_dropped hnonneg) hw' hx
  | flushed => exact hc.release (release_flushed made hj.le hj.pos) hw' hx
  | requeued => exact hc.release (release_enqueue hnonneg hdirty) hw' hx
  | dropped => exact hc.release (release_dropped hnonneg) hw' hx

theorem Ending.flow {w : WriteBack} {next : Option Job}
    (he : Ending job w answer c'.toWriteBack next)
    (hc : Coherent n { c with toWriteBack := w }) (hf : Flow { c with toWriteBack := w })
    (hand : c.jobs = [job]) (hjobs : c'.jobs = next.toList) (hstowed : c'.stowed = c.stowed)
    (hsavers : c'.savers = c.savers) : c'.Flow := by
  have hnonneg := (hc.measured job.sketch).1
  obtain ⟨hhand, hj, made, hdirty⟩ := hf.in_hand hand
  generalize hw' : c'.toWriteBack = w' at he
  cases he with
  | onward job' sketch sound =>
    have hcount (id : SketchId) : c'.pipeline.count id =
        ({ c with toWriteBack := w } : Container).pipeline.count id := by
      rw [count_pipeline, count_pipeline, hhand, hjobs, hstowed, hw', Option.toList_some,
        List.map_singleton, sketch]
      rfl
    have hin (id : SketchId) : id ∈ c'.pipeline ↔
        id ∈ ({ c with toWriteBack := w } : Container).pipeline := by
      rw [← List.count_pos_iff, ← List.count_pos_iff, hcount]
    refine ⟨fun id => hcount id ▸ hf.once id, ?_, ?_, ?_⟩
    · intro id hid
      rw [hw']
      exact hf.dirty id ((hin id).1 hid)
    · intro p id hid
      rw [Holds, hw', hsavers] at hid
      rw [hw']
      exact hf.home p id hid
    · intro job'' hj''
      rw [hjobs, Option.toList_some, List.mem_singleton] at hj''
      rw [hj'', hw', sketch]
      exact sound _ hj
  | flushed => exact hf.release hhand (release_flushed made hj.le hj.pos) hw' hjobs hstowed hsavers
  | requeued => exact hf.release hhand (release_enqueue hnonneg hdirty) hw' hjobs hstowed hsavers
  | dropped => exact hf.release hhand (release_dropped hnonneg) hw' hjobs hstowed hsavers

/-- Only a backend that is stopped makes a dirty sketch leave the pipeline. -/
theorem Ending.intact {w : WriteBack} {next : Option Job}
    (he : Ending job w answer c'.toWriteBack next) (hanswer : answer ≠ .error .stopped)
    (hc : Coherent n { c with toWriteBack := w }) (hf : Flow { c with toWriteBack := w })
    (hi : Intact { c with toWriteBack := w })
    (hand : c.jobs = [job]) (hjobs : c'.jobs = next.toList) (hstowed : c'.stowed = c.stowed) :
    c'.Intact := by
  have hnonneg := (hc.measured job.sketch).1
  obtain ⟨hhand, hj, made, hdirty⟩ := hf.in_hand hand
  generalize hw' : c'.toWriteBack = w' at he
  cases he with
  | onward job' sketch sound =>
    intro id hd
    rw [hw'] at hd
    have hcount : c'.pipeline.count id =
        ({ c with toWriteBack := w } : Container).pipeline.count id := by
      rw [count_pipeline, count_pipeline, hhand, hjobs, hstowed, hw', Option.toList_some,
        List.map_singleton, sketch]
      rfl
    rw [← List.count_pos_iff, hcount]
    exact List.count_pos_iff.2 (hi id hd)
  | flushed =>
    apply hi.release hhand (release_flushed made hj.le hj.pos) hw' hjobs hstowed
    intro hall
    have hself : (w.flushed job).sketch job.sketch =
        (w.sketch job.sketch).markFlushed job.pending := by
      rw [toRegistry_flushed]
      exact Registry.sketch_modify_self made
    rw [hself, Sketch.markFlushed, not_not.1 hall]
    exact Int64.sub_self _
  | requeued =>
    exact hi.release hhand (release_enqueue hnonneg hdirty) hw' hjobs hstowed fun h => absurd trivial h
  | dropped => exact absurd rfl hanswer

end Container

end DistinctCount
