import DistinctCount.Proofs.System.Opening

namespace DistinctCount

open Container

variable {h h' : List Moment} {id : SketchId} {key : String} {n k : Nat}

/-- In a history, the backend has deleted the key of a deleted sketch while the sketch was written. -/
def Erased (h : List Moment) (id : SketchId) (key : String) : Prop :=
  ∃ m ∈ h, ∃ job, m.answered? = some (job, .ok ()) ∧ job.sketch = id ∧
    job.request = .delete key ∧ (m.before.container.sketch id).deleted = true

theorem Erased.append (he : Erased h id key) (h' : List Moment) : Erased (h ++ h') id key := by
  obtain ⟨m, hm, hrest⟩ := he
  exact ⟨m, List.mem_append_left _ hm, hrest⟩

namespace Container

variable {c c' : Container} {X : SketchId → String → Prop}

def Settles (X : SketchId → String → Prop) (c : Container) : Prop :=
  ∀ id < c.sketches.next, (c.sketch id).deleted = true → (c.sketch id).pending = 0 →
    X id (c.sketch id).key

theorem Change.settles (h : Change k c c') (hc : c.Coherent n) (hx : c.Settles X) :
    c'.Settles X := by
  intro id hid' hdeleted hclean
  by_cases hid : id < c.sketches.next
  · have hrev := h.revision hid
    have hold : (c.sketch id).pending = 0 := by
      by_contra hne
      exact h.dirty hc hne hclean
    obtain ⟨hd, -⟩ := hrev.clean (by rw [hclean, hold])
    rw [hrev.key]
    exact hx id hid (hd.symm.trans hdeleted) hold
  · obtain ⟨key, expiresAt, -, he⟩ := h.fresh (Nat.le_of_not_lt hid) hid'
    rw [he] at hdeleted
    cases hdeleted

theorem Changes.settles (h : Changes k c c') (hc : c.Coherent n) (hx : c.Settles X) :
    c'.Settles X := by
  induction h with
  | refl => exact hx
  | step first last ih => exact last.settles (first.coherent hc) (ih hc hx)

/-- A deleted sketch that a write leaves clean has been written by a delete, or by the flush after it. -/
theorem Settles.ending {job : Job} {answer : Backend.Answer} {next : Option Job} (hx : c.Settles X)
    (ending : Ending job c.toWriteBack answer c'.toWriteBack next)
    (hj : job.Sound (c.sketch job.sketch)) (made : job.sketch < c.sketches.next)
    (hdirty : (c.sketch job.sketch).pending ≠ 0)
    (hdelete : answer = .ok () → job.stage = .delete → X job.sketch job.key)
    (hflush : ∀ waiters, job.stage = .flush waiters → X job.sketch job.key) : c'.Settles X := by
  intro id hid hdeleted hclean
  have hsame := ending.sketch id
  by_cases hne : id = job.sketch
  · subst hne
    obtain ⟨rfl, hall⟩ := ending.clean made hdirty hclean
    rw [hsame.1] at hdeleted ⊢
    have hlast : X job.sketch job.key := by
      cases hstage : job.stage with
      | update expiresAt data =>
        obtain ⟨hlive, -⟩ := hj.current expiresAt data hstage hall
        exact absurd (hlive.symm.trans hdeleted) (by decide)
      | delete => exact hdelete rfl hstage
      | flush waiters => exact hflush waiters hstage
    exact hj.key ▸ hlast
  · rw [hsame.2.2.2 hne] at hdeleted hclean ⊢
    exact hx id (hsame.2.1 ▸ hid) hdeleted hclean

end Container

namespace System

structure Traced (h : List Moment) (s : System) : Prop where
  flushing : ∀ job ∈ s.container.jobs, ∀ waiters, job.stage = .flush waiters →
    Erased h job.sketch job.key
  gone : s.container.Settles (Erased h)

variable {s s' : System} {e : Event}

theorem Traced.next? (ht : s.Traced h) (hs : s.Sane n) (hn : n < 2 ^ 62)
    (he : s.next? e = some s') : s'.Traced (h ++ [⟨s, e⟩]) := by
  have hmove := move_next? hs.orderly hs.coherent hn he
  have hold : s.container.Settles (Erased (h ++ [⟨s, e⟩])) :=
    fun id hid hd hp => (ht.gone id hid hd hp).append _
  have hflushing : ∀ job ∈ s.container.jobs, ∀ waiters, job.stage = .flush waiters →
      Erased (h ++ [⟨s, e⟩]) job.sketch job.key :=
    fun job hj waiters hstage => (ht.flushing job hj waiters hstage).append _
  generalize hanswered : Moment.answered? ⟨s, e⟩ = answered at hmove
  cases hmove with
  | client changes =>
    obtain ⟨-, -, -, -, -, hjob, hdrain⟩ := changes.frame
    refine ⟨?_, changes.settles hs.coherent hold⟩
    rw [jobs, hjob, hdrain]
    exact hflushing
  | carry still jobs =>
    refine ⟨jobs ▸ hflushing, ?_⟩
    rw [Settles, still.registry]
    exact hold
  | start id still idle jobs =>
    refine ⟨?_, ?_⟩
    · intro job hj waiters hstage
      rw [jobs, List.mem_singleton] at hj
      rw [hj] at hstage
      exact absurd hstage (WriteBack.begin_ne_flush _ _ _)
    · rw [Settles, still.registry]
      exact hold
  | answer job answer hand writeBack jobs =>
    have hj : job ∈ s.container.jobs := by
      rw [hand]
      exact List.mem_singleton.2 rfl
    have hsound := hs.flow.sound job hj
    have outcome := WriteBack.outcome_proceed s.container.toWriteBack job answer
    have herased (hok : answer = .ok ()) (hstage : job.stage = .delete) :
        Erased (h ++ [⟨s, e⟩]) job.sketch job.key := by
      refine ⟨⟨s, e⟩, List.mem_append_right _ (List.mem_singleton.2 rfl), job, ?_, rfl, ?_,
        hsound.deleted (by simp [hstage])⟩
      · rw [hanswered, hok]
      · rw [Job.request, hstage]
    obtain ⟨k, hk, w, changes, ending⟩ := ending_of_outcome hs.coherent hn outcome
    obtain ⟨-, hj', made, hdirty⟩ := (changes.flow hs.coherent hs.flow).in_hand hand
    rw [← writeBack] at outcome ending
    refine ⟨?_, (changes.settles hs.coherent hold).ending ending hj' made hdirty herased
      (hflushing job hj)⟩
    intro job' hmem waiters hstage
    rw [jobs, Option.mem_toList] at hmem
    obtain ⟨hsketch, hkey, -, ⟨hsame, -⟩ | ⟨hok, hdelete, -⟩⟩ := outcome.onward hmem
    · rw [hsketch, hkey]
      exact hflushing job hj waiters (hsame.symm.trans hstage)
    · rw [hsketch, hkey]
      exact herased hok hdelete

theorem Traced.run {n : Nat} {s s' : System} (ht : s.Traced []) (hs : s.Sane n)
    (run : Run s h s') (hn : n + h.length ≤ 2 ^ 62) : s'.Traced h := by
  induction run with
  | refl => exact ht
  | step run next ih =>
    rw [List.length_append, List.length_singleton, ← Nat.add_assoc] at hn
    exact (ih (by omega)).next? (hs.run run (by omega)) (by omega) next

theorem traced_start {config : Config} {c : Container} (hr : Ready config c) :
    (System.start c).Traced [] where
  flushing := by
    intro job hj
    change job ∈ c.jobs at hj
    rw [hr.jobs] at hj
    cases hj
  gone := fun id hid hd hp => absurd hp (hr.dirty id hid hd)

end System

/--
A sketch is in the pipeline once at most, in the queue of its partition if in any, and its count of
mutations is no negative number. While the backend is not stopped, it is in the pipeline exactly while
it is dirty, and one that is deleted stays there until a delete of its key has been successful.
-/
theorem pipeline_at_most_once {config : Config} {now : UInt64} {b : Backend}
    {opening : List (Request × Backend.Answer)} {c : Container} {s : System}
    (opens : Opens (beginOpen config now b.scan) opening c) (run : Run (System.start c) h s)
    (short : h.length < 2 ^ 62) :
    s.container.pipeline.Nodup ∧
      (∀ (p : Partition) id, id ∈ (s.container.queues.get p).items →
        p = partitionOf (s.container.sketch id).shard) ∧
      (∀ id, 0 ≤ (s.container.sketch id).pending) ∧
      (Alive (calls h) → ∀ id, s.container.pipeline.count id =
        if 0 < (s.container.sketch id).pending then 1 else 0) ∧
      (Alive (calls h) → ∀ id < s.container.sketches.next, (s.container.sketch id).deleted = true →
        id ∈ s.container.pipeline ∨ Erased h id (s.container.sketch id).key) := by
  have hready := opens.ready_beginOpen
  have hsane := hready.sane.run run (by omega)
  have hpositive (id : SketchId) :
      0 < (s.container.sketch id).pending ↔ (s.container.sketch id).pending ≠ 0 := by
    have hnonneg := (hsane.coherent.measured id).1
    rw [Int64.lt_iff_toInt_lt, ne_eq, ← Int64.toInt_inj, Int64.toInt_zero]
    omega
  refine ⟨List.nodup_iff_count_le_one.2 hsane.flow.once, ?_, ?_, ?_, ?_⟩
  · intro p id hid
    exact (hsane.flow.home p id (.inl hid)).2.symm
  · intro id
    rw [Int64.le_iff_toInt_le]
    exact (hsane.coherent.measured id).1
  · intro alive id
    have hintact := hready.sane.intact_run hready.intact run (by omega) alive
    rw [if_congr (hpositive id) rfl rfl]
    split
    · rename_i hdirty
      have hone := hsane.flow.once id
      have hin := List.count_pos_iff.2 (hintact id hdirty)
      omega
    · rename_i hclean
      exact List.count_eq_zero.2 fun hin => hclean (hsane.flow.dirty id hin)
  · intro alive id hid hdeleted
    have hintact := hready.sane.intact_run hready.intact run (by omega) alive
    have htraced := (System.traced_start hready).run hready.sane run (by omega)
    by_cases hclean : (s.container.sketch id).pending = 0
    · exact .inr (htraced.gone id hid hdeleted hclean)
    · exact .inl (hintact id hclean)

def sampleEvents : List Event :=
  [.add 0 "k" (some [1]) 0, .saverTake (partitionOf 1), .saverSend (partitionOf 1), .writerTake,
    .delete "k", .writerAnswer (.ok ()), .saverTake (partitionOf 1), .saverSend (partitionOf 1),
    .writerTake, .writerAnswer (.ok ())]

theorem pipeline_at_most_once_sample :
    let h := ((System.start sampleContainer).played sampleEvents (by decide +kernel)).1
    let s := ((System.start sampleContainer).played sampleEvents (by decide +kernel)).2
    h.length < 2 ^ 62 ∧ s.container.pipeline.Nodup ∧ 0 < (s.container.sketch 0).pending ∧
      s.container.pipeline.count 0 = 1 := by
  intro h s
  have short : h.length < 2 ^ 62 := by decide +kernel
  have alive : Alive (calls h) := by decide +kernel
  have dirty : 0 < (s.container.sketch 0).pending := by decide +kernel
  obtain ⟨hnodup, -, -, hcount, -⟩ := pipeline_at_most_once opens_sampleContainer
    ((System.start sampleContainer).run_played sampleEvents (by decide +kernel)) short
  refine ⟨short, hnodup, dirty, ?_⟩
  rw [hcount alive 0, if_pos dirty]

end DistinctCount
