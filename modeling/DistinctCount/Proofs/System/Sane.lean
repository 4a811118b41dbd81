import DistinctCount.Proofs.System.Answer

namespace DistinctCount

open Container

namespace Container

variable {c c' : Container} {n : Nat} {answered : Option (Job × Backend.Answer)}

theorem Coherent.still (hc : c.Coherent n) (still : Still c c') : c'.Coherent n := by
  have hr := still.registry
  refine ⟨hr ▸ hc.sound, ?_, ?_, ?_⟩
  · intro id
    rw [hr]
    exact hc.measured id
  · rw [hr]
    exact hc.valid
  · refine hc.indexed.congr ?_ (Nat.le_of_eq (congrArg (·.sketches.next) hr).symm) ?_
    · intro bucket key entry he
      rwa [still.expiry] at he
    · intro bucket key entry _ _
      rw [hr]
      exact ⟨rfl, rfl, rfl, rfl⟩

/-- The invariants of a container survive every move. -/
theorem Move.sane (h : Move c answered c') (hc : c.Coherent n) (hn : n < 2 ^ 62) (hf : c.Flow) :
    c'.Coherent (n + 1) ∧ c'.Flow := by
  cases h with
  | client changes small =>
    exact ⟨(changes.coherent hc).mono (Nat.add_le_add_left small n), changes.flow hc hf⟩
  | carry still jobs backlog holds =>
    exact ⟨(hc.still still).mono (Nat.le_succ n), hf.carry still jobs backlog holds⟩
  | start id still idle jobs backlog holds =>
    exact ⟨(hc.still still).mono (Nat.le_succ n), hf.start hc still idle jobs backlog holds⟩
  | answer job answer hand writeBack jobs notices stowed savers persistent config expiry nextTicket =>
    obtain ⟨k, hk, w, changes, ending⟩ :=
      ending_of_outcome hc hn (WriteBack.outcome_proceed c.toWriteBack job answer)
    rw [← writeBack] at ending
    have hc' := changes.coherent hc
    have hf' := changes.flow hc hf
    obtain ⟨-, hj, made, -⟩ := hf'.in_hand hand
    exact ⟨(ending.coherent hc' hj made expiry).mono (Nat.add_le_add_left hk n),
      ending.flow hc' hf' hand jobs stowed savers⟩

theorem Move.intact (h : Move c answered c') (hc : c.Coherent n) (hn : n < 2 ^ 62) (hf : c.Flow)
    (hi : c.Intact) (alive : ∀ job, answered ≠ some (job, .error .stopped)) : c'.Intact := by
  cases h with
  | client changes => exact changes.intact hi
  | carry still jobs backlog =>
    intro id hd
    rw [still.registry] at hd
    have hcount : c'.pipeline.count id = c.pipeline.count id := by
      rw [pipeline, pipeline, List.count_append, List.count_append, backlog, jobs]
    rw [← List.count_pos_iff, hcount]
    exact List.count_pos_iff.2 (hi id hd)
  | start id still idle jobs backlog =>
    intro other hd
    rw [still.registry] at hd
    have hcount : c'.pipeline.count other = c.pipeline.count other :=
      count_pipeline_start idle jobs backlog other
    rw [← List.count_pos_iff, hcount]
    exact List.count_pos_iff.2 (hi other hd)
  | answer job answer hand writeBack jobs notices stowed =>
    obtain ⟨k, hk, w, changes, ending⟩ :=
      ending_of_outcome hc hn (WriteBack.outcome_proceed c.toWriteBack job answer)
    rw [← writeBack] at ending
    have hanswer : answer ≠ .error .stopped := by
      rintro rfl
      exact alive job rfl
    exact ending.intact hanswer (changes.coherent hc) (changes.flow hc hf) (changes.intact hi) hand
      jobs stowed

/-- A sketch keeps its key and its shard, and does not come to life again. -/
theorem Move.kept (h : Move c answered c') (hc : c.Coherent n) (hn : n < 2 ^ 62) {id : SketchId}
    (hid : id < c.sketches.next) :
    id < c'.sketches.next ∧ (c'.sketch id).key = (c.sketch id).key ∧
      (c'.sketch id).shard = (c.sketch id).shard ∧
      ((c.sketch id).deleted = true → (c'.sketch id).deleted = true) := by
  cases h with
  | client changes =>
    have hrev := changes.revision hid
    exact ⟨Nat.lt_of_lt_of_le hid changes.next_le, hrev.key, hrev.shard, hrev.deleted⟩
  | carry still =>
    rw [still.registry]
    exact ⟨hid, rfl, rfl, fun h => h⟩
  | start _ still =>
    rw [still.registry]
    exact ⟨hid, rfl, rfl, fun h => h⟩
  | answer job answer _ writeBack =>
    obtain ⟨k, hk, w, changes, ending⟩ :=
      ending_of_outcome hc hn (WriteBack.outcome_proceed c.toWriteBack job answer)
    obtain ⟨hsame, hnext, -⟩ := ending.sketch id
    have hrev : Sketch.Revision k (c.sketch id) (w.sketch id) := changes.revision hid
    rw [writeBack, hsame, hnext]
    exact ⟨Nat.lt_of_lt_of_le hid changes.next_le, hrev.key, hrev.shard, hrev.deleted⟩

theorem Move.slots_ne_empty (h : Move c answered c') (hc : c.Coherent n) (hn : n < 2 ^ 62)
    {id : SketchId} (hid : id < c.sketches.next) (hused : (c.sketch id).slots ≠ .empty) :
    (c'.sketch id).slots ≠ .empty := by
  cases h with
  | client changes => exact (changes.revision hid).slots_ne_empty hused
  | carry still => rwa [still.registry]
  | start _ still => rwa [still.registry]
  | answer job answer _ writeBack =>
    obtain ⟨k, hk, w, changes, ending⟩ :=
      ending_of_outcome hc hn (WriteBack.outcome_proceed c.toWriteBack job answer)
    have hsame := congrArg Sketch.slots (ending.sketch id).1
    rw [writeBack, hsame]
    exact (changes.revision hid).slots_ne_empty hused

end Container

namespace System

variable {s s' : System} {e : Event} {n : Nat} {h : List Moment}

/-- The system is in order, with `n` mutations at most that no merit accounts for. -/
structure Sane (n : Nat) (s : System) : Prop where
  orderly : s.Orderly
  coherent : s.container.Coherent n
  flow : s.container.Flow

theorem Sane.next? (hs : s.Sane n) (hn : n < 2 ^ 62) (he : s.next? e = some s') :
    s'.Sane (n + 1) := by
  have hmove := move_next? hs.orderly hs.coherent hn he
  obtain ⟨hc, hf⟩ := hmove.sane hs.coherent hn hs.flow
  exact ⟨orderly_next? hs.orderly he, hc, hf⟩

theorem Sane.run (hs : s.Sane n) (run : Run s h s') (hn : n + h.length ≤ 2 ^ 62) :
    s'.Sane (n + h.length) := by
  induction run with
  | refl => exact hs
  | step run next ih =>
    rw [List.length_append, List.length_singleton, ← Nat.add_assoc] at hn ⊢
    exact (ih (by omega)).next? (by omega) next

theorem Sane.kept_run (hs : s.Sane n) (run : Run s h s') (hn : n + h.length ≤ 2 ^ 62)
    {id : SketchId} (hid : id < s.container.sketches.next) :
    id < s'.container.sketches.next ∧ (s'.container.sketch id).key = (s.container.sketch id).key ∧
      (s'.container.sketch id).shard = (s.container.sketch id).shard ∧
      ((s.container.sketch id).deleted = true → (s'.container.sketch id).deleted = true) := by
  induction run with
  | refl => exact ⟨hid, rfl, rfl, fun h => h⟩
  | step run next ih =>
    rw [List.length_append, List.length_singleton, ← Nat.add_assoc] at hn
    obtain ⟨hlt, hkey, hshard, hdeleted⟩ := ih (by omega)
    have hbefore := hs.run run (by omega)
    have hmove := move_next? hbefore.orderly hbefore.coherent (by omega) next
    obtain ⟨hlt', hkey', hshard', hdeleted'⟩ := hmove.kept hbefore.coherent (by omega) hlt
    exact ⟨hlt', hkey'.trans hkey, hshard'.trans hshard, fun h => hdeleted' (hdeleted h)⟩

theorem Sane.next_le_run (hs : s.Sane n) (run : Run s h s') (hn : n + h.length ≤ 2 ^ 62) :
    s.container.sketches.next ≤ s'.container.sketches.next := by
  cases hnext : s.container.sketches.next with
  | zero => exact Nat.zero_le _
  | succ last =>
    have hlast : last < s.container.sketches.next := by
      rw [hnext]
      exact Nat.lt_succ_self _
    exact (hs.kept_run run hn hlast).1

theorem Sane.slots_run (hs : s.Sane n) (run : Run s h s') (hn : n + h.length ≤ 2 ^ 62)
    {id : SketchId} (hid : id < s.container.sketches.next)
    (hused : (s.container.sketch id).slots ≠ .empty) : (s'.container.sketch id).slots ≠ .empty := by
  induction run with
  | refl => exact hused
  | step run next ih =>
    rw [List.length_append, List.length_singleton, ← Nat.add_assoc] at hn
    have hbefore := hs.run run (by omega)
    have hmove := move_next? hbefore.orderly hbefore.coherent (by omega) next
    exact hmove.slots_ne_empty hbefore.coherent (by omega) (hs.kept_run run (by omega) hid).1
      (ih (by omega))

theorem Sane.intact_run (hs : s.Sane n) (hi : s.container.Intact) (run : Run s h s')
    (hn : n + h.length ≤ 2 ^ 62) (alive : Alive (calls h)) : s'.container.Intact := by
  induction run with
  | refl => exact hi
  | @step h before after e run next ih =>
    rw [List.length_append, List.length_singleton, ← Nat.add_assoc] at hn
    rw [calls_append] at alive
    have hbefore := hs.run run (by omega)
    have hmove := move_next? hbefore.orderly hbefore.coherent (by omega) next
    refine hmove.intact hbefore.coherent (by omega) hbefore.flow (ih (by omega) ?_) ?_
    · exact fun call hcall => alive call (List.mem_append_left _ hcall)
    · intro job hanswered
      refine alive (job.request, .error .stopped) (List.mem_append_right _ ?_) rfl
      exact List.mem_filterMap.2 ⟨_, List.mem_singleton.2 rfl, Moment.call?_of_answered hanswered⟩

end System

end DistinctCount
