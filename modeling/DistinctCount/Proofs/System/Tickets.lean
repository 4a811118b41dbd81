import DistinctCount.Proofs.Container.Restore
import DistinctCount.Proofs.System.Sane

namespace DistinctCount

open Container

namespace Container

variable {c c' c'' : Container} {k n : Nat} {answered : Option (Job × Backend.Answer)}

/-- What may become of tickets: only new ones are left with sketches, and no caller is told of a success. -/
structure Tickets (c c' : Container) : Prop where
  next : c.nextTicket ≤ c'.nextTicket
  waiters : ∀ id, ∀ ticket ∈ (c'.sketch id).waiters,
    ticket ∈ (c.sketch id).waiters ∨ c.nextTicket ≤ ticket ∧ ticket < c'.nextTicket
  notices : ∀ notice ∈ c'.notices,
    notice ∈ c.notices ∨ notice.2 ≠ .confirmed ∧ notice.1 < c'.nextTicket

theorem Tickets.refl (c : Container) : Tickets c c :=
  ⟨Nat.le_refl _, fun _ _ => .inl, fun _ => .inl⟩

theorem Tickets.trans (h : Tickets c c') (h' : Tickets c' c'') : Tickets c c'' where
  next := Nat.le_trans h.next h'.next
  waiters := by
    intro id ticket ht
    rcases h'.waiters id ticket ht with ht | ⟨hle, hlt⟩
    · rcases h.waiters id ticket ht with ht | ⟨hle, hlt⟩
      · exact .inl ht
      · exact .inr ⟨hle, Nat.lt_of_lt_of_le hlt h'.next⟩
    · exact .inr ⟨Nat.le_trans h.next hle, hlt⟩
  notices := by
    intro notice hn
    rcases h'.notices notice hn with hn | hn
    · rcases h.notices notice hn with hn | ⟨hdenied, hlt⟩
      · exact .inl hn
      · exact .inr ⟨hdenied, Nat.lt_of_lt_of_le hlt h'.next⟩
    · exact .inr hn

theorem tickets_of_sketch (hsketch : ∀ id, ∀ ticket ∈ (c'.sketch id).waiters,
    ticket ∈ (c.sketch id).waiters) (hnext : c'.nextTicket = c.nextTicket)
    (hnotices : c'.notices = c.notices) : Tickets c c' :=
  ⟨Nat.le_of_eq hnext.symm, fun id ticket ht => .inl (hsketch id ticket ht),
    fun _ hn => .inl (hnotices ▸ hn)⟩

theorem notices_moveEntry (c : Container) (id : SketchId) (bucket : Option UInt64) :
    (c.moveEntry id bucket).notices = c.notices := by
  rw [frame_moveEntry]

theorem Change.tickets (h : Change k c c') : Tickets c c' := by
  cases h with
  | @create _ key expiresAt free =>
    refine tickets_of_sketch ?_ rfl rfl
    intro id ticket ht
    change ticket ∈ ((c.toRegistry.getOrCreate _ key expiresAt).2.sketch id).waiters at ht
    rw [sketch_create _ (c.shardOf key) expiresAt free] at ht
    split at ht
    · cases ht
    · exact ht
  | @move _ moved bucket made =>
    refine tickets_of_sketch ?_ nextTicket_moveEntry (notices_moveEntry _ _ _)
    intro id ticket ht
    rw [sketch_moveEntry _ _ made] at ht
    split at ht
    · rename_i he
      rwa [he]
    · exact ht
  | @revise _ _ revised f made _ _ _ waiters =>
    refine tickets_of_sketch ?_ rfl rfl
    intro id ticket ht
    rw [toRegistry_alter_mutate, Registry.sketch_modify] at ht
    split at ht
    · rename_i he
      rwa [he.1, ← waiters]
    · exact ht
  | @retire _ dead key tickets _ _ _ _ _ issued =>
    have hnext : (c.retire dead key tickets).nextTicket = c.nextTicket + tickets.length := rfl
    refine ⟨Nat.le_add_right _ _, ?_, fun _ => .inl⟩
    intro id ticket ht
    rw [sketch_retire, Registry.sketch_modify] at ht
    split at ht
    · rename_i he
      rcases List.mem_append.1 ht with ht | ht
      · exact .inl (he.1 ▸ ht)
      · have hpos := List.length_pos_of_mem ht
        obtain rfl := issued ticket ht
        exact .inr ⟨Nat.le_refl _, hnext ▸ Nat.lt_add_of_pos_right hpos⟩
    · exact .inl ht
  | @dismiss _ sketch tickets issued =>
    refine ⟨Nat.le_refl _, ?_, ?_⟩
    · intro id ticket ht
      rw [toRegistry_dismiss, Registry.sketch_modify] at ht
      split at ht
      · cases ht
      · exact .inl ht
    · intro notice hn
      rcases List.mem_append.1 hn with hn | hn
      · exact .inl hn
      · obtain ⟨ticket, ht, rfl⟩ := List.mem_map.1 hn
        exact .inr ⟨nofun, issued ticket ht⟩
  | _ => exact tickets_of_sketch (fun _ _ => id) rfl rfl

theorem Changes.tickets (h : Changes k c c') : Tickets c c' := by
  induction h with
  | refl => exact .refl _
  | step _ last ih => exact ih.trans last.tickets

/-- A caller is told of a success by the flush that was asked for it only. -/
theorem notices_of_outcome {w w' : WriteBack} {job : Job} {answer : Backend.Answer}
    {progress : Progress} {notices : List Notice}
    (ho : WriteBack.Outcome w job answer w' progress notices) {notice : Notice}
    (hn : notice ∈ notices) :
    (notice.1 ∈ (w.sketch job.sketch).waiters ∨
      ∃ waiters, job.stage = .flush waiters ∧ notice.1 ∈ waiters) ∧
    (notice.2 = .confirmed → answer = .ok () ∧
      ∃ waiters, job.stage = .flush waiters ∧ notice.1 ∈ waiters) := by
  cases ho with
  | confirmed waiters stage =>
    obtain ⟨ticket, ht, rfl⟩ := List.mem_map.1 hn
    exact ⟨.inr ⟨waiters, stage, ht⟩, fun _ => ⟨rfl, waiters, stage, ht⟩⟩
  | postponed e error told w' left =>
    obtain ⟨ticket, ht, rfl⟩ := List.mem_map.1 hn
    refine ⟨?_, nofun⟩
    rcases left with ⟨-, rfl | stage⟩ | ⟨-, rfl⟩
    · cases ht
    · exact .inr ⟨told, stage, ht⟩
    · exact .inl ht
  | abandoned notices denied =>
    obtain ⟨hdenied, horigin⟩ := denied notice hn
    exact ⟨horigin, fun h => absurd h hdenied⟩
  | _ => cases hn

structure Passes (c : Container) (answered : Option (Job × Backend.Answer)) (c' : Container) :
    Prop where
  next : c.nextTicket ≤ c'.nextTicket
  waiters : ∀ id, ∀ ticket ∈ (c'.sketch id).waiters,
    ticket ∈ (c.sketch id).waiters ∨ c.nextTicket ≤ ticket ∧ ticket < c'.nextTicket
  /-- A flush that goes on, or begins after its delete. -/
  flushing : ∀ job' ∈ c'.jobs, ∀ waiters, job'.stage = .flush waiters →
    ∃ job ∈ c.jobs, job'.sketch = job.sketch ∧ job'.key = job.key ∧
      (job.stage = .flush waiters ∧ (∀ other, answered ≠ some (other, .ok ())) ∨
        answered = some (job, .ok ()) ∧ job.stage = .delete ∧ waiters = (c.sketch job.sketch).waiters)
  notices : ∀ notice ∈ c'.notices, notice ∈ c.notices ∨
    notice.2 ≠ .confirmed ∧ notice.1 < c'.nextTicket ∨
    ∃ job ∈ c.jobs, ∃ answer, answered = some (job, answer) ∧
      (notice.1 ∈ (c.sketch job.sketch).waiters ∨
        ∃ waiters, job.stage = .flush waiters ∧ notice.1 ∈ waiters) ∧
      (notice.2 = .confirmed → answer = .ok () ∧
        ∃ waiters, job.stage = .flush waiters ∧ notice.1 ∈ waiters)

theorem Tickets.passes (h : Tickets c c')
    (hjobs : ∀ job ∈ c'.jobs, ∀ waiters, job.stage = .flush waiters → job ∈ c.jobs) :
    Passes c none c' where
  next := h.next
  waiters := h.waiters
  flushing := fun job hj waiters hstage =>
    ⟨job, hjobs job hj waiters hstage, rfl, rfl, .inl ⟨hstage, fun _ => nofun⟩⟩
  notices := fun notice hn => (h.notices notice hn).imp_right .inl

theorem Move.passes (h : Move c answered c') (hc : c.Coherent n) (hn : n < 2 ^ 62) :
    Passes c answered c' := by
  cases h with
  | client changes =>
    obtain ⟨-, -, -, -, -, hjob, hdrain⟩ := changes.frame
    apply changes.tickets.passes
    rw [jobs, hjob, hdrain]
    exact fun _ hj _ _ => hj
  | carry still jobs =>
    refine (tickets_of_sketch ?_ still.nextTicket still.notices).passes ?_
    · rw [still.registry]
      exact fun _ _ => id
    · rw [jobs]
      exact fun _ hj _ _ => hj
  | start id still idle jobs =>
    refine (tickets_of_sketch ?_ still.nextTicket still.notices).passes ?_
    · rw [still.registry]
      exact fun _ _ ht => ht
    · intro job hj waiters hstage
      rw [jobs, List.mem_singleton] at hj
      rw [hj] at hstage
      exact absurd hstage (WriteBack.begin_ne_flush _ _ _)
  | answer job answer hand writeBack jobs notices _ _ _ _ _ nextTicket =>
    have outcome := WriteBack.outcome_proceed c.toWriteBack job answer
    have hj : job ∈ c.jobs := by
      rw [hand]
      exact List.mem_singleton.2 rfl
    obtain ⟨k, -, w, changes, ending⟩ := ending_of_outcome hc hn outcome
    refine ⟨Nat.le_of_eq nextTicket.symm, ?_, ?_, ?_⟩
    · intro id ticket ht
      have hsame := congrArg Sketch.waiters (ending.sketch id).1
      rw [writeBack, hsame] at ht
      rcases changes.tickets.waiters id ticket ht with ht | ⟨hle, hlt⟩
      · exact .inl ht
      · exact absurd hlt (Nat.not_lt.2 hle)
    · intro job' hj' waiters hstage
      rw [jobs, Option.mem_toList] at hj'
      obtain ⟨hsketch, hkey, -, ⟨hsame, hne⟩ | ⟨rfl, hdelete, hflush⟩⟩ := outcome.onward hj'
      · exact ⟨job, hj, hsketch, hkey, .inl ⟨hsame.symm.trans hstage,
          fun _ hok => hne (Prod.mk.inj (Option.some.inj hok)).2⟩⟩
      · exact ⟨job, hj, hsketch, hkey, .inr ⟨rfl, hdelete,
          Job.Stage.flush.inj (hstage.symm.trans hflush)⟩⟩
    · intro notice hmem
      rw [notices] at hmem
      rcases List.mem_append.1 hmem with hmem | hmem
      · exact .inl hmem
      · exact .inr (.inr ⟨job, hj, answer, rfl, notices_of_outcome outcome hmem⟩)

/-- No ticket that is still to come is left with a sketch, with a flush or in a notice. -/
structure Issued (c : Container) : Prop where
  waiters : ∀ id, ∀ ticket ∈ (c.sketch id).waiters, ticket < c.nextTicket
  flushing : ∀ job ∈ c.jobs, ∀ waiters, job.stage = .flush waiters →
    ∀ ticket ∈ waiters, ticket < c.nextTicket
  notices : ∀ notice ∈ c.notices, notice.1 < c.nextTicket

theorem Passes.issued (h : Passes c answered c') (hi : c.Issued) : c'.Issued where
  waiters := by
    intro id ticket ht
    rcases h.waiters id ticket ht with ht | ⟨-, hlt⟩
    · exact Nat.lt_of_lt_of_le (hi.waiters id ticket ht) h.next
    · exact hlt
  flushing := by
    intro job' hj' waiters hstage ticket ht
    obtain ⟨job, hj, -, -, ⟨hold, -⟩ | ⟨-, -, rfl⟩⟩ := h.flushing job' hj' waiters hstage
    · exact Nat.lt_of_lt_of_le (hi.flushing job hj waiters hold ticket ht) h.next
    · exact Nat.lt_of_lt_of_le (hi.waiters _ ticket ht) h.next
  notices := by
    intro notice hn
    obtain hn | ⟨-, hlt⟩ | ⟨job, hj, answer, -, ht | ⟨waiters, hstage, ht⟩, -⟩ :=
      h.notices notice hn
    · exact Nat.lt_of_lt_of_le (hi.notices notice hn) h.next
    · exact hlt
    · exact Nat.lt_of_lt_of_le (hi.waiters _ _ ht) h.next
    · exact Nat.lt_of_lt_of_le (hi.flushing job hj waiters hstage _ ht) h.next

end Container

theorem System.Sane.issued_run {s s' : System} {n : Nat} {h : List Moment} (hs : s.Sane n)
    (hi : s.container.Issued) (run : Run s h s') (hn : n + h.length ≤ 2 ^ 62) :
    s'.container.Issued := by
  induction run with
  | refl => exact hi
  | step run next ih =>
    rw [List.length_append, List.length_singleton, ← Nat.add_assoc] at hn
    have hbefore := hs.run run (by omega)
    have hmove := move_next? hbefore.orderly hbefore.coherent (by omega) next
    exact (hmove.passes hbefore.coherent (by omega)).issued (ih (by omega))

end DistinctCount
