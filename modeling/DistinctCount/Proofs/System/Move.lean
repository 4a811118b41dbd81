import DistinctCount.Proofs.Container.Sweep
import DistinctCount.Proofs.System.Basic

namespace DistinctCount

namespace Channel

variable {c c' : Channel} {p : Partition} {id : SketchId} {granted : Option Partition}

theorem buffer_send? (h : c.send? p id = some c') : c'.buffer.items = c.buffer.items ++ [id] := by
  unfold send? at h
  split at h
  · obtain rfl := Option.some.inj h
    rfl
  · split at h
    · cases h
    · obtain rfl := Option.some.inj h
      rfl

theorem buffer_grant (c : Channel) : c.grant.2.buffer = c.buffer := by
  unfold grant
  split
  · split <;> rfl
  · rfl

theorem buffer_wait (c : Channel) (p : Partition) : (c.wait p).buffer = c.buffer := by
  unfold wait
  split <;> rfl

theorem buffer_receive? (h : c.receive? = some (id, granted, c')) :
    c.buffer.items = id :: c'.buffer.items := by
  unfold receive? at h
  split at h
  · rename_i items heq
    obtain ⟨rfl, hrest⟩ := Prod.mk.inj (Option.some.inj h)
    obtain ⟨-, rfl⟩ := Prod.mk.inj hrest
    have hbuffer := buffer_grant { c with buffer := { items } }
    rw [heq]
    exact congrArg (List.cons _) (congrArg Queue.items hbuffer).symm
  · cases h

end Channel

namespace Container

variable {c c' : Container} {p q : Partition} {id other : SketchId} {k n : Nat}

def jobs (c : Container) : List Job :=
  c.job.toList ++ (c.drain.bind (·.2)).toList

def held (c : Container) : List SketchId :=
  c.savers.toList.flatMap (·.held)

/-- The sketches that have left the queues and are not in a write. -/
def stowed (c : Container) : List SketchId :=
  c.held ++ c.channel.buffer.items ++ c.drain.elim [] (·.1.batch)

def backlog (c : Container) : List SketchId :=
  c.queued ++ c.stowed

/-- The sketches in the queues, with the savers, in the channel, in the drain and in a write. -/
def pipeline (c : Container) : List SketchId :=
  c.backlog ++ c.jobs.map (·.sketch)

def Holds (c : Container) (p : Partition) (id : SketchId) : Prop :=
  id ∈ (c.queues.get p).items ∨ id ∈ (c.savers.get p).held

theorem mem_held : id ∈ c.held ↔ ∃ p : Partition, id ∈ (c.savers.get p).held := by
  simp only [held, List.mem_flatMap, Vector.mem_toList_iff, Vector.mem_iff_getElem]
  constructor
  · rintro ⟨q, ⟨i, hi, rfl⟩, hid⟩
    exact ⟨⟨i, hi⟩, hid⟩
  · rintro ⟨p, hid⟩
    exact ⟨c.savers.get p, ⟨p.val, p.isLt, rfl⟩, hid⟩

/-- The test that the deletion of a key makes. -/
theorem inPipeline_iff : c.inPipeline id = true ↔ id ∈ c.pipeline := by
  have hqueued : c.queues.toList.any (·.items.contains id) = true ↔ id ∈ c.queued := by
    rw [List.any_eq_true, WriteBack.queued, List.mem_flatMap]
    simp only [List.contains_iff_mem]
  have hheld : c.savers.toList.any (·.held.contains id) = true ↔ id ∈ c.held := by
    rw [List.any_eq_true, held, List.mem_flatMap]
    simp only [List.contains_iff_mem]
  have hjob (job : Option Job) : job.any (·.sketch == id) = true ↔
      id ∈ job.toList.map (·.sketch) := by
    cases job with
    | none => simp
    | some job =>
      rw [Option.any_some, Option.toList_some, List.map_singleton, List.mem_singleton, beq_iff_eq]
      exact eq_comm
  have hdrain : (c.drain.any fun x =>
      x.1.batch.contains id || x.2.any (·.sketch == id)) = true ↔
      id ∈ c.drain.elim [] (·.1.batch) ∨ id ∈ (c.drain.bind (·.2)).toList.map (·.sketch) := by
    cases c.drain with
    | none => simp
    | some drain =>
      rw [Option.any_some, Bool.or_eq_true, List.contains_iff_mem, hjob]
      rfl
  have hparts : c.inPipeline id = (c.queues.toList.any (·.items.contains id) ||
      c.savers.toList.any (·.held.contains id) || c.channel.buffer.items.contains id ||
      c.job.any (·.sketch == id) || c.drain.any fun x =>
        x.1.batch.contains id || x.2.any (·.sketch == id)) := rfl
  rw [hparts]
  simp only [Bool.or_eq_true, hqueued, hheld, hjob, hdrain, List.contains_iff_mem, pipeline, backlog,
    stowed, jobs, List.map_append, List.mem_append]
  tauto

theorem count_backlog (c : Container) (id : SketchId) :
    c.backlog.count id = c.queued.count id + c.held.count id +
      c.channel.buffer.items.count id + (c.drain.elim [] (·.1.batch)).count id := by
  simp only [backlog, stowed, List.count_append]
  omega

def arrange (c : Container) (p : Partition) (queue : Queue SketchId) (saver : Saver)
    (channel : Channel) : Container :=
  { c with queues := assign c.queues p queue, savers := assign c.savers p saver, channel }

theorem count_backlog_arrange (c : Container) (p : Partition) (queue : Queue SketchId)
    (saver : Saver) (channel : Channel) (id : SketchId) :
    (c.arrange p queue saver channel).backlog.count id +
        ((c.queues.get p).items.count id + (c.savers.get p).held.count id +
        c.channel.buffer.items.count id) =
      c.backlog.count id +
        (queue.items.count id + saver.held.count id + channel.buffer.items.count id) := by
  have hqueues : (c.arrange p queue saver channel).queued.count id + (c.queues.get p).items.count id =
      c.queued.count id + queue.items.count id :=
    WriteBack.count_queued_editQueue (w := c.toWriteBack) (f := fun _ => queue) id
  have hlength : p.val < c.savers.toList.length := by simp
  have hsavers := count_flatMap_set c.savers.toList (·.held) saver hlength id
  rw [← Vector.toList_set p.isLt] at hsavers
  have hheld : (c.arrange p queue saver channel).held.count id + (c.savers.get p).held.count id =
      c.held.count id + saver.held.count id := by
    simpa [held, arrange, assign, Vector.get] using hsavers
  have hchannel : (c.arrange p queue saver channel).channel = channel := rfl
  have hdrain : (c.arrange p queue saver channel).drain = c.drain := rfl
  rw [count_backlog, count_backlog, hchannel, hdrain]
  omega

theorem holds_arrange {queue : Queue SketchId} {saver : Saver} {channel : Channel} :
    (c.arrange p queue saver channel).Holds q id ↔
      if q = p then id ∈ queue.items ∨ id ∈ saver.held else c.Holds q id := by
  rw [Holds, arrange, get_assign, get_assign]
  split <;> rfl

structure Still (c c' : Container) : Prop where
  registry : c'.toRegistry = c.toRegistry
  retry : c'.retry = c.retry
  config : c'.config = c.config
  persistent : c'.persistent = c.persistent
  expiry : c'.expiry = c.expiry
  nextTicket : c'.nextTicket = c.nextTicket
  notices : c'.notices = c.notices

/-- What an event does to the container, with the answer that a write gets by it. -/
inductive Move (c : Container) : Option (Job × Backend.Answer) → Container → Prop
  | client {k : Nat} {c' : Container} (changes : Changes k c c') (small : k ≤ 1) : Move c none c'
  | carry {c' : Container} (still : Still c c') (jobs : c'.jobs = c.jobs)
      (backlog : ∀ id, c'.backlog.count id = c.backlog.count id)
      (holds : ∀ p id, c'.Holds p id → c.Holds p id) : Move c none c'
  | start {c' : Container} (id : SketchId) (still : Still c c') (idle : c.jobs = [])
      (jobs : c'.jobs = [c.begin id])
      (backlog : ∀ other, c.backlog.count other =
        c'.backlog.count other + if other = id then 1 else 0)
      (holds : ∀ p id, c'.Holds p id → c.Holds p id) : Move c none c'
  | answer {c' : Container} (job : Job) (answer : Backend.Answer) (hand : c.jobs = [job])
      (writeBack : c'.toWriteBack = (c.toWriteBack.proceed job answer).1)
      (jobs : c'.jobs = (c.toWriteBack.proceed job answer).2.1.job?.toList)
      (notices : c'.notices = c.notices ++ (c.toWriteBack.proceed job answer).2.2)
      (stowed : c'.stowed = c.stowed) (savers : c'.savers = c.savers)
      (persistent : c'.persistent = c.persistent) (config : c'.config = c.config)
      (expiry : c'.expiry = c.expiry) (nextTicket : c'.nextTicket = c.nextTicket) :
      Move c (some (job, answer)) c'

theorem move_arrange (queue : Queue SketchId) (saver : Saver) (channel : Channel)
    (hcount : ∀ id, queue.items.count id + saver.held.count id + channel.buffer.items.count id =
      (c.queues.get p).items.count id + (c.savers.get p).held.count id + c.channel.buffer.items.count id)
    (hholds : ∀ id, id ∈ queue.items ∨ id ∈ saver.held → c.Holds p id) :
    Move c none (c.arrange p queue saver channel) := by
  refine .carry ⟨rfl, rfl, rfl, rfl, rfl, rfl, rfl⟩ rfl ?_ ?_
  · intro id
    have h := count_backlog_arrange c p queue saver channel id
    rw [hcount] at h
    omega
  · intro q id hid
    rw [holds_arrange] at hid
    split at hid
    · rename_i hq
      exact hq ▸ hholds id hid
    · exact hid

theorem move_saverTake (c : Container) (p : Partition) : Move c none (c.saverTake p) := by
  have hparts : ((c.queues.get p).pop c.config.saveBatch).1 ++
        ((c.queues.get p).pop c.config.saveBatch).2.items =
      (c.queues.get p).items := List.take_append_drop _ _
  refine move_arrange ((c.queues.get p).pop c.config.saveBatch).2
    { (c.savers.get p) with held := (c.savers.get p).held ++ ((c.queues.get p).pop c.config.saveBatch).1 }
    c.channel ?_ ?_
  · intro id
    rw [← hparts]
    simp only [List.count_append]
    omega
  · intro id hid
    rw [Holds, ← hparts]
    simp only [List.mem_append] at hid ⊢
    tauto

theorem saverSend?_eq_some (h : c.saverSend? p = some c') :
    ∃ id held channel, (c.savers.get p).held = id :: held ∧
      channel.buffer.items = c.channel.buffer.items ++ [id] ∧
      c' = c.arrange p (c.queues.get p) { (c.savers.get p) with held } channel := by
  unfold saverSend? at h
  split at h
  · cases h
  · rename_i id held hheld
    obtain ⟨channel, hsend, rfl⟩ := Option.map_eq_some_iff.1 h
    refine ⟨id, held, channel, hheld, Channel.buffer_send? hsend, ?_⟩
    have hsame : assign c.queues p (c.queues.get p) = c.queues := Vector.set_getElem_self p.isLt
    simp only [editSaver, arrange, hsame]

theorem move_saverSend {held : List SketchId} {channel : Channel}
    (hheld : (c.savers.get p).held = id :: held)
    (hbuffer : channel.buffer.items = c.channel.buffer.items ++ [id]) :
    Move c none (c.arrange p (c.queues.get p) { (c.savers.get p) with held } channel) := by
  apply move_arrange _ _ _
  · intro other
    rw [hheld, hbuffer]
    simp only [List.count_append, List.count_cons, List.count_nil]
    omega
  · intro other hid
    rw [Holds, hheld]
    exact hid.imp_right (List.mem_cons_of_mem _)

theorem move_saverStop (c : Container) (p : Partition) : Move c none (c.saverStop p) := by
  refine move_arrange ((c.queues.get p).requeue (c.savers.get p).held) { running := false }
    (c.channel.leave p) ?_ ?_
  · intro id
    simp only [Queue.requeue, Channel.leave, List.count_append, List.count_nil]
    omega
  · intro id hid
    simp only [Queue.requeue, List.mem_append, List.not_mem_nil, or_false] at hid
    exact hid.symm

theorem move_still (still : Still c c') (hq : c'.queues = c.queues) (hs : c'.savers = c.savers)
    (hc : c'.channel.buffer = c.channel.buffer) (hj : c'.job = c.job)
    (hd : c'.drain.elim [] (·.1.batch) = c.drain.elim [] (·.1.batch))
    (hdj : c'.drain.bind (·.2) = c.drain.bind (·.2)) : Move c none c' := by
  refine .carry still ?_ ?_ ?_
  · rw [jobs, jobs, hj, hdj]
  · intro id
    rw [count_backlog, count_backlog, queued_congr hq, held, held, hs, hc, hd]
  · intro p id hid
    rwa [Holds, hq, hs] at hid

theorem move_start (id : SketchId) (still : Still c c') (idle : c.jobs = [])
    (hjobs : c'.jobs = [c.begin id]) (hq : c'.queues = c.queues) (hs : c'.savers = c.savers)
    (hcount : ∀ other, c.channel.buffer.items.count other +
      (c.drain.elim [] (·.1.batch)).count other = c'.channel.buffer.items.count other +
      (c'.drain.elim [] (·.1.batch)).count other + if other = id then 1 else 0) :
    Move c none c' := by
  refine .start id still idle hjobs ?_ ?_
  · intro other
    have h := hcount other
    rw [count_backlog, count_backlog, queued_congr hq, held, held, hs]
    omega
  · intro p id hid
    rwa [Holds, hq, hs] at hid

theorem writerTake?_eq_some {granted : Option Partition} (h : c.writerTake? = some (granted, c')) :
    ∃ id channel, c.channel.buffer.items = id :: channel.buffer.items ∧
      c' = { c with channel, job := some (c.begin id) } := by
  obtain ⟨⟨id, granted, channel⟩, hreceive, heq⟩ := Option.map_eq_some_iff.1 h
  obtain ⟨-, rfl⟩ := Prod.mk.inj heq
  exact ⟨id, channel, Channel.buffer_receive? hreceive, rfl⟩

theorem move_receive {channel : Channel} (idle : c.jobs = [])
    (hbuffer : c.channel.buffer.items = id :: channel.buffer.items) :
    Move c none { c with channel, job := some (c.begin id) } := by
  have hdrain : (c.drain.bind (·.2)).toList = [] := (List.append_eq_nil_iff.1 idle).2
  refine move_start id ⟨rfl, rfl, rfl, rfl, rfl, rfl, rfl⟩ idle ?_ rfl rfl ?_
  · rw [jobs, hdrain]
    rfl
  · intro other
    rw [hbuffer, List.count_cons]
    simp only [beq_iff_eq, eq_comm (a := other)]
    omega

def drainQueue (c : Container) (drain : Drain) (h : drain.queue < 8) : Container :=
  { c.alter (·.editQueue ⟨drain.queue, h⟩ fun _ => {}) with
    drain := some ({ drain with
      queue := drain.queue + 1
      batch := c.queues[drain.queue].items
      progressed := drain.progressed || !c.queues[drain.queue].items.isEmpty
      written := drain.written + c.queues[drain.queue].items.length }, none) }

def drainAgain (c : Container) (drain : Drain) : Container :=
  { c with
    drain := some ({ drain with passes := drain.passes - 1, queue := 0, progressed := false }, none) }

/-- The drain writes what it holds, then empties queue after queue, pass after pass. -/
theorem drainAdvance_cases (c : Container) (drain : Drain) :
    (∃ id batch, drain.batch = id :: batch ∧ c.drainAdvance drain =
      (none, { c with drain := some ({ drain with batch }, some (c.begin id)) })) ∨
    (drain.batch = [] ∧ ∃ h : drain.queue < 8, c.drainAdvance drain = (none, c.drainQueue drain h)) ∨
    (drain.batch = [] ∧ 8 ≤ drain.queue ∧ drain.progressed = true ∧ 1 < drain.passes ∧
      c.drainAdvance drain = (none, c.drainAgain drain)) ∨
    (drain.batch = [] ∧ 8 ≤ drain.queue ∧ (drain.progressed = true → drain.passes ≤ 1) ∧
      c.drainAdvance drain = (some drain.written, { c with drain := none })) := by
  cases hbatch : drain.batch with
  | cons id batch => exact .inl ⟨id, batch, rfl, by simp only [drainAdvance, WriteBack.drainStep, hbatch]⟩
  | nil =>
    refine .inr ?_
    by_cases hqueue : drain.queue < 8
    · refine .inl ⟨rfl, hqueue, ?_⟩
      simp only [drainAdvance, WriteBack.drainStep, hbatch, dif_pos hqueue]
      rfl
    · refine .inr ?_
      by_cases hpass : drain.progressed = true ∧ 1 < drain.passes
      · refine .inl ⟨rfl, Nat.le_of_not_lt hqueue, hpass.1, hpass.2, ?_⟩
        have hnext : (drain.progressed && decide (1 < drain.passes)) = true := by
          simpa using hpass
        simp only [drainAdvance, WriteBack.drainStep, hbatch, dif_neg hqueue, hnext, if_true,
          drainAgain]
      · refine .inr ⟨rfl, Nat.le_of_not_lt hqueue, fun h => Nat.le_of_not_lt fun h' => hpass ⟨h, h'⟩, ?_⟩
        have hlast : (drain.progressed && decide (1 < drain.passes)) = false := by
          simpa using hpass
        simp only [drainAdvance, WriteBack.drainStep, hbatch, dif_neg hqueue, hlast]
        rfl

theorem drainAdvance_frame (c : Container) (drain : Drain) :
    (∃ queues onward, (∀ (p : Partition) id, id ∈ (queues.get p).items → id ∈ (c.queues.get p).items) ∧
      c.drainAdvance drain = (none, { c with queues, drain := some onward })) ∨
    c.drainAdvance drain = (some drain.written, { c with drain := none }) := by
  obtain ⟨_, _, -, heq⟩ | ⟨-, hqueue, heq⟩ | ⟨-, -, -, -, heq⟩ | ⟨-, -, -, heq⟩ :=
    c.drainAdvance_cases drain
  · exact .inl ⟨c.queues, _, fun _ _ => id, heq⟩
  · refine .inl ⟨_, _, fun p id hid => ?_, heq⟩
    rw [get_assign] at hid
    split at hid
    · cases hid
    · exact hid
  · exact .inl ⟨c.queues, _, fun _ _ => id, heq⟩
  · exact .inr heq

theorem move_drainAdvance {drain : Drain} (hdrain : c.drain = some (drain, none))
    (hjob : c.job = none) : Move c none (c.drainAdvance drain).2 := by
  have hidle : c.jobs = [] := by
    rw [jobs, hdrain, hjob]
    rfl
  have hbatch : c.drain.elim [] (·.1.batch) = drain.batch := by rw [hdrain]; rfl
  have hnone : c.drain.bind (·.2) = none := by rw [hdrain]; rfl
  obtain ⟨id, batch, hb, heq⟩ | ⟨hb, hqueue, heq⟩ | ⟨hb, -, -, -, heq⟩ | ⟨hb, -, -, heq⟩ :=
    c.drainAdvance_cases drain
  · rw [heq]
    refine move_start id ⟨rfl, rfl, rfl, rfl, rfl, rfl, rfl⟩ hidle ?_ rfl rfl ?_
    · rw [jobs, hjob]
      rfl
    · intro other
      rw [hbatch, hb, List.count_cons]
      simp only [Option.elim_some, beq_iff_eq, eq_comm (a := other)]
      omega
  · rw [heq]
    let q : Partition := ⟨drain.queue, hqueue⟩
    refine .carry ⟨rfl, rfl, rfl, rfl, rfl, rfl, rfl⟩ ?_ ?_ ?_
    · rw [jobs, jobs, hnone]
      rfl
    · intro id
      have hcount := WriteBack.count_queued_editQueue (w := c.toWriteBack) (p := q)
        (f := fun _ => {}) id
      rw [count_backlog, count_backlog, hbatch, hb]
      change (c.toWriteBack.editQueue q fun _ => {}).queued.count id + c.held.count id +
        c.channel.buffer.items.count id + (c.queues.get q).items.count id = _
      rw [List.count_nil] at hcount ⊢
      omega
    · intro p id hid
      refine hid.imp_left fun hq => ?_
      have hmem : id ∈ ((c.toWriteBack.editQueue q fun _ => {}).queues.get p).items := hq
      rw [WriteBack.queues_editQueue] at hmem
      split at hmem
      · cases hmem
      · exact hmem
  · rw [heq]
    exact move_still ⟨rfl, rfl, rfl, rfl, rfl, rfl, rfl⟩ rfl rfl rfl rfl hbatch.symm hnone.symm
  · rw [heq]
    exact move_still ⟨rfl, rfl, rfl, rfl, rfl, rfl, rfl⟩ rfl rfl rfl rfl (hbatch.trans hb).symm
      hnone.symm

theorem move_writerProceed {job : Job} (hjob : c.job = some job) (hdrain : c.drain = none)
    (answer : Backend.Answer) : Move c (some (job, answer)) (c.writerProceed job answer).2 := by
  refine .answer job answer ?_ rfl ?_ rfl ?_ rfl rfl rfl rfl rfl
  · rw [jobs, hjob, hdrain]
    rfl
  · change (Progress.job? _).toList ++ (c.drain.bind (·.2)).toList = _
    rw [hdrain]
    exact List.append_nil _
  · rfl

theorem move_drainProceed {job : Job} {drain : Drain} (hdrain : c.drain = some (drain, some job))
    (hjob : c.job = none) (answer : Backend.Answer) :
    Move c (some (job, answer)) (c.drainProceed drain job answer).2 := by
  refine .answer job answer ?_ rfl ?_ rfl ?_ rfl rfl rfl rfl rfl
  · rw [jobs, hjob, hdrain]
    rfl
  · change c.job.toList ++ (Progress.job? _).toList = _
    rw [hjob]
    rfl
  · change c.held ++ c.channel.buffer.items ++ drain.batch = _
    rw [stowed, hdrain]
    rfl

end Container

end DistinctCount
