import DistinctCount.Proofs.Container.Restore
import DistinctCount.Proofs.System.Sane

namespace DistinctCount

open Container

/-- The rest of an opening, with the calls that it makes and the container that it ends in. -/
inductive Opens : Opening → List (Request × Backend.Answer) → Container → Prop
  | done {o : Opening} (finished : o.request? = none) : Opens o [] o.container
  | step {o : Opening} {request : Request} {answer : Backend.Answer}
      {calls : List (Request × Backend.Answer)} {c : Container} (call : o.request? = some request)
      (rest : Opens (o.proceed answer).2 calls c) : Opens o ((request, answer) :: calls) c

def System.start (c : Container) : System :=
  { container := c }

namespace Container

variable {c : Container} {config : Config} {key : String} {id other : SketchId}
  {rest : List String} {answer : Backend.Answer}

/-- A container that no task has touched yet. -/
structure Ready (config : Config) (c : Container) : Prop where
  frame : c = { create config true with toWriteBack := c.toWriteBack, expiry := c.expiry }
  coherent : c.Coherent 0
  flow : c.Flow
  intact : c.Intact
  waiters : ∀ id, (c.sketch id).waiters = []
  dirty : ∀ id < c.sketches.next, (c.sketch id).deleted = true → (c.sketch id).pending ≠ 0
  filed : c.toRegistry.Filed

theorem Ready.idle (hr : Ready config c) :
    c.job = none ∧ c.drain = none ∧ c.channel.buffer.items = [] ∧
      (∀ p : Partition, (c.savers.get p).held = []) ∧ c.persistent = true ∧ c.closed = false ∧
      c.notices = [] ∧ c.nextTicket = 0 := by
  rw [hr.frame]
  refine ⟨rfl, rfl, rfl, ?_, rfl, rfl, rfl, rfl⟩
  intro p
  exact congrArg Saver.held (Vector.getElem_replicate p.isLt)

theorem Ready.jobs (hr : Ready config c) : c.jobs = [] := by
  rw [Container.jobs, hr.idle.1, hr.idle.2.1]
  rfl

theorem Restored.ready {now : UInt64} {done : List (String × Record)}
    (hr : Restored config now done c) : Ready config c := by
  have hpipeline : c.pipeline = [] := by
    rw [hr.frame]
    rfl
  refine ⟨?_, hr.coherent, ⟨?_, ?_, ?_, ?_⟩, ?_, fun id => (hr.clean id).2, ?_,
    hr.filed⟩
  · exact hr.frame.trans (by rw [hr.frame])
  · intro id
    rw [hpipeline]
    exact Nat.zero_le _
  · intro id hid
    rw [hpipeline] at hid
    cases hid
  · intro p id hid
    have hmem := hid.mem_pipeline
    rw [hpipeline] at hmem
    cases hmem
  · intro job hj
    have hmem : job.sketch ∈ c.pipeline := List.mem_append_right _ (List.mem_map_of_mem hj)
    rw [hpipeline] at hmem
    cases hmem
  · intro id hd
    exact absurd (hr.clean id).1 hd
  · intro id hid hd
    exact absurd ((hr.live id hid).1.symm.trans hd) (by decide)

def bury (c : Container) (key : String) : Container :=
  { c with toRegistry :=
    (c.toRegistry.make { key, shard := c.shardOf key, expiresAt := 0, deleted := true }).2 }

theorem sketch_bury : (c.bury key).sketch other = if other = c.sketches.next then
    { key, shard := c.shardOf key, expiresAt := 0, deleted := true } else c.sketch other :=
  Registry.sketch_make

theorem next_bury : (c.bury key).sketches.next = c.sketches.next + 1 :=
  Registry.next_make

theorem coherent_bury {n : Nat} (hc : c.Coherent n) (key : String) : (c.bury key).Coherent n := by
  refine ⟨hc.sound.make rfl rfl, ?_, ?_, ?_⟩
  · intro id
    rw [sketch_bury]
    split
    · exact ⟨Int.le_refl _, Int.natCast_nonneg _⟩
    · exact hc.measured id
  · intro id hid
    rw [sketch_bury]
    rw [next_bury] at hid
    split
    · exact Sketch.valid_new _ _ _ _
    · rename_i hne
      exact hc.valid id (Nat.lt_of_le_of_ne (Nat.le_of_lt_succ hid) hne)
  · refine hc.indexed.congr (fun _ _ _ => id) (by rw [next_bury]; exact Nat.le_succ _) ?_
    intro bucket key entry he _
    rw [sketch_bury, if_neg (Nat.ne_of_lt (hc.indexed _ _ _ he).1)]
    exact ⟨rfl, rfl, rfl, rfl⟩

theorem flow_bury (hf : c.Flow) (key : String) : (c.bury key).Flow := by
  refine ⟨hf.once, ?_, ?_, ?_⟩
  · intro id hid
    rw [sketch_bury, if_neg (Nat.ne_of_lt (hf.lt_next hid))]
    exact hf.dirty id hid
  · intro p id hid
    obtain ⟨hlt, hp⟩ := hf.home p id hid
    rw [sketch_bury, if_neg (Nat.ne_of_lt hlt), next_bury]
    exact ⟨Nat.lt_succ_of_lt hlt, hp⟩
  · intro job hj
    have hmem : job.sketch ∈ c.pipeline := List.mem_append_right _ (List.mem_map_of_mem hj)
    rw [sketch_bury, if_neg (Nat.ne_of_lt (hf.lt_next hmem))]
    exact hf.sound job hj

/-- A delete that is left to the write-back is the first mutation of a sketch made for it. -/
theorem deferDelete_eq (hc : c.Coherent 0) (key : String) :
    c.deferDelete key = (c.bury key).alter (·.mutate c.sketches.next Sketch.markDirty) := by
  have hb := coherent_bury hc key
  have made : c.sketches.next < (c.bury key).sketches.next := by
    rw [next_bury]
    exact Nat.lt_succ_self _
  have h := WriteBack.schedule_eq_mutate made (hb.measured _).1 (hb.room (by decide) _)
  exact congrArg (fun w => { c.bury key with toWriteBack := w }) h

theorem sketch_deferDelete (hc : c.Coherent 0) (key : String) :
    (c.deferDelete key).sketch other = if other = c.sketches.next then
      { key, shard := c.shardOf key, expiresAt := 0, deleted := true, pending := 1 }
    else c.sketch other := by
  have made : c.sketches.next < (c.bury key).sketches.next := by
    rw [next_bury]
    exact Nat.lt_succ_self _
  rw [deferDelete_eq hc, toRegistry_alter_mutate, Registry.sketch_modify]
  simp only [made, and_true]
  split
  · rw [sketch_bury, if_pos rfl]
    rfl
  · rename_i hne
    rw [sketch_bury, if_neg hne]

theorem Ready.deferDelete (hr : Ready config c) (key : String) :
    Ready config (c.deferDelete key) := by
  have hb := coherent_bury hr.coherent key
  have made : c.sketches.next < (c.bury key).sketches.next := by
    rw [next_bury]
    exact Nat.lt_succ_self _
  have hrev := Sketch.revision_renew (hb.room (by decide) c.sketches.next)
    ((c.bury key).sketch c.sketches.next).expiresAt
  have hchange : Change 1 (c.bury key)
      ((c.bury key).alter (·.mutate c.sketches.next Sketch.markDirty)) :=
    .revise made hrev rfl rfl rfl
  rw [← deferDelete_eq hr.coherent] at hchange
  have hintact : (c.bury key).Intact := by
    intro id hd
    rw [sketch_bury] at hd
    split at hd
    · exact absurd rfl hd
    · exact hr.intact id hd
  have hcoherent := hchange.coherent hb
  refine ⟨?_, ⟨hcoherent.sound, ?_, hcoherent.valid, hcoherent.indexed⟩,
    hchange.flow hb (flow_bury hr.flow key), hchange.intact hintact, ?_, ?_, ?_⟩
  · exact congrArg (fun d : Container =>
      { d with toWriteBack := (c.deferDelete key).toWriteBack }) hr.frame
  · intro id
    rw [sketch_deferDelete hr.coherent]
    split
    · rw [Sketch.merit, if_pos rfl, Int64.toInt_one]
      omega
    · exact hr.coherent.measured id
  · intro id
    rw [sketch_deferDelete hr.coherent]
    split
    · rfl
    · exact hr.waiters id
  · intro id hid
    rw [sketch_deferDelete hr.coherent]
    split
    · exact fun _ => (by decide : (1 : Int64) ≠ 0)
    · rename_i hne
      refine hr.dirty id (Nat.lt_of_le_of_ne (Nat.le_of_lt_succ ?_) hne)
      rw [deferDelete_eq hr.coherent, toRegistry_alter_mutate, Registry.next_modify, next_bury] at hid
      exact hid
  · intro id
    rw [sketch_deferDelete hr.coherent]
    split
    · exact Sketch.filed_of_bucket rfl
    · exact hr.filed id

/-- An answer lets the delete of a key be tried again, or settles what becomes of it. -/
theorem proceed_spec {o : Opening} (ho : o.expired = key :: rest) (answer : Backend.Answer) :
    (∃ reason, answer = .error (.unavailable reason) ∧ o.attempt < o.container.retry.maxAttempts ∧
      (o.proceed answer).2 = { o with attempt := o.attempt + 1 }) ∨
    ((∀ reason, answer = .error (.unavailable reason) →
        o.container.retry.maxAttempts ≤ o.attempt) ∧
      (o.proceed answer).2 =
        { container := if answer = .ok () then o.container else o.container.deferDelete key
          expired := rest }) := by
  cases answer with
  | ok =>
    refine .inr ⟨fun _ h => (by cases h), ?_⟩
    simp only [Opening.proceed, RetryPolicy.judge, ho, List.tail_cons, if_true]
  | error e =>
    cases e with
    | stopped =>
      refine .inr ⟨fun _ h => (by cases h), ?_⟩
      simp only [Opening.proceed, RetryPolicy.judge, ho, reduceCtorEq, if_false]
    | unavailable reason =>
      by_cases hlast : o.container.retry.maxAttempts ≤ o.attempt
      · refine .inr ⟨fun _ _ => hlast, ?_⟩
        simp only [Opening.proceed, RetryPolicy.judge, if_pos hlast, ho, reduceCtorEq, if_false]
      · refine .inl ⟨reason, rfl, UInt32.not_le.1 hlast, ?_⟩
        simp only [Opening.proceed, RetryPolicy.judge, if_neg hlast]

theorem proceed_cases {o : Opening} (ho : o.expired = key :: rest) (answer : Backend.Answer) :
    (∃ e, answer = .error e ∧ (o.proceed answer).2 = { o with attempt := o.attempt + 1 }) ∨
    (answer = .ok () ∧ (o.proceed answer).2 = { o with expired := rest, attempt := 1 }) ∨
    (∃ e, answer = .error e ∧
      (o.proceed answer).2 = { container := o.container.deferDelete key, expired := rest }) := by
  rcases proceed_spec ho answer with ⟨reason, rfl, -, heq⟩ | ⟨-, heq⟩
  · exact .inl ⟨_, rfl, heq⟩
  · cases answer with
    | ok => exact .inr (.inl ⟨rfl, heq.trans (by rw [if_pos rfl])⟩)
    | error e => exact .inr (.inr ⟨e, rfl, heq.trans (by simp only [reduceCtorEq, if_false])⟩)

theorem request?_of_expired {o : Opening} (h : o.expired = key :: rest) :
    o.request? = some (.delete key) := by
  rw [Opening.request?, h]
  rfl

theorem request?_eq_some {o : Opening} {request : Request} (h : o.request? = some request) :
    ∃ key rest, o.expired = key :: rest ∧ request = .delete key := by
  obtain ⟨key, hkey, rfl⟩ := Option.map_eq_some_iff.1 h
  obtain ⟨rest, hrest⟩ := List.head?_eq_some_iff.1 hkey
  exact ⟨key, rest, hrest, rfl⟩

end Container

theorem Opens.ready {o : Opening} {calls : List (Request × Backend.Answer)} {c : Container}
    {config : Config} (h : Opens o calls c) (ho : Ready config o.container) : Ready config c := by
  induction h with
  | done => exact ho
  | @step o request answer calls c call rest ih =>
    obtain ⟨key, rest, hkey, -⟩ := request?_eq_some call
    rcases proceed_cases hkey answer with ⟨e, -, heq⟩ | ⟨-, heq⟩ | ⟨e, -, heq⟩
    · exact ih (by rw [heq]; exact ho)
    · exact ih (by rw [heq]; exact ho)
    · exact ih (by rw [heq]; exact ho.deferDelete key)

theorem Opens.ready_beginOpen {config : Config} {now : UInt64} {b : Backend}
    {calls : List (Request × Backend.Answer)} {c : Container}
    (h : Opens (beginOpen config now b.scan) calls c) : Ready config c :=
  h.ready (restored_beginOpen config now b.nodup_scan).1.ready

/-- Every container that is opened on a backend begins in order. -/
theorem Container.Ready.sane {config : Config} {c : Container} (hr : Ready config c) :
    (System.start c).Sane 0 := by
  obtain ⟨hjob, hdrain, hbuffer, hheld, hpersistent, hclosed, -⟩ := hr.idle
  refine ⟨⟨hpersistent, fun _ => ⟨hjob, hbuffer⟩, fun p _ => hheld p, ?_, fun _ => hdrain⟩,
    hr.coherent, hr.flow⟩
  intro hne
  exact absurd rfl hne

def sampleContainer : Container :=
  (beginOpen { shards := 4 } 0 ({} : Backend).scan).container

theorem opens_sampleContainer :
    Opens (beginOpen { shards := 4 } 0 ({} : Backend).scan) [] sampleContainer :=
  .done rfl

end DistinctCount
