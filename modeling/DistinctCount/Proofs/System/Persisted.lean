import DistinctCount.Proofs.Backend.Serves
import DistinctCount.Proofs.System.Opening

/-!
A key without unwritten mutations stands in the backend as it does in memory. The invariant is one of
keys, not of sketches: a mutation of any sketch that ever stood under a key makes up for what the
backend has of the key.
-/

namespace DistinctCount

open Container

namespace Container

variable {c c' : Container} {X Y : SketchId → Prop} {key : String} {id : SketchId} {k n : Nat}
  {records records' : String → Option Record} {job : Job} {answer : Backend.Answer}
  {progress : Progress} {notices : List Notice}

/-- Some sketch that stands or stood under a key has unwritten mutations. -/
def Dirty (c : Container) (key : String) : Prop :=
  ∃ id, (c.sketch id).key = key ∧ (c.sketch id).pending ≠ 0

/-- The backend has what is to be had of a key; `X` is said of sketches it may have nothing of. -/
def Stored (X : SketchId → Prop) (c : Container) (record : Option Record) (key : String) : Prop :=
  match c.get? key with
  | none => record = none
  | some id => (∃ r, record = some r ∧ r.Holds (c.sketch id)) ∨
      (c.sketch id).slots = .empty ∧ X id ∧ record = none

def Faithful (X : SketchId → Prop) (c : Container) (records : String → Option Record) : Prop :=
  ∀ key, c.Dirty key ∨ c.Stored X (records key) key

theorem stored_none {record : Option Record} (hget : c.get? key = none) :
    c.Stored X record key ↔ record = none := by
  rw [Stored, hget]

theorem stored_some {record : Option Record} (hget : c.get? key = some id) :
    c.Stored X record key ↔ (∃ r, record = some r ∧ r.Holds (c.sketch id)) ∨
      (c.sketch id).slots = .empty ∧ X id ∧ record = none := by
  rw [Stored, hget]

theorem Coherent.pending_of_not_dirty (hc : c.Coherent n) (hd : ¬ c.Dirty key)
    (hget : c.get? key = some id) : (c.sketch id).pending = 0 := by
  by_contra hne
  exact hd ⟨id, (hc.get?_eq_some.1 hget).2.2, hne⟩

theorem Faithful.mono (hf : c.Faithful X records) (hc : c.Coherent n)
    (hxy : ∀ id, X id → (c.sketch id).pending = 0 → Y id) : c.Faithful Y records := by
  intro key
  by_cases hd : c.Dirty key
  · exact .inl hd
  · have hs := (hf key).resolve_left hd
    refine .inr ?_
    cases hget : c.get? key with
    | none => rwa [stored_none hget] at hs ⊢
    | some id =>
      rw [stored_some hget] at hs ⊢
      exact hs.imp_right fun ⟨he, hx, hr⟩ => ⟨he, hxy id hx (hc.pending_of_not_dirty hd hget), hr⟩

theorem Faithful.congr (hf : c.Faithful X records) (hshards : c'.shards = c.shards)
    (hsketch : ∀ id, c'.sketch id = c.sketch id) : c'.Faithful X records := by
  have hget (key : String) : c'.get? key = c.get? key := by
    rw [Registry.get?, Registry.get?, hshards]
  intro key
  apply (hf key).imp
  · rintro ⟨id, hid⟩
    exact ⟨id, by rwa [hsketch]⟩
  · intro hs
    cases hk : c.get? key with
    | none => rwa [stored_none ((hget key).trans hk), ← stored_none hk]
    | some id => rwa [stored_some ((hget key).trans hk), hsketch, ← stored_some hk]

theorem Change.not_dirty (h : Change k c c') (hc : c.Coherent n) (hd : ¬ c'.Dirty key) :
    ¬ c.Dirty key := by
  rintro ⟨id, hkey, hne⟩
  exact hd ⟨id, (h.revision (lt_next_of_dirty hne)).key.trans hkey, h.dirty hc hne⟩

theorem Change.faithful (h : Change k c c') (hc : c.Coherent n)
    (hx : ∀ id, c.sketches.next ≤ id → X id) (hf : c.Faithful X records) :
    c'.Faithful X records := by
  intro key
  by_cases hd' : c'.Dirty key
  · exact .inl hd'
  · have hc' := h.coherent hc
    have hd := h.not_dirty hc hd'
    have hs := (hf key).resolve_left hd
    -- a live sketch that is still clean was live before and held the same data
    have hsame : ∀ id < c.sketches.next, (c.sketch id).key = key →
        (c'.sketch id).deleted = (c.sketch id).deleted ∧
          (c'.sketch id).expiresAt = (c.sketch id).expiresAt ∧
          (c'.sketch id).slots = (c.sketch id).slots := by
      intro id hid hkey
      have hrev := h.revision hid
      have hp : (c.sketch id).pending = 0 := by
        by_contra hne
        exact hd ⟨id, hkey, hne⟩
      have hp' : (c'.sketch id).pending = 0 := by
        by_contra hne
        exact hd' ⟨id, hrev.key.trans hkey, hne⟩
      obtain ⟨hdel, hexp, hslots, -⟩ := hrev.clean (by rw [hp, hp'])
      exact ⟨hdel, hexp, hslots⟩
    refine .inr ?_
    cases hget' : c'.get? key with
    | none =>
      rw [stored_none hget']
      cases hget : c.get? key with
      | none => exact (stored_none hget).1 hs
      | some id =>
        obtain ⟨hid, hlive, hkey⟩ := hc.get?_eq_some.1 hget
        have hlive' := hc'.get?_eq_some.2 ⟨Nat.lt_of_lt_of_le hid h.next_le,
          (hsame id hid hkey).1.trans hlive, (h.revision hid).key.trans hkey⟩
        rw [hget'] at hlive'
        cases hlive'
    | some id =>
      obtain ⟨hid', hlive', hkey'⟩ := hc'.get?_eq_some.1 hget'
      rw [stored_some hget']
      by_cases hid : id < c.sketches.next
      · have hkey : (c.sketch id).key = key := (h.revision hid).key.symm.trans hkey'
        obtain ⟨hdel, hexp, hslots⟩ := hsame id hid hkey
        have hget := hc.get?_eq_some.2 ⟨hid, hdel.symm.trans hlive', hkey⟩
        apply ((stored_some hget).1 hs).imp
        · rintro ⟨r, hr, hholds⟩
          exact ⟨r, hr, hholds.congr hexp hslots⟩
        · rintro ⟨hempty, hrest⟩
          exact ⟨hslots.trans hempty, hrest⟩
      · obtain ⟨k', expiresAt, hfree, he⟩ := h.fresh (Nat.le_of_not_lt hid) hid'
        have hk : k' = key := by rw [← hkey', he]
        rw [hk] at hfree
        refine .inr ⟨by rw [he], hx id (Nat.le_of_not_lt hid), (stored_none hfree).1 hs⟩

theorem Changes.faithful (h : Changes k c c') (hc : c.Coherent n)
    (hx : ∀ id, c.sketches.next ≤ id → X id) (hf : c.Faithful X records) :
    c'.Faithful X records := by
  induction h with
  | refl => exact hf
  | step first last ih =>
    exact last.faithful (first.coherent hc) (fun id hid => hx id (Nat.le_trans first.next_le hid))
      (ih hc hx hf)

/-- After the delete of its key, what stands in the place of a sketch is to be written again. -/
theorem renewed_dirty (hc : c.Coherent n) (hn : n < 2 ^ 62) (hdeleted : (c.sketch id).deleted = true)
    {current : SketchId} (hget : c.get? (c.sketch id).key = some current) :
    ((c.toWriteBack.renewed id).sketch current).pending ≠ 0 := by
  obtain ⟨made, hlive, -⟩ := hc.get?_eq_some.1 hget
  have hne : current ≠ id := by
    rintro rfl
    exact absurd (hlive.symm.trans hdeleted) (by decide)
  have hsuccessor : c.toRegistry.successor id = some current :=
    Registry.successor_eq_some.2 ⟨hget, hne, hlive⟩
  have hself : ((c.toWriteBack.renewed id).sketch current).pending =
      (c.sketch current).pending + 1 := by
    rw [WriteBack.renewed, hsuccessor]
    dsimp only
    rw [WriteBack.schedule_eq_mutate made (hc.measured current).1 (hc.room hn current),
      WriteBack.toRegistry_mutate, Registry.sketch_modify_self made]
    rfl
  have hadd := Sketch.toInt_pending_add_one (hc.room hn current)
  have hnonneg := (hc.measured current).1
  rw [hself]
  intro hz
  rw [hz, Int64.toInt_zero] at hadd
  change 0 ≤ (c.sketch current).pending.toInt at hnonneg
  omega

theorem Ending.faithful_of_ne {next : Option Job}
    (he : Ending job c.toWriteBack answer c'.toWriteBack next)
    (hkey : key ≠ (c.sketch job.sketch).key) (hc : c.Coherent n) {record : Option Record}
    (hf : c.Dirty key ∨ c.Stored X record key) : c'.Dirty key ∨ c'.Stored X record key := by
  have hsame (id : SketchId) (hid : (c.sketch id).key = key) : c'.sketch id = c.sketch id :=
    (he.sketch id).2.2.2 fun heq => hkey (by rw [← hid, heq])
  have hget : c'.get? key = c.get? key := by
    rw [Registry.get?, Registry.get?, (he.sketch job.sketch).2.2.1]
  apply hf.imp
  · rintro ⟨id, hid, hne⟩
    exact ⟨id, by rwa [hsame id hid], by rwa [hsame id hid]⟩
  · intro hs
    cases hk : c.get? key with
    | none => exact (stored_none (hget.trans hk)).2 ((stored_none hk).1 hs)
    | some id =>
      rw [stored_some (hget.trans hk), hsame id (hc.get?_eq_some.1 hk).2.2]
      exact (stored_some hk).1 hs

theorem Ending.faithful_updated {expiresAt : UInt64} {data : List UInt8}
    (he : Ending job c.toWriteBack (.ok ()) c'.toWriteBack none) (hc : c.Coherent n)
    (hj : job.Sound (c.sketch job.sketch)) (made : job.sketch < c.sketches.next)
    (hstage : job.stage = .update expiresAt data) :
    c'.Dirty job.key ∨ c'.Stored X (some { expiresAt, data }) job.key := by
  have hsame := he.sketch job.sketch
  by_cases hclean : (c'.sketch job.sketch).pending = 0
  · have hdirty : (c.sketch job.sketch).pending ≠ 0 := by
      intro hz
      have hle := hj.le
      have hpos := hj.pos
      rw [hz, Int64.toInt_zero] at hle
      omega
    obtain ⟨-, hall⟩ := he.clean made hdirty hclean
    obtain ⟨hlive, hexpires, hbytes⟩ := hj.current expiresAt data hstage hall
    have hget : c'.get? job.key = some job.sketch := by
      rw [Registry.get?, hsame.2.2.1]
      exact hc.get?_eq_some.2 ⟨made, hlive, hj.key.symm⟩
    refine .inr ((stored_some hget).2 (.inl ⟨_, rfl, ?_⟩))
    have hholds : Record.Holds { expiresAt, data } (c.sketch job.sketch) :=
      ⟨hexpires.symm, _, hbytes ▸ (hc.valid _ made).decode_toBytes, rfl⟩
    exact hholds.congr (by rw [hsame.1]) (by rw [hsame.1])
  · exact .inl ⟨job.sketch, by rw [hsame.1]; exact hj.key.symm, hclean⟩

/-- The state of a key after a delete of it, by a sketch that has left the key. -/
theorem Ending.faithful_erased {w : WriteBack} {next : Option Job}
    (he : Ending job w answer c'.toWriteBack next) (hw : w = c.toWriteBack.renewed job.sketch)
    (hshards : w.shards = c.shards) (hc : c.Coherent n) (hn : n < 2 ^ 62)
    (hj : job.Sound (c.sketch job.sketch)) (hdeleted : (c.sketch job.sketch).deleted = true)
    (hkeys : ∀ id < c.sketches.next, (w.sketch id).key = (c.sketch id).key) :
    c'.Dirty job.key ∨ c'.Stored X none job.key := by
  cases hget' : c'.get? job.key with
  | none => exact .inr ((stored_none hget').2 rfl)
  | some current =>
    have hget : c.get? (c.sketch job.sketch).key = some current := by
      rw [← hj.key, ← hget', Registry.get?, Registry.get?, (he.sketch current).2.2.1, hshards]
    obtain ⟨made, hlive, hkey⟩ := hc.get?_eq_some.1 hget
    have hne : current ≠ job.sketch := by
      rintro rfl
      exact absurd (hlive.symm.trans hdeleted) (by decide)
    have hsame := (he.sketch current).2.2.2 hne
    refine .inl ⟨current, ?_, ?_⟩
    · rw [hsame, hkeys current made, hkey, hj.key]
    · rw [hsame, hw]
      exact renewed_dirty hc hn hdeleted hget

/-- What the backend has of the keys, and of a key that is being flushed after its delete. -/
structure Persisted (X : SketchId → Prop) (c : Container) (records : String → Option Record) :
    Prop where
  faithful : c.Faithful X records
  flushing : ∀ job ∈ c.jobs, ∀ waiters, job.stage = .flush waiters → records job.key = none

theorem after_request_of_ne (hkey : key ≠ job.key) :
    Backend.after job.request records key = records key := by
  unfold Job.request
  split
  · exact if_neg hkey
  · exact if_neg hkey
  · rfl

theorem Persisted.answered_error {e : BackendError} (hp : c.Persisted X records)
    (hc : c.Coherent n) (hn : n < 2 ^ 62) (hx : ∀ id, c.sketches.next ≤ id → X id)
    (hand : c.jobs = [job])
    (outcome : WriteBack.Outcome c.toWriteBack job (.error e) c'.toWriteBack progress notices)
    (hjobs : c'.jobs = progress.job?.toList) : c'.Persisted X records := by
  obtain ⟨k, -, w, changes, ending⟩ := ending_of_outcome hc hn outcome
  have hfaithful := changes.faithful hc hx hp.faithful
  refine ⟨hfaithful.congr (ending.sketch job.sketch).2.2.1 ending.sketch_of_error, ?_⟩
  intro job' hj' waiters hstage
  rw [hjobs, Option.mem_toList] at hj'
  obtain ⟨-, hkey, -, ⟨hsame, -⟩ | ⟨hok, -⟩⟩ := outcome.onward hj'
  · rw [hkey]
    exact hp.flushing job (by rw [hand]; exact List.mem_singleton.2 rfl) waiters
      (hsame.symm.trans hstage)
  · cases hok

theorem Persisted.faithful_after {m : Nat} {w : WriteBack} {next : Option Job}
    (hp : c.Persisted X records) (hc : c.Coherent n) (hx : ∀ id, c.sketches.next ≤ id → X id)
    (hj : job.Sound (c.sketch job.sketch)) (made : job.sketch < c.sketches.next)
    (changes : Changes m c { c with toWriteBack := w })
    (ending : Ending job w answer c'.toWriteBack next)
    (hjob : c'.Dirty job.key ∨ c'.Stored X (Backend.after job.request records job.key) job.key) :
    c'.Faithful X (Backend.after job.request records) := by
  intro key
  by_cases hkey : key = job.key
  · rwa [hkey]
  · have hkey' : key ≠ (w.sketch job.sketch).key := by
      have hrev : (w.sketch job.sketch).key = (c.sketch job.sketch).key :=
        (changes.revision made).key
      rwa [hrev, ← hj.key]
    rw [after_request_of_ne hkey]
    exact Ending.faithful_of_ne (c := { c with toWriteBack := w }) ending hkey'
      (changes.coherent hc) (changes.faithful hc hx hp.faithful key)

/-- A delete has ended without a flush after it, or with its flush. -/
theorem Persisted.erased (hp : c.Persisted X records) (hc : c.Coherent n) (hn : n < 2 ^ 62)
    (hx : ∀ id, c.sketches.next ≤ id → X id) (hj : job.Sound (c.sketch job.sketch))
    (made : job.sketch < c.sketches.next) (hdeleted : (c.sketch job.sketch).deleted = true)
    (hafter : Backend.after job.request records job.key = none)
    (ending : Ending job (c.toWriteBack.renewed job.sketch) (.ok ()) c'.toWriteBack none)
    (hjobs : c'.jobs = []) : c'.Persisted X (Backend.after job.request records) := by
  obtain ⟨m, -, hrenewed⟩ := changes_renewed hc hn job.sketch
  refine ⟨hp.faithful_after hc hx hj made hrenewed ending ?_, ?_⟩
  · rw [hafter]
    exact ending.faithful_erased rfl (WriteBack.shards_renewed _ _) hc hn hj hdeleted
      fun id hid => (hrenewed.revision hid).key
  · intro job' hj'
    rw [hjobs] at hj'
    cases hj'

theorem Persisted.answered_ok (hp : c.Persisted X records)
    (hc : c.Coherent n) (hn : n < 2 ^ 62) (hf : c.Flow) (hx : ∀ id, c.sketches.next ≤ id → X id)
    (hand : c.jobs = [job])
    (outcome : WriteBack.Outcome c.toWriteBack job (.ok ()) c'.toWriteBack progress notices)
    (hjobs : c'.jobs = progress.job?.toList) :
    c'.Persisted X (Backend.after job.request records) := by
  obtain ⟨-, hj, made, hdirty⟩ := hf.in_hand hand
  generalize hw' : c'.toWriteBack = w' at outcome
  cases outcome with
  | flush stage waiting =>
    have hafter : Backend.after job.request records job.key = none := by
      rw [Job.request, stage]
      exact if_pos rfl
    have hdismissed := changes_dismissed c job.sketch
    have hending : Ending job (c.toWriteBack.dismissed job.sketch) (.ok ()) c'.toWriteBack (some job) :=
      hw' ▸ .onward job rfl fun _ h => h
    have hself : Sketch.Revision 0 (c.sketch job.sketch) (c'.sketch job.sketch) := by
      rw [hw']
      exact hdismissed.revision made
    refine ⟨hp.faithful_after hc hx hj made hdismissed hending
      (.inl ⟨job.sketch, hself.key.trans hj.key.symm, ?_⟩), ?_⟩
    · have hpos := hj.pos
      have hle := hj.le
      have hmono := hself.pending
      intro hz
      rw [hz, Int64.toInt_zero] at hmono
      omega
    · intro job' hj' waiters _
      rw [hjobs] at hj'
      obtain rfl := List.mem_singleton.1 hj'
      exact hafter
  | updated expiresAt data stage =>
    have hending : Ending job c.toWriteBack (.ok ()) c'.toWriteBack none := hw' ▸ .flushed
    refine ⟨hp.faithful_after hc hx hj made (.refl c) hending ?_, ?_⟩
    · rw [Job.request, stage]
      dsimp only [Backend.after]
      rw [if_pos rfl]
      exact hending.faithful_updated hc hj made stage
    · intro job' hj'
      rw [hjobs] at hj'
      cases hj'
  | deleted stage alone =>
    have hafter : Backend.after job.request records job.key = none := by
      rw [Job.request, stage]
      exact if_pos rfl
    exact hp.erased hc hn hx hj made (hj.deleted (by simp [stage])) hafter (hw' ▸ .flushed) hjobs
  | confirmed waiters stage =>
    have hafter : Backend.after job.request records job.key = none := by
      rw [Job.request, stage]
      exact hp.flushing job (by rw [hand]; exact List.mem_singleton.2 rfl) waiters stage
    exact hp.erased hc hn hx hj made (hj.deleted (by simp [stage])) hafter (hw' ▸ .flushed) hjobs

theorem Persisted.congr (hp : c.Persisted X records) (still : Still c c')
    (hjobs : ∀ job ∈ c'.jobs, ∀ waiters, job.stage = .flush waiters → job ∈ c.jobs) :
    c'.Persisted X records where
  faithful := hp.faithful.congr (congrArg Registry.shards still.registry) fun id => by
    rw [still.registry]
  flushing := fun job hj waiters hstage =>
    hp.flushing job (hjobs job hj waiters hstage) waiters hstage

/-- No move makes the backend lose what is not to be written again. -/
theorem Move.persisted {answered : Option (Job × Backend.Answer)} (h : Move c answered c')
    (hp : c.Persisted X records) (hc : c.Coherent n) (hn : n < 2 ^ 62) (hf : c.Flow)
    (hx : ∀ id, c.sketches.next ≤ id → X id) :
    c'.Persisted X (Backend.recorded (answered.map fun (job, answer) => (job.request, answer))
      records) := by
  cases h with
  | client changes =>
    obtain ⟨-, -, -, -, -, hjob, hdrain⟩ := changes.frame
    refine ⟨changes.faithful hc hx hp.faithful, ?_⟩
    rw [jobs, hjob, hdrain]
    exact hp.flushing
  | carry still jobs => exact hp.congr still (jobs ▸ fun job hj _ _ => hj)
  | start id still idle jobs =>
    apply hp.congr still
    intro job hj waiters hstage
    rw [jobs, List.mem_singleton] at hj
    rw [hj] at hstage
    exact absurd hstage (WriteBack.begin_ne_flush _ _ _)
  | answer job answer hand writeBack jobs =>
    have outcome := WriteBack.outcome_proceed c.toWriteBack job answer
    rw [← writeBack] at outcome
    cases answer with
    | ok => exact hp.answered_ok hc hn hf hx hand outcome jobs
    | error e => exact hp.answered_error hc hn hx hand outcome jobs

end Container

end DistinctCount
