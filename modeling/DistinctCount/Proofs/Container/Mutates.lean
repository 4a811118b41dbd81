import DistinctCount.Proofs.Container.Batch
import DistinctCount.Proofs.System.Move
import DistinctCount.Proofs.WriteBack.Enqueues

namespace DistinctCount

/-- A sketch has `n` mutations more, and has kept what a write of it relies on. -/
structure Sketch.Gains (n : Nat) (s s' : Sketch) : Prop where
  key : s'.key = s.key
  shard : s'.shard = s.shard
  deleted : s.deleted = true → s'.deleted = true
  waiters : s.waiters <+: s'.waiters
  pending : s'.pending.toInt = s.pending.toInt + n

namespace Sketch

variable {s s' s'' : Sketch} {n m : Nat}

theorem Gains.refl (s : Sketch) : Gains 0 s s :=
  ⟨rfl, rfl, id, List.prefix_rfl, (Int.add_zero _).symm⟩

theorem Gains.of_eq (h : s' = s) : Gains 0 s s' :=
  h ▸ .refl s

theorem Gains.trans (h : Gains n s s') (h' : Gains m s' s'') : Gains (n + m) s s'' where
  key := h'.key.trans h.key
  shard := h'.shard.trans h.shard
  deleted := h'.deleted ∘ h.deleted
  waiters := h.waiters.trans h'.waiters
  pending := by
    rw [h'.pending, h.pending]
    push_cast
    omega

theorem gains_markDirty (hroom : s.pending.toInt + 1 < 2 ^ 63) : Gains 1 s s.markDirty :=
  ⟨rfl, rfl, id, List.prefix_rfl, toInt_pending_add_one (by omega)⟩

theorem gains_absorb (family : Hash.Family) (values : List (List UInt8))
    (hroom : s.pending.toInt + s.raisings (hashesOf family values) < 2 ^ 63) :
    Gains (s.raisings (hashesOf family values)) s (s.absorb family values) := by
  obtain ⟨hkey, hshard⟩ := s.absorb_core family values
  obtain ⟨hdeleted, -, hwaiters, -⟩ := s.absorb_frame family values
  refine ⟨hkey, hshard, fun h => hdeleted.trans h, hwaiters ▸ List.prefix_rfl, ?_⟩
  rw [absorb_eq_addHashes]
  exact pending_addHashes hroom

end Sketch

namespace Container

variable {c c' c'' : Container} {id other : SketchId} {count count' : SketchId → Nat} {key : String}
  {bucket : Option UInt64}

structure Underway (c : Container) (id : SketchId) : Prop where
  made : id < c.sketches.next
  dirty : 0 < (c.sketch id).pending.toInt
  hand : id ∈ c.jobs.map (·.sketch)

structure Idle (c c' : Container) : Prop where
  next : c.sketches.next ≤ c'.sketches.next
  savers : c'.savers = c.savers
  channel : c'.channel = c.channel
  job : c'.job = c.job
  drain : c'.drain = c.drain
  persistent : c'.persistent = c.persistent
  config : c'.config = c.config
  retry : c'.retry = c.retry

/-- A sketch that is being written has `n` mutations more and is not among those pushed. -/
structure Spared (id : SketchId) (n : Nat) (c c' : Container) (log : Pushes) : Prop where
  gains : (c.sketch id).Gains n (c'.sketch id)
  unlogged : id ∉ log.sketches

/-- A change that pushes sketches and counts mutations of those that are being written. -/
structure Mutates (count : SketchId → Nat) (c c' : Container) : Prop where
  idle : Idle c c'
  pushes : ∃ log, c.toWriteBack.Enqueues log c'.toWriteBack ∧ ∀ id, c.Underway id →
    (c.sketch id).pending.toInt + count id < 2 ^ 63 → Spared id (count id) c c' log

theorem Idle.trans (h : Idle c c') (h' : Idle c' c'') : Idle c c'' :=
  ⟨Nat.le_trans h.next h'.next, h'.savers.trans h.savers, h'.channel.trans h.channel,
    h'.job.trans h.job, h'.drain.trans h.drain, h'.persistent.trans h.persistent,
    h'.config.trans h.config, h'.retry.trans h.retry⟩

theorem Idle.jobs (h : Idle c c') : c'.jobs = c.jobs := by
  rw [Container.jobs, Container.jobs, h.job, h.drain]

theorem Spared.underway {log : Pushes} {n : Nat} (h : Spared id n c c' log) (hidle : Idle c c')
    (hid : c.Underway id) : c'.Underway id := by
  have hgrown := h.gains.pending
  have hdirty := hid.dirty
  exact ⟨Nat.lt_of_lt_of_le hid.made hidle.next, by omega, hidle.jobs ▸ hid.hand⟩

theorem Mutates.trans (h : Mutates count c c') (h' : Mutates count' c' c'') :
    Mutates (fun id => count id + count' id) c c'' := by
  obtain ⟨log, hlog, hspared⟩ := h.pushes
  obtain ⟨log', hlog', hspared'⟩ := h'.pushes
  refine ⟨h.idle.trans h'.idle, log ++ log', hlog.trans hlog', ?_⟩
  intro id hid hroom
  push_cast at hroom
  have hfirst := hspared id hid (by omega)
  have hgrown := hfirst.gains.pending
  have hrest := hspared' id (hfirst.underway h.idle hid) (by omega)
  refine ⟨hfirst.gains.trans hrest.gains, ?_⟩
  rw [Pushes.sketches_append, List.mem_append]
  exact not_or.2 ⟨hfirst.unlogged, hrest.unlogged⟩

theorem Mutates.congr (h : Mutates count c c') (hcount : ∀ id, c.Underway id → count' id = count id) :
    Mutates count' c c' := by
  obtain ⟨log, hlog, hspared⟩ := h.pushes
  refine ⟨h.idle, log, hlog, fun id hid hroom => ?_⟩
  rw [hcount id hid] at hroom ⊢
  exact hspared id hid hroom

theorem Mutates.quiet (hnext : c.sketches.next ≤ c'.sketches.next)
    (hgains : ∀ id, c.Underway id → (c.sketch id).Gains 0 (c'.sketch id))
    (hframe : c' = { c with
      toRegistry := c'.toRegistry, expiry := c'.expiry, closed := c'.closed
      stopping := c'.stopping, nextTicket := c'.nextTicket, notices := c'.notices }) :
    Mutates (fun _ => 0) c c' := by
  refine ⟨?_, [], .still ?_, fun id hid _ => ⟨hgains id hid, List.not_mem_nil⟩⟩
  · rw [hframe] at hnext ⊢
    exact ⟨hnext, rfl, rfl, rfl, rfl, rfl, rfl, rfl⟩
  · rw [hframe]

theorem Mutates.modify {f : Sketch → Sketch} (hregistry : c'.toRegistry = c.toRegistry.modify id f)
    (hgains : c.Underway id → (c.sketch id).Gains 0 (f (c.sketch id)))
    (hframe : c' = { c with
      toRegistry := c'.toRegistry, expiry := c'.expiry, closed := c'.closed
      stopping := c'.stopping, nextTicket := c'.nextTicket, notices := c'.notices }) :
    Mutates (fun _ => 0) c c' := by
  refine .quiet (Nat.le_of_eq (by rw [hregistry, Registry.next_modify])) (fun other hother => ?_) hframe
  rw [hregistry]
  by_cases hid : other = id
  · obtain rfl := hid
    rw [Registry.sketch_modify_self hother.made]
    exact hgains hother
  · rw [Registry.sketch_modify_of_ne hid]
    exact .refl _

theorem mutates_refl (c : Container) : Mutates (fun _ => 0) c c :=
  .quiet (Nat.le_refl _) (fun _ _ => .refl _) rfl

theorem Mutates.after (h : Mutates (fun _ => 0) c c') (h' : Mutates count c' c'') :
    Mutates count c c'' :=
  (h.trans h').congr fun _ _ => (Nat.zero_add _).symm

/-- The mutation of a sketch pushes no sketch that is being written. -/
theorem mutates_schedule (c : Container) (id : SketchId) :
    Mutates (fun other => if other = id then 1 else 0) c (c.alter (·.schedule id)) := by
  have hregistry : (c.alter (·.schedule id)).toRegistry = c.toRegistry.modify id Sketch.markDirty :=
    WriteBack.toRegistry_schedule c.toWriteBack id
  have hretry : (c.alter (·.schedule id)).retry = c.retry := WriteBack.retry_schedule c.toWriteBack id
  refine ⟨⟨?_, rfl, rfl, rfl, rfl, rfl, rfl, hretry⟩, _,
    WriteBack.enqueues_schedule c.toWriteBack id, ?_⟩
  · rw [hregistry, Registry.next_modify]
  · intro other hother hroom
    have hgains : (c.sketch other).Gains (if other = id then 1 else 0)
        ((c.alter (·.schedule id)).sketch other) := by
      rw [hregistry]
      split
      · rename_i hid
        obtain rfl := hid
        rw [if_pos rfl] at hroom
        rw [Registry.sketch_modify_self hother.made]
        exact Sketch.gains_markDirty hroom
      · rename_i hid
        rw [Registry.sketch_modify_of_ne hid]
        exact .refl _
    refine ⟨hgains, ?_⟩
    split
    · rename_i hone
      intro hmem
      obtain rfl := List.mem_singleton.1 hmem
      have hgrown := hgains.pending
      have hself : (c.alter (·.schedule other)).sketch other =
          (c.toWriteBack.edit other Sketch.markDirty).sketch other := by rw [hregistry]; rfl
      have hdirty := hother.dirty
      rw [hself, hone, if_pos rfl, Int64.toInt_one] at hgrown
      omega
    · exact List.not_mem_nil

/-- Values that are counted in a sketch are as many mutations as slots are raised. -/
theorem mutates_addMany_self (c : Container) (id : SketchId) (values : List (List UInt8)) (d : Bool)
    (hd : id < c.sketches.next → d = (c.sketch id).wakes (Sketch.hashesOf c.config.hashing values)) :
    Mutates (fun other => if other = id then
        (c.sketch id).raisings (Sketch.hashesOf c.config.hashing values) else 0) c
      ((c.alter (·.edit id (·.absorb c.config.hashing values))).enqueueDirty id d) := by
  let c₁ := c.alter (·.edit id (·.absorb c.config.hashing values))
  have hregistry : (c₁.enqueueDirty id d).toRegistry =
      c.toRegistry.modify id (·.absorb c.config.hashing values) := toRegistry_enqueueDirty c₁ id d
  have hlog : c.toWriteBack.Enqueues
      (if d && c.persistent then [(partitionOf (c₁.sketch id).shard, id)] else [])
      (c₁.enqueueDirty id d).toWriteBack := by
    have hpersistent : c₁.persistent = c.persistent := rfl
    rw [enqueueDirty, hpersistent]
    split
    · exact (WriteBack.enqueues_edit c.toWriteBack id _).trans (.push _ id)
    · exact WriteBack.enqueues_edit c.toWriteBack id _
  refine ⟨?_, _, hlog, ?_⟩
  · refine ⟨by rw [hregistry, Registry.next_modify], ?_, ?_, ?_, ?_, ?_, ?_, ?_⟩ <;>
      (unfold enqueueDirty; split <;> rfl)
  · intro other hother hroom
    have hgains : (c.sketch other).Gains
        (if other = id then (c.sketch id).raisings (Sketch.hashesOf c.config.hashing values) else 0)
        ((c₁.enqueueDirty id d).sketch other) := by
      rw [hregistry]
      split
      · rename_i hid
        obtain rfl := hid
        rw [if_pos rfl] at hroom
        rw [Registry.sketch_modify_self hother.made]
        exact Sketch.gains_absorb _ _ hroom
      · rename_i hid
        rw [Registry.sketch_modify_of_ne hid]
        exact .refl _
    refine ⟨hgains, ?_⟩
    split
    · rename_i hpushed
      intro hmem
      obtain rfl := List.mem_singleton.1 hmem
      rw [if_pos rfl] at hroom
      rw [hd hother.made, Sketch.wakes_of_dirty hother.dirty hroom] at hpushed
      cases hpushed
    · exact List.not_mem_nil

/-! ### Clients -/

theorem gains_unwritten (s : Sketch) (bucket : Option UInt64) (expiresAt : UInt64) :
    s.Gains 0 { s with bucket, expiresAt } :=
  ⟨rfl, rfl, id, List.prefix_rfl, (Int.add_zero _).symm⟩

theorem gains_dead (s : Sketch) (bucket : Option UInt64) :
    s.Gains 0 { s with deleted := true, bucket } :=
  ⟨rfl, rfl, fun _ => rfl, List.prefix_rfl, (Int.add_zero _).symm⟩

theorem sketch_moveEntry_of_ne (hne : other ≠ id) :
    (c.moveEntry id bucket).sketch other = c.sketch other := by
  unfold moveEntry
  dsimp only
  split
  · rfl
  · exact Registry.sketch_modify_of_ne hne

theorem mutates_moveEntry (c : Container) (id : SketchId) (bucket : Option UInt64) :
    Mutates (fun _ => 0) c (c.moveEntry id bucket) := by
  have hframe := frame_moveEntry c id bucket
  refine .quiet (Nat.le_of_eq next_moveEntry.symm) (fun other hother => ?_) ?_
  · by_cases hid : other = id
    · obtain rfl := hid
      rw [sketch_moveEntry _ _ hother.made, if_pos rfl]
      exact gains_unwritten _ _ _
    · rw [sketch_moveEntry_of_ne hid]
      exact .refl _
  · rw [hframe]

theorem mutates_registerExpiry (c : Container) (id : SketchId) :
    Mutates (fun _ => 0) c (c.registerExpiry id) := by
  unfold registerExpiry
  dsimp only
  split
  · exact mutates_refl c
  · exact .modify rfl (fun _ => gains_unwritten _ _ _) rfl

theorem mutates_adopt (c : Container) (s : Sketch) : Mutates (fun _ => 0) c (c.adopt s) := by
  refine .quiet (by rw [next_adopt]; exact Nat.le_succ _) (fun id hid => .of_eq ?_) rfl
  rw [sketch_adopt, if_neg (Nat.ne_of_lt hid.made)]

theorem mutates_addMany (c : Container) (now : UInt64) (key : String) (values : List (List UInt8))
    (ttl : UInt64) :
    Mutates (fun id => if c.get? key = some id then
        (c.sketch id).raisings (Sketch.hashesOf c.config.hashing values) else 0) c
      (c.addMany now key values ttl) := by
  have hself (id : SketchId) (c' : Container) (hcreate : c.getOrCreate now key ttl = (id, c')) :
      Mutates (fun other => if other = id then
          (c'.sketch id).raisings (Sketch.hashesOf c'.config.hashing values) else 0) c'
        (c.addMany now key values ttl) := by
    have hsnd := snd_count_foldl c' id false values
    rw [addMany, hcreate]
    dsimp only at hsnd ⊢
    generalize hfold : List.foldl _ (false, c') values = result at hsnd ⊢
    rw [hsnd]
    refine mutates_addMany_self c' id values result.1 fun made => ?_
    have hone := foldl_count c' made false values
    dsimp only at hone
    rw [hfold] at hone
    exact (congrArg Prod.fst hone).trans (Bool.false_or _)
  cases hget : c.get? key with
  | some id =>
    refine (hself id c (getOrCreate_of_get? hget now ttl)).congr fun other _ => ?_
    by_cases hother : other = id
    · rw [hother, if_pos rfl, if_pos rfl]
    · rw [if_neg hother, if_neg fun h => hother (Option.some.inj h).symm]
  | none =>
    have hcreate := getOrCreate_of_none hget now ttl
    have hmade := (mutates_adopt c _).after (mutates_registerExpiry (c.adopt
      { key, shard := c.shardOf key, expiresAt := expiryAfter now ttl }) c.sketches.next)
    refine (hmade.after (hself _ _ hcreate)).congr fun other hother => ?_
    rw [if_neg (Option.some_ne_none _).symm, if_neg (Nat.ne_of_lt hother.made)]

theorem mutates_schedule_if (c : Container) (id : SketchId) :
    Mutates (fun other => if other = id ∧ c.persistent = true then 1 else 0) c
      (if c.persistent then c.alter (·.schedule id) else c) := by
  cases hp : c.persistent with
  | true =>
    refine (mutates_schedule c id).congr fun other _ => ?_
    simp only [and_true]
  | false =>
    refine (mutates_refl c).congr fun other _ => ?_
    simp only [Bool.false_eq_true, and_false, if_false]

theorem mutates_updateExpiry (c : Container) (now : UInt64) (key : String) (ttl : UInt64) :
    Mutates (fun id => if c.get? key = some id ∧ (c.sketch id).deleted = false ∧
        c.persistent = true then 1 else 0) c (c.updateExpiry now key ttl).2 := by
  unfold updateExpiry
  cases hget : c.get? key with
  | none => exact (mutates_refl c).congr fun id _ => if_neg fun h => (by cases h.1)
  | some id =>
    dsimp only
    split
    · rename_i hdead
      refine (mutates_refl c).congr fun other _ => if_neg ?_
      rintro ⟨hsame, hlive, -⟩
      obtain rfl := Option.some.inj hsame
      rw [hdead] at hlive
      cases hlive
    · rename_i hlive
      have hrenew : Mutates (fun _ => 0) c
          (c.alter (·.edit id fun s => { s with expiresAt := expiryAfter now ttl })) :=
        .modify rfl (fun _ => gains_unwritten _ _ _) rfl
      have hmove := hrenew.after (mutates_moveEntry _ id
        (if expiryAfter now ttl = 0 then none else some (Expiry.bucketOf (expiryAfter now ttl))))
      have hpersistent := hmove.idle.persistent
      refine (hmove.after (mutates_schedule_if _ id)).congr fun other _ => ?_
      rw [hpersistent]
      simp only [Option.some.injEq, eq_comm (a := id)]
      by_cases hother : other = id
      · simp [hother, hlive]
      · simp [hother]

theorem mutates_markDeleted (c : Container) (id : SketchId) :
    Mutates (fun _ => 0) c (c.markDeleted id) := by
  have hdie : Mutates (fun _ => 0) (c.moveEntry id none) (c.markDeleted id) :=
    .modify (f := fun s => { s with deleted := true }) rfl (fun _ => gains_dead _ _) rfl
  exact (mutates_moveEntry c id none).after hdie

theorem mutates_awaiting (c : Container) (id : SketchId) (ticket : Ticket) :
    Mutates (fun _ => 0) c (awaiting id ticket c).2 := by
  unfold awaiting
  dsimp only
  split
  · exact mutates_refl c
  · rename_i hout
    refine .quiet (Nat.le_of_eq Registry.next_modify.symm) (fun other hother => .of_eq ?_) rfl
    have hne : other ≠ id := by
      rintro rfl
      exact hout (inPipeline_iff.2 (List.mem_append_right _ hother.hand))
    exact Registry.sketch_modify_of_ne hne

theorem mutates_beginDelete (c : Container) (key : String) :
    Mutates (fun id => if c.get? key = some id ∧ c.closed = false ∧ c.persistent = true
        then 1 else 0) c (c.beginDelete key).2 := by
  cases hopen : c.persistent && c.closed with
  | true =>
    rw [beginDelete_refused hopen]
    refine (mutates_refl c).congr fun id _ => if_neg ?_
    rintro ⟨-, hclosed, -⟩
    rw [hclosed, Bool.and_false] at hopen
    cases hopen
  | false =>
    cases hget : c.get? key with
    | none =>
      rw [beginDelete_unknown hopen hget]
      exact (mutates_refl c).congr fun id _ => if_neg fun h => (by cases h.1)
    | some id =>
      have hleave : Mutates (fun _ => 0) c (c.without (c.shardOf key) key) :=
        .quiet (Nat.le_refl _) (fun _ _ => .refl _) rfl
      have hmark := hleave.after (mutates_markDeleted _ id)
      cases hp : c.persistent with
      | true =>
        rw [hp, Bool.true_and] at hopen
        let d := (c.without (c.shardOf key) key).markDeleted id
        rw [beginDelete_eq hp hopen hget rfl]
        have hticket : Mutates (fun _ => 0) d ({ d with nextTicket := d.nextTicket + 1 }.alter
            (·.edit id fun s => { s with waiters := s.waiters ++ [d.nextTicket] })) :=
          .modify rfl (fun _ =>
            ⟨rfl, rfl, fun h => h, List.prefix_append _ _, (Int.add_zero _).symm⟩) rfl
        have hwait := (hmark.after hticket).after (mutates_schedule _ id)
        refine (hwait.trans (mutates_awaiting _ id d.nextTicket)).congr fun other _ => ?_
        simp only [Option.some.injEq, hopen, and_true, eq_comm (a := id), Nat.add_zero]
      | false =>
        have hdelete : c.beginDelete key =
            (.removed, (c.without (c.shardOf key) key).markDeleted id) := by
          have hremove : c.toRegistry.remove (c.shardOf key) key =
              (some id, (c.toRegistry.remove (c.shardOf key) key).2) := Prod.ext hget rfl
          have hpd := (persistent_markDeleted (c.without (c.shardOf key) key) id).trans hp
          unfold beginDelete
          rw [hopen, if_neg Bool.false_ne_true, hremove]
          dsimp only
          rw [← without, hpd]
          rfl
        rw [hdelete]
        exact hmark.congr fun other _ => if_neg fun h => (by cases h.2.2)

/-! ### Sweeps -/

/-- The mutations of a sketch by evictions: it is one if the sketch has died. -/
def deaths (c c' : Container) (id : SketchId) : Nat :=
  if (c.sketch id).deleted = false ∧ (c'.sketch id).deleted = true ∧ c.persistent = true then 1 else 0

structure Culls (c c' : Container) : Prop where
  mutates : Mutates (deaths c c') c c'
  dead : ∀ id, (c.sketch id).deleted = true → (c'.sketch id).deleted = true

theorem culls_refl (c : Container) : Culls c c := by
  refine ⟨(mutates_refl c).congr fun id _ => if_neg ?_, fun _ h => h⟩
  rintro ⟨hlive, hdead, -⟩
  rw [hlive] at hdead
  cases hdead

theorem Culls.trans (h : Culls c c') (h' : Culls c' c'') : Culls c c'' := by
  refine ⟨(h.mutates.trans h'.mutates).congr fun id _ => ?_, fun id hid => h'.dead id (h.dead id hid)⟩
  have hfirst := h.dead id
  have hrest := h'.dead id
  rw [deaths, deaths, deaths, h.mutates.idle.persistent]
  cases hd : (c.sketch id).deleted <;> cases hd' : (c'.sketch id).deleted <;>
    cases hd'' : (c''.sketch id).deleted <;> simp_all

theorem culls_evict (c : Container) (b : UInt64) (key : String) (entry : Entry) :
    Culls c (c.evict b key entry).2 := by
  by_cases hguard : ((c.sketch entry.sketch).deleted ||
      decide ((c.sketch entry.sketch).bucket ≠ some b)) = true
  · have hstay : c.evict b key entry = (0, c) := if_pos hguard
    rw [hstay]
    exact culls_refl c
  · have hkept := kept_evict_rest Sketch.deleted (fun _ => rfl) c key hguard
    let f : Sketch → Sketch := fun s => { s with deleted := true, bucket := none }
    let c₁ := { c.alter (·.edit entry.sketch f) with toRegistry :=
      ((c.alter (·.edit entry.sketch f)).toRegistry.removeIfSame entry.shard key entry.sketch).2 }
    have hevict : (c.evict b key entry).2 =
        if c₁.persistent then c₁.alter (·.schedule entry.sketch) else c₁ := by
      unfold evict
      dsimp only
      rw [if_neg hguard]
    have hdie : Mutates (fun _ => 0) c (c.alter (·.edit entry.sketch f)) :=
      .modify rfl (fun _ => gains_dead _ _) rfl
    have hsame : Registry.Kept (fun s => s) (c.alter (·.edit entry.sketch f)).toRegistry
        c₁.toRegistry := Registry.kept_removeIfSame _ _ _ _
    have hleave : Mutates (fun _ => 0) (c.alter (·.edit entry.sketch f)) c₁ :=
      .quiet (Nat.le_of_eq hsame.next.symm) (fun id _ => .of_eq (hsame.sketch id)) rfl
    have hall := (hdie.after hleave).after (mutates_schedule_if c₁ entry.sketch)
    rw [← hevict] at hall
    have hdead (id : SketchId) : ((c.evict b key entry).2.sketch id).deleted =
        ((c.toRegistry.modify entry.sketch f).sketch id).deleted := hkept.sketch id
    refine ⟨hall.congr fun id hid => ?_, fun id hid => ?_⟩
    · have hpersistent : c₁.persistent = c.persistent := rfl
      rw [deaths, hdead, hpersistent]
      by_cases hsketch : id = entry.sketch
      · obtain rfl := hsketch
        have hlive : (c.sketch entry.sketch).deleted = false := by
          by_contra hd
          exact hguard (by simp [hd])
        rw [Registry.sketch_modify_self hid.made]
        simp [hlive, f]
      · rw [Registry.sketch_modify_of_ne hsketch]
        cases hd : (c.sketch id).deleted <;> simp [hsketch]
    · rw [hdead, Registry.sketch_modify]
      split
      · rfl
      · exact hid

theorem culls_foldl {σ : Type} {f : Nat × Container → σ → Nat × Container}
    (hf : ∀ n c x, Culls c (f (n, c) x).2) (xs : List σ) (n : Nat) (c : Container) :
    Culls c (xs.foldl f (n, c)).2 := by
  induction xs generalizing n c with
  | nil => exact culls_refl c
  | cons x xs ih => exact (hf n c x).trans (ih _ _)

theorem culls_sweepBucket (c : Container) (b : UInt64) : Culls c (c.sweepBucket b).2 := by
  unfold sweepBucket
  split
  · exact culls_refl c
  · rename_i entries expiry heq
    have hdetach : Culls c { c with expiry } := by
      refine ⟨?_, fun _ h => h⟩
      have hquiet : Mutates (fun _ => 0) c { c with expiry } :=
        .quiet (Nat.le_refl _) (fun _ _ => .refl _) rfl
      refine hquiet.congr fun id _ => if_neg ?_
      rintro ⟨hlive, hdead, -⟩
      exact absurd (hlive.symm.trans hdead) (by decide)
    refine hdetach.trans (culls_foldl ?_ _ 0 { c with expiry })
    rintro n c ⟨key, entry⟩
    exact culls_evict c b key entry

theorem mutates_sweep (c : Container) (now : UInt64) :
    Mutates (deaths c (c.sweep now).2) c (c.sweep now).2 := by
  refine (culls_foldl ?_ _ 0 c).mutates
  intro n c bucket
  exact culls_sweepBucket c bucket

end Container

end DistinctCount
