import DistinctCount.Container.Restore
import DistinctCount.Proofs.Container.Filed

namespace DistinctCount

def Record.Current (now : UInt64) (record : Record) : Prop :=
  record.expiresAt = 0 ∨ now < record.expiresAt

instance (now : UInt64) (record : Record) : Decidable (record.Current now) :=
  inferInstanceAs (Decidable (_ ∨ _))

def Record.Holds (record : Record) (s : Sketch) : Prop :=
  record.expiresAt = s.expiresAt ∧ ∃ d, Slots.decode record.data = .ok d ∧ d.slots = s.slots

theorem Record.Holds.congr {record : Record} {s s' : Sketch} (h : record.Holds s)
    (hexpires : s'.expiresAt = s.expiresAt) (hslots : s'.slots = s.slots) : record.Holds s' := by
  obtain ⟨hx, d, hd, hs⟩ := h
  exact ⟨hx.trans hexpires.symm, d, hd, hs.trans hslots.symm⟩

namespace Container

variable {c c' : Container} {now : UInt64} {key : String} {record : Record} {id other : SketchId}
  {s : Sketch} {done : List (String × Record)} {expired : List String} {config : Config}

theorem current_iff : record.Current now ↔ ¬ (record.expiresAt ≠ 0 ∧ record.expiresAt ≤ now) := by
  rw [Record.Current, UInt64.lt_iff_toNat_lt, UInt64.le_iff_toNat_le]
  constructor
  · rintro (h | h) ⟨hne, hle⟩
    · exact hne h
    · omega
  · intro h
    by_cases hz : record.expiresAt = 0
    · exact .inl hz
    · exact .inr (Nat.lt_of_not_le fun hle => h ⟨hz, hle⟩)

def adopt (c : Container) (s : Sketch) : Container :=
  { c with toRegistry := (c.toRegistry.make s).2.insert s.shard c.sketches.next }

theorem sketch_adopt :
    (c.adopt s).sketch other = if other = c.sketches.next then s else c.sketch other :=
  Registry.sketch_make

theorem next_adopt : (c.adopt s).sketches.next = c.sketches.next + 1 :=
  Registry.next_make

theorem coherent_adopt {n : Nat} (hc : c.Coherent n) (hv : s.Valid) (hpending : s.pending = 0)
    (hlive : s.deleted = false) (hshard : s.shard = c.shards.shardOf s.key)
    (hfree : c.get? s.key = none) : (c.adopt s).Coherent n := by
  refine ⟨?_, ?_, ?_, ?_⟩
  · have h := hc.sound.create rfl hshard hlive hfree
    rwa [← hshard] at h
  · intro id
    rw [sketch_adopt]
    split
    · rw [hpending, Int64.toInt_zero]
      omega
    · exact hc.measured id
  · intro id hid
    rw [sketch_adopt]
    rw [next_adopt] at hid
    split
    · exact hv
    · rename_i hne
      exact hc.valid id (Nat.lt_of_le_of_ne (Nat.le_of_lt_succ hid) hne)
  · refine hc.indexed.congr (fun _ _ _ => id) (by rw [next_adopt]; exact Nat.le_succ _) ?_
    intro bucket key entry he _
    rw [sketch_adopt, if_neg (Nat.ne_of_lt (hc.indexed _ _ _ he).1)]
    exact ⟨rfl, rfl, rfl, rfl⟩

/-- The next record of a scan is taken over, left alone or noted as expired. -/
theorem restoreRecord_cases (c : Container) (now : UInt64) (expired : List String) (key : String)
    (record : Record) :
    (∃ s, record.Current now ∧
      Sketch.ofBytes key (c.shardOf key) record.expiresAt record.data = .ok s ∧
      restoreRecord now (c, expired) key record =
        ((c.adopt s).registerExpiry c.sketches.next, expired)) ∨
    (record.Current now ∧ (∀ d, Slots.decode record.data ≠ .ok d) ∧
      restoreRecord now (c, expired) key record = (c, expired)) ∨
    (¬ record.Current now ∧ restoreRecord now (c, expired) key record = (c, expired ++ [key])) := by
  by_cases hcurrent : record.Current now
  · have hguard := current_iff.1 hcurrent
    cases hbytes : Sketch.ofBytes key (c.shardOf key) record.expiresAt record.data with
    | error e =>
      refine .inr (.inl ⟨hcurrent, ?_, by simp only [restoreRecord, if_neg hguard, hbytes]⟩)
      intro d hd
      have hok : Sketch.ofBytes key (c.shardOf key) record.expiresAt record.data = .ok _ :=
        Sketch.ofBytes_eq_ok.2 ⟨d, hd, rfl⟩
      rw [hbytes] at hok
      cases hok
    | ok s =>
      refine .inl ⟨s, hcurrent, rfl, ?_⟩
      obtain ⟨d, -, rfl⟩ := Sketch.ofBytes_eq_ok.1 hbytes
      simp only [restoreRecord, if_neg hguard, hbytes]
      rfl
  · have hguard : record.expiresAt ≠ 0 ∧ record.expiresAt ≤ now := by
      by_contra h
      exact hcurrent (current_iff.2 h)
    exact .inr (.inr ⟨hcurrent, by simp only [restoreRecord, if_pos hguard]⟩)

/-- A container with the records read so far: one live sketch for each that is current and decodes. -/
structure Restored (config : Config) (now : UInt64) (done : List (String × Record))
    (c : Container) : Prop where
  frame : c = { create config true with toRegistry := c.toRegistry, expiry := c.expiry }
  coherent : c.Coherent 0
  clean : ∀ id, (c.sketch id).pending = 0 ∧ (c.sketch id).waiters = []
  filed : c.toRegistry.Filed
  live : ∀ id < c.sketches.next, (c.sketch id).deleted = false ∧ ∃ record : Record,
    ((c.sketch id).key, record) ∈ done ∧ record.Current now ∧ record.Holds (c.sketch id)
  found : ∀ key record, (key, record) ∈ done → record.Current now →
    (∃ d, Slots.decode record.data = .ok d) → ∃ id, c.get? key = some id

theorem shardCount_pos (config : Config) : 0 < config.shardCount :=
  Nat.pos_of_isPowerOfTwo (Nat.isPowerOfTwo_nextPowerOfTwo _)

theorem coherent_create (config : Config) (persistent : Bool) :
    (create config persistent).Coherent 0 := by
  have hnone (id : SketchId) : (create config persistent).sketch id = default :=
    Registry.sketch_of_le (Nat.zero_le _)
  refine ⟨⟨?_, fun id hid => absurd hid (Nat.not_lt_zero _), ?_⟩, ?_,
    fun id hid => absurd hid (Nat.not_lt_zero _), ?_⟩
  · exact Nat.lt_of_lt_of_eq (shardCount_pos config) (by simp [create, Shards.ofCount, Shards.count])
  · intro n key id
    have hget : (create config persistent).shards.get? n key = none := Shards.get?_ofCount
    rw [hget]
    constructor
    · intro hnone
      cases hnone
    · rintro ⟨hid, -⟩
      exact absurd hid (Nat.not_lt_zero _)
  · intro id
    rw [hnone]
    exact ⟨Int.le_refl _, Int.natCast_nonneg _⟩
  · intro bucket key entry he
    have hget : (create config persistent).expiry.get? bucket key = none := Expiry.Index.get?_empty
    rw [hget] at he
    cases he

theorem restored_create (config : Config) (now : UInt64) :
    Restored config now [] (create config true) where
  frame := rfl
  coherent := coherent_create config true
  clean := by
    intro id
    rw [Registry.sketch_of_le (Nat.zero_le _)]
    exact ⟨rfl, rfl⟩
  filed := by
    intro id
    rw [Registry.sketch_of_le (Nat.zero_le _)]
    exact Sketch.filed_of_bucket rfl
  live := fun id hid => absurd hid (Nat.not_lt_zero _)
  found := fun _ _ => nofun

theorem frame_moveEntry (c : Container) (id : SketchId) (bucket : Option UInt64) :
    c.moveEntry id bucket = { c with
      toRegistry := (c.moveEntry id bucket).toRegistry
      expiry := (c.moveEntry id bucket).expiry } := by
  by_cases h : (c.sketch id).bucket = bucket
  · have hmove : c.moveEntry id bucket = _ := if_pos h
    rw [hmove]
  · have hmove : c.moveEntry id bucket = _ := if_neg h
    rw [hmove]
    rfl

theorem registerExpiry_cases (hlive : (c.sketch id).deleted = false)
    (hbucket : (c.sketch id).bucket = none) :
    c.registerExpiry id = c ∨ ∃ bucket, c.registerExpiry id = c.moveEntry id (some bucket) := by
  rw [registerExpiry_eq hlive hbucket]
  split
  · exact .inl rfl
  · exact .inr ⟨_, rfl⟩

theorem adopt_registerExpiry {n : Nat} (hc : (c.adopt s).Coherent n) (hlive : s.deleted = false)
    (hbucket : s.bucket = none) :
    ∃ bucket c', (c.adopt s).registerExpiry c.sketches.next = c' ∧ c'.Coherent n ∧
      c'.sketches.next = c.sketches.next + 1 ∧
      (∀ other, c'.sketch other =
        if other = c.sketches.next then { s with bucket } else c.sketch other) ∧
      c' = { c with toRegistry := c'.toRegistry, expiry := c'.expiry } := by
  have hself : (c.adopt s).sketch c.sketches.next = s := sketch_adopt.trans (if_pos rfl)
  have made : c.sketches.next < (c.adopt s).sketches.next := by
    rw [next_adopt]
    exact Nat.lt_succ_self _
  have hcases : (c.adopt s).registerExpiry c.sketches.next = c.adopt s ∨ ∃ bucket,
      (c.adopt s).registerExpiry c.sketches.next =
        (c.adopt s).moveEntry c.sketches.next (some bucket) :=
    registerExpiry_cases (by rw [hself]; exact hlive) (by rw [hself]; exact hbucket)
  rcases hcases with heq | ⟨bucket, heq⟩
  · refine ⟨none, _, heq, hc, next_adopt, ?_, rfl⟩
    intro other
    rw [sketch_adopt]
    split
    · rw [← hbucket]
    · rfl
  · have hmove := Change.move (some bucket) made (by rw [hself]; exact hlive)
    refine ⟨some bucket, _, heq, hmove.coherent hc, next_moveEntry.trans next_adopt, ?_,
      frame_moveEntry _ _ _⟩
    intro other
    rw [sketch_moveEntry _ _ made, hself, sketch_adopt]
    split <;> rfl

theorem Restored.free (hr : Restored config now done c) (hnew : ∀ record, (key, record) ∉ done) :
    c.get? key = none := by
  refine Option.eq_none_iff_forall_ne_some.2 fun id hget => ?_
  obtain ⟨hid, -, hkey⟩ := hr.coherent.get?_eq_some.1 hget
  obtain ⟨-, r, hm, -⟩ := hr.live id hid
  rw [hkey] at hm
  exact hnew r hm

theorem Restored.live_append (hr : Restored config now done c) (more : List (String × Record))
    (hid : id < c.sketches.next) :
    (c.sketch id).deleted = false ∧ ∃ record : Record,
      ((c.sketch id).key, record) ∈ done ++ more ∧ record.Current now ∧ record.Holds (c.sketch id) := by
  obtain ⟨hlive, record, hm, hrest⟩ := hr.live id hid
  exact ⟨hlive, record, List.mem_append_left _ hm, hrest⟩

theorem Restored.leave (hr : Restored config now done c)
    (hskip : record.Current now → ∀ d, Slots.decode record.data ≠ .ok d) :
    Restored config now (done ++ [(key, record)]) c where
  frame := hr.frame
  coherent := hr.coherent
  clean := hr.clean
  filed := hr.filed
  live := fun _ hid => hr.live_append _ hid
  found := by
    intro k r hm hcur hdec
    rcases List.mem_append.1 hm with hm | hm
    · exact hr.found k r hm hcur hdec
    · obtain ⟨rfl, rfl⟩ := Prod.mk.inj (List.mem_singleton.1 hm)
      obtain ⟨d, hd⟩ := hdec
      exact absurd hd (hskip hcur d)

theorem Restored.coherent_adopt (hr : Restored config now done c)
    (hnew : ∀ record, (key, record) ∉ done)
    (hbytes : Sketch.ofBytes key (c.shardOf key) record.expiresAt record.data = .ok s) :
    (c.adopt s).Coherent 0 := by
  have hvalid := Sketch.valid_ofBytes hbytes
  obtain ⟨d, hd, rfl⟩ := Sketch.ofBytes_eq_ok.1 hbytes
  exact Container.coherent_adopt hr.coherent hvalid rfl rfl rfl (hr.free hnew)

theorem Restored.take (hr : Restored config now done c) (hnew : ∀ record, (key, record) ∉ done)
    (hcurrent : record.Current now)
    (hbytes : Sketch.ofBytes key (c.shardOf key) record.expiresAt record.data = .ok s) :
    Restored config now (done ++ [(key, record)])
      ((c.adopt s).registerExpiry c.sketches.next) := by
  have hadopt := hr.coherent_adopt hnew hbytes
  obtain ⟨d, hd, hs⟩ := Sketch.ofBytes_eq_ok.1 hbytes
  have hfiled : (c.adopt s).toRegistry.Filed := by
    intro id
    rw [sketch_adopt]
    split
    · exact Sketch.filed_of_bucket (by rw [hs])
    · exact hr.filed id
  obtain ⟨bucket, c', heq, hc', hnext, hsketch, hframe⟩ :=
    adopt_registerExpiry hadopt (by rw [hs]) (by rw [hs])
  rw [heq]
  refine ⟨?_, hc', ?_, heq ▸ filed_registerExpiry hfiled _, ?_, ?_⟩
  · exact hframe.trans (congrArg (fun d : Container =>
      { d with toRegistry := c'.toRegistry, expiry := c'.expiry }) hr.frame)
  · intro id
    rw [hsketch]
    split
    · rw [hs]
      exact ⟨rfl, rfl⟩
    · exact hr.clean id
  · intro id hid
    rw [hnext] at hid
    rw [hsketch]
    split
    · rw [hs]
      exact ⟨rfl, record, List.mem_append_right _ (List.mem_singleton.2 rfl), hcurrent, rfl, d, hd, rfl⟩
    · rename_i hne
      exact hr.live_append _ (Nat.lt_of_le_of_ne (Nat.le_of_lt_succ hid) hne)
  · intro k r hm hcur hdec
    rcases List.mem_append.1 hm with hm | hm
    · obtain ⟨id, hget⟩ := hr.found k r hm hcur hdec
      obtain ⟨hid, hlive, hkey⟩ := hr.coherent.get?_eq_some.1 hget
      refine ⟨id, hc'.get?_eq_some.2 ?_⟩
      rw [hsketch, if_neg (Nat.ne_of_lt hid), hnext]
      exact ⟨Nat.lt_succ_of_lt hid, hlive, hkey⟩
    · obtain ⟨rfl, rfl⟩ := Prod.mk.inj (List.mem_singleton.1 hm)
      refine ⟨c.sketches.next, hc'.get?_eq_some.2 ?_⟩
      rw [hsketch, if_pos rfl, hnext, hs]
      exact ⟨Nat.lt_succ_self _, rfl, rfl⟩

theorem Restored.step (hr : Restored config now done c) (hnew : ∀ record, (key, record) ∉ done)
    (expired : List String) :
    Restored config now (done ++ [(key, record)]) (restoreRecord now (c, expired) key record).1 ∧
      (restoreRecord now (c, expired) key record).2 =
        if record.Current now then expired else expired ++ [key] := by
  rcases restoreRecord_cases c now expired key record with
    ⟨s, hcurrent, hbytes, htake⟩ | ⟨hcurrent, hrefused, hstay⟩ | ⟨hcurrent, hstay⟩
  · rw [htake, if_pos hcurrent]
    exact ⟨hr.take hnew hcurrent hbytes, rfl⟩
  · rw [hstay, if_pos hcurrent]
    exact ⟨hr.leave fun _ => hrefused, rfl⟩
  · rw [hstay, if_neg hcurrent]
    exact ⟨hr.leave fun h => absurd h hcurrent, rfl⟩

theorem restored_foldl (rest : List (String × Record)) (hr : Restored config now done c)
    (hnew : ∀ entry ∈ rest, ∀ record, (entry.1, record) ∉ done)
    (hdistinct : (rest.map (·.1)).Nodup) (expired : List String) :
    Restored config now (done ++ rest) (rest.foldl (fun state (key, record) =>
        restoreRecord now state key record) (c, expired)).1 ∧
      (rest.foldl (fun state (key, record) =>
        restoreRecord now state key record) (c, expired)).2 =
        expired ++ (rest.filter fun entry => ¬ entry.2.Current now).map (·.1) := by
  induction rest generalizing c done expired with
  | nil => exact ⟨by rwa [List.append_nil], (List.append_nil _).symm⟩
  | cons entry rest ih =>
    obtain ⟨key, record⟩ := entry
    obtain ⟨hfirst, hrest⟩ := List.nodup_cons.1 hdistinct
    obtain ⟨hstep, hexpired⟩ :=
      hr.step (hnew (key, record) List.mem_cons_self) expired
    have hnew' : ∀ entry ∈ rest, ∀ r, (entry.1, r) ∉ done ++ [(key, record)] := by
      intro entry he r hm
      rcases List.mem_append.1 hm with hm | hm
      · exact hnew entry (List.mem_cons_of_mem _ he) r hm
      · exact hfirst (List.mem_map.2 ⟨entry, he, (Prod.mk.inj (List.mem_singleton.1 hm)).1⟩)
    have hih := ih hstep hnew' hrest (restoreRecord now (c, expired) key record).2
    rw [List.append_assoc, List.singleton_append] at hih
    refine ⟨hih.1, hih.2.trans ?_⟩
    rw [hexpired, List.filter_cons]
    by_cases hc : record.Current now
    · simp [hc]
    · simp [hc]

theorem restored_beginOpen (config : Config) (now : UInt64) {records : List (String × Record)}
    (hdistinct : (records.map (·.1)).Nodup) :
    Restored config now records (beginOpen config now records).container ∧
      (beginOpen config now records).expired =
        (records.filter fun entry => ¬ entry.2.Current now).map (·.1) :=
  restored_foldl records (restored_create config now) (fun _ _ _ => nofun) hdistinct []

end Container

theorem Backend.nodup_scan (b : Backend) : (b.scan.map (·.1)).Nodup := by
  have h := Std.TreeMap.distinct_keys_toList (t := b.records)
  rw [List.Nodup, List.pairwise_map]
  refine h.imp fun hne heq => hne ?_
  rw [heq]
  exact Std.ReflCmp.compare_self

theorem Backend.mem_scan {b : Backend} {key : String} {record : Record} :
    (key, record) ∈ b.scan ↔ b.get? key = some record :=
  Std.TreeMap.mem_toList_iff_getElem?_eq_some

theorem Container.mem_expired {config : Config} {now : UInt64} {b : Backend} {key : String} :
    key ∈ (beginOpen config now b.scan).expired ↔
      ∃ record, b.get? key = some record ∧ ¬ record.Current now := by
  rw [(restored_beginOpen config now b.nodup_scan).2, List.mem_map]
  constructor
  · rintro ⟨⟨key, record⟩, hin, rfl⟩
    obtain ⟨hin, hold⟩ := List.mem_filter.1 hin
    exact ⟨record, Backend.mem_scan.1 hin, of_decide_eq_true hold⟩
  · rintro ⟨record, hget, hold⟩
    exact ⟨(key, record), List.mem_filter.2 ⟨Backend.mem_scan.2 hget, decide_eq_true hold⟩, rfl⟩

end DistinctCount
