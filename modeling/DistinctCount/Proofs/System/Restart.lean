import DistinctCount.Proofs.System.Clean
import DistinctCount.Proofs.System.Drained
import DistinctCount.Proofs.System.Touched

namespace DistinctCount

open Container

variable {h h' : List Moment} {m : Moment} {s s' : System} {e : Event} {b b' : Backend} {key : String}
  {id : SketchId} {n : Nat} {config config' : Config} {now t : UInt64} {c c' : Container}

theorem Record.Holds.unique {record : Record} {r r' : Sketch} (h : record.Holds r)
    (h' : record.Holds r') : r'.slots = r.slots ∧ r'.expiresAt = r.expiresAt := by
  obtain ⟨hexpires, d, hd, hslots⟩ := h
  obtain ⟨hexpires', d', hd', hslots'⟩ := h'
  rw [hd] at hd'
  obtain rfl := Except.ok.inj hd'
  exact ⟨hslots'.symm.trans hslots, hexpires'.symm.trans hexpires⟩

theorem Opens.frame {o : Opening} {made : List (Request × Backend.Answer)} (opens : Opens o made c)
    (ho : Ready config o.container) :
    (∀ key, c.get? key = o.container.get? key) ∧
      o.container.sketches.next ≤ c.sketches.next ∧
      ∀ id < o.container.sketches.next, c.sketch id = o.container.sketch id := by
  induction opens with
  | done => exact ⟨fun _ => rfl, Nat.le_refl _, fun _ _ => rfl⟩
  | @step o request answer made c call rest ih =>
    obtain ⟨key, others, hkey, -⟩ := request?_eq_some call
    rcases proceed_cases hkey answer with ⟨e, -, heq⟩ | ⟨-, heq⟩ | ⟨e, -, heq⟩
    · rw [heq] at ih
      exact ih ho
    · rw [heq] at ih
      exact ih ho
    · rw [heq] at ih
      obtain ⟨hget, hnext, hsketch⟩ := ih (ho.deferDelete key)
      have hmore : o.container.sketches.next ≤ (o.container.deferDelete key).sketches.next := by
        rw [deferDelete_eq ho.coherent, toRegistry_alter_mutate, Registry.next_modify, next_bury]
        exact Nat.le_succ _
      refine ⟨fun key => (hget key).trans (get?_deferDelete ho.coherent _ _),
        Nat.le_trans hmore hnext, ?_⟩
      intro id hid
      rw [hsketch id (Nat.lt_of_lt_of_le hid hmore), sketch_deferDelete ho.coherent,
        if_neg (Nat.ne_of_lt hid)]

theorem Opens.live_iff {made : List (Request × Backend.Answer)}
    (opens : Opens (beginOpen config t b.scan) made c) (key : String) :
    (∀ id, c.get? key = some id → ∃ record, b.get? key = some record ∧ record.Current t ∧
      record.Holds (c.sketch id)) ∧
    ∀ record, b.get? key = some record → record.Current t →
      (∃ d, Slots.decode record.data = .ok d) → ∃ id, c.get? key = some id := by
  have hr := (restored_beginOpen config t b.nodup_scan).1
  obtain ⟨hget, -, hsketch⟩ := opens.frame hr.ready
  rw [hget]
  refine ⟨?_, ?_⟩
  · intro id hid
    rw [hsketch id (hr.coherent.get?_eq_some.1 hid).1]
    exact hr.record hid
  · intro record hrecord hcurrent hdecodes
    exact hr.found key record (Backend.mem_scan.2 hrecord) hcurrent hdecodes

/-- A sweep has come at a time when the expiry had passed. -/
def Evicted (h : List Moment) (expiresAt : UInt64) : Prop :=
  expiresAt ≠ 0 ∧ ∃ m ∈ h, ∃ now, m.event = .sweep now ∧ expiresAt ≤ now

namespace Container

theorem slots_addMany (hc : c.Coherent n) (hn : n < 2 ^ 62) (hp : c.persistent = true)
    {values : List (List UInt8)} {ttl : UInt64} (hv : ∃ value ∈ values, value ≠ [])
    (hid : (c.getOrCreate now key ttl).1 = id) :
    id < (c.addMany now key values ttl).sketches.next ∧
      ((c.addMany now key values ttl).sketch id).slots ≠ .empty := by
  obtain ⟨value, hvalue, hne⟩ := hv
  obtain ⟨id', c', heq, changes, hget, hadd⟩ := addMany_spec hc hn hp now key values ttl
  rw [heq] at hid
  obtain rfl : id' = id := hid
  have hc' := changes.coherent hc
  obtain ⟨made, -, -⟩ := hc'.get?_eq_some.1 hget
  rw [hadd, toRegistry_alter_mutate, Registry.sketch_modify_self made, Registry.next_modify]
  exact ⟨made, Sketch.absorb_slots_ne_empty (hc'.measured id').2 hn hvalue hne⟩

theorem pending_updateExpiry (hc : c.Coherent n) (hn : n < 2 ^ 62) (hp : c.persistent = true)
    (now ttl : UInt64) (hget : c.get? key = some id) :
    ((c.updateExpiry now key ttl).2.sketch id).pending ≠ 0 := by
  obtain ⟨made, live, -⟩ := hc.get?_eq_some.1 hget
  have hmove := Change.move (bucketFor (expiryAfter now ttl)) made live
  have hc' := hmove.coherent hc
  have made' := Nat.lt_of_lt_of_le made hmove.next_le
  have hadd := Sketch.toInt_pending_add_one (hc'.room hn id)
  have hnonneg := (hc'.measured id).1
  rw [updateExpiry_spec hc hn hp now ttl hget, toRegistry_alter_mutate,
    Registry.sketch_modify_self made']
  intro hz
  change (((c.moveEntry id _).sketch id).pending + 1) = 0 at hz
  rw [hz, Int64.toInt_zero] at hadd
  change 0 ≤ ((c.moveEntry id _).sketch id).pending.toInt at hnonneg
  omega

end Container

namespace System

theorem Sane.touched (hs : s.Sane n) (hn : n < 2 ^ 62) (ht : Moment.Touches ⟨s, e⟩ id)
    (he : s.next? e = some s') : id < s'.container.sketches.next ∧
      ((s'.container.sketch id).slots ≠ .empty ∨ (s'.container.sketch id).pending ≠ 0) := by
  have hp := hs.orderly.persistent
  rcases next?_cases he with ⟨-, callers, rfl⟩ | htask
  · cases e with
    | add now key value ttl =>
      cases value with
      | none => exact ht.elim
      | some value =>
        rw [Event.applied, add_eq_addMany]
        obtain ⟨hmade, hused⟩ :=
          slots_addMany hs.coherent hn hp ⟨value, List.mem_singleton.2 rfl, ht.1⟩ ht.2
        exact ⟨hmade, .inl hused⟩
    | addMany now key values ttl =>
      obtain ⟨hmade, hused⟩ := slots_addMany hs.coherent hn hp ht.1 ht.2
      exact ⟨hmade, .inl hused⟩
    | updateExpiry now key ttl =>
      have hdirty := pending_updateExpiry hs.coherent hn hp now ttl ht
      exact ⟨lt_next_of_dirty hdirty, .inr hdirty⟩
    | _ => exact ht.elim
  · cases htask <;> exact ht.elim

/-- A sketch that has been touched in a run is in use, or has been dirty, or is so at the end. -/
theorem Sane.touched_run (hs : s.Sane n) (run : Run s h s') (hn : n + h.length ≤ 2 ^ 62)
    (hm : m ∈ h) (ht : m.Touches id) :
    (s'.container.sketch id).slots ≠ .empty ∨ ¬ Untouched h id ∨
      (s'.container.sketch id).pending ≠ 0 := by
  obtain ⟨before, after, rfl⟩ := List.append_of_mem hm
  obtain ⟨s₂, hfirst, hnext, hlast⟩ := run.moment
  rw [List.length_append, List.length_cons] at hn
  have hbefore := hs.run hfirst (by omega)
  have hs₂ := hbefore.next? (by omega) hnext
  obtain ⟨hmade, hused | hdirty⟩ := hbefore.touched (by omega) ht hnext
  · exact .inl (hs₂.slots_run hlast (by omega) hmade hused)
  · cases after with
    | nil =>
      obtain rfl := hlast.eq_of_nil
      exact .inr (.inr hdirty)
    | cons next after =>
      obtain ⟨_, hnil, -⟩ := Run.moment (h := []) hlast
      refine .inr (.inl fun huntouched => hdirty ?_)
      rw [← hnil.eq_of_nil]
      exact huntouched next (List.mem_append_right _ (List.mem_cons_of_mem _ List.mem_cons_self))

/-- What is not a call of a client changes no data, and lets a sketch die by a sweep only. -/
theorem kept_next? (hm : Moment.Undisturbed ⟨s, e⟩) (he : s.next? e = some s') :
    Registry.Kept Sketch.written s.container.toRegistry s'.container.toRegistry ∧
      ∀ id, (s'.container.sketch id).deleted = (s.container.sketch id).deleted ∧
          (s'.container.sketch id).bucket = (s.container.sketch id).bucket ∨
        ∃ now, e = .sweep now ∧
          Sketch.Swept now (s.container.sketch id) (s'.container.sketch id) := by
  rcases next?_cases he with ⟨-, callers, rfl⟩ | htask
  · cases e with
    | sweep now => exact ⟨kept_sweep _ now, fun id => .inr ⟨now, rfl, swept_sweep _ now id⟩⟩
    | add | addMany | updateExpiry | delete => exact hm.elim
    | _ => exact ⟨.refl _ _, fun _ => .inl ⟨rfl, rfl⟩⟩
  · have hkept := htask.kept
    refine ⟨hkept.map Prod.fst, fun id => .inl ?_⟩
    have hid := hkept.sketch id
    exact ⟨congrArg (·.2.1) hid, congrArg (·.2.2) hid⟩

theorem kept_run (run : Run s h s') (hf : s.container.toRegistry.Filed)
    (hm : ∀ m ∈ h, m.Undisturbed) :
    Registry.Kept Sketch.written s.container.toRegistry s'.container.toRegistry ∧
      ∀ id, (s'.container.sketch id).deleted = (s.container.sketch id).deleted ∧
          (s'.container.sketch id).bucket = (s.container.sketch id).bucket ∨
        Evicted h (s.container.sketch id).expiresAt := by
  induction run with
  | refl => exact ⟨.refl _ _, fun _ => .inl ⟨rfl, rfl⟩⟩
  | @step h before after e run next ih =>
    obtain ⟨hwritten, hlive⟩ := ih fun m hmem => hm m (List.mem_append_left _ hmem)
    have hlast : ⟨before, e⟩ ∈ h ++ [⟨before, e⟩] := List.mem_append_right _ (List.mem_singleton.2 rfl)
    obtain ⟨hwritten', hlive'⟩ := kept_next? (hm _ hlast) next
    refine ⟨hwritten.trans hwritten', fun id => ?_⟩
    rcases hlive id with ⟨hd, hb⟩ | ⟨hne, m, hmem, hevicted⟩
    · rcases hlive' id with ⟨hd', hb'⟩ | ⟨now, he, ⟨hd', hb'⟩ | ⟨-, bucket, hbucket, hdue⟩⟩
      · exact .inl ⟨hd'.trans hd, hb'.trans hb⟩
      · exact .inl ⟨hd'.trans hd, hb'.trans hb⟩
      · obtain ⟨hne, rfl⟩ := hf id bucket (hb.symm.trans hbucket)
        exact .inr ⟨hne, _, hlast, now, he, Expiry.le_of_isDue hdue⟩
    · exact .inr ⟨hne, m, List.mem_append_left _ hmem, hevicted⟩

/-- A shutdown leaves every key its sketch, unless the key expires and is swept before the end. -/
theorem Sane.live_of_shutdown (hs : s.Sane n) (hf : s.container.toRegistry.Filed)
    (shutdown : Run s h s') (undisturbed : ∀ m ∈ h, m.Undisturbed) (hn : n + h.length ≤ 2 ^ 62) :
    (∀ id, s'.container.get? key = some id → s.container.get? key = some id) ∧
      ∀ id, s.container.get? key = some id → s'.container.get? key = some id ∨
        Evicted h (s.container.sketch id).expiresAt := by
  have hcoherent := (hs.run shutdown hn).coherent
  obtain ⟨hwritten, hlive⟩ := System.kept_run shutdown hf undisturbed
  constructor
  · intro id hid
    obtain ⟨made, live, hkey⟩ := hcoherent.get?_eq_some.1 hid
    rw [hwritten.next] at made
    obtain ⟨-, hkey', -, hdeleted⟩ := hs.kept_run shutdown hn made
    refine hs.coherent.get?_eq_some.2 ⟨made, ?_, hkey'.symm.trans hkey⟩
    by_contra hdead
    rw [hdeleted (Bool.eq_true_of_not_eq_false hdead)] at live
    cases live
  · intro id hid
    obtain ⟨made, live, hkey⟩ := hs.coherent.get?_eq_some.1 hid
    obtain ⟨made', hkey', -, -⟩ := hs.kept_run shutdown hn made
    refine (hlive id).imp_left fun ⟨hd, _⟩ => ?_
    exact hcoherent.get?_eq_some.2 ⟨made', hd.trans live, hkey'.trans hkey⟩

theorem Sane.clean_of_shutdown {start : System} (hs : start.Sane n) (hi : start.container.Intact)
    (run : Run start h s) (alive : Alive (calls h)) (isOpen : s.container.closed = false)
    (shutdown : Run s h' s') (undisturbed : ∀ m ∈ h', m.Undisturbed)
    (smooth : ∀ call ∈ calls h', call.2 = .ok ()) (stopped : s'.stage = .stopped)
    (hn : n + h.length + h'.length ≤ 2 ^ 62) (id : SketchId) :
    (s'.container.sketch id).pending = 0 := by
  have hs₁ := hs.run run (by omega)
  have hserving : s.stage = .serving := by
    by_contra hne
    rw [(hs₁.orderly.quiet hne).1] at isOpen
    cases isOpen
  have hsmooth : ∀ m ∈ h', m.Undisturbed ∧ m.Smooth := by
    intro m hm
    refine ⟨undisturbed m hm, ?_⟩
    intro request answer hcall
    exact smooth (request, answer) (List.mem_filterMap.2 ⟨m, hm, hcall⟩)
  have hsettling := hs₁.settling_run (settling_of_serving hserving) shutdown hsmooth (by omega)
  have hempty := hsettling.pipeline (hs₁.run shutdown (by omega)).orderly stopped
  have halive : Alive (calls (h ++ h')) := by
    rw [calls_append]
    intro call hcall
    rcases List.mem_append.1 hcall with hcall | hcall
    · exact alive call hcall
    · rw [smooth call hcall]
      nofun
  have hintact := hs.intact_run hi (run.append shutdown) (by rw [List.length_append]; omega) halive
  by_contra hdirty
  have hin := hintact id hdirty
  rw [hempty] at hin
  cases hin

end System

/-- The sketch was restored, or a value or another expiry was given to it. -/
def Used (c : Container) (h : List Moment) (id : SketchId) : Prop :=
  id < c.sketches.next ∨ ∃ m ∈ h, m.Touches id

/-- What a container that is opened at time `t` has of a sketch that was live under a key. -/
structure Returns (t : UInt64) (key : String) (s : Sketch) (used : Prop) (c : Container) : Prop where
  live : used → ((∃ id, c.get? key = some id) ↔ s.expiresAt = 0 ∨ t < s.expiresAt)
  unused : ¬ used → s.slots = .empty
  same : ∀ id, c.get? key = some id → (s.expiresAt = 0 ∨ t < s.expiresAt) ∧
    (c.sketch id).slots = s.slots ∧ (c.sketch id).expiresAt = s.expiresAt

/-- The records that are read again are those of the sketches that were live. -/
theorem Opens.returns {s : Sketch} {used : Prop}
    (reopens : Opens (beginOpen config t b.scan) made c)
    (stored : (∃ record, b.get? key = some record ∧ record.Holds s) ∨ ¬ used ∧ b.get? key = none)
    (unused : ¬ used → s.slots = .empty) : Returns t key s used c := by
  obtain ⟨hback, hlive⟩ := reopens.live_iff key
  rcases stored with ⟨record, hrecord, hholds⟩ | ⟨hunused, hnone⟩
  · have hsame : ∀ id, c.get? key = some id → (s.expiresAt = 0 ∨ t < s.expiresAt) ∧
        (c.sketch id).slots = s.slots ∧ (c.sketch id).expiresAt = s.expiresAt := by
      intro id hid
      obtain ⟨record', hrecord', hcurrent, hholds'⟩ := hback id hid
      rw [hrecord] at hrecord'
      obtain rfl := Option.some.inj hrecord'
      rw [← hholds.1]
      exact ⟨hcurrent, (hholds.unique hholds').1, hholds'.1.symm⟩
    refine ⟨fun _ => ⟨fun ⟨id, hid⟩ => (hsame id hid).1, fun hcurrent => ?_⟩, unused, hsame⟩
    rw [← hholds.1] at hcurrent
    obtain ⟨-, d, hd, -⟩ := hholds
    exact hlive record hrecord hcurrent ⟨d, hd⟩
  · refine ⟨fun hused => absurd hused hunused, unused, fun id hid => ?_⟩
    obtain ⟨record, hrecord, -⟩ := hback id hid
    rw [hnone] at hrecord
    cases hrecord

/--
A container that is shut down in order and opened again at time `t`. A key that was not live is not live
again. A key that was live, and whose sketch was restored or touched, is live again exactly if it has not
expired; and any key that is live again was live, and has the slots and the expiry that it had. A key that
expires while the shutdown begins may be swept before its end, and is not live again either.
-/
theorem restart_round_trip {opening reopening : List (Request × Backend.Answer)} {s₁ s₂ : System}
    (readable : b.Readable) (opens : Opens (beginOpen config now b.scan) opening c)
    (run : Run (System.start c) h s₁) (alive : Alive (calls h))
    (isOpen : s₁.container.closed = false) (shutdown : Run s₁ h' s₂)
    (undisturbed : ∀ m ∈ h', m.Undisturbed) (smooth : ∀ call ∈ calls h', call.2 = .ok ())
    (stopped : s₂.stage = .stopped) (served : b.Serves (opening ++ calls h ++ calls h') b')
    (reopens : Opens (beginOpen config' t b'.reopen.scan) reopening c')
    (short : h.length + h'.length < 2 ^ 62) (key : String) :
    match s₁.container.get? key with
    | none => s₂.container.get? key = none ∧ c'.get? key = none
    | some id =>
      s₂.container.get? key = some id ∧
          (s₂.container.sketch id).written = (s₁.container.sketch id).written ∧
          Returns t key (s₁.container.sketch id) (Used c h id) c' ∨
        s₂.container.get? key = none ∧ c'.get? key = none ∧
          Evicted h' (s₁.container.sketch id).expiresAt := by
  have hready := opens.ready_beginOpen
  have hrun := run.append shutdown
  have hlength : (h ++ h').length < 2 ^ 62 := by rwa [List.length_append]
  have hs₁ := hready.sane.run run (by omega)
  have hfiled := hready.sane.filed_run hready.filed run (by omega)
  have hclean := hready.sane.clean_of_shutdown hready.intact run alive isOpen shutdown undisturbed
    smooth stopped (by omega)
  have hpersisted := opens.persisted readable hrun (by rwa [calls_append, ← List.append_assoc]) hlength
  have hstored := (hpersisted.faithful key).resolve_left fun ⟨id, _, hdirty⟩ => hdirty (hclean id)
  obtain ⟨hold, hstay⟩ := hs₁.live_of_shutdown hfiled shutdown undisturbed (by omega)
  have hgone (hget : s₂.container.get? key = none) : c'.get? key = none := by
    have hnone : b'.reopen.get? key = none := (stored_none hget).1 hstored
    refine Option.eq_none_iff_forall_ne_some.2 fun id hid => ?_
    obtain ⟨record, hrecord, -⟩ := (reopens.live_iff key).1 id hid
    rw [hnone] at hrecord
    cases hrecord
  cases hget₂ : s₂.container.get? key with
  | none =>
    cases hget₁ : s₁.container.get? key with
    | none => exact ⟨rfl, hgone hget₂⟩
    | some id =>
      rcases hstay id hget₁ with hsame | hevicted
      · rw [hget₂] at hsame
        cases hsame
      · exact .inr ⟨rfl, hgone hget₂, hevicted⟩
  | some id =>
    have hwritten := (System.kept_run shutdown hfiled undisturbed).1.sketch id
    rw [hold id hget₂]
    refine .inl ⟨rfl, hwritten, reopens.returns ?_ ?_⟩
    · obtain ⟨record, hrecord, hholds⟩ | ⟨hempty, ⟨hmade, huntouched⟩, hnone⟩ :=
        (stored_some hget₂).1 hstored
      · have hslots := congrArg Prod.fst hwritten
        have hexpires := congrArg Prod.snd hwritten
        exact .inl ⟨record, hrecord, hholds.congr hexpires.symm hslots.symm⟩
      · refine .inr ⟨?_, hnone⟩
        rintro (hold | ⟨m, hm, htouches⟩)
        · exact absurd hold (Nat.not_lt.2 hmade)
        · obtain hused | htouched | hdirty :=
            hready.sane.touched_run hrun (by omega) (List.mem_append_left _ hm) htouches
          · exact absurd hempty hused
          · exact absurd huntouched htouched
          · exact absurd (hclean id) hdirty
    · intro hunused
      have huntouched : ∀ m ∈ h, ¬ m.Touches id := fun m hm ht => hunused (.inr ⟨m, hm, ht⟩)
      rw [hready.sane.slots_run_of_untouched run (by omega) huntouched]
      have hnew := Registry.sketch_of_le (Nat.le_of_not_lt fun hlt => hunused (.inl hlt))
      exact congrArg Sketch.slots hnew

/-- A shutdown with nobody left: the queues are emptied, then looked through once more. -/
def shutdownEvents : List Event :=
  [[.close, .stop], (List.finRange 8).map .saverStop, [.writerEnd, .drainBegin],
    List.replicate 3 .drainAdvance, [.drainAnswer (.ok ())], List.replicate 16 .drainAdvance,
    [.backendStop (.ok ())]].flatten

/-- A key that was counted is live again after a restart with another number of shards. -/
theorem restart_round_trip_sample :
    ∃ h s₁ h' s₂ b' c', Run (System.start sampleContainer) h s₁ ∧ Run s₁ h' s₂ ∧
      s₂.stage = .stopped ∧ ({} : Backend).Serves ([] ++ calls h ++ calls h') b' ∧
      Opens (beginOpen { shards := 2 } 7 b'.reopen.scan) [] c' ∧
      ∃ id id', s₁.container.get? "k" = some id ∧ c'.get? "k" = some id' ∧
        (c'.sketch id').slots = (s₁.container.sketch id).slots := by
  have hall : (do
      let x ← (System.start sampleContainer).play? [.add 0 "k" (some [1]) 0]
      let y ← x.2.play? shutdownEvents
      let b' ← ({} : Backend).replay? ([] ++ calls x.1 ++ calls y.1)
      guard (x.1.length + y.1.length < 50 ∧ x.2.container.closed = false ∧
        y.2.stage = Stage.stopped ∧ Alive (calls x.1) ∧ (∀ m ∈ y.1, m.Undisturbed) ∧
        (∀ call ∈ calls y.1, call.2 = Except.ok ()) ∧ (∃ m ∈ x.1, m.Touches 0) ∧
        x.2.container.get? "k" = some 0 ∧ y.2.container.get? "k" = some 0 ∧
        (x.2.container.sketch 0).expiresAt = 0 ∧
        (beginOpen { shards := 2 } 7 b'.reopen.scan).request?.isNone)
      return b').isSome = true := by decide +kernel
  simp only [Option.isSome_iff_exists, Option.bind_eq_bind, Option.bind_eq_some_iff] at hall
  obtain ⟨_, ⟨h, s₁⟩, hrun, ⟨h', s₂⟩, hshutdown, b', hreplay, _, hguard, _⟩ := hall
  dsimp only at hrun hshutdown hreplay hguard
  obtain ⟨short, isOpen, stopped, alive, undisturbed, smooth, touched, hget₁, hget₂, hforever,
    finished⟩ := (Option.guard_eq_some' _).1 hguard
  have readable : ({} : Backend).Readable := by
    intro key record hrecord
    cases (Std.TreeMap.getElem?_emptyc (a := key)).symm.trans hrecord
  have run := run_of_play? hrun
  have shutdown := run_of_play? hshutdown
  have served := Backend.serves_of_replay? hreplay
  have reopens := Opens.done (Option.isNone_iff_eq_none.1 finished)
  have hback := restart_round_trip readable opens_sampleContainer run alive isOpen shutdown
    undisturbed smooth stopped served reopens (by omega) "k"
  rw [hget₁, hget₂] at hback
  rcases hback with ⟨-, -, hreturns⟩ | ⟨hnone, -⟩
  · obtain ⟨id', hid'⟩ := (hreturns.live (.inr touched)).2 (.inl hforever)
    exact ⟨h, s₁, h', s₂, b', _, run, shutdown, stopped, served, reopens, 0, id', hget₁, hid',
      (hreturns.same id' hid').2.1⟩
  · cases hnone

end DistinctCount
