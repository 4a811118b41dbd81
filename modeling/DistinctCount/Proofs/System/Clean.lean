import DistinctCount.Proofs.System.Persisted

namespace DistinctCount

open Container

variable {h : List Moment} {s s' : System} {b b' : Backend} {key : String} {id : SketchId} {n : Nat}
  {config : Config} {now : UInt64} {made : List (Request × Backend.Answer)} {c : Container}

def Backend.Readable (b : Backend) : Prop :=
  ∀ key record, b.get? key = some record → ∃ d, Slots.decode record.data = .ok d

def Untouched (h : List Moment) (id : SketchId) : Prop :=
  ∀ m ∈ h, (m.before.container.sketch id).pending = 0

theorem Container.Restored.record (hr : Restored config now b.scan c) (hget : c.get? key = some id) :
    ∃ record, b.get? key = some record ∧ record.Current now ∧ record.Holds (c.sketch id) := by
  obtain ⟨hid, -, hkey⟩ := hr.coherent.get?_eq_some.1 hget
  obtain ⟨-, record, hmem, hrest⟩ := hr.live id hid
  exact ⟨record, Backend.mem_scan.1 (hkey ▸ hmem), hrest⟩

/-- What holds while the expired records are deleted: all other keys stand in the backend. -/
structure Pledged (X : SketchId → Prop) (o : Opening) (records : String → Option Record) : Prop where
  gone : ∀ key ∈ o.expired, o.container.get? key = none
  kept : ∀ key ∉ o.expired, o.container.Dirty key ∨ o.container.Stored X (records key) key

theorem pledged_beginOpen (X : SketchId → Prop) (config : Config) (now : UInt64) (hb : b.Readable) :
    Pledged X (beginOpen config now b.scan) b.get? := by
  have hr := (restored_beginOpen config now b.nodup_scan).1
  refine ⟨?_, ?_⟩
  · intro key hin
    obtain ⟨record, hget, hold⟩ := mem_expired.1 hin
    refine Option.eq_none_iff_forall_ne_some.2 fun id hid => ?_
    obtain ⟨record', hget', hcurrent, -⟩ := hr.record hid
    rw [hget] at hget'
    obtain rfl := Option.some.inj hget'
    exact hold hcurrent
  · intro key hout
    refine .inr ?_
    cases hget : b.get? key with
    | none =>
      refine (stored_none (Option.eq_none_iff_forall_ne_some.2 fun id hid => ?_)).2 rfl
      obtain ⟨record, hget', -⟩ := hr.record hid
      rw [hget] at hget'
      cases hget'
    | some record =>
      have hcurrent : record.Current now := by
        by_contra hold
        exact hout (mem_expired.2 ⟨record, hget, hold⟩)
      obtain ⟨id, hid⟩ := hr.found key record (Backend.mem_scan.2 hget) hcurrent (hb key record hget)
      obtain ⟨record', hget', -, hholds⟩ := hr.record hid
      rw [hget] at hget'
      obtain rfl := Option.some.inj hget'
      exact (stored_some hid).2 (.inl ⟨record, rfl, hholds⟩)

theorem get?_deferDelete (hc : c.Coherent 0) (key other : String) :
    (c.deferDelete key).get? other = c.get? other := by
  rw [deferDelete_eq hc, Registry.get?, toRegistry_alter_mutate, Registry.shards_modify]
  rfl

/-- A delete that is left to the write-back makes its key dirty, and no difference to other keys. -/
theorem kept_deferDelete {X : SketchId → Prop} {record : Option Record} (hc : c.Coherent 0)
    (target : String) (hk : key = target ∨ c.Dirty key ∨ c.Stored X record key) :
    (c.deferDelete target).Dirty key ∨ (c.deferDelete target).Stored X record key := by
  have hsame {id : SketchId} (hid : id < c.sketches.next) :
      (c.deferDelete target).sketch id = c.sketch id := by
    rw [sketch_deferDelete hc, if_neg (Nat.ne_of_lt hid)]
  rcases hk with rfl | ⟨id, hkey, hdirty⟩ | hs
  · refine .inl ⟨c.sketches.next, ?_⟩
    rw [sketch_deferDelete hc, if_pos rfl]
    exact ⟨rfl, (by decide : (1 : Int64) ≠ 0)⟩
  · rw [← hsame (lt_next_of_dirty hdirty)] at hkey hdirty
    exact .inl ⟨id, hkey, hdirty⟩
  · refine .inr ?_
    have hget' := get?_deferDelete hc target key
    cases hget : c.get? key with
    | none =>
      rw [hget] at hget'
      rwa [stored_none hget', ← stored_none hget]
    | some id =>
      rw [hget] at hget'
      rwa [stored_some hget', hsame (hc.get?_eq_some.1 hget).1, ← stored_some hget]

theorem Opens.faithful {X : SketchId → Prop} {o : Opening} (opens : Opens o made c)
    (ho : Ready config o.container) (hp : Pledged X o b.get?) (served : b.Serves made b') :
    c.Faithful X b'.get? := by
  induction opens generalizing b with
  | @done o finished =>
    obtain rfl := served.eq_of_nil
    have hnone : o.expired = [] := List.head?_eq_none_iff.1 (Option.map_eq_none_iff.1 finished)
    exact fun key => hp.kept key (hnone ▸ List.not_mem_nil)
  | @step o request answer made c call rest ih =>
    obtain ⟨key, others, hkey, rfl⟩ := request?_eq_some call
    rw [← List.singleton_append] at served
    obtain ⟨b₁, hfirst, hrest⟩ := served.append
    have hcall : b.Serves ([] ++ (some (Request.delete key, answer)).toList) b₁ := hfirst
    obtain ⟨b₀, hnone, hget⟩ := hcall.recorded
    obtain rfl := hnone.eq_of_nil
    have hcoherent := ho.coherent
    have hgone := hp.gone
    have hkept := hp.kept
    rw [hkey] at hgone hkept
    rcases proceed_cases hkey answer with ⟨e, rfl, heq⟩ | ⟨rfl, heq⟩ | ⟨e, rfl, heq⟩
    · refine ih (by rw [heq]; exact ho) ?_ hrest
      rw [heq, hget]
      exact ⟨hp.gone, hp.kept⟩
    · refine ih (by rw [heq]; exact ho) ?_ hrest
      rw [heq, hget]
      refine ⟨fun other hin => hgone other (List.mem_cons_of_mem _ hin), ?_⟩
      intro other hout
      by_cases hother : other = key
      · rw [hother]
        exact .inr ((stored_none (hgone key List.mem_cons_self)).2 (if_pos rfl))
      · have hsame : Backend.recorded (some (.delete key, .ok ())) b₀.get? other = b₀.get? other :=
          if_neg hother
        rw [hsame]
        exact hkept other fun hin => (List.mem_cons.1 hin).elim hother hout
    · refine ih (by rw [heq]; exact ho.deferDelete key) ?_ hrest
      rw [heq, hget]
      refine ⟨?_, ?_⟩
      · intro other hin
        exact (get?_deferDelete hcoherent _ _).trans (hgone other (List.mem_cons_of_mem _ hin))
      · intro other hout
        apply kept_deferDelete hcoherent key
        by_cases hother : other = key
        · exact .inl hother
        · exact .inr (hkept other fun hin => (List.mem_cons.1 hin).elim hother hout)

theorem System.Sane.untouched (hs : s.Sane n) (run : Run s h s') (hn : n + h.length ≤ 2 ^ 62)
    (hid : s'.container.sketches.next ≤ id) : Untouched h id := by
  intro m hm
  by_contra hdirty
  obtain ⟨before, after, rfl, hfirst, hlast⟩ := run.since hm
  rw [List.length_append] at hn
  have hsane := hs.run hfirst (by omega)
  obtain ⟨hlt, -⟩ := hsane.kept_run hlast (by omega) (lt_next_of_dirty hdirty)
  exact absurd hlt (Nat.not_lt.2 hid)

/-- The backend may have nothing of the sketches that a run has made and never mutated. -/
theorem System.Sane.persisted {opening : List (Request × Backend.Answer)} (hs : s.Sane n)
    (hp : ∀ b', b.Serves opening b' → s.container.Persisted (s.container.sketches.next ≤ ·) b'.get?)
    (run : Run s h s') (hn : n + h.length ≤ 2 ^ 62) (served : b.Serves (opening ++ calls h) b') :
    s'.container.Persisted (fun id => s.container.sketches.next ≤ id ∧ Untouched h id) b'.get? := by
  induction run generalizing b' with
  | refl =>
    have hstart := hp b' (by rwa [calls, List.filterMap_nil, List.append_nil] at served)
    exact ⟨hstart.faithful.mono hs.coherent fun _ hle _ =>
      ⟨hle, fun _ hm => absurd hm List.not_mem_nil⟩, hstart.flushing⟩
  | @step h before after e run next ih =>
    rw [List.length_append, List.length_singleton, ← Nat.add_assoc] at hn
    rw [calls_concat, ← List.append_assoc] at served
    obtain ⟨b₁, hbefore, hget⟩ := served.recorded
    have hsane := hs.run run (by omega)
    have hmove := move_next? hsane.orderly hsane.coherent (by omega) next
    have hold := ih (by omega) hbefore
    have huntouched {id : SketchId} (hid : Untouched h id)
        (hclean : (before.container.sketch id).pending = 0) : Untouched (h ++ [⟨before, e⟩]) id := by
      intro m hm
      rcases List.mem_append.1 hm with hm | hm
      · exact hid m hm
      · rwa [List.mem_singleton.1 hm]
    have hfaithful := hold.faithful.mono hsane.coherent (Y := fun id =>
      s.container.sketches.next ≤ id ∧ Untouched (h ++ [⟨before, e⟩]) id)
      fun id hid hclean => ⟨hid.1, huntouched hid.2 hclean⟩
    rw [hget, Moment.recorded_call?]
    refine hmove.persisted ⟨hfaithful, hold.flushing⟩ hsane.coherent (by omega) hsane.flow ?_
    intro id hid
    refine ⟨Nat.le_trans (hs.next_le_run run (by omega)) hid,
      huntouched (hs.untouched run (by omega) hid) ?_⟩
    rw [Registry.sketch_of_le hid]
    rfl

theorem Opens.persisted {opening : List (Request × Backend.Answer)} (readable : b.Readable)
    (opens : Opens (beginOpen config now b.scan) opening c) (run : Run (System.start c) h s)
    (served : b.Serves (opening ++ calls h) b') (short : h.length < 2 ^ 62) :
    s.container.Persisted (fun id => c.sketches.next ≤ id ∧ Untouched h id) b'.get? := by
  have hready := opens.ready_beginOpen
  have hopened := (restored_beginOpen config now b.nodup_scan).1.ready
  have hstart (b' : Backend) (served : b.Serves opening b') :
      c.Persisted (c.sketches.next ≤ ·) b'.get? := by
    refine ⟨opens.faithful hopened (pledged_beginOpen _ config now readable) served, ?_⟩
    intro job hj
    rw [hready.jobs] at hj
    cases hj
  exact hready.sane.persisted hstart run (by omega) served

/--
A key without unwritten mutations stands in the backend as it does in memory: with the expiry and the
slots of its live sketch, or not at all if it has no live sketch or one that was made and never mutated.
-/
theorem clean_means_persisted {opening : List (Request × Backend.Answer)} (readable : b.Readable)
    (opens : Opens (beginOpen config now b.scan) opening c) (run : Run (System.start c) h s)
    (served : b.Serves (opening ++ calls h) b') (short : h.length < 2 ^ 62) (key : String)
    (clean : ∀ id < s.container.sketches.next, (s.container.sketch id).key = key →
      ¬ 0 < (s.container.sketch id).pending) :
    match s.container.get? key with
    | some id =>
      (∃ record, b'.get? key = some record ∧ record.Holds (s.container.sketch id)) ∨
        ((s.container.sketch id).slots = .empty ∧ Untouched h id ∧ b'.get? key = none)
    | none => b'.get? key = none := by
  have hsane := opens.ready_beginOpen.sane.run run (by omega)
  have hpersisted := opens.persisted readable run served short
  have hclean : ¬ s.container.Dirty key := by
    rintro ⟨id, hkey, hdirty⟩
    apply clean id (lt_next_of_dirty hdirty) hkey
    have hnonneg := (hsane.coherent.measured id).1
    rw [Int64.lt_iff_toInt_lt, Int64.toInt_zero]
    rw [ne_eq, ← Int64.toInt_inj, Int64.toInt_zero] at hdirty
    change 0 ≤ (s.container.sketch id).pending.toInt at hnonneg
    omega
  have hstored := (hpersisted.faithful key).resolve_left hclean
  cases hget : s.container.get? key with
  | none => exact (stored_none hget).1 hstored
  | some id => exact ((stored_some hget).1 hstored).imp_right fun ⟨he, hid, hr⟩ => ⟨he, hid.2, hr⟩

def cleanEvents : List Event :=
  [.add 0 "k" (some [1]) 0, .saverTake (partitionOf 1), .saverSend (partitionOf 1), .writerTake,
    .writerAnswer (.error Backend.injected), .writerAnswer (.ok ())]

theorem clean_means_persisted_sample :
    let h := ((System.start sampleContainer).played cleanEvents (by decide +kernel)).1
    let s := ((System.start sampleContainer).played cleanEvents (by decide +kernel)).2
    ∃ b' record, ({} : Backend).Serves (calls h) b' ∧ h.length < 2 ^ 62 ∧
      (∀ id < s.container.sketches.next, ¬ 0 < (s.container.sketch id).pending) ∧
      b'.get? "k" = some record ∧ record.Holds (s.container.sketch 0) := by
  intro h s
  have run : Run (System.start sampleContainer) h s :=
    (System.start sampleContainer).run_played cleanEvents (by decide +kernel)
  have hrecord : ((({} : Backend).replay? (calls h)).bind (·.get? "k")).isSome = true := by
    decide +kernel
  obtain ⟨record, hbind⟩ := Option.isSome_iff_exists.1 hrecord
  obtain ⟨b', hreplay, hlast⟩ := Option.bind_eq_some_iff.1 hbind
  have served := Backend.serves_of_replay? hreplay
  have short : h.length < 2 ^ 62 := by decide +kernel
  have clean : ∀ id < s.container.sketches.next, ¬ 0 < (s.container.sketch id).pending := by
    decide +kernel
  have hget : s.container.get? "k" = some 0 := by decide +kernel
  clear_value h s
  have readable : ({} : Backend).Readable := by
    intro key record hrecord
    cases (Std.TreeMap.getElem?_emptyc (a := key)).symm.trans hrecord
  have hstored := clean_means_persisted readable opens_sampleContainer run
    (by rwa [List.nil_append]) short "k" fun id hid _ => clean id hid
  rw [hget] at hstored
  rcases hstored with ⟨record', hrecord', hholds⟩ | ⟨-, -, hnone⟩
  · exact ⟨b', record', served, short, clean, hrecord', hholds⟩
  · rw [hlast] at hnone
    cases hnone

end DistinctCount
