import DistinctCount.Proofs.Container.Effect
import DistinctCount.Proofs.System.Opening

namespace DistinctCount

/-- What a record says of its key: nothing if it has expired or does not decode. -/
def Record.account? (now : UInt64) (record : Record) : Option Account :=
  if record.Current now then
    match Slots.decode record.data with
    | .ok d => some { slots := d.slots, expiresAt := record.expiresAt }
    | .error _ => none
  else none

namespace Container

variable {c c' : Container} {config : Config} {now : UInt64} {key : String} {record : Record}
  {records : List (String × Record)}

theorem coupled_create (config : Config) (persistent : Bool) : (create config persistent).Coupled := by
  have hnone (k : String) : (create config persistent).get? k = none := Shards.get?_ofCount
  refine ⟨⟨(coherent_create config persistent).sound, ?_, nofun, Expiry.Index.filled_empty, ?_, rfl⟩,
    ?_⟩
  · intro b k _
    rw [listing, hnone]
    exact Expiry.Index.get?_empty
  · simp [create, Shards.ofCount, Shards.count]
  · intro k id hid
    rw [hnone] at hid
    cases hid

theorem account?_create (config : Config) (persistent : Bool) (k : String) :
    (create config persistent).account? k = none := by
  have hnone : (create config persistent).get? k = none := Shards.get?_ofCount
  rw [account?, hnone]
  rfl

theorem Coupled.yields_self (hc : c.Coupled) (hfree : c.get? key = none) :
    Yields c (fun k => if k = key then none else c.account? k) c := by
  have hsame : (fun k => if k = key then none else c.account? k) = c.account? := by
    funext k
    split
    · rename_i hk
      rw [hk, account?, hfree]
      rfl
    · rfl
  rw [hsame]
  exact hc.yields

theorem yields_restoreRecord (now : UInt64) (hc : c.Coupled) (hfree : c.get? key = none) (record : Record)
    (expired : List String) :
    Yields c (fun k => if k = key then record.account? now else c.account? k)
      (restoreRecord now (c, expired) key record).1 := by
  rcases restoreRecord_cases c now expired key record with
    ⟨s, hcurrent, hbytes, htake⟩ | ⟨hcurrent, hrefused, hstay⟩ | ⟨hcurrent, hstay⟩
  · have hvalid := Sketch.valid_ofBytes hbytes
    have hrecord : record.account? now = some s.account := by
      obtain ⟨d, hd, rfl⟩ := Sketch.ofBytes_eq_ok.1 hbytes
      rw [Record.account?, if_pos hcurrent, hd]
      rfl
    obtain ⟨d, -, rfl⟩ := Sketch.ofBytes_eq_ok.1 hbytes
    obtain ⟨c', heq, hget, haccount, hplaced, hl, haside⟩ :=
      yields_adopt hc hvalid rfl rfl rfl hfree
    rw [htake, hrecord, heq, ← haccount]
    exact .of_present hc haside hl hget hplaced
  · have hnone : record.account? now = none := by
      rw [Record.account?, if_pos hcurrent]
      cases hdecode : Slots.decode record.data with
      | error => rfl
      | ok d => exact absurd hdecode (hrefused d)
    rw [hstay, hnone]
    exact hc.yields_self hfree
  · rw [hstay, Record.account?, if_neg hcurrent]
    exact hc.yields_self hfree

/-- The accounts after the records, of which those of one key replace one another. -/
theorem yields_restore (now : UInt64) (hc : c.Coupled) (hfree : ∀ entry ∈ records, c.get? entry.1 = none)
    (hdistinct : (records.map (·.1)).Nodup) (expired : List String) :
    Yields c (fun k => (records.lookup k).elim (c.account? k) (·.account? now))
      (records.foldl (fun state (key, record) =>
        restoreRecord now state key record) (c, expired)).1 := by
  induction records generalizing c expired with
  | nil => exact hc.yields
  | cons entry records ih =>
    obtain ⟨key, record⟩ := entry
    obtain ⟨hnew, hdistinct⟩ := List.nodup_cons.1 hdistinct
    have hfirst := yields_restoreRecord now hc (hfree (key, record) List.mem_cons_self)
      record expired
    obtain ⟨c₁, expired₁, heq⟩ : ∃ c₁ expired₁,
        restoreRecord now (c, expired) key record = (c₁, expired₁) := ⟨_, _, rfl⟩
    simp only [heq] at hfirst
    have hrest := ih hfirst.coupled ?_ hdistinct expired₁
    · simp only [List.foldl_cons, heq]
      refine ⟨hrest.coupled, fun k => (hrest.account k).trans ?_,
        hrest.config.trans hfirst.config, hrest.closed.trans hfirst.closed⟩
      rw [hfirst.account k, List.lookup_cons]
      by_cases hk : k = key
      · subst hk
        have hgone : records.lookup k = none := by
          rw [List.lookup_eq_none_iff]
          intro entry he
          exact bne_iff_ne.2 fun h => hnew (List.mem_map.2 ⟨entry, he, h.symm⟩)
        simp only [hgone, beq_self_eq_true, if_true, Option.elim_none, Option.elim_some]
      · have hne : (k == key) = false := beq_eq_false_iff_ne.2 hk
        simp only [hne, hk, if_false]
    · intro entry he
      have hne : entry.1 ≠ key := fun h => hnew (List.mem_map.2 ⟨entry, he, h⟩)
      rw [← account?_eq_none, hfirst.account, if_neg hne, account?_eq_none]
      exact hfree entry (List.mem_cons_of_mem _ he)

theorem yields_bury (hc : c.Coupled) (key : String) : Yields c c.account? (c.bury key) := by
  have hget (k : String) : (c.bury key).get? k = c.get? k := rfl
  have hold {k : String} {id : SketchId} (hid : c.get? k = some id) :
      (c.bury key).sketch id = c.sketch id := by
    rw [sketch_bury, if_neg (Nat.ne_of_lt (hc.get?_eq_some.1 hid).1)]
  have hcore (k : String) (id : SketchId) (hid : c.get? k = some id) :
      ((c.bury key).sketch id).core = (c.sketch id).core := by rw [hold hid]
  refine ⟨⟨⟨hc.sound.make rfl rfl, ?_, nofun, hc.filled, hc.count, hc.hashing⟩, ?_⟩, ?_, rfl, rfl⟩
  · intro b k hb
    rw [listing_congr (hget k) (hcore k) b]
    exact hc.listed b k hb
  · intro k id hid
    rw [hold hid]
    exact hc.placed k id hid
  · intro k
    rw [account?, account?, hget]
    cases hid : c.get? k with
    | none => rfl
    | some id => rw [Option.map_some, Option.map_some, hold hid]

theorem yields_deferDelete (hc : c.Coupled) (key : String) :
    Yields c c.account? (c.deferDelete key) :=
  (yields_bury hc key).alike (alike_schedule (c.bury key) c.sketches.next)

end Container

open Container

theorem Opens.yields {o : Opening} {calls : List (Request × Backend.Answer)} {c : Container}
    (h : Opens o calls c) (ho : o.container.Coupled) :
    Yields o.container o.container.account? c := by
  induction h with
  | done => exact ho.yields
  | @step o request answer calls c call rest ih =>
    obtain ⟨key, expired, hkey, -⟩ := request?_eq_some call
    rcases proceed_cases hkey answer with ⟨e, -, heq⟩ | ⟨-, heq⟩ | ⟨e, -, heq⟩
    · rw [heq] at ih
      exact ih ho
    · rw [heq] at ih
      exact ih ho
    · have hdefer := yields_deferDelete ho key
      rw [heq] at ih
      have hrest := ih hdefer.coupled
      exact ⟨hrest.coupled, fun k => (hrest.account k).trans (hdefer.account k),
        hrest.config.trans hdefer.config, hrest.closed.trans hdefer.closed⟩

/-- The containers that are opened with a configuration, and the records that they begin with. -/
inductive Opened (config : Config) (now : UInt64) : List (String × Record) → Container → Prop
  | memory : Opened config now [] (create config false)
  | stored (b : Backend) (calls : List (Request × Backend.Answer)) (c : Container)
      (opens : Opens (beginOpen config now b.scan) calls c) : Opened config now b.scan c

/-- A container that is opened has the accounts of its records. -/
theorem Opened.accounts {config : Config} {now : UInt64} {records : List (String × Record)}
    {c : Container} (h : Opened config now records c) :
    c.Coupled ∧ c.config = config ∧ ∀ k, c.account? k = (records.lookup k).bind (·.account? now) := by
  cases h with
  | memory => exact ⟨coupled_create config false, rfl, account?_create config false⟩
  | stored b calls c opens =>
    have hcreate := coupled_create config true
    have hfree : ∀ entry ∈ b.scan, (create config true).get? entry.1 = none :=
      fun entry _ => account?_eq_none.1 (account?_create config true entry.1)
    have hrestore := yields_restore now hcreate hfree b.nodup_scan []
    have hopens := opens.yields hrestore.coupled
    refine ⟨hopens.coupled, hopens.config.trans hrestore.config, fun k => ?_⟩
    refine (hopens.account k).trans ((hrestore.account k).trans ?_)
    rw [account?_create]
    cases b.scan.lookup k <;> rfl

end DistinctCount
