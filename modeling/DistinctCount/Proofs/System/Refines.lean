import DistinctCount.Proofs.Container.Table
import DistinctCount.Proofs.System.Coupled

namespace DistinctCount

open Container

namespace Table

/-- What an event does to the map. The tasks and the backend do nothing to it. -/
def next (config : Config) (t : Table) : Event → Table
  | .add now key value ttl => t.add config.hashing now key value.toList ttl
  | .addMany now key values ttl => t.add config.hashing now key values ttl
  | .updateExpiry now key ttl => (t.updateExpiry now key ttl).2
  | .delete key => t.erase key
  | .sweep now => (t.sweep now config.sweepBatch).2
  | _ => t

def replay (config : Config) (t : Table) (h : List Moment) : Table :=
  h.foldl (fun t m => t.next config m.event) t

end Table

namespace System

variable {s s' : System} {e : Event} {h : List Moment} {config : Config} {now : UInt64}
  {records : List (String × Record)} {c : Container} {t : Table}

/-- One event does to the map what it does to a container that is not shut down. -/
theorem shows_next? (hc : s.container.Coupled) (hs : s.container.Shows t)
    (hopen : s.container.closed = false) (h : s.next? e = some s') :
    s'.container.Shows (t.next s.container.config e) := by
  rcases next?_cases h with ⟨he, callers, rfl⟩ | htask
  · cases e with
    | add now key value ttl =>
      have hyields := yields_addMany hc now key value.toList ttl
      rw [← add_eq_addMany] at hyields
      exact hs.yields_add hyields
    | addMany now key values ttl => exact hs.yields_add (yields_addMany hc now key values ttl)
    | updateExpiry now key ttl => exact hs.updateExpiry hc now key ttl
    | delete key => exact hs.delete hc (by rw [hopen, Bool.and_false]) key
    | sweep now => exact (hs.sweep hc now).2
    | close | stop => exact hs
    | _ => cases he
  · have hshows := htask.alike.shows hs
    cases htask <;> exact hshows

theorem shows_run (run : Run s h s') (hc : s.container.Coupled) (hs : s.container.Shows t)
    (hopen : s'.container.closed = false) :
    s'.container.Shows (t.replay s.container.config h) := by
  induction run with
  | refl => exact hs
  | step run next ih =>
    obtain ⟨hcoupled, hconfig⟩ := coupled_run run hc
    obtain ⟨-, -, hclosed⟩ := coupled_next? hcoupled next
    have hstep := shows_next? hcoupled (ih (hclosed hopen)) (hclosed hopen) next
    rw [hconfig] at hstep
    rw [Table.replay, List.foldl_append]
    exact hstep

/--
Until it is shut down, a container and the map that its clients' events make of its records agree in all
that clients can see, and in what every next operation answers.
-/
theorem registry_refines_map (hc : Opened config now records c) (run : Run (System.start c) h s)
    (hopen : s.container.closed = false) :
    let t := (Table.ofRecords now records).replay config h
    (∀ key, s.container.contains key = t.contains key) ∧
    (∀ key, s.container.expiryOf key = t[key]?.map (·.expiresAt)) ∧
    s.container.keys = t.keys ∧ s.container.keyCount = t.size ∧
    (∀ key, (s.container.get? key).map (fun id => (s.container.sketch id).slots) =
      t[key]?.map (·.slots)) ∧
    (∀ key, s.container.cardinality key = t[key]?.elim 0 Account.estimate) ∧
    (∀ now key ttl, (s.container.updateExpiry now key ttl).1 = (t.updateExpiry now key ttl).1) ∧
    (∀ now, (s.container.sweep now).1 = (t.sweep now config.sweepBatch).1) ∧
    ∀ key, (s.container.beginDelete key).1 = .unknown ↔ key ∉ t := by
  intro t
  obtain ⟨hstart, hconfig, haccounts⟩ := hc.accounts
  obtain ⟨hcoupled, hsame⟩ := coupled_run run hstart
  have hshows := shows_run run hstart (shows_ofRecords haccounts) hopen
  have hsame : s.container.config = config := hsame.trans hconfig
  have hbegin : (System.start c).container.config = config := hconfig
  rw [hbegin] at hshows
  refine ⟨hshows.contains, hshows.expiryOf, hshows.keys hcoupled, hshows.keyCount hcoupled,
    hshows.slots, hshows.cardinality hcoupled, hshows.fst_updateExpiry hcoupled, ?_, ?_⟩
  · intro now
    rw [← hsame]
    exact (hshows.sweep hcoupled now).1
  · intro key
    rw [fst_beginDelete (by rw [hopen, Bool.and_false]), ← hshows key,
      Std.TreeMap.mem_iff_isSome_getElem?, Option.not_isSome_iff_eq_none]

def refinedEvents : List Event :=
  [.addMany 1 "a" [[1], [2]] 0, .add 1 "b" (some [3]) 50, .add 2 "c" none 0, .delete "c",
    .sweep 128]

theorem registry_refines_map_sample :
    let s := ((System.start sampleContainer).played refinedEvents (by decide +kernel)).2
    s.container.closed = false ∧ s.container.keys = ["a"] ∧ s.container.contains "b" = false ∧
      (s.container.beginDelete "c").1 = .unknown := by
  intro s
  have hopen : s.container.closed = false := by decide +kernel
  have run : Run (System.start sampleContainer) _ s :=
    (System.start sampleContainer).run_played refinedEvents (by decide +kernel)
  clear_value s
  obtain ⟨hcontains, -, hkeys, -, -, -, -, -, hfound⟩ := registry_refines_map
    (.stored ({} : Backend) [] sampleContainer opens_sampleContainer) run hopen
  refine ⟨hopen, hkeys.trans ?_, (hcontains "b").trans ?_, (hfound "c").2 ?_⟩ <;> decide +kernel

end System

end DistinctCount
