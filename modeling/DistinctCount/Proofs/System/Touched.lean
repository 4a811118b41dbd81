import DistinctCount.Proofs.Container.Filed
import DistinctCount.Proofs.System.Sane

namespace DistinctCount

def Moment.Touches (m : Moment) (id : SketchId) : Prop :=
  match m.event with
  | .add now key (some value) ttl =>
    value ≠ [] ∧ (m.before.container.getOrCreate now key ttl).1 = id
  | .addMany now key values ttl =>
    (∃ value ∈ values, value ≠ []) ∧ (m.before.container.getOrCreate now key ttl).1 = id
  | .updateExpiry _ key _ => m.before.container.get? key = some id
  | _ => False

instance (id : SketchId) : DecidablePred (Moment.Touches · id) := fun ⟨s, e⟩ =>
  match e with
  | .add _ _ none _ => inferInstanceAs (Decidable False)
  | .add now key (some value) ttl =>
    inferInstanceAs (Decidable (value ≠ [] ∧ (s.container.getOrCreate now key ttl).1 = id))
  | .addMany now key values ttl => inferInstanceAs (Decidable
      ((∃ value ∈ values, value ≠ []) ∧ (s.container.getOrCreate now key ttl).1 = id))
  | .updateExpiry _ key _ => inferInstanceAs (Decidable (s.container.get? key = some id))
  | .delete _ | .deleteEnds .. | .sweep _ | .close | .stop | .saverTake _ | .saverSend _
  | .saverWait _ | .saverStop _ | .writerTake | .writerAnswer _ | .writerEnd | .drainBegin
  | .drainAdvance | .drainAnswer _ | .backendStop _ => inferInstanceAs (Decidable False)

namespace System

open Container Registry

variable {s s' : System} {e : Event} {h : List Moment} {n : Nat} {id : SketchId}

/-- A task changes no sketch, or it takes in the answer to a write. -/
theorem Task.registry (htask : s.Task e s') :
    s'.container.toRegistry = s.container.toRegistry ∨ ∃ job answer,
      s'.container.toWriteBack = (s.container.toWriteBack.proceed job answer).1 := by
  cases htask with
  | writerAnswer job answer => exact .inr ⟨job, answer, rfl⟩
  | drainAnswer drain job answer => exact .inr ⟨job, answer, rfl⟩
  | _ => exact .inl rfl

theorem Task.kept (htask : s.Task e s') :
    Kept Sketch.state s.container.toRegistry s'.container.toRegistry := by
  rcases htask.registry with heq | ⟨job, answer, heq⟩
  · exact kept_of_sketches (congrArg Registry.sketches heq)
  · have hkept := (WriteBack.outcome_proceed s.container.toWriteBack job answer).kept
    rw [← heq] at hkept
    exact hkept.map Sketch.state

theorem Sane.slots_next? (hs : s.Sane n) (hn : n < 2 ^ 62) (ht : ¬ Moment.Touches ⟨s, e⟩ id)
    (he : s.next? e = some s') : (s'.container.sketch id).slots = (s.container.sketch id).slots := by
  have hc := hs.coherent
  have hp := hs.orderly.persistent
  rcases next?_cases he with ⟨-, callers, rfl⟩ | htask
  · cases e with
    | add now key value ttl =>
      rw [Event.applied, add_eq_addMany]
      apply slots_addMany_of_absent hc hn hp
      rintro ⟨⟨v, hv, hne⟩, hid⟩
      obtain rfl := Option.mem_toList.1 hv
      exact ht ⟨hne, hid⟩
    | addMany now key values ttl => exact slots_addMany_of_absent hc hn hp ht
    | updateExpiry now key ttl => exact (kept_updateExpiry hc hn hp now key ttl).sketch id
    | delete key => exact congrArg Prod.fst ((kept_beginDelete hc hn hp key).sketch id)
    | sweep now => exact congrArg Prod.fst ((kept_sweep s.container now).sketch id)
    | _ => rfl
  · exact congrArg (·.1.1) (htask.kept.sketch id)

theorem Sane.slots_run_of_untouched (hs : s.Sane n) (run : Run s h s') (hn : n + h.length ≤ 2 ^ 62)
    (ht : ∀ m ∈ h, ¬ m.Touches id) :
    (s'.container.sketch id).slots = (s.container.sketch id).slots := by
  induction run with
  | refl => rfl
  | step run next ih =>
    rw [List.length_append, List.length_singleton, ← Nat.add_assoc] at hn
    have hlast := (hs.run run (by omega)).slots_next? (by omega)
      (ht _ (List.mem_append_right _ (List.mem_singleton.2 rfl))) next
    exact hlast.trans (ih (by omega) fun m hm => ht m (List.mem_append_left _ hm))

theorem Sane.filed_next? (hs : s.Sane n) (hn : n < 2 ^ 62) (hf : s.container.toRegistry.Filed)
    (he : s.next? e = some s') : s'.container.toRegistry.Filed := by
  have hc := hs.coherent
  have hp := hs.orderly.persistent
  rcases next?_cases he with ⟨-, callers, rfl⟩ | htask
  · cases e with
    | add now key value ttl =>
      rw [Event.applied, add_eq_addMany]
      exact filed_addMany hf hc hn hp now key _ ttl
    | addMany now key values ttl => exact filed_addMany hf hc hn hp now key values ttl
    | updateExpiry now key ttl => exact filed_updateExpiry hf hc hn hp now key ttl
    | delete key => exact filed_beginDelete hf hc hn hp key
    | sweep now => exact filed_sweep hf now
    | _ => exact hf
  · exact hf.kept htask.kept

theorem Sane.filed_run (hs : s.Sane n) (hf : s.container.toRegistry.Filed) (run : Run s h s')
    (hn : n + h.length ≤ 2 ^ 62) : s'.container.toRegistry.Filed := by
  induction run with
  | refl => exact hf
  | step run next ih =>
    rw [List.length_append, List.length_singleton, ← Nat.add_assoc] at hn
    exact (hs.run run (by omega)).filed_next? (by omega) (ih (by omega)) next

end System

end DistinctCount
