import Mathlib.Tactic
import DistinctCount.Backend.Memory

namespace DistinctCount.Backend

variable {b b' : Backend} {request : Request} {answer : Answer} {key : String}
  {calls calls' : List (Request × Answer)}

def after (request : Request) (records : String → Option Record) (key : String) : Option Record :=
  match request with
  | .update target expiresAt data => if key = target then some { expiresAt, data } else records key
  | .delete target => if key = target then none else records key
  | .flush => records key
  | .flushAndStop => records key

/-- The records after the next call, if there is one. -/
def recorded (call : Option (Request × Answer)) (records : String → Option Record) :
    String → Option Record :=
  match call with
  | some (request, .ok ()) => after request records
  | _ => records

theorem get?_perform_ok (h : (b.perform request).2 = .ok ()) (key : String) :
    (b.perform request).1.get? key = after request b.get? key := by
  have hwrite (change : Backend → Backend) (h : (b.write change).2 = .ok ()) :
      (b.write change).1 = change b := by
    unfold write at h ⊢
    split at h
    · cases h
    · split at h
      · rename_i hstopped hfail
        rw [if_neg hstopped, if_pos hfail]
      · cases h
  cases request with
  | update target expiresAt data =>
    have hw : (b.perform (.update target expiresAt data)).1 = _ := hwrite _ h
    rw [hw]
    simp only [get?, insert, after, Std.TreeMap.getElem?_insert, Std.LawfulEqCmp.compare_eq_iff_eq,
      eq_comm (a := key)]
  | delete target =>
    have hw : (b.perform (.delete target)).1 = _ := hwrite _ h
    rw [hw]
    simp only [get?, after, Std.TreeMap.getElem?_erase, Std.LawfulEqCmp.compare_eq_iff_eq,
      eq_comm (a := key)]
  | flush =>
    have hw : (b.perform .flush).1 = _ := hwrite _ h
    rw [hw]
    rfl
  | flushAndStop =>
    simp only [perform, flushAndStop]
    split <;> rfl

theorem get?_perform_error {e : BackendError} (h : (b.perform request).2 = .error e)
    (key : String) : (b.perform request).1.get? key = b.get? key := by
  have hwrite (change : Backend → Backend) (h : (b.write change).2 = .error e) :
      (b.write change).1.get? key = b.get? key := by
    unfold write at h ⊢
    split
    · rfl
    · split
      · rename_i hstopped hfail
        rw [if_neg hstopped, if_pos hfail] at h
        cases h
      · rfl
  cases request with
  | update => exact hwrite _ h
  | delete => exact hwrite _ h
  | flush => exact hwrite _ h
  | flushAndStop =>
    simp only [perform, flushAndStop]
    split <;> rfl

/-- The store has given these answers to these requests. -/
inductive Serves (b : Backend) : List (Request × Answer) → Backend → Prop
  | refl : Serves b [] b
  | call {calls : List (Request × Answer)} {b' : Backend} (served : Serves b calls b')
      (failNext : Nat) (request : Request) :
      Serves b (calls ++ [(request, ({ b' with failNext }.perform request).2)])
        ({ b' with failNext }.perform request).1

theorem Serves.eq_of_nil (h : b.Serves [] b') : b' = b := by
  generalize hc : ([] : List (Request × Answer)) = calls at h
  cases h with
  | refl => rfl
  | call => simp at hc

theorem Serves.last (h : b.Serves (calls ++ [(request, answer)]) b') :
    ∃ b₁ failNext, b.Serves calls b₁ ∧ ({ b₁ with failNext }.perform request).2 = answer ∧
      b' = ({ b₁ with failNext }.perform request).1 := by
  generalize hc : calls ++ [(request, answer)] = all at h
  cases h with
  | refl => simp at hc
  | @call _ b₁ served failNext request' =>
    obtain ⟨rfl, hlast⟩ := List.append_inj' hc rfl
    obtain ⟨rfl, rfl⟩ := Prod.mk.inj (List.cons.inj hlast).1
    exact ⟨b₁, failNext, served, rfl, rfl⟩

/-- The last answer tells what the records are. -/
theorem Serves.last_get? (h : b.Serves (calls ++ [(request, answer)]) b') :
    ∃ b₁, b.Serves calls b₁ ∧ ∀ key, b'.get? key =
      if answer = .ok () then after request b₁.get? key else b₁.get? key := by
  obtain ⟨b₁, failNext, served, hanswer, rfl⟩ := h.last
  refine ⟨b₁, served, ?_⟩
  intro key
  cases answer with
  | ok _ =>
    rw [if_pos rfl]
    exact get?_perform_ok hanswer key
  | error e =>
    rw [if_neg nofun]
    exact get?_perform_error hanswer key

theorem Serves.recorded {call : Option (Request × Answer)}
    (h : b.Serves (calls ++ call.toList) b') :
    ∃ b₁, b.Serves calls b₁ ∧ b'.get? = recorded call b₁.get? := by
  match call with
  | none => exact ⟨b', by rwa [Option.toList_none, List.append_nil] at h, rfl⟩
  | some (request, .ok ()) =>
    obtain ⟨b₁, served, hget⟩ := h.last_get?
    exact ⟨b₁, served, funext fun key => (hget key).trans (if_pos rfl)⟩
  | some (request, .error e) =>
    obtain ⟨b₁, served, hget⟩ := h.last_get?
    exact ⟨b₁, served, funext fun key => (hget key).trans (if_neg nofun)⟩

theorem Serves.append (h : b.Serves (calls ++ calls') b') :
    ∃ b₁, b.Serves calls b₁ ∧ b₁.Serves calls' b' := by
  generalize hc : calls ++ calls' = all at h
  induction h generalizing calls' with
  | refl =>
    obtain ⟨rfl, rfl⟩ := List.append_eq_nil_iff.1 hc
    exact ⟨b, .refl, .refl⟩
  | @call all b₂ served failNext request ih =>
    rcases List.eq_nil_or_concat calls' with rfl | ⟨rest, last, rfl⟩
    · rw [List.append_nil] at hc
      exact ⟨_, hc ▸ served.call failNext request, .refl⟩
    · rw [List.concat_eq_append, ← List.append_assoc] at hc
      obtain ⟨hinit, hlast⟩ := List.append_inj' hc rfl
      obtain ⟨b₁, hfirst, hrest⟩ := ih hinit
      rw [List.concat_eq_append, hlast]
      exact ⟨b₁, hfirst, hrest.call failNext request⟩

theorem Serves.trans {b₁ : Backend} (h : b.Serves calls b₁) (h' : b₁.Serves calls' b') :
    b.Serves (calls ++ calls') b' := by
  induction h' with
  | refl => rwa [List.append_nil]
  | call _ failNext request ih =>
    rw [← List.append_assoc]
    exact ih.call failNext request

/-- What the store is told to fail before the first call does not matter, as it may be told anew. -/
theorem Serves.of_failNext {failNext : Nat} (h : Serves { b with failNext } calls b') :
    ∃ b₁ failNext', b.Serves calls b₁ ∧ b' = { b₁ with failNext := failNext' } := by
  induction h with
  | refl => exact ⟨b, failNext, .refl, rfl⟩
  | call _ failNext' request ih =>
    obtain ⟨b₁, _, hserves, rfl⟩ := ih
    exact ⟨_, _, hserves.call failNext' request, rfl⟩

def expecting (b : Backend) (answer : Answer) : Backend :=
  { b with failNext := if answer = Except.ok () then 0 else 1 }

/-- The store after calls, if it gives these answers. -/
def replay? (b : Backend) : List (Request × Answer) → Option Backend
  | [] => some b
  | (request, answer) :: calls =>
    if ((b.expecting answer).perform request).2 = answer then
      ((b.expecting answer).perform request).1.replay? calls
    else none

theorem serves_of_replay? (h : b.replay? calls = some b') : b.Serves calls b' := by
  induction calls generalizing b with
  | nil =>
    obtain rfl := Option.some.inj h
    exact .refl
  | cons call calls ih =>
    obtain ⟨request, answer⟩ := call
    rw [replay?, Option.ite_none_right_eq_some] at h
    have hone : b.Serves [(request, ((b.expecting answer).perform request).2)] _ :=
      Serves.refl.call _ request
    rw [h.1] at hone
    exact hone.trans (ih h.2)

end DistinctCount.Backend
