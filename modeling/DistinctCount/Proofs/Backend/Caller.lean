import Mathlib.Order.Bounds.Basic
import DistinctCount.Proofs.WriteBack.Closes

namespace DistinctCount

inductive Deed
  /-- The call is made. The number is the one that its caller has counted up to. -/
  | call (request : Request) (number : Nat) (answer : Backend.Answer)
  | sleep (length : Duration)

/-- Someone who makes a call and takes the answer to his `i`-th call: he sleeps, or he is done. -/
structure Caller (σ ρ : Type) where
  request? : σ → Option Request
  attempt : σ → UInt32
  hear : Nat → σ → Backend.Answer → (Duration × σ) ⊕ ρ

namespace Caller

variable {σ ρ : Type} {x : Caller σ ρ} {answers : Nat → Backend.Answer} {i : Nat} {s : σ}
  {deeds : List Deed} {result : ρ}

/-- All deeds from the `i`-th call on to the end, if `answers i` is the answer to the `i`-th call. -/
inductive Runs (x : Caller σ ρ) (answers : Nat → Backend.Answer) : Nat → σ → List Deed → ρ → Prop
  | last {i : Nat} {s : σ} {request : Request} {result : ρ} (call : x.request? s = some request)
    (heard : x.hear i s (answers i) = .inr result) :
    Runs x answers i s [.call request (x.attempt s).toNat (answers i)] result
  | again {i : Nat} {s s' : σ} {request : Request} {pause : Duration} {deeds : List Deed}
    {result : ρ} (call : x.request? s = some request)
    (heard : x.hear i s (answers i) = .inl (pause, s')) (rest : Runs x answers (i + 1) s' deeds result) :
    Runs x answers i s (.call request (x.attempt s).toNat (answers i) :: .sleep pause :: deeds) result

/-- The answers leave no choice. -/
theorem Runs.unique (h : x.Runs answers i s deeds result) {deeds' : List Deed} {result' : ρ}
    (h' : x.Runs answers i s deeds' result') : deeds' = deeds ∧ result' = result := by
  induction h generalizing deeds' result' with
  | last call heard =>
    cases h' with
    | last call' heard' =>
      obtain rfl := Option.some.inj (call'.symm.trans call)
      exact ⟨rfl, Sum.inr.inj (heard'.symm.trans heard)⟩
    | again call' heard' => cases heard'.symm.trans heard
  | again call heard rest ih =>
    cases h' with
    | last call' heard' => cases heard'.symm.trans heard
    | again call' heard' rest' =>
      obtain rfl := Option.some.inj (call'.symm.trans call)
      obtain ⟨rfl, rfl⟩ := Prod.mk.inj (Sum.inl.inj (heard'.symm.trans heard))
      obtain ⟨rfl, rfl⟩ := ih rest'
      exact ⟨rfl, rfl⟩

end Caller

/-- An answer that is more than a failure that may pass. -/
def Conclusive (answer : Backend.Answer) : Prop :=
  ∀ reason, answer ≠ .error (.unavailable reason)

namespace RetryPolicy

variable {p : RetryPolicy} {request : Request} {answers : Nat → Backend.Answer} {n : UInt32}
  {answer : Backend.Answer}

/-- Calls numbered from `i` on with a sleep after each of them, and then the last call. -/
def deedsFrom (p : RetryPolicy) (request : Request) (answers : Nat → Backend.Answer) (i sleeps : Nat) :
    List Deed :=
  (List.range' i sleeps).flatMap (fun j => [.call request j (answers j), .sleep (p.backoff (.ofNat j))]) ++
    [.call request (i + sleeps) (answers (i + sleeps))]

/-- A number of calls in all, each but the last followed by the pause that belongs to it. -/
def deeds (p : RetryPolicy) (request : Request) (answers : Nat → Backend.Answer) (calls : Nat) :
    List Deed :=
  p.deedsFrom request answers 1 (calls - 1)

/-- The place of the last call: the first conclusive answer, or the limit if it comes before that. -/
def IsLastCall (p : RetryPolicy) (answers : Nat → Backend.Answer) (calls : Nat) : Prop :=
  IsLeast ({max 1 p.maxAttempts.toNat} ∪ {i | 1 ≤ i ∧ Conclusive (answers i)}) calls

namespace IsLastCall

variable {calls : Nat}

theorem pos (h : p.IsLastCall answers calls) : 1 ≤ calls := by
  rcases h.1 with heq | hmem
  · rw [Set.mem_singleton_iff.1 heq]
    exact Nat.le_max_left _ _
  · exact hmem.1

theorem le_limit (h : p.IsLastCall answers calls) : calls ≤ max 1 p.maxAttempts.toNat :=
  h.2 (.inl rfl)

theorem before (h : p.IsLastCall answers calls) {i : Nat} (hpos : 1 ≤ i) (hi : i < calls) :
    ¬ Conclusive (answers i) ∧ i < p.maxAttempts.toNat := by
  refine ⟨fun hc => Nat.not_le.2 hi (h.2 (.inr ⟨hpos, hc⟩)), ?_⟩
  have hle := h.le_limit
  omega

theorem last (h : p.IsLastCall answers calls) :
    Conclusive (answers calls) ∨ p.maxAttempts.toNat ≤ calls := by
  rcases h.1 with heq | hmem
  · rw [Set.mem_singleton_iff.1 heq]
    exact .inr (Nat.le_max_right _ _)
  · exact .inl hmem.2

end IsLastCall

end RetryPolicy

namespace Caller

variable {σ ρ : Type} {x : Caller σ ρ} {p : RetryPolicy} {request : Request} {state : UInt32 → σ}
  {conclude : Nat → Backend.Answer → ρ} {answers : Nat → Backend.Answer} {i sleeps calls : Nat}

end Caller

end DistinctCount
