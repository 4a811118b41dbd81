import DistinctCount.Proofs.Backend.Caller
import DistinctCount.Proofs.Schedule.Opening

namespace DistinctCount

open Container Schedule

namespace Caller

/-- A write. What it finds when its `i`-th call is answered is up to those who moved meanwhile. -/
def writes (w : Nat → WriteBack) : Caller Job (WriteBack × Progress × List Notice) where
  request? job := some job.request
  attempt := Job.attempt
  hear i job answer :=
    match (w i).proceed job answer with
    | (_, .pause pause job, _) => .inl (pause, job)
    | next => .inr next

/-- An opening that has expired records to delete. -/
def opens : Caller Opening Opening where
  request? := Opening.request?
  attempt := Opening.attempt
  hear _ o answer :=
    match o.proceed answer with
    | (some pause, o) => .inl (pause, o)
    | (none, o) => .inr o

variable {p : RetryPolicy} {key : String} {rest : List String}

end Caller

namespace Schedule

def Phase.Rested (phase : Phase) (w : World) : Prop :=
  ∀ due, phase = .resting due → due ≤ w.clock.now

namespace World

variable {w w' : World} {t : TaskId} {due : Nat} {request : Request} {phase : Phase}

theorem containers_sleep (h : w.sleep t due = .ok w' ∨ w.sleep t due = .error w') :
    w'.containers = w.containers := by
  unfold sleep at h
  split at h
  · rcases h with h | h <;> cases h
    rfl
  · split at h
    · rcases h with h | h <;> cases h
      rfl
    · rcases h with h | h <;> cases h
      rfl

theorem containers_arrive (w : World) (t : TaskId) (due : Nat) (request : Request) :
    (w.arrive t due request).1.containers = w.containers := by
  unfold arrive
  split
  · rename_i heq
    exact containers_sleep (.inr heq)
  · rename_i heq
    have hslept := containers_sleep (.inl heq)
    exact hslept

theorem containers_dispatch (w : World) (t : TaskId) (request : Request) :
    (w.dispatch t request).1.containers = w.containers := by
  unfold dispatch
  split
  · rfl
  · exact containers_arrive w t _ request

theorem containers_converse (w : World) (t : TaskId) (phase : Phase) (request : Request) :
    (w.converse t phase request).1.containers = w.containers := by
  unfold converse
  split
  · exact containers_dispatch w t request
  · split
    · rename_i heq
      exact containers_sleep (.inr heq)
    · rename_i heq
      exact (containers_dispatch _ t request).trans (containers_sleep (.inl heq))
  · exact containers_arrive w t _ request

theorem rested_or_converse (w : World) (t : TaskId) (phase : Phase) (request : Request) :
    phase.Rested w ∨ (w.converse t phase request).2 = .error phase := by
  cases phase with
  | ready => exact .inl nofun
  | calling => exact .inl nofun
  | resting due =>
    by_cases hdue : due ≤ w.clock.now
    · exact .inl fun _ h => Phase.resting.inj h ▸ hdue
    · refine .inr ?_
      have hsleep : ∃ w', w.sleep t due = .error w' := by
        unfold sleep
        rw [if_neg hdue]
        split <;> exact ⟨_, rfl⟩
      obtain ⟨w', heq⟩ := hsleep
      simp only [converse, heq]

theorem sameCalls_wakeInformed (w : World) (home : Home) : SameCalls w (w.wakeInformed home) :=
  sameCalls_wakeAll w _

structure Makes (w : World) (request : Request) (answer : Backend.Answer) (w' : World) : Prop where
  store : (w'.link.backend, answer) = w.link.backend.perform request
  calls : ∃ time, w'.calls = { time, request, answer } :: w.calls

theorem Makes.sameCalls {w'' : World} {answer : Backend.Answer} (h : w.Makes request answer w')
    (hsame : SameCalls w' w'') : w.Makes request answer w'' where
  store := by rw [hsame.link, h.store]
  calls := by rw [hsame.calls]; exact h.calls

/-- A task waits and calls nothing, or it makes its call after its pause. -/
theorem converse_spec (w : World) (t : TaskId) (phase : Phase) (request : Request) :
    (∃ w' phase', w.converse t phase request = (w', .error phase') ∧ SameCalls w w' ∧
      (phase.Rested w ∨ phase' = phase)) ∨
    ∃ w' answer, w.converse t phase request = (w', .ok answer) ∧ phase.Rested w ∧
      w.Makes request answer w' ∧ w'.containers = w.containers := by
  have hcontainers := containers_converse w t phase request
  have hrested := rested_or_converse w t phase request
  rcases waitsOrCalls_converse w t phase request with ⟨w', phase', heq, hsame⟩ | ⟨w', hsame, heq⟩
  · rw [heq] at hrested
    exact .inl ⟨w', phase', heq, hsame, hrested.imp_right Except.error.inj⟩
  · rw [heq] at hcontainers hrested
    refine .inr ⟨_, _, heq, hrested.resolve_right nofun, ⟨?_, w'.clock.now, ?_⟩, hcontainers⟩
    · rw [← hsame.link]
      rfl
    · rw [← hsame.calls]
      rfl

end World

end Schedule

end DistinctCount
