import DistinctCount.Proofs.Backend.Serves
import DistinctCount.Proofs.System.Move
import DistinctCount.Proofs.WriteBack.Succeeded

namespace DistinctCount

namespace Backend

variable {b : Backend} {request : Request}

def Answer.faults : Answer → Nat
  | .ok () => 0
  | .error _ => 1

/-- The store after it was told to fail the next calls, if it was. -/
def told (b : Backend) (failNext : Option Nat) : Backend :=
  { b with failNext := failNext.getD b.failNext }

theorem perform_of_open (hopen : b.stopped = false) (hr : request ≠ .flushAndStop) :
    (b.perform request).1.stopped = false ∧ (b.perform request).2 ≠ .error .stopped := by
  have hwrite (change : Backend → Backend) (hsame : (change b).stopped = b.stopped) :
      (b.write change).1.stopped = false ∧ (b.write change).2 ≠ .error .stopped := by
    unfold write
    rw [if_neg (by simp [hopen])]
    split
    · exact ⟨hsame.trans hopen, nofun⟩
    · exact ⟨hopen, nofun⟩
  cases request with
  | update => exact hwrite _ rfl
  | delete => exact hwrite _ rfl
  | flush => exact hwrite _ rfl
  | flushAndStop => exact absurd rfl hr

end Backend

theorem Job.request_ne (job : Job) : job.request ≠ .flushAndStop := by
  unfold request
  split <;> exact nofun

/-- A drain, its store and what has gone wrong so far. -/
structure Drainage where
  container : Container
  backend : Backend
  calls : Nat := 0
  failedCalls : Nat := 0
  /-- Writes that were given up after a failed call and left to another write. -/
  failedWrites : Nat := 0

namespace Drainage

def answered (s : Drainage) (drain : Drain) (job : Job) (failNext : Option Nat) : Drainage :=
  let (backend, answer) := (s.backend.told failNext).perform job.request
  let (progress, container) := s.container.drainProceed drain job answer
  { container
    backend
    calls := s.calls + 1
    failedCalls := s.failedCalls + answer.faults
    failedWrites := s.failedWrites + if progress.job?.isNone then answer.faults else 0 }

/-- One move of a drain that has not returned; `told` is what the store is told before each call. -/
def step (told : Nat → Option Nat) (s : Drainage) : Drainage :=
  match s.container.drain with
  | some (drain, none) => { s with container := (s.container.drainAdvance drain).2 }
  | some (drain, some job) => s.answered drain job (told s.calls)
  | none => s

variable {s s' : Drainage} {drain : Drain} {job : Job} {told : Nat → Option Nat} {limit : Nat}

theorem step_of_returned (h : s.container.drain = none) : s.step told = s := by
  rw [step, h]

theorem step_of_idle (h : s.container.drain = some (drain, none)) :
    s.step told = { s with container := (s.container.drainAdvance drain).2 } := by
  rw [step, h]

theorem step_of_job (h : s.container.drain = some (drain, some job)) :
    s.step told = s.answered drain job (told s.calls) := by
  rw [step, h]

inductive Answered (s : Drainage) (drain : Drain) (job : Job) (s' : Drainage) : Prop
  | again (writeBack : s'.container.toWriteBack = s.container.toWriteBack)
      (next : s'.container.drain = some (drain, some { job with attempt := job.attempt + 1 }))
      (records : s'.backend.get? = s.backend.get?)
      (more : job.attempt < s.container.retry.maxAttempts)
      (failed : s'.failedCalls = s.failedCalls + 1 ∧ s'.failedWrites = s.failedWrites)
  | flush (stage : job.stage = .delete)
      (writeBack : s'.container.toWriteBack = s.container.dismissed job.sketch)
      (next : s'.container.drain = some (drain, some
        { job with stage := .flush (s.container.sketch job.sketch).waiters, attempt := 1 }))
      (records : s'.backend.get? = Backend.after job.request s.backend.get?)
      (failed : s'.failedCalls = s.failedCalls ∧ s'.failedWrites = s.failedWrites)
  | success (writeBack : s'.container.toWriteBack = s.container.succeeded job)
      (next : s'.container.drain = some (drain, none))
      (records : s'.backend.get? = Backend.after job.request s.backend.get?)
      (failed : s'.failedCalls = s.failedCalls ∧ s'.failedWrites = s.failedWrites)
  | failure (w : WriteBack)
      (left : w = s.container.toWriteBack ∨ w = s.container.dismissed job.sketch)
      (writeBack : s'.container.toWriteBack = w.enqueue job.sketch)
      (next : s'.container.drain = some (drain, none))
      (records : s'.backend.get? = s.backend.get?)
      (last : s.container.retry.maxAttempts ≤ job.attempt)
      (failed : s'.failedCalls = s.failedCalls + 1 ∧ s'.failedWrites = s.failedWrites + 1)

theorem answered_spec (drain : Drain) (job : Job) (hopen : s.backend.stopped = false)
    (failNext : Option Nat) :
    (s.answered drain job failNext).backend.stopped = false ∧
      Answered s drain job (s.answered drain job failNext) := by
  have htold : (s.backend.told failNext).stopped = false := hopen
  obtain ⟨hstay, hne⟩ := Backend.perform_of_open htold job.request_ne
  refine ⟨hstay, ?_⟩
  have outcome := WriteBack.outcome_proceed s.container.toWriteBack job
    ((s.backend.told failNext).perform job.request).2
  have hok (h : ((s.backend.told failNext).perform job.request).2 = .ok ()) :
      (s.answered drain job failNext).backend.get? = Backend.after job.request s.backend.get? :=
    funext fun key => Backend.get?_perform_ok h key
  have herror {e : BackendError} (h : ((s.backend.told failNext).perform job.request).2 = .error e) :
      (s.answered drain job failNext).backend.get? = s.backend.get? :=
    funext fun key => Backend.get?_perform_error h key
  have hw : (s.answered drain job failNext).container.toWriteBack =
      (s.container.proceed job ((s.backend.told failNext).perform job.request).2).1 := rfl
  have hnext : (s.answered drain job failNext).container.drain = some (drain,
      (s.container.proceed job ((s.backend.told failNext).perform job.request).2).2.1.job?) := rfl
  have hcalls : (s.answered drain job failNext).failedCalls = s.failedCalls +
      Backend.Answer.faults ((s.backend.told failNext).perform job.request).2 := rfl
  have hwrites : (s.answered drain job failNext).failedWrites = s.failedWrites +
      if (s.container.proceed job ((s.backend.told failNext).perform job.request).2).2.1.job?.isNone then
        Backend.Answer.faults ((s.backend.told failNext).perform job.request).2 else 0 := rfl
  generalize s.answered drain job failNext = s' at hok herror hw hnext hcalls hwrites ⊢
  generalize ((s.backend.told failNext).perform job.request).2 = answer at *
  generalize (s.container.proceed job answer).1 = w' at *
  generalize (s.container.proceed job answer).2.1 = progress at *
  generalize (s.container.proceed job answer).2.2 = notices at *
  cases outcome with
  | pause e length error more => exact .again hw hnext (herror rfl) more ⟨hcalls, hwrites⟩
  | flush stage waiting => exact .flush stage hw hnext (hok rfl) ⟨hcalls, hwrites⟩
  | updated expiresAt data stage =>
    have hsucceeded := WriteBack.succeeded_of_update s.container.toWriteBack stage
    exact .success (hw.trans hsucceeded.symm) hnext (hok rfl) ⟨hcalls, hwrites⟩
  | deleted stage =>
    have hstage : ∀ expiresAt data, job.stage ≠ .update expiresAt data := by
      rw [stage]
      exact nofun
    have hsucceeded := WriteBack.succeeded_of_ne_update s.container.toWriteBack hstage
    exact .success (hw.trans hsucceeded.symm) hnext (hok rfl) ⟨hcalls, hwrites⟩
  | confirmed waiters stage =>
    have hstage : ∀ expiresAt data, job.stage ≠ .update expiresAt data := by
      rw [stage]
      exact nofun
    have hsucceeded := WriteBack.succeeded_of_ne_update s.container.toWriteBack hstage
    exact .success (hw.trans hsucceeded.symm) hnext (hok rfl) ⟨hcalls, hwrites⟩
  | postponed e error told w left last =>
    exact .failure w (left.imp And.left And.left) hw hnext (herror rfl) last ⟨hcalls, hwrites⟩
  | abandoned => exact absurd rfl hne

theorem open_step (hopen : s.backend.stopped = false) : (s.step told).backend.stopped = false := by
  match hdrain : s.container.drain with
  | none => rwa [step_of_returned hdrain]
  | some (drain, none) => rwa [step_of_idle hdrain]
  | some (drain, some job) =>
    rw [step_of_job hdrain]
    exact (answered_spec drain job hopen _).1

/-! ### The drain returns -/

/-- What is left to do of the drain: passes, queues, sketches, stages of a write, attempts of a call. -/
def left (s : Drainage) : ℕ ×ₗ ℕ ×ₗ ℕ ×ₗ ℕ ×ₗ ℕ :=
  match s.container.drain with
  | none => toLex (0, toLex (0, toLex (0, toLex (0, 0))))
  | some (drain, none) =>
    toLex (drain.passes + 1, toLex (8 - drain.queue, toLex (2 * drain.batch.length, toLex (0, 0))))
  | some (drain, some job) =>
    toLex (drain.passes + 1, toLex (8 - drain.queue, toLex (2 * drain.batch.length + 1,
      toLex (match job.stage with | .delete => 1 | .update _ _ | .flush _ => 0,
        s.container.retry.maxAttempts.toNat - job.attempt.toNat))))

theorem toNat_attempt {n m : UInt32} (h : n < m) : (n + 1).toNat = n.toNat + 1 := by
  have hlt := UInt32.lt_iff_toNat_lt.1 h
  have hm := m.toNat_lt
  rw [UInt32.toNat_add, UInt32.toNat_one]
  exact Nat.mod_eq_of_lt (by omega)

theorem left_step (hopen : s.backend.stopped = false) (h : s.container.drain ≠ none) :
    (s.step told).left < s.left := by
  match hdrain : s.container.drain with
  | none => exact absurd hdrain h
  | some (drain, none) =>
    rw [step_of_idle hdrain]
    obtain ⟨id, batch, hb, heq⟩ | ⟨-, hqueue, heq⟩ | ⟨-, -, -, hpasses, heq⟩ | ⟨-, -, -, heq⟩ :=
      s.container.drainAdvance_cases drain
    all_goals simp only [left, hdrain, heq, Container.drainQueue, Container.drainAgain,
      Prod.Lex.toLex_lt_toLex, Nat.lt_irrefl, false_or, true_and]
    · rw [hb, List.length_cons]
      omega
    · omega
    · omega
    · omega
  | some (drain, some job) =>
    rw [step_of_job hdrain]
    obtain ⟨-, answered⟩ := answered_spec drain job hopen (told s.calls)
    generalize s.answered drain job (told s.calls) = s' at answered
    cases answered with
    | again writeBack next records more =>
      have hnext := toNat_attempt more
      have hmore := UInt32.lt_iff_toNat_lt.1 more
      simp only [left, hdrain, next, writeBack, hnext, Prod.Lex.toLex_lt_toLex, Nat.lt_irrefl,
        false_or, true_and]
      omega
    | flush stage writeBack next =>
      simp only [left, hdrain, next, stage, Prod.Lex.toLex_lt_toLex, Nat.lt_irrefl, false_or,
        true_and]
      omega
    | success writeBack next =>
      simp only [left, hdrain, next, Prod.Lex.toLex_lt_toLex, Nat.lt_irrefl, false_or, true_and]
      omega
    | failure w left' writeBack next =>
      simp only [left, hdrain, next, Prod.Lex.toLex_lt_toLex, Nat.lt_irrefl, false_or, true_and]
      omega

theorem exists_returned (told : Nat → Option Nat) (s : Drainage) (hopen : s.backend.stopped = false) :
    ∃ n, ((step told)^[n] s).container.drain = none := by
  by_cases h : s.container.drain = none
  · exact ⟨0, h⟩
  · obtain ⟨n, hn⟩ := exists_returned told (s.step told) (open_step hopen)
    exact ⟨n + 1, hn⟩
termination_by s.left
decreasing_by exact left_step hopen h

/-! ### Failed calls and failed writes -/

def job? (s : Drainage) : Option Job :=
  s.container.drain.bind (·.2)

/-- Between two writes no sketch is touched, and a write that begins has not been refused yet. -/
theorem advance_still (s : Drainage) (drain : Drain) :
    let s' := { s with container := (s.container.drainAdvance drain).2 }
    s'.container.toRegistry = s.container.toRegistry ∧ s'.container.retry = s.container.retry ∧
      ∀ job, s'.job? = some job → ∃ id, job = s.container.begin id := by
  obtain ⟨id, batch, -, heq⟩ | ⟨-, _, heq⟩ | ⟨-, -, -, -, heq⟩ | ⟨-, -, -, heq⟩ :=
    s.container.drainAdvance_cases drain
  all_goals
    rw [heq]
    refine ⟨rfl, rfl, fun job hjob => ?_⟩
  · exact ⟨id, (Option.some.inj hjob).symm⟩
  all_goals cases hjob

/--
A call is made up to `limit` times. Each write that failed was refused as often, the one in hand as
often as it says.
-/
structure Budgeted (limit : Nat) (s : Drainage) : Prop where
  limit_eq : limit = max 1 s.container.retry.maxAttempts.toNat
  writes : limit * s.failedWrites ≤ s.failedCalls
  job : ∀ job, s.job? = some job →
    1 ≤ job.attempt.toNat ∧ limit * s.failedWrites + job.attempt.toNat ≤ s.failedCalls + 1

theorem Budgeted.advance (h : s.Budgeted limit) (drain : Drain) :
    Budgeted limit { s with container := (s.container.drainAdvance drain).2 } := by
  obtain ⟨-, hretry, hbegin⟩ := advance_still s drain
  refine ⟨by rw [hretry]; exact h.limit_eq, h.writes, fun job hjob => ?_⟩
  obtain ⟨id, rfl⟩ := hbegin job hjob
  exact ⟨Nat.le_refl _, Nat.succ_le_succ h.writes⟩

theorem Budgeted.answer (h : s.Budgeted limit) (hjob : s.job? = some job)
    (answered : Answered s drain job s') : s'.Budgeted limit := by
  obtain ⟨hone, hspent⟩ := h.job job hjob
  have hlimit := h.limit_eq
  have hwrites := h.writes
  have hidle (next : s'.container.drain = some (drain, none)) (job : Job) : s'.job? ≠ some job := by
    rw [job?, next]
    exact nofun
  cases answered with
  | again writeBack next records more failed =>
    have hnext := toNat_attempt more
    rw [← failed.2] at hspent hwrites
    refine ⟨by rw [writeBack]; exact hlimit, by omega, fun job' hjob' => ?_⟩
    rw [job?, next] at hjob'
    obtain rfl := Option.some.inj hjob'
    dsimp only
    omega
  | flush stage writeBack next records failed =>
    rw [← failed.2, ← failed.1] at hwrites
    refine ⟨by rw [writeBack]; exact hlimit, hwrites, fun job' hjob' => ?_⟩
    rw [job?, next] at hjob'
    obtain rfl := Option.some.inj hjob'
    exact ⟨Nat.le_refl _, Nat.succ_le_succ hwrites⟩
  | success writeBack next records failed =>
    rw [← failed.2, ← failed.1] at hwrites
    exact ⟨by rw [writeBack, WriteBack.retry_succeeded]; exact hlimit, hwrites,
      fun job hjob => absurd hjob (hidle next job)⟩
  | failure w left writeBack next records last failed =>
    have hused : limit ≤ job.attempt.toNat := hlimit ▸ max_le hone (UInt32.le_iff_toNat_le.1 last)
    refine ⟨?_, ?_, fun job hjob => absurd hjob (hidle next job)⟩
    · rw [writeBack]
      rcases left with rfl | rfl <;> exact hlimit
    · rw [failed.1, failed.2, Nat.mul_succ]
      omega

theorem Budgeted.step (h : s.Budgeted limit) (hopen : s.backend.stopped = false) :
    (s.step told).Budgeted limit := by
  match hdrain : s.container.drain with
  | none => rwa [step_of_returned hdrain]
  | some (drain, none) =>
    rw [step_of_idle hdrain]
    exact h.advance drain
  | some (drain, some job) =>
    rw [step_of_job hdrain]
    exact h.answer (by rw [job?, hdrain]; rfl) (answered_spec drain job hopen _).2

/-- Few failed calls do not make many failed writes. -/
theorem Budgeted.failedWrites_lt (h : s.Budgeted limit) {n : Nat} (hn : s.failedCalls < n * limit) :
    s.failedWrites < n := by
  by_contra hle
  have hmul := Nat.mul_le_mul_left limit (Nat.le_of_not_lt hle)
  rw [Nat.mul_comm limit n] at hmul
  exact absurd (Nat.le_trans hmul h.writes) (Nat.not_le.2 hn)

end Drainage

end DistinctCount
