import DistinctCount.Proofs.Backend.Serves

namespace DistinctCount.Backend

variable {b b' : Backend} {limit : Nat} {request : Request} {final : Answer}
  {calls : List (Request × Answer)}

/-- A request is made until an answer is final. Only failures that may pass are tried again. -/
structure Attempts (limit : Nat) (request : Request) (calls : List (Request × Answer))
    (final : Answer) : Prop where
  made : ∃ faults : List Answer, calls = (faults ++ [final]).map (fun answer => (request, answer)) ∧
    ∀ answer ∈ faults, ∃ reason, answer = .error (.unavailable reason)
  length_le : calls.length ≤ limit
  exhausted : ∀ reason, final = .error (.unavailable reason) → calls.length = limit

/--
The store has given these answers. Between them it may be told to fail, be stopped or be opened again.
-/
inductive Attends (b : Backend) : List (Request × Answer) → Backend → Prop
  | refl : Attends b [] b
  | call {calls : List (Request × Answer)} {b' : Backend} (attended : Attends b calls b')
      (failNext : Nat) (stopped : Bool) (request : Request) :
      Attends b (calls ++ [(request, ({ b' with failNext, stopped }.perform request).2)])
        ({ b' with failNext, stopped }.perform request).1

def recordedAll (calls : List (Request × Answer)) (records : String → Option Record) :
    String → Option Record :=
  calls.foldl (fun records call => recorded (some call) records) records

theorem recordedAll_append (calls calls' : List (Request × Answer)) (records : String → Option Record) :
    recordedAll (calls ++ calls') records = recordedAll calls' (recordedAll calls records) :=
  List.foldl_append

theorem Attends.get? (h : b.Attends calls b') : b'.get? = recordedAll calls b.get? := by
  induction h with
  | refl => rfl
  | @call calls b' _ failNext stopped request ih =>
    rw [recordedAll_append, ← ih]
    funext key
    cases hanswer : ({ b' with failNext, stopped }.perform request).2 with
    | ok => exact get?_perform_ok hanswer key
    | error e => exact get?_perform_error hanswer key

theorem recordedAll_faults {faults : List Answer}
    (h : ∀ answer ∈ faults, ∃ reason, answer = .error (.unavailable reason))
    (records : String → Option Record) :
    recordedAll (faults.map fun answer => (request, answer)) records = records := by
  induction faults with
  | nil => rfl
  | cons answer faults ih =>
    obtain ⟨⟨reason, rfl⟩, hrest⟩ := List.forall_mem_cons.1 h
    exact ih hrest

/-- Of all attempts the last alone may change the records. -/
theorem Attempts.recordedAll_eq (h : Attempts limit request calls final)
    (records : String → Option Record) :
    recordedAll calls records = recorded (some (request, final)) records := by
  obtain ⟨faults, rfl, hfaults⟩ := h.made
  rw [List.map_append, recordedAll_append, recordedAll_faults hfaults]
  rfl

theorem recorded_flush (answer : Answer) (records : String → Option Record) :
    recorded (some (.flush, answer)) records = records := by
  cases answer <;> rfl

end DistinctCount.Backend
