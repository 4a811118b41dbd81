import DistinctCount.Duration
import DistinctCount.Error

namespace DistinctCount

/-- How often a call of the backend is made, and how long to wait in between. -/
structure RetryPolicy where
  /-- Calls in all, the first one included. -/
  maxAttempts : UInt32 := 3
  initialBackoff : Duration := .ofMillis 50
  maxBackoff : Duration := .ofSecs 2
deriving DecidableEq, Inhabited

namespace RetryPolicy

/-- How often the first pause is doubled after the failed call number `attempt`. -/
def doublings (attempt : UInt32) : UInt32 :=
  min (max attempt 1 - 1) 16

/-- How many times the first pause the next one is, in 32 bits. -/
def factor (attempt : UInt32) : UInt32 :=
  1 <<< doublings attempt

/-- The pause after the failed call number `attempt`: twice the one before it, up to a limit. -/
def backoff (p : RetryPolicy) (attempt : UInt32) : Duration :=
  (p.initialBackoff.mulSaturating (factor attempt).toNat).min p.maxBackoff

/-- What follows the answer of a call. -/
inductive Verdict
  | finish (answer : Except BackendError Unit)
  | again (pause : Duration)

/-- A failed call is made again unless the backend is stopped or all calls are used up. -/
def judge (p : RetryPolicy) (attempt : UInt32) : Except BackendError Unit → Verdict
  | .ok () => .finish (.ok ())
  | .error .stopped => .finish (.error .stopped)
  | .error e => if p.maxAttempts ≤ attempt then .finish (.error e) else .again (p.backoff attempt)

end RetryPolicy

end DistinctCount
