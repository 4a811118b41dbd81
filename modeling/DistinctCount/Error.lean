import DistinctCount.Duration
import DistinctCount.Slots.Codec

namespace DistinctCount

/-- Why a backend did not do what it was asked to. -/
inductive BackendError
  | unavailable (reason : String)
  | stopped
deriving DecidableEq

def BackendError.message : BackendError → String
  | unavailable reason => "backend unavailable: " ++ reason
  | stopped => "backend has been stopped"

/-- What is wrong with a configuration. -/
inductive ConfigProblem
  | zeroInterval
  | zeroBatch
  | zeroCapacity
  | noAttempts
  | other (reason : String)
deriving DecidableEq

def ConfigProblem.message : ConfigProblem → String
  | zeroInterval => "intervals must be non-zero"
  | zeroBatch => "batch sizes must be non-zero"
  | zeroCapacity => "channel capacity must be non-zero"
  | noAttempts => "retry needs at least one attempt"
  | other reason => reason

/-- Why an operation of a container failed. -/
inductive Error
  | decode (error : DecodeError)
  | backend (error : BackendError)
  | deleteTimeout (key : String) (timeout : Duration)
  | deleteAborted (key : String)
  | config (problem : ConfigProblem)
deriving DecidableEq

def Error.message : Error → String
  | decode error => error.message
  | backend error => error.message
  | deleteTimeout key timeout =>
    s!"deletion of key {key} was not confirmed within {timeout.text}"
  | deleteAborted key => s!"deletion of key {key} was aborted before the backend confirmed it"
  | config problem => "invalid configuration: " ++ problem.message

end DistinctCount
