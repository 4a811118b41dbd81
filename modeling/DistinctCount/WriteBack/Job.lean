import DistinctCount.Backend.Memory
import DistinctCount.WriteBack.Basic

/-!
One write of a sketch as a sequence of calls of the backend. A live sketch is updated with the data
it had when the write began. A deleted one is deleted; if callers wait for that, a flush follows
before they are told. Between two calls anything else may happen to the sketch.
-/

namespace DistinctCount

/-- What the current calls of a write ask for. -/
inductive Job.Stage
  | update (expiresAt : UInt64) (data : List UInt8)
  | delete
  | flush (waiters : List Ticket)
deriving DecidableEq

structure Job where
  sketch : SketchId
  key : String
  /-- The mutations that the write will have made good. -/
  pending : Int64
  stage : Job.Stage
  /-- The number of the next call of this stage. -/
  attempt : UInt32 := 1
deriving DecidableEq

def Job.request (job : Job) : Request :=
  match job.stage with
  | .update expiresAt data => .update job.key expiresAt data
  | .delete => .delete job.key
  | .flush _ => .flush

/-- What a caller who waits for a deletion is told. -/
inductive Confirmation
  | confirmed
  | failed (error : BackendError)
  /-- The sketch was given up without a last word from the backend. -/
  | dropped

abbrev Notice := Ticket × Confirmation

inductive Progress
  | call (job : Job)
  | pause (length : Duration) (job : Job)
  | done

/-- The write that goes on. -/
def Progress.job? : Progress → Option Job
  | call job => some job
  | pause _ job => some job
  | done => none

namespace WriteBack

def begin (w : WriteBack) (id : SketchId) : Job :=
  let s := w.sketch id
  { sketch := id
    key := s.key
    pending := s.pending
    stage := if s.deleted then .delete else .update s.expiresAt s.toBytes }

def takeWaiters (w : WriteBack) (id : SketchId) : List Ticket × WriteBack :=
  ((w.sketch id).waiters, w.edit id fun s => { s with waiters := [] })

/--
Closes the account of a write. What came in meanwhile, or all of it after a failure, is left to
another write. A stopped backend will take no other write, so the sketch is given up.
-/
def settle (w : WriteBack) (job : Job) : Backend.Answer → WriteBack × List Notice
  | .ok () =>
    let w := w.edit job.sketch fun s => s.markFlushed job.pending
    (if 0 < (w.sketch job.sketch).pending then w.enqueue job.sketch else w, [])
  | .error .stopped =>
    let (late, w) := w.takeWaiters job.sketch
    (w, late.map fun ticket => (ticket, .dropped))
  | .error _ => (w.enqueue job.sketch, [])

def confirmation : Backend.Answer → Confirmation
  | .ok () => .confirmed
  | .error e => .failed e

/--
Ends the write of a deleted sketch. The delete may have taken a record of the sketch
that now stands under the key, which is therefore written again.
-/
def settleDelete (w : WriteBack) (job : Job) (waiters : List Ticket) (answer : Backend.Answer) :
    WriteBack × List Notice :=
  let w := match answer, w.successor job.sketch with
    | .ok (), some current => w.schedule current
    | _, _ => w
  let (w, late) := w.settle job answer
  (w, waiters.map (fun ticket => (ticket, confirmation answer)) ++ late)

/-- The next move of a write when its call has been answered. -/
def proceed (w : WriteBack) (job : Job) (answer : Backend.Answer) :
    WriteBack × Progress × List Notice :=
  match w.retry.judge job.attempt answer with
  | .again pause => (w, .pause pause { job with attempt := job.attempt + 1 }, [])
  | .finish result =>
    match job.stage with
    | .update _ _ =>
      let (w, notices) := w.settle job result
      (w, .done, notices)
    | .delete =>
      let (waiters, w) := w.takeWaiters job.sketch
      match result, waiters with
      | .ok (), _ :: _ => (w, .call { job with stage := .flush waiters, attempt := 1 }, [])
      | _, _ =>
        let (w, notices) := w.settleDelete job waiters result
        (w, .done, notices)
    | .flush waiters =>
      let (w, notices) := w.settleDelete job waiters result
      (w, .done, notices)

end WriteBack

end DistinctCount
