import Std.Data.TreeMap
import DistinctCount.Error

/-!
A store of records by key that is kept in memory. It can be stopped and opened again,
and it can be told to fail the calls that come next.
-/

namespace DistinctCount

structure Record where
  expiresAt : UInt64
  data : List UInt8

inductive Request
  | update (key : String) (expiresAt : UInt64) (data : List UInt8)
  | delete (key : String)
  | flush
  | flushAndStop

structure Backend where
  records : Std.TreeMap String Record := ∅
  stopped : Bool := false
  /-- How many of the next calls fail. -/
  failNext : Nat := 0
  flushes : Nat := 0
  /-- The keys of the deletes that succeeded, in the order of the calls. -/
  deleted : Array String := #[]

namespace Backend

abbrev Answer := Except BackendError Unit

def get? (b : Backend) (key : String) : Option Record :=
  b.records[key]?

/-- Stores a record past any failure. -/
def insert (b : Backend) (key : String) (record : Record) : Backend :=
  { b with records := b.records.insert key record }

/-- The failure of a call that was asked for beforehand. -/
def injected : BackendError :=
  .unavailable "injected failure"

/-- Makes a change unless the store is stopped or is to fail. -/
def write (b : Backend) (change : Backend → Backend) : Backend × Answer :=
  if b.stopped then (b, .error .stopped)
  else if b.failNext = 0 then (change b, .ok ())
  else ({ b with failNext := b.failNext - 1 }, .error injected)

def update (b : Backend) (key : String) (record : Record) : Backend × Answer :=
  b.write (·.insert key record)

def delete (b : Backend) (key : String) : Backend × Answer :=
  b.write fun b => { b with records := b.records.erase key, deleted := b.deleted.push key }

def flush (b : Backend) : Backend × Answer :=
  b.write fun b => { b with flushes := b.flushes + 1 }

/-- The last flush. It does not fail, and no write is accepted after it. -/
def flushAndStop (b : Backend) : Backend × Answer :=
  if b.stopped then (b, .error .stopped)
  else ({ b with stopped := true, flushes := b.flushes + 1 }, .ok ())

/-- Accepts writes again and keeps every record. -/
def reopen (b : Backend) : Backend :=
  { b with stopped := false }

def perform (b : Backend) : Request → Backend × Answer
  | .update key expiresAt data => b.update key { expiresAt, data }
  | .delete key => b.delete key
  | .flush => b.flush
  | .flushAndStop => b.flushAndStop

/-- The records in the order of their keys. -/
def scan (b : Backend) : List (String × Record) :=
  b.records.toList

end Backend

/-- Visits records in order up to the first that the visitor refuses. -/
def visitAll {σ ε : Type} (visit : σ → String → Record → σ × Except ε Unit) (state : σ) :
    List (String × Record) → σ × Except ε Unit
  | [] => (state, .ok ())
  | (key, record) :: rest =>
    match visit state key record with
    | (state, .ok ()) => visitAll visit state rest
    | refused => refused

end DistinctCount
