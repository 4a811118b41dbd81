import Std.Data.TreeMap
import DistinctCount.Expiry.Bucket

/-!
The index of the keys that expire: the entries of each bucket by key. A bucket without entries is
not kept, so that the first buckets of the index are the next ones to fall due.
-/

namespace DistinctCount.Expiry

structure Index (α : Type) where
  buckets : Std.TreeMap UInt64 (Std.TreeMap String α) := ∅

namespace Index

variable {α : Type}

def entries (x : Index α) (bucket : UInt64) : Std.TreeMap String α :=
  x.buckets.getD bucket ∅

def get? (x : Index α) (bucket : UInt64) (key : String) : Option α :=
  (x.entries bucket)[key]?

/-- Makes `entries` the content of a bucket. -/
def replace (x : Index α) (bucket : UInt64) (entries : Std.TreeMap String α) : Index α :=
  if entries.isEmpty then { buckets := x.buckets.erase bucket }
  else { buckets := x.buckets.insert bucket entries }

def insert (x : Index α) (bucket : UInt64) (key : String) (entry : α) : Index α :=
  x.replace bucket ((x.entries bucket).insert key entry)

def erase (x : Index α) (bucket : UInt64) (key : String) : Index α :=
  x.replace bucket ((x.entries bucket).erase key)

/-- Erases the entry of a key from a bucket and answers it. -/
def remove (x : Index α) (bucket : UInt64) (key : String) : Option α × Index α :=
  (x.get? bucket key, x.erase bucket key)

/-- Moves the entry of a key to another bucket. -/
def relocate (x : Index α) (source : Option UInt64) (target : UInt64) (key : String) (entry : α) :
    Index α :=
  match source with
  | some source => (x.erase source key).insert target key entry
  | none => x.insert target key entry

/-- The first due buckets in ascending order, at most `limit`. -/
def dueBuckets (x : Index α) (now : UInt64) (limit : Nat) : List UInt64 :=
  (x.buckets.keys.takeWhile (isDue now)).take limit

def detach (x : Index α) (bucket : UInt64) : Option (Std.TreeMap String α) × Index α :=
  (x.buckets[bucket]?, { buckets := x.buckets.erase bucket })

def size (x : Index α) : Nat :=
  x.buckets.size

def isEmpty (x : Index α) : Bool :=
  x.buckets.isEmpty

def bucketsOf (x : Index α) (key : String) : List UInt64 :=
  (x.buckets.toList.filter fun (_, entries) => entries.contains key).map (·.1)

end Index

end DistinctCount.Expiry
