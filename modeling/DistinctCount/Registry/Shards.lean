import Std.Data.TreeMap
import DistinctCount.Hash.Family
import DistinctCount.Registry.Sketches

namespace DistinctCount

/-- The keys in tables of their own, as many as a power of two. -/
structure Shards where
  tables : Array (Std.TreeMap String SketchId)
  hashing : Hash.Family

namespace Shards

def ofCount (count : Nat) (hashing : Hash.Family) : Shards :=
  { tables := Array.replicate count ∅, hashing }

def count (s : Shards) : Nat :=
  s.tables.size

/-- The shard of a key: the low bits of its hash. -/
def shardOf (s : Shards) (key : String) : Nat :=
  (s.hashing.hash64 key.toUTF8.toList &&& UInt64.ofNat (s.count - 1)).toNat

def table (s : Shards) (shard : Nat) : Std.TreeMap String SketchId :=
  s.tables.getD shard ∅

def get? (s : Shards) (shard : Nat) (key : String) : Option SketchId :=
  (s.table shard)[key]?

def insert (s : Shards) (shard : Nat) (key : String) (id : SketchId) : Shards :=
  { s with tables := s.tables.modify shard (·.insert key id) }

def erase (s : Shards) (shard : Nat) (key : String) : Shards :=
  { s with tables := s.tables.modify shard (·.erase key) }

def keyCount (s : Shards) : Nat :=
  s.tables.foldl (fun n table => n + table.size) 0

def keys (s : Shards) : List String :=
  s.tables.toList.flatMap (·.keys)

/-- All keys in ascending order. A key that stands in two shards comes twice. -/
def sortedKeys (s : Shards) : List String :=
  s.keys.mergeSort (· ≤ ·)

def sortedKeysOf (s : Shards) (shard : Nat) : List String :=
  (s.table shard).keys

end Shards

end DistinctCount
