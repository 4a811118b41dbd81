import DistinctCount.Registry.Shards

namespace DistinctCount

/-- The sketches and the shards in which the live ones stand under their keys. -/
structure Registry where
  sketches : Sketches := {}
  shards : Shards

namespace Registry

def sketch (r : Registry) (id : SketchId) : Sketch :=
  r.sketches.get id

def modify (r : Registry) (id : SketchId) (f : Sketch → Sketch) : Registry :=
  { r with sketches := r.sketches.modify id f }

def make (r : Registry) (sketch : Sketch) : SketchId × Registry :=
  (r.sketches.next, { r with sketches := r.sketches.add sketch })

def get? (r : Registry) (key : String) : Option SketchId :=
  r.shards.get? (r.shards.shardOf key) key

/-- Puts a sketch under its key, in place of any other. -/
def insert (r : Registry) (shard : Nat) (id : SketchId) : Registry :=
  { r with shards := r.shards.insert shard (r.sketch id).key id }

/-- The sketch under a key of a shard, made with the given expiry if there is none. -/
def getOrCreate (r : Registry) (shard : Nat) (key : String) (expiresAt : UInt64) :
    (SketchId × Bool) × Registry :=
  match r.shards.get? shard key with
  | some id => ((id, false), r)
  | none =>
    let (id, r) := r.make { key, shard, expiresAt }
    ((id, true), r.insert shard id)

def remove (r : Registry) (shard : Nat) (key : String) : Option SketchId × Registry :=
  (r.shards.get? shard key, { r with shards := r.shards.erase shard key })

/-- Removes a key only while it stands for this very sketch. -/
def removeIfSame (r : Registry) (shard : Nat) (key : String) (id : SketchId) : Bool × Registry :=
  if r.shards.get? shard key = some id then
    (true, { r with shards := r.shards.erase shard key })
  else
    (false, r)

/-- The live sketch that has taken the place of another under its key. -/
def successor (r : Registry) (stale : SketchId) : Option SketchId :=
  (r.get? (r.sketch stale).key).filter fun current =>
    current ≠ stale && !(r.sketch current).deleted

end Registry

end DistinctCount
