import DistinctCount.Container.Basic
import DistinctCount.Sketch.Estimate

namespace DistinctCount.Container

/-- The expiry of a key that has `ttl` seconds to live; 0 stands for no expiry in both. -/
def expiryAfter (now ttl : UInt64) : UInt64 :=
  if ttl = 0 then 0
  else if now.toNat + ttl.toNat < UInt64.size then now + ttl
  else 0xffffffffffffffff

def shardOf (c : Container) (key : String) : Nat :=
  c.shards.shardOf key

/-- Gives a sketch that expires its entry in the expiry index. -/
def registerExpiry (c : Container) (id : SketchId) : Container :=
  let s := c.sketch id
  if s.deleted || s.bucket.isSome || s.expiresAt == 0 then c
  else
    let bucket := Expiry.bucketOf s.expiresAt
    let c := c.alter (·.edit id fun s => { s with bucket := some bucket })
    { c with expiry := c.expiry.insert bucket s.key { shard := s.shard, sketch := id } }

def getOrCreate (c : Container) (now : UInt64) (key : String) (ttl : UInt64) :
    SketchId × Container :=
  let ((id, created), r) := c.toRegistry.getOrCreate (c.shardOf key) key (expiryAfter now ttl)
  let c := { c with toRegistry := r }
  (id, if created then c.registerExpiry id else c)

/-- Leaves a sketch that has become dirty to the write-back. -/
def enqueueDirty (c : Container) (id : SketchId) (becameDirty : Bool) : Container :=
  if becameDirty && c.persistent then c.alter (·.enqueue id) else c

/-- Counts a value in a sketch and tells whether the sketch has become dirty. Empty values do not count. -/
def count (c : Container) (id : SketchId) (value : List UInt8) : Bool × Container :=
  if value.isEmpty then (false, c)
  else
    let (s, pending, updated) := (c.sketch id).addHash (c.config.hashing.hash32 value)
    (updated && pending == 1, c.alter (·.edit id fun _ => s))

def add (c : Container) (now : UInt64) (key : String) (value : Option (List UInt8)) (ttl : UInt64) :
    Container :=
  let (id, c) := c.getOrCreate now key ttl
  match value with
  | none => c
  | some value =>
    let (becameDirty, c) := c.count id value
    c.enqueueDirty id becameDirty

/-- Counts many values under a key and leaves the sketch to the write-back at most once. -/
def addMany (c : Container) (now : UInt64) (key : String) (values : List (List UInt8))
    (ttl : UInt64) : Container :=
  let (id, c) := c.getOrCreate now key ttl
  let (becameDirty, c) := values.foldl (fun (dirty, c) value =>
    let (becameDirty, c) := c.count id value
    (dirty || becameDirty, c)) (false, c)
  c.enqueueDirty id becameDirty

/-- Moves the entry of a sketch to the bucket of its expiry. -/
def moveEntry (c : Container) (id : SketchId) (bucket : Option UInt64) : Container :=
  let s := c.sketch id
  if s.bucket = bucket then c
  else
    let expiry := match bucket, s.bucket with
      | some target, source => c.expiry.relocate source target s.key { shard := s.shard, sketch := id }
      | none, some source => c.expiry.erase source s.key
      | none, none => c.expiry
    { c.alter (·.edit id fun s => { s with bucket }) with expiry }

def updateExpiry (c : Container) (now : UInt64) (key : String) (ttl : UInt64) : Bool × Container :=
  match c.get? key with
  | none => (false, c)
  | some id =>
    if (c.sketch id).deleted then (false, c)
    else
      let expiresAt := expiryAfter now ttl
      let c := c.alter (·.edit id fun s => { s with expiresAt })
      let c := c.moveEntry id (if expiresAt = 0 then none else some (Expiry.bucketOf expiresAt))
      (true, if c.persistent then c.alter (·.schedule id) else c)

/-- What the caller of a deletion gets at first. -/
inductive Removal
  /-- The container has been shut down. -/
  | refused
  | unknown
  | removed
  /-- The key is gone from memory; the backend has not confirmed it yet. -/
  | waiting (ticket : Ticket)

/-- Takes the entry of a sketch out of the expiry index and marks the sketch deleted. -/
def markDeleted (c : Container) (id : SketchId) : Container :=
  let c := c.moveEntry id none
  c.alter (·.edit id fun s => { s with deleted := true })

/-- Removes a key from memory and leaves its deletion to the write-back. -/
def beginDelete (c : Container) (key : String) : Removal × Container :=
  if c.persistent && c.closed then (.refused, c)
  else
    match c.toRegistry.remove (c.shardOf key) key with
    | (none, _) => (.unknown, c)
    | (some id, r) =>
      let c := { c with toRegistry := r }.markDeleted id
      if c.persistent then
        let ticket := c.nextTicket
        let c := { c with nextTicket := ticket + 1 }
        let c := c.alter fun w =>
          (w.edit id fun s => { s with waiters := s.waiters ++ [ticket] }).schedule id
        if c.inPipeline id then (.waiting ticket, c)
        else
          let (_, w) := c.toWriteBack.takeWaiters id
          (.waiting ticket, c.inform w [(ticket, .dropped)])
      else (.removed, c)

/-- The estimated number of distinct values of a key; 0 if there is no such key. -/
def cardinality (c : Container) (key : String) : UInt64 :=
  match c.get? key with
  | none => 0
  | some id => (c.sketch id).estimate

def contains (c : Container) (key : String) : Bool :=
  (c.get? key).isSome

def expiryOf (c : Container) (key : String) : Option UInt64 :=
  (c.get? key).map fun id => (c.sketch id).expiresAt

def keyCount (c : Container) : Nat :=
  c.shards.keyCount

def keys (c : Container) : List String :=
  c.shards.sortedKeys

end DistinctCount.Container
