import DistinctCount.Container.Client

namespace DistinctCount.Container

/-- Evicts the sketch of an entry of a detached bucket, unless it has left the bucket. -/
def evict (c : Container) (bucket : UInt64) (key : String) (entry : Entry) : Nat × Container :=
  let s := c.sketch entry.sketch
  if s.deleted || s.bucket ≠ some bucket then (0, c)
  else
    let c := c.alter (·.edit entry.sketch fun s => { s with deleted := true, bucket := none })
    let c := { c with toRegistry := (c.toRegistry.removeIfSame entry.shard key entry.sketch).2 }
    (1, if c.persistent then c.alter (·.schedule entry.sketch) else c)

/-- Evicts the entries of one bucket in the order of their keys. -/
def sweepBucket (c : Container) (bucket : UInt64) : Nat × Container :=
  match c.expiry.detach bucket with
  | (none, _) => (0, c)
  | (some entries, expiry) =>
    entries.toList.foldl (fun (evicted, c) (key, entry) =>
      let (n, c) := c.evict bucket key entry
      (evicted + n, c)) (0, { c with expiry })

/-- Evicts the keys of the first due buckets and answers how many they were. -/
def sweep (c : Container) (now : UInt64) : Nat × Container :=
  (c.expiry.dueBuckets now c.config.sweepBatch).foldl (fun (evicted, c) bucket =>
    let (n, c) := c.sweepBucket bucket
    (evicted + n, c)) (0, c)

end DistinctCount.Container
