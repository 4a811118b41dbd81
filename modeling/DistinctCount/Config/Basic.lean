import DistinctCount.Config.Retry
import DistinctCount.Hash.Family

namespace DistinctCount

structure Config where
  /-- The wished number of shards. -/
  shards : Nat := 256
  /-- Period of the expiry sweep. -/
  sweepInterval : Duration := .ofSecs 60
  /-- The most due buckets evicted in one sweep. -/
  sweepBatch : Nat := 40
  /-- Period of each saver. -/
  saveInterval : Duration := .ofSecs 1
  /-- The most sketches a saver takes at a time. -/
  saveBatch : Nat := 256
  /-- Places between the savers and the writer. -/
  channelCapacity : Nat := 20000
  /-- How long a deletion waits for its confirmation. -/
  deleteTimeout : Duration := .ofSecs 30
  retry : RetryPolicy := {}
  hashing : Hash.Family := .murmur3
deriving Inhabited

namespace Config

/-- The number of shards in use: between 4 and 2048, and a power of two. -/
def shardCount (c : Config) : Nat :=
  (Nat.min (Nat.max c.shards 4) 2048).nextPowerOfTwo

/-- Refuses settings that the background tasks cannot run with. -/
def validate (c : Config) : Except ConfigProblem Unit :=
  if c.sweepInterval.isZero || c.saveInterval.isZero then .error .zeroInterval
  else if c.sweepBatch = 0 ∨ c.saveBatch = 0 then .error .zeroBatch
  else if c.channelCapacity = 0 then .error .zeroCapacity
  else if c.retry.maxAttempts = 0 then .error .noAttempts
  else .ok ()

end Config

end DistinctCount
