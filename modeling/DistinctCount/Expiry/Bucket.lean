namespace DistinctCount.Expiry

def bucketWidth : Nat := 64

/-- The bucket of an expiry, named by its first second. -/
def bucketOf (expiresAt : UInt64) : UInt64 :=
  expiresAt / 64 * 64

/-- Every expiry in the bucket has passed. The last bucket ends after the last second, so never. -/
def isDue (now bucket : UInt64) : Bool :=
  bucket.toNat + bucketWidth ≤ now.toNat

end DistinctCount.Expiry
