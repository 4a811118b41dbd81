import DistinctCount.Hash.Murmur
import DistinctCount.Hash.Wyhash

namespace DistinctCount.Hash

/-- A pair of hashes: a 32-bit one for counted values, a 64-bit one that routes keys. -/
inductive Family
  | murmur3
  | wyhash
deriving DecidableEq, Inhabited

def seed : UInt32 := 32

namespace Family

def hash32 : Family → List UInt8 → UInt32
  | murmur3, data => murmur32 data seed
  | wyhash, data =>
    let h := Hash.wyhash data seed.toUInt64
    (h ^^^ h >>> 32).toUInt32

def hash64 : Family → List UInt8 → UInt64
  | murmur3, data => murmur64 data seed.toUInt64
  | wyhash, data => Hash.wyhash data seed.toUInt64

end Family

end DistinctCount.Hash
