namespace DistinctCount.Hash

/-- The 32-bit word whose bytes are given least significant first; bytes past the fourth are lost. -/
def littleEndian32 : List UInt8 → UInt32
  | [] => 0
  | b :: bs => b.toUInt32 ||| littleEndian32 bs <<< 8

/-- The 64-bit word whose bytes are given least significant first; bytes past the eighth are lost. -/
def littleEndian64 : List UInt8 → UInt64
  | [] => 0
  | b :: bs => b.toUInt64 ||| littleEndian64 bs <<< 8

def rotateLeft32 (x n : UInt32) : UInt32 :=
  x <<< n ||| x >>> (32 - n)

end DistinctCount.Hash
