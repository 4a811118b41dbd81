namespace DistinctCount

/-- The 256 registers of a sketch; register `i` holds the highest rank seen for index `i`. -/
abbrev Slots := Vector UInt8 256

/-- The highest rank: 24 rank bits plus one. -/
def maxRank : UInt8 := 25

namespace Slots

def empty : Slots := Vector.replicate 256 0

/-- The number of slots in use. -/
def nonZero (s : Slots) : Nat :=
  s.toList.countP (· != 0)

/-- The slots in use, as index and rank, in index order. -/
def occupied (s : Slots) : List (UInt8 × UInt8) :=
  s.toList.zipIdx.filterMap fun (rank, i) =>
    if rank = 0 then none else some (UInt8.ofNat i, rank)

end Slots

end DistinctCount
