import DistinctCount.Slots.Basic

/-!
The 256 slots packed into 160 bytes: slot `i` is the five bits from bit `5 * i` on, counted from the
least significant bit of the first byte. A slot lies in one byte or across two neighbours.
-/

namespace DistinctCount

abbrev Packed := Vector UInt8 160

namespace Packed

def empty : Packed := Vector.replicate 160 0

/-- The byte that holds the lowest bit of slot `i`. -/
def byteOf (i : Fin 256) : Nat := 5 * i.val / 8

/-- The place of that bit in its byte. -/
def bitOf (i : Fin 256) : Nat := 5 * i.val % 8

theorem byteOf_lt (i : Fin 256) : byteOf i < 160 := by
  unfold byteOf; omega

theorem byteOf_succ_lt (i : Fin 256) (h : ¬ bitOf i ≤ 3) : byteOf i + 1 < 160 := by
  unfold bitOf at h; unfold byteOf; omega

def get (p : Packed) (i : Fin 256) : UInt8 :=
  let bit := UInt8.ofNat (bitOf i)
  have := byteOf_lt i
  if h : bitOf i ≤ 3 then
    p[byteOf i] >>> bit &&& 31
  else
    have := byteOf_succ_lt i h
    (p[byteOf i] >>> bit ||| p[byteOf i + 1] <<< (8 - bit)) &&& 31

/-- Writes the low five bits of `rank` into slot `i` and leaves every other bit as it is. -/
def set (p : Packed) (i : Fin 256) (rank : UInt8) : Packed :=
  let bit := UInt8.ofNat (bitOf i)
  have := byteOf_lt i
  let low := (p[byteOf i] &&& ~~~ (31 <<< bit)) ||| (rank &&& 31) <<< bit
  if h : bitOf i ≤ 3 then
    Vector.set p (byteOf i) low (byteOf_lt i)
  else
    have := byteOf_succ_lt i h
    let high := (p[byteOf i + 1] &&& ~~~ (31 >>> (8 - bit))) ||| (rank &&& 31) >>> (8 - bit)
    Vector.set (Vector.set p (byteOf i) low (byteOf_lt i)) (byteOf i + 1) high

def ofSlots (s : Slots) : Packed :=
  (List.finRange 256).foldl (fun p i => p.set i (s.get i)) empty

def toSlots (p : Packed) : Slots :=
  Vector.ofFn p.get

end Packed

end DistinctCount
