import DistinctCount.Sketch.Basic

namespace DistinctCount.Sketch

def size : Float := 256

def hashRange : Float := 4294967296

/-- The bias correction for 256 slots. -/
def bias : Float := 0.7213 / (1.0 + 1.079 / size)

/-- The sum of `2 ^ -r` over the slots, in index order. -/
def harmonicSum (s : Sketch) : Float :=
  s.slots.toList.foldl (fun sum r => sum + 1.0 / ((1 : UInt64) <<< r.toUInt64).toFloat) 0.0

/--
The estimated number of distinct values. Small counts are read off the empty slots,
large ones are corrected for hashes that collide.
-/
def estimate (s : Sketch) : UInt64 :=
  let raw := bias * size * size / s.harmonicSum
  if raw ≤ 2.5 * size then
    let zeros := 256 - s.nonZero
    if zeros ≠ 0 then (size * (size / zeros.toFloat).log).toUInt64 else raw.toUInt64
  else if raw ≤ hashRange / 30.0 || raw ≥ hashRange then
    raw.toUInt64
  else
    (-hashRange * (1.0 - raw / hashRange).log).toUInt64

end DistinctCount.Sketch
