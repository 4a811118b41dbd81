/-!
Lengths of time in whole seconds and nanoseconds. `toNanos` is the length as one number;
sums and products that pass the largest length stay at it.
-/

namespace DistinctCount

structure Duration where
  secs : UInt64
  nanos : UInt32
  nanos_lt : nanos < 1000000000 := by decide
deriving DecidableEq

namespace Duration

def zero : Duration := { secs := 0, nanos := 0 }

def max : Duration := { secs := 0xffffffffffffffff, nanos := 999999999 }

instance : Inhabited Duration := ⟨zero⟩

def ofSecs (n : UInt64) : Duration := { secs := n, nanos := 0 }

theorem carry_lt (n : Nat) : UInt32.ofNat (n % 1000000000) < 1000000000 := by
  rw [UInt32.lt_iff_toNat_lt, UInt32.toNat_ofNat]
  exact Nat.lt_of_le_of_lt (Nat.mod_le _ _) (Nat.mod_lt _ (by decide))

/-- Seconds and any number of nanoseconds, if the seconds with the carry fit in 64 bits. -/
def ofParts? (secs nanos : Nat) : Option Duration :=
  let total := secs + nanos / 1000000000
  if total < UInt64.size then
    some { secs := UInt64.ofNat total, nanos := UInt32.ofNat (nanos % 1000000000),
           nanos_lt := carry_lt nanos }
  else none

def ofMillis (n : Nat) : Duration :=
  (ofParts? (n / 1000) (n % 1000 * 1000000)).getD max

def toNanos (d : Duration) : Nat :=
  d.secs.toNat * 1000000000 + d.nanos.toNat

def isZero (d : Duration) : Bool :=
  d.secs == 0 && d.nanos == 0

/-- The length taken `factor` times, or the largest length. -/
def mulSaturating (d : Duration) (factor : Nat) : Duration :=
  (ofParts? (d.secs.toNat * factor) (d.nanos.toNat * factor)).getD max

def min (a b : Duration) : Duration :=
  if a.secs < b.secs ∨ a.secs = b.secs ∧ a.nanos ≤ b.nanos then a else b

/-- A fraction of `width` decimal digits with its point, without trailing zeros. -/
def fraction (n width : Nat) : String :=
  let digits := (Nat.toDigits 10 (Nat.pow 10 width + n)).drop 1
  let kept := (digits.reverse.dropWhile (· == '0')).reverse
  if kept.isEmpty then "" else "." ++ String.ofList kept

/-- The length in the largest unit of which it holds at least one. -/
def text (d : Duration) : String :=
  let nanos := d.nanos.toNat
  if d.secs ≠ 0 then toString d.secs.toNat ++ fraction nanos 9 ++ "s"
  else if 1000000 ≤ nanos then toString (nanos / 1000000) ++ fraction (nanos % 1000000) 6 ++ "ms"
  else if 1000 ≤ nanos then toString (nanos / 1000) ++ fraction (nanos % 1000) 3 ++ "µs"
  else toString nanos ++ "ns"

end Duration

end DistinctCount
