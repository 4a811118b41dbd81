import DistinctCount.Hash.LittleEndian

/-!
The two Murmur hashes: the 32-bit one of the third generation and the 64-bit one of the second.
Both absorb the input block by block, then the bytes that do not fill a block, then mix the length in.
-/

namespace DistinctCount.Hash

namespace Murmur32

/-- One word of input, spread over all bits before it meets the state. -/
def scramble (k : UInt32) : UInt32 :=
  rotateLeft32 (k * 0xcc9e2d51) 15 * 0x1b873593

def absorb (h k : UInt32) : UInt32 :=
  rotateLeft32 (h ^^^ scramble k) 13 * 5 + 0xe6546b64

/-- Absorbs whole blocks of four bytes, then the one to three that are left. -/
def blocks (h : UInt32) : List UInt8 → UInt32
  | a :: b :: c :: d :: rest => blocks (absorb h (littleEndian32 [a, b, c, d])) rest
  | tail => h ^^^ scramble (littleEndian32 tail)

def finish (h : UInt32) : UInt32 :=
  let h := h ^^^ h >>> 16
  let h := h * 0x85ebca6b
  let h := h ^^^ h >>> 13
  let h := h * 0xc2b2ae35
  h ^^^ h >>> 16

end Murmur32

def murmur32 (data : List UInt8) (seed : UInt32) : UInt32 :=
  Murmur32.finish (Murmur32.blocks seed data ^^^ UInt32.ofNat data.length)

namespace Murmur64

def multiplier : UInt64 := 0xc6a4a7935bd1e995

def scramble (k : UInt64) : UInt64 :=
  let k := k * multiplier
  (k ^^^ k >>> 47) * multiplier

def absorb (h k : UInt64) : UInt64 :=
  (h ^^^ scramble k) * multiplier

/-- Absorbs whole blocks of eight bytes, then the one to seven that are left, if any. -/
def blocks (h : UInt64) : List UInt8 → UInt64
  | a :: b :: c :: d :: e :: f :: g :: i :: rest =>
    blocks (absorb h (littleEndian64 [a, b, c, d, e, f, g, i])) rest
  | [] => h
  | tail => (h ^^^ littleEndian64 tail) * multiplier

def finish (h : UInt64) : UInt64 :=
  let h := h ^^^ h >>> 47
  let h := h * multiplier
  h ^^^ h >>> 47

end Murmur64

/-- Only the low 32 bits of the seed count. -/
def murmur64 (data : List UInt8) (seed : UInt64) : UInt64 :=
  let start := (seed &&& 0xffffffff) ^^^ UInt64.ofNat data.length * Murmur64.multiplier
  Murmur64.finish (Murmur64.blocks start data)

end DistinctCount.Hash
