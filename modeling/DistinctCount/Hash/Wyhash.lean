import DistinctCount.Hash.LittleEndian

namespace DistinctCount.Hash

namespace Wyhash

/-- The two halves of the full product of `a` and `b`, xor-ed. -/
def fold (a b : UInt64) : UInt64 :=
  let product := a.toNat * b.toNat
  UInt64.ofNat (product / UInt64.size) ^^^ UInt64.ofNat product

def secret0 : UInt64 := 0xa0761d6478bd642f
def secret1 : UInt64 := 0xe7037ed1a0b428db
def secret2 : UInt64 := 0x8ebc6af09c88c6e3
def secret3 : UInt64 := 0x589965cc75374cc3
def secret4 : UInt64 := 0x1d8e4e27c47d124f
def secret5 : UInt64 := 0xeb44accab455d165

def read64 (d : List UInt8) : UInt64 :=
  littleEndian64 (d.take 8)

def read32 (d : List UInt8) : UInt64 :=
  littleEndian64 (d.take 4)

/-- Eight bytes read as two words of 32 bits, the first of them on top. -/
def readSwapped (d : List UInt8) : UInt64 :=
  read32 d <<< 32 ||| read32 (d.drop 4)

/-- The last one to eight bytes as one word. -/
def readRest : List UInt8 → UInt64
  | [a] => a.toUInt64
  | [a, b] => b.toUInt64 <<< 8 ||| a.toUInt64
  | [a, b, c] => b.toUInt64 <<< 16 ||| a.toUInt64 <<< 8 ||| c.toUInt64
  | [a, b, c, d] => littleEndian64 [a, b, c, d]
  | [a, b, c, d, e] => littleEndian64 [a, b, c, d] <<< 8 ||| e.toUInt64
  | [a, b, c, d, e, f] =>
    littleEndian64 [a, b, c, d] <<< 16 ||| f.toUInt64 <<< 8 ||| e.toUInt64
  | [a, b, c, d, e, f, g] =>
    littleEndian64 [a, b, c, d] <<< 24 ||| f.toUInt64 <<< 16 ||| e.toUInt64 <<< 8 ||| g.toUInt64
  | d => readSwapped d

def absorb (seed : UInt64) (d : List UInt8) : UInt64 :=
  fold (seed ^^^ secret0)
    (fold (read64 d ^^^ secret1) (read64 (d.drop 8) ^^^ secret2) ^^^
      fold (read64 (d.drop 16) ^^^ secret3) (read64 (d.drop 24) ^^^ secret4))

/-- Absorbs `n` chunks of 32 bytes and returns the state with the bytes after them. -/
def chunks : Nat → UInt64 → List UInt8 → UInt64 × List UInt8
  | 0, seed, d => (seed, d)
  | n + 1, seed, d => chunks n (absorb seed d) (d.drop 32)

/-- Absorbs the fewer than 32 bytes left after the chunks. -/
def absorbTail (seed : UInt64) (d : List UInt8) : UInt64 :=
  if d.length = 0 then seed
  else if d.length ≤ 8 then fold seed (readRest d ^^^ secret1)
  else if d.length ≤ 16 then fold (readSwapped d ^^^ seed) (readRest (d.drop 8) ^^^ secret2)
  else if d.length ≤ 24 then
    fold (readSwapped d ^^^ seed) (readSwapped (d.drop 8) ^^^ secret2) ^^^
      fold seed (readRest (d.drop 16) ^^^ secret3)
  else
    fold (readSwapped d ^^^ seed) (readSwapped (d.drop 8) ^^^ secret2) ^^^
      fold (readSwapped (d.drop 16) ^^^ seed) (readRest (d.drop 24) ^^^ secret4)

end Wyhash

def wyhash (data : List UInt8) (seed : UInt64) : UInt64 :=
  let (state, rest) := Wyhash.chunks (data.length / 32) seed data
  Wyhash.fold (Wyhash.absorbTail (state ^^^ Wyhash.secret0) rest)
    (UInt64.ofNat data.length ^^^ Wyhash.secret5)

end DistinctCount.Hash
