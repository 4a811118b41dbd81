import DistinctCount.Slots.Codec

namespace DistinctCount

/-- A caller that waits until the deletion of a key is confirmed. -/
abbrev Ticket := Nat

/-- The HyperLogLog sketch of one key with its expiry and the state of its write-back. -/
structure Sketch where
  key : String
  /-- The shard that owns the key. -/
  shard : Nat
  slots : Slots := .empty
  /-- The number of slots in use. -/
  nonZero : Nat := 0
  /-- Mutations that the backend does not have yet, counted modulo 2^64. -/
  pending : Int64 := 0
  /-- Epoch second from which the key is expired; 0 for never. -/
  expiresAt : UInt64
  /-- The expiry bucket that holds the entry of this sketch. -/
  bucket : Option UInt64 := none
  deleted : Bool := false
  /-- Callers to be told when the backend confirms the deletion. -/
  waiters : List Ticket := []
deriving DecidableEq, Inhabited

namespace Sketch

/-- The sketch with the given slots, clean and without an entry in any bucket. -/
def ofBytes (key : String) (shard : Nat) (expiresAt : UInt64) (data : List UInt8) :
    Except DecodeError Sketch := do
  let decoded ← Slots.decode data
  return { key, shard, expiresAt, slots := decoded.slots, nonZero := decoded.nonZero }

def toBytes (s : Sketch) : List UInt8 :=
  s.slots.encode s.nonZero

/-- The top eight bits of a hash select a slot. -/
def slotOf (h : UInt32) : Fin 256 :=
  ⟨h.toNat / 0x1000000, Nat.div_lt_of_lt_mul h.toNat_lt⟩

/-- One more than the number of leading zeros among the low 24 bits of a hash. -/
def rankOf (h : UInt32) : UInt8 :=
  let low := h.toNat % 0x1000000
  if low = 0 then maxRank else UInt8.ofNat (24 - low.log2)

def markDirty (s : Sketch) : Sketch :=
  { s with pending := s.pending + 1 }

def markFlushed (s : Sketch) (n : Int64) : Sketch :=
  { s with pending := s.pending - n }

/-- Raises a slot to `rank`, which is one mutation. -/
def raise (s : Sketch) (i : Fin 256) (rank : UInt8) : Sketch :=
  { s with
    slots := s.slots.set i rank i.isLt
    nonZero := if s.slots.get i = 0 then s.nonZero + 1 else s.nonZero
    pending := s.pending + 1 }

/--
Counts a hash. A hash that raises its slot answers the pending mutations and `true`,
any other changes nothing and answers 0 and `false`.
-/
def addHash (s : Sketch) (h : UInt32) : Sketch × Int64 × Bool :=
  if s.slots.get (slotOf h) < rankOf h then
    let raised := s.raise (slotOf h) (rankOf h)
    (raised, raised.pending, true)
  else
    (s, 0, false)

/-- Two sketches hold the same key and slots. -/
def sameContent (a b : Sketch) : Bool :=
  a.key == b.key && a.nonZero == b.nonZero && a.slots == b.slots

end Sketch

end DistinctCount
