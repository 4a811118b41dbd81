import DistinctCount.Slots.Packed
import DistinctCount.Text.Hex

/-!
The byte form of a sketch. Up to 80 slots in use are written sparsely: their number, their indices in
increasing order, their ranks. More are written densely: the marker `0xff` and the packed slots.
-/

namespace DistinctCount

/-- Why a byte string is not the form of any sketch. -/
inductive DecodeError
  | empty
  | invalidLength (marker : UInt8) (length : Nat)
  | sparseCountTooLarge (count : Nat)
  | unsortedIndex (position : Nat)
  | invalidRank (index : Nat) (rank : UInt8)
deriving DecidableEq

def DecodeError.message : DecodeError → String
  | empty => "serialized sketch is empty"
  | invalidLength marker length =>
    s!"invalid length {length} for serialized sketch with leading byte 0x" ++ Text.Hex.ofByte marker
  | sparseCountTooLarge count =>
    s!"sparse sketch declares {count} slots, at most 80 are allowed"
  | unsortedIndex position =>
    s!"sparse sketch slot indices are not strictly increasing at position {position}"
  | invalidRank index rank => s!"slot {index} holds invalid rank {rank.toNat}"

inductive Encoding
  | sparse
  | dense
deriving DecidableEq

namespace Encoding

/-- The most slots in use that are written sparsely. -/
def sparseMax : Nat := 80

def denseMarker : UInt8 := 0xff

def denseLength : Nat := 161

/-- The form for a sketch with `nonZero` slots in use. -/
def select (nonZero : Nat) : Encoding :=
  if nonZero ≤ sparseMax then sparse else dense

/-- The number of bytes of the form for a sketch with `nonZero` slots in use. -/
def length : Encoding → Nat → Nat
  | sparse, nonZero => 2 * nonZero + 1
  | dense, _ => denseLength

/-- The form that the leading byte announces. -/
def detect : List UInt8 → Except DecodeError Encoding
  | [] => .error .empty
  | b :: _ => .ok (if b = denseMarker then dense else sparse)

end Encoding

namespace Slots

/-- The sparse form with room for `n` slots: the first `n` in use, then zeros for those missing. -/
def encodeSparse (s : Slots) (n : Nat) : List UInt8 :=
  let kept := s.occupied.take n
  let padding := List.replicate (n - kept.length) 0
  UInt8.ofNat n :: (kept.map (·.1) ++ padding) ++ (kept.map (·.2) ++ padding)

def encodeDense (s : Slots) : List UInt8 :=
  Encoding.denseMarker :: (Packed.ofSlots s).toList

/-- The byte form of the slots, of which the caller counts `nonZero` in use. -/
def encode (s : Slots) (nonZero : Nat) : List UInt8 :=
  match Encoding.select nonZero with
  | .sparse => s.encodeSparse nonZero
  | .dense => s.encodeDense

/-- Slots together with the number of them in use. -/
structure Decoded where
  slots : Slots
  nonZero : Nat

/-- Fills in the slots of a sparse form from `position` on, after the index `previous`. -/
def readPairs (slots : Slots) (position : Nat) (previous : Option UInt8) :
    List (UInt8 × UInt8) → Except DecodeError Slots
  | [] => .ok slots
  | (index, rank) :: rest =>
    if previous.any (index ≤ ·) then
      .error (.unsortedIndex position)
    else if rank = 0 ∨ maxRank < rank then
      .error (.invalidRank index.toNat rank)
    else
      readPairs (slots.set index.toNat rank index.toNat_lt) (position + 1) (some index) rest

def decodeSparse (marker : UInt8) (body : List UInt8) : Except DecodeError Decoded :=
  let n := marker.toNat
  if Encoding.sparseMax < n then
    .error (.sparseCountTooLarge n)
  else if body.length ≠ 2 * n then
    .error (.invalidLength marker (body.length + 1))
  else do
    let slots ← readPairs empty 0 none ((body.take n).zip (body.drop n))
    return ⟨slots, n⟩

def decodeDense (body : List UInt8) : Except DecodeError Decoded :=
  if h : body.length = 160 then
    let packed : Packed := ⟨body.toArray, by simpa using h⟩
    match (List.finRange 256).find? fun i => maxRank < packed.get i with
    | some i => .error (.invalidRank i.val (packed.get i))
    | none => .ok ⟨packed.toSlots, packed.toSlots.nonZero⟩
  else
    .error (.invalidLength Encoding.denseMarker (body.length + 1))

/-- Reads a byte form back; every form that `encode` could not have written is refused. -/
def decode : List UInt8 → Except DecodeError Decoded
  | [] => .error .empty
  | marker :: body =>
    if marker = Encoding.denseMarker then decodeDense body else decodeSparse marker body

end Slots

end DistinctCount
