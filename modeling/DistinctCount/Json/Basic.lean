namespace DistinctCount

/--
A JSON value. A string is `none` when its escapes leave a surrogate without a partner, as it then
denotes no text. A number with a sign, a fraction or an exponent is kept as it was written.
-/
inductive Json
  | null
  | bool (b : Bool)
  | natural (n : Nat)
  | decimal (text : String)
  | string (text : Option String)
  | array (items : List Json)
  | object (members : List (Option String × Json))
deriving Inhabited

namespace Json

def toText? : Json → Option String
  | string text => text
  | _ => none

/-- A number below `bound`. -/
def toNatBelow? (bound : Nat) : Json → Option Nat
  | natural n => if n < bound then some n else none
  | _ => none

def toUInt8? (v : Json) : Option UInt8 :=
  (v.toNatBelow? UInt8.size).map UInt8.ofNat

def toUInt32? (v : Json) : Option UInt32 :=
  (v.toNatBelow? UInt32.size).map UInt32.ofNat

def toUInt64? (v : Json) : Option UInt64 :=
  (v.toNatBelow? UInt64.size).map UInt64.ofNat

/-- Whether each of the names is the key of at most one member. -/
def atMostOnce (names : List String) (members : List (Option String × Json)) : Bool :=
  names.all fun name => (members.filter (·.1 == some name)).length ≤ 1

/--
The values of a record's fields in the order of their names. In an object they are found by name,
other members do not matter; in an array they are found by place, and the last ones may be missing.
-/
def fields? (names : List String) : Json → Option (List (Option Json))
  | object members =>
    if members.all (·.1.isSome) && atMostOnce names members then
      some (names.map fun name => members.lookup (some name))
    else none
  | array items =>
    if items.length ≤ names.length then
      some (items.map some ++ List.replicate (names.length - items.length) none)
    else none
  | _ => none

def size : Json → Nat
  | object members => members.length
  | array items => items.length
  | _ => 0

end Json

end DistinctCount
