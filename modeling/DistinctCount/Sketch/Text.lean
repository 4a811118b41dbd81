import DistinctCount.Json.Parser
import DistinctCount.Json.Printer
import DistinctCount.Sketch.Estimate
import DistinctCount.Text.Quoted

namespace DistinctCount.Sketch

def summary (s : Sketch) : String :=
  "\x7b key: " ++ Text.quoted s.key ++ ", estimate: " ++ toString s.estimate.toNat
    ++ ", non_zero: " ++ toString s.nonZero ++ ", pending: " ++ toString s.pending.toInt ++ " \x7d"

/-- The JSON text of a sketch: its key, its expiry and its byte form. -/
def toJson (s : Sketch) : String :=
  String.ofList <| Json.bracket
    [Json.literal s.key, Json.digits s.expiresAt.toNat,
      Json.bracket (s.toBytes.map fun b => Json.digits b.toNat)]

/-- Why a text is not a sketch: it has another shape, or its bytes are refused. -/
inductive ReadError
  | malformed
  | refused (error : DecodeError)
deriving DecidableEq

/-- The key, the expiry and the bytes that a JSON value gives for a sketch. -/
def parts? : Json → Option (String × UInt64 × List UInt8)
  | .array [key, expiresAt, .array bytes] => do
    return (← key.toText?, ← expiresAt.toUInt64?, ← bytes.mapM Json.toUInt8?)
  | _ => none

/--
Reads a JSON text back. The sketch is clean and owned by shard 0. Bytes that are refused are the
reason even if more text follows the value.
-/
def ofJson (text : String) : Except ReadError Sketch := do
  let some (value, whole) := Json.readText text | throw .malformed
  let some (key, expiresAt, bytes) := parts? value | throw .malformed
  let s ← (ofBytes key 0 expiresAt bytes).mapError .refused
  if whole then return s else throw .malformed

end DistinctCount.Sketch
