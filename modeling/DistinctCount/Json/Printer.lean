import DistinctCount.Json.Basic
import DistinctCount.Text.Hex

namespace DistinctCount.Json

/-- One character of a string literal; only quotes, backslashes and control characters change. -/
def escape (c : Char) : List Char :=
  match c with
  | '"' => ['\\', '"']
  | '\\' => ['\\', '\\']
  | '\x08' => ['\\', 'b']
  | '\x0c' => ['\\', 'f']
  | '\n' => ['\\', 'n']
  | '\r' => ['\\', 'r']
  | '\t' => ['\\', 't']
  | _ =>
    if c.toNat < 0x20 then
      ['\\', 'u', '0', '0', Nat.digitChar (c.toNat / 16), Nat.digitChar (c.toNat % 16)]
    else [c]

def literal (text : String) : List Char :=
  '"' :: text.toList.flatMap escape ++ ['"']

def digits (n : Nat) : List Char :=
  Nat.toDigits 10 n

def bracket (items : List (List Char)) : List Char :=
  '[' :: [','].intercalate items ++ [']']

end DistinctCount.Json
