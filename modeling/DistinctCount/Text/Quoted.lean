import DistinctCount.Text.Hex
import DistinctCount.Text.Printable

namespace DistinctCount.Text

/-- One character between quotes: a short escape, `\u` and its code point in braces, or itself. -/
def escape (c : Char) : String :=
  match c with
  | '\x00' => "\\0"
  | '\t' => "\\t"
  | '\r' => "\\r"
  | '\n' => "\\n"
  | '"' => "\\\""
  | '\\' => "\\\\"
  | _ => if isPrintable c then c.toString else "\\u\x7b" ++ Hex.ofNat c.toNat ++ "\x7d"

/-- The text between double quotes, with every character that is not printable escaped. -/
def quoted (s : String) : String :=
  "\"" ++ String.join (s.toList.map escape) ++ "\""

end DistinctCount.Text
