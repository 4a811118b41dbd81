import DistinctCount.Json.Basic
import DistinctCount.Text.Hex

/-!
Strict JSON text. Each reader takes the characters that are left and answers what it read with the
characters after it, or `none` when they do not begin with what it reads.
-/

namespace DistinctCount.Json

def isBlank (c : Char) : Bool :=
  c == ' ' || c == '\n' || c == '\t' || c == '\r'

def skipBlank (cs : List Char) : List Char :=
  cs.dropWhile isBlank

/-- A part of a string literal: a character, or a code unit written as an escape. -/
inductive Piece
  | char (c : Char)
  | unit (n : Nat)

def isLeading (n : Nat) : Bool := 0xd800 ≤ n && n < 0xdc00

def isTrailing (n : Nat) : Bool := 0xdc00 ≤ n && n < 0xe000

/-- The text of the pieces, if every surrogate among the code units stands in a pair. -/
def textOf : List Piece → Option (List Char)
  | [] => some []
  | .char c :: rest => (textOf rest).map (c :: ·)
  | .unit n :: .unit m :: rest =>
    if isLeading n then
      if isTrailing m then
        (textOf rest).map (Char.ofNat (0x10000 + (n - 0xd800) * 0x400 + (m - 0xdc00)) :: ·)
      else none
    else if isTrailing n then none
    else (textOf (.unit m :: rest)).map (Char.ofNat n :: ·)
  | .unit n :: rest =>
    if isLeading n || isTrailing n then none else (textOf rest).map (Char.ofNat n :: ·)

def shortEscape? : Char → Option Char
  | '"' => some '"'
  | '\\' => some '\\'
  | '/' => some '/'
  | 'b' => some '\x08'
  | 'f' => some '\x0c'
  | 'n' => some '\n'
  | 'r' => some '\r'
  | 't' => some '\t'
  | _ => none

def codeUnit? (a b c d : Char) : Option Nat := do
  let a ← Text.Hex.digit? a
  let b ← Text.Hex.digit? b
  let c ← Text.Hex.digit? c
  let d ← Text.Hex.digit? d
  return ((a * 16 + b) * 16 + c) * 16 + d

/-- The rest of a string literal after its opening quote. -/
def readPieces : List Char → Option (List Piece × List Char)
  | [] => none
  | '"' :: rest => some ([], rest)
  | '\\' :: 'u' :: a :: b :: c :: d :: rest => do
    let unit ← codeUnit? a b c d
    let (pieces, rest) ← readPieces rest
    return (.unit unit :: pieces, rest)
  | '\\' :: e :: rest => do
    let c ← shortEscape? e
    let (pieces, rest) ← readPieces rest
    return (.char c :: pieces, rest)
  | c :: rest => do
    guard (0x20 ≤ c.toNat)
    let (pieces, rest) ← readPieces rest
    return (.char c :: pieces, rest)

def readString (cs : List Char) : Option (Option String × List Char) := do
  let (pieces, rest) ← readPieces cs
  return ((textOf pieces).map String.ofList, rest)

def valueOf (digits : List Char) : Nat :=
  digits.foldl (fun n c => n * 10 + (c.toNat - '0'.toNat)) 0

/-- The digits of a whole number: 0, or any that do not begin with 0. -/
def readWhole : List Char → Option (List Char × List Char)
  | '0' :: rest => some (['0'], rest)
  | cs =>
    let digits := cs.takeWhile Char.isDigit
    if digits.isEmpty then none else some (digits, cs.dropWhile Char.isDigit)

def readDigits (cs : List Char) : Option (List Char × List Char) :=
  let digits := cs.takeWhile Char.isDigit
  if digits.isEmpty then none else some (digits, cs.dropWhile Char.isDigit)

/-- A point with its digits, or nothing. -/
def readFraction : List Char → Option (List Char × List Char)
  | '.' :: rest => do
    let (digits, rest) ← readDigits rest
    return ('.' :: digits, rest)
  | cs => some ([], cs)

/-- The mark of an exponent with its sign and digits, or nothing. -/
def readExponent : List Char → Option (List Char × List Char)
  | cs@(e :: rest) =>
    if e == 'e' || e == 'E' then do
      let sign := rest.takeWhile (fun c => c == '+' || c == '-') |>.take 1
      let (digits, rest) ← readDigits (rest.drop sign.length)
      return (e :: sign ++ digits, rest)
    else some ([], cs)
  | [] => some ([], [])

def readNumber (cs : List Char) : Option (Json × List Char) := do
  let sign := cs.takeWhile (· == '-') |>.take 1
  let (whole, rest) ← readWhole (cs.drop sign.length)
  let (fraction, rest) ← readFraction rest
  let (exponent, rest) ← readExponent rest
  if sign.isEmpty && fraction.isEmpty && exponent.isEmpty then
    return (.natural (valueOf whole), rest)
  else
    return (.decimal (String.ofList (sign ++ whole ++ fraction ++ exponent)), rest)

/-- The characters after the given ones. -/
def expect (word cs : List Char) : Option (List Char) :=
  if word.isPrefixOf cs then some (cs.drop word.length) else none

mutual

/-- A value of at most `fuel` steps, after blanks. -/
def readValue : Nat → List Char → Option (Json × List Char)
  | 0, _ => none
  | fuel + 1, cs =>
    match skipBlank cs with
    | '[' :: rest =>
      match skipBlank rest with
      | ']' :: rest => some (.array [], rest)
      | _ => (readItems fuel rest).map fun (items, rest) => (.array items, rest)
    | '{' :: rest =>
      match skipBlank rest with
      | '}' :: rest => some (.object [], rest)
      | _ => (readMembers fuel rest).map fun (members, rest) => (.object members, rest)
    | '"' :: rest => (readString rest).map fun (text, rest) => (.string text, rest)
    | 'n' :: rest => (expect ['u', 'l', 'l'] rest).map ((.null, ·))
    | 't' :: rest => (expect ['r', 'u', 'e'] rest).map ((.bool true, ·))
    | 'f' :: rest => (expect ['a', 'l', 's', 'e'] rest).map ((.bool false, ·))
    | rest => readNumber rest

def readItems : Nat → List Char → Option (List Json × List Char)
  | 0, _ => none
  | fuel + 1, cs => do
    let (item, rest) ← readValue fuel cs
    match skipBlank rest with
    | ',' :: rest =>
      let (items, rest) ← readItems fuel rest
      return (item :: items, rest)
    | ']' :: rest => return ([item], rest)
    | _ => none

def readMembers : Nat → List Char → Option (List (Option String × Json) × List Char)
  | 0, _ => none
  | fuel + 1, cs => do
    let rest ← expect ['"'] (skipBlank cs)
    let (name, rest) ← readString rest
    let rest ← expect [':'] (skipBlank rest)
    let (value, rest) ← readValue fuel rest
    match skipBlank rest with
    | ',' :: rest =>
      let (members, rest) ← readMembers fuel rest
      return ((name, value) :: members, rest)
    | '}' :: rest => return ([(name, value)], rest)
    | _ => none

end

/-- The value that a text begins with, and whether nothing but blanks follows it. -/
def readText (text : String) : Option (Json × Bool) :=
  let cs := text.toList
  (readValue (2 * cs.length + 2) cs).map fun (value, rest) => (value, (skipBlank rest).isEmpty)

/-- The value that a text denotes. Blanks may stand around it, nothing else. -/
def parse? (text : String) : Option Json := do
  let (value, whole) ← readText text
  guard whole
  return value

end DistinctCount.Json
