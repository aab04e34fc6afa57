import Blueprint.Json.Basic
import Blueprint.Number.Digits

/-!
# Reading JSON texts

`Json.decode` reads a whole text. It accepts the numbers `NaN`, `Infinity` and `-Infinity`, takes
the last value of a repeated key, and refuses whole numbers of more than 4300 digits. A refused
text is reported with the reason and the place where reading stopped.

- `Json.Fault`: the reasons, `Json.Fault.message` their wording.
- `Json.DecodeError`: a reason with its place, or a number that is too long.
- `Json.string`, `Json.number`, `Json.value`: readers that take a value off the front of a list of
  characters. Inside them a place is the number of characters still to be read.
- `Json.decode`: the reader of a text.

The readers are structurally recursive on a bound. Every step takes at least one character, so
the length of the text is bound enough and no text is refused for lack of it.
-/

namespace Blueprint.Json

/-- Why a text is not a JSON text. -/
inductive Fault where
  | value
  | propertyName
  | colon
  | comma
  | extra
  | unterminatedString
  | controlCharacter
  | escape
  | unicodeEscape
  | byteOrderMark
deriving DecidableEq

/-- The wording of a fault. -/
def Fault.message : Fault → String
  | value => "Expecting value"
  | propertyName => "Expecting property name enclosed in double quotes"
  | colon => "Expecting ':' delimiter"
  | comma => "Expecting ',' delimiter"
  | extra => "Extra data"
  | unterminatedString => "Unterminated string starting at"
  | controlCharacter => "Invalid control character at"
  | escape => "Invalid \\escape"
  | unicodeEscape => "Invalid \\uXXXX escape"
  | byteOrderMark => "Unexpected UTF-8 BOM (decode using utf-8-sig)"

/-- A place in a text: characters before it, line and column, the last two counted from one. -/
structure Mark where
  offset : Nat
  line : Nat
  column : Nat
deriving DecidableEq

/-- The place after the given characters. -/
def Mark.after (before : List Char) : Mark where
  offset := before.length
  line := before.count '\n' + 1
  column := (before.reverse.takeWhile (· ≠ '\n')).length + 1

/-- Why a text could not be read. -/
inductive DecodeError where
  | malformed (fault : Fault) (mark : Mark)
  | oversized (digits : Nat)

/-- The greatest number of digits of a whole number. -/
def maxDigits : Nat := 4300

/-- The wording of an error. -/
def DecodeError.message : DecodeError → String
  | malformed fault mark =>
    s!"{fault.message}: line {mark.line} column {mark.column} (char {mark.offset})"
  | oversized digits =>
    s!"Exceeds the limit ({maxDigits} digits) for integer string conversion: value has {digits} " ++
      "digits; use sys.set_int_max_str_digits() to increase the limit"

/-- An error while reading, its place given by the number of characters left to read. -/
inductive Stop where
  | malformed (fault : Fault) (left : Nat)
  | oversized (digits : Nat)

/-- The blanks between the tokens of a text. -/
def isGap (c : Char) : Bool := c = ' ' || c = '\t' || c = '\n' || c = '\r'

/-- The characters after any blanks. -/
def skipGaps (cs : List Char) : List Char := cs.dropWhile isGap

/-! ## Strings -/

/-- The value of a hexadecimal digit. -/
def hexValue? (c : Char) : Option Nat :=
  if '0' ≤ c ∧ c ≤ '9' then some (c.toNat - '0'.toNat)
  else if 'a' ≤ c ∧ c ≤ 'f' then some (c.toNat - 'a'.toNat + 10)
  else if 'A' ≤ c ∧ c ≤ 'F' then some (c.toNat - 'A'.toNat + 10)
  else none

/-- The number written with four hexadecimal digits. -/
def hexUnit? (a b c d : Char) : Option Nat := do
  let a ← hexValue? a
  let b ← hexValue? b
  let c ← hexValue? c
  let d ← hexValue? d
  return ((a * 16 + b) * 16 + c) * 16 + d

/-- Read the four digits of an escape from what follows its `u`. A string has at least its closing
quote after them, so a text that ends with the digits is refused as well. -/
def unicodeUnit (cs : List Char) : Except Stop (Nat × List Char) :=
  match cs with
  | a :: b :: c :: d :: e :: rest =>
    match hexUnit? a b c d with
    | some n => .ok (n, e :: rest)
    | none => .error (.malformed .unicodeEscape (cs.length + 1))
  | _ => .error (.malformed .unicodeEscape (cs.length + 1))

/-- Whether a unit is the first half of a pair. -/
def isHighHalf (n : Nat) : Bool := 0xd800 ≤ n && n ≤ 0xdbff

/-- Whether a unit is the second half of a pair. -/
def isLowHalf (n : Nat) : Bool := 0xdc00 ≤ n && n ≤ 0xdfff

/-- The character of a unit by itself. Here is a limit of the model: half of a pair alone is kept as
it is where texts are lists of code points, but a `Char` is never half of a pair, so that U+FFFD
takes its place. Texts that differ only in such halves become equal. -/
def unitChar (n : Nat) : Char :=
  if isHighHalf n || isLowHalf n then Char.ofNat 0xfffd else Char.ofNat n

/-- The character of a pair of units. -/
def pairChar (high low : Nat) : Char :=
  Char.ofNat (0x10000 + (high - 0xd800) * 0x400 + (low - 0xdc00))

/-- Read an escape given by code point from what follows its `u`; two halves of a pair that follow
one another make one character. -/
def unicodeEscape (cs : List Char) : Except Stop (Char × List Char) := do
  let (n, rest) ← unicodeUnit cs
  match rest with
  | '\\' :: 'u' :: more =>
    -- a second escape is only looked at if the string can go on after it
    if isHighHalf n && decide (6 < rest.length) then
      let (low, rest') ← unicodeUnit more
      if isLowHalf low then .ok (pairChar n low, rest') else .ok (unitChar n, rest)
    else .ok (unitChar n, rest)
  | _ => .ok (unitChar n, rest)

/-- The character that a one-letter escape stands for. -/
def shortEscape? : Char → Option Char
  | '"' => some '"'
  | '\\' => some '\\'
  | '/' => some '/'
  | 'b' => some (Char.ofNat 8)
  | 'f' => some (Char.ofNat 12)
  | 'n' => some '\n'
  | 'r' => some '\r'
  | 't' => some '\t'
  | _ => none

/-- Read an escape from what follows its backslash. -/
def escaped (quoteLeft : Nat) (cs : List Char) : Except Stop (Char × List Char) :=
  match cs with
  | [] => .error (.malformed .unterminatedString quoteLeft)
  | 'u' :: rest => unicodeEscape rest
  | c :: rest =>
    match shortEscape? c with
    | some x => .ok (x, rest)
    | none => .error (.malformed .escape (cs.length + 1))

/-- Read a string up to its closing quote; `acc` holds the characters read so far, last first. -/
def stringBody (quoteLeft : Nat) : Nat → List Char → List Char → Except Stop (List Char × List Char)
  | 0, _, _ => .error (.malformed .unterminatedString quoteLeft)
  | bound + 1, acc, cs =>
    match cs with
    | [] => .error (.malformed .unterminatedString quoteLeft)
    | '"' :: rest => .ok (acc.reverse, rest)
    | '\\' :: rest => do
      let (c, rest) ← escaped quoteLeft rest
      stringBody quoteLeft bound (c :: acc) rest
    | c :: rest =>
      if c.toNat < 0x20 then .error (.malformed .controlCharacter cs.length)
      else stringBody quoteLeft bound (c :: acc) rest

/-- Read a string from what follows its opening quote. -/
def string (cs : List Char) : Except Stop (String × List Char) := do
  let (s, rest) ← stringBody (cs.length + 1) (cs.length + 1) [] cs
  return (String.ofList s, rest)

/-! ## Numbers -/

/-- Digits at the front, and the rest. -/
def spanDigits (cs : List Char) : List Char × List Char :=
  (cs.takeWhile Char.isDigit, cs.dropWhile Char.isDigit)

/-- The whole part of a number: a zero alone, or digits that do not begin with one. -/
def wholePart? : List Char → Option (List Char × List Char)
  | '0' :: rest => some (['0'], rest)
  | c :: rest => if c.isDigit then some (spanDigits (c :: rest)) else none
  | [] => none

/-- The fraction of a number: a point and at least one digit. Without them it is empty. -/
def fractionPart (cs : List Char) : List Char × List Char :=
  match cs with
  | '.' :: rest => if (spanDigits rest).1.isEmpty then ([], cs) else spanDigits rest
  | _ => ([], cs)

/-- A sign at the front, if there is one, and the rest. -/
def signPart : List Char → Bool × List Char
  | '+' :: rest => (false, rest)
  | '-' :: rest => (true, rest)
  | cs => (false, cs)

/-- The exponent of a number: a mark, perhaps a sign, and at least one digit. -/
def exponentPart? (cs : List Char) : Option (Int × List Char) :=
  match cs with
  | c :: rest =>
    if c = 'e' || c = 'E' then
      let (negative, body) := signPart rest
      let (ds, after) := spanDigits body
      if ds.isEmpty then none
      else some (if negative then -(ofDigits ds : Int) else ofDigits ds, after)
    else none
  | [] => none

/-- The value of a number without its sign, whose whole part has been read. -/
def unsignedNumber (negative : Bool) (whole rest : List Char) : Except Stop (Json × List Char) :=
  let (fraction, rest) := fractionPart rest
  let exponent := exponentPart? rest
  if fraction.isEmpty && exponent.isNone then
    -- only whole numbers have a limit
    if maxDigits < whole.length then .error (.oversized whole.length)
    else
      let n : Int := ofDigits whole
      .ok (int (if negative then -n else n), rest)
  else
    let (k, rest) := exponent.getD (0, rest)
    .ok (float (.ofDecimal negative ⟨ofDigits (whole ++ fraction), k - fraction.length⟩), rest)

/-- Read a number: the longest run of characters at the front that has the form of one. -/
def number (cs : List Char) : Except Stop (Json × List Char) :=
  let (negative, body) := match cs with
    | '-' :: rest => (true, rest)
    | _ => (false, cs)
  match wholePart? body with
  | some (whole, rest) => unsignedNumber negative whole rest
  | none => .error (.malformed .value cs.length)

/-! ## Values -/

/-- The words that stand for a value. -/
def words : List (String × Json) :=
  [("null", null), ("true", bool true), ("false", bool false), ("NaN", float .nan),
   ("Infinity", float (.infinity false)), ("-Infinity", float (.infinity true))]

/-- Read a word that stands for a value. -/
def word? (cs : List Char) : Option (Json × List Char) :=
  words.findSome? fun w =>
    if w.1.toList.isPrefixOf cs then some (w.2, cs.drop w.1.length) else none

/-- Read the elements of an array up to its closing bracket; `acc` holds them last first. -/
def elements (item : List Char → Except Stop (Json × List Char)) :
    Nat → List Json → List Char → Except Stop (List Json × List Char)
  -- never reached: each element takes a character
  | 0, _, cs => .error (.malformed .value cs.length)
  | bound + 1, acc, cs => do
    let (v, rest) ← item cs
    match skipGaps rest with
    | ']' :: rest => .ok ((v :: acc).reverse, rest)
    | ',' :: rest => elements item bound (v :: acc) (skipGaps rest)
    | rest => .error (.malformed .comma rest.length)

/-- Read the members of an object up to its closing brace, `acc` being those read so far. -/
def members (item : List Char → Except Stop (Json × List Char)) :
    Nat → List (String × Json) → List Char → Except Stop (List (String × Json) × List Char)
  | 0, _, cs => .error (.malformed .propertyName cs.length)
  | bound + 1, acc, cs =>
    match cs with
    | '"' :: rest => do
      let (key, rest) ← string rest
      match skipGaps rest with
      | ':' :: rest => do
        let (v, rest) ← item (skipGaps rest)
        match skipGaps rest with
        | '}' :: rest => .ok (setMember key v acc, rest)
        | ',' :: rest => members item bound (setMember key v acc) (skipGaps rest)
        | rest => .error (.malformed .comma rest.length)
      | rest => .error (.malformed .colon rest.length)
    | _ => .error (.malformed .propertyName cs.length)

/-- Read a value nested at most as deeply as the bound. -/
def value : Nat → List Char → Except Stop (Json × List Char)
  | 0, cs => .error (.malformed .value cs.length)
  | bound + 1, cs =>
    match cs with
    | '"' :: rest => do
      let (s, rest) ← string rest
      return (str s, rest)
    | '{' :: rest =>
      match skipGaps rest with
      | '}' :: rest => .ok (obj [], rest)
      | rest => do
        let (ms, rest) ← members (value bound) (rest.length + 1) [] rest
        return (obj ms, rest)
    | '[' :: rest =>
      match skipGaps rest with
      | ']' :: rest => .ok (arr [], rest)
      | rest => do
        let (vs, rest) ← elements (value bound) (rest.length + 1) [] rest
        return (arr vs, rest)
    | _ =>
      match word? cs with
      | some r => .ok r
      | none => number cs

/-- Read a value and the blanks around it; nothing else may follow. -/
def document (cs : List Char) : Except Stop Json := do
  if cs.head? = some (Char.ofNat 0xfeff) then throw (.malformed .byteOrderMark cs.length)
  -- the length of the text bounds how deeply it can be nested
  let (v, rest) ← value (cs.length + 1) (skipGaps cs)
  match skipGaps rest with
  | [] => return v
  | rest => throw (.malformed .extra rest.length)

/-- The error of a text, given where reading it stopped. -/
def Stop.locate (cs : List Char) : Stop → DecodeError
  | malformed fault left => .malformed fault (Mark.after (cs.take (cs.length - left)))
  | oversized digits => .oversized digits

/-- Read a JSON text. -/
def decode (source : String) : Except DecodeError Json :=
  (document source.toList).mapError (Stop.locate source.toList)

end Blueprint.Json
