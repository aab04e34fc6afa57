import Blueprint.Text.Layout.Basic

/-!
# The layout of whole numbers

A whole number is written in a base, as the character it stands for, or with a fraction: with a
fixed number of places, with an exponent, with the shorter of the two, or in percent.

- `Numeral`: a written number in parts, of which only the digits are grouped and filled with zeros.
- `Layout.grouped`: digits in groups.
- `Layout.arrangeNumber`: lay out a whole number.
-/

namespace Blueprint.Text

/-- A written number: what stands before its digits, the digits, and what follows them. -/
structure Numeral where
  lead : List Char := []
  digits : List Char := []
  tail : List Char := []

namespace Numeral

/-- A number in a base. -/
def inBase (base n : Nat) (lead : String) : Numeral :=
  { lead := lead.toList, digits := Nat.toDigits base n }

/-- A point and the digits after it; without digits there is a point only on request. -/
def fraction (pointed : Bool) (ds : List Char) : List Char :=
  if ds.isEmpty && !pointed then [] else '.' :: ds

/-- A number with a fixed number of places. -/
def fixed (places : Nat) (pointed : Bool) (n : Nat) : Numeral :=
  { digits := Nat.toDigits 10 n, tail := fraction pointed (List.replicate places '0') }

/-- The nearest whole number to a quotient; a tie goes to the even one. -/
def roundDiv (n d : Nat) : Nat :=
  let q := n / d
  let r := n % d
  if d < 2 * r ∨ (d = 2 * r ∧ q % 2 = 1) then q + 1 else q

/-- The first so many digits of a number, rounded, and the exponent of the first. -/
def significant (count n : Nat) : List Char × Nat :=
  let length := (Nat.toDigits 10 n).length
  if length ≤ count then
    (Nat.toDigits 10 n ++ List.replicate (count - length) '0', length - 1)
  else
    let ds := Nat.toDigits 10 (roundDiv n (Nat.pow 10 (length - count)))
    if count < ds.length then (ds.take count, length) else (ds, length - 1)

/-- An exponent, with at least two digits. -/
def exponent (e : Nat) : List Char :=
  let ds := Nat.toDigits 10 e
  'e' :: '+' :: (List.replicate (2 - ds.length) '0' ++ ds)

/-- A number with an exponent. -/
def scientific (places : Nat) (pointed : Bool) (n : Nat) : Numeral :=
  let (ds, e) := significant (places + 1) n
  { digits := ds.take 1, tail := fraction pointed (ds.drop 1) ++ exponent e }

/-- Digits without the zeros at the end. -/
def trimmed (ds : List Char) : List Char := (ds.reverse.dropWhile (· = '0')).reverse

/-- A number with so many significant digits, and with an exponent if it needs more. Zeros at the
end of the fraction are kept only on request. -/
def general (count : Nat) (pointed : Bool) (n : Nat) : Numeral :=
  let (ds, e) := significant (max count 1) n
  let whole := if e < max count 1 then e + 1 else 1
  let rest := ds.drop whole
  { digits := ds.take whole
    tail := fraction pointed (if pointed then rest else trimmed rest) ++
      if e < max count 1 then [] else exponent e }

/-- A number in capitals. -/
def capital (n : Numeral) : Numeral :=
  { lead := n.lead.map Char.toUpper, digits := n.digits.map Char.toUpper
    tail := n.tail.map Char.toUpper }

end Numeral

namespace Layout

/-- Digits in groups, the last digit first, with zeros up to a number of places. The first argument
bounds the number of groups. -/
def groupsFrom (separator : Char) (size : Nat) : Nat → Nat → List Char → List Char
  | 0, _, ds => ds
  | bound + 1, places, ds =>
    let length := min size (max (max ds.length places) 1)
    let group := ds.take length ++ List.replicate (length - ds.length) '0'
    let rest := ds.drop length
    if rest.isEmpty ∧ places ≤ length then group
    else group ++ separator :: groupsFrom separator size bound (places - length - 1) rest

/-- Digits as a layout groups them, with zeros up to a number of places. -/
def grouped (l : Layout) (places : Nat) (ds : List Char) : List Char :=
  if ds.isEmpty then []
  else
    match l.separator with
    | none => List.replicate (places - ds.length) '0' ++ ds
    | some s =>
      let size := if "boxX".toList.contains l.kind then 4 else 3
      (groupsFrom s size (ds.length + places) places ds.reverse).reverse

/-- The sign of a number. -/
def signText (l : Layout) (negative : Bool) : List Char :=
  if negative then ['-']
  else match l.sign with
    | some '+' => ['+']
    | some ' ' => [' ']
    | _ => []

/-- A written number in its places. The places between the sign and the digits may be filled too. -/
def placeNumeral (l : Layout) (negative : Bool) (n : Numeral) : List Char :=
  let start := l.signText negative ++ n.lead
  let others := start.length + n.tail.length
  let digits := l.grouped (if l.fill = '0' ∧ l.align = '=' then l.width - others else 0) n.digits
  if l.align = '=' then
    start ++ List.replicate (l.width - (others + digits.length)) l.fill ++ digits ++ n.tail
  else l.surround (start ++ digits ++ n.tail)

/-- The greatest precision. -/
def maxPrecision : Nat := Nat.pow 2 31 - 1

/-- A number with a fraction of the given precision, written as a kind asks. -/
def fractional? (l : Layout) (precision n : Nat) : Option Numeral :=
  match l.kind with
  | 'f' => some (.fixed precision l.alternate n)
  | 'F' => some (Numeral.fixed precision l.alternate n).capital
  | 'e' => some (.scientific precision l.alternate n)
  | 'E' => some (Numeral.scientific precision l.alternate n).capital
  | 'g' => some (.general precision l.alternate n)
  | 'G' => some (Numeral.general precision l.alternate n).capital
  | '%' =>
    let n := Numeral.fixed precision l.alternate (100 * n)
    some { n with tail := n.tail ++ ['%'] }
  | _ => none

/-- The precision of a fraction that none is given for. -/
def defaultPrecision : Nat := 6

/-- A whole number, written as a kind asks. -/
def whole? (l : Layout) (n : Nat) : Option Numeral :=
  let lead (s : String) := if l.alternate then s else ""
  match l.kind with
  | 'd' => some (.inBase 10 n "")
  | 'n' => some (.inBase 10 n "")
  | 'b' => some (.inBase 2 n (lead "0b"))
  | 'o' => some (.inBase 8 n (lead "0o"))
  | 'x' => some (.inBase 16 n (lead "0x"))
  | 'X' => some (Numeral.inBase 16 n (lead "0x")).capital
  | _ => none

/-- The character that a number stands for. -/
def character (l : Layout) (n : Int) : Except LayoutError Numeral :=
  if l.sign.isSome then .error .signOnCharacter
  else if l.alternate then .error .alternateOnCharacter
  else if n < 0 ∨ 0x10ffff < n then .error .noCharacter
  else .ok { tail := [Char.ofNat n.toNat] }

/-- A number written as a layout asks. A precision is looked at before anything is written. -/
def numeral (l : Layout) (n : Int) : Except LayoutError Numeral :=
  let precision := l.precision.getD defaultPrecision
  match l.fractional? (if maxPrecision < precision then 0 else precision) n.natAbs with
  | some numeral => if maxPrecision < precision then .error .precisionTooBig else .ok numeral
  | none =>
    if l.kind ≠ 'c' ∧ (l.whole? 0).isNone then
      .error (.unknownKind l.kind LayoutSubject.number.label)
    else if l.precision.isSome then .error .precisionOnWhole
    else if l.negativeZero then .error .negativeZeroOnWhole
    else
      match l.whole? n.natAbs with
      | some numeral => .ok numeral
      | none => l.character n

/-- Lay out a whole number. -/
def arrangeNumber (spec : String) (n : Int) : Except LayoutError String := do
  if spec = "" then return toString n
  let l ← parse .number spec
  let numeral ← l.numeral n
  return String.ofList (l.placeNumeral (decide (n < 0)) numeral)

end Layout

end Blueprint.Text
