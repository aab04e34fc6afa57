import Blueprint.Number.Binary64

/-!
# The shortest decimal text of a binary64 number

A finite value is written with the fewest significant digits that read back as the same value,
and among those the nearest to it. The digits stand positionally while the decimal exponent is
between `-4` and `15`, with a fraction always shown, and in exponent form otherwise.

- `Binary64.exact`: the decimal number that a finite value is.
- `Binary64.shortest`: the decimal number it is written as.
- `Binary64.text`: its text.
-/

namespace Blueprint

namespace Decimal

/-- The two neighbours of `d` with `n` significant digits, the nearer first and of two equally
near ones the even one. A number with at most `n` digits is its own first neighbour. -/
def neighbours (d : Decimal) (n : Nat) : List Decimal :=
  let dropped := d.size - n
  let unit := Nat.pow 10 dropped
  let low := d.digits / unit
  let r := d.digits % unit
  let below : Decimal := ⟨low, d.exponent + dropped⟩
  let above : Decimal := ⟨low + 1, d.exponent + dropped⟩
  -- the nearer one first, a tie going to the even one
  if 2 * r < unit ∨ (2 * r = unit ∧ low % 2 = 0) then [below, above] else [above, below]

end Decimal

/-- How a run of significant digits is laid out as a number. -/
structure NumberLayout where
  /-- The least decimal exponent written positionally. -/
  leastPositional : Int
  /-- The least decimal exponent above the positional ones. -/
  endPositional : Int
  /-- The least number of digits of a written exponent. -/
  exponentWidth : Nat

namespace NumberLayout

/-- The layout of every number this library writes: positional from `0.0001` up to but not
including `10^16`, exponents with a sign and at least two digits. -/
def standard : NumberLayout := ⟨-4, 16, 2⟩

/-- A run of zeros. -/
def zeros (n : Nat) : List Char := List.replicate n '0'

/-- Lay out the digits `ds`, the first of which stands for units of `10^order`. -/
def place (l : NumberLayout) (ds : List Char) (order : Int) : List Char :=
  if l.leastPositional ≤ order ∧ order < l.endPositional then
    if order < 0 then
      '0' :: '.' :: zeros (-order - 1).toNat ++ ds
    else
      let whole := order.toNat + 1
      let fraction := ds.drop whole
      ds.take whole ++ zeros (whole - ds.length) ++
        '.' :: (if fraction.isEmpty then ['0'] else fraction)
  else
    let head := ds.take 1
    let tail := ds.drop 1
    let mark := if order < 0 then '-' else '+'
    let exponent := Nat.toDigits 10 order.natAbs
    head ++ (if tail.isEmpty then [] else '.' :: tail) ++
      'e' :: mark :: zeros (l.exponentWidth - exponent.length) ++ exponent

end NumberLayout

namespace Binary64

/-- The decimal number that `mantissa · 2^(scale - 1074)` is. -/
def exact (mantissa scale : Nat) : Decimal :=
  if bias ≤ scale then ⟨mantissa * Nat.pow 2 (scale - bias), 0⟩
  -- half of a number is five tenths of it
  else ⟨mantissa * Nat.pow 5 (bias - scale), -((bias - scale : Nat) : Int)⟩

/-- The decimal number of fewest digits that reads back as the value. Seventeen digits always
do; the exact decimal number stands last so that the answer reads back in any case. -/
def shortest (mantissa scale : Nat) : Decimal :=
  let d := exact mantissa scale
  let candidates := (List.range 17).flatMap fun n => d.neighbours (n + 1)
  (candidates.find? fun c => decide (ofDecimal false c = finite false mantissa scale)).getD d

/-- Digits without the zeros at their end. -/
def trimZeros (ds : List Char) : List Char := (ds.reverse.dropWhile (· = '0')).reverse

/-- The characters of a value in a given layout. -/
def chars (l : NumberLayout) : Binary64 → List Char
  | nan => "nan".toList
  | infinity negative => (if negative then ['-'] else []) ++ "inf".toList
  | finite negative mantissa scale =>
    (if negative then ['-'] else []) ++
      if mantissa = 0 then l.place ['0'] 0
      else
        let d := shortest mantissa scale
        let ds := Nat.toDigits 10 d.digits
        -- the zeros at the end are dropped, but the first digit keeps its order
        l.place (trimZeros ds) (ds.length - 1 + d.exponent)

/-- The text of a value: `1.0`, `1e-05`, `-0.0`, `inf`, `nan`. -/
def text (x : Binary64) : String := String.ofList (x.chars .standard)

end Binary64

end Blueprint
