/-!
# Binary64 numbers

The numbers of a JSON text that carry a fraction or an exponent are binary floating-point
values of 64 bits. They are held exactly: a finite value is a sign, a whole number below `2^53`
and a power of two, so that reading, comparing and printing them is plain arithmetic on `Nat`.

- `Binary64`: a value; `finite s m e` stands for `± m · 2^(e - 1074)`.
- `Binary64.ofRatio`: the value nearest to a quotient, a half going to the even neighbour.
- `Binary64.ofDecimal`: the value nearest to `d · 10^k`; too large a number is infinite.
- `Binary64.toInt?`: the whole number that a value is, if it is one.
-/

namespace Blueprint

/-- A 64-bit binary floating-point value. -/
inductive Binary64 where
  | nan
  | infinity (negative : Bool)
  | finite (negative : Bool) (mantissa : Nat) (scale : Nat)
deriving DecidableEq

/-- The quotient rounded to the nearest whole number, a half to the even neighbour. -/
def divRound (num den : Nat) : Nat :=
  let q := num / den
  let r := num % den
  if 2 * r < den then q
  else if den < 2 * r then q + 1
  else if q % 2 = 0 then q else q + 1

/-- A decimal number `digits · 10^exponent`. -/
structure Decimal where
  digits : Nat
  exponent : Int
deriving DecidableEq

namespace Decimal

/-- The number of decimal digits of a number; zero has one. -/
def size (d : Decimal) : Nat := (Nat.toDigits 10 d.digits).length

/-- The number as a quotient of whole numbers. -/
def ratio (d : Decimal) : Nat × Nat :=
  if 0 ≤ d.exponent then (d.digits * Nat.pow 10 d.exponent.toNat, 1)
  else (d.digits, Nat.pow 10 (-d.exponent).toNat)

end Decimal

namespace Binary64

/-- The least exponent of a finite value, negated: `scale` counts from it. -/
def bias : Nat := 1074

/-- The greatest `scale` of a finite value. -/
def maxScale : Nat := 2045

/-- The value nearest to `num / den`. The scale is the least one at which the quotient has at
most 53 binary digits; rounding up to `2^53` moves on to the next scale. -/
def ofRatio (negative : Bool) (num den : Nat) : Binary64 :=
  -- in units of the least scale, so that every scale is a whole number
  let scaled := num * Nat.pow 2 bias
  let scale := (scaled / den).log2 - 52
  let mantissa := divRound scaled (den * Nat.pow 2 scale)
  let (m, s) :=
    if mantissa = Nat.pow 2 53 then (Nat.pow 2 52, scale + 1) else (mantissa, scale)
  if maxScale < s then infinity negative else finite negative m s

/-- The value nearest to a decimal number. A number of `10^310` or more exceeds every finite
value and one below `10^-330` is nearest to zero; both are answered from the exponent alone, so
that a short text never asks for a huge power of ten. -/
def ofDecimal (negative : Bool) (d : Decimal) : Binary64 :=
  if d.digits = 0 then finite negative 0 0
  else if d.size + d.exponent < -330 then finite negative 0 0
  else if 310 < d.size + d.exponent then infinity negative
  else ofRatio negative d.ratio.1 d.ratio.2

/-- The whole number that a finite value is, if it has no fraction. -/
def toInt? : Binary64 → Option Int
  | finite negative m s =>
    let num := m * Nat.pow 2 s
    -- `num` counts units of the least scale
    if num % Nat.pow 2 bias = 0 then
      let n : Int := (num / Nat.pow 2 bias : Nat)
      some (if negative then -n else n)
    else none
  | _ => none

/-- Whether a value is a number at all and not infinite. -/
def isFinite : Binary64 → Bool
  | finite .. => true
  | _ => false

end Binary64

end Blueprint
