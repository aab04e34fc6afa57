/-!
# Sets of code points

Properties of characters are given by tables of code-point intervals. `Ranges` is such a table
and `Ranges.contains` its membership test.
-/

namespace Blueprint.Text

/-- A set of code points as closed intervals in ascending order. -/
abbrev Ranges := List (Nat × Nat)

namespace Ranges

/-- Whether a code point lies in one of the intervals. -/
def contains (rs : Ranges) (c : Char) : Bool :=
  rs.any fun r => r.1 ≤ c.toNat && c.toNat ≤ r.2

end Ranges

/-- Code points `first, first + step, …, last` whose image is a fixed distance away. -/
structure Run where
  first : Nat
  last : Nat
  step : Nat
  shift : Int

namespace Run

/-- The image of a code point under a run, if it is one of the run's points. -/
def image? (r : Run) (n : Nat) : Option Nat :=
  if r.first ≤ n && n ≤ r.last && (n - r.first) % r.step == 0 then some (n + r.shift).toNat
  else none

end Run

end Blueprint.Text
