/-!
# Decimal digits

`ofDigits` reads a run of decimal digits as a number.
-/

namespace Blueprint

/-- The number written with the given decimal digits. -/
def ofDigits (ds : List Char) : Nat := ds.foldl (fun n c => 10 * n + (c.toNat - '0'.toNat)) 0

end Blueprint
