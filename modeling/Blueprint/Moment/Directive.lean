import Blueprint.Moment.Basic
import Blueprint.Text.Uppercase

/-!
# Directives for moments

A directive is a percent sign with a letter that stands for a part of a moment, as in `%Y`. Between
them there may be flags, a width and a modifier: `%_5d` is the day with blanks in front of it, five
characters wide.

- `Directive.read`: the directive at the front of a text.
- `Moment.part?`: what a letter stands for, and `Directive.written` how it is written.
- `Moment.directed`: a moment as a text with directives writes it.
-/

namespace Blueprint

namespace Moment

/-- A number with zeros in front of it up to a number of digits. -/
def padded (width n : Nat) : String :=
  let ds := Nat.toDigits 10 n
  String.ofList (List.replicate (width - ds.length) '0' ++ ds)

/-- A number with blanks in front of it up to a number of characters. -/
def blanked (width n : Nat) : String :=
  let ds := Nat.toDigits 10 n
  String.ofList (List.replicate (width - ds.length) ' ' ++ ds)

/-- The first three letters of a name. -/
def abbreviated (name : String) : String := String.ofList (name.toList.take 3)

/-- The half of the day. -/
def halfDay (m : Moment) : String := if m.hour < 12 then "AM" else "PM"

/-- The time of the day to the second. -/
def clockText (m : Moment) : String :=
  padded 2 m.hour ++ ":" ++ padded 2 m.minute ++ ":" ++ padded 2 m.second

/-- The date with the month first and two digits of the year. -/
def shortDate (m : Moment) : String :=
  padded 2 m.month ++ "/" ++ padded 2 m.day ++ "/" ++ padded 2 (m.year % 100)

/-! ## What letters stand for -/

/-- How flags change the letters of a text. -/
inductive Casing where
  /-- Not at all. -/
  | kept
  /-- To capitals by `^`. -/
  | raised
  /-- To capitals by `^` and by `#`. -/
  | raisedByBoth
  /-- To small letters by `#`. -/
  | lowered

/-- What a letter of a directive stands for. -/
inductive Part where
  | text (text : String) (casing : Casing)
  /-- A number with at least so many digits, and whether blanks stand for the missing ones. -/
  | figure (digits n : Nat) (blank : Bool)
  /-- The distance to a zone that is not known, for which nothing is written at any width. -/
  | noOffset

/-- What a letter stands for. -/
def part? (m : Moment) : Char → Option Part
  | '%' => some (.text "%" .kept)
  | 'n' => some (.text "\n" .kept)
  | 't' => some (.text "\t" .kept)
  | 'a' => some (.text (abbreviated m.weekdayName) .raisedByBoth)
  | 'A' => some (.text m.weekdayName .raisedByBoth)
  | 'b' => some (.text (abbreviated m.monthName) .raisedByBoth)
  | 'B' => some (.text m.monthName .raisedByBoth)
  | 'h' => some (.text (abbreviated m.monthName) .raisedByBoth)
  | 'C' => some (.figure 1 (m.year / 100) false)
  | 'd' => some (.figure 2 m.day false)
  | 'e' => some (.figure 2 m.day true)
  | 'g' => some (.figure 2 (m.isoWeek.1 % 100) false)
  | 'G' => some (.figure 1 m.isoWeek.1 false)
  | 'H' => some (.figure 2 m.hour false)
  | 'I' => some (.figure 2 m.clockHour false)
  | 'j' => some (.figure 3 m.dayOfYear false)
  | 'k' => some (.figure 2 m.hour true)
  | 'l' => some (.figure 2 m.clockHour true)
  | 'm' => some (.figure 2 m.month false)
  | 'M' => some (.figure 2 m.minute false)
  | 'p' => some (.text m.halfDay .lowered)
  | 'P' => some (.text (if m.hour < 12 then "am" else "pm") .kept)
  | 's' => some (.text (toString m.unixSeconds) .kept)
  | 'S' => some (.figure 2 m.second false)
  | 'u' => some (.figure 1 (m.weekday + 1) false)
  | 'U' => some (.figure 2 (m.weekFrom 6) false)
  | 'V' => some (.figure 2 m.isoWeek.2 false)
  | 'w' => some (.figure 1 ((m.weekday + 1) % 7) false)
  | 'W' => some (.figure 2 (m.weekFrom 0) false)
  | 'y' => some (.figure 2 (m.year % 100) false)
  | 'Y' => some (.figure 1 m.year false)
  | 'z' => some .noOffset
  | 'Z' => some (.text "" .kept)
  | 'D' => some (.text m.shortDate .raised)
  | 'x' => some (.text m.shortDate .raised)
  | 'F' => some (.text
      (padded 1 m.year ++ "-" ++ padded 2 m.month ++ "-" ++ padded 2 m.day) .raised)
  | 'R' => some (.text (padded 2 m.hour ++ ":" ++ padded 2 m.minute) .raised)
  | 'T' => some (.text m.clockText .raised)
  | 'X' => some (.text m.clockText .raised)
  | 'r' => some (.text (padded 2 m.clockHour ++ ":" ++ padded 2 m.minute ++ ":" ++
      padded 2 m.second ++ " " ++ m.halfDay) .raised)
  | 'c' => some (.text (abbreviated m.weekdayName ++ " " ++ abbreviated m.monthName ++ " " ++
      blanked 2 m.day ++ " " ++ m.clockText ++ " " ++ padded 1 m.year) .raised)
  | _ => none

end Moment

/-! ## Directives -/

/-- What stands in the places before something that is shorter than asked for. -/
inductive Filling where
  | blanks
  | zeros
  /-- Missing digits are left out. -/
  | nothing
deriving DecidableEq

/-- A directive, from its percent sign on. -/
structure Directive where
  source : List Char
  filling : Option Filling
  capital : Bool
  swapped : Bool
  width : Nat
  modifier : Option Char
  /-- The letter; a text may end before it. -/
  letter : Option Char

namespace Directive

/-- The filling that a flag asks for. -/
def fillingOf? : Char → Option Filling
  | '_' => some .blanks
  | '0' => some .zeros
  | '-' => some .nothing
  | _ => none

/-- Whether a character is a flag. -/
def isFlag (c : Char) : Bool := (fillingOf? c).isSome || c = '^' || c = '#'

/-- Whether a character is a modifier. -/
def isModifier (c : Char) : Bool := c = 'E' || c = 'O'

/-- The directive at the front of a text that follows a percent sign. Of several fillings the last
counts. -/
def read (cs : List Char) : Directive :=
  let flags := cs.takeWhile isFlag
  let afterFlags := cs.drop flags.length
  let digits := afterFlags.takeWhile Char.isDigit
  let afterWidth := afterFlags.drop digits.length
  let modifier := (afterWidth.take 1).filter isModifier
  let letter := (afterWidth.drop modifier.length).take 1
  { source := '%' :: (flags ++ digits ++ modifier ++ letter)
    filling := (flags.filterMap fillingOf?).getLast?
    capital := flags.contains '^'
    swapped := flags.contains '#'
    width := digits.foldl (fun n c => 10 * n + (c.toNat - '0'.toNat)) 0
    modifier := modifier.head?
    letter := letter.head? }

/-- Whether a modifier goes with a letter. -/
def takesModifier (letter : Char) : Option Char → Bool
  | none => true
  | some modifier =>
    let refused := if modifier = 'E' then "aAbBdDeFgGhHIjklmMSUVwW" else "aAcDFxXY"
    !refused.toList.contains letter

/-- Characters with the filling in front of them, up to a number of places. -/
def fillTo (places : Nat) (zeros : Bool) (cs : List Char) : List Char :=
  List.replicate (places - cs.length) (if zeros then '0' else ' ') ++ cs

/-- A text as the flags change its letters. -/
def cased (d : Directive) (text : List Char) : Moment.Casing → List Char
  | .kept => text
  | .raised => if d.capital then Text.uppercase text else text
  | .raisedByBoth => if d.capital || d.swapped then Text.uppercase text else text
  | .lowered => if d.swapped then text.map Char.toLower else text

/-- How flags change a directive that stands for itself. The short names of months are the ones
for which both flags count before the modifier is looked at. -/
def ownCasing (letter : Option Char) : Moment.Casing :=
  if letter = some 'b' ∨ letter = some 'h' then .raisedByBoth else .raised

/-- What a directive stands for. It stands for itself if its letter stands for nothing, or if the
modifier does not go with the letter. -/
def part (d : Directive) (m : Moment) : Moment.Part :=
  let itself := .text (String.ofList d.source) (ownCasing d.letter)
  match d.letter with
  | none => itself
  | some letter =>
    if takesModifier letter d.modifier then (m.part? letter).getD itself else itself

/-- What a directive writes, where no width counts beyond a limit. -/
def written (d : Directive) (m : Moment) (limit : Nat) : List Char :=
  let width := min d.width limit
  match d.part m with
  | .text text casing => fillTo width (d.filling = some .zeros) (d.cased text.toList casing)
  | .figure digits n blank =>
    let filling := d.filling.getD (if blank then .blanks else .zeros)
    fillTo (if filling = .nothing then width else max digits width) (filling = .zeros)
      (Nat.toDigits 10 n)
  | .noOffset => []

end Directive

namespace Moment

/-- A text with those directives written that have no flags and no width and need the zone or parts
of a second. Without a zone there is nothing to write for it. -/
def zoneWritten (m : Moment) (zoned : Bool) : List Char → List Char
  | '%' :: c :: rest =>
    (if c = 'z' then (if zoned then "+0000".toList else [])
      else if c = 'Z' then (if zoned then "UTC".toList else [])
      else if c = 'f' then (padded 6 m.microsecond).toList
      else ['%', c]) ++ zoneWritten m zoned rest
  | c :: rest => c :: zoneWritten m zoned rest
  | [] => []

/-- A text with the directives in it written, once so many characters are passed over. -/
def directivesWritten (m : Moment) (limit : Nat) : Nat → List Char → List Char
  | _, [] => []
  | n + 1, _ :: rest => directivesWritten m limit n rest
  | 0, c :: rest =>
    if c = '%' then
      let d := Directive.read rest
      d.written m limit ++ directivesWritten m limit (d.source.length - 1) rest
    else c :: directivesWritten m limit 0 rest

/-- The length that what a text with directives writes has to stay below. -/
def writtenLimit (length : Nat) : Nat := max 1024 (256 * length).nextPowerOfTwo

/-- A moment as a text with directives writes it, with its zone or without. What gets too long is
dropped as a whole. -/
def directed (m : Moment) (zoned : Bool) (cs : List Char) : List Char :=
  let cs := m.zoneWritten zoned cs
  let limit := writtenLimit cs.length
  let out := m.directivesWritten limit 0 cs
  if limit ≤ out.length then [] else out

end Moment

end Blueprint
