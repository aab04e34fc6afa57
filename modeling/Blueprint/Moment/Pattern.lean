import Blueprint.Moment.Directive
import Blueprint.Text.Search

/-!
# Patterns for moments

A pattern says how a moment is written. There are two kinds. In one, runs of letters stand for parts
of the moment, as in `YYYY-MM-DD`, and such a run between brackets stands for itself. In the other,
directives stand for parts, as in `%Y-%m-%d`; a pattern with a percent sign is of this kind.

- `Moment.writtenBy`: a moment as a pattern of letters writes it.
- `Moment.render`: a moment as any pattern writes it.
-/

namespace Blueprint

namespace Moment

/-! ## Letters -/

/-- The runs of letters that stand for a part, longer ones first, with what they stand for. -/
def letters (m : Moment) : List (String × String) :=
  [("SSSSSS", padded 6 m.microsecond), ("SSSSS", padded 5 (m.microsecond / 10)),
    ("SSSS", padded 4 (m.microsecond / 100)), ("SSS", padded 3 (m.microsecond / 1000)),
    ("SS", padded 2 (m.microsecond / 10000)), ("S", padded 1 (m.microsecond / 100000)),
    ("YYYY", padded 4 m.year), ("YY", padded 2 (m.year % 100)),
    ("MMMM", m.monthName), ("MMM", abbreviated m.monthName), ("MM", padded 2 m.month),
    ("M", padded 1 m.month),
    ("DDDD", padded 3 m.dayOfYear), ("DDD", padded 1 m.dayOfYear), ("DD", padded 2 m.day),
    ("D", padded 1 m.day),
    ("dddd", m.weekdayName), ("ddd", abbreviated m.weekdayName), ("d", padded 1 m.weekday),
    ("E", padded 1 (m.weekday + 1)), ("Q", padded 1 ((m.month - 1) / 3 + 1)),
    ("HH", padded 2 m.hour), ("H", padded 1 m.hour), ("hh", padded 2 m.clockHour),
    ("h", padded 1 m.clockHour), ("mm", padded 2 m.minute), ("m", padded 1 m.minute),
    ("ss", padded 2 m.second), ("s", padded 1 m.second), ("A", m.halfDay),
    ("ZZ", "+0000"), ("Z", "+00:00"), ("zz", "UTC"),
    ("X", toString m.wholeUnixSeconds),
    -- the microseconds are counted twice: they are already part of the time to which they are added
    ("x", toString (m.unixSeconds * 1000000 + 2 * m.microsecond))]

/-- The mark at the end of a pattern that asks for universal time. -/
def universalMark : String := "!UTC"

/-- What a pattern of letters starts with: a run that stands for a part, or a run between brackets
that stands for itself. The number of characters comes with it. -/
def leading? (m : Moment) (cs : List Char) : Option (String × Nat) :=
  match m.letters.find? fun l => l.1.toList.isPrefixOf cs with
  | some (run, part) => some (part, run.length)
  | none =>
    (((m.letters.map Prod.fst) ++ [universalMark, ""]).find? fun run =>
      ('[' :: run.toList ++ [']']).isPrefixOf cs).map fun run => (run, run.length + 2)

/-- A moment as a pattern of letters writes it, once so many characters are passed over. -/
def writtenBy (m : Moment) : Nat → List Char → List Char
  | _, [] => []
  | n + 1, _ :: rest => writtenBy m n rest
  | 0, c :: rest =>
    match m.leading? (c :: rest) with
    | some (text, length) => text.toList ++ writtenBy m (length - 1) rest
    | none => c :: writtenBy m 0 rest

/-! ## Both kinds -/

/-- Why a pattern writes no moment. -/
inductive PatternError where
  | tooPrecise

/-- The wording of an error. -/
def PatternError.message : PatternError → String
  | tooPrecise =>
    "Invalid time format: the provided format string contains more than six successive 'S' " ++
    "characters. This may be due to an attempt to use nanosecond precision, which is not supported."

/-- The pattern that counts when none is given. -/
def defaultPattern : String := "%Y-%m-%dT%H:%M:%S.%f%z"

/-- The pattern that counts in the name of a file when none is given. -/
def fileNamePattern : String := "%Y-%m-%d_%H-%M-%S_%f"

/-- A moment as a pattern writes it. Moments are in universal time, so the mark that asks for it
changes nothing. -/
def render (m : Moment) (pattern : String) : Except PatternError String :=
  let cs := pattern.toList
  let cs := if Text.finishesWith pattern universalMark then cs.take (cs.length - 4) else cs
  -- the mark alone asks for the default pattern as well
  let cs := if cs.isEmpty then defaultPattern.toList else cs
  if cs.contains '%' then .ok (String.ofList (m.directed true cs))
  else if Text.occursIn "SSSSSSS".toList cs then .error .tooPrecise
  else .ok (String.ofList (m.writtenBy 0 cs))

end Moment

end Blueprint
