import Blueprint.Text.Layout.Numeral
import Blueprint.Text.Layout.Words
import Blueprint.Text.Template.Error
import Blueprint.Text.Template.Kind

/-!
# Values in templates

What a field of a template stands for, and what can be reached from there. A field stands for a
moment that goes into the name of a file. From it lead parts: the moment itself, its year, the zone
it is in, and what kind of value each of them is.

- `Template.Value`: the values.
- `Template.Value.shown`, `Template.Value.spelled`: a value as text, for reading and with its kind.
- `Template.Value.format`: a value as a format writes it. Moments take patterns, texts and numbers
  take layouts, and other values no format.
- `Template.Value.part`, `Template.Value.entryAt`, `Template.Value.entryNamed`: one step on.
-/

namespace Blueprint.Text.Template

/-- A length of time. -/
structure Span where
  days : Int := 0
  seconds : Nat := 0
  microseconds : Nat := 0

namespace Span

/-- The shortest length above zero. -/
def resolution : Span := { microseconds := 1 }

/-- The least length. -/
def least : Span := { days := -999999999 }

/-- The greatest length. -/
def greatest : Span := { days := 999999999, seconds := 86399, microseconds := 999999 }

/-- A length as text: days, hours, minutes and seconds. -/
def shown (s : Span) : String :=
  (if s.days = 0 then ""
    else toString s.days ++ (if s.days.natAbs = 1 then " day, " else " days, ")) ++
  Moment.padded 1 (s.seconds / 3600) ++ ":" ++ Moment.padded 2 (s.seconds / 60 % 60) ++ ":" ++
  Moment.padded 2 (s.seconds % 60) ++
  if s.microseconds = 0 then "" else "." ++ Moment.padded 6 s.microseconds

/-- A length as text that tells its kind. -/
def spelled (s : Span) : String :=
  let parts : List (String × Int) :=
    [("days", s.days), ("seconds", s.seconds), ("microseconds", s.microseconds)]
  let given := (parts.filter fun p => p.2 ≠ 0).map fun p => p.1 ++ "=" ++ toString p.2
  "datetime.timedelta(" ++ (if given.isEmpty then "0" else ", ".intercalate given) ++ ")"

end Span

/-- The zones that can be reached. -/
inductive Zone where
  /-- The zone that moments are in. -/
  | own
  | universal
  | least
  | greatest

namespace Zone

/-- A zone as text. -/
def shown : Zone → String
  | own => "UTC"
  | universal => "UTC"
  | least => "UTC-23:59"
  | greatest => "UTC+23:59"

/-- A zone as text that tells its kind. -/
def spelled : Zone → String
  | own => "datetime.timezone(" ++ ({} : Span).spelled ++ ", 'UTC')"
  | universal => "datetime.timezone.utc"
  | least => "datetime.timezone(" ++ ({ days := -1, seconds := 60 } : Span).spelled ++ ")"
  | greatest => "datetime.timezone(" ++ ({ seconds := 86340 } : Span).spelled ++ ")"

end Zone

/-- The first moment there is. -/
def firstMoment : Moment := { year := 1 }

/-- The last moment there is. -/
def lastMoment : Moment :=
  { year := 9999, month := 12, day := 31, hour := 23, minute := 59, second := 59
    microsecond := 999999 }

/-- What a field stands for. -/
inductive Value where
  /-- A moment that goes into the name of a file. -/
  | clock (m : Moment)
  | moment (zoned : Bool) (m : Moment)
  | span (s : Span)
  | zone (z : Zone)
  | number (n : Int)
  | text (s : String)
  | nothing
  | kind (k : Kind)
  | row (ks : List Kind)
  | record (fields : List (String × Moment))

namespace Value

/-- The kind of a value. -/
def kindOf : Value → Kind
  | clock _ => .clock
  | moment true _ => .zonedMoment
  | moment false _ => .moment
  | span _ => .span
  | zone _ => .fixedZone
  | number _ => .number
  | text _ => .text
  | nothing => .nothing
  | kind _ => .kind
  | row _ => .row
  | record _ => .record

/-- A moment as text. -/
def momentShown (zoned : Bool) (m : Moment) : String :=
  Moment.padded 4 m.year ++ "-" ++ Moment.padded 2 m.month ++ "-" ++ Moment.padded 2 m.day ++ " " ++
  m.clockText ++ (if m.microsecond = 0 then "" else "." ++ Moment.padded 6 m.microsecond) ++
  if zoned then "+00:00" else ""

/-- A moment as text that tells its kind. -/
def momentSpelled (zoned : Bool) (m : Moment) : String :=
  let small := if m.microsecond ≠ 0 then [m.second, m.microsecond]
    else if m.second ≠ 0 then [m.second] else []
  (kindOf (.moment zoned m)).label ++ "(" ++ ", ".intercalate
    (([m.year, m.month, m.day, m.hour, m.minute] ++ small).map toString) ++
    (if zoned then ", tzinfo=" ++ Zone.own.spelled else "") ++ ")"

/-- A value as text that tells its kind. -/
def spelled : Value → String
  | clock _ => "<loguru._file_sink.FileDateFormatter object at 0x7f0000000000>"
  | moment zoned m => momentSpelled zoned m
  | span s => s.spelled
  | zone z => z.spelled
  | number n => toString n
  | text s => quoted s
  | nothing => "None"
  | kind k => k.shown
  | row [k] => "(" ++ k.shown ++ ",)"
  | row ks => "(" ++ ", ".intercalate (ks.map Kind.shown) ++ ")"
  | record fields =>
    let written := fields.map fun f => quoted f.1 ++ ": " ++ momentSpelled true f.2
    "\x7b" ++ ", ".intercalate written ++ "\x7d"

/-- A value as text for reading. -/
def shown : Value → String
  | moment zoned m => momentShown zoned m
  | span s => s.shown
  | zone z => z.shown
  | text s => s
  | v => v.spelled

/-- A value as a format writes it. -/
def format (spec : String) : Value → Except Error String
  | clock m =>
    (m.render (if spec = "" then Moment.fileNamePattern else spec)).mapError .pattern
  | moment true m => (m.render spec).mapError .pattern
  | moment false m =>
    .ok (if spec = "" then momentShown false m else String.ofList (m.directed false spec.toList))
  | number n => (Layout.arrangeNumber spec n).mapError .layout
  | text s => (Layout.arrange spec s).mapError .layout
  | v => if spec = "" then .ok v.shown else .error (.noFormat v.kindOf.label)

/-! ## Steps from values -/

/-- What all values of a kind share, by name. -/
def sharedPart? : Kind → String → Option Value
  | .zonedMoment, "min" => some (.moment false firstMoment)
  | .zonedMoment, "max" => some (.moment false lastMoment)
  | .zonedMoment, "resolution" => some (.span .resolution)
  | .moment, "min" => some (.moment false firstMoment)
  | .moment, "max" => some (.moment false lastMoment)
  | .moment, "resolution" => some (.span .resolution)
  | .span, "min" => some (.span .least)
  | .span, "max" => some (.span .greatest)
  | .span, "resolution" => some (.span .resolution)
  | .fixedZone, "utc" => some (.zone .universal)
  | .fixedZone, "min" => some (.zone .least)
  | .fixedZone, "max" => some (.zone .greatest)
  | .clock, "__module__" => some (.text Kind.clock.title.1)
  | .zonedMoment, "__module__" => some (.text Kind.zonedMoment.title.1)
  | k, "__doc__" => some ((k.description?.map .text).getD .nothing)
  | _, _ => none

/-- A part of a kind. -/
def partOfKind? (k : Kind) : String → Option Value
  | "__name__" => some (.text k.title.2)
  | "__qualname__" => some (.text k.title.2)
  | "__module__" => some (.text k.title.1)
  | "__mro__" => some (.row (k :: k.above))
  | "__bases__" => some (.row (k.above.take 1))
  | "__base__" => some ((k.above.head?.map .kind).getD .nothing)
  | name => sharedPart? k name

/-- A part of a moment. -/
def partOfMoment? (zoned : Bool) (m : Moment) : String → Option Value
  | "year" => some (.number m.year)
  | "month" => some (.number m.month)
  | "day" => some (.number m.day)
  | "hour" => some (.number m.hour)
  | "minute" => some (.number m.minute)
  | "second" => some (.number m.second)
  | "microsecond" => some (.number m.microsecond)
  | "fold" => some (.number 0)
  | "tzinfo" => some (if zoned then .zone .own else .nothing)
  | "__dict__" => if zoned then some (.record []) else none
  | "__weakref__" => if zoned then some .nothing else none
  | _ => none

/-- What belongs to a value alone, by name. -/
def ownPart? : Value → String → Option Value
  | clock m, "datetime" => some (.moment true m)
  | clock m, "__dict__" => some (.record [("datetime", m)])
  | clock _, "__weakref__" => some .nothing
  | moment zoned m, name => partOfMoment? zoned m name
  | span s, "days" => some (.number s.days)
  | span s, "seconds" => some (.number s.seconds)
  | span s, "microseconds" => some (.number s.microseconds)
  | number n, "real" => some (.number n)
  | number n, "numerator" => some (.number n)
  | number _, "imag" => some (.number 0)
  | number _, "denominator" => some (.number 1)
  | kind k, name => partOfKind? k name
  | _, _ => none

/-- A named part of a value. -/
def part? (v : Value) (name : String) : Option Value :=
  if name = "__class__" then some (.kind v.kindOf)
  else (v.ownPart? name).or (sharedPart? v.kindOf name)

/-- A named part of a value, or why there is none. -/
def part (v : Value) (name : String) : Except Error Value :=
  match v.part? name, v with
  | some w, _ => .ok w
  | none, kind k => .error (.noPartOfKind k.label name)
  | none, _ => .error (.noPart v.kindOf.label name)

/-- Why a value has no entries. -/
def noEntries : Value → Error
  | kind k => .noEntriesOfKind k.label
  | v => .noEntries v.kindOf.label

/-- The entry of a value at a position. -/
def entryAt (n : Nat) : Value → Except Error Value
  | text s =>
    match s.toList[n]? with
    | some c => .ok (.text (String.ofList [c]))
    | none => .error (.entryBeyondEnd "string")
  | row ks =>
    match ks[n]? with
    | some k => .ok (.kind k)
    | none => .error (.entryBeyondEnd "tuple")
  | record _ => .error (.noEntry (toString n))
  | v => .error v.noEntries

/-- The entry of a value with a name. -/
def entryNamed (name : String) : Value → Except Error Value
  | text _ => .error (.entryByName "string indices must be integers, not 'str'")
  | row _ => .error (.entryByName "tuple indices must be integers or slices, not str")
  | record fields =>
    match fields.lookup name with
    | some m => .ok (.moment true m)
    | none => .error (.noEntry (quoted name))
  | v => .error v.noEntries

end Value

end Blueprint.Text.Template
