import Blueprint.Text.DecimalDigit
import Blueprint.Text.Quoted

/-!
# Layouts

A layout says how many places a text or a number takes, where it stands in them and how it is
written: `*^9.3` shows the first three characters of a text in the middle of nine places, with stars
around them, and `+06d` a number with its sign and zeros after it.

- `Layout`: what a layout asks for.
- `Layout.parse`: read a layout. What is left open depends on what is laid out.
- `LayoutError`: why something cannot be laid out as asked.
-/

namespace Blueprint.Text

/-- Why something cannot be laid out as asked. -/
inductive LayoutError where
  | oversizedNumber
  | bothSeparators
  | noPrecision
  | malformed (spec label : String)
  | separator (separator kind : Char)
  | unknownKind (kind : Char) (label : String)
  | spaceOnText
  | signOnText
  | negativeZeroOnText
  | alternateOnText
  | signAlignmentOnText
  | precisionOnWhole
  | negativeZeroOnWhole
  | signOnCharacter
  | alternateOnCharacter
  | noCharacter
  | precisionTooBig

/-- A character in the wording of an error: itself if it is plain, else its code. -/
def namedChar (c : Char) : String :=
  if 32 < c.toNat ∧ c.toNat < 128 then String.ofList [c]
  else "\\x" ++ String.ofList (hexDigits 1 c.toNat)

/-- The wording of an error. -/
def LayoutError.message : LayoutError → String
  | oversizedNumber => "Too many decimal digits in format string"
  | bothSeparators => "Cannot specify both ',' and '_'."
  | noPrecision => "Format specifier missing precision"
  | malformed spec label =>
    "Invalid format specifier '" ++ spec ++ "' for object of type '" ++ label ++ "'"
  | separator mark kind =>
    "Cannot specify '" ++ namedChar mark ++ "' with '" ++ namedChar kind ++ "'."
  | unknownKind kind label =>
    "Unknown format code '" ++ namedChar kind ++ "' for object of type '" ++ label ++ "'"
  | spaceOnText => "Space not allowed in string format specifier"
  | signOnText => "Sign not allowed in string format specifier"
  | negativeZeroOnText => "Negative zero coercion (z) not allowed in string format specifier"
  | alternateOnText => "Alternate form (#) not allowed in string format specifier"
  | signAlignmentOnText => "'=' alignment not allowed in string format specifier"
  | precisionOnWhole => "Precision not allowed in integer format specifier"
  | negativeZeroOnWhole => "Negative zero coercion (z) not allowed in integer format specifier"
  | signOnCharacter => "Sign not allowed with integer format specifier 'c'"
  | alternateOnCharacter => "Alternate form (#) not allowed with integer format specifier 'c'"
  | noCharacter => "%c arg not in range(0x110000)"
  | precisionTooBig => "precision too big"

/-- How something is laid out. -/
structure Layout where
  fill : Char
  align : Char
  sign : Option Char
  negativeZero : Bool
  alternate : Bool
  width : Nat
  separator : Option Char
  precision : Option Nat
  kind : Char

/-- What is laid out: its name in errors, where it stands, and the kind that counts when none is
given. -/
structure LayoutSubject where
  label : String
  align : Char
  kind : Char

namespace LayoutSubject

/-- Texts stand on the left. -/
def text : LayoutSubject := ⟨"str", '<', 's'⟩

/-- Whole numbers stand on the right. -/
def number : LayoutSubject := ⟨"int", '>', 'd'⟩

end LayoutSubject

namespace Layout

/-- Whether a character says where something stands in its places. -/
def isAlignment (c : Char) : Bool := ['<', '>', '=', '^'].contains c

/-- The fill and the alignment that a layout starts with, and what follows. -/
def readAlignment : List Char → Option Char × Option Char × List Char
  | [] => (none, none, [])
  | [a] => if isAlignment a then (none, some a, []) else (none, none, [a])
  | a :: b :: rest =>
    if isAlignment b then (some a, some b, rest)
    else if isAlignment a then (none, some a, b :: rest)
    else (none, none, a :: b :: rest)

/-- The first character, if it passes a test, and what follows. -/
def takeIf (p : Char → Bool) : List Char → Option Char × List Char
  | [] => (none, [])
  | c :: rest => if p c then (some c, rest) else (none, c :: rest)

/-- The number that a text starts with, if it starts with digits, and what follows. -/
def readNumber (cs : List Char) : Except LayoutError (Option Nat × List Char) :=
  let count := (leadingDigits cs).length
  if maxTemplateNumber < leadingNumber cs then .error .oversizedNumber
  else .ok (if count = 0 then none else some (leadingNumber cs), cs.drop count)

/-- The character between groups of digits, and what follows. -/
def readSeparator (cs : List Char) : Except LayoutError (Option Char × List Char) :=
  let (comma, rest) := takeIf (· = ',') cs
  let (underscore, rest) := takeIf (· = '_') rest
  match comma, underscore with
  | some _, some _ => .error .bothSeparators
  | none, some _ => if rest.head? = some ',' then .error .bothSeparators else .ok (underscore, rest)
  | _, none => .ok (comma, rest)

/-- The precision, and what follows. -/
def readPrecision (cs : List Char) : Except LayoutError (Option Nat × List Char) :=
  match cs with
  | '.' :: rest => do
    let (n, rest) ← readNumber rest
    if n.isNone then throw .noPrecision
    return (n, rest)
  | _ => .ok (none, cs)

/-- Whether a separator goes with a kind. -/
def takesSeparator (separator kind : Char) : Bool :=
  "defgEG%F".toList.contains kind || (separator = '_' && "boxX".toList.contains kind)

/-- Read a layout for a subject. A zero before the width fills the places, between the sign and the
digits of a number if nothing else is asked for. -/
def parse (subject : LayoutSubject) (spec : String) : Except LayoutError Layout := do
  let (fill, align, rest) := readAlignment spec.toList
  let (sign, rest) := takeIf (fun c => c = ' ' || c = '+' || c = '-') rest
  let (z, rest) := takeIf (· = 'z') rest
  let (alternate, rest) := takeIf (· = '#') rest
  let (zero, rest) := if fill.isSome then (none, rest) else takeIf (· = '0') rest
  let (width, rest) ← readNumber rest
  let (separator, rest) ← readSeparator rest
  let (precision, rest) ← readPrecision rest
  let kind ← match rest with
    | [] => .ok subject.kind
    | [kind] => .ok kind
    | _ => .error (.malformed spec subject.label)
  match separator with
  | some s => unless takesSeparator s kind do throw (.separator s kind)
  | none => pure ()
  let usual := if zero.isSome ∧ subject.align = '>' then '=' else subject.align
  return {
    fill := fill.getD (zero.getD ' '), align := align.getD usual, sign
    negativeZero := z.isSome, alternate := alternate.isSome
    width := width.getD 0, separator, precision, kind }

/-- The number of free places before something that takes so many. -/
def placesBefore (l : Layout) (taken : Nat) : Nat :=
  let free := l.width - taken
  if l.align = '>' then free else if l.align = '^' then free / 2 else 0

/-- Characters with the fill around them. -/
def surround (l : Layout) (cs : List Char) : List Char :=
  let before := l.placesBefore cs.length
  List.replicate before l.fill ++ cs ++ List.replicate (l.width - cs.length - before) l.fill

end Layout

end Blueprint.Text
