import Blueprint.Json.Basic
import Blueprint.Number.Digits
import Blueprint.Text.Blank

/-!
# Reading values of an expected shape

A `Reader α` turns a JSON value into an `α` or says where and why the value has another shape.
Readers are built from the ones below; the members of an object are read in the order in which
they are asked for, and the first mismatch is the one reported.

- `Cause`, `Mismatch`: why, and at which path of keys, indices and tags.
- `Schema.string`, `Schema.integer`, `Schema.boolean`, `Schema.literal`: the leaves. Whole numbers
  and truth values are also taken from other values that stand for one.
- `Schema.listOf`, `Schema.optional`, `Schema.object`, `Schema.tagged`: the combinators.
- `Schema.required`, `Schema.defaulted`: members of an object. A member may have a second
  spelling, which counts when the first is absent.
-/

namespace Blueprint

/-- A finite set of values, each with the text that stands for it. -/
class Literal (α : Type) where
  all : List α
  label : α → String

namespace Schema

/-- One step from a value to a part of it. A tag says which alternative the part is read as. -/
inductive Step where
  | key (name : String)
  | index (position : Nat)
  | tag (name : String)
deriving DecidableEq

/-- A step as it stands in a path. -/
def Step.text : Step → String
  | key name => name
  | index position => toString position
  | tag name => name

/-- Why a value does not have the expected shape. -/
inductive Cause where
  | missing
  | notObject (typeName : String)
  | notTagged
  | noTag
  | unknownTag (found : Json) (expected : List String)
  | notList
  | notString
  | notLiteral (expected : List String)
  | notInteger
  | notIntegerText
  | fractional
  | notFinite
  | integerTooLarge
  | notBoolean
  | unknownBoolean

/-- A text in single quotes. -/
def inQuotes (s : String) : String := "'" ++ s ++ "'"

/-- The choices of a literal: `'A'`, `'A' or 'B'`, `'A', 'B' or 'C'`. -/
def choices : List String → String
  | [] => ""
  | [a] => inQuotes a
  | [a, b] => inQuotes a ++ " or " ++ inQuotes b
  | a :: rest => inQuotes a ++ ", " ++ choices rest

/-- The wording of a cause. -/
def Cause.message : Cause → String
  | missing => "Field required"
  | notObject typeName => "Input should be a valid dictionary or instance of " ++ typeName
  | notTagged => "Input should be a valid dictionary or object to extract fields from"
  | noTag => "Unable to extract tag using discriminator 'type'"
  | unknownTag found expected =>
    "Input tag " ++ inQuotes found.plain ++ " found using 'type' does not match any of the " ++
      "expected tags: " ++ ", ".intercalate (expected.map inQuotes)
  | notList => "Input should be a valid list"
  | notString => "Input should be a valid string"
  | notLiteral expected => "Input should be " ++ choices expected
  | notInteger => "Input should be a valid integer"
  | notIntegerText => "Input should be a valid integer, unable to parse string as an integer"
  | fractional => "Input should be a valid integer, got a number with a fractional part"
  | notFinite => "Input should be a finite number"
  | integerTooLarge => "Unable to parse input string as an integer, exceeded maximum size"
  | notBoolean => "Input should be a valid boolean"
  | unknownBoolean => "Input should be a valid boolean, unable to interpret input"

/-- A value of another shape than expected: where, and why. -/
structure Mismatch where
  path : List Step
  cause : Cause

namespace Mismatch

/-- The path of a mismatch. -/
def place (m : Mismatch) : String := ".".intercalate (m.path.map Step.text)

/-- Where and why. -/
def message (m : Mismatch) : String := m.place ++ ": " ++ m.cause.message

end Mismatch

/-- A way to read values of one shape. -/
abbrev Reader (α : Type) := Json → Except Mismatch α

/-- The mismatch of the value at hand. -/
def fail {α : Type} (cause : Cause) : Except Mismatch α := .error ⟨[], cause⟩

/-- The outcome for a part, seen from the whole. -/
def within {α : Type} (step : Step) : Except Mismatch α → Except Mismatch α
  | .ok a => .ok a
  | .error m => .error ⟨step :: m.path, m.cause⟩

@[simp] theorem within_ok {α : Type} (step : Step) (a : α) :
    within step (.ok a) = .ok a := rfl

theorem within_eq_ok_iff {α : Type} {step : Step} {r : Except Mismatch α} {a : α} :
    within step r = .ok a ↔ r = .ok a := by
  cases r <;> simp [within]

theorem exists_of_bind_eq_ok {ε α β : Type} {x : Except ε α} {f : α → Except ε β} {b : β}
    (h : x >>= f = .ok b) : ∃ a, x = .ok a ∧ f a = .ok b := by
  cases x with
  | error e => cases h
  | ok a => exact ⟨a, rfl, h⟩

/-! ## Leaves -/

/-- A text. -/
def string : Reader String
  | .str s => .ok s
  | _ => fail .notString

/-- The greatest number of digits of a numeral. -/
def maxNumeralDigits : Nat := 4300

/-- A minus sign, if the text starts with one, and what follows. -/
def splitMinus : List Char → List Char × List Char
  | '-' :: rest => (['-'], rest)
  | cs => ([], cs)

/-- Whether a text starts with a numeral of too many digits, whatever follows. -/
def startsOversized (cs : List Char) : Bool :=
  let (_, body) := splitMinus cs
  body.head? ≠ some '0' && maxNumeralDigits < (body.takeWhile Char.isDigit).length

/-- The number that a numeral stands for: decimal digits without leading zeros, after a minus sign
or not. -/
def numeral? (cs : List Char) : Option Int :=
  let (sign, body) := splitMinus cs
  if body ≠ [] ∧ body.all Char.isDigit ∧ (body.head? = some '0' → body = ['0']) then
    let n : Int := ofDigits body
    some (if sign = [] then n else -n)
  else none

/-- What is left of a text after a run of leading zeros, the last character of which is given.
Underscores within the run count as zeros; when no digit or minus sign follows, the last character
of the run stays. -/
def afterZeros? : Char → List Char → Option (List Char)
  | last, [] => some [last]
  | last, c :: rest =>
    if c = '0' ∨ c = '_' then afterZeros? c rest
    else if c = '.' then some (last :: c :: rest)
    else if c.isDigit ∨ c = '-' then some (c :: rest)
    else none

/-- A text that starts with a digit, without leading zeros. -/
def dropLeadingZeros? : List Char → Option (List Char)
  | [] => none
  | c :: rest =>
    if c = '0' then afterZeros? c rest
    else if c.isDigit then some (c :: rest)
    else none

/-- The characters before a final point and zeros, if there are such. -/
def dropZeroFraction (cs : List Char) : List Char :=
  match (cs.reverse.dropWhile (· = '0')) with
  | '.' :: rest => if cs.getLast? = some '0' then rest.reverse else cs
  | _ => cs

/-- Whether every underscore stands alone between two other characters. -/
def underscoresSeparate : List Char → Bool
  | [] => true
  | '_' :: _ => false
  | _ :: '_' :: rest => !rest.isEmpty && underscoresSeparate rest
  | _ :: rest => underscoresSeparate rest

/-- A text without its underscores, if they only separate other characters. -/
def dropUnderscores (cs : List Char) : List Char :=
  if underscoresSeparate cs then cs.filter (· ≠ '_') else cs

/-- The numeral meant by a text with a sign, leading zeros, underscores or a fraction of zeros, and
with white space around it. -/
def tidyNumeral? (cs : List Char) : Option (List Char) :=
  let (sign, body) := match Text.trimWhile Text.isSpace cs with
    | '+' :: rest => ([], rest)
    | trimmed => splitMinus trimmed
  (dropLeadingZeros? body).map fun rest => sign ++ dropUnderscores (dropZeroFraction rest)

/-- A whole number given as text: a numeral, or a text that means one. A text that starts with a
numeral of excessive length is told apart; one that only means such a numeral is not. -/
def integerText (s : String) : Except Mismatch Int :=
  if startsOversized s.toList then fail .integerTooLarge
  else
    match numeral? s.toList with
    | some n => .ok n
    | none =>
      match tidyNumeral? s.toList with
      | none => fail .notIntegerText
      | some tidy =>
        -- excessive length is only told apart in the text as it was given
        if startsOversized tidy then fail .notIntegerText
        else
          match numeral? tidy with
          | some n => .ok n
          | none => fail .notIntegerText

/-- The least number that no signed word of 64 bits holds. -/
def wordLimit : Nat := Nat.pow 2 63

/-- A whole number. Truth values count as 1 and 0, and numbers without a fraction and texts of a
number as that number. -/
def integer : Reader Int
  | .int n => .ok n
  | .bool b => .ok (if b then 1 else 0)
  | .float x =>
    if x.isFinite then
      match x.toInt? with
      | none => fail .fractional
      | some n => if n.natAbs < wordLimit then .ok n else fail .integerTooLarge
    else fail .notFinite
  | .str s => integerText s
  | _ => fail .notInteger

/-- The texts that stand for a truth value, in any case. -/
def booleanWords : List (String × Bool) :=
  [("0", false), ("off", false), ("f", false), ("false", false), ("n", false), ("no", false),
   ("1", true), ("on", true), ("t", true), ("true", true), ("y", true), ("yes", true)]

/-- A truth value. The numbers 0 and 1 and some texts count as one. -/
def boolean : Reader Bool
  | .bool b => .ok b
  | .int n =>
    if n = 0 then .ok false
    else if n = 1 then .ok true
    -- a number that no word holds is not even looked at as a truth value
    else if -(wordLimit : Int) ≤ n ∧ n < wordLimit then fail .unknownBoolean
    else fail .notBoolean
  | .float x =>
    match x.toInt? with
    | some n =>
      if n = 0 then .ok false
      else if n = 1 then .ok true
      else if n.natAbs < wordLimit then fail .unknownBoolean
      else fail .notBoolean
    | none => fail .notBoolean
  | .str s =>
    -- only ASCII letters are lowered here
    match booleanWords.find? fun w => w.1.toList = s.toList.map Char.toLower with
    | some w => .ok w.2
    | none => fail .unknownBoolean
  | _ => fail .notBoolean

/-- The value of a finite set that a text stands for. -/
def labelled? {α : Type} [Literal α] : Json → Option α
  | .str s => Literal.all.find? fun a => Literal.label a = s
  | _ => none

/-- One of the texts of a finite set. -/
def literal {α : Type} [Literal α] : Reader α := fun v =>
  match labelled? v with
  | some a => .ok a
  | none => fail (.notLiteral ((Literal.all : List α).map Literal.label))

/-! ## Combinators -/

/-- Read the elements of a list, the first of which has the given position. -/
def elementsFrom {α : Type} (r : Reader α) : Nat → List Json → Except Mismatch (List α)
  | _, [] => .ok []
  | i, v :: rest => do
    let a ← within (.index i) (r v)
    let as ← elementsFrom r (i + 1) rest
    return a :: as

/-- A list. -/
def listOf {α : Type} (r : Reader α) : Reader (List α)
  | .arr items => elementsFrom r 0 items
  | _ => fail .notList

/-- Elements that read back one by one read back as a list. -/
theorem elementsFrom_map {α : Type} {r : Reader α} {f : α → Json} {as : List α}
    (h : ∀ a ∈ as, r (f a) = .ok a) (i : Nat) : elementsFrom r i (as.map f) = .ok as := by
  induction as generalizing i with
  | nil => rfl
  | cons a as ih =>
    simp only [List.mem_cons, forall_eq_or_imp] at h
    simp [elementsFrom, h.1, ih h.2, bind, Except.bind, pure, Except.pure]

theorem listOf_map {α : Type} {r : Reader α} {f : α → Json} {as : List α}
    (h : ∀ a ∈ as, r (f a) = .ok a) : listOf r (.arr (as.map f)) = .ok as :=
  elementsFrom_map h 0

/-- A value or null. -/
def optional {α : Type} (r : Reader α) : Reader (Option α)
  | .null => .ok none
  | v => (r v).map some

/-- The members of an object. -/
abbrev Members := List (String × Json)

/-- An object, read member by member. -/
def object {α : Type} (typeName : String) (read : Members → Except Mismatch α) : Reader α
  | .obj members => read members
  | _ => fail (.notObject typeName)

/-- The name under which a member is found, and its value: its first name, or else its second
spelling. -/
def find? (name : String) (second : Option String) (members : Members) : Option (String × Json) :=
  ((Json.memberOf? name members).map (name, ·)).or
    (second.bind fun s => (Json.memberOf? s members).map (s, ·))

/-- A member that has to be there. -/
def required {α : Type} (members : Members) (name : String) (r : Reader α)
    (second : Option String := none) : Except Mismatch α :=
  match find? name second members with
  | some (found, v) => within (.key found) (r v)
  | none => within (.key name) (fail .missing)

/-- A member with a value to take when it is not there. -/
def defaulted {α : Type} (members : Members) (name : String) (r : Reader α) (default : α)
    (second : Option String := none) : Except Mismatch α :=
  match find? name second members with
  | some (found, v) => within (.key found) (r v)
  | none => .ok default

/-- A member that is null when it is not there. -/
def nullable {α : Type} (members : Members) (name : String) (r : Reader α)
    (second : Option String := none) : Except Mismatch (Option α) :=
  defaulted members name (optional r) none second

/-- A list member that is empty when it is not there. -/
def items {α : Type} (members : Members) (name : String) (r : Reader α) :
    Except Mismatch (List α) :=
  defaulted members name (listOf r) []

/-- The `type` member of an object, which must be the given one when it is there. -/
def hasType (members : Members) (typeName : String) : Except Mismatch Unit :=
  match Json.memberOf? "type" members with
  | none => .ok ()
  | some (.str s) =>
    if s = typeName then .ok () else within (.key "type") (fail (.notLiteral [typeName]))
  | some _ => within (.key "type") (fail (.notLiteral [typeName]))

/-- A way to read one alternative of a union, under the tag that selects it. -/
structure Variant (α : Type) where
  tag : String
  read : Reader α

/-- The alternative seen as one of a wider union. -/
def Variant.map {α β : Type} (f : α → β) (a : Variant α) : Variant β :=
  ⟨a.tag, fun v => (a.read v).map f⟩

/-- The alternative that a tag selects. -/
def select? {α : Type} (alternatives : List (Variant α)) : Json → Option (Variant α)
  | .str s => alternatives.find? fun a => a.tag = s
  | _ => none

/-- An object whose `type` selects how it is read. -/
def tagged {α : Type} (alternatives : List (Variant α)) : Reader α
  | .obj members =>
    match Json.memberOf? "type" members with
    | none => fail .noTag
    | some found =>
      match select? alternatives found with
      | some a => within (.tag a.tag) (a.read (.obj members))
      | none => fail (.unknownTag found (alternatives.map Variant.tag))
  | _ => fail .notTagged

end Schema

end Blueprint
