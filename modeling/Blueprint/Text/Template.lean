import Blueprint.Text.Template.Piece
import Blueprint.Text.Template.Value

/-!
# Templates

A template is a text in which braces enclose fields; a brace that is meant as such is written twice.
The field `time` stands for a moment: `{time:YYYY}` for its year, where what follows the colon is a
pattern. Steps after the name lead to parts of a value, as in `{time.datetime.year}`. A pattern may
hold fields in turn, but those no further ones.

- `Template.steps`: the steps after the name of a field.
- `Template.Value.follow`: where they lead.
- `Template.expand`: the text that a template stands for, or why there is none. What is wrong with
  the braces anywhere comes before what is wrong with a field.
-/

namespace Blueprint.Text

namespace Template

/-! ## Steps -/

/-- A step from a value to something in it. -/
inductive Step where
  | part (name : List Char)
  | entry (name : List Char)
  | stray

/-- Where the reader of steps is, with what was read of a step, last character first. -/
inductive StepPlace where
  | between
  | part (read : List Char)
  | entry (read : List Char)

/-- The steps after the name of a field. -/
def steps : List Char → StepPlace → List Step
  | [], .between => []
  | [], .part read => [.part read.reverse]
  | [], .entry read => [.entry read.reverse]
  | c :: rest, .between =>
    if c = '.' then steps rest (.part [])
    else if c = '[' then steps rest (.entry [])
    else [.stray]
  | c :: rest, .part read =>
    if c = '.' then .part read.reverse :: steps rest (.part [])
    else if c = '[' then .part read.reverse :: steps rest (.entry [])
    else steps rest (.part (c :: read))
  | c :: rest, .entry read =>
    if c = ']' then .entry read.reverse :: steps rest .between
    else steps rest (.entry (c :: read))

/-- Go from a value along steps. -/
def Value.follow (v : Value) : List Step → Except Error Value
  | [] => .ok v
  | .part [] :: _ => .error .emptyStep
  | .part name :: rest => do (← v.part (String.ofList name)).follow rest
  | .entry name :: rest =>
    if maxTemplateNumber < leadingNumber name then .error .oversizedPosition
    else if name = [] then .error .emptyStep
    else if (leadingDigits name).length = name.length then do
      (← v.entryAt (leadingNumber name)).follow rest
    else do (← v.entryNamed (String.ofList name)).follow rest
  | .stray :: _ => .error .strayStep

/-- The value that a name of a field stands for, with the steps after it. -/
def lookUp (now : Moment) (name : List Char) : Except Error Value :=
  let head := name.takeWhile fun c => c ≠ '.' && c ≠ '['
  if maxTemplateNumber < leadingNumber head then .error .oversizedPosition
  -- an empty name stands for a position as well, and no values are given by position
  else if (leadingDigits head).length = head.length then .error .position
  else if head = "time".toList then
    (Value.clock now).follow (steps (name.drop head.length) .between)
  else .error (.unknownName (String.ofList head))

/-- How a value is made a text before it is laid out. -/
inductive Conversion where
  | shown
  | spelled

/-- The conversion that a letter asks for. -/
def Conversion.ofChar (c : Char) : Except Error Conversion :=
  if c = 's' then .ok .shown
  else if c = 'r' ∨ c = 'a' then .ok .spelled
  else .error (.unknownConversion c)

/-- A value in a format: a layout if it is made a text first, else a pattern. -/
def present (v : Value) (format : String) : Option Conversion → Except Error String
  | none => v.format format
  | some .shown => (Layout.arrange format v.shown).mapError .layout
  | some .spelled => (Layout.arrange format v.spelled).mapError .layout

/-! ## Expansion -/

/-- The text of pieces, given the text of each field. -/
def joinPieces (fieldText : Field → Except Error (List Char)) :
    List Piece → Except Error (List Char)
  | [] => .ok []
  | .literal c :: rest => (joinPieces fieldText rest).map (c :: ·)
  | .field f :: rest => do
    let text ← fieldText f
    let more ← joinPieces fieldText rest
    return text ++ more
  | .fault e :: _ => .error e

/-- The text of pieces, where templates may be nested to some depth. -/
def expandPieces (now : Moment) : Nat → List Piece → Except Error (List Char)
  | 0, _ => .error .tooDeep
  | depth + 1, pieces =>
    joinPieces
      (fun f => do
        let v ← lookUp now f.name
        let conversion ← f.conversion.mapM Conversion.ofChar
        let format ←
          -- the one place where a template stands in another
          if f.format.contains '{' then expandPieces now depth (scan f.format .outside)
          else .ok f.format
        let text ← present v (String.ofList format) conversion
        return text.toList)
      pieces

/-- The number of templates that may stand in each other. -/
def maxDepth : Nat := 2

/-- The text that a template stands for at a moment. -/
def expand (now : Moment) (template : String) : Except Error String :=
  let pieces := scan template.toList .outside
  match fault? pieces with
  -- a fault of the braces comes before anything that fields do wrong
  | some e => .error e
  | none => (expandPieces now maxDepth pieces).map String.ofList

end Template

end Blueprint.Text
