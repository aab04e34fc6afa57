import Blueprint.Document.Declaration
import Blueprint.Text.Lowercase
import Blueprint.Text.Search

/-!
# Parse errors

A parser that refuses a source file says why in free text. The text is sorted into one of eleven
standard codes by the words it holds, the first rule that fits deciding. The codes are those of the
parser boundary in the specification (§4).

- `ParseCode`: the codes, with a label and a description.
- `ParseCode.classify`: the code of a message.
- `ParseError`: a refused file.
- `Parser`: anything that turns source text into a document.
-/

namespace Blueprint

/-- The standard codes of parse errors. -/
inductive ParseCode where
  | generic
  | unexpectedToken
  | unclosedBrace
  | missingName
  | missingType
  | invalidDecorator
  | missingBody
  | invalidTransition
  | invalidEndpoint
  | recovered
  | endOfFile
deriving DecidableEq

namespace ParseCode

/-- The code itself. -/
def code : ParseCode → String
  | generic => "E001"
  | unexpectedToken => "E002"
  | unclosedBrace => "E003"
  | missingName => "E004"
  | missingType => "E005"
  | invalidDecorator => "E006"
  | missingBody => "E007"
  | invalidTransition => "E008"
  | invalidEndpoint => "E009"
  | recovered => "E010"
  | endOfFile => "E011"

/-- A short name. -/
def label : ParseCode → String
  | generic => "syntax"
  | unexpectedToken => "unexpected-token"
  | unclosedBrace => "unclosed-brace"
  | missingName => "missing-name"
  | missingType => "missing-type"
  | invalidDecorator => "invalid-decorator"
  | missingBody => "missing-body"
  | invalidTransition => "invalid-transition"
  | invalidEndpoint => "invalid-endpoint"
  | recovered => "recovered"
  | endOfFile => "eof"

/-- A sentence about it. -/
def description : ParseCode → String
  | generic => "Generic syntax error"
  | unexpectedToken => "Unexpected token encountered"
  | unclosedBrace => "Unclosed brace or block"
  | missingName => "Missing construct name"
  | missingType => "Missing type annotation"
  | invalidDecorator => "Malformed decorator syntax"
  | missingBody => "Missing construct body"
  | invalidTransition => "Malformed state transition"
  | invalidEndpoint => "Malformed API endpoint"
  | recovered => "Construct recovered with errors (partial parse)"
  | endOfFile => "Unexpected end of file"

/-- A rule of the classification: a message that holds one of the texts has the code. The texts are
sought in the lowercase message, or in the message as it is. -/
structure Clue where
  code : ParseCode
  inLowercase : List String
  verbatim : List String

/-- The rules, in the order in which they are tried. -/
def clues : List Clue :=
  [ ⟨endOfFile, ["end of input", "unexpected end"], []⟩,
    ⟨unclosedBrace, ["unclosed", "expected \"\x7d\"", "missing \"\x7d\""], []⟩,
    ⟨unexpectedToken, ["unexpected"], []⟩,
    ⟨missingName, ["missing name", "expected identifier"], []⟩,
    ⟨missingType, ["missing type", "expected type"], []⟩,
    ⟨invalidDecorator, ["decorator", "@"], []⟩,
    ⟨missingBody, ["missing body", "expected \"\x7b\""], []⟩,
    ⟨invalidTransition, ["transition", "->"], []⟩,
    ⟨invalidEndpoint, ["endpoint"], ["GET ", "POST "]⟩,
    ⟨recovered, ["recover"], []⟩ ]

/-- Whether a rule fits a message. -/
def Clue.fits (c : Clue) (message lowered : String) : Bool :=
  c.inLowercase.any (Text.mentions lowered) || c.verbatim.any (Text.mentions message)

/-- The code of a message (specification, §4, parser boundary). -/
def classify (message : String) : ParseCode :=
  let lowered := Text.lowercase message
  ((clues.find? fun c => c.fits message lowered).map Clue.code).getD generic

end ParseCode

/-- A source file that a parser refused. -/
structure ParseError where
  file : String
  detail : String
  /-- Line and column, counted from one. -/
  location : Option (Int × Int)

namespace ParseError

/-- The code of the error. -/
def code (e : ParseError) : ParseCode := ParseCode.classify e.detail

/-- A file, with the place in it if that is known. -/
def place (file : String) : Option (Int × Int) → String
  | some (line, column) => s!"{file}:{line}:{column}"
  | none => file

/-- The whole text of the error. -/
def message (e : ParseError) : String := s!"Failed to parse {place e.file e.location}: {e.detail}"

end ParseError

/-- Why a parser gave no document: it refused the source, or it could not do its work. -/
inductive ParseFailure where
  | refused (error : ParseError)
  | broken (reason : String)

/-- Anything that turns the source text of the file at a path into a document. -/
abbrev Parser := (source path : String) → Except ParseFailure Document

end Blueprint
