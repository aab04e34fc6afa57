import Blueprint.Document.ParseError
import Blueprint.Document.Reader
import Blueprint.Document.Writer
import Blueprint.Json.Decoder
import Blueprint.Json.Writer
import Blueprint.Journal

/-!
# Documents as source text

Documents are exchanged as JSON texts. `Document.parse` reads one, `Document.toSource` writes one.
This is the parser boundary of the specification (§4).

- `Document.parse`: the parser of JSON texts. A text that is not JSON is refused where it goes
  wrong, a value of another shape at the start of the file with the path of the first mismatch.
- `Document.toSource`: the JSON text of a document.
- `Document.loaded`: what is noted in the journal about a document that was read.
-/

namespace Blueprint.Document

/-- The failure of a text that is not JSON. -/
def decodeFailure (path : String) : Json.DecodeError → ParseFailure
  | .malformed fault mark => .refused ⟨path, fault.message, some (mark.line, mark.column)⟩
  | e@(.oversized _) => .broken e.message

/-- The failure of a value that is not a document. -/
def mismatchFailure (path : String) (m : Schema.Mismatch) : ParseFailure :=
  .refused ⟨path, s!"Unexpected node at {m.message}", some (1, 1)⟩

/-- Read a document from a JSON text (specification, §4, parser boundary). -/
def parse : Parser := fun source path =>
  match Json.decode source with
  | .error e => .error (decodeFailure path e)
  | .ok value =>
    match Document.read value with
    | .error m => .error (mismatchFailure path m)
    | .ok document => .ok document

/-- The JSON text of a document. -/
def toSource (d : Document) : String := d.toJson.render

/-- The note about a document that was read from a path. -/
def loaded (path : String) (d : Document) : Entry :=
  .debug s!"Loaded JSON AST from {path} ({d.body.length} top-level items)"

end Blueprint.Document
