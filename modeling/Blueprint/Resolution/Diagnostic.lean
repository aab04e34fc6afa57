import Blueprint.Document.ParseError
import Blueprint.Files.Path
import Blueprint.Journal

/-!
# Diagnostics of include resolution

What can be wrong with an include directive, and how it is reported. The kinds are those of the
specification (§4.1).

- `Problem`: the causes; `Problem.kind` sorts them into five kinds, `Problem.text` words them.
- `Diagnostic`: a problem with the file it is about and the chain of files that led there.
-/

namespace Blueprint

/-- The kinds of diagnostics. -/
inductive DiagnosticKind where
  | circularInclude
  | fileNotFound
  | parseError
  | maxDepthExceeded
  | suspiciousPath
deriving DecidableEq

namespace DiagnosticKind

/-- The kinds in order. -/
def all : List DiagnosticKind :=
  [circularInclude, fileNotFound, parseError, maxDepthExceeded, suspiciousPath]

/-- The name of a kind. -/
def label : DiagnosticKind → String
  | circularInclude => "CIRCULAR_INCLUDE"
  | fileNotFound => "FILE_NOT_FOUND"
  | parseError => "PARSE_ERROR"
  | maxDepthExceeded => "MAX_DEPTH_EXCEEDED"
  | suspiciousPath => "SUSPICIOUS_PATH"

end DiagnosticKind

/-- What is wrong. A path is given as it is written, with the extension. -/
inductive Problem where
  | rootUnreadable (reason : String)
  | absolutePath (written : String)
  | outsideProject (written : String)
  | tooDeep (limit : Int)
  | circular (written : String)
  | missing (written : String)
  | unreadable (written reason : String)
  | unparsable (place detail : String)

namespace Problem

/-- The kind of a problem. -/
def kind : Problem → DiagnosticKind
  | rootUnreadable _ => .fileNotFound
  | absolutePath _ => .suspiciousPath
  | outsideProject _ => .suspiciousPath
  | tooDeep _ => .maxDepthExceeded
  | circular _ => .circularInclude
  | missing _ => .fileNotFound
  | unreadable _ _ => .fileNotFound
  | unparsable _ _ => .parseError

/-- The wording of a problem. -/
def text : Problem → String
  | rootUnreadable reason => s!"Root file could not be read: {reason}"
  | absolutePath written => s!"Include uses absolute path '{written}', use relative paths instead"
  | outsideProject written => s!"Include '{written}' resolves outside project directory"
  | tooDeep limit => s!"Include nesting exceeds maximum depth of {limit}"
  | circular written => s!"Circular include detected: {written}"
  | missing written => s!"Include file not found: {written}"
  | unreadable written reason => s!"Include file could not be read: {written} ({reason})"
  | unparsable place detail => s!"Parse error in {place}: {detail}"

end Problem

/-- A problem found while includes were resolved. -/
structure Diagnostic where
  problem : Problem
  /-- The file that the problem is about. -/
  file : String
  /-- The file with the directive. -/
  includedFrom : Option Path
  /-- Line and column in the file. -/
  location : Option (Int × Int)
  /-- The files that led there, the root file first. -/
  chain : List Path

namespace Diagnostic

/-- The kind of a diagnostic. -/
def kind (d : Diagnostic) : DiagnosticKind := d.problem.kind

/-- The names of the files that led there. -/
def chainNames (d : Diagnostic) : List String := d.chain.map Path.name

/-- The message: the problem and the way there. -/
def message (d : Diagnostic) : String :=
  d.problem.text ++ " (chain: " ++ " → ".intercalate d.chainNames ++ ")"

/-- The diagnostic on one line. -/
def format (d : Diagnostic) : String :=
  s!"{ParseError.place d.file d.location}: {d.kind.label} {d.message}"

end Diagnostic

end Blueprint
