import Blueprint.Document.Source
import Blueprint.Files.Tree
import Blueprint.Resolution.Diagnostic
import Blueprint.Text.Search

/-!
# Include resolution

A model may be spread over files that include one another. Resolution puts the content of every
included file in the place of the directive and reports what is wrong on the way, going on with
whatever could be loaded. This is the Include Resolver of the specification (§4.1).

- `Resolver`: the limits and rules of a resolution.
- `Progress`: the files loaded so far, the diagnostics and the journal.
- `Resolve`: a step of a resolution; it can only fail when a path cannot be looked up at all.
- `expandBody`, `expandSystem`, `expandComponent`: what becomes of the items of a file, given what
  an include directive stands for. In a document and in a component the content of the file takes
  the place of the directive. In a system only components and comments do; the other items come to
  stand right before the system.
- `expandDirective`: what an include directive stands for. A file is loaded once; a file that leads
  back to itself is reported; so is nesting deeper than the limit.
- `Resolver.resolveFile`, `Resolver.resolveSource`: a whole resolution.
-/

namespace Blueprint

/-- The limits and rules of a resolution. -/
structure Resolver where
  /-- Includes that leave this directory are reported; if it is not given, the directory of the root
  file counts. -/
  projectRoot : Option Path := none
  /-- The deepest nesting of includes. -/
  maxDepth : Int := 20
  /-- What is appended to the path of a directive that does not end with it. -/
  extension : String := ".mfd"

/-- Why a resolution cannot go on: a path holds a null character, or a name is too long to be
looked up. -/
inductive Abort where
  | nullCharacter
  | nameTooLong (path : Path)

/-- The wording of an abort. -/
def Abort.message : Abort → String
  | nullCharacter => "embedded null byte"
  | nameTooLong path => PathError.nameTooLong.message path.text

/-- How far a resolution has come. -/
structure Progress where
  /-- The files loaded so far, the root file first. -/
  files : List Path := []
  diagnostics : List Diagnostic := []
  journal : Journal := []

/-- A step of a resolution. -/
abbrev Resolve (α : Type) := EStateM Abort Progress α

/-- What a resolution works on. -/
structure Workspace where
  tree : FileTree
  parse : Parser
  resolver : Resolver
  projectDirectory : Path

/-- A file and the files that led to it, the nearest first. -/
structure Place where
  file : Path
  above : List Path := []

namespace Place

/-- The files from the root file down to this one. -/
def chain (p : Place) : List Path := (p.file :: p.above).reverse

/-- The place of a file that this one includes. -/
def enter (p : Place) (file : Path) : Place := ⟨file, p.file :: p.above⟩

@[simp] theorem chain_enter (p : Place) (file : Path) :
    (p.enter file).chain = p.chain ++ [file] := by simp [chain, enter]

end Place

/-! ## Notes on the way -/

namespace Progress

/-- Note something in the journal. -/
def log (entry : Entry) : Resolve Unit := modify fun s => { s with journal := s.journal ++ [entry] }

/-- Report a diagnostic, in the journal as well. -/
def report (d : Diagnostic) : Resolve Unit :=
  modify fun s =>
    { s with diagnostics := s.diagnostics ++ [d], journal := s.journal ++ [.warning d.format] }

/-- Count a file as loaded. -/
def enter (file : Path) : Resolve Unit := modify fun s => { s with files := s.files ++ [file] }

end Progress

/-! ## Items -/

section

variable (expand : Inclusion → Resolve (List Item))

/-- Put the content of included files in the place of the directives of a component. -/
def expandComponent : List Item → Resolve (List Item)
  | [] => pure []
  | .inclusion d :: rest => do
    let items ← expand d
    return items ++ (← expandComponent rest)
  | i :: rest => do return i :: (← expandComponent rest)

/-- Whether an included item may stand in a system. -/
def fitsSystem : Item → Bool
  | .component _ _ => true
  | .comment _ => true
  | _ => false

/-- The items of a system, and those that come to stand before it (specification, §4.1,
hoisting). -/
def expandSystem : List Item → Resolve (List Item × List Item)
  | [] => pure ([], [])
  | .inclusion d :: rest => do
    let items ← expand d
    let (kept, hoisted) ← expandSystem rest
    return (items.filter fitsSystem ++ kept, items.filter (fun i => !fitsSystem i) ++ hoisted)
  | .component head body :: rest => do
    let body ← expandComponent expand body
    let (kept, hoisted) ← expandSystem rest
    return (.component head body :: kept, hoisted)
  | i :: rest => do
    let (kept, hoisted) ← expandSystem rest
    return (i :: kept, hoisted)

/-- The items of a document. -/
def expandBody : List Item → Resolve (List Item)
  | [] => pure []
  | .system head body :: rest => do
    let (kept, hoisted) ← expandSystem expand body
    return hoisted ++ .system head kept :: (← expandBody rest)
  | .component head body :: rest => do
    let body ← expandComponent expand body
    return .component head body :: (← expandBody rest)
  | .inclusion d :: rest => do
    let items ← expand d
    return items ++ (← expandBody rest)
  | i :: rest => do return i :: (← expandBody rest)

end

/-! ## Directives -/

namespace Workspace

/-- The path of a directive with the extension. -/
def written (w : Workspace) (d : Inclusion) : String :=
  if Text.finishesWith d.path w.resolver.extension then d.path else d.path ++ w.resolver.extension

/-- The file that a directive in a file leads to. -/
def target (w : Workspace) (file : Path) (d : Inclusion) : Path := file.parent.follow (w.written d)

/-- A diagnostic about a directive in a file. -/
def diagnostic (place : Place) (problem : Problem) (file : String) (chain : List Path) :
    Diagnostic :=
  { problem, file, includedFrom := some place.file, location := none, chain }

/-- Report what is suspicious about the path of a directive, and give the file it leads to
(specification, §4.1). -/
def locate (w : Workspace) (place : Place) (d : Inclusion) : Resolve Path := do
  -- looked at as it is written, before the extension and before any look-up
  if isAbsolute d.path then
    Progress.report (diagnostic place (.absolutePath d.path) (tidyPath d.path) place.chain)
  if (w.written d).toList.contains (Char.ofNat 0) then throw .nullCharacter
  let target := w.target place.file d
  unless target.liesIn w.projectDirectory do
    Progress.report (diagnostic place (.outsideProject (w.written d)) target.text place.chain)
  return target

/-- Parse the source of a file; a source that is refused is reported. -/
def parseFile (w : Workspace) (place : Place) (source : String) : Resolve (Option Document) := do
  match w.parse source place.file.text with
  | .ok document =>
    Progress.log (document.loaded place.file.text)
    return some document
  | .error failure =>
    let (detail, location) := match failure with
      | .refused e => (e.detail, e.location)
      | .broken reason => (reason, none)
    Progress.report
      { problem := .unparsable (ParseError.place place.file.text location) detail
        file := place.file.text
        includedFrom := place.above.head?
        location
        chain := place.chain }
    return none

/-- Load the file that a directive leads to. -/
def load (w : Workspace) (place : Place) (d : Inclusion) (target : Path) (found : Found) :
    Resolve (Option Document) := do
  -- counted before it is read, so that a file that cannot be read is not tried again
  Progress.enter target
  match FileTree.textOf found with
  | .error e =>
    Progress.report (diagnostic place (.unreadable (w.written d) (e.message target.text))
      target.text place.chain)
    return none
  | .ok source =>
    let document ← w.parseFile (place.enter target) source
    if document.isSome then
      Progress.log (.debug s!"Included {target.name} at depth {place.chain.length}")
    return document

/-- What a directive stands for, when includes may be nested as many levels deeper as the first
number says. Nothing, when there is a problem (specification, §4.1). -/
def expandDirective (w : Workspace) : Nat → Place → Inclusion → Resolve (List Item)
  | 0, place, d => do
    let target ← w.locate place d
    Progress.report (diagnostic place (.tooDeep w.resolver.maxDepth) target.text
      (place.chain ++ [target]))
    return []
  | levels + 1, place, d => do
    -- the order of the tests matters: a file on the chain is among the loaded ones as well
    let target ← w.locate place d
    if place.chain.contains target then
      Progress.report (diagnostic place (.circular (w.written d)) target.text
        (place.chain ++ [target]))
      return []
    else if (← get).files.contains target then
      Progress.log
        (.debug s!"Skipping {target.text}: already included (from {place.file.name})")
      return []
    else
      match w.tree.find target with
      -- not even a diagnostic: whether the file exists cannot be asked
      | .nameTooLong => throw (.nameTooLong target)
      | .file bytes =>
        match ← w.load place d target (.file bytes) with
        | none => return []
        | some document =>
          expandBody (expandDirective w levels (place.enter target)) document.body
      | _ =>
        Progress.report (diagnostic place (.missing (w.written d)) target.text place.chain)
        return []

end Workspace

/-! ## Whole resolutions -/

/-- What a resolution comes to. -/
structure Resolution where
  document : Document
  /-- The files that were loaded, the root file first. -/
  files : List Path
  diagnostics : List Diagnostic

namespace Resolution

/-- Whether nothing was reported. -/
def ok (r : Resolution) : Bool := r.diagnostics.isEmpty

/-- The diagnostics of a kind. -/
def ofKind (r : Resolution) (k : DiagnosticKind) : List Diagnostic :=
  r.diagnostics.filter fun d => d.kind = k

/-- The document that stands for a root file that could not be loaded. -/
def emptyDocument : Document :=
  let start : Position := { line := 1, column := 1 }
  { loc := some ⟨start, start⟩ }

end Resolution

namespace Resolver

/-- The number of levels that includes may be nested. -/
def levels (r : Resolver) : Nat := r.maxDepth.toNat

/-- What a resolution from a root file works on. -/
def workspace (r : Resolver) (tree : FileTree) (parse : Parser) (root : Path) : Workspace where
  tree := tree
  parse := parse
  resolver := r
  projectDirectory := r.projectRoot.getD root.parent

/-- Resolve the source text of a root file. -/
def resolveRoot (r : Resolver) (tree : FileTree) (parse : Parser) (root : Path) (source : String) :
    Resolve Resolution := do
  let w := r.workspace tree parse root
  let place : Place := { file := root }
  Progress.log (.info s!"Resolving includes from {root.text}")
  Progress.enter root
  let document ← match ← w.parseFile place source with
    | none => pure Resolution.emptyDocument
    | some document => do
      let body ← expandBody (w.expandDirective r.levels place) document.body
      pure { document with body }
  let s ← get
  Progress.log (.info
    s!"Resolved {s.files.length} file(s) with {s.diagnostics.length} diagnostic(s)")
  return { document, files := s.files, diagnostics := s.diagnostics }

/-- The path of a root file given as text. -/
def rootPath (tree : FileTree) (root : String) : Resolve Path := do
  if root.toList.contains (Char.ofNat 0) then throw .nullCharacter
  return tree.current.follow root

/-- The project root given as text. No text and an empty text give none. -/
def givenRoot (tree : FileTree) : Option String → Resolve (Option Path)
  | none => return none
  | some root => do
    if root = "" then return none
    return some (← rootPath tree root)

/-- Resolve source text that stands for the file at a path. -/
def resolveSource (r : Resolver) (tree : FileTree) (parse : Parser) (source root : String) :
    Resolve Resolution := do
  let path ← rootPath tree root
  r.resolveRoot tree parse path source

/-- Load and resolve the file at a path. A root file that cannot be read is reported and stands for
an empty document (specification, §4.1). -/
def resolveFile (r : Resolver) (tree : FileTree) (parse : Parser) (root : String) :
    Resolve Resolution := do
  let path ← rootPath tree root
  match tree.readText path with
  | .ok source => r.resolveRoot tree parse path source
  | .error e =>
    Progress.report
      { problem := .rootUnreadable (e.message path.text)
        file := path.text
        includedFrom := none
        location := none
        chain := [path] }
    return { document := Resolution.emptyDocument, files := [], diagnostics := (← get).diagnostics }

end Resolver

end Blueprint
