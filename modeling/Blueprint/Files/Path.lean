import Blueprint.Text.Split

/-!
# Paths

Absolute paths without detours, and the texts that lead to them. However many detours a text has,
the path that it leads to has none, so that two paths can be compared name by name.

- `Path`: the names from the root down, none of which is empty, a dot, two dots or holds a slash.
- `Path.follow`: go from a directory along a text. A step up from the root stays there, and no step
  asks what exists.
- `Path.liesIn`: whether a path lies in a directory, name by name.
- `tidyPath`: a text without the parts of it that lead nowhere.
- `textOfSteps`: the text of a path, or of a directory above it, from the steps as they are written.
-/

namespace Blueprint

/-- A name that leads from a directory to something in it. -/
def Path.Proper (name : String) : Prop :=
  name ≠ "" ∧ name ≠ "." ∧ name ≠ ".." ∧ '/' ∉ name.toList

instance : DecidablePred Path.Proper := fun name =>
  inferInstanceAs (Decidable (name ≠ "" ∧ name ≠ "." ∧ name ≠ ".." ∧ '/' ∉ name.toList))

instance (names : List String) : Decidable (∀ name ∈ names, Path.Proper name) :=
  List.decidableBAll _ names

/-- An absolute path without detours: the names from the root down, each of which leads one step
down. -/
@[ext]
structure Path where
  names : List String
  proper : ∀ name ∈ names, Path.Proper name := by decide
deriving DecidableEq

/-- Whether a text is an absolute path. -/
def isAbsolute (s : String) : Bool := s.toList.head? = some '/'

namespace Path

/-- The root directory. -/
def root : Path := .mk []

/-- The path with the given names, if every one of them is a proper one. -/
def ofNames? (names : List String) : Option Path :=
  if h : ∀ name ∈ names, Proper name then some ⟨names, h⟩ else none

theorem ofNames?_eq_some_iff {names : List String} {p : Path} :
    ofNames? names = some p ↔ p.names = names := by
  constructor
  · intro h
    unfold ofNames? at h
    split at h
    · cases h
      rfl
    · cases h
  · rintro rfl
    exact dif_pos p.proper

/-- A path as text. -/
def text (p : Path) : String := "/" ++ "/".intercalate p.names

/-- The last name of a path; the root has none. -/
def name (p : Path) : String := p.names.getLast?.getD ""

/-- The directory that a path stands in. -/
def parent (p : Path) : Path :=
  ⟨p.names.dropLast, fun name h => p.proper name (List.dropLast_subset _ h)⟩

/-- The path of what a directory holds under a name. -/
def child (p : Path) (name : String) (h : Proper name) : Path where
  names := p.names ++ [name]
  proper n hn := by
    rcases List.mem_append.1 hn with hn | hn
    · exact p.proper n hn
    · rwa [List.mem_singleton.1 hn]

/-- Take one step from a directory along a part of a text. -/
def step (p : Path) (part : String) (hslash : '/' ∉ part.toList) : Path :=
  if hstay : part = "" ∨ part = "." then p
  else if hup : part = ".." then p.parent
  else p.child part ⟨mt Or.inl hstay, mt Or.inr hstay, hup, hslash⟩

/-- Go from a directory along a text; an absolute one starts from the root. -/
@[irreducible]
def follow (base : Path) (text : String) : Path :=
  (Text.splitText '/' text).attach.foldl
    (fun p part => p.step part.1 (Text.not_mem_of_mem_splitText part.2))
    (if isAbsolute text then root else base)

/-- Whether a path lies in a directory or is the directory. -/
def liesIn (p dir : Path) : Bool := dir.names.isPrefixOf p.names

theorem liesIn_iff {p dir : Path} : p.liesIn dir = true ↔ dir.names <+: p.names := by
  simp [liesIn]

end Path

/-- The steps of a text that lead somewhere; steps up are kept. -/
def tidyNames (s : String) : List String :=
  (Text.splitText '/' s).filter fun n => n ≠ "" && n ≠ "."

/-- Whether the last step of a text leads nowhere: the text ends with a slash or a single dot. -/
def endsInPlace (s : String) : Bool :=
  let last := (Text.splitText '/' s).getLast?
  last = some "" || last = some "."

/-- How an absolute text begins: exactly two slashes stay two. -/
def tidyStart (s : String) : String :=
  match s.toList with
  | '/' :: '/' :: '/' :: _ => "/"
  | '/' :: '/' :: _ => "//"
  | '/' :: _ => "/"
  | _ => ""

/-- A path as it is shown, given how it begins and its names. The empty path is shown as a dot. -/
def shownPath (start : String) (names : List String) : String :=
  let shown := start ++ "/".intercalate names
  if shown = "" then "." else shown

/-- A path as it is shown when it is not looked up: without repeated slashes, single dots and a
slash at the end. -/
def tidyPath (s : String) : String := shownPath (tidyStart s) (tidyNames s)

/-- The text of the steps of a path, the last step first. Slashes at the end are left out, unless
there is nothing else. -/
def textOfSteps (steps : List String) : String :=
  match steps.dropWhile (· = "") with
  | [] => String.ofList (List.replicate steps.length '/')
  | kept => "/".intercalate kept.reverse

end Blueprint
