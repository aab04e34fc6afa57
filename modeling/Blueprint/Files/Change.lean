import Blueprint.Files.Tree

/-!
# Changing file trees

A tree changes by steps that may be refused, and what was made before a refusal stays.

- `Refusal`: why a step was refused, and at which path as it is shown.
- `Change`: steps on a file tree.
- `FileTree.makeWithParents`: a directory and what is missing above it, tried from the bottom.
  `FileTree.makePlace` does it for a path.
- `FileTree.makeFromTop`: the same, tried from the top. The two differ in the path at which they
  are refused when a file stands in the way. `FileTree.makeParent` does it for a path as written.
- `FileTree.openFile`, `FileTree.writeFile`, `FileTree.deleteFile`: a file to write to, with new
  content, and gone.
-/

namespace Blueprint

/-- Why a step was refused, and at which path. -/
structure Refusal where
  error : PathError
  shown : String
deriving DecidableEq

/-- The wording of a refusal. -/
def Refusal.message (r : Refusal) : String := r.error.message r.shown

/-- Steps on a file tree, which may be refused half-way. -/
abbrev Change (α : Type) := EStateM Refusal FileTree α

namespace FileTree

/-- Refuse a text that no path has. -/
def checkText (s : String) : Change Unit :=
  if s.toList.contains (Char.ofNat 0) then throw ⟨.nullCharacter, s⟩ else pure ()

/-- Whether the directory that a path stands in exists. -/
def hasParent (t : FileTree) (s : String) : Bool :=
  match t.walk [] (t.stepsOf s).dropLast with
  | .directory => true
  | _ => false

/-- The tree with a new directory. The directory above has to exist. -/
def makeDirectory (t : FileTree) (s : String) : Except PathError FileTree :=
  match t.findText s with
  | .file _ => .error .taken
  | .directory => .error .taken
  | .notDirectory => .error .notDirectory
  | .nameTooLong => .error .nameTooLong
  | .missing =>
    if t.hasParent s then .ok (t.addDirectory (t.current.follow s).names) else .error .missing

/-- Make a directory, unless there is one. The directory above has to exist. -/
def ensureDirectory (s : String) : Change Unit := do
  checkText s
  let t ← get
  match t.makeDirectory s, t.findText s with
  | .ok made, _ => set made
  | .error _, .directory => pure ()
  | .error e, _ => throw ⟨e, s⟩

/-- Make the directory with the given names, the last name first, and what is missing above it. The
directories above are looked at only when they are found missing. -/
def makeWithParents (start : String) : List String → Change Unit
  | [] => ensureDirectory (shownPath start [])
  | name :: above => do
    let shown := shownPath start (name :: above).reverse
    checkText shown
    match (← get).makeDirectory shown with
    | .error .missing => do
      makeWithParents start above
      ensureDirectory shown
    | _ => ensureDirectory shown

/-- Whether something stands at a path. -/
def isThere (t : FileTree) (s : String) : Bool :=
  match t.findText s with
  | .file _ => true
  | .directory => true
  | _ => false

/-- Make the directory with the given steps, the last step first. The directories above are made
before it, up to the first that is there already. -/
def makeFromTop : List String → Change Unit
  | [] => pure ()
  | step :: above =>
    if step = "" then makeFromTop above
    else do
      if (← get).isThere (textOfSteps above) then ensureDirectory (textOfSteps (step :: above))
      else
        makeFromTop above
        -- a dot names what has just been made
        unless step = "." do ensureDirectory (textOfSteps (step :: above))

/-- Make the directory that a path stands in and what is missing above it. -/
def makeParent (s : String) : Change Unit := makeFromTop (Text.splitText '/' s).reverse.tail

/-- Open a file to write at its end; it is empty when it is new. -/
def openFile (s : String) : Change Unit := do
  checkText s
  let t ← get
  match t.findText s with
  | .file _ => pure ()
  | .directory => throw ⟨.isDirectory, s⟩
  | .notDirectory => throw ⟨.notDirectory, s⟩
  | .nameTooLong => throw ⟨.nameTooLong, s⟩
  | .missing =>
    if t.hasParent s then set (t.addFile (t.current.follow s).names []) else throw ⟨.missing, s⟩

/-- Make the directory at a path and what is missing above it. -/
def makePlace (s : String) : Change Unit := makeWithParents (tidyStart s) (tidyNames s).reverse

/-- Give a file new content. Directories that are missing above it are made. -/
def writeFile (s : String) (bytes : List UInt8) : Change Unit := do
  makeWithParents (tidyStart s) (tidyNames s).reverse.tail
  openFile (tidyPath s)
  modify fun t => t.addFile (t.current.follow s).names bytes

/-- Delete a file; the directories stay. -/
def deleteFile (s : String) : Change Unit := do
  checkText s
  let t ← get
  match t.findText s with
  | .file _ => set (t.removeFile (t.current.follow s).names)
  | .directory => throw ⟨.isDirectory, s⟩
  | .notDirectory => throw ⟨.notDirectory, s⟩
  | .nameTooLong => throw ⟨.nameTooLong, s⟩
  | .missing => throw ⟨.missing, s⟩

end FileTree

end Blueprint
