import Blueprint.Files.Path
import Blueprint.Table
import Blueprint.Text.Quoted
import Blueprint.Text.Utf8

/-!
# File trees

Files and directories as a value. There are no links, so a path has one meaning and no look-up can
go round in circles. There are no permissions either: whoever looks may look everywhere and read
everything. A look-up that a system refuses for want of a permission, or because links lead round in
circles, is outside this model, and so is what a program makes of such a refusal.

- `FileTree`: the files with their bytes, the directories, and the current directory.
- `FileTree.find`: what stands at a path. The way there has to exist: a step from a file is refused,
  and so is a name that is too long, where the directory it is sought in exists.
- `FileTree.readText`: the text of a file, or why there is none.
-/

namespace Blueprint

/-- Files and directories. -/
structure FileTree where
  files : Table (List String) (List UInt8) := ∅
  directories : List (List String) := [[]]
  /-- The directory that relative paths start from. -/
  current : Path := .root

/-- What stands at a path. -/
inductive Found where
  | file (bytes : List UInt8)
  | directory
  | missing
  | notDirectory
  | nameTooLong

/-- The greatest number of bytes of a name. -/
def maxNameBytes : Nat := 255

/-- The greatest number of bytes of a path. -/
def maxPathBytes : Nat := 4095

/-- Why nothing can be read or made at a path. -/
inductive PathError where
  | missing
  | taken
  | notDirectory
  | isDirectory
  | nameTooLong
  | nullCharacter
deriving DecidableEq

/-- The wording of an error, given how the path is shown. -/
def PathError.message (shown : String) : PathError → String
  | missing => "[Errno 2] No such file or directory: " ++ Text.quoted shown
  | taken => "[Errno 17] File exists: " ++ Text.quoted shown
  | notDirectory => "[Errno 20] Not a directory: " ++ Text.quoted shown
  | isDirectory => "[Errno 21] Is a directory: " ++ Text.quoted shown
  | nameTooLong => "[Errno 36] File name too long: " ++ Text.quoted shown
  | nullCharacter => "embedded null byte"

/-- Why a file could not be read. -/
inductive ReadError where
  | path (error : PathError)
  | notUtf8 (error : Utf8.Invalid)

/-- The wording of an error, given how the path is shown. -/
def ReadError.message (shown : String) : ReadError → String
  | path error => error.message shown
  | notUtf8 error => error.message

namespace FileTree

/-- Walk from a directory along names; a name `..` leads up. -/
def walk (t : FileTree) (here : List String) : List String → Found
  | [] => .directory
  | ".." :: rest => walk t here.dropLast rest
  | name :: rest =>
    if maxNameBytes < name.utf8ByteSize then .nameTooLong
    else
      let there := here ++ [name]
      match t.files.find? there with
      -- no step leads on from a file, not even one up
      | some bytes => if rest.isEmpty then .file bytes else .notDirectory
      | none => if t.directories.contains there then walk t there rest else .missing

/-- What stands at a path. -/
def find (t : FileTree) (p : Path) : Found :=
  if maxPathBytes < p.text.utf8ByteSize then .nameTooLong else t.walk [] p.names

/-- The steps from the root that a text stands for. -/
def stepsOf (t : FileTree) (s : String) : List String :=
  (if isAbsolute s then [] else t.current.names) ++ tidyNames s

/-- What stands at a path given as text, every step of which has to exist. Only a directory stands
at a path whose last step leads nowhere. -/
def findText (t : FileTree) (s : String) : Found :=
  if maxPathBytes < s.utf8ByteSize then .nameTooLong
  else
    match t.walk [] (t.stepsOf s) with
    | .file bytes => if endsInPlace s then .notDirectory else .file bytes
    | found => found

/-- The text of what was found, line ends unified. -/
def textOf : Found → Except ReadError String
  | .file bytes =>
    match Utf8.decode bytes with
    | .ok s => .ok (Utf8.unifyNewlines s)
    | .error e => .error (.notUtf8 e)
  | .directory => .error (.path .isDirectory)
  | .missing => .error (.path .missing)
  | .notDirectory => .error (.path .notDirectory)
  | .nameTooLong => .error (.path .nameTooLong)

/-- The text of the file at a path. -/
def readText (t : FileTree) (p : Path) : Except ReadError String := textOf (t.find p)

/-- The directories above a list of names, the root first, the last name left out. -/
def directoriesAbove (names : List String) : List (List String) :=
  (List.range names.length).map names.take

/-- The tree with a directory and the directories above it. -/
def addDirectory (t : FileTree) (names : List String) : FileTree :=
  { t with directories := (t.directories ++ directoriesAbove names ++ [names]).eraseDups }

/-- The tree with a file, in place of any that was there, and the directories above it. -/
def addFile (t : FileTree) (names : List String) (bytes : List UInt8) : FileTree :=
  { t with
    files := t.files.insert names bytes
    directories := (t.directories ++ directoriesAbove names).eraseDups }

/-- The tree without a file; the directories stay. -/
def removeFile (t : FileTree) (names : List String) : FileTree :=
  { t with files := t.files.filter fun k _ => k ≠ names }

end FileTree

end Blueprint
