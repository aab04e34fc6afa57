import Blueprint.Files.Tree
import Blueprint.Json.Decoder
import Blueprint.Resolution.Basic

/-!
# Layered settings

Settings are a JSON object. The defaults are overridden by the settings of the user, and these by
the settings of the project; objects are merged member by member, any other value replaces. The
layers are those of the specification (§6, Configuration).

- `Json.merge`, `Json.overlay`: one layer over another, and why values that are no objects cannot be
  put over each other.
- `Settings.directories`: the directories whose settings count.
- `Settings.load`: the settings of a project. A file that cannot be opened or is not JSON is passed
  over with a warning, a file that holds something other than an object is refused.
- `Settings.validate`: what the settings of include resolution have to be.
- `Settings.get?`, `Settings.part`: the value at a dotted path, a whole section.
- `Settings.resolver`: the rules of include resolution that the settings ask for.
-/

namespace Blueprint

namespace Json

mutual

/-- One value over another: two objects are merged, otherwise the upper value counts. -/
def merge (base : Json) : Json → Json
  | obj members =>
    match base with
    | obj under => obj (mergeMembers under members)
    | _ => obj members
  | v => v

/-- Members of an object over those of another. -/
def mergeMembers (under : List (String × Json)) : List (String × Json) → List (String × Json)
  | [] => under
  | (k, v) :: rest =>
    let merged := match memberOf? k under with
      | some old => merge old v
      | none => v
    mergeMembers (setMember k merged under) rest

end

/-- The value at a path of keys. -/
def atPath? (v : Json) : List String → Option Json
  | [] => some v
  | key :: rest =>
    match v.member? key with
    | some w => atPath? w rest
    | none => none

/-- Why a value cannot be put over another. -/
inductive MergeError where
  /-- The upper value has no members. -/
  | noItems (found : Json)
  /-- The lower value cannot hold members, nor be searched for one. -/
  | notIterable (found : Json)
  | listIndex
  | textIndex
  | textAssignment

/-- The wording of an error. -/
def MergeError.message : MergeError → String
  | noItems found => s!"'{found.typeName}' object has no attribute 'items'"
  | notIterable found => s!"argument of type '{found.typeName}' is not iterable"
  | listIndex => "list indices must be integers or slices, not str"
  | textIndex => "string indices must be integers, not 'str'"
  | textAssignment => "'str' object does not support item assignment"

/-- One value over another, where either may be no object. An object without members leaves anything
as it is. A text is searched for the first key before it is seen to hold no members. -/
def overlay (base : Json) : Json → Except MergeError Json
  | obj [] => .ok base
  | obj ((key, v) :: rest) =>
    match base with
    | obj _ => .ok (base.merge (obj ((key, v) :: rest)))
    | arr _ => .error .listIndex
    -- a key that occurs in the text counts as there until it is looked up
    | str s => .error (if Text.mentions s key then .textIndex else .textAssignment)
    | other => .error (.notIterable other)
  | other => .error (.noItems other)

end Json

/-- Why settings are refused. -/
inductive SettingsError where
  | notObject (path : String)
  | depth (found : Json)
  | extension (found : Json)
  /-- A value stands where members are looked up. -/
  | noMembers (found : Json)
  | notUtf8 (error : Utf8.Invalid)
  | oversized (digits : Nat)
  | nameTooLong (path : String)
  | noHome

namespace SettingsError

/-- The wording of an error. -/
def message : SettingsError → String
  | notObject path => s!"Settings file {path} must contain a JSON object"
  | depth found => s!"resolver.max_include_depth must be a positive integer, got {found.spelled}"
  | extension found => s!"resolver.extension must start with '.', got {found.spelled}"
  | noMembers found => s!"'{found.typeName}' object has no attribute 'get'"
  | notUtf8 error => error.message
  | oversized digits => (Json.DecodeError.oversized digits).message
  | nameTooLong path => PathError.nameTooLong.message path
  | noHome => "Could not determine home directory."

end SettingsError

/-- The settings of a project. -/
structure Settings where
  values : List (String × Json)

namespace Settings

/-- The settings that count unless others are given. -/
def defaults : List (String × Json) :=
  [("resolver", .obj [("max_include_depth", .int 20), ("extension", .str ".mfd")])]

/-- Whether a value is a number of levels: a whole number of at least one. -/
def isDepth : Json → Bool
  | .int n => decide (1 ≤ n)
  | _ => false

/-- Whether a value is an extension: a text that begins with a dot. -/
def isExtension : Json → Bool
  | .str s => decide (s.toList.head? = some '.')
  | _ => false

/-- Check the settings of include resolution (specification, §6, configuration). -/
def validate : Json → Except SettingsError Unit
  | .obj values =>
    match (Json.memberOf? "resolver" values).getD (.obj []) with
    | .obj resolver =>
      let depth := (Json.memberOf? "max_include_depth" resolver).getD .null
      let extension := (Json.memberOf? "extension" resolver).getD .null
      if !isDepth depth then .error (.depth depth)
      else if !isExtension extension then .error (.extension extension)
      else .ok ()
    | v => .error (.noMembers v)
  | v => .error (.noMembers v)

/-- The user's directory, given what the environment calls it. Slashes at the end are left out, and
a name that begins with a tilde stands for no directory. -/
def homeDirectory (named : String) : Except SettingsError String :=
  let kept := (named.toList.reverse.dropWhile (· = '/')).reverse
  if kept.head? = some '~' then .error .noHome
  else .ok (if kept.isEmpty then "/" else String.ofList kept)

/-- The directories whose settings count, the user's and the project's. Where none is given, or only
an empty text, it is what the environment calls the user's directory, and the current directory. -/
def directories (tree : FileTree) (environment : String) (home project : Option String) :
    Except SettingsError (String × String) := do
  let home ← match home.filter (· ≠ "") with
    | some home => .ok home
    | none => homeDirectory environment
  return (home, (project.filter (· ≠ "")).getD tree.current.text)

/-- Where the settings in a directory stand. -/
def configPath (directory : String) : String :=
  shownPath (tidyStart directory) (tidyNames directory ++ [".mfd", "config.json"])

/-- What the settings file at a path comes to: nothing, when there is none or it is passed over. -/
def readLayer (tree : FileTree) (path : String) :
    Except SettingsError (Option (List (String × Json))) × Journal :=
  let skipped (reason : String) : Journal :=
    [.warning s!"Failed to load settings from {path}: {reason}"]
  let found := if path.toList.contains (Char.ofNat 0) then .missing else tree.findText path
  match found with
  -- a file that is not there is passed over without a word
  | .missing => (.ok none, [])
  | .notDirectory => (.ok none, [])
  | .nameTooLong => (.error (.nameTooLong path), [])
  | found =>
    match FileTree.textOf found with
    -- the file was opened, so it is not passed over
    | .error (.notUtf8 e) => (.error (.notUtf8 e), [])
    | .error e => (.ok none, skipped (e.message path))
    | .ok source =>
      match Json.decode source with
      | .error (.oversized digits) => (.error (.oversized digits), [])
      | .error e => (.ok none, skipped e.message)
      | .ok (.obj members) => (.ok (some members), [.debug s!"Loaded settings from {path}"])
      | .ok _ => (.error (.notObject path), [])

/-- Put the settings files at the given paths over settings, one after the other. -/
def loadLayers (tree : FileTree) (values : List (String × Json)) :
    List String → Except SettingsError (List (String × Json)) × Journal
  | [] => (.ok values, [])
  | path :: rest =>
    match readLayer tree path with
    | (.error e, notes) => (.error e, notes)
    | (.ok layer, notes) =>
      let values := match layer with
        | some members => Json.mergeMembers values members
        | none => values
      let (result, more) := loadLayers tree values rest
      (result, notes ++ more)

/-- The settings of a project, given the user's directory and the project's (specification, §6,
configuration). -/
def load (tree : FileTree) (home project : String) : Except SettingsError Settings × Journal :=
  match loadLayers tree defaults [configPath home, configPath project] with
  | (.error e, notes) => (.error e, notes)
  -- checked once, when all layers are in
  | (.ok values, notes) => ((validate (.obj values)).map fun _ => ⟨values⟩, notes)

/-- All settings. -/
def toJson (s : Settings) : Json := .obj s.values

/-- The value at a path of keys with dots between them. -/
def get? (s : Settings) (path : String) : Option Json :=
  s.toJson.atPath? (Text.splitText '.' path)

/-- A section; an empty object when there is none. -/
def part (s : Settings) (name : String) : Json := (Json.memberOf? name s.values).getD (.obj [])

/-- The rules of include resolution that the settings ask for. -/
def resolver (s : Settings) (projectRoot : Option Path) : Resolver :=
  let rules : Resolver := { projectRoot }
  let rules := match s.get? "resolver.max_include_depth" with
    | some (.int n) => { rules with maxDepth := n }
    | _ => rules
  match s.get? "resolver.extension" with
  | some (.str e) => { rules with extension := e }
  | _ => rules

end Settings

end Blueprint
