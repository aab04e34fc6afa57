import Blueprint.Files.Change
import Blueprint.Journal
import Blueprint.Text.Lowercase
import Blueprint.Text.Template

/-!
# Log sinks

Where messages go: to the console, to a file, to both or nowhere. Sinks are set up once; a further
set-up counts only after a reset. Environment variables decide what the caller leaves open. This is
the set-up of the specification (§6, Logging).

- `Logging`: the sinks, and what has been written to them.
- `Logging.setup`: choose the sinks. Files are written only on request. A set-up that is refused
  half-way keeps what it has done by then.
- `Logging.write`: send a message to the sinks whose level it reaches.
-/

namespace Blueprint

/-- A place that messages go to. -/
inductive Sink where
  | console (level : Level)
  | file (level : Level) (path : Path)

/-- What a caller asks of a set-up; the rest is decided by the environment. -/
structure LoggingOptions where
  level : String := "INFO"
  suppressConsole : Option Bool := none
  enableFile : Option Bool := none

/-- The sinks, and what has been written to them. -/
structure Logging where
  configured : Bool := false
  sinks : List Sink := []
  environment : Table String String := ∅
  /-- The number of lines on the console. -/
  consoleLines : Nat := 0
  /-- The files and directories there are. -/
  tree : FileTree := {}
  /-- The moment that goes into the names of files. -/
  now : Moment := {}
  /-- The messages in the files that have some. -/
  messages : Table (List String) (List String) := ∅

/-- Why a set-up is refused. -/
inductive SetupError where
  | unknownLevel (name : String)
  | unopened (refusal : Refusal)
  | unnamed (error : Text.Template.Error)

/-- The wording for a level that there is not. -/
def unknownLevelMessage (name : String) : String := "Level '" ++ name ++ "' does not exist"

/-- The wording of an error. -/
def SetupError.message : SetupError → String
  | unknownLevel name => unknownLevelMessage name
  | unopened refusal => refusal.message
  | unnamed error => error.message

namespace Logging

/-- The variable that turns off the console. -/
def machineModeVariable : String := "MFD_MACHINE_MODE"

/-- The variable that turns on the log file. -/
def fileLoggingVariable : String := "MFD_FILE_LOGGING"

/-- The variable that names the directory of the log file. -/
def logDirectoryVariable : String := "MFD_LOG_DIR"

/-- The directory of the log file when no variable names one, seen from the current directory. -/
def defaultLogDirectory : String := ".mfd/logs"

/-- The name of the log file. -/
def logFileName : String := "mfdcore.log"

/-- Set or unset an environment variable. -/
def setVariable (l : Logging) (name : String) (value : Option String) : Logging :=
  { l with environment :=
      match value with
      | some v => l.environment.insert name v
      | none => l.environment.filter fun k _ => k ≠ name }

/-- Whether an environment variable says yes. -/
def flag (l : Logging) (name : String) : Bool :=
  ["1", "true", "yes"].contains (Text.lowercase (l.environment.findD name ""))

/-- The directory that the log file is asked for in. -/
def logDirectory (l : Logging) : String :=
  l.environment.findD logDirectoryVariable (l.tree.current.follow defaultLogDirectory).text

/-- Carry out a change to the files. -/
def change (c : Change Unit) : EStateM SetupError Logging Unit := fun l =>
  match c.run l.tree with
  | .ok () t => .ok () { l with tree := t }
  | .error e t => .error (.unopened e) { l with tree := t }

/-- Make the directory asked for and open the log file. The path of the file is a template, so the
file may come to stand in another directory, which is made as well. -/
def openLog : EStateM SetupError Logging Unit := do
  let directory := (← get).logDirectory
  change (FileTree.makePlace directory)
  let path := shownPath (tidyStart directory) (tidyNames directory ++ [logFileName])
  match Text.Template.expand (← get).now path with
  | .error e => throw (.unnamed e)
  | .ok text =>
    let file := (← get).tree.current.follow text
    -- an absolute path by now, but two slashes at its start are kept
    let start := if tidyStart text = "//" then "//" else "/"
    let path := shownPath start file.names
    change (FileTree.makeParent path)
    change (FileTree.openFile path)
    modify fun l => { l with sinks := l.sinks ++ [.file .info file] }

/-- Add the console with the named level to the sinks. -/
def openConsole (level : String) : EStateM SetupError Logging Unit :=
  match Level.ofLabel? level with
  | none => throw (.unknownLevel level)
  | some level => modify fun l => { l with sinks := l.sinks ++ [.console level] }

/-- Choose the sinks, unless that was done before (specification, §6, logging). -/
def setup (o : LoggingOptions) : EStateM SetupError Logging Unit := do
  unless (← get).configured do
    -- configured from here on, even if a sink cannot be opened
    modify fun l => { l with configured := true, sinks := [] }
    unless o.suppressConsole.getD ((← get).flag machineModeVariable) do openConsole o.level
    if o.enableFile.getD ((← get).flag fileLoggingVariable) then openLog

/-- Let a further set-up count. -/
def reset (l : Logging) : Logging := { l with configured := false }

/-- The number of lines that a message takes. -/
def lineCount (message : String) : Nat := message.toList.count '\n' + 1

/-- Send a message to one sink, if the message's level reaches the sink's. -/
def writeTo (e : Entry) (l : Logging) : Sink → Logging
  | .console level =>
    if level.rank ≤ e.level.rank then
      { l with consoleLines := l.consoleLines + lineCount e.message }
    else l
  | .file level path =>
    if level.rank ≤ e.level.rank then
      { l with messages := l.messages.upsert path.names fun old => old.getD [] ++ [e.message] }
    else l

/-- Send a message to the sinks. -/
def write (l : Logging) (e : Entry) : Logging := l.sinks.foldl (writeTo e) l

/-- The log files under the current directory with their messages, in the order of their paths as
texts. -/
def logFiles (l : Logging) : List (Path × List String) :=
  let found := (l.tree.files.keys.filterMap Path.ofNames?).filter fun p => p.liesIn l.tree.current
  (found.mergeSort fun a b => decide (a.text ≤ b.text)).map fun p =>
    (p, l.messages.findD p.names [])

end Logging

end Blueprint
