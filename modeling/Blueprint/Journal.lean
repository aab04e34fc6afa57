/-!
# Journals

What the stages of an analysis have to tell along the way: messages with a level, in order. Which
level goes with what is said in the specification (§6, Logging).
-/

namespace Blueprint

/-- How much a message matters, least first. -/
inductive Level where
  | trace
  | debug
  | info
  | success
  | warning
  | error
  | critical
deriving DecidableEq

namespace Level

/-- The levels, least first. -/
def all : List Level := [trace, debug, info, success, warning, error, critical]

/-- The name of a level. -/
def label : Level → String
  | trace => "TRACE"
  | debug => "DEBUG"
  | info => "INFO"
  | success => "SUCCESS"
  | warning => "WARNING"
  | error => "ERROR"
  | critical => "CRITICAL"

/-- The place of a level in the order. -/
def rank : Level → Nat
  | trace => 0
  | debug => 1
  | info => 2
  | success => 3
  | warning => 4
  | error => 5
  | critical => 6

/-- The level with a name. -/
def ofLabel? (name : String) : Option Level := all.find? fun l => l.label = name

end Level

/-- A message. -/
structure Entry where
  level : Level
  message : String
deriving DecidableEq

/-- Messages in order. -/
abbrev Journal := List Entry

namespace Entry

/-- A message of interest to those who look closely. -/
def debug (message : String) : Entry := ⟨.debug, message⟩

/-- A message about the course of things. -/
def info (message : String) : Entry := ⟨.info, message⟩

/-- A message about something doubtful. -/
def warning (message : String) : Entry := ⟨.warning, message⟩

end Entry

end Blueprint
