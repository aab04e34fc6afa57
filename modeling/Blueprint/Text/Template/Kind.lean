/-!
# Kinds of values in templates

Every value that a template can reach is of a kind, and a template can ask for the kind as well.

- `Template.Kind`: the kinds, with `Kind.title` for their names and `Kind.description?` for the text
  that explains them.
- `Template.Kind.above`: the kinds that a kind is a special case of.
-/

namespace Blueprint.Text.Template

/-- The kinds of values. -/
inductive Kind where
  | clock
  | zonedMoment
  | moment
  | date
  | span
  | fixedZone
  | zone
  | number
  | text
  | nothing
  | kind
  | row
  | record
  | any
deriving DecidableEq

namespace Kind

/-- Where a kind belongs, and its name there. -/
def title : Kind → String × String
  | clock => ("loguru._file_sink", "FileDateFormatter")
  | zonedMoment => ("loguru._datetime", "datetime")
  | moment => ("datetime", "datetime")
  | date => ("datetime", "date")
  | span => ("datetime", "timedelta")
  | fixedZone => ("datetime", "timezone")
  | zone => ("datetime", "tzinfo")
  | number => ("builtins", "int")
  | text => ("builtins", "str")
  | nothing => ("builtins", "NoneType")
  | kind => ("builtins", "type")
  | row => ("builtins", "tuple")
  | record => ("builtins", "dict")
  | any => ("builtins", "object")

/-- A kind as errors name it. -/
def label (k : Kind) : String :=
  if k.title.1 = "datetime" then k.title.1 ++ "." ++ k.title.2 else k.title.2

/-- A kind as text. -/
def shown (k : Kind) : String :=
  let home := if k.title.1 = "builtins" then "" else k.title.1 ++ "."
  "<class '" ++ home ++ k.title.2 ++ "'>"

/-- The kinds that a kind is a special case of, the nearest first. -/
def above : Kind → List Kind
  | zonedMoment => [moment, date, any]
  | moment => [date, any]
  | fixedZone => [zone, any]
  | any => []
  | _ => [any]

/-- The description that comes with a kind. -/
def description? : Kind → Option String
  | moment => some (
    "datetime(year, month, day[, hour[, minute[, second[, microsecond[,tzinfo]]]]])\n\n" ++
    "The year, month and day arguments are required. tzinfo may be None, or an\n" ++
    "instance of a tzinfo subclass. The remaining arguments may be ints.\n")
  | date => some (
    "date(year, month, day) --> date object")
  | span => some (
    "Difference between two datetime values.\n\n" ++
    "timedelta(days=0, seconds=0, microseconds=0, milliseconds=0, minutes=0, hours=0, weeks=0)\n" ++
    "\nAll arguments are optional and default to 0.\n" ++
    "Arguments may be integers or floats, and may be positive or negative.")
  | fixedZone => some (
    "Fixed offset from UTC implementation of tzinfo.")
  | zone => some (
    "Abstract base class for time zone info objects.")
  | number => some (
    "int([x]) -> integer\nint(x, base=10) -> integer\n\n" ++
    "Convert a number or string to an integer, or return 0 if no arguments\n" ++
    "are given.  If x is a number, return x.__int__().  For floating point\n" ++
    "numbers, this truncates towards zero.\n\n" ++
    "If x is not a number or if base is given, then x must be a string,\n" ++
    "bytes, or bytearray instance representing an integer literal in the\n" ++
    "given base.  The literal can be preceded by '+' or '-' and be surrounded\n" ++
    "by whitespace.  The base defaults to 10.  Valid bases are 0 and 2-36.\n" ++
    "Base 0 means to interpret the base from the string as an integer literal.\n" ++
    ">>> int('0b100', base=0)\n4")
  | text => some (
    "str(object='') -> str\nstr(bytes_or_buffer[, encoding[, errors]]) -> str\n\n" ++
    "Create a new string object from the given object. If encoding or\n" ++
    "errors is specified, then the object must expose a data buffer\n" ++
    "that will be decoded using the given encoding and error handler.\n" ++
    "Otherwise, returns the result of object.__str__() (if defined)\nor repr(object).\n" ++
    "encoding defaults to sys.getdefaultencoding().\nerrors defaults to 'strict'.")
  | kind => some (
    "type(object) -> the object's type\ntype(name, bases, dict, **kwds) -> a new type")
  | row => some (
    "Built-in immutable sequence.\n\n" ++
    "If no argument is given, the constructor returns an empty tuple.\n" ++
    "If iterable is specified the tuple is initialized from iterable's items.\n\n" ++
    "If the argument is a tuple, the return value is the same object.")
  | record => some (
    "dict() -> new empty dictionary\n" ++
    "dict(mapping) -> new dictionary initialized from a mapping object's\n" ++
    "    (key, value) pairs\ndict(iterable) -> new dictionary initialized as if via:\n" ++
    "    d = \x7b\x7d\n    for k, v in iterable:\n        d[k] = v\n" ++
    "dict(**kwargs) -> new dictionary initialized with the name=value pairs\n" ++
    "    in the keyword argument list.  For example:  dict(one=1, two=2)")
  | any => some (
    "The base class of the class hierarchy.\n\n" ++
    "When called, it accepts no arguments and returns a new featureless\n" ++
    "instance that has no instance attributes and cannot be given any.\n")
  | _ => none

end Kind

end Blueprint.Text.Template
