import Blueprint.Moment.Pattern
import Blueprint.Text.Layout.Basic

/-!
# Errors of templates

`Template.Error` says why a template stands for no text: its braces do not match, a field names
something that there is not, or what it names cannot be written as asked.
-/

namespace Blueprint.Text.Template

/-- Why a template stands for no text. -/
inductive Error where
  | loneOpening
  | loneClosing
  | openField
  | braceInName
  | noConversion
  | noColon
  | openFormat
  | position
  | oversizedPosition
  | unknownName (name : String)
  | emptyStep
  | strayStep
  | noPart (label name : String)
  | noPartOfKind (label name : String)
  | noEntries (label : String)
  | noEntriesOfKind (label : String)
  | entryByName (reason : String)
  | entryBeyondEnd (label : String)
  | noEntry (shown : String)
  | noFormat (label : String)
  | unknownConversion (c : Char)
  | tooDeep
  | layout (error : LayoutError)
  | pattern (error : Moment.PatternError)

/-- A conversion in the wording of an error: itself if it is plain, else its code. -/
def codedChar (c : Char) : String := if c.toNat = 127 then "\\x7f" else namedChar c

/-- The wording of an error. -/
def Error.message : Error → String
  | loneOpening => "Single '\x7b' encountered in format string"
  | loneClosing => "Single '\x7d' encountered in format string"
  | openField => "expected '\x7d' before end of string"
  | braceInName => "unexpected '\x7b' in field name"
  | noConversion => "end of string while looking for conversion specifier"
  | noColon => "expected ':' after conversion specifier"
  | openFormat => "unmatched '\x7b' in format spec"
  | position => "Format string contains positional fields"
  | oversizedPosition => "Too many decimal digits in format string"
  | unknownName name => quoted name
  | emptyStep => "Empty attribute in format string"
  | strayStep => "Only '.' or '[' may follow ']' in format field specifier"
  | noPart label name => "'" ++ label ++ "' object has no attribute '" ++ name ++ "'"
  | noPartOfKind label name => "type object '" ++ label ++ "' has no attribute '" ++ name ++ "'"
  | noEntries label => "'" ++ label ++ "' object is not subscriptable"
  | noEntriesOfKind label => "type '" ++ label ++ "' is not subscriptable"
  | entryByName reason => reason
  | entryBeyondEnd label => label ++ " index out of range"
  | noEntry shown => shown
  | noFormat label => "unsupported format string passed to " ++ label ++ ".__format__"
  | unknownConversion c => "Unknown conversion specifier " ++ codedChar c
  | tooDeep => "Max string recursion exceeded"
  | layout error => error.message
  | pattern error => error.message

end Blueprint.Text.Template
