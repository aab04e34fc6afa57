import Blueprint.Text.Blank

/-!
# Finding names in text

Free text mentions a construct when the construct's name occurs in it as a run of characters;
the empty name occurs everywhere. The operation that an action text calls is its first word.

- `occursIn`, `mentions`: the occurrence test, on characters and on texts.
- `occursIn_iff`: it is the infix relation on lists.
- `firstWord`: what stands before the first blank or opening bracket.
-/

namespace Blueprint.Text

/-- Whether a run of characters occurs in a text. -/
def occursIn (name : List Char) : List Char → Bool
  | [] => name.isEmpty
  | c :: rest => name.isPrefixOf (c :: rest) || occursIn name rest

theorem occursIn_iff {name text : List Char} : occursIn name text = true ↔ name <:+: text := by
  induction text with
  | nil => simp [occursIn]
  | cons c rest ih => simp [occursIn, ih, List.infix_cons_iff]

/-- Whether a name occurs in a text. -/
def mentions (text name : String) : Bool := occursIn name.toList text.toList

theorem mentions_iff {text name : String} :
    mentions text name = true ↔ name.toList <:+: text.toList := occursIn_iff

/-- Whether a text begins with another. -/
def beginsWith (text start : String) : Bool := start.toList.isPrefixOf text.toList

/-- Whether a text ends with another. -/
def finishesWith (text finish : String) : Bool := finish.toList.isSuffixOf text.toList

/-- The characters that end the name of a called operation. -/
def endsWord (c : Char) : Bool := isBlank c || c = '('

/-- The first word of a text: blanks around the text do not count, and the word ends at a blank
or an opening bracket. -/
def firstWord (text : String) : String :=
  String.ofList ((trimWhile isBlank text.toList).takeWhile fun c => !endsWord c)

end Blueprint.Text
