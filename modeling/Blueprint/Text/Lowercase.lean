import Blueprint.Text.CaseTable

/-!
# Lowercase text

Full lowercasing: every character is replaced by its lowercase form, the dotted capital I by two
characters, and a capital sigma by its final form where it ends a word.

- `lowerChar`: the form of a character by itself.
- `endsCasedWord`: where a capital sigma is final. A cased letter stands before it and none after
  it, looking past case-ignorable characters on either side.
- `lowercase`: the text.
-/

namespace Blueprint.Text

/-- The lowercase form of a character, leaving aside its surroundings. -/
def lowerChar (c : Char) : List Char :=
  if c = 'İ' then ['i', Char.ofNat 0x307]
  else match lowercaseRuns.findSome? fun r => r.image? c.toNat with
    | some n => [Char.ofNat n]
    | none => [c]

/-- Whether the first character that is not case-ignorable is a cased letter. -/
def meetsCased (cs : List Char) : Bool :=
  ((cs.dropWhile caseIgnorableRanges.contains).head?.map casedRanges.contains).getD false

/-- Whether a letter with these characters before it (last first) and after it ends a word. -/
def endsCasedWord (before after : List Char) : Bool := meetsCased before && !meetsCased after

/-- Lowercase characters that follow the given ones, which are listed last first. -/
def lowerChars (before : List Char) : List Char → List Char
  | [] => []
  | c :: rest =>
    -- the one character whose form depends on those around it
    (if c = 'Σ' then [if endsCasedWord before rest then 'ς' else 'σ'] else lowerChar c) ++
      lowerChars (c :: before) rest

/-- The lowercase form of a text. -/
def lowercase (s : String) : String := String.ofList (lowerChars [] s.toList)

end Blueprint.Text
