import Blueprint.Text.CodePoints

/-!
# Blank characters

Two classes of blanks occur. Words of an action text are divided at `isBlank` characters, which
include the four information separators; a number given as text may be surrounded by `isSpace`
characters only, the white space of Unicode.
-/

namespace Blueprint.Text

/-- White space as the Unicode character database has it. -/
def spaceRanges : Ranges :=
  [(0x9, 0xd), (0x20, 0x20), (0x85, 0x85), (0xa0, 0xa0), (0x1680, 0x1680), (0x2000, 0x200a),
   (0x2028, 0x2029), (0x202f, 0x202f), (0x205f, 0x205f), (0x3000, 0x3000)]

/-- Whether a character is white space. -/
def isSpace (c : Char) : Bool := spaceRanges.contains c

/-- Whether a character divides words: white space or an information separator. -/
def isBlank (c : Char) : Bool := isSpace c || (0x1c ≤ c.toNat && c.toNat ≤ 0x1f)

/-- A text without its last characters as long as they are in a class. -/
def dropEndWhile (p : Char → Bool) (cs : List Char) : List Char :=
  (cs.reverse.dropWhile p).reverse

/-- A text without the characters of a class at either end. -/
def trimWhile (p : Char → Bool) (cs : List Char) : List Char :=
  dropEndWhile p (cs.dropWhile p)

end Blueprint.Text
