import Blueprint.Text.CaseTable

/-!
# Uppercase text

Simple uppercasing: every character is replaced by one character. It undoes lowercasing, apart from
a few characters: those that share a capital with another one, and the sharp s, which stays.

- `upperChar`: the uppercase form of a character.
- `uppercase`: the text.
-/

namespace Blueprint.Text

/-- Characters whose capital does not follow from the lowercase forms. -/
def ownCapitals : List (Char × Char) :=
  [('µ', 'Μ'), ('ß', 'ß'), ('ı', 'I'), ('ſ', 'S'), ('ǅ', 'Ǆ'), ('ǈ', 'Ǉ'), ('ǋ', 'Ǌ'), ('ǲ', 'Ǳ'),
   (Char.ofNat 0x345, 'Ι'), ('ς', 'Σ'), ('ϐ', 'Β'), ('ϑ', 'Θ'), ('ϕ', 'Φ'), ('ϖ', 'Π'), ('ϰ', 'Κ'),
   ('ϱ', 'Ρ'), ('ϵ', 'Ε'), ('ᲀ', 'В'), ('ᲁ', 'Д'), ('ᲂ', 'О'), ('ᲃ', 'С'), ('ᲄ', 'Т'), ('ᲅ', 'Т'),
   ('ᲆ', 'Ъ'), ('ᲇ', 'Ѣ'), ('ᲈ', 'Ꙋ'), ('ẛ', 'Ṡ'), (Char.ofNat 0x1fbe, 'Ι')]

/-- The point of a run with the given image. -/
def Run.source? (r : Run) (n : Nat) : Option Nat :=
  let m := (n - r.shift).toNat
  if r.image? m = some n then some m else none

/-- The uppercase form of a character. -/
def upperChar (c : Char) : Char :=
  match ownCapitals.lookup c with
  | some capital => capital
  | none =>
    match lowercaseRuns.findSome? fun r => r.source? c.toNat with
    | some n => Char.ofNat n
    | none => c

/-- The uppercase form of a text. -/
def uppercase (cs : List Char) : List Char := cs.map upperChar

end Blueprint.Text
