import Blueprint.Json.Basic

/-!
# Writing JSON texts

`Json.render` writes a value in ASCII: every other character of a string is given by the code of
its UTF-16 units. Numbers are written so that they read back as the same value.
-/

namespace Blueprint.Json

/-- An escape by code. -/
def unitEscape (n : Nat) : List Char := '\\' :: 'u' :: Text.hexDigits 4 n

/-- A character inside a string. -/
def stringChar (c : Char) : List Char :=
  if c = '"' then ['\\', '"']
  else if c = '\\' then ['\\', '\\']
  else if 0x20 ≤ c.toNat && c.toNat < 0x7f then [c]
  else if c.toNat < 0x10000 then unitEscape c.toNat
  else
    let n := c.toNat - 0x10000
    unitEscape (0xd800 + n / 0x400) ++ unitEscape (0xdc00 + n % 0x400)

/-- A string in quotes. -/
def stringChars (s : String) : List Char := '"' :: s.toList.flatMap stringChar ++ ['"']

/-- A number that is not given as a whole number. -/
def floatChars : Binary64 → List Char
  | .nan => "NaN".toList
  | .infinity false => "Infinity".toList
  | .infinity true => "-Infinity".toList
  | x => x.chars .standard

mutual

/-- The characters of a value. -/
def chars : Json → List Char
  | null => "null".toList
  | bool true => "true".toList
  | bool false => "false".toList
  | int n => (toString n).toList
  | float x => floatChars x
  | str s => stringChars s
  | arr [] => ['[', ']']
  | arr (v :: rest) => '[' :: chars v ++ itemChars rest
  | obj [] => ['{', '}']
  | obj ((k, v) :: rest) => '{' :: stringChars k ++ ':' :: chars v ++ memberChars rest

/-- The characters of the further elements of an array and its end. -/
def itemChars : List Json → List Char
  | [] => [']']
  | v :: rest => ',' :: chars v ++ itemChars rest

/-- The characters of the further members of an object and its end. -/
def memberChars : List (String × Json) → List Char
  | [] => ['}']
  | (k, v) :: rest => ',' :: stringChars k ++ ':' :: chars v ++ memberChars rest

end

/-- The text of a value. -/
def render (v : Json) : String := String.ofList v.chars

end Blueprint.Json
