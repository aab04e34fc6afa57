/-!
# UTF-8

Strict decoding of bytes. The first invalid part is reported with its place and the reason: it is
the longest start of a valid sequence, and at least one byte.

- `Utf8.encode`: the bytes of a text.
- `Utf8.decode`: the text of bytes, or the first error.
- `Utf8.unifyNewlines`: every kind of line end as a line feed.
-/

namespace Blueprint.Utf8

/-- Why bytes are not UTF-8. -/
inductive Reason where
  | startByte
  | continuationByte
  | endOfData
deriving DecidableEq

/-- The wording of a reason. -/
def Reason.message : Reason → String
  | startByte => "invalid start byte"
  | continuationByte => "invalid continuation byte"
  | endOfData => "unexpected end of data"

/-- The first invalid part: where it starts, how many bytes it has, its first byte. -/
structure Invalid where
  start : Nat
  size : Nat
  lead : Nat
  reason : Reason
deriving DecidableEq

/-- The wording of an error. -/
def Invalid.message (e : Invalid) : String :=
  let hex := Nat.toDigits 16 e.lead
  let part :=
    if e.size = 1 then
      "byte 0x" ++ String.ofList (List.replicate (2 - hex.length) '0' ++ hex) ++
        s!" in position {e.start}"
    else s!"bytes in position {e.start}-{e.start + e.size - 1}"
  "'utf-8' codec can't decode " ++ part ++ ": " ++ e.reason.message

/-- The bytes of a text. -/
def encode (s : String) : List UInt8 := s.toList.flatMap String.utf8EncodeChar

/-- Whether a byte continues a sequence. -/
def isContinuation (b : Nat) : Bool := 0x80 ≤ b && b < 0xc0

/-- Whether a byte can follow the first byte of a sequence of three: no longer form than needed,
and no half of a pair. -/
def isSecondOfThree (a b : Nat) : Bool :=
  isContinuation b && !(a = 0xe0 && b < 0xa0) && !(a = 0xed && 0xa0 ≤ b)

/-- Whether a byte can follow the first byte of a sequence of four: no longer form than needed, and
no code point beyond the last. -/
def isSecondOfFour (a b : Nat) : Bool :=
  isContinuation b && !(a = 0xf0 && b < 0x90) && !(a = 0xf4 && 0x90 ≤ b)

/-- The characters of bytes, the first of which stands at the given place. -/
def decodeFrom (place : Nat) : List Nat → Except Invalid (List Char)
  | [] => .ok []
  | a :: rest =>
    if a < 0x80 then (decodeFrom (place + 1) rest).map (Char.ofNat a :: ·)
    -- continuations, forms that are too long, and what lies beyond the last code point
    else if a < 0xc2 || 0xf4 < a then .error ⟨place, 1, a, .startByte⟩
    else match rest with
      | [] => .error ⟨place, 1, a, .endOfData⟩
      | b :: rest =>
        if a < 0xe0 then
          if isContinuation b then
            (decodeFrom (place + 2) rest).map (Char.ofNat ((a - 0xc0) * 0x40 + (b - 0x80)) :: ·)
          else .error ⟨place, 1, a, .continuationByte⟩
        -- the second byte decides whether there is such a code point at all
        else if !(if a < 0xf0 then isSecondOfThree a b else isSecondOfFour a b) then
          .error ⟨place, 1, a, .continuationByte⟩
        else match rest with
          | [] => .error ⟨place, 2, a, .endOfData⟩
          | c :: rest =>
            if !isContinuation c then .error ⟨place, 2, a, .continuationByte⟩
            else if a < 0xf0 then
              (decodeFrom (place + 3) rest).map
                (Char.ofNat (((a - 0xe0) * 0x40 + (b - 0x80)) * 0x40 + (c - 0x80)) :: ·)
            else match rest with
              | [] => .error ⟨place, 3, a, .endOfData⟩
              | d :: rest =>
                if !isContinuation d then .error ⟨place, 3, a, .continuationByte⟩
                else
                  (decodeFrom (place + 4) rest).map
                    (Char.ofNat
                      ((((a - 0xf0) * 0x40 + (b - 0x80)) * 0x40 + (c - 0x80)) * 0x40 + (d - 0x80))
                      :: ·)

/-- The text of bytes. -/
def decode (bytes : List UInt8) : Except Invalid String :=
  (decodeFrom 0 (bytes.map UInt8.toNat)).map String.ofList

/-- Characters with every kind of line end as a line feed. -/
def unifyNewlineChars : List Char → List Char
  | [] => []
  | '\r' :: '\n' :: rest => '\n' :: unifyNewlineChars rest
  | '\r' :: rest => '\n' :: unifyNewlineChars rest
  | c :: rest => c :: unifyNewlineChars rest

/-- A text with every kind of line end as a line feed. -/
def unifyNewlines (s : String) : String := String.ofList (unifyNewlineChars s.toList)

end Blueprint.Utf8
