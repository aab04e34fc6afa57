import Blueprint.Json.Decoder
import Blueprint.Json.Writer

/-!
# Strings read back

A character of a string stands as it is, after a backslash, or as one or two codes. The reader tells
these forms apart by what comes first.

- `Json.unicodeUnit_hexDigits`: the four digits of a code.
- `Json.unicodeEscape_unit`, `Json.unicodeEscape_pair`: a character of one code, and of two.
- `Json.stringBody_stringChar`, `Json.string_stringChars`: characters and strings read back.
-/

namespace Blueprint.Json

/-! ## Codes -/

theorem hexDigits_succ {width : Nat} (hwidth : 0 < width) (n : Nat) :
    Text.hexDigits (width + 1) n =
      Text.hexDigits width (n / 16) ++ [(n % 16).digitChar] := by
  simp only [Text.hexDigits]
  by_cases hn : n < 16
  · obtain ⟨w, rfl⟩ : ∃ w, width = w + 1 := ⟨width - 1, by omega⟩
    rw [Nat.toDigits_of_lt_base hn, Nat.div_eq_of_lt hn, Nat.toDigits_zero, Nat.mod_eq_of_lt hn]
    simp [List.replicate_succ']
  · rw [Nat.toDigits_of_base_le (by decide) (by omega), List.length_append, List.length_singleton,
      Nat.add_sub_add_right]
    simp

theorem hexValue?_digitChar {d : Nat} (h : d < 16) : hexValue? d.digitChar = some d := by
  have hall : ∀ d < 16, hexValue? d.digitChar = some d := by decide
  exact hall d h

/-- The four digits of an escape read back. -/
theorem unicodeUnit_hexDigits {n : Nat} (h : n < 0x10000) (c : Char) (rest : List Char) :
    unicodeUnit (Text.hexDigits 4 n ++ c :: rest) = .ok (n, c :: rest) := by
  have hone : Text.hexDigits 1 (n / 16 / 16 / 16) = [(n / 16 / 16 / 16).digitChar] := by
    rw [Text.hexDigits, Nat.toDigits_of_lt_base (by omega)]
    rfl
  -- digit by digit from the end
  rw [hexDigits_succ (by decide), hexDigits_succ (by decide), hexDigits_succ (by decide), hone]
  simp only [List.cons_append, List.nil_append, unicodeUnit, hexUnit?]
  rw [hexValue?_digitChar (by omega), hexValue?_digitChar (by omega),
    hexValue?_digitChar (by omega), hexValue?_digitChar (by omega)]
  simp
  omega

/-- The code of a character is not half of a pair. -/
theorem not_isHalf_toNat (c : Char) : isHighHalf c.toNat = false ∧ isLowHalf c.toNat = false := by
  have hvalid : c.toNat < 0xd800 ∨ 0xdfff < c.toNat ∧ c.toNat < 0x110000 := c.valid
  simp only [isHighHalf, isLowHalf, Bool.and_eq_false_iff, decide_eq_false_iff_not]
  omega

variable {cs rest : List Char} {n high low : Nat}

theorem unicodeEscape_unit (hunit : unicodeUnit cs = .ok (n, rest)) (hn : isHighHalf n = false) :
    unicodeEscape cs = .ok (unitChar n, rest) := by
  simp only [unicodeEscape, hunit, bind, Except.bind, hn, Bool.false_and, Bool.false_eq_true,
    if_false]
  split <;> rfl

theorem unicodeEscape_pair {more : List Char}
    (hunit : unicodeUnit cs = .ok (high, '\\' :: 'u' :: more)) (hhigh : isHighHalf high = true)
    (hlength : 4 < more.length) (hmore : unicodeUnit more = .ok (low, rest))
    (hlow : isLowHalf low = true) : unicodeEscape cs = .ok (pairChar high low, rest) := by
  have hlong : 6 < ('\\' :: 'u' :: more).length := by
    simp only [List.length_cons]
    omega
  simp only [unicodeEscape, hunit, bind, Except.bind, hhigh, hlong, decide_true, Bool.and_self,
    if_true, hmore, hlow]

/-! ## Characters and strings -/

variable (quoteLeft bound : Nat) (acc : List Char)

theorem stringBody_unicodeEscape {c : Char} (h : unicodeEscape cs = .ok (c, rest)) :
    stringBody quoteLeft (bound + 1) acc ('\\' :: 'u' :: cs) =
      stringBody quoteLeft bound (c :: acc) rest := by
  show (unicodeEscape cs >>= fun p => stringBody quoteLeft bound (p.1 :: acc) p.2) = _
  rw [h]
  rfl

/-- **A character reads back**, however it is written. -/
theorem stringBody_stringChar (c : Char) {x : Char} {rest : List Char} :
    stringBody quoteLeft (bound + 1) acc (stringChar c ++ x :: rest) =
      stringBody quoteLeft bound (c :: acc) (x :: rest) := by
  obtain ⟨hhigh, hlow⟩ := not_isHalf_toNat c
  unfold stringChar
  split
  · next hc =>
    subst hc
    rfl
  split
  · next hc =>
    subst hc
    rfl
  split
  · next hquote hbackslash hprintable =>
    rw [Bool.and_eq_true, decide_eq_true_eq] at hprintable
    rw [List.cons_append, List.nil_append, stringBody, if_neg (Nat.not_lt.2 hprintable.1)]
    · exact hquote
    · exact hbackslash
  split
  · next hshort =>
    have hchar : unitChar c.toNat = c := by
      rw [unitChar, hhigh, hlow]
      exact Char.ofNat_toNat c
    have hescape := unicodeEscape_unit (unicodeUnit_hexDigits hshort x rest) hhigh
    rw [hchar] at hescape
    exact stringBody_unicodeEscape quoteLeft bound acc hescape
  · next hlong =>
    -- twenty bits beyond the first plane, ten for each half of the pair
    have hvalid : c.toNat < 0xd800 ∨ 0xdfff < c.toNat ∧ c.toNat < 0x110000 := c.valid
    obtain ⟨n, hn⟩ : ∃ n, c.toNat = n + 0x10000 := ⟨c.toNat - 0x10000, by omega⟩
    have hchar : pairChar (0xd800 + n / 0x400) (0xdc00 + n % 0x400) = c := by
      rw [pairChar, show 0x10000 + (0xd800 + n / 0x400 - 0xd800) * 0x400 +
        (0xdc00 + n % 0x400 - 0xdc00) = c.toNat by omega]
      exact Char.ofNat_toNat c
    simp only [hn, Nat.add_sub_cancel, unitEscape, List.append_assoc, List.cons_append]
    have hhigh : isHighHalf (0xd800 + n / 0x400) = true := by
      simp only [isHighHalf, Bool.and_eq_true, decide_eq_true_eq]
      omega
    have hlow : isLowHalf (0xdc00 + n % 0x400) = true := by
      simp only [isLowHalf, Bool.and_eq_true, decide_eq_true_eq]
      omega
    have hescape := unicodeEscape_pair (unicodeUnit_hexDigits (by omega) _ _) hhigh
      (by simp [Text.hexDigits]; omega) (unicodeUnit_hexDigits (by omega) x rest) hlow
    rw [hchar] at hescape
    exact stringBody_unicodeEscape quoteLeft bound acc hescape

theorem length_flatMap_stringChar (cs : List Char) :
    cs.length ≤ (cs.flatMap stringChar).length := by
  induction cs with
  | nil => exact Nat.le_refl 0
  | cons c cs ih =>
    have hpos : 0 < (stringChar c).length := by
      unfold stringChar
      grind [unitEscape]
    rw [List.flatMap_cons, List.length_append, List.length_cons]
    omega

/-- The characters of a string read back one after the other. -/
theorem stringBody_flatMap {cs : List Char} (hbound : cs.length < bound) :
    stringBody quoteLeft bound acc (cs.flatMap stringChar ++ '"' :: rest) =
      .ok (acc.reverse ++ cs, rest) := by
  induction cs generalizing bound acc with
  | nil =>
    obtain ⟨b, rfl⟩ : ∃ b, bound = b + 1 := ⟨bound - 1, by simp at hbound; omega⟩
    rw [List.append_nil]
    rfl
  | cons c cs ih =>
    obtain ⟨b, rfl⟩ : ∃ b, bound = b + 1 := ⟨bound - 1, by simp at hbound; omega⟩
    obtain ⟨x, more, hmore⟩ : ∃ x more, cs.flatMap stringChar ++ '"' :: rest = x :: more :=
      List.exists_cons_of_ne_nil (by simp)
    rw [List.flatMap_cons, List.append_assoc, hmore, stringBody_stringChar, ← hmore,
      ih b (c :: acc) (by simpa using hbound)]
    simp

/-- A string reads back from what follows its opening quote. -/
theorem string_stringChars (s : String) :
    string (s.toList.flatMap stringChar ++ '"' :: rest) = .ok (s, rest) := by
  have hlength := length_flatMap_stringChar s.toList
  rw [string, stringBody_flatMap _ _ _ (by rw [List.length_append]; omega)]
  show Except.ok (String.ofList s.toList, rest) = _
  rw [String.ofList_toList]

end Blueprint.Json
