/-!
# Splitting text

`split` cuts a list of characters at every occurrence of a separator, and `splitText` does it for a
text. The parts hold the separator no more.
-/

namespace Blueprint.Text

/-- The parts between the occurrences of a character. -/
def split (separator : Char) : List Char → List (List Char)
  | [] => [[]]
  | c :: rest =>
    if c = separator then [] :: split separator rest
    else match split separator rest with
      | [] => [[c]]
      | w :: ws => (c :: w) :: ws

/-- No part of a cut text holds the character that the text is cut at. -/
theorem not_mem_of_mem_split {separator : Char} {cs part : List Char}
    (h : part ∈ split separator cs) : separator ∉ part := by
  induction cs generalizing part with
  | nil =>
    rw [List.mem_singleton.1 h]
    exact List.not_mem_nil
  | cons c rest ih =>
    unfold split at h
    split at h
    · rcases List.mem_cons.1 h with rfl | h
      · exact List.not_mem_nil
      · exact ih h
    · next hc =>
      split at h
      · rw [List.mem_singleton.1 h, List.mem_singleton]
        exact Ne.symm hc
      · next first others hsplit =>
        -- the character goes to the first part, the other parts are those of the rest
        rcases List.mem_cons.1 h with rfl | h
        · rw [List.mem_cons, not_or]
          exact ⟨Ne.symm hc, ih (hsplit ▸ List.mem_cons_self)⟩
        · exact ih (hsplit ▸ List.mem_cons_of_mem first h)

/-- The parts of a text between the occurrences of a character. -/
def splitText (separator : Char) (s : String) : List String :=
  (split separator s.toList).map String.ofList

theorem not_mem_of_mem_splitText {separator : Char} {s part : String}
    (h : part ∈ splitText separator s) : separator ∉ part.toList := by
  obtain ⟨cs, hcs, rfl⟩ := List.mem_map.1 h
  rw [String.toList_ofList]
  exact not_mem_of_mem_split hcs

end Blueprint.Text
