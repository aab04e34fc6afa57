import Mathlib.Data.List.TakeWhile
import Blueprint.Text.Search

/-!
# Texts without their ends

Blanks around a text, slashes at the end of a path and the first word of a clause are found by going
through characters as long as they are in a class. What comes of it is told here by the parts into
which the text falls: the part that is kept, and what stands before and after it.

- `Text.dropWhile_eq_iff`, `Text.dropEndWhile_eq_iff`: what is left without one end.
- `Text.Strips`, `Text.strips_iff`: what is left without blanks at either end.
- `Text.Calls`, `Text.calls_iff`: the name with which a text begins.
-/

namespace Blueprint.Text

variable {p : Char → Bool} {cs core : List Char}

/-! ## One end -/

/-- Without its first characters of a class, a text begins with a character outside it. -/
theorem dropWhile_eq_iff :
    cs.dropWhile p = core ↔
      ∃ before, cs = before ++ core ∧ (∀ c ∈ before, p c = true) ∧
        ∀ c ∈ core.head?, p c = false := by
  constructor
  · rintro rfl
    refine ⟨cs.takeWhile p, List.takeWhile_append_dropWhile.symm,
      fun c hc => List.mem_takeWhile_imp hc, fun c hc => ?_⟩
    have hnot := List.head?_dropWhile_not p cs
    rw [Option.mem_def.1 hc] at hnot
    exact hnot
  · rintro ⟨before, rfl, hbefore, hcore⟩
    rw [List.dropWhile_append_of_pos hbefore]
    cases core with
    | nil => rfl
    | cons c rest => rw [List.dropWhile_cons_of_neg (by simp [hcore c rfl])]

/-- Without its last characters of a class, a text ends with a character outside it. -/
theorem dropEndWhile_eq_iff :
    dropEndWhile p cs = core ↔
      ∃ after, cs = core ++ after ∧ (∀ c ∈ after, p c = true) ∧
        ∀ c ∈ core.getLast?, p c = false := by
  rw [dropEndWhile, List.reverse_eq_iff, dropWhile_eq_iff]
  constructor
  · rintro ⟨before, hcs, hbefore, hcore⟩
    refine ⟨before.reverse, ?_, fun c hc => hbefore c (List.mem_reverse.1 hc), ?_⟩
    · rw [← List.reverse_reverse cs, hcs, List.reverse_append, List.reverse_reverse]
    · rwa [List.head?_reverse] at hcore
  · rintro ⟨after, rfl, hafter, hcore⟩
    refine ⟨after.reverse, List.reverse_append, fun c hc => hafter c (List.mem_reverse.1 hc), ?_⟩
    rwa [List.head?_reverse]

/-- What stands before the last characters of a class does not depend on how many there are. -/
theorem dropEndWhile_append_of_all {after : List Char} (h : ∀ c ∈ after, p c = true) :
    dropEndWhile p (cs ++ after) = dropEndWhile p cs := by
  have hafter : ∀ c ∈ after.reverse, p c = true := fun c hc => h c (List.mem_reverse.1 hc)
  rw [dropEndWhile, List.reverse_append, List.dropWhile_append_of_pos hafter, dropEndWhile]

/-- The first characters of a class end before a character outside it. -/
theorem takeWhile_eq_iff {word : List Char} :
    cs.takeWhile p = word ↔
      (∀ c ∈ word, p c = true) ∧ ∃ rest, cs = word ++ rest ∧ ∀ c ∈ rest.head?, p c = false := by
  constructor
  · rintro rfl
    obtain ⟨-, -, -, hrest⟩ := dropWhile_eq_iff.1 (Eq.refl (cs.dropWhile p))
    exact ⟨fun c hc => List.mem_takeWhile_imp hc, cs.dropWhile p,
      List.takeWhile_append_dropWhile.symm, hrest⟩
  · rintro ⟨hword, rest, rfl, hrest⟩
    rw [List.takeWhile_append_of_pos hword]
    cases rest with
    | nil => rw [List.takeWhile_nil, List.append_nil]
    | cons c rest => rw [List.takeWhile_cons_of_neg (by simp [hrest c rfl]), List.append_nil]

/-! ## Both ends -/

/-- A text without the blanks around it: blanks stand before and after what is left, which neither
begins nor ends with one. -/
def Strips (text : String) (core : List Char) : Prop :=
  ∃ before after, text.toList = before ++ core ++ after ∧
    (∀ c ∈ before ++ after, isBlank c = true) ∧
    (∀ c ∈ core.head?, isBlank c = false) ∧ ∀ c ∈ core.getLast?, isBlank c = false

theorem strips_iff {text : String} : Strips text core ↔ trimWhile isBlank text.toList = core := by
  rw [trimWhile, dropEndWhile_eq_iff]
  constructor
  · rintro ⟨before, after, htext, hblank, hhead, hlast⟩
    rw [List.forall_mem_append] at hblank
    cases core with
    | nil =>
      -- a text of blanks is used up from the front, and nothing is left for the end
      have hall : text.toList.dropWhile isBlank = [] := by
        rw [List.dropWhile_eq_nil_iff, htext, List.append_nil]
        exact List.forall_mem_append.2 hblank
      exact ⟨[], hall, fun _ hc => absurd hc List.not_mem_nil, hlast⟩
    | cons c rest =>
      refine ⟨after, ?_, hblank.2, hlast⟩
      exact dropWhile_eq_iff.2 ⟨before, by rw [htext, List.append_assoc], hblank.1, hhead⟩
  · rintro ⟨after, hdrop, hafter, hlast⟩
    obtain ⟨before, htext, hbefore, hhead⟩ := dropWhile_eq_iff.1 hdrop
    refine ⟨before, after, by rw [htext, List.append_assoc],
      List.forall_mem_append.2 ⟨hbefore, hafter⟩, fun c hc => ?_, hlast⟩
    -- what is left begins as it did before its end was dropped
    refine hhead c ?_
    rw [List.head?_append, Option.mem_def.1 hc]
    rfl

/-! ## First words -/

/-- Whether a text begins with a name, blanks before it apart: no blank and no opening bracket is in
the name, and one of them or the end of the text follows it. -/
def Calls (text name : String) : Prop :=
  ∃ core rest, Strips text core ∧ core = name.toList ++ rest ∧
    (∀ c ∈ name.toList, isBlank c = false ∧ c ≠ '(') ∧
    ∀ c ∈ rest.head?, isBlank c = true ∨ c = '('

theorem endsWord_iff {c : Char} : endsWord c = true ↔ isBlank c = true ∨ c = '(' := by
  simp [endsWord]

/-- The first word of a text is the name with which it begins. -/
theorem calls_iff {text name : String} : Calls text name ↔ firstWord text = name := by
  have hword : firstWord text = name ↔
      (trimWhile isBlank text.toList).takeWhile (fun c => !endsWord c) = name.toList := by
    rw [firstWord, ← String.toList_inj, String.toList_ofList]
  rw [hword, takeWhile_eq_iff]
  constructor
  · rintro ⟨core, rest, hcore, rfl, hname, hrest⟩
    refine ⟨fun c hc => ?_, rest, strips_iff.1 hcore, fun c hc => ?_⟩
    · obtain ⟨hblank, hbracket⟩ := hname c hc
      simp [endsWord, hblank, hbracket]
    · rw [Bool.not_eq_false', endsWord_iff]
      exact hrest c hc
  · rintro ⟨hname, rest, hcore, hrest⟩
    refine ⟨_, rest, strips_iff.2 rfl, hcore, fun c hc => ?_, fun c hc => ?_⟩
    · simpa [endsWord] using hname c hc
    · have hends := hrest c hc
      rwa [Bool.not_eq_false', endsWord_iff] at hends

end Blueprint.Text
