import Blueprint.Text.Layout.Basic

/-!
# The layout of texts

`Layout.arrange` lays out a text. Layouts are shared with numbers, so more can be asked for than
goes with a text.
-/

namespace Blueprint.Text.Layout

/-- What does not go with a text. -/
def misfit? (l : Layout) : Option LayoutError :=
  if l.kind ≠ 's' then some (.unknownKind l.kind LayoutSubject.text.label)
  else if l.sign = some ' ' then some .spaceOnText
  else if l.sign.isSome then some .signOnText
  else if l.negativeZero then some .negativeZeroOnText
  else if l.alternate then some .alternateOnText
  else if l.align = '=' then some .signAlignmentOnText
  else none

/-- As much of a text as the precision allows. -/
def cut (l : Layout) (cs : List Char) : List Char :=
  match l.precision with
  | some n => cs.take n
  | none => cs

/-- Lay out a text. -/
def arrange (spec text : String) : Except LayoutError String := do
  if spec = "" then return text
  let l ← parse .text spec
  match l.misfit? with
  | some e => throw e
  | none => return String.ofList (l.surround (l.cut text.toList))

end Blueprint.Text.Layout
