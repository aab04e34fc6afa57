import Blueprint.Document.Recovery
import Blueprint.Proofs.Resolution.Conservation

/-!
# Documents without the lines that could not be parsed

Two walks go over a document: one lists the lines that could not be parsed, the other one copies all
the rest. They divide the document between them. Whatever one walk passes over the other one takes,
at every depth and in the order of the document.

- `Interleaves`: a list is made up of two others, each in its order.
- `Item.interleaves_preorder`, `Item.interleaves_preorderAll`: what the two walks take from an item
  and from a list of items.
- `Item.unparsedInAll_stripAll`, `Item.stripAll_eq_self`: nothing is left to strip after stripping,
  and nothing is lost where there is nothing to strip.
- `Document.withoutUnparsed_exact`: stripping a document against listing its lines.
-/

namespace Blueprint

/-! ## Interleavings -/

/-- The third list is made up of the other two, each of them in its order. -/
inductive Interleaves {α : Type} : List α → List α → List α → Prop
  | nil : Interleaves [] [] []
  | left (x : α) {xs ys zs : List α} : Interleaves xs ys zs → Interleaves (x :: xs) ys (x :: zs)
  | right (y : α) {xs ys zs : List α} : Interleaves xs ys zs → Interleaves xs (y :: ys) (y :: zs)

theorem Interleaves.append {α : Type} {xs ys zs xs' ys' zs' : List α} (h : Interleaves xs ys zs)
    (h' : Interleaves xs' ys' zs') : Interleaves (xs ++ xs') (ys ++ ys') (zs ++ zs') := by
  induction h with
  | nil => exact h'
  | left x _ ih => exact ih.left x
  | right y _ ih => exact ih.right y

namespace Item

/-! ## What stripping leaves -/

theorem unparsedInAll_append (items items' : List Item) :
    unparsedInAll (items ++ items') = unparsedInAll items ++ unparsedInAll items' := by
  induction items with
  | nil => rfl
  | cons i rest ih => rw [List.cons_append, unparsedInAll, ih, unparsedInAll, List.append_assoc]

mutual

theorem unparsedInAll_strip (i : Item) : unparsedInAll i.strip = [] := by
  cases i with
  | system head body =>
    rw [strip, unparsedInAll, unparsedIn, unparsedInAll_stripAll body]
    rfl
  | component head body =>
    rw [strip, unparsedInAll, unparsedIn, unparsedInAll_stripAll body]
    rfl
  | _ => rfl

/-- **No line that could not be parsed is left after stripping.** -/
theorem unparsedInAll_stripAll (items : List Item) : unparsedInAll (stripAll items) = [] := by
  cases items with
  | nil => rfl
  | cons i rest =>
    rw [stripAll, unparsedInAll_append, unparsedInAll_strip i, unparsedInAll_stripAll rest]
    rfl

end

mutual

theorem strip_eq_self {i : Item} (h : i.unparsedIn = []) : i.strip = [i] := by
  cases i with
  | system head body =>
    have hbody : unparsedInAll body = [] := h
    rw [strip, stripAll_eq_self hbody]
  | component head body =>
    have hbody : unparsedInAll body = [] := h
    rw [strip, stripAll_eq_self hbody]
  | unparsed line => cases h
  | _ => rfl

/-- **Items without such lines stay as they are.** -/
theorem stripAll_eq_self {items : List Item} (h : unparsedInAll items = []) :
    stripAll items = items := by
  cases items with
  | nil => rfl
  | cons i rest =>
    rw [unparsedInAll, List.append_eq_nil_iff] at h
    rw [stripAll, strip_eq_self h.1, stripAll_eq_self h.2, List.singleton_append]

end

/-! ## The two walks -/

mutual

theorem interleaves_preorder (i : Item) :
    Interleaves ((preorderAll i.strip).map shell) (i.unparsedIn.map unparsed)
      (i.preorder.map shell) := by
  cases i with
  | system head body =>
    rw [strip, preorderAll, preorder, preorderAll, List.append_nil]
    exact (interleaves_preorderAll body).left (system head [])
  | component head body =>
    rw [strip, preorderAll, preorder, preorderAll, List.append_nil]
    -- the shells of the two containers are equal, whatever is left in them
    exact (interleaves_preorderAll body).left (component head [])
  | unparsed line => exact .right _ .nil
  | _ => exact .left _ .nil

/-- **The walk over items takes what is left of them and the lines that are listed**, each in its
order. -/
theorem interleaves_preorderAll (items : List Item) :
    Interleaves ((preorderAll (stripAll items)).map shell) ((unparsedInAll items).map unparsed)
      ((preorderAll items).map shell) := by
  cases items with
  | nil => exact .nil
  | cons i rest =>
    rw [stripAll, preorderAll_append, unparsedInAll, preorderAll, List.map_append, List.map_append,
      List.map_append]
    exact (interleaves_preorder i).append (interleaves_preorderAll rest)

end

end Item

namespace Document

theorem withoutUnparsed_eq_self_iff (d : Document) :
    d.withoutUnparsed = d ↔ d.unparsedLines = [] := by
  constructor
  · intro h
    rw [← h]
    exact Item.unparsedInAll_stripAll d.body
  · intro h
    rw [withoutUnparsed, Item.stripAll_eq_self h]

/-- **Stripping takes away what is listed and nothing else.** A stripped document has no lines that
could not be parsed, stripping it again changes nothing, and a document is what is left of it
exactly when it has no such lines. A walk over the document meets what a walk over the stripped
document meets and the lines that are listed, both in their order. Containers count with what they
declare besides their items. -/
theorem withoutUnparsed_exact (d : Document) :
    d.withoutUnparsed.unparsedLines = [] ∧
    d.withoutUnparsed.withoutUnparsed = d.withoutUnparsed ∧
    (d.withoutUnparsed = d ↔ d.unparsedLines = []) ∧
    Interleaves (d.withoutUnparsed.preorder.map Item.shell) (d.unparsedLines.map Item.unparsed)
      (d.preorder.map Item.shell) := by
  have hnone : d.withoutUnparsed.unparsedLines = [] := Item.unparsedInAll_stripAll d.body
  exact ⟨hnone, (withoutUnparsed_eq_self_iff _).2 hnone, withoutUnparsed_eq_self_iff d,
    Item.interleaves_preorderAll d.body⟩

end Document

end Blueprint
