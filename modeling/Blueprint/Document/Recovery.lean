import Blueprint.Document.Declaration

/-!
# Lines that could not be parsed

A parser that recovers from errors keeps the lines it did not understand among the items. The
specification lists and strips them at the parser boundary (§4).

- `Document.unparsedLines`: those lines, in order.
- `Document.withoutUnparsed`: the document without them.
-/

namespace Blueprint

namespace Item

mutual

/-- The lines that could not be parsed in an item. -/
def unparsedIn : Item → List Unparsed
  | unparsed line => [line]
  | system _ body => unparsedInAll body
  | component _ body => unparsedInAll body
  | _ => []

/-- The lines that could not be parsed in a list of items. -/
def unparsedInAll : List Item → List Unparsed
  | [] => []
  | i :: rest => unparsedIn i ++ unparsedInAll rest

end

mutual

/-- An item without the lines that could not be parsed, if anything is left of it. -/
def strip : Item → List Item
  | unparsed _ => []
  | system head body => [system head (stripAll body)]
  | component head body => [component head (stripAll body)]
  | i => [i]

/-- Items without the lines that could not be parsed. -/
def stripAll : List Item → List Item
  | [] => []
  | i :: rest => strip i ++ stripAll rest

end

end Item

namespace Document

/-- The lines of a document that could not be parsed. -/
def unparsedLines (d : Document) : List Unparsed := Item.unparsedInAll d.body

/-- The document without the lines that could not be parsed. -/
def withoutUnparsed (d : Document) : Document := { d with body := Item.stripAll d.body }

end Document

end Blueprint
