import Blueprint.Text.Template.Error

/-!
# Pieces of templates

- `Template.Field`: what stands between a pair of braces.
- `Template.scan`: the pieces of a template, up to the first fault of its braces.
- `Template.fault?`: that fault.
-/

namespace Blueprint.Text.Template

/-- A field: its name with the steps after it, a conversion, and a format. -/
structure Field where
  name : List Char
  conversion : Option Char := none
  format : List Char := []

/-- A part of a template. Nothing follows a fault. -/
inductive Piece where
  | literal (c : Char)
  | field (f : Field)
  | fault (e : Error)

/-- Where the reader of a template is; within a field, with what was read of its part, last
character first. -/
inductive Place where
  | outside
  | name (read : List Char)
  | index (read : List Char)
  | conversion (name : List Char)
  | afterConversion (name : List Char) (c : Char)
  /-- In a format, with so many inner braces open. -/
  | format (name : List Char) (c : Option Char) (read : List Char) (depth : Nat)

/-- The pieces of a template from a place on. -/
def scan : List Char → Place → List Piece
  | [], .outside => []
  | [], .name _ => [.fault .openField]
  | [], .index _ => [.fault .openField]
  | [], .conversion _ => [.fault .noConversion]
  | [], .afterConversion _ _ => [.fault .openFormat]
  | [], .format _ _ _ _ => [.fault .openFormat]
  | '{' :: '{' :: rest, .outside => .literal '{' :: scan rest .outside
  | ['{'], .outside => [.fault .loneOpening]
  | '{' :: rest, .outside => scan rest (.name [])
  | '}' :: '}' :: rest, .outside => .literal '}' :: scan rest .outside
  | '}' :: _, .outside => [.fault .loneClosing]
  | c :: rest, .outside => .literal c :: scan rest .outside
  | c :: rest, .name read =>
    if c = '{' then [.fault .braceInName]
    else if c = '}' then .field ⟨read.reverse, none, []⟩ :: scan rest .outside
    else if c = ':' then scan rest (.format read none [] 0)
    else if c = '!' then scan rest (.conversion read)
    -- up to the closing bracket no character means anything
    else if c = '[' then scan rest (.index (c :: read))
    else scan rest (.name (c :: read))
  | c :: rest, .index read =>
    scan rest (if c = ']' then .name (c :: read) else .index (c :: read))
  | c :: rest, .conversion name => scan rest (.afterConversion name c)
  | c :: rest, .afterConversion name conversion =>
    if c = '}' then .field ⟨name.reverse, some conversion, []⟩ :: scan rest .outside
    else if c = ':' then scan rest (.format name (some conversion) [] 0)
    else [.fault .noColon]
  | c :: rest, .format name conversion read depth =>
    if c = '{' then scan rest (.format name conversion (c :: read) (depth + 1))
    else if c = '}' then
      match depth with
      | 0 => .field ⟨name.reverse, conversion, read.reverse⟩ :: scan rest .outside
      | depth + 1 => scan rest (.format name conversion (c :: read) depth)
    else scan rest (.format name conversion (c :: read) depth)

/-- The fault among pieces. -/
def fault? : List Piece → Option Error
  | [] => none
  | .fault e :: _ => some e
  | _ :: rest => fault? rest

end Blueprint.Text.Template
