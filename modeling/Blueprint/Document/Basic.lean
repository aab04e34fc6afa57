import Blueprint.Number.Shortest
import Blueprint.Schema

/-!
# Leaves of a document

What every declaration of a model is made of: places in a source file, decorators, comments, type
expressions and fields. They are the leaves of the data model in the specification (§3).

- `SourceRange`: where a node stands.
- `Decorator`, `decoratorText`: `@name(value, …)`, and the text of the first value of a decorator.
- `TypeExpr`, `Field`: type expressions, which may hold fields again.
-/

namespace Blueprint

/-- A place in a source file. -/
structure Position where
  line : Int
  column : Int
  offset : Int := 0
  source : Option String := none

/-- A stretch of a source file. -/
structure SourceRange where
  start : Position
  stop : Position

/-- Where a node stands, if that is known. -/
abbrev Location := Option SourceRange

/-! ## Decorators -/

/-- What the parameter of a decorator is. -/
inductive ParamKind where
  | string
  | number
  | identifier
  | duration
  | rate
deriving DecidableEq

instance : Literal ParamKind where
  all := [.string, .number, .identifier, .duration, .rate]
  label
    | .string => "string"
    | .number => "number"
    | .identifier => "identifier"
    | .duration => "duration"
    | .rate => "rate"

/-- The value of a parameter. -/
inductive Scalar where
  | int (value : Int)
  | float (value : Binary64)
  | text (value : String)

/-- The text that a parameter's value stands for. -/
def Scalar.toText : Scalar → String
  | int n => toString n
  | float x => x.text
  | text s => s

/-- A parameter of a decorator. -/
structure Param where
  kind : ParamKind
  value : Scalar
  unit : Option String

/-- A decorator: `@name(value, …)`. -/
structure Decorator where
  loc : Location
  name : String
  params : List Param

/-- The text of the first parameter of the first decorator with a name. -/
def decoratorText (decorators : List Decorator) (name : String) : Option String :=
  match decorators.find? fun d => d.name = name with
  | some d => d.params.head?.map fun p => p.value.toText
  | none => none

/-! ## Comments -/

/-- A comment that is part of the model. -/
structure Comment where
  loc : Location
  text : String

/-! ## Type expressions -/

/-- The built-in types. -/
inductive Primitive where
  | string
  | number
  | boolean
  | date
  | datetime
  | uuid
  | void
deriving DecidableEq

instance : Literal Primitive where
  all := [.string, .number, .boolean, .date, .datetime, .uuid, .void]
  label
    | .string => "string"
    | .number => "number"
    | .boolean => "boolean"
    | .date => "date"
    | .datetime => "datetime"
    | .uuid => "uuid"
    | .void => "void"

/-- A named, typed field; `τ` is what stands for its type. -/
structure FieldOf (τ : Type) where
  loc : Location
  name : String
  type : τ
  decorators : List Decorator

/-- A type expression. -/
inductive TypeExpr where
  | primitive (loc : Location) (name : Primitive)
  | reference (loc : Location) (name : String)
  | optional (loc : Location) (inner : TypeExpr)
  | array (loc : Location) (inner : TypeExpr)
  | union (loc : Location) (alternatives : List TypeExpr)
  | object (loc : Location) (fields : List (FieldOf TypeExpr))

/-- A field of an entity, an event, a signal or a form. -/
abbrev Field := FieldOf TypeExpr

namespace TypeExpr

mutual

/-- The names a type expression refers to, from left to right and with repetitions. Built-in types
and inline objects refer to nothing (specification, §3, type-reference extraction). -/
def refs : TypeExpr → List String
  | primitive _ _ => []
  | reference _ name => [name]
  | optional _ inner => refs inner
  | array _ inner => refs inner
  | union _ alternatives => refsOfList alternatives
  | object _ _ => []

/-- The names that the expressions of a list refer to. -/
def refsOfList : List TypeExpr → List String
  | [] => []
  | t :: rest => refs t ++ refsOfList rest

end

/-- The names that a list of expressions refers to are those of its members. -/
theorem refsOfList_eq_flatMap (ts : List TypeExpr) : refsOfList ts = ts.flatMap refs := by
  induction ts with
  | nil => rfl
  | cons t ts ih => simp [refsOfList, ih]

/-- The names that expressions, where there are any, refer to. -/
def refsOfAll (ts : List (Option TypeExpr)) : List String :=
  ts.flatMap fun t => (t.map refs).getD []

end TypeExpr

end Blueprint
