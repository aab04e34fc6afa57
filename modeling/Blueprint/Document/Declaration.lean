import Blueprint.Document.Clause

/-!
# Declarations and documents

A document is a list of items. Systems and components hold items again; every other declaration is a
`Construct`. What is not a declaration is an include directive, a comment, a line that could not be
parsed, or a fragment that has no place among declarations. This is the data model of the
specification (§3).

- `Construct`: the sixteen kinds of declaration that hold no items.
- `Item`: an item. The head of a system or a component is what it declares besides its items.
- `Document`: a parsed file, or several merged into one.
-/

namespace Blueprint

/-! ## Constructs -/

/-- Entities, events and signals: named lists of fields. -/
structure Structured where
  loc : Location
  name : String
  parent : Option String
  interfaces : List String
  decorators : List Decorator
  fields : List Field

/-- Secrets and deployment nodes: a name with decorators. -/
structure Named where
  loc : Location
  name : String
  decorators : List Decorator

/-- A dependency on something outside. -/
structure Dependency where
  loc : Location
  target : String
  decorators : List Decorator

/-- An element of the user interface. -/
structure Element where
  loc : Location
  name : String
  parent : Option String
  interfaces : List String
  decorators : List Decorator
  body : List ElementItem

/-- An enumeration. -/
structure Enumeration where
  loc : Location
  name : String
  decorators : List Decorator
  values : List EnumValue

/-- A flow of steps. -/
structure Flow where
  loc : Location
  name : String
  parent : Option String
  interfaces : List String
  params : List TypeExpr
  returnType : Option TypeExpr
  decorators : List Decorator
  body : List FlowItem

/-- A state machine over the values of an enumeration. -/
structure StateMachine where
  loc : Location
  name : String
  enumRef : String
  decorators : List Decorator
  transitions : List Transition
  comments : List Comment

/-- The styles of an API. -/
inductive ApiStyle where
  | rest
  | graphQL
  | gRPC
deriving DecidableEq

instance : Literal ApiStyle where
  all := [.rest, .graphQL, .gRPC]
  label
    | .rest => "REST"
    | .graphQL => "GraphQL"
    | .gRPC => "gRPC"

/-- An API and its endpoints. -/
structure Api where
  loc : Location
  name : Option String
  style : ApiStyle
  decorators : List Decorator
  endpoints : List Endpoint
  comments : List Comment

/-- A business rule. -/
structure Rule where
  loc : Location
  name : String
  decorators : List Decorator
  body : List RuleItem

/-- A screen of the user interface. -/
structure Screen where
  loc : Location
  name : String
  parent : Option String
  interfaces : List String
  decorators : List Decorator
  body : List ScreenItem

/-- A journey through screens. -/
structure Journey where
  loc : Location
  name : String
  decorators : List Decorator
  body : List JourneyItem

/-- An operation. -/
structure Operation where
  loc : Location
  name : String
  params : List TypeExpr
  returnType : Option TypeExpr
  decorators : List Decorator
  body : List OperationItem

/-- An action of a user. -/
structure Action where
  loc : Location
  name : String
  params : List TypeExpr
  decorators : List Decorator
  body : List ActionItem

/-- A declaration that holds no further declarations. -/
inductive Construct where
  | dependency (decl : Dependency)
  | secret (decl : Named)
  | node (decl : Named)
  | element (decl : Element)
  | entity (decl : Structured)
  | enumeration (decl : Enumeration)
  | flow (decl : Flow)
  | state (decl : StateMachine)
  | event (decl : Structured)
  | signal (decl : Structured)
  | api (decl : Api)
  | rule (decl : Rule)
  | screen (decl : Screen)
  | journey (decl : Journey)
  | operation (decl : Operation)
  | action (decl : Action)

/-- The decorators of a construct. -/
def Construct.decorators : Construct → List Decorator
  | dependency d => d.decorators
  | secret d => d.decorators
  | node d => d.decorators
  | element d => d.decorators
  | entity d => d.decorators
  | enumeration d => d.decorators
  | flow d => d.decorators
  | state d => d.decorators
  | event d => d.decorators
  | signal d => d.decorators
  | api d => d.decorators
  | rule d => d.decorators
  | screen d => d.decorators
  | journey d => d.decorators
  | operation d => d.decorators
  | action d => d.decorators

/-! ## Items -/

/-- What a system declares besides its items. -/
structure SystemHead where
  loc : Location
  name : String
  decorators : List Decorator

/-- What a component declares besides its items. -/
structure ComponentHead where
  loc : Location
  name : String
  parent : Option String
  interfaces : List String
  decorators : List Decorator

/-- A directive to put the content of another file in its place. -/
structure Inclusion where
  loc : Location
  path : String

/-- A line that could not be parsed, and the construct it stands in. -/
structure Unparsed where
  loc : Location
  raw : String
  context : String

/-- A node that belongs inside a declaration and was found among declarations. -/
structure Fragment where
  typeName : String
  decorators : List Decorator

/-- An item of a document, a system or a component. -/
inductive Item where
  | system (head : SystemHead) (body : List Item)
  | component (head : ComponentHead) (body : List Item)
  | construct (decl : Construct)
  | inclusion (directive : Inclusion)
  | comment (text : Comment)
  | unparsed (line : Unparsed)
  | fragment (part : Fragment)

/-- The decorators of an item. -/
def Item.decorators : Item → List Decorator
  | system head _ => head.decorators
  | component head _ => head.decorators
  | construct decl => decl.decorators
  | fragment part => part.decorators
  | _ => []

/-- A parsed file, or several merged into one. -/
structure Document where
  loc : Location := none
  body : List Item := []

end Blueprint
