import Blueprint.Document.Basic

/-!
# Bodies of declarations

The lines that stand inside the declarations of a model: properties, forms and uses of elements,
steps of flows and journeys, transitions, endpoints, and the clauses of rules, operations and
actions. Each kind of body has a type of its items; a comment may stand in every body. The items are
those of the data model in the specification (§3).
-/

namespace Blueprint

/-! ## Parts -/

/-- A property of an element. -/
structure Property where
  loc : Location
  name : String
  type : TypeExpr
  decorators : List Decorator

/-- A form of an element or a screen. -/
structure Form where
  loc : Location
  name : Option String
  fields : List Field

/-- The use of an element by a screen. -/
structure ElementUse where
  loc : Location
  element : String
  label : String
  decorators : List Decorator

/-- A value of an enumeration. -/
structure EnumValue where
  loc : Location
  name : String

/-- One way on from a step of a flow. -/
structure Branch where
  loc : Location
  condition : String
  action : String

/-- A step of a flow. -/
structure FlowStep where
  loc : Location
  hasArrow : Bool
  action : String
  args : Option String
  decorators : List Decorator
  branches : List Branch

/-- A step that replaces one of the flow it extends. -/
structure OverrideStep where
  loc : Location
  target : String
  action : String
  args : Option String
  decorators : List Decorator

/-- A clause that names an event. -/
structure EventClause where
  loc : Location
  event : String

/-- A clause that names a rule. -/
structure RuleClause where
  loc : Location
  rule : String

/-- A clause that names an endpoint. -/
structure EndpointClause where
  loc : Location
  method : String
  path : String

/-- A clause that names a signal. -/
structure SignalClause where
  loc : Location
  signal : String

/-- A transition of a state machine. -/
structure Transition where
  loc : Location
  source : String
  target : String
  event : Option String
  decorators : List Decorator

/-- A step of a journey between screens. -/
structure JourneyStep where
  loc : Location
  source : String
  target : String
  trigger : String
  decorators : List Decorator

/-- Where an action leads for one of its outcomes. -/
structure ActionResult where
  loc : Location
  outcome : String
  screen : String
  decorators : List Decorator

/-! ## Endpoints -/

/-- The methods of an endpoint. -/
inductive HttpMethod where
  | get
  | post
  | put
  | delete
  | patch
  | stream
deriving DecidableEq

instance : Literal HttpMethod where
  all := [.get, .post, .put, .delete, .patch, .stream]
  label
    | .get => "GET"
    | .post => "POST"
    | .put => "PUT"
    | .delete => "DELETE"
    | .patch => "PATCH"
    | .stream => "STREAM"

/-- An endpoint of an API, written on one line or with sections of its own. -/
inductive Endpoint where
  | simple (loc : Location) (method : HttpMethod) (path : String)
      (input output : Option TypeExpr) (decorators : List Decorator)
  | expanded (loc : Location) (method : HttpMethod) (path : String)
      (input output query : Option TypeExpr) (decorators : List Decorator)

namespace Endpoint

/-- The method of an endpoint. -/
def method : Endpoint → HttpMethod
  | simple _ method .. => method
  | expanded _ method .. => method

/-- The path of an endpoint, relative to its API. -/
def path : Endpoint → String
  | simple _ _ path .. => path
  | expanded _ _ path .. => path

/-- The type of what an endpoint takes. -/
def input : Endpoint → Option TypeExpr
  | simple _ _ _ input .. => input
  | expanded _ _ _ input .. => input

/-- The type of what an endpoint gives back. -/
def output : Endpoint → Option TypeExpr
  | simple _ _ _ _ output _ => output
  | expanded _ _ _ _ output .. => output

/-- The decorators of an endpoint. -/
def decorators : Endpoint → List Decorator
  | simple _ _ _ _ _ decorators => decorators
  | expanded _ _ _ _ _ _ decorators => decorators

/-- The names that the types of an endpoint refer to, first its input's. -/
def refs (e : Endpoint) : List String := TypeExpr.refsOfAll [e.input, e.output]

end Endpoint

/-! ## Bodies -/

/-- An item of an element's body. -/
inductive ElementItem where
  | property (item : Property)
  | form (item : Form)
  | comment (item : Comment)

/-- An item of a screen's body. -/
inductive ScreenItem where
  | use (item : ElementUse)
  | form (item : Form)
  | comment (item : Comment)

/-- An item of a flow's body. -/
inductive FlowItem where
  | step (item : FlowStep)
  | override (item : OverrideStep)
  | reacts (item : EventClause)
  | emits (item : EventClause)
  | handles (item : EndpointClause)
  | comment (item : Comment)

/-- An item of a rule's body. -/
inductive RuleItem where
  | condition (loc : Location) (expression : String)
  | consequence (loc : Location) (action : String)
  | otherwiseIf (loc : Location) (condition action : String)
  | otherwise (loc : Location) (action : String)
  | comment (item : Comment)

/-- An item of a journey's body. -/
inductive JourneyItem where
  | step (item : JourneyStep)
  | comment (item : Comment)

/-- An item of an operation's body. -/
inductive OperationItem where
  | handles (item : EndpointClause)
  | calls (item : EndpointClause)
  | emits (item : EventClause)
  | reacts (item : EventClause)
  | enforces (item : RuleClause)
  | comment (item : Comment)

/-- An item of an action's body. -/
inductive ActionItem where
  | startsFrom (loc : Location) (screen : String)
  | calls (item : EndpointClause)
  | streams (loc : Location) (path : String)
  | listens (item : SignalClause)
  | emits (item : SignalClause)
  | result (item : ActionResult)
  | comment (item : Comment)

/-! ## Free text -/

/-- The text of a step: its action and its arguments. -/
def stepText (action : String) (args : Option String) : String := action ++ " " ++ args.getD ""

/-- The text of a flow's item, if it is a step. -/
def FlowItem.text? : FlowItem → Option String
  | step s => some (stepText s.action s.args)
  | override s => some (stepText s.action s.args)
  | _ => none

/-- The texts that are not empty, with a space between them. -/
def joinTexts (texts : List String) : String := " ".intercalate (texts.filter fun t => t ≠ "")

/-- The text of a rule's item, if it is a clause. -/
def RuleItem.text? : RuleItem → Option String
  | condition _ expression => some expression
  | consequence _ action => some action
  | otherwiseIf _ premise action => some (joinTexts [premise, action])
  | otherwise _ action => some action
  | comment _ => none

/-! ## Decorators of items -/

/-- The decorators of an item of an element. -/
def ElementItem.decorators : ElementItem → List Decorator
  | property p => p.decorators
  | _ => []

/-- The decorators of an item of a screen. -/
def ScreenItem.decorators : ScreenItem → List Decorator
  | use u => u.decorators
  | _ => []

/-- The decorators of an item of a flow. -/
def FlowItem.decorators : FlowItem → List Decorator
  | step s => s.decorators
  | override s => s.decorators
  | _ => []

/-- The decorators of an item of a journey. -/
def JourneyItem.decorators : JourneyItem → List Decorator
  | step s => s.decorators
  | comment _ => []

/-- The decorators of an item of an action. -/
def ActionItem.decorators : ActionItem → List Decorator
  | result r => r.decorators
  | _ => []

end Blueprint
