import Blueprint.Document.Declaration

/-!
# Reading documents from JSON

A document is exchanged as a JSON value: every node is an object whose `type` names what it is. Keys
are in camel case; keys of several words are also accepted in snake case. Members that are not known
are passed over, missing ones take their default. The format is the one that the specification has
for interchange (§3, §4).

- `TypeExpr.read`: type expressions, nested at most as deeply as a bound.
- `Construct.variants`, `Item.topLevel`, `Item.inComponent`, `Item.inSystem`: what may stand where.
- `Document.read`: the reader of a whole document.
- `Item.readAs`, `Item.readTyped`: a node of any type read as an item, whether it may stand there or
  not. The type is given, or it is the one that the node names.
-/

namespace Blueprint

open Schema

/-! ## Leaves -/

/-- A place in a source file. -/
def Position.read : Reader Position := object "SourceLocation" fun m => do
  let line ← required m "line" integer
  let column ← required m "column" integer
  let offset ← defaulted m "offset" integer 0
  let source ← nullable m "source" string
  return { line, column, offset, source }

/-- A stretch of a source file. -/
def SourceRange.read : Reader SourceRange := object "SourceRange" fun m => do
  let start ← required m "start" Position.read
  let stop ← required m "end" Position.read
  return { start, stop }

/-- A node: its location and its type come before its other members. -/
def readNode {α : Type} (typeName : String) (read : Members → Location → Except Mismatch α) :
    Reader α :=
  object typeName fun m => do
    let loc ← nullable m "loc" SourceRange.read
    hasType m typeName
    read m loc

/-- A node as an alternative of a union. -/
def nodeVariant {α : Type} (typeName : String) (read : Members → Location → Except Mismatch α) :
    Variant α :=
  ⟨typeName, readNode typeName read⟩

/-- The value of a parameter. Truth values count as 1 and 0. -/
def Scalar.read : Reader Scalar
  | .int n => .ok (int n)
  | .bool b => .ok (int (if b then 1 else 0))
  | .float x => .ok (float x)
  | .str s => .ok (text s)
  -- of the alternatives that fail, the first one is reported
  | _ => within (.tag "int") (fail .notInteger)

/-- A parameter of a decorator. -/
def Param.read : Reader Param := object "DecoratorValue" fun m => do
  let kind ← required m "kind" literal
  let value ← required m "value" Scalar.read
  let unit ← nullable m "unit" string
  return { kind, value, unit }

/-- A decorator. -/
def Decorator.variant : Variant Decorator := nodeVariant "Decorator" fun m loc => do
  let name ← required m "name" string
  let params ← items m "params" Param.read
  return { loc, name, params }

/-- The decorators of a node. -/
def readDecorators (m : Members) : Except Mismatch (List Decorator) :=
  items m "decorators" Decorator.variant.read

/-- A comment. -/
def Comment.variant : Variant Comment := nodeVariant "SemanticComment" fun m loc => do
  let text ← required m "text" string
  return { loc, text }

/-! ## Type expressions -/

/-- A field whose type is read by the given reader. -/
def Field.variant (type : Reader TypeExpr) : Variant Field :=
  nodeVariant "FieldDecl" fun m loc => do
    let name ← required m "name" string
    let type ← required m "fieldType" type (some "field_type")
    let decorators ← readDecorators m
    return { loc, name, type, decorators }

/-- The forms of a type expression, whose parts are read by the given reader. -/
def TypeExpr.variants (inner : Reader TypeExpr) : List (Variant TypeExpr) :=
  [ nodeVariant "PrimitiveType" fun m loc => return .primitive loc (← required m "name" literal),
    nodeVariant "ReferenceType" fun m loc => return .reference loc (← required m "name" string),
    nodeVariant "OptionalType" fun m loc => return .optional loc (← required m "inner" inner),
    nodeVariant "ArrayType" fun m loc => return .array loc (← required m "inner" inner),
    nodeVariant "UnionType" fun m loc => return .union loc (← items m "alternatives" inner),
    nodeVariant "InlineObjectType" fun m loc =>
      return .object loc (← items m "fields" (Field.variant inner).read) ]

/-- A type expression nested at most as deeply as the bound. A value of depth zero does not exist,
so the first case is met only when the bound is too small. -/
def TypeExpr.read : Nat → Reader TypeExpr
  | 0 => fun _ => fail .notTagged
  | bound + 1 => tagged (TypeExpr.variants (TypeExpr.read bound))

/-! ## Parts of bodies -/

section

variable (type : Reader TypeExpr)

/-- A property of an element. -/
def Property.variant : Variant Property := nodeVariant "PropDecl" fun m loc => do
  let name ← required m "name" string
  let type ← required m "propType" type (some "prop_type")
  let decorators ← readDecorators m
  return { loc, name, type, decorators }

/-- A form. -/
def Form.variant : Variant Form := nodeVariant "FormDecl" fun m loc => do
  let name ← nullable m "name" string
  let fields ← items m "fields" (Field.variant type).read
  return { loc, name, fields }

/-- The use of an element. -/
def ElementUse.variant : Variant ElementUse := nodeVariant "UsesDecl" fun m loc => do
  let element ← required m "element" string
  let label ← defaulted m "alias" string ""
  let decorators ← readDecorators m
  return { loc, element, label, decorators }

/-- A value of an enumeration. -/
def EnumValue.variant : Variant EnumValue := nodeVariant "EnumValue" fun m loc => do
  let name ← required m "name" string
  return { loc, name }

/-- A branch of a step. -/
def Branch.variant : Variant Branch := nodeVariant "FlowBranch" fun m loc => do
  let condition ← required m "condition" string
  let action ← required m "action" string
  return { loc, condition, action }

/-- A step of a flow. -/
def FlowStep.variant : Variant FlowStep := nodeVariant "FlowStep" fun m loc => do
  let hasArrow ← defaulted m "hasArrow" boolean true (some "has_arrow")
  let action ← required m "action" string
  let args ← nullable m "args" string
  let decorators ← readDecorators m
  let branches ← items m "branches" Branch.variant.read
  return { loc, hasArrow, action, args, decorators, branches }

/-- A step that replaces another. -/
def OverrideStep.variant : Variant OverrideStep := nodeVariant "FlowOverrideStep" fun m loc => do
  let target ← required m "target" string
  let action ← required m "action" string
  let args ← nullable m "args" string
  let decorators ← readDecorators m
  return { loc, target, action, args, decorators }

/-- A clause that names an event, under the given type. -/
def EventClause.variant (typeName : String) : Variant EventClause :=
  nodeVariant typeName fun m loc => do
    let event ← required m "event" string
    return { loc, event }

/-- A clause that names a rule. -/
def RuleClause.variant : Variant RuleClause := nodeVariant "EnforcesClause" fun m loc => do
  let rule ← required m "rule" string
  return { loc, rule }

/-- A clause that names an endpoint, under the given type. -/
def EndpointClause.variant (typeName : String) : Variant EndpointClause :=
  nodeVariant typeName fun m loc => do
    let method ← required m "method" string
    let path ← required m "path" string
    return { loc, method, path }

/-- A clause that names a signal, under the given type. -/
def SignalClause.variant (typeName : String) : Variant SignalClause :=
  nodeVariant typeName fun m loc => do
    let signal ← required m "signal" string
    return { loc, signal }

/-- A transition of a state machine. -/
def Transition.variant : Variant Transition := nodeVariant "StateTransition" fun m loc => do
  let source ← required m "from" string (some "from_")
  let target ← required m "to" string
  let event ← nullable m "event" string
  let decorators ← readDecorators m
  return { loc, source, target, event, decorators }

/-- A step of a journey. -/
def JourneyStep.variant : Variant JourneyStep := nodeVariant "JourneyStep" fun m loc => do
  let source ← required m "from" string (some "from_")
  let target ← required m "to" string
  let trigger ← defaulted m "trigger" string ""
  let decorators ← readDecorators m
  return { loc, source, target, trigger, decorators }

/-- Where an action leads. -/
def ActionResult.variant : Variant ActionResult := nodeVariant "ActionResult" fun m loc => do
  let outcome ← required m "outcome" string
  let screen ← required m "screen" string
  let decorators ← readDecorators m
  return { loc, outcome, screen, decorators }

/-- The forms of an endpoint. -/
def Endpoint.variants : List (Variant Endpoint) :=
  [ nodeVariant "ApiEndpointSimple" fun m loc => do
      let method ← required m "method" literal
      let path ← required m "path" string
      let input ← nullable m "inputType" type (some "input_type")
      let output ← nullable m "returnType" type (some "return_type")
      let decorators ← readDecorators m
      return .simple loc method path input output decorators,
    nodeVariant "ApiEndpointExpanded" fun m loc => do
      let method ← required m "method" literal
      let path ← required m "path" string
      let input ← nullable m "body" type
      let output ← nullable m "response" type
      let query ← nullable m "query" type
      let decorators ← readDecorators m
      return .expanded loc method path input output query decorators ]

/-! ## Bodies -/

/-- What may stand in an element. -/
def ElementItem.variants : List (Variant ElementItem) :=
  [ (Property.variant type).map .property, (Form.variant type).map .form,
    Comment.variant.map .comment ]

/-- What may stand in a screen. -/
def ScreenItem.variants : List (Variant ScreenItem) :=
  [ ElementUse.variant.map .use, (Form.variant type).map .form, Comment.variant.map .comment ]

/-- What may stand in a flow. -/
def FlowItem.variants : List (Variant FlowItem) :=
  [ FlowStep.variant.map .step, OverrideStep.variant.map .override,
    (EventClause.variant "OnClause").map .reacts, (EventClause.variant "EmitsClause").map .emits,
    (EndpointClause.variant "OperationHandlesClause").map .handles, Comment.variant.map .comment ]

/-- What may stand in a rule. -/
def RuleItem.variants : List (Variant RuleItem) :=
  [ nodeVariant "WhenClause" fun m loc => return .condition loc (← required m "expression" string),
    nodeVariant "ThenClause" fun m loc => return .consequence loc (← required m "action" string),
    nodeVariant "ElseIfClause" fun m loc => do
      let condition ← required m "condition" string
      let action ← required m "action" string
      return .otherwiseIf loc condition action,
    nodeVariant "ElseClause" fun m loc => return .otherwise loc (← required m "action" string),
    Comment.variant.map .comment ]

/-- What may stand in a journey. -/
def JourneyItem.variants : List (Variant JourneyItem) :=
  [ JourneyStep.variant.map .step, Comment.variant.map .comment ]

/-- What may stand in an operation. -/
def OperationItem.variants : List (Variant OperationItem) :=
  [ (EndpointClause.variant "OperationHandlesClause").map .handles,
    (EndpointClause.variant "OperationCallsClause").map .calls,
    (EventClause.variant "EmitsClause").map .emits, (EventClause.variant "OnClause").map .reacts,
    RuleClause.variant.map .enforces, Comment.variant.map .comment ]

/-- What may stand in an action. -/
def ActionItem.variants : List (Variant ActionItem) :=
  [ nodeVariant "ActionFromClause" fun m loc =>
      return .startsFrom loc (← required m "screen" string),
    (EndpointClause.variant "ActionCallsClause").map .calls,
    nodeVariant "ActionOnStreamClause" fun m loc =>
      return .streams loc (← required m "path" string),
    (SignalClause.variant "ActionOnSignalClause").map .listens,
    (SignalClause.variant "ActionEmitsSignalClause").map .emits,
    ActionResult.variant.map .result, Comment.variant.map .comment ]

/-! ## Declarations -/

/-- A name with decorators, under the given type. -/
def Named.variant (typeName : String) : Variant Named := nodeVariant typeName fun m loc => do
  let name ← required m "name" string
  let decorators ← readDecorators m
  return { loc, name, decorators }

/-- A list of fields, under the given type. -/
def Structured.variant (typeName : String) : Variant Structured :=
  nodeVariant typeName fun m loc => do
    let name ← required m "name" string
    let parent ← nullable m "extends" string
    let interfaces ← items m "implements" string
    let decorators ← readDecorators m
    let fields ← items m "fields" (Field.variant type).read
    return { loc, name, parent, interfaces, decorators, fields }

/-- A dependency. -/
def Dependency.variant : Variant Dependency := nodeVariant "DepDecl" fun m loc => do
  let target ← required m "target" string
  let decorators ← readDecorators m
  return { loc, target, decorators }

/-- An element. -/
def Element.variant : Variant Element := nodeVariant "ElementDecl" fun m loc => do
  let name ← required m "name" string
  let parent ← nullable m "extends" string
  let interfaces ← items m "implements" string
  let decorators ← readDecorators m
  let body ← items m "body" (tagged (ElementItem.variants type))
  return { loc, name, parent, interfaces, decorators, body }

/-- An enumeration. -/
def Enumeration.variant : Variant Enumeration := nodeVariant "EnumDecl" fun m loc => do
  let name ← required m "name" string
  let decorators ← readDecorators m
  let values ← items m "values" EnumValue.variant.read
  return { loc, name, decorators, values }

/-- A flow. -/
def Flow.variant : Variant Flow := nodeVariant "FlowDecl" fun m loc => do
  let name ← required m "name" string
  let parent ← nullable m "extends" string
  let interfaces ← items m "implements" string
  let params ← items m "params" type
  let returnType ← nullable m "returnType" type (some "return_type")
  let decorators ← readDecorators m
  let body ← items m "body" (tagged FlowItem.variants)
  return { loc, name, parent, interfaces, params, returnType, decorators, body }

/-- A state machine. -/
def StateMachine.variant : Variant StateMachine := nodeVariant "StateDecl" fun m loc => do
  let name ← required m "name" string
  let enumRef ← required m "enumRef" string (some "enum_ref")
  let decorators ← readDecorators m
  let transitions ← items m "transitions" Transition.variant.read
  let comments ← items m "comments" Comment.variant.read
  return { loc, name, enumRef, decorators, transitions, comments }

/-- An API. -/
def Api.variant : Variant Api := nodeVariant "ApiDecl" fun m loc => do
  let name ← nullable m "name" string
  let style ← defaulted m "style" literal .rest
  let decorators ← readDecorators m
  let endpoints ← items m "endpoints" (tagged (Endpoint.variants type))
  let comments ← items m "comments" Comment.variant.read
  return { loc, name, style, decorators, endpoints, comments }

/-- A rule. -/
def Rule.variant : Variant Rule := nodeVariant "RuleDecl" fun m loc => do
  let name ← required m "name" string
  let decorators ← readDecorators m
  let body ← items m "body" (tagged RuleItem.variants)
  return { loc, name, decorators, body }

/-- A screen. -/
def Screen.variant : Variant Screen := nodeVariant "ScreenDecl" fun m loc => do
  let name ← required m "name" string
  let parent ← nullable m "extends" string
  let interfaces ← items m "implements" string
  let decorators ← readDecorators m
  let body ← items m "body" (tagged (ScreenItem.variants type))
  return { loc, name, parent, interfaces, decorators, body }

/-- A journey. -/
def Journey.variant : Variant Journey := nodeVariant "JourneyDecl" fun m loc => do
  let name ← required m "name" string
  let decorators ← readDecorators m
  let body ← items m "body" (tagged JourneyItem.variants)
  return { loc, name, decorators, body }

/-- An operation. -/
def Operation.variant : Variant Operation := nodeVariant "OperationDecl" fun m loc => do
  let name ← required m "name" string
  let params ← items m "params" type
  let returnType ← nullable m "returnType" type (some "return_type")
  let decorators ← readDecorators m
  let body ← items m "body" (tagged OperationItem.variants)
  return { loc, name, params, returnType, decorators, body }

/-- An action. -/
def Action.variant : Variant Action := nodeVariant "ActionDecl" fun m loc => do
  let name ← required m "name" string
  let params ← items m "params" type
  let decorators ← readDecorators m
  let body ← items m "body" (tagged ActionItem.variants)
  return { loc, name, params, decorators, body }

/-- The declarations that hold no further declarations. -/
def Construct.variants : List (Variant Construct) :=
  [ Dependency.variant.map .dependency, (Named.variant "SecretDecl").map .secret,
    (Named.variant "NodeDecl").map .node, (Element.variant type).map .element,
    (Structured.variant type "EntityDecl").map .entity, Enumeration.variant.map .enumeration,
    (Flow.variant type).map .flow, StateMachine.variant.map .state,
    (Structured.variant type "EventDecl").map .event,
    (Structured.variant type "SignalDecl").map .signal, (Api.variant type).map .api,
    Rule.variant.map .rule, (Screen.variant type).map .screen, Journey.variant.map .journey,
    (Operation.variant type).map .operation, (Action.variant type).map .action ]

/-! ## Items -/

/-- A directive to include a file. -/
def Inclusion.variant : Variant Inclusion := nodeVariant "IncludeDecl" fun m loc => do
  let path ← required m "path" string
  return { loc, path }

/-- A line that could not be parsed. -/
def Unparsed.variant : Variant Unparsed := nodeVariant "ErrorNode" fun m loc => do
  let raw ← required m "raw" string
  let context ← defaulted m "context" string ""
  return { loc, raw, context }

/-- What may stand in a component. -/
def Item.inComponent : List (Variant Item) :=
  (Construct.variants type).map (·.map .construct) ++
    [ Inclusion.variant.map .inclusion, Comment.variant.map .comment,
      Unparsed.variant.map .unparsed ]

/-- A component. -/
def Item.componentVariant : Variant Item := nodeVariant "ComponentDecl" fun m loc => do
  let name ← required m "name" string
  let parent ← nullable m "extends" string
  let interfaces ← items m "implements" string
  let decorators ← readDecorators m
  let body ← items m "body" (tagged (Item.inComponent type))
  return .component { loc, name, parent, interfaces, decorators } body

/-- What may stand in a system. -/
def Item.inSystem : List (Variant Item) :=
  [ Inclusion.variant.map .inclusion, Item.componentVariant type, Comment.variant.map .comment,
    Unparsed.variant.map .unparsed ]

/-- A system. -/
def Item.systemVariant : Variant Item := nodeVariant "SystemDecl" fun m loc => do
  let name ← required m "name" string
  let decorators ← readDecorators m
  let body ← items m "body" (tagged (Item.inSystem type))
  return .system { loc, name, decorators } body

/-- What may stand in a document. -/
def Item.topLevel : List (Variant Item) :=
  [ Item.systemVariant type, Item.componentVariant type ] ++ Item.inComponent type

/-- A document whose type expressions are read by the given reader. -/
def Document.readWith : Reader Document := object "Document" fun m => do
  let loc ← nullable m "loc" SourceRange.read
  hasType m "MfdDocument"
  let body ← items m "body" (tagged (Item.topLevel type))
  return { loc, body }

/-! ## Fragments -/

/-- A node seen as a fragment: all that is kept is its type and its decorators. -/
def Fragment.ofVariant {α : Type} (decorators : α → List Decorator) (v : Variant α) :
    Variant Fragment :=
  ⟨v.tag, fun value => (v.read value).map fun a => ⟨v.tag, decorators a⟩⟩

/-- A node of which no more is known than where it stands. -/
def Fragment.bareVariant : Variant Fragment :=
  ⟨"Node", object "Node" fun m => do
    -- read for its mismatches only
    let _ ← nullable m "loc" SourceRange.read
    return ⟨"Node", []⟩⟩

/-- The nodes and parts of nodes that have no place among declarations. -/
def Fragment.variants : List (Variant Fragment) :=
  [ bareVariant, ofVariant (fun _ => []) ⟨"SourceLocation", Position.read⟩,
    ofVariant (fun _ => []) ⟨"SourceRange", SourceRange.read⟩,
    ofVariant (fun _ => []) ⟨"DecoratorValue", Param.read⟩,
    ofVariant (fun _ => []) Decorator.variant,
    ofVariant (fun f => f.decorators) (Field.variant type),
    ofVariant (fun _ => []) EnumValue.variant, ofVariant (fun _ => []) Branch.variant,
    ofVariant (fun t => t.decorators) Transition.variant,
    ⟨"Document", fun v => (Document.readWith type v).map fun _ => ⟨"Document", []⟩⟩ ] ++
  (TypeExpr.variants type).map (ofVariant fun _ => []) ++
  (Endpoint.variants type).map (ofVariant Endpoint.decorators) ++
  (ElementItem.variants type).map (ofVariant ElementItem.decorators) ++
  (ScreenItem.variants type).map (ofVariant ScreenItem.decorators) ++
  FlowItem.variants.map (ofVariant FlowItem.decorators) ++
  RuleItem.variants.map (ofVariant fun _ => []) ++
  JourneyItem.variants.map (ofVariant JourneyItem.decorators) ++
  OperationItem.variants.map (ofVariant fun _ => []) ++
  ActionItem.variants.map (ofVariant ActionItem.decorators)

end

/-! ## Whole values -/

/-- A document. -/
def Document.read : Reader Document := fun v => Document.readWith (TypeExpr.read v.depth) v

/-- A field given by itself. -/
def Field.read : Reader Field := fun v => (Field.variant (TypeExpr.read v.depth)).read v

/-- A node of any type as an item; `none` when there is no such type. -/
def Item.readAs (typeName : String) (v : Json) : Option (Except Mismatch Item) :=
  let type := TypeExpr.read v.depth
  let variants := Item.topLevel type ++ (Fragment.variants type).map (·.map .fragment)
  (variants.find? fun a => a.tag = typeName).map fun a => a.read v

/-- Why a value cannot be read as the node that it says it is. -/
inductive NodeError where
  /-- It does not say what it is. -/
  | untyped
  /-- It says what it is, but not by a name. -/
  | unnamed (found : Json)
  /-- No node has this name. -/
  | noNode (name : String)
  | mismatch (reason : Mismatch)

namespace NodeError

/-- The names of unions and of lists of words, which no node is an instance of. -/
def abstractNames : List String :=
  ["PrimitiveName", "ApiStyle", "HttpMethod", "TypeExpr", "ApiEndpoint", "ElementBodyItem",
    "ScreenBodyItem", "FlowBodyItem", "RuleBodyItem", "JourneyBodyItem", "OperationBodyItem",
    "ActionBodyItem", "ComponentBodyItem", "SystemBodyItem", "TopLevelItem", "Literal", "Optional",
    "Union"]

/-- The names of functions that stand beside the nodes. -/
def functionNames : List String := ["Field", "to_camel", "decorator_value", "_body"]

/-- The names of types that stand beside the nodes and are none. -/
def otherTypes : List (String × String) :=
  [("Annotated", "Annotated"), ("ConfigDict", "ConfigDict"), ("List", "list")]

/-- The wording of an error. -/
def message : NodeError → String
  | untyped => "'type'"
  | unnamed found => s!"attribute name must be string, not '{found.typeName}'"
  | noNode name =>
    if abstractNames.contains name then "model_validate"
    else if functionNames.contains name then "'function' object has no attribute 'model_validate'"
    else match otherTypes.lookup name with
      | some shown => s!"type object '{shown}' has no attribute 'model_validate'"
      | none => s!"module 'mfdcore.ast' has no attribute '{name}'"
  | mismatch reason => reason.message

end NodeError

/-- A node as the item that its type names. -/
def Item.readTyped (v : Json) : Except NodeError Item :=
  match v.member? "type" with
  | none => .error .untyped
  | some (.str name) =>
    match Item.readAs name v with
    | some item => item.mapError .mismatch
    | none => .error (.noNode name)
  | some found => .error (.unnamed found)

end Blueprint
