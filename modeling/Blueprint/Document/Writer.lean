import Blueprint.Document.Declaration

/-!
# Writing documents as JSON

The inverse of reading: every node becomes an object with its `type`, keys in camel case, defaults
filled in, and members without a value left out.

- `Document.toJson`, `Item.toJson`, `Construct.toJson`, `TypeExpr.toJson`: the values.
-/

namespace Blueprint

/-! ## Leaves -/

/-- A place in a source file. -/
def Position.toJson (p : Position) : Json :=
  Json.ofFields [("line", some (.int p.line)), ("column", some (.int p.column)),
    ("offset", some (.int p.offset)), ("source", p.source.map .str)]

/-- A stretch of a source file. -/
def SourceRange.toJson (r : SourceRange) : Json :=
  Json.ofFields [("start", some r.start.toJson), ("end", some r.stop.toJson)]

/-- A node: its location, its type and its other members. -/
def nodeJson (typeName : String) (loc : Location) (fields : List (String × Option Json)) : Json :=
  Json.ofFields (("loc", loc.map SourceRange.toJson) :: ("type", some (.str typeName)) :: fields)

/-- A text member. -/
def textField (name value : String) : String × Option Json := (name, some (.str value))

/-- A text member that may be absent. -/
def textField? (name : String) (value : Option String) : String × Option Json :=
  (name, value.map .str)

/-- A list member. -/
def listField {α : Type} (name : String) (toJson : α → Json) (values : List α) :
    String × Option Json :=
  (name, some (.arr (values.map toJson)))

/-- The value of a parameter. -/
def Scalar.toJson : Scalar → Json
  | int n => .int n
  | float x => .float x
  | text s => .str s

/-- A parameter of a decorator. -/
def Param.toJson (p : Param) : Json :=
  Json.ofFields [textField "kind" (Literal.label p.kind), ("value", some p.value.toJson),
    textField? "unit" p.unit]

/-- A decorator. -/
def Decorator.toJson (d : Decorator) : Json :=
  nodeJson "Decorator" d.loc [textField "name" d.name, listField "params" Param.toJson d.params]

/-- The decorators of a node. -/
def decoratorsField (ds : List Decorator) : String × Option Json :=
  listField "decorators" Decorator.toJson ds

/-- A comment. -/
def Comment.toJson (c : Comment) : Json :=
  nodeJson "SemanticComment" c.loc [textField "text" c.text]

/-! ## Type expressions -/

/-- A field whose type has been written. -/
def fieldJson (loc : Location) (name : String) (type : Json) (decorators : List Decorator) : Json :=
  nodeJson "FieldDecl" loc [textField "name" name, ("fieldType", some type),
    decoratorsField decorators]

mutual

/-- A type expression. -/
def TypeExpr.toJson : TypeExpr → Json
  | .primitive loc name => nodeJson "PrimitiveType" loc [textField "name" (Literal.label name)]
  | .reference loc name => nodeJson "ReferenceType" loc [textField "name" name]
  | .optional loc inner => nodeJson "OptionalType" loc [("inner", some (TypeExpr.toJson inner))]
  | .array loc inner => nodeJson "ArrayType" loc [("inner", some (TypeExpr.toJson inner))]
  | .union loc alternatives =>
    nodeJson "UnionType" loc [("alternatives", some (.arr (typeExprsJson alternatives)))]
  | .object loc fields =>
    nodeJson "InlineObjectType" loc [("fields", some (.arr (fieldsJson fields)))]

/-- The expressions of a list. -/
def typeExprsJson : List TypeExpr → List Json
  | [] => []
  | t :: rest => TypeExpr.toJson t :: typeExprsJson rest

/-- The fields of a list. -/
def fieldsJson : List (FieldOf TypeExpr) → List Json
  | [] => []
  | ⟨loc, name, type, decorators⟩ :: rest =>
    fieldJson loc name (TypeExpr.toJson type) decorators :: fieldsJson rest

end

/-- A field. -/
def Field.toJson (f : Field) : Json := fieldJson f.loc f.name (TypeExpr.toJson f.type) f.decorators

theorem typeExprsJson_eq_map (ts : List TypeExpr) : typeExprsJson ts = ts.map TypeExpr.toJson := by
  induction ts with
  | nil => rfl
  | cons t ts ih => simp [typeExprsJson, ih]

theorem fieldsJson_eq_map (fs : List Field) : fieldsJson fs = fs.map Field.toJson := by
  induction fs with
  | nil => rfl
  | cons f fs ih => simp [fieldsJson, Field.toJson, ih]

/-- The fields of a node. -/
def fieldsField (fs : List Field) : String × Option Json := listField "fields" Field.toJson fs

/-- A type member that may be absent. -/
def typeField? (name : String) (type : Option TypeExpr) : String × Option Json :=
  (name, type.map TypeExpr.toJson)

/-! ## Parts of bodies -/

/-- A property of an element. -/
def Property.toJson (p : Property) : Json :=
  nodeJson "PropDecl" p.loc [textField "name" p.name, ("propType", some p.type.toJson),
    decoratorsField p.decorators]

/-- A form. -/
def Form.toJson (f : Form) : Json :=
  nodeJson "FormDecl" f.loc [textField? "name" f.name, fieldsField f.fields]

/-- The use of an element. -/
def ElementUse.toJson (u : ElementUse) : Json :=
  nodeJson "UsesDecl" u.loc [textField "element" u.element, textField "alias" u.label,
    decoratorsField u.decorators]

/-- A value of an enumeration. -/
def EnumValue.toJson (v : EnumValue) : Json := nodeJson "EnumValue" v.loc [textField "name" v.name]

/-- A branch of a step. -/
def Branch.toJson (b : Branch) : Json :=
  nodeJson "FlowBranch" b.loc [textField "condition" b.condition, textField "action" b.action]

/-- A step of a flow. -/
def FlowStep.toJson (s : FlowStep) : Json :=
  nodeJson "FlowStep" s.loc [("hasArrow", some (.bool s.hasArrow)), textField "action" s.action,
    textField? "args" s.args, decoratorsField s.decorators,
    listField "branches" Branch.toJson s.branches]

/-- A step that replaces another. -/
def OverrideStep.toJson (s : OverrideStep) : Json :=
  nodeJson "FlowOverrideStep" s.loc [textField "target" s.target, textField "action" s.action,
    textField? "args" s.args, decoratorsField s.decorators]

/-- A clause that names an event, under the given type. -/
def EventClause.toJson (typeName : String) (c : EventClause) : Json :=
  nodeJson typeName c.loc [textField "event" c.event]

/-- A clause that names a rule. -/
def RuleClause.toJson (c : RuleClause) : Json :=
  nodeJson "EnforcesClause" c.loc [textField "rule" c.rule]

/-- A clause that names an endpoint, under the given type. -/
def EndpointClause.toJson (typeName : String) (c : EndpointClause) : Json :=
  nodeJson typeName c.loc [textField "method" c.method, textField "path" c.path]

/-- A clause that names a signal, under the given type. -/
def SignalClause.toJson (typeName : String) (c : SignalClause) : Json :=
  nodeJson typeName c.loc [textField "signal" c.signal]

/-- A transition of a state machine. -/
def Transition.toJson (t : Transition) : Json :=
  nodeJson "StateTransition" t.loc [textField "from" t.source, textField "to" t.target,
    textField? "event" t.event, decoratorsField t.decorators]

/-- A step of a journey. -/
def JourneyStep.toJson (s : JourneyStep) : Json :=
  nodeJson "JourneyStep" s.loc [textField "from" s.source, textField "to" s.target,
    textField "trigger" s.trigger, decoratorsField s.decorators]

/-- Where an action leads. -/
def ActionResult.toJson (r : ActionResult) : Json :=
  nodeJson "ActionResult" r.loc [textField "outcome" r.outcome, textField "screen" r.screen,
    decoratorsField r.decorators]

/-- An endpoint. -/
def Endpoint.toJson : Endpoint → Json
  | .simple loc method path input output decorators =>
    nodeJson "ApiEndpointSimple" loc [textField "method" (Literal.label method),
      textField "path" path, typeField? "inputType" input, typeField? "returnType" output,
      decoratorsField decorators]
  | .expanded loc method path input output query decorators =>
    nodeJson "ApiEndpointExpanded" loc [textField "method" (Literal.label method),
      textField "path" path, typeField? "body" input, typeField? "response" output,
      typeField? "query" query, decoratorsField decorators]

/-! ## Bodies -/

/-- An item of an element. -/
def ElementItem.toJson : ElementItem → Json
  | .property p => p.toJson
  | .form f => f.toJson
  | .comment c => c.toJson

/-- An item of a screen. -/
def ScreenItem.toJson : ScreenItem → Json
  | .use u => u.toJson
  | .form f => f.toJson
  | .comment c => c.toJson

/-- An item of a flow. -/
def FlowItem.toJson : FlowItem → Json
  | .step s => s.toJson
  | .override s => s.toJson
  | .reacts c => c.toJson "OnClause"
  | .emits c => c.toJson "EmitsClause"
  | .handles c => c.toJson "OperationHandlesClause"
  | .comment c => c.toJson

/-- An item of a rule. -/
def RuleItem.toJson : RuleItem → Json
  | .condition loc expression => nodeJson "WhenClause" loc [textField "expression" expression]
  | .consequence loc action => nodeJson "ThenClause" loc [textField "action" action]
  | .otherwiseIf loc premise action =>
    nodeJson "ElseIfClause" loc [textField "condition" premise, textField "action" action]
  | .otherwise loc action => nodeJson "ElseClause" loc [textField "action" action]
  | .comment c => c.toJson

/-- An item of a journey. -/
def JourneyItem.toJson : JourneyItem → Json
  | .step s => s.toJson
  | .comment c => c.toJson

/-- An item of an operation. -/
def OperationItem.toJson : OperationItem → Json
  | .handles c => c.toJson "OperationHandlesClause"
  | .calls c => c.toJson "OperationCallsClause"
  | .emits c => c.toJson "EmitsClause"
  | .reacts c => c.toJson "OnClause"
  | .enforces c => c.toJson
  | .comment c => c.toJson

/-- An item of an action. -/
def ActionItem.toJson : ActionItem → Json
  | .startsFrom loc screen => nodeJson "ActionFromClause" loc [textField "screen" screen]
  | .calls c => c.toJson "ActionCallsClause"
  | .streams loc path => nodeJson "ActionOnStreamClause" loc [textField "path" path]
  | .listens c => c.toJson "ActionOnSignalClause"
  | .emits c => c.toJson "ActionEmitsSignalClause"
  | .result r => r.toJson
  | .comment c => c.toJson

/-! ## Declarations -/

/-- A list of texts. -/
def textsField (name : String) (values : List String) : String × Option Json :=
  listField name .str values

/-- A list of fields, under the given type. -/
def Structured.toJson (typeName : String) (d : Structured) : Json :=
  nodeJson typeName d.loc [textField "name" d.name, textField? "extends" d.parent,
    textsField "implements" d.interfaces, decoratorsField d.decorators, fieldsField d.fields]

/-- A name with decorators, under the given type. -/
def Named.toJson (typeName : String) (d : Named) : Json :=
  nodeJson typeName d.loc [textField "name" d.name, decoratorsField d.decorators]

/-- A dependency. -/
def Dependency.toJson (d : Dependency) : Json :=
  nodeJson "DepDecl" d.loc [textField "target" d.target, decoratorsField d.decorators]

/-- An element. -/
def Element.toJson (d : Element) : Json :=
  nodeJson "ElementDecl" d.loc [textField "name" d.name, textField? "extends" d.parent,
    textsField "implements" d.interfaces, decoratorsField d.decorators,
    listField "body" ElementItem.toJson d.body]

/-- An enumeration. -/
def Enumeration.toJson (d : Enumeration) : Json :=
  nodeJson "EnumDecl" d.loc [textField "name" d.name, decoratorsField d.decorators,
    listField "values" EnumValue.toJson d.values]

/-- A flow. -/
def Flow.toJson (d : Flow) : Json :=
  nodeJson "FlowDecl" d.loc [textField "name" d.name, textField? "extends" d.parent,
    textsField "implements" d.interfaces, listField "params" TypeExpr.toJson d.params,
    typeField? "returnType" d.returnType, decoratorsField d.decorators,
    listField "body" FlowItem.toJson d.body]

/-- A state machine. -/
def StateMachine.toJson (d : StateMachine) : Json :=
  nodeJson "StateDecl" d.loc [textField "name" d.name, textField "enumRef" d.enumRef,
    decoratorsField d.decorators, listField "transitions" Transition.toJson d.transitions,
    listField "comments" Comment.toJson d.comments]

/-- An API. -/
def Api.toJson (d : Api) : Json :=
  nodeJson "ApiDecl" d.loc [textField? "name" d.name, textField "style" (Literal.label d.style),
    decoratorsField d.decorators, listField "endpoints" Endpoint.toJson d.endpoints,
    listField "comments" Comment.toJson d.comments]

/-- A rule. -/
def Rule.toJson (d : Rule) : Json :=
  nodeJson "RuleDecl" d.loc [textField "name" d.name, decoratorsField d.decorators,
    listField "body" RuleItem.toJson d.body]

/-- A screen. -/
def Screen.toJson (d : Screen) : Json :=
  nodeJson "ScreenDecl" d.loc [textField "name" d.name, textField? "extends" d.parent,
    textsField "implements" d.interfaces, decoratorsField d.decorators,
    listField "body" ScreenItem.toJson d.body]

/-- A journey. -/
def Journey.toJson (d : Journey) : Json :=
  nodeJson "JourneyDecl" d.loc [textField "name" d.name, decoratorsField d.decorators,
    listField "body" JourneyItem.toJson d.body]

/-- An operation. -/
def Operation.toJson (d : Operation) : Json :=
  nodeJson "OperationDecl" d.loc [textField "name" d.name,
    listField "params" TypeExpr.toJson d.params, typeField? "returnType" d.returnType,
    decoratorsField d.decorators, listField "body" OperationItem.toJson d.body]

/-- An action. -/
def Action.toJson (d : Action) : Json :=
  nodeJson "ActionDecl" d.loc [textField "name" d.name,
    listField "params" TypeExpr.toJson d.params, decoratorsField d.decorators,
    listField "body" ActionItem.toJson d.body]

/-- A construct. -/
def Construct.toJson : Construct → Json
  | .dependency d => d.toJson
  | .secret d => d.toJson "SecretDecl"
  | .node d => d.toJson "NodeDecl"
  | .element d => d.toJson
  | .entity d => d.toJson "EntityDecl"
  | .enumeration d => d.toJson
  | .flow d => d.toJson
  | .state d => d.toJson
  | .event d => d.toJson "EventDecl"
  | .signal d => d.toJson "SignalDecl"
  | .api d => d.toJson
  | .rule d => d.toJson
  | .screen d => d.toJson
  | .journey d => d.toJson
  | .operation d => d.toJson
  | .action d => d.toJson

/-! ## Items -/

/-- A directive to include a file. -/
def Inclusion.toJson (d : Inclusion) : Json :=
  nodeJson "IncludeDecl" d.loc [textField "path" d.path]

/-- A line that could not be parsed. -/
def Unparsed.toJson (u : Unparsed) : Json :=
  nodeJson "ErrorNode" u.loc [textField "raw" u.raw, textField "context" u.context]

/-- A fragment, of which only the type and the decorators are known. -/
def Fragment.toJson (f : Fragment) : Json :=
  nodeJson f.typeName none [decoratorsField f.decorators]

/-- A system whose items have been written. -/
def SystemHead.toJson (h : SystemHead) (body : List Json) : Json :=
  nodeJson "SystemDecl" h.loc [textField "name" h.name, decoratorsField h.decorators,
    ("body", some (.arr body))]

/-- A component whose items have been written. -/
def ComponentHead.toJson (h : ComponentHead) (body : List Json) : Json :=
  nodeJson "ComponentDecl" h.loc [textField "name" h.name, textField? "extends" h.parent,
    textsField "implements" h.interfaces, decoratorsField h.decorators,
    ("body", some (.arr body))]

mutual

/-- An item. -/
def Item.toJson : Item → Json
  | .system head body => head.toJson (itemsJson body)
  | .component head body => head.toJson (itemsJson body)
  | .construct decl => decl.toJson
  | .inclusion directive => directive.toJson
  | .comment text => text.toJson
  | .unparsed line => line.toJson
  | .fragment part => part.toJson

/-- The items of a list. -/
def itemsJson : List Item → List Json
  | [] => []
  | i :: rest => Item.toJson i :: itemsJson rest

end

theorem itemsJson_eq_map (is : List Item) : itemsJson is = is.map Item.toJson := by
  induction is with
  | nil => rfl
  | cons i is ih => simp [itemsJson, ih]

/-- A document. -/
def Document.toJson (d : Document) : Json :=
  nodeJson "MfdDocument" d.loc [("body", some (.arr (itemsJson d.body)))]

end Blueprint
