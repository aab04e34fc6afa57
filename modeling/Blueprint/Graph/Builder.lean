import Blueprint.Graph.Basic
import Blueprint.Ownership.Basic

/-!
# Building relationship graphs

A graph grows by instructions: touch a construct, link two of them, note an endpoint. Constructs
without owner take no part. This is the Relationship Graph Builder of the specification (§4.4).

- `Instruction`, `Builder.run`: the instructions and what they do.
- `Builder.link`: write an edge on both ends. An edge that is there is not written again, and a
  slot that holds at most one reference keeps the first.
- `Builder.annotateUnder`: note an endpoint under any name. Under a name that is not for endpoints
  it is a stray, and a graph with a stray in a slot for references cannot be finished.
- `Builder.finish`: the graph, unless a stray is in the way.
- `Model.instructions`: what the declarations of a model say, kind by kind.
- `Model.buildGraph`: the graph of a model and its owners.
-/

namespace Blueprint

/-! ## Instructions -/

/-- A step in building a graph. -/
inductive Instruction where
  | touch (key : Key)
  | link (category : Category) (source target : Key)
  | annotate (key : Key) (slot : EndpointSlot) (endpoint : EndpointRef)

/-- An endpoint noted under a name that is not for endpoints. -/
structure Stray where
  field : String
  /-- How many references the name held when the endpoint came. -/
  after : Nat
  endpoint : EndpointRef
deriving DecidableEq

/-- A graph in the making. -/
structure Builder where
  graph : Graph := {}
  /-- The number of edges written so far. -/
  edgeCount : Nat := 0
  /-- The strays of each construct, in the order in which they came. -/
  strays : Table Key (List Stray) := ∅

namespace Builder

/-- The strays of a construct under a name. -/
def straysUnder (b : Builder) (k : Key) (field : String) : List Stray :=
  (b.strays.findD k []).filter fun s => s.field = field

/-- Make sure that an owned construct has a vertex. -/
def touch (o : Ownership) (b : Builder) (k : Key) : Builder :=
  if b.graph.vertices.contains k then b
  else match o.owner? k with
    | none => b
    | some component =>
      { b with graph := ⟨b.graph.vertices.insert k { ref := ⟨component, k.kind, k.name⟩ }⟩ }

/-- Change the record of a construct that has a vertex. -/
def modify (b : Builder) (k : Key) (f : Record → Record) : Builder :=
  match b.graph.vertices.find? k with
  | none => b
  | some v => { b with graph := ⟨b.graph.vertices.insert k { v with record := f v.record }⟩ }

/-- Whether the forward slot of a source takes no further target. -/
def refuses (c : Category) (held : List Ref) (target : Ref) : Bool :=
  if c.isSingle then !held.isEmpty else held.contains target

/-- Whether strays keep the only place of a source's forward slot. -/
def isBlocked (b : Builder) (c : Category) (source : Key) : Bool :=
  c.isSingle && !(b.straysUnder source c.forward.label).isEmpty

/-- Write an edge between two vertices on both ends. -/
def connect (b : Builder) (c : Category) (source target : Ref) : Builder :=
  -- the forward slot was searched by `refuses`, the inverse one is searched here
  let b := b.modify source.key fun r => r.setRefs c.forward (r.refs c.forward ++ [target])
  let b := b.modify target.key fun r => r.setRefs c.inverse (addNew (r.refs c.inverse) source)
  { b with edgeCount := b.edgeCount + 1 }

/-- Link two constructs. The answer tells whether an edge was written (specification, §4.4). -/
def link (o : Ownership) (b : Builder) (c : Category) (source target : Key) : Builder × Bool :=
  let b := (b.touch o source).touch o target
  match b.graph.ref? source, b.graph.ref? target with
  | some s, some t =>
    -- both ends stay touched, whether or not an edge is written
    if b.isBlocked c source || refuses c (b.graph.refsAt source c.forward) t then (b, false)
    else (b.connect c s t, true)
  | _, _ => (b, false)

/-- Note an endpoint that a clause of a construct names. -/
def annotate (o : Ownership) (b : Builder) (k : Key) (s : EndpointSlot) (e : EndpointRef) :
    Builder :=
  (b.touch o k).modify k fun r => r.addEndpoint s e

/-- Add a stray to those of a construct, unless it is there under its name already. -/
def addStray (b : Builder) (k : Key) (s : Stray) : Builder :=
  if (b.straysUnder k s.field).any fun t => t.endpoint = s.endpoint then b
  else { b with strays := b.strays.upsert k fun old => old.getD [] ++ [s] }

/-- Note an endpoint under any name of a construct. A slot that already holds its only reference
does not take it, and the answer is `none`. -/
def annotateUnder (o : Ownership) (b : Builder) (k : Key) (field : String) (e : EndpointRef) :
    Option Builder :=
  let b := b.touch o k
  -- without an owner there is no record to write to
  if !b.graph.vertices.contains k then some b
  else
    match EndpointSlot.ofLabel? field, Slot.ofLabel? field with
    | some s, _ => some (b.annotate o k s e)
    | none, none => some (b.addStray k ⟨field, 0, e⟩)
    | none, some s =>
      let held := b.graph.refsAt k s
      if s.isSingle && !held.isEmpty then none else some (b.addStray k ⟨field, held.length, e⟩)

/-- Carry out an instruction. -/
def run (o : Ownership) (b : Builder) : Instruction → Builder
  | .touch k => b.touch o k
  | .link c s t => (b.link o c s t).1
  | .annotate k s e => b.annotate o k s e

end Builder

/-! ## Endpoints -/

/-- A path without slashes at its end; the empty path is the root (specification, §4.4, stream
matching). -/
def normalizePath (path : String) : String :=
  (nonEmpty? (String.ofList (Text.dropEndWhile (· = '/') path.toList))).getD "/"

namespace Model

/-- The endpoints of all APIs: the API, the method and the whole path. -/
def endpoints (m : Model) : List (Key × String × String) :=
  m.apis.flatMap fun a => a.endpoints.map fun e =>
    (a.key, Literal.label e.method,
      -- the path of the API and that of the endpoint are joined as they are, then normalised
      normalizePath ((decoratorText a.decorators "prefix").getD "" ++ e.path))

/-- The APIs with an endpoint of a method and a path, in order; without a method any will do. -/
def apisServing (m : Model) (method : Option String) (path : String) : List Key :=
  ((m.endpoints.filter fun e =>
    e.2.2 = normalizePath path && (method.map fun w => decide (e.2.1 = w)).getD true).map
      Prod.fst).eraseDups

/-- The entities that a text mentions, in order and with repetitions. -/
def mentionedEntities (m : Model) (text : String) : List String :=
  m.entityNames.filter (Text.mentions text)

/-! ## What declarations say -/

/-- An endpoint that a clause of an owned construct names, and the APIs that serve it. -/
def endpointClause (m : Model) (o : Ownership) (source : Key) (slot : EndpointSlot) (c : Category)
    (clause : EndpointClause) : List Instruction :=
  match o.owner? source with
  | none => []
  | some component =>
    .annotate source slot ⟨clause.method, clause.path, component⟩ ::
      (m.apisServing (some clause.method) clause.path).map (.link c source)

/-- Entities refer to the types of their fields. A name that is an enumeration's stands for it. -/
def entityInstructions (m : Model) : List Instruction :=
  m.entities.flatMap fun d => (d.fields.flatMap fun f => f.type.refs).map fun r =>
    .link .entityFieldRef ⟨.entity, d.name⟩
      ⟨if m.enumNames.contains r then .enumeration else .entity, r⟩

/-- What an item of a flow says about events and entities. -/
def flowItem (m : Model) (source : Key) (i : FlowItem) : List Instruction :=
  match i with
  | .reacts c =>
    if m.eventNames.contains c.event then [.link .flowOnEvent source ⟨.event, c.event⟩] else []
  | .emits c =>
    if m.eventNames.contains c.event then [.link .flowEmitsEvent source ⟨.event, c.event⟩] else []
  | _ =>
    match i.text? with
    | none => []
    | some text =>
      (m.mentionedEntities text).map (fun n => .link .flowEntity source ⟨.entity, n⟩) ++
        (m.eventNames.filter (Text.mentions text)).map fun n =>
          .link .flowEmitsEvent source ⟨.event, n⟩

/-- Flows involve the entities of their types and steps, and react to and emit events. -/
def flowInstructions (m : Model) : List Instruction :=
  m.flows.flatMap fun f =>
    (TypeExpr.refsOfAll (f.params.map some ++ [f.returnType])).map
      (fun r => .link .flowEntity ⟨.flow, f.name⟩ ⟨.entity, r⟩) ++
    f.body.flatMap (m.flowItem ⟨.flow, f.name⟩)

/-- APIs expose the entities of their endpoints. -/
def apiInstructions (m : Model) : List Instruction :=
  m.apis.flatMap fun a =>
    ((a.endpoints.flatMap Endpoint.refs).filter m.entityNames.contains).map fun r =>
      .link .apiExposesEntity a.key ⟨.entity, r⟩

/-- States have an enumeration, react to events and govern the entities with a field of the
enumeration. -/
def stateInstructions (m : Model) : List Instruction :=
  m.states.flatMap fun s =>
    let source : Key := ⟨.state, s.name⟩
    (if m.enumNames.contains s.enumRef then
      [.link .stateEnum source ⟨.enumeration, s.enumRef⟩] else []) ++
    ((s.transitions.filterMap fun t => t.event.bind nonEmpty?).filter m.eventNames.contains).map
      (fun e => .link .stateOnEvent source ⟨.event, e⟩) ++
    (m.entities.filter fun d => Pass.usesType d s.enumRef).map fun d =>
      .link .entityState ⟨.entity, d.name⟩ source

/-- The screen that stands for the end of a journey. -/
def endScreen : String := "end"

/-- What an item of an action says. -/
def actionItem (m : Model) (source : Key) : ActionItem → List Instruction
  | .startsFrom _ screen => [.link .actionFromScreen source ⟨.screen, screen⟩]
  | .streams _ path =>
    (m.apisServing (some (Literal.label HttpMethod.stream)) path).map
      (.link .actionStreamApi source)
  | .listens c => [.link .actionOnSignal source ⟨.signal, c.signal⟩]
  | .emits c => [.link .actionEmitsSignal source ⟨.signal, c.signal⟩]
  | .result r => if r.screen = endScreen then [] else [.touch ⟨.screen, r.screen⟩]
  | _ => []

/-- Actions start from screens, listen to streams and signals, and emit signals. -/
def actionInstructions (m : Model) : List Instruction :=
  m.actions.flatMap fun a => a.body.flatMap (m.actionItem ⟨.action, a.name⟩)

/-- The operation that a text calls: its first word, unless that word is reserved. -/
def calledOperation? (m : Model) (reserved : List String) (text : String) : Option String :=
  (nonEmpty? (Text.firstWord text)).filter fun w =>
    !reserved.contains w && m.operationNames.contains w

/-- The words of a flow's step that never call an operation. -/
def flowReserved : List String := ["emit", "return"]

/-- The words of a rule's clause that never call an operation. -/
def ruleReserved : List String := ["emit", "deny"]

/-- The action of a rule's clause, if it has one. -/
def ruleAction? : RuleItem → Option String
  | .consequence _ action => some action
  | .otherwiseIf _ _ action => some action
  | .otherwise _ action => some action
  | _ => none

/-- What a clause of a rule says: the entities it mentions, and the operation its action calls. -/
def ruleItem (m : Model) (source : Key) (i : RuleItem) : List Instruction :=
  (match i.text? with
    | none => []
    | some text => (m.mentionedEntities text).map fun n => .link .ruleEntity source ⟨.entity, n⟩) ++
  match (ruleAction? i).filter fun a => Text.mentions a "(" with
  | none => []
  | some action =>
    (m.calledOperation? ruleReserved action).toList.map fun w =>
      .link .ruleTriggersOperation source ⟨.operation, w⟩

/-- Rules govern the entities they mention and trigger operations. -/
def ruleInstructions (m : Model) : List Instruction :=
  m.rules.flatMap fun r => r.body.flatMap (m.ruleItem ⟨.rule, r.name⟩)

/-- What an item of an operation says. -/
def operationItem (m : Model) (o : Ownership) (source : Key) : OperationItem → List Instruction
  | .emits c => [.link .operationEmitsEvent source ⟨.event, c.event⟩]
  | .reacts c => [.link .operationOnEvent source ⟨.event, c.event⟩]
  | .enforces c => [.link .operationEnforcesRule source ⟨.rule, c.rule⟩]
  | .handles c => m.endpointClause o source .handles .handlesApi c
  | .calls c => m.endpointClause o source .calls .callsApi c
  | .comment _ => []

/-- Operations emit and react to events, enforce rules, and handle and call endpoints. -/
def operationInstructions (m : Model) (o : Ownership) : List Instruction :=
  m.operations.flatMap fun d => d.body.flatMap (m.operationItem o ⟨.operation, d.name⟩)

/-- What an item of a flow says about operations and endpoints. -/
def flowCall (m : Model) (o : Ownership) (source : Key) : FlowItem → List Instruction
  | .step s =>
    if s.hasArrow then
      (m.calledOperation? flowReserved s.action).toList.map fun w =>
        .link .flowUsesOperation source ⟨.operation, w⟩
    else []
  | .handles c => m.endpointClause o source .handles .handlesApi c
  | _ => []

/-- Flows use operations and handle endpoints. -/
def flowCallInstructions (m : Model) (o : Ownership) : List Instruction :=
  m.flows.flatMap fun f => f.body.flatMap (m.flowCall o ⟨.flow, f.name⟩)

/-- Screens use elements. -/
def screenInstructions (m : Model) : List Instruction :=
  m.screens.flatMap fun s => s.body.filterMap fun
    | .use u => some (.link .screenUsesElement ⟨.screen, s.name⟩ ⟨.element, u.element⟩)
    | _ => none

/-- What a declaration says about its ancestry. -/
structure Lineage where
  name : String
  parent : Option String
  interfaces : List String

/-- The ancestry of the declarations of a kind. -/
def lineages (m : Model) : Kind → List Lineage
  | .element => m.elements.map fun d => ⟨d.name, d.parent, d.interfaces⟩
  | .entity => m.entities.map fun d => ⟨d.name, d.parent, d.interfaces⟩
  | .flow => m.flows.map fun d => ⟨d.name, d.parent, d.interfaces⟩
  | .event => m.events.map fun d => ⟨d.name, d.parent, d.interfaces⟩
  | .signal => m.signals.map fun d => ⟨d.name, d.parent, d.interfaces⟩
  | .screen => m.screens.map fun d => ⟨d.name, d.parent, d.interfaces⟩
  | .component => m.components.map fun d => ⟨d.head.name, d.head.parent, d.head.interfaces⟩
  | _ => []

/-- Constructs extend and implement declared constructs of their kind. -/
def inheritanceInstructions (m : Model) : List Instruction :=
  Kind.inheritable.flatMap fun k =>
    let decls := m.lineages k
    let declared := decls.map Lineage.name
    decls.flatMap fun d =>
      ((d.parent.bind nonEmpty?).filter declared.contains).toList.map
        (fun p => .link .inherits ⟨k, d.name⟩ ⟨k, p⟩) ++
      (d.interfaces.filter declared.contains).map fun i => .link .realizes ⟨k, d.name⟩ ⟨k, i⟩

/-- Whether a name is that of a screen and not a sign for the end or for any screen. -/
def namesScreen (name : String) : Bool :=
  !(name = "" || name = endScreen || name = anyScreen)

/-- Journeys touch the screens they go through. -/
def journeyInstructions (m : Model) : List Instruction :=
  m.journeys.flatMap fun j => j.body.flatMap fun
    | .step s => ([s.source, s.target].filter namesScreen).map fun n => .touch ⟨.screen, n⟩
    | .comment _ => []

/-- Everything that the declarations of a model say, in order. -/
def instructions (m : Model) (o : Ownership) : List Instruction :=
  -- every construct that can be owned is touched first, so that records stand in this order
  o.ownable.map .touch ++ m.entityInstructions ++ m.flowInstructions ++ m.apiInstructions ++
    m.stateInstructions ++ m.actionInstructions ++ m.ruleInstructions ++
    m.operationInstructions o ++ m.flowCallInstructions o ++ m.screenInstructions ++
    m.inheritanceInstructions ++ m.journeyInstructions

end Model

/-! ## Building -/

namespace Builder

/-- Carry out everything that the declarations of a model say. -/
def build (m : Model) (o : Ownership) (b : Builder) : Builder :=
  (m.instructions o).foldl (Builder.run o) b

/-- What the first stray in a slot for references is in the way of: the constructs in order, and
for each its slots in order. -/
def obstacle? (b : Builder) : Option Schema.Mismatch :=
  b.graph.vertices.keys.findSome? fun k => Slot.all.findSome? fun s =>
    (b.straysUnder k s.label).head?.map fun stray => s.mismatch stray.after

/-- The graph, unless a stray is in the way. -/
def finish (b : Builder) : Except Schema.Mismatch Graph :=
  match b.obstacle? with
  | some m => .error m
  | none => .ok b.graph

/-- Without strays nothing is in the way. -/
theorem finish_of_strays_eq_empty {b : Builder} (h : b.strays = ∅) : b.finish = .ok b.graph := by
  have : b.obstacle? = none := by
    simp [obstacle?, List.findSome?_eq_none_iff, straysUnder, Table.findD, h]
  simp [finish, this]

/-- What is noted in the journal when a graph has been built. -/
def builtNote (b : Builder) : Entry :=
  .info s!"Built relationship graph: {b.graph.vertices.size} record(s), {b.edgeCount} edge(s)"

/-- What a slot of a construct holds: references, and the strays among them. -/
def held (b : Builder) (k : Key) (s : Slot) : List (Ref ⊕ EndpointRef) :=
  let refs := b.graph.refsAt k s
  let strays := b.straysUnder k s.label
  -- a stray stands behind as many references as there were when it came
  (List.range (refs.length + 1)).flatMap fun i =>
    ((strays.filter fun t => t.after = i).map fun t => .inr t.endpoint) ++ refs[i]?.toList.map .inl

/-- The names of a construct that are no slots and hold strays, with their endpoints. -/
def unslotted (b : Builder) (k : Key) : List (String × List EndpointRef) :=
  let strays := (b.strays.findD k []).filter fun s => (Slot.ofLabel? s.field).isNone
  (strays.map Stray.field).eraseDups.map fun field =>
    (field, (strays.filter fun s => s.field = field).map Stray.endpoint)

end Builder

namespace Model

/-- The graph of a model and its owners (specification, §4.4). -/
def buildGraph (m : Model) (o : Ownership) : Graph := (Builder.build m o {}).graph

/-- What is noted in the journal while a graph is built. -/
def graphNotes (m : Model) (o : Ownership) : Journal :=
  (if o.hasComponents then []
    else [.warning "Model declares no components, relationship graph will be empty"]) ++
  [(Builder.build m o {}).builtNote]

end Model

end Blueprint
