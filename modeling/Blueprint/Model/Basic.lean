import Blueprint.Model.Key
import Blueprint.Journal

/-!
# Models

A model holds the constructs of a document by kind, each kind in the order of the document. Only
systems and components are opened; a node that is neither a declaration nor meant to be passed over
is kept apart. This is the Model Collector of the specification (§4.2).

- `Model`: the constructs by kind.
- `Document.preorder`: the items of a document, each container before its items.
- `Document.collect`: the model of a document.
- `Model.itemsOf`, `Model.keysOf`, `Model.keys`: the constructs of a kind, and all keys that can be
  owned.
- `Model.knownTypes`, `Model.knownNames`: the names that type expressions and references can use.
-/

namespace Blueprint

/-- A system with its items. -/
structure System where
  head : SystemHead
  body : List Item

/-- A component with its items. -/
structure Component where
  head : ComponentHead
  body : List Item

/-- The name of a component. -/
def Component.name (c : Component) : String := c.head.name

/-- The constructs of a document by kind. -/
structure Model where
  systems : List System := []
  components : List Component := []
  elements : List Element := []
  entities : List Structured := []
  enumerations : List Enumeration := []
  flows : List Flow := []
  states : List StateMachine := []
  events : List Structured := []
  signals : List Structured := []
  apis : List Api := []
  rules : List Rule := []
  dependencies : List Dependency := []
  secrets : List Named := []
  screens : List Screen := []
  journeys : List Journey := []
  operations : List Operation := []
  actions : List Action := []
  nodes : List Named := []
  /-- Nodes that have no place among declarations. -/
  unhandled : List Fragment := []

/-! ## Collecting -/

namespace Model

/-- The model with one more construct. -/
def addConstruct (m : Model) : Construct → Model
  | .dependency d => { m with dependencies := m.dependencies ++ [d] }
  | .secret d => { m with secrets := m.secrets ++ [d] }
  | .node d => { m with nodes := m.nodes ++ [d] }
  | .element d => { m with elements := m.elements ++ [d] }
  | .entity d => { m with entities := m.entities ++ [d] }
  | .enumeration d => { m with enumerations := m.enumerations ++ [d] }
  | .flow d => { m with flows := m.flows ++ [d] }
  | .state d => { m with states := m.states ++ [d] }
  | .event d => { m with events := m.events ++ [d] }
  | .signal d => { m with signals := m.signals ++ [d] }
  | .api d => { m with apis := m.apis ++ [d] }
  | .rule d => { m with rules := m.rules ++ [d] }
  | .screen d => { m with screens := m.screens ++ [d] }
  | .journey d => { m with journeys := m.journeys ++ [d] }
  | .operation d => { m with operations := m.operations ++ [d] }
  | .action d => { m with actions := m.actions ++ [d] }

mutual

/-- The model with an item and what it holds. -/
def addItem (m : Model) : Item → Model
  | .system head body => addItems { m with systems := m.systems ++ [⟨head, body⟩] } body
  | .component head body => addItems { m with components := m.components ++ [⟨head, body⟩] } body
  | .construct decl => m.addConstruct decl
  | .inclusion _ => m
  | .comment _ => m
  | .unparsed _ => m
  | .fragment part => { m with unhandled := m.unhandled ++ [part] }

/-- The model with the items of a list and what they hold. -/
def addItems (m : Model) : List Item → Model
  | [] => m
  | i :: rest => addItems (addItem m i) rest

end

end Model

namespace Item

mutual

/-- An item and all items in it, containers first. -/
def preorder : Item → List Item
  | system head body => system head body :: preorderAll body
  | component head body => component head body :: preorderAll body
  | i => [i]

/-- The items of a list and all items in them, containers first. -/
def preorderAll : List Item → List Item
  | [] => []
  | i :: rest => preorder i ++ preorderAll rest

end

/-- What is noted in the journal about an item that adds no construct. -/
def note? : Item → Option Entry
  | inclusion d => some (.debug s!"Unresolved include '{d.path}' left in document, skipping")
  | fragment f => some (.warning s!"Unhandled node kind in model collection: {f.typeName}")
  | _ => none

end Item

/-- The items of a document, each container before its items. -/
def Document.preorder (d : Document) : List Item := Item.preorderAll d.body

/-- The model of a document (specification, §4.2). -/
def Document.collect (d : Document) : Model := Model.addItems {} d.body

/-! ## Views -/

namespace Model

/-- The declarations of a kind, in order. -/
def itemsOf (m : Model) : Kind → List Item
  | .system => m.systems.map fun s => .system s.head s.body
  | .component => m.components.map fun c => .component c.head c.body
  | .element => m.elements.map fun d => .construct (.element d)
  | .entity => m.entities.map fun d => .construct (.entity d)
  | .enumeration => m.enumerations.map fun d => .construct (.enumeration d)
  | .flow => m.flows.map fun d => .construct (.flow d)
  | .state => m.states.map fun d => .construct (.state d)
  | .event => m.events.map fun d => .construct (.event d)
  | .signal => m.signals.map fun d => .construct (.signal d)
  | .api => m.apis.map fun d => .construct (.api d)
  | .rule => m.rules.map fun d => .construct (.rule d)
  | .dependency => m.dependencies.map fun d => .construct (.dependency d)
  | .secret => m.secrets.map fun d => .construct (.secret d)
  | .screen => m.screens.map fun d => .construct (.screen d)
  | .journey => m.journeys.map fun d => .construct (.journey d)
  | .operation => m.operations.map fun d => .construct (.operation d)
  | .action => m.actions.map fun d => .construct (.action d)
  | .node => m.nodes.map fun d => .construct (.node d)

/-- The keys of the declarations of a kind, in order and with repetitions. -/
def keysOf (m : Model) (k : Kind) : List Key := (m.itemsOf k).filterMap Item.key?

/-- The keys of all constructs that a component can own, kind by kind (specification, §3, construct
keys). -/
def keys (m : Model) : List Key := Kind.ownable.flatMap m.keysOf

/-- The number of declarations of each kind. -/
def stats (m : Model) : List (Kind × Nat) := Kind.counted.map fun k => (k, (m.itemsOf k).length)

/-- The names of the components, in order and with repetitions. -/
def componentNames (m : Model) : List String := m.components.map Component.name

/-- The names of the entities, in order and with repetitions. -/
def entityNames (m : Model) : List String := m.entities.map fun e => e.name

/-- The names of the enumerations, in order and with repetitions. -/
def enumNames (m : Model) : List String := m.enumerations.map fun e => e.name

/-- The names of the events, in order and with repetitions. -/
def eventNames (m : Model) : List String := m.events.map fun e => e.name

/-- The names of the operations, in order and with repetitions. -/
def operationNames (m : Model) : List String := m.operations.map fun o => o.name

/-- Names in ascending order and without repetitions. -/
def sortNames (names : List String) : List String :=
  names.eraseDups.mergeSort fun a b => decide (a ≤ b)

/-- The names that can stand in a type expression. Events count, because an endpoint that streams
gives back events (specification, §4.2). -/
def knownTypes (m : Model) : List String :=
  sortNames ((Literal.all : List Primitive).map Literal.label ++ m.entityNames ++ m.enumNames ++
    m.eventNames)

/-- The names that a reference can have as its target. -/
def knownNames (m : Model) : List String :=
  sortNames (m.elements.map (fun d => d.name) ++ m.entityNames ++ m.enumNames ++
    m.flows.map (fun d => d.name) ++ m.eventNames ++ m.signals.map (fun d => d.name) ++
    m.componentNames ++ m.screens.map (fun d => d.name) ++ m.journeys.map (fun d => d.name) ++
    m.operationNames ++ m.actions.map (fun d => d.name))

/-- The counts as they stand in the journal. -/
def statsText (m : Model) : String :=
  "\x7b" ++ ", ".intercalate (m.stats.map fun s => s!"'{s.1.label}': {s.2}") ++ "\x7d"

end Model

/-- What is noted in the journal while the model of a document is collected. -/
def Document.collectNotes (d : Document) : Journal :=
  d.preorder.filterMap Item.note? ++ [.debug s!"Collected model: {d.collect.statsText}"]

end Blueprint
