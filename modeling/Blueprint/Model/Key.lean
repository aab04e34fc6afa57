import Blueprint.Document.Declaration

/-!
# Kinds and keys of constructs

Every stage of the analysis addresses a construct by its kind and its name. Kinds and keys are those
of the specification (§3, construct keys).

- `Kind`: the eighteen kinds; `Kind.ownable` are those that a component can own.
- `Key`: a kind and a name, written `kind:name`.
- `Api.keyName`: APIs are mostly anonymous, so an API is named by its name or else its style,
  followed by the path all its endpoints share.
- `Item.key?`: the key of an item, if it is a declaration.
-/

namespace Blueprint

/-- What a declaration declares (specification, §3, construct keys). -/
inductive Kind where
  | element
  | entity
  | enumeration
  | flow
  | state
  | event
  | signal
  | api
  | rule
  | screen
  | journey
  | operation
  | action
  | component
  | system
  | dependency
  | secret
  | node
deriving DecidableEq

namespace Kind

/-- The kinds that a component can own, in the order in which constructs are listed. Systems hold
components and are owned by none. -/
def ownable : List Kind :=
  [element, entity, enumeration, flow, state, event, signal, api, rule, screen, journey, operation,
    action, component, dependency, secret, node]

/-- The kinds in the order of their names in messages. -/
def all : List Kind :=
  [element, entity, enumeration, flow, state, event, signal, api, rule, screen, journey, operation,
    action, component, system, dependency, secret, node]

/-- The kinds in the order in which constructs are counted. -/
def counted : List Kind :=
  [system, component, element, entity, enumeration, flow, state, event, signal, api, rule,
    dependency, secret, screen, journey, operation, action, node]

/-- The name of a kind. -/
def label : Kind → String
  | element => "element"
  | entity => "entity"
  | enumeration => "enum"
  | flow => "flow"
  | state => "state"
  | event => "event"
  | signal => "signal"
  | api => "api"
  | rule => "rule"
  | screen => "screen"
  | journey => "journey"
  | operation => "operation"
  | action => "action"
  | component => "component"
  | system => "system"
  | dependency => "dep"
  | secret => "secret"
  | node => "node"

/-- The kind with a name. -/
def ofLabel? (name : String) : Option Kind := all.find? fun k => k.label = name

theorem ofLabel?_label (k : Kind) : ofLabel? k.label = some k := by cases k <;> decide

theorem mem_all (k : Kind) : k ∈ all := by cases k <;> decide

theorem mem_ownable_iff {k : Kind} : k ∈ ownable ↔ k ≠ system := by cases k <;> decide

end Kind

/-- The identity of a construct. -/
structure Key where
  kind : Kind
  name : String
deriving DecidableEq

/-- A key as text: `kind:name`. -/
def Key.text (k : Key) : String := k.kind.label ++ ":" ++ k.name

/-- A text if it is not empty. -/
def nonEmpty? (s : String) : Option String := if s = "" then none else some s

@[simp] theorem nonEmpty?_eq_none_iff {s : String} : nonEmpty? s = none ↔ s = "" := by
  by_cases h : s = "" <;> simp [nonEmpty?, h]

@[simp] theorem nonEmpty?_eq_some_iff {s t : String} :
    nonEmpty? s = some t ↔ s = t ∧ s ≠ "" := by
  by_cases h : s = "" <;> simp [nonEmpty?, h]

/-! ## APIs -/

namespace Api

/-- The name of an API, or else its style. -/
def label (a : Api) : String := ((a.name.bind nonEmpty?).getD (Literal.label a.style))

/-- The path that all endpoints of an API share, if there is one. -/
def basePath? (a : Api) : Option String := (decoratorText a.decorators "prefix").bind nonEmpty?

/-- The name by which an API is addressed (specification, §3, construct keys). -/
def keyName (a : Api) : String :=
  match a.basePath? with
  | some path => a.label ++ ":" ++ path
  | none => a.label

/-- The key of an API. -/
def key (a : Api) : Key := ⟨.api, a.keyName⟩

end Api

/-! ## Keys of declarations -/

namespace Construct

/-- The kind of a construct. -/
def kind : Construct → Kind
  | dependency _ => .dependency
  | secret _ => .secret
  | node _ => .node
  | element _ => .element
  | entity _ => .entity
  | enumeration _ => .enumeration
  | flow _ => .flow
  | state _ => .state
  | event _ => .event
  | signal _ => .signal
  | api _ => .api
  | rule _ => .rule
  | screen _ => .screen
  | journey _ => .journey
  | operation _ => .operation
  | action _ => .action

/-- The name of a construct: a dependency is named by its target, an API by its key name. -/
def name : Construct → String
  | dependency d => d.target
  | secret d => d.name
  | node d => d.name
  | element d => d.name
  | entity d => d.name
  | enumeration d => d.name
  | flow d => d.name
  | state d => d.name
  | event d => d.name
  | signal d => d.name
  | api d => d.keyName
  | rule d => d.name
  | screen d => d.name
  | journey d => d.name
  | operation d => d.name
  | action d => d.name

/-- The key of a construct. -/
def key (c : Construct) : Key := ⟨c.kind, c.name⟩

end Construct

namespace Item

/-- The key of an item, if it is a declaration. -/
def key? : Item → Option Key
  | system head _ => some ⟨.system, head.name⟩
  | component head _ => some ⟨.component, head.name⟩
  | construct decl => some decl.key
  | _ => none

/-- The kind of an item, if it is a declaration. -/
def kind? (i : Item) : Option Kind := i.key?.map Key.kind

end Item

end Blueprint
