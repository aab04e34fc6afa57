import Blueprint.Model.Key

/-!
# Records of references

A record holds the references to and from one construct, sorted into slots. Most slots hold any
number of references; an enumeration and a parent are held at most once. These are the relationship
records of the specification (§4.4).

- `Slot`: the slots; `Slot.isSingle` tells those that hold at most one reference.
- `Ref`: a construct with its owner.
- `Record`: the references of a construct by slot, and the endpoints its clauses name.
-/

namespace Blueprint

/-- Where a record keeps references of one sort. -/
inductive Slot where
  | referencesTypes
  | referencedByEntities
  | involvedEntities
  | usedByFlows
  | usesOperations
  | triggeredByEvents
  | triggersFlows
  | triggersStates
  | triggersOperations
  | emitsEvents
  | emittedBy
  | exposesEntities
  | exposedByApi
  | handlesApis
  | handledBy
  | callsApis
  | calledByOperations
  | streamApis
  | calledByActions
  | enumRef
  | usedByStates
  | governedByStates
  | governsEntities
  | governedByRules
  | enforcesRules
  | enforcedByOperations
  | triggeredByRules
  | sourceScreens
  | actionSources
  | usesElements
  | usedByScreens
  | onSignals
  | signalListenedByActions
  | emitsSignals
  | signalEmittedByActions
  | extendsParent
  | extendedByChildren
  | implementsInterfaces
  | implementedByConcretes
deriving DecidableEq

namespace Slot

/-- The slots in order. -/
def all : List Slot :=
  [referencesTypes, referencedByEntities, involvedEntities, usedByFlows, usesOperations,
    triggeredByEvents, triggersFlows, triggersStates, triggersOperations, emitsEvents, emittedBy,
    exposesEntities, exposedByApi, handlesApis, handledBy, callsApis, calledByOperations,
    streamApis, calledByActions, enumRef, usedByStates, governedByStates, governsEntities,
    governedByRules, enforcesRules, enforcedByOperations, triggeredByRules, sourceScreens,
    actionSources, usesElements, usedByScreens, onSignals, signalListenedByActions, emitsSignals,
    signalEmittedByActions, extendsParent, extendedByChildren, implementsInterfaces,
    implementedByConcretes]

/-- The name of a slot. -/
def label : Slot → String
  | referencesTypes => "references_types"
  | referencedByEntities => "referenced_by_entities"
  | involvedEntities => "involved_entities"
  | usedByFlows => "used_by_flows"
  | usesOperations => "uses_operations"
  | triggeredByEvents => "triggered_by_events"
  | triggersFlows => "triggers_flows"
  | triggersStates => "triggers_states"
  | triggersOperations => "triggers_operations"
  | emitsEvents => "emits_events"
  | emittedBy => "emitted_by"
  | exposesEntities => "exposes_entities"
  | exposedByApi => "exposed_by_api"
  | handlesApis => "handles_apis"
  | handledBy => "handled_by"
  | callsApis => "calls_apis"
  | calledByOperations => "called_by_operations"
  | streamApis => "stream_apis"
  | calledByActions => "called_by_actions"
  | enumRef => "enum_ref"
  | usedByStates => "used_by_states"
  | governedByStates => "governed_by_states"
  | governsEntities => "governs_entities"
  | governedByRules => "governed_by_rules"
  | enforcesRules => "enforces_rules"
  | enforcedByOperations => "enforced_by_operations"
  | triggeredByRules => "triggered_by_rules"
  | sourceScreens => "source_screens"
  | actionSources => "action_sources"
  | usesElements => "uses_elements"
  | usedByScreens => "used_by_screens"
  | onSignals => "on_signals"
  | signalListenedByActions => "signal_listened_by_actions"
  | emitsSignals => "emits_signals"
  | signalEmittedByActions => "signal_emitted_by_actions"
  | extendsParent => "extends_parent"
  | extendedByChildren => "extended_by_children"
  | implementsInterfaces => "implements_interfaces"
  | implementedByConcretes => "implemented_by_concretes"

/-- The slot with a name. -/
def ofLabel? (name : String) : Option Slot := all.find? fun s => s.label = name

/-- Whether a slot holds at most one reference. -/
def isSingle : Slot → Bool
  | enumRef => true
  | extendsParent => true
  | _ => false

theorem mem_all (s : Slot) : s ∈ all := by cases s <;> decide

end Slot

/-- A construct with its owner. -/
structure Ref where
  component : String
  kind : Kind
  name : String
deriving DecidableEq

namespace Ref

/-- The key of the construct. -/
def key (r : Ref) : Key := ⟨r.kind, r.name⟩

/-- A reference as text: `component:kind:name`. -/
def text (r : Ref) : String := r.component ++ ":" ++ r.kind.label ++ ":" ++ r.name

end Ref

/-- An endpoint that a clause names, with the owner of the construct whose clause it is. -/
structure EndpointRef where
  method : String
  path : String
  component : String
deriving DecidableEq

/-- Where a record keeps endpoints. -/
inductive EndpointSlot where
  | handles
  | calls
deriving DecidableEq

namespace EndpointSlot

/-- The name of an endpoint slot. -/
def label : EndpointSlot → String
  | handles => "handles_endpoints"
  | calls => "calls_endpoints"

/-- The endpoint slots in order. -/
def all : List EndpointSlot := [handles, calls]

/-- The endpoint slot with a name. -/
def ofLabel? (name : String) : Option EndpointSlot := all.find? fun s => s.label = name

end EndpointSlot

/-- The references to and from one construct. -/
structure Record where
  refs : Slot → List Ref := fun _ => []
  endpoints : EndpointSlot → List EndpointRef := fun _ => []

/-- A list with an element at its end, unless it is there already. -/
def addNew {α : Type} [DecidableEq α] (xs : List α) (x : α) : List α :=
  if x ∈ xs then xs else xs ++ [x]

namespace Record

/-- The record with a slot replaced. -/
def setRefs (r : Record) (s : Slot) (refs : List Ref) : Record :=
  { r with refs := fun t => if t = s then refs else r.refs t }

/-- The record with an endpoint, unless it is there already. -/
def addEndpoint (r : Record) (s : EndpointSlot) (e : EndpointRef) : Record :=
  { r with endpoints := fun t => if t = s then addNew (r.endpoints s) e else r.endpoints t }

@[simp] theorem refs_setRefs_self (r : Record) (s : Slot) (refs : List Ref) :
    (r.setRefs s refs).refs s = refs := by simp [setRefs]

theorem refs_setRefs_of_ne (r : Record) {s t : Slot} (refs : List Ref) (h : t ≠ s) :
    (r.setRefs s refs).refs t = r.refs t := by simp [setRefs, h]

end Record

end Blueprint
