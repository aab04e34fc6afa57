import Blueprint.Graph.Record

/-!
# Categories of edges

An edge of a category is written on both of its ends: in the forward slot of its source's record and
in the inverse slot of its target's record. Which kinds and slots go with a category is told by the
table in the specification (§4.4).

- `Category`: the categories; `Category.sources` and `Category.targets` are the kinds at the ends,
  `Category.forward` and `Category.inverse` the slots.
- `Edge`: an edge.
-/

namespace Blueprint

/-- What an edge of the graph says (specification, §4.4). -/
inductive Category where
  | entityFieldRef
  | flowEntity
  | flowOnEvent
  | flowEmitsEvent
  | apiExposesEntity
  | stateEnum
  | stateOnEvent
  | entityState
  | actionFromScreen
  | actionOnSignal
  | actionEmitsSignal
  | actionStreamApi
  | ruleEntity
  | operationEmitsEvent
  | operationOnEvent
  | operationEnforcesRule
  | flowUsesOperation
  | ruleTriggersOperation
  | screenUsesElement
  | handlesApi
  | callsApi
  | inherits
  | realizes
deriving DecidableEq

namespace Kind

/-- The kinds whose constructs can extend and implement others of their kind. -/
def inheritable : List Kind := [element, entity, flow, event, signal, screen, component]

end Kind

namespace Category

/-- The categories in order. -/
def all : List Category :=
  [entityFieldRef, flowEntity, flowOnEvent, flowEmitsEvent, apiExposesEntity, stateEnum,
    stateOnEvent, entityState, actionFromScreen, actionOnSignal, actionEmitsSignal,
    actionStreamApi, ruleEntity, operationEmitsEvent, operationOnEvent, operationEnforcesRule,
    flowUsesOperation, ruleTriggersOperation, screenUsesElement, handlesApi, callsApi, inherits,
    realizes]

/-- The name of a category. -/
def label : Category → String
  | entityFieldRef => "entity_field_ref"
  | flowEntity => "flow_entity"
  | flowOnEvent => "flow_on_event"
  | flowEmitsEvent => "flow_emits_event"
  | apiExposesEntity => "api_exposes_entity"
  | stateEnum => "state_enum"
  | stateOnEvent => "state_on_event"
  | entityState => "entity_state"
  | actionFromScreen => "action_from_screen"
  | actionOnSignal => "action_on_signal"
  | actionEmitsSignal => "action_emits_signal"
  | actionStreamApi => "action_stream_api"
  | ruleEntity => "rule_entity"
  | operationEmitsEvent => "operation_emits_event"
  | operationOnEvent => "operation_on_event"
  | operationEnforcesRule => "operation_enforces_rule"
  | flowUsesOperation => "flow_uses_operation"
  | ruleTriggersOperation => "rule_triggers_operation"
  | screenUsesElement => "screen_uses_element"
  | handlesApi => "handles_api"
  | callsApi => "calls_api"
  | inherits => "extends"
  | realizes => "implements"

/-- The category with a name. -/
def ofLabel? (name : String) : Option Category := all.find? fun c => c.label = name

/-- The kinds an edge can start from. -/
def sources : Category → List Kind
  | entityFieldRef => [.entity]
  | flowEntity => [.flow]
  | flowOnEvent => [.flow]
  | flowEmitsEvent => [.flow]
  | apiExposesEntity => [.api]
  | stateEnum => [.state]
  | stateOnEvent => [.state]
  | entityState => [.entity]
  | actionFromScreen => [.action]
  | actionOnSignal => [.action]
  | actionEmitsSignal => [.action]
  | actionStreamApi => [.action]
  | ruleEntity => [.rule]
  | operationEmitsEvent => [.operation]
  | operationOnEvent => [.operation]
  | operationEnforcesRule => [.operation]
  | flowUsesOperation => [.flow]
  | ruleTriggersOperation => [.rule]
  | screenUsesElement => [.screen]
  | handlesApi => [.flow, .operation]
  | callsApi => [.operation]
  | inherits => Kind.inheritable
  | realizes => Kind.inheritable

/-- The kinds an edge can lead to. -/
def targets : Category → List Kind
  | entityFieldRef => [.entity, .enumeration]
  | flowEntity => [.entity]
  | flowOnEvent => [.event]
  | flowEmitsEvent => [.event]
  | apiExposesEntity => [.entity]
  | stateEnum => [.enumeration]
  | stateOnEvent => [.event]
  | entityState => [.state]
  | actionFromScreen => [.screen]
  | actionOnSignal => [.signal]
  | actionEmitsSignal => [.signal]
  | actionStreamApi => [.api]
  | ruleEntity => [.entity]
  | operationEmitsEvent => [.event]
  | operationOnEvent => [.event]
  | operationEnforcesRule => [.rule]
  | flowUsesOperation => [.operation]
  | ruleTriggersOperation => [.operation]
  | screenUsesElement => [.element]
  | handlesApi => [.api]
  | callsApi => [.api]
  | inherits => Kind.inheritable
  | realizes => Kind.inheritable

/-- The slot of the source that holds the target. -/
def forward : Category → Slot
  | entityFieldRef => .referencesTypes
  | flowEntity => .involvedEntities
  | flowOnEvent => .triggeredByEvents
  | flowEmitsEvent => .emitsEvents
  | apiExposesEntity => .exposesEntities
  | stateEnum => .enumRef
  | stateOnEvent => .triggeredByEvents
  | entityState => .governedByStates
  | actionFromScreen => .sourceScreens
  | actionOnSignal => .onSignals
  | actionEmitsSignal => .emitsSignals
  | actionStreamApi => .streamApis
  | ruleEntity => .governsEntities
  | operationEmitsEvent => .emitsEvents
  | operationOnEvent => .triggeredByEvents
  | operationEnforcesRule => .enforcesRules
  | flowUsesOperation => .usesOperations
  | ruleTriggersOperation => .triggersOperations
  | screenUsesElement => .usesElements
  | handlesApi => .handlesApis
  | callsApi => .callsApis
  | inherits => .extendsParent
  | realizes => .implementsInterfaces

/-- The slot of the target that holds the source. -/
def inverse : Category → Slot
  | entityFieldRef => .referencedByEntities
  | flowEntity => .usedByFlows
  | flowOnEvent => .triggersFlows
  | flowEmitsEvent => .emittedBy
  | apiExposesEntity => .exposedByApi
  | stateEnum => .usedByStates
  | stateOnEvent => .triggersStates
  | entityState => .governsEntities
  | actionFromScreen => .actionSources
  | actionOnSignal => .signalListenedByActions
  | actionEmitsSignal => .signalEmittedByActions
  | actionStreamApi => .calledByActions
  | ruleEntity => .governedByRules
  | operationEmitsEvent => .emittedBy
  | operationOnEvent => .triggersOperations
  | operationEnforcesRule => .enforcedByOperations
  | flowUsesOperation => .usedByFlows
  | ruleTriggersOperation => .triggeredByRules
  | screenUsesElement => .usedByScreens
  | handlesApi => .handledBy
  | callsApi => .calledByOperations
  | inherits => .extendedByChildren
  | realizes => .implementedByConcretes

/-- Whether a source has at most one edge of the category. -/
def isSingle (c : Category) : Bool := c.forward.isSingle

/-- Whether edges of the category are shown in an overview. What an API exposes is not: an overview
gets there by way of flows and operations. -/
def inOverview : Category → Bool
  | apiExposesEntity => false
  | _ => true

theorem mem_all (c : Category) : c ∈ all := by cases c <;> decide

end Category

/-- An edge of the graph. -/
structure Edge where
  source : Ref
  category : Category
  target : Ref
deriving DecidableEq

end Blueprint
