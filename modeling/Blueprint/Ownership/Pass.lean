import Blueprint.Model.Basic
import Blueprint.Ownership.ScoreBoard
import Blueprint.Text.Lowercase
import Blueprint.Text.Search

/-!
# The seven passes of ownership

Each pass looks at the owners found by the passes before it and proposes owners for more constructs.
Only proposals for constructs without an owner are kept, so an earlier pass wins. These are the
passes 1 to 7 of the specification (§4.3).

- `Pass`: the passes in the order in which they run.
- `Owners`: owners found so far; `Owners.owner?` passes over a component without a name.
- `Evidence`: the scores of types, which the third pass gathers and the fourth reads.
- `Pass.observe`, `Pass.propose`: what a pass adds to the evidence, and what it proposes.
-/

namespace Blueprint

/-- The passes, in the order in which they run. -/
inductive Pass where
  | directNesting
  | apiNamePrefix
  | typeScoring
  | flowScoring
  | enumInheritance
  | kindHeuristics
  | fallback
deriving DecidableEq

namespace Pass

/-- The passes in order. -/
def all : List Pass :=
  [directNesting, apiNamePrefix, typeScoring, flowScoring, enumInheritance, kindHeuristics,
    fallback]

/-- The name of a pass. -/
def label : Pass → String
  | directNesting => "direct_nesting"
  | apiNamePrefix => "api_name_prefix"
  | typeScoring => "type_scoring"
  | flowScoring => "flow_scoring"
  | enumInheritance => "enum_inheritance"
  | kindHeuristics => "kind_heuristics"
  | fallback => "fallback"

/-- The pass with a name. -/
def ofLabel? (name : String) : Option Pass := all.find? fun p => p.label = name

end Pass

/-! ## Owners -/

/-- Owning components of constructs. -/
abbrev Owners := Table Key String

namespace Owners

/-- The owner of a construct; a component without a name counts as none. -/
def owner? (o : Owners) (k : Key) : Option String := (o.find? k).bind nonEmpty?

/-- The owner of the entity of a name, or else of the enumeration of that name. -/
def typeOwner? (o : Owners) (name : String) : Option String :=
  (o.owner? ⟨.entity, name⟩).or (o.owner? ⟨.enumeration, name⟩)

/-- The owner of the first construct that has one. -/
def firstOwner? (o : Owners) (keys : List Key) : Option String := keys.findSome? o.owner?

end Owners

/-! ## Evidence -/

/-- What the passes hand on besides owners. -/
structure Evidence where
  /-- Points of components for the names of types. -/
  typeScores : ScoreBoard := {}
  /-- The owners as they were when types were scored. -/
  ownedBefore : Owners := ∅

/-- The points that a reference from an endpoint gives. -/
def endpointRefWeight : Int := 3

/-- The points that the mention of an entity in a step of a flow gives. -/
def stepMentionWeight : Int := 2

/-- The points that a parameter or a result of a flow gives. -/
def flowRefWeight : Int := 3

/-- The points that a parameter or a result of an operation gives. -/
def operationRefWeight : Int := 3

/-- The points that an event of an operation gives. -/
def operationEventWeight : Int := 2

/-- The points that the mention of an entity in a clause of a rule gives. -/
def ruleMentionWeight : Int := 1

/-- The screen of a journey's step that stands for any screen. -/
def anyScreen : String := "*"

namespace Evidence

/-- The points that one API gives: for each endpoint's reference to a declared type without owner,
to the API's owner. -/
def scoreApi (m : Model) (owners : Owners) (board : ScoreBoard) (a : Api) : ScoreBoard :=
  match owners.owner? a.key with
  | none => board
  | some component =>
    let refs := (a.endpoints.flatMap Endpoint.refs).filter fun r =>
      -- an owned enumeration keeps an entity of the same name from being scored
      (m.entityNames.contains r || m.enumNames.contains r) && (owners.typeOwner? r).isNone
    refs.foldl (fun b r => b.add r component endpointRefWeight) board

/-- The evidence after types have been scored (specification, §4.3, pass 3). -/
def scoreTypes (m : Model) (owners : Owners) (e : Evidence) : Evidence where
  typeScores := m.apis.foldl (scoreApi m owners) e.typeScores
  ownedBefore := owners

end Evidence

/-! ## Proposals -/

namespace Pass

/-- Propose an owner for a construct that has none; the first proposal counts. -/
def proposeFor (owners : Owners) (proposed : Owners) (k : Key) (component? : Option String) :
    Owners :=
  match component? with
  | none => proposed
  | some component => if owners.contains k then proposed else proposed.insertNew k component

/-- The constructs that stand directly in a component. -/
def nestedKeys (c : Component) : List Key :=
  c.body.filterMap fun
    | .construct decl => some decl.key
    | _ => none

/-- A component owns itself and the constructs that stand directly in it (specification, §4.3, pass
1). -/
def byNesting (m : Model) : Owners :=
  m.components.foldl
    (fun proposed c =>
      (⟨.component, c.name⟩ :: nestedKeys c).foldl (fun p k => p.insertNew k c.name) proposed)
    ∅

/-- The first component with whose name the name of an API begins, whatever the case. -/
def namesake? (m : Model) (a : Api) : Option String :=
  (a.name.bind nonEmpty?).bind fun name =>
    let lowered := Text.lowercase name
    m.componentNames.find? fun c => Text.beginsWith lowered (Text.lowercase c)

/-- An API goes to the component whose name its own begins with (specification, §4.3, pass 2). -/
def byApiName (m : Model) (owners : Owners) : Owners :=
  m.apis.foldl (fun proposed a => proposeFor owners proposed a.key (namesake? m a)) ∅

/-- Entities and enumerations go to the component whose APIs use them most (specification, §4.3,
pass 3). -/
def byTypeScore (m : Model) (e : Evidence) (owners : Owners) : Owners :=
  let keys := m.entityNames.map (Key.mk .entity) ++ m.enumNames.map (Key.mk .enumeration)
  keys.foldl (fun proposed k => proposeFor owners proposed k (e.typeScores.best k.name)) ∅

/-- The points that the mention of an entity in a step gives: to its owner, or, when it had none
before types were scored, whatever its own points are. -/
def mentionPoints (e : Evidence) (entity : String) : List (String × Int) :=
  match e.ownedBefore.owner? ⟨.entity, entity⟩ with
  | some component => [(component, stepMentionWeight)]
  -- pass 3 may have given it an owner since, but its raw points count
  | none => (e.typeScores.scores entity).entries

/-- The points that a flow gives to components: first by its steps, then by its types. -/
def flowPoints (m : Model) (e : Evidence) (f : Flow) : List (String × Int) :=
  (f.body.filterMap FlowItem.text?).flatMap (fun text =>
    (m.entityNames.filter (Text.mentions text)).flatMap (mentionPoints e)) ++
  (TypeExpr.refsOfAll (f.params.map some ++ [f.returnType])).filterMap fun r =>
    (e.ownedBefore.typeOwner? r).map fun component => (component, flowRefWeight)

/-- The points that the flows without owner give. -/
def flowBoard (m : Model) (e : Evidence) (owners : Owners) : ScoreBoard :=
  (m.flows.filter fun f => !owners.contains ⟨.flow, f.name⟩).foldl
    (fun b f => b.merge f.name (flowPoints m e f)) {}

/-- Flows go to the component whose entities they mention and take (specification, §4.3, pass 4). -/
def byFlowScore (m : Model) (e : Evidence) (owners : Owners) : Owners :=
  let board := flowBoard m e owners
  m.flows.foldl (fun proposed f => proposeFor owners proposed ⟨.flow, f.name⟩ (board.best f.name)) ∅

/-- Whether a field of an entity refers to a type. -/
def usesType (d : Structured) (name : String) : Bool :=
  d.fields.any fun f => f.type.refs.contains name

/-- The owner of the first owned entity with a field of an enumeration. -/
def heir? (m : Model) (owners : Owners) (enumName : String) : Option String :=
  m.entities.findSome? fun d =>
    if usesType d enumName then owners.owner? ⟨.entity, d.name⟩ else none

/-- Enumerations follow the first owned entity that has a field of theirs (specification, §4.3, pass
5). -/
def byInheritance (m : Model) (owners : Owners) : Owners :=
  m.enumNames.foldl
    (fun proposed n => proposeFor owners proposed ⟨.enumeration, n⟩ (heir? m owners n)) ∅

/-! ### Heuristics by kind -/

/-- The owner of the first owned entity whose name occurs in a name. -/
def entityInName? (m : Model) (owners : Owners) (name : String) : Option String :=
  owners.firstOwner? ((m.entityNames.filter (Text.mentions name)).map (Key.mk .entity))

/-- The points that a rule gives to the owners of the entities it mentions. -/
def rulePoints (m : Model) (owners : Owners) (r : Rule) : List (String × Int) :=
  (r.body.filterMap RuleItem.text?).flatMap fun text =>
    (m.entityNames.filter (Text.mentions text)).filterMap fun n =>
      (owners.owner? ⟨.entity, n⟩).map fun component => (component, ruleMentionWeight)

/-- The component that a rule mentions most. -/
def ruleOwner? (m : Model) (owners : Owners) (r : Rule) : Option String :=
  (({} : ScoreBoard).merge r.name (rulePoints m owners r)).best r.name (some m.componentNames)

/-- The owner of the first owned screen that a journey leaves. -/
def journeyOwner? (owners : Owners) (j : Journey) : Option String :=
  owners.firstOwner? <| j.body.filterMap fun
    | .step s => if s.source ≠ "" ∧ s.source ≠ anyScreen then some ⟨.screen, s.source⟩ else none
    | .comment _ => none

/-- The points that an operation gives: for its types first, then for its events. -/
def operationPoints (owners : Owners) (o : Operation) : List (String × Int) :=
  ((TypeExpr.refsOfAll (o.params.map some ++ [o.returnType])).filterMap fun r =>
    (owners.typeOwner? r).map fun component => (component, operationRefWeight)) ++
  o.body.filterMap fun
    | .emits c => (owners.owner? ⟨.event, c.event⟩).map fun component =>
        (component, operationEventWeight)
    | .reacts c => (owners.owner? ⟨.event, c.event⟩).map fun component =>
        (component, operationEventWeight)
    | _ => none

/-- The component whose types and events an operation uses most. -/
def operationOwner? (m : Model) (owners : Owners) (o : Operation) : Option String :=
  (({} : ScoreBoard).merge o.name (operationPoints owners o)).best o.name (some m.componentNames)

/-- The owner of the first owned entity that is the type of a property. -/
def elementOwner? (owners : Owners) (d : Element) : Option String :=
  owners.firstOwner? <| d.body.filterMap fun
    | .property { type := .reference _ name, .. } => some ⟨.entity, name⟩
    | _ => none

/-- The owner of the first owned screen that an action starts from. -/
def actionOwner? (owners : Owners) (a : Action) : Option String :=
  owners.firstOwner? <| a.body.filterMap fun
    | .startsFrom _ screen => some ⟨.screen, screen⟩
    | _ => none

/-- What the heuristics say of each construct. They all look at the same owners, so the order of
the kinds does not matter. -/
def heuristics (m : Model) (owners : Owners) : List (Key × Option String) :=
  m.events.map (fun d => (⟨.event, d.name⟩, entityInName? m owners d.name)) ++
  m.signals.map (fun d => (⟨.signal, d.name⟩, entityInName? m owners d.name)) ++
  m.states.map (fun d => (⟨.state, d.name⟩, owners.owner? ⟨.enumeration, d.enumRef⟩)) ++
  m.rules.map (fun d => (⟨.rule, d.name⟩, ruleOwner? m owners d)) ++
  m.journeys.map (fun d => (⟨.journey, d.name⟩, journeyOwner? owners d)) ++
  m.operations.map (fun d => (⟨.operation, d.name⟩, operationOwner? m owners d)) ++
  m.elements.map (fun d => (⟨.element, d.name⟩, elementOwner? owners d)) ++
  m.actions.map (fun d => (⟨.action, d.name⟩, actionOwner? owners d))

/-- Constructs of the other kinds go where the heuristic of their kind says (specification, §4.3,
pass 6). -/
def byHeuristics (m : Model) (owners : Owners) : Owners :=
  (heuristics m owners).foldl (fun proposed h => proposeFor owners proposed h.1 h.2) ∅

/-- What is left goes to the first component (specification, §4.3, pass 7). -/
def byDefault (m : Model) (owners : Owners) : Owners :=
  m.keys.foldl (fun proposed k => proposeFor owners proposed k m.componentNames.head?) ∅

/-! ### Running a pass -/

/-- The evidence after a pass has looked at the owners. -/
def observe (m : Model) (owners : Owners) (e : Evidence) : Pass → Evidence
  | typeScoring => e.scoreTypes m owners
  | _ => e

/-- What a pass proposes, given the evidence after it has looked. -/
def propose (m : Model) (e : Evidence) (owners : Owners) : Pass → Owners
  | directNesting => byNesting m
  | apiNamePrefix => byApiName m owners
  | typeScoring => byTypeScore m e owners
  | flowScoring => byFlowScore m e owners
  | enumInheritance => byInheritance m owners
  | kindHeuristics => byHeuristics m owners
  | fallback => byDefault m owners

/-- What a pass notes in the journal by itself. -/
def notes (m : Model) : Pass → Journal
  | fallback =>
    if m.componentNames.isEmpty then [.debug "No components declared, ownership fallback skipped"]
    else []
  | _ => []

end Pass

end Blueprint
