import Blueprint.Proofs.Graph.Integrity
import Blueprint.Proofs.Ownership.Faithful

/-!
# The graph does not depend on how a model is written

What the declarations of a model say to the graph is, again, names, references of types and clauses.
Kind by kind, a faithful revision says the same. So the whole analysis sees a type expression only
through its references: two models whose expressions have the same references, each in its place,
have the same owners and the same graph.

- `Model.instructions_revise`, `Model.buildGraph_revise`: the graph of a revised model.
- `TypeExpr.outline`, `Revision.outline`: type expressions reduced to their references.
- `Model.types_seen_through_refs`: what an analysis can tell about types.
-/

namespace Blueprint

variable {r : Revision}

/-! ## Endpoints -/

theorem Endpoint.method_revise (r : Revision) (e : Endpoint) : (e.revise r).method = e.method := by
  cases e <;> rfl

theorem Endpoint.path_revise (r : Revision) (e : Endpoint) : (e.revise r).path = e.path := by
  cases e <;> rfl

namespace Model

variable {m : Model} {o : Ownership}

theorem endpoints_revise : (m.revise r).endpoints = m.endpoints := by
  simp only [endpoints, apis_revise, List.flatMap_map, Api.key_revise]
  simp only [Api.revise, List.map_map, Function.comp_def, Endpoint.method_revise,
    Endpoint.path_revise]

theorem apisServing_revise (method : Option String) (path : String) :
    (m.revise r).apisServing method path = m.apisServing method path := by
  rw [apisServing, endpoints_revise, apisServing]

theorem endpointClause_revise (source : Key) (slot : EndpointSlot) (c : Category)
    (clause : EndpointClause) :
    (m.revise r).endpointClause o source slot c clause =
      m.endpointClause o source slot c clause := by
  simp only [endpointClause, apisServing_revise]

/-! ## What declarations say -/

theorem mentionedEntities_revise (text : String) :
    (m.revise r).mentionedEntities text = m.mentionedEntities text := by
  rw [mentionedEntities, entityNames_revise, mentionedEntities]

theorem entityInstructions_revise (h : r.Faithful) :
    (m.revise r).entityInstructions = m.entityInstructions := by
  simp only [entityInstructions, entities_revise, List.flatMap_map, enumNames_revise]
  simp only [Structured.revise, List.flatMap_map, h _]
  rfl

theorem flowItem_revise : (m.revise r).flowItem = m.flowItem := by
  funext source i
  simp only [flowItem, eventNames_revise, mentionedEntities_revise]

theorem flowInstructions_revise (h : r.Faithful) :
    (m.revise r).flowInstructions = m.flowInstructions := by
  -- comments give no instructions, so it does not matter whether they are struck out
  have hbody : ∀ f : Flow, (r.body f.body).flatMap (m.flowItem ⟨.flow, f.name⟩) =
      f.body.flatMap (m.flowItem ⟨.flow, f.name⟩) := fun f =>
    Revision.flatMap_body (fun _ => rfl) f.body
  simp only [flowInstructions, flows_revise, List.flatMap_map, flowItem_revise]
  simp only [Flow.revise, h.signature, hbody]

theorem apiInstructions_revise (h : r.Faithful) :
    (m.revise r).apiInstructions = m.apiInstructions := by
  simp only [apiInstructions, apis_revise, List.flatMap_map, Api.refs_revise h, Api.key_revise,
    entityNames_revise]

theorem stateInstructions_revise (h : r.Faithful) :
    (m.revise r).stateInstructions = m.stateInstructions := by
  simp only [stateInstructions, states_revise, entities_revise, List.flatMap_map, List.filter_map,
    List.map_map, Function.comp_def, enumNames_revise, eventNames_revise, Pass.usesType_revise h]
  rfl

theorem actionItem_revise : (m.revise r).actionItem = m.actionItem := by
  funext source i
  cases i <;> simp only [actionItem, apisServing_revise]

theorem actionInstructions_revise : (m.revise r).actionInstructions = m.actionInstructions := by
  simp only [actionInstructions, actions_revise, List.flatMap_map, actionItem_revise]
  exact Revision.flatMap_flatMap_body Action.body (fun _ _ => rfl) _

theorem calledOperation?_revise (reserved : List String) (text : String) :
    (m.revise r).calledOperation? reserved text = m.calledOperation? reserved text := by
  simp only [calledOperation?, operationNames_revise]

theorem ruleItem_revise : (m.revise r).ruleItem = m.ruleItem := by
  funext source i
  simp only [ruleItem, mentionedEntities_revise, calledOperation?_revise]

theorem ruleInstructions_revise : (m.revise r).ruleInstructions = m.ruleInstructions := by
  simp only [ruleInstructions, rules_revise, List.flatMap_map, ruleItem_revise]
  exact Revision.flatMap_flatMap_body Rule.body (fun _ _ => rfl) _

theorem operationItem_revise : (m.revise r).operationItem o = m.operationItem o := by
  funext source i
  cases i <;> simp only [operationItem, endpointClause_revise]

theorem operationInstructions_revise :
    (m.revise r).operationInstructions o = m.operationInstructions o := by
  simp only [operationInstructions, operations_revise, List.flatMap_map, operationItem_revise]
  exact Revision.flatMap_flatMap_body Operation.body (fun _ _ => rfl) _

theorem flowCall_revise : (m.revise r).flowCall o = m.flowCall o := by
  funext source i
  cases i <;> simp only [flowCall, endpointClause_revise, calledOperation?_revise]

theorem flowCallInstructions_revise :
    (m.revise r).flowCallInstructions o = m.flowCallInstructions o := by
  simp only [flowCallInstructions, flows_revise, List.flatMap_map, flowCall_revise]
  exact Revision.flatMap_flatMap_body Flow.body (fun _ _ => rfl) _

theorem screenInstructions_revise : (m.revise r).screenInstructions = m.screenInstructions := by
  simp only [screenInstructions, screens_revise, List.flatMap_map]
  congr 1
  funext s
  exact Revision.filterMap_body (fun _ => rfl) s.body

theorem lineages_revise (k : Kind) : (m.revise r).lineages k = m.lineages k := by
  cases k <;> simp only [lineages, elements_revise, entities_revise, flows_revise, events_revise,
    signals_revise, screens_revise, components_revise, List.map_map] <;> rfl

theorem inheritanceInstructions_revise :
    (m.revise r).inheritanceInstructions = m.inheritanceInstructions := by
  simp only [inheritanceInstructions, lineages_revise]

theorem journeyInstructions_revise : (m.revise r).journeyInstructions = m.journeyInstructions := by
  simp only [journeyInstructions, journeys_revise, List.flatMap_map]
  exact Revision.flatMap_flatMap_body Journey.body (fun _ _ => rfl) _

/-- **A faithful revision says the same to the graph.** -/
theorem instructions_revise (h : r.Faithful) (m : Model) (o : Ownership) :
    (m.revise r).instructions o = m.instructions o := by
  simp only [instructions, entityInstructions_revise h, flowInstructions_revise h,
    apiInstructions_revise h, stateInstructions_revise h, actionInstructions_revise,
    ruleInstructions_revise, operationInstructions_revise, flowCallInstructions_revise,
    screenInstructions_revise, inheritanceInstructions_revise, journeyInstructions_revise]

theorem buildGraph_revise (h : r.Faithful) (m : Model) (o : Ownership) :
    (m.revise r).buildGraph o = m.buildGraph o := by
  rw [buildGraph, Builder.build, instructions_revise h]
  rfl

/-- Models that a faithful revision makes equal have the same owners and the same graph. -/
theorem analysis_eq_of_revise_eq (h : r.Faithful) {m m' : Model} (heq : m.revise r = m'.revise r) :
    m.assignOwners = m'.assignOwners ∧ ∀ o, m.buildGraph o = m'.buildGraph o := by
  constructor
  · rw [← assignOwners_revise h m, heq, assignOwners_revise h]
  · intro o
    rw [← buildGraph_revise h m, heq, buildGraph_revise h]

end Model

/-! ## Types reduced to their references -/

namespace TypeExpr

/-- The union of the references of an expression. -/
def outline (t : TypeExpr) : TypeExpr := .union none (t.refs.map (.reference none))

theorem refs_outline (t : TypeExpr) : t.outline.refs = t.refs := by
  have hrefs : t.outline.refs = (t.refs.map (.reference none)).flatMap refs :=
    refsOfList_eq_flatMap _
  rw [hrefs, List.flatMap_map]
  exact List.flatMap_singleton' t.refs

theorem outline_eq_iff {t t' : TypeExpr} : t.outline = t'.outline ↔ t.refs = t'.refs := by
  constructor
  · intro h
    rw [← refs_outline t, h, refs_outline]
  · intro h
    rw [outline, h, outline]

/-- Other words for a type: wrappers are put on or taken off, the alternatives of a union are
grouped in another way, and what refers to nothing is exchanged. -/
inductive Reworded : TypeExpr → TypeExpr → Prop
  | refl (t : TypeExpr) : Reworded t t
  | symm {t u : TypeExpr} : Reworded t u → Reworded u t
  | trans {t u v : TypeExpr} : Reworded t u → Reworded u v → Reworded t v
  | optional (loc : Location) (t : TypeExpr) : Reworded (.optional loc t) t
  | array (loc : Location) (t : TypeExpr) : Reworded (.array loc t) t
  | single (loc : Location) (t : TypeExpr) : Reworded (.union loc [t]) t
  | flatten (loc loc' : Location) (before inner after : List TypeExpr) :
    Reworded (.union loc (before ++ .union loc' inner :: after))
      (.union loc (before ++ inner ++ after))
  | alternative {t u : TypeExpr} (loc : Location) (before after : List TypeExpr) :
    Reworded t u → Reworded (.union loc (before ++ t :: after)) (.union loc (before ++ u :: after))
  | leaf (loc loc' : Location) (p : Primitive) (fields : List Field) :
    Reworded (.primitive loc p) (.object loc' fields)

theorem refs_union (loc : Location) (ts : List TypeExpr) : (union loc ts).refs = ts.flatMap refs :=
  refsOfList_eq_flatMap ts

/-- Other words have the same references. -/
theorem Reworded.refs_eq {t u : TypeExpr} (h : Reworded t u) : t.refs = u.refs := by
  induction h with
  | refl t => rfl
  | symm _ ih => exact ih.symm
  | trans _ _ ih₁ ih₂ => exact ih₁.trans ih₂
  | optional loc t => rfl
  | array loc t => rfl
  | single loc t => rw [refs_union, List.flatMap_singleton]
  | flatten loc loc' before inner after => simp [refs_union]
  | alternative loc before after _ ih => simp [refs_union, ih]
  | leaf loc loc' p fields => rfl

end TypeExpr

/-- Every type is reduced to its references, and remarks stay. -/
def Revision.outline : Revision where
  type := TypeExpr.outline
  keepsRemarks := true

/-- **An analysis sees types only through their references.** Models that are equal when every type
of an entity's field, an endpoint, a flow or an operation is reduced to its references have the same
owners, found by the same passes, and the same graph. Types can be reworded without being
noticed. -/
theorem Model.types_seen_through_refs :
    (∀ t u : TypeExpr, t.outline = u.outline ↔ t.refs = u.refs) ∧
    (∀ t u : TypeExpr, t.Reworded u → t.outline = u.outline) ∧
    ∀ m m' : Model, m.revise .outline = m'.revise .outline →
      m.assignOwners = m'.assignOwners ∧ (∀ o, m.buildGraph o = m'.buildGraph o) ∧
        m.buildGraph m.assignOwners = m'.buildGraph m'.assignOwners := by
  refine ⟨fun t u => TypeExpr.outline_eq_iff, fun t u h => TypeExpr.outline_eq_iff.2 h.refs_eq, ?_⟩
  intro m m' heq
  have hfaithful : Revision.outline.Faithful := TypeExpr.refs_outline
  obtain ⟨howners, hgraph⟩ := analysis_eq_of_revise_eq hfaithful heq
  -- the graphs agree for any owners, and the owners agree
  refine ⟨howners, hgraph, ?_⟩
  rw [hgraph, howners]

namespace Document

/-- A depot whose yard has an API over crates. The crates, a flow and an operation are declared
outside of it. How a name, an alternative and a type without references are written is left open. -/
def depot (name : String → TypeExpr) (either : TypeExpr → TypeExpr → TypeExpr) (blank : TypeExpr) :
    Document where
  body :=
    [ .component ⟨none, "Office", none, [], []⟩ [],
      .component ⟨none, "Yard", none, [], []⟩
        [ .construct (.api ⟨none, none, .rest, [],
            [.expanded none .post "/crates" (some blank) (some (name "Crate")) (some (name "Size"))
              []], []⟩) ],
      .construct (.entity ⟨none, "Crate", none, [], [],
        [⟨none, "content", either (name "Barrel") (either (name "Size") blank), []⟩]⟩),
      .construct (.entity ⟨none, "Barrel", none, [], [], []⟩),
      .construct (.enumeration ⟨none, "Size", [], []⟩),
      .construct (.flow ⟨none, "Unload", none, [], [name "Crate"], some blank, [], []⟩),
      .construct (.operation ⟨none, "Weigh", [blank, name "Barrel"], some (name "Crate"), [], []⟩) ]

/-- The depot in few words. -/
def plainDepot : Document :=
  depot (.reference none) (fun t u => .union none [t, u]) (.primitive none .void)

/-- The depot in many words. -/
def wordyDepot : Document :=
  depot (fun n => .optional none (.array none (.union none [.reference none n])))
    (fun t u => .union none [.union none [t], .array none u])
    (.object none [⟨none, "label", .reference none "Barrel", []⟩])

/-- The crate is found to be the yard's in many words as in few, although what it is found by is
wrapped three times. -/
theorem wordyDepot_types_seen_through_refs :
    plainDepot.collect.revise .outline = wordyDepot.collect.revise .outline ∧
      plainDepot.owners.assignments.find? ⟨.entity, "Crate"⟩ = some ⟨"Yard", .typeScoring⟩ ∧
      plainDepot.owners.assignments.find? ⟨.operation, "Weigh"⟩ = some ⟨"Yard", .kindHeuristics⟩ ∧
      plainDepot.owners = wordyDepot.owners ∧ plainDepot.graph = wordyDepot.graph := by
  have heq : plainDepot.collect.revise .outline = wordyDepot.collect.revise .outline := rfl
  obtain ⟨-, -, hmodels⟩ := Model.types_seen_through_refs
  obtain ⟨howners, -, hgraph⟩ := hmodels _ _ heq
  exact ⟨heq, by decide +kernel, by decide +kernel, howners, hgraph⟩

end Document

end Blueprint
