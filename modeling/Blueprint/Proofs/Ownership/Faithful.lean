import Blueprint.Proofs.Model.Revision
import Blueprint.Proofs.Ownership.Totality

/-!
# Owners do not depend on how a model is written

The passes of ownership read the names of declarations, the references of types, and the clauses of
bodies other than comments. A faithful revision keeps all three, so every pass has the same
candidates before and after.

- `Pass.candidates_revise`: the candidates of a pass.
- `Pass.observe_revise`: the evidence that a pass gathers.
- `Model.assignOwners_revise`: the owners.
-/

namespace Blueprint

variable {r : Revision}

/-! ## Declarations -/

/-- The types of parameters and a result keep their references. -/
theorem Revision.Faithful.signature (h : r.Faithful) (params : List TypeExpr)
    (result : Option TypeExpr) :
    TypeExpr.refsOfAll ((params.map r.type).map some ++ [result.map r.type]) =
      TypeExpr.refsOfAll (params.map some ++ [result]) := by
  have hmap : (params.map r.type).map some ++ [result.map r.type] =
      (params.map some ++ [result]).map (Option.map r.type) := by simp
  rw [hmap, h.refsOfAll]

theorem Endpoint.refs_revise (h : r.Faithful) (e : Endpoint) : (e.revise r).refs = e.refs := by
  cases e with
  | simple => exact h.refsOfAll [_, _]
  | expanded => exact h.refsOfAll [_, _]

theorem Api.refs_revise (h : r.Faithful) (a : Api) :
    (a.revise r).endpoints.flatMap Endpoint.refs = a.endpoints.flatMap Endpoint.refs := by
  have hrefs : (fun e => (Endpoint.revise r e).refs) = Endpoint.refs :=
    funext (Endpoint.refs_revise h)
  rw [revise, List.flatMap_map, hrefs]

@[simp] theorem Api.key_revise (r : Revision) (a : Api) : (a.revise r).key = a.key := rfl

namespace Pass

variable {m : Model} {owners : Owners}

theorem usesType_revise (h : r.Faithful) (d : Structured) (name : String) :
    usesType (d.revise r) name = usesType d name := by
  simp only [usesType, Structured.revise, List.any_map, Function.comp_def, h _]

theorem nestedKeys_revise (r : Revision) (c : Component) :
    nestedKeys (c.revise r) = nestedKeys c := by
  obtain ⟨head, body⟩ := c
  simp only [nestedKeys, Component.revise]
  induction body with
  | nil => rfl
  | cons i rest ih =>
    rw [Item.reviseAll, List.filterMap_append, ih]
    -- only constructs are counted, and they keep their keys
    cases i with
    | construct decl => simp [Item.revise, Construct.key_revise]
    | comment text => unfold Item.revise; split <;> rfl
    | unparsed line => unfold Item.revise; split <;> rfl
    | _ => rfl

/-! ## Evidence -/

theorem scoreApi_revise (h : r.Faithful) (board : ScoreBoard) (a : Api) :
    Evidence.scoreApi (m.revise r) owners board (a.revise r) =
      Evidence.scoreApi m owners board a := by
  simp only [Evidence.scoreApi, Api.key_revise, Api.refs_revise h, Model.entityNames_revise,
    Model.enumNames_revise]

/-- A pass gathers the same evidence. -/
theorem observe_revise (h : r.Faithful) (m : Model) (owners : Owners) (e : Evidence) (p : Pass) :
    p.observe (m.revise r) owners e = p.observe m owners e := by
  cases p with
  | typeScoring =>
    simp only [observe, Evidence.scoreTypes, Model.apis_revise, List.foldl_map, scoreApi_revise h]
  | _ => rfl

/-! ## Candidates -/

theorem namesake?_revise (a : Api) : namesake? (m.revise r) (a.revise r) = namesake? m a := by
  rw [namesake?, Model.componentNames_revise]
  rfl

theorem flowPoints_revise (h : r.Faithful) (e : Evidence) (f : Flow) :
    flowPoints (m.revise r) e (f.revise r) = flowPoints m e f := by
  -- comments have no text that counts
  have htexts : (r.body f.body).filterMap FlowItem.text? = f.body.filterMap FlowItem.text? :=
    Revision.filterMap_body (fun _ => rfl) f.body
  simp only [flowPoints, Flow.revise, htexts, h.signature, Model.entityNames_revise]

theorem flowBoard_revise (h : r.Faithful) (e : Evidence) :
    flowBoard (m.revise r) e owners = flowBoard m e owners := by
  simp only [flowBoard, Model.flows_revise, List.filter_map, List.foldl_map, flowPoints_revise h]
  rfl

theorem heir?_revise (h : r.Faithful) (name : String) :
    heir? (m.revise r) owners name = heir? m owners name := by
  simp only [heir?, Model.entities_revise, List.findSome?_map, Function.comp_def,
    usesType_revise h]
  rfl

theorem entityInName?_revise (name : String) :
    entityInName? (m.revise r) owners name = entityInName? m owners name := by
  rw [entityInName?, Model.entityNames_revise, entityInName?]

theorem ruleOwner?_revise (d : Rule) :
    ruleOwner? (m.revise r) owners (d.revise r) = ruleOwner? m owners d := by
  have htexts : (r.body d.body).filterMap RuleItem.text? = d.body.filterMap RuleItem.text? :=
    Revision.filterMap_body (fun _ => rfl) d.body
  simp only [ruleOwner?, rulePoints, Rule.revise, htexts, Model.entityNames_revise,
    Model.componentNames_revise]

theorem journeyOwner?_revise (d : Journey) :
    journeyOwner? owners (d.revise r) = journeyOwner? owners d :=
  congrArg owners.firstOwner? (Revision.filterMap_body (fun _ => rfl) d.body)

theorem operationOwner?_revise (h : r.Faithful) (d : Operation) :
    operationOwner? (m.revise r) owners (d.revise r) = operationOwner? m owners d := by
  have hpoints : operationPoints owners (d.revise r) = operationPoints owners d := by
    simp only [operationPoints, Operation.revise, h.signature]
    exact congrArg _ (Revision.filterMap_body (fun _ => rfl) d.body)
  rw [operationOwner?, hpoints, Model.componentNames_revise]
  rfl

theorem elementOwner?_revise (d : Element) :
    elementOwner? owners (d.revise r) = elementOwner? owners d :=
  congrArg owners.firstOwner? (Revision.filterMap_body (fun _ => rfl) d.body)

theorem actionOwner?_revise (d : Action) :
    actionOwner? owners (d.revise r) = actionOwner? owners d :=
  congrArg owners.firstOwner? (Revision.filterMap_body (fun _ => rfl) d.body)

theorem heuristics_revise (h : r.Faithful) :
    heuristics (m.revise r) owners = heuristics m owners := by
  simp only [heuristics, Model.events_revise, Model.signals_revise, Model.states_revise,
    Model.rules_revise, Model.journeys_revise, Model.operations_revise, Model.elements_revise,
    Model.actions_revise, List.map_map, Function.comp_def, entityInName?_revise, ruleOwner?_revise,
    journeyOwner?_revise, operationOwner?_revise h, elementOwner?_revise, actionOwner?_revise]
  rfl

/-- **A pass has the same candidates.** -/
theorem candidates_revise (h : r.Faithful) (m : Model) (e : Evidence) (owners : Owners)
    (p : Pass) : p.candidates (m.revise r) e owners = p.candidates m e owners := by
  cases p with
  | directNesting =>
    simp only [candidates, Model.components_revise, List.flatMap_map, nestedKeys_revise]
    rfl
  | apiNamePrefix =>
    simp only [candidates, Model.apis_revise, List.map_map, Function.comp_def, Api.key_revise,
      namesake?_revise]
  | typeScoring => simp only [candidates, Model.entityNames_revise, Model.enumNames_revise]
  | flowScoring =>
    simp only [candidates, flowBoard_revise h, Model.flows_revise, List.map_map]
    rfl
  | enumInheritance => simp only [candidates, Model.enumNames_revise, heir?_revise h]
  | kindHeuristics => exact heuristics_revise h
  | fallback => simp only [candidates, Model.keys_revise, Model.componentNames_revise]

end Pass

/-! ## Owners -/

/-- **A faithful revision keeps the owners**, the passes that found them and their order. -/
theorem Model.assignOwners_revise (h : r.Faithful) (m : Model) :
    (m.revise r).assignOwners = m.assignOwners :=
  assignOwners_congr (fun p owners e => Pass.observe_revise h m owners e p)
    (fun p e owners _ => Pass.candidates_revise h m e owners p) (keys_revise r m)
    (componentNames_revise r m)

end Blueprint
