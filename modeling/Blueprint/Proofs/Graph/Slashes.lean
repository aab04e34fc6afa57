import Blueprint.Proofs.Graph.Endpoints
import Blueprint.Proofs.Graph.Notes
import Blueprint.Proofs.Ownership.ClauseOrder

/-!
# Slashes at the end of paths

Whether a path ends with slashes is a matter of style. Clauses and endpoints can be written either
way, each path in a way of its own, and the edges are the same. Nobody looks at paths before the
graph is built, so owners are the same. Then the APIs that serve an endpoint are found by normal
forms. What is noted does change, since endpoints are noted as they are written, but edges do not
depend on notes.

- `Slashed`: a path with slashes after it.
- `Flow.Slashes`, `Operation.Slashes`, `Action.Slashes`, `Api.Slashes`, `Construct.Slashes`,
  `Document.Slashes`: slashes after any of the paths of clauses and endpoints.
- `Model.Repathed.assignOwners_eq`, `Model.Repathed.mute_instructions`: owners and, notes apart,
  instructions stay.
- `Model.eq_regroup_repath`, `Model.edges_of_slashes`: what is left of a model, and its edges.
- `Document.endpoint_edges_exact`: the edges and notes of clauses, whatever the slashes.
-/

namespace Blueprint

/-! ## Paths with slashes after them -/

/-- The second path is the first with slashes after it. -/
def Slashed (p q : String) : Prop := ∃ n, q.toList = p.toList ++ List.replicate n '/'

theorem Slashed.refl (p : String) : Slashed p p := ⟨0, (List.append_nil _).symm⟩

/-- Slashes at the end do not change the normal form, whatever stands before the path. -/
theorem Slashed.normalizePath_append {p q : String} (h : Slashed p q) (before : String) :
    normalizePath (before ++ q) = normalizePath (before ++ p) := by
  obtain ⟨n, hq⟩ := h
  refine normalizePath_eq_iff.2 ⟨(before ++ p).toList, n, 0, ?_, (List.append_nil _).symm⟩
  rw [String.toList_append, hq, String.toList_append, List.append_assoc]

theorem Slashed.normalizePath_eq {p q : String} (h : Slashed p q) :
    normalizePath q = normalizePath p := by
  simpa using h.normalizePath_append ""

/-- The second clause is the first with slashes after its path. -/
inductive EndpointClause.Slashes (e : EndpointClause) : EndpointClause → Prop
  | mk {path : String} : Slashed e.path path → Slashes e { e with path }

/-- The second item of a flow is the first, or both name endpoints and differ in slashes. -/
inductive FlowItem.Slashes : FlowItem → FlowItem → Prop
  | same (i : FlowItem) : Slashes i i
  | handles {e e' : EndpointClause} : e.Slashes e' → Slashes (.handles e) (.handles e')

/-- The second item of an operation is the first, or both name endpoints and differ in slashes. -/
inductive OperationItem.Slashes : OperationItem → OperationItem → Prop
  | same (i : OperationItem) : Slashes i i
  | handles {e e' : EndpointClause} : e.Slashes e' → Slashes (.handles e) (.handles e')
  | calls {e e' : EndpointClause} : e.Slashes e' → Slashes (.calls e) (.calls e')

/-- The second item of an action is the first, or both name endpoints and differ in slashes. -/
inductive ActionItem.Slashes : ActionItem → ActionItem → Prop
  | same (i : ActionItem) : Slashes i i
  | calls {e e' : EndpointClause} : e.Slashes e' → Slashes (.calls e) (.calls e')
  | streams (loc : Location) {p q : String} :
    Slashed p q → Slashes (.streams loc p) (.streams loc q)

/-- The second endpoint is the first with slashes after its path. -/
inductive Endpoint.Slashes : Endpoint → Endpoint → Prop
  | simple {loc : Location} {method : HttpMethod} {p q : String} {input output : Option TypeExpr}
    {decorators : List Decorator} : Slashed p q →
      Slashes (.simple loc method p input output decorators)
        (.simple loc method q input output decorators)
  | expanded {loc : Location} {method : HttpMethod} {p q : String}
    {input output query : Option TypeExpr} {decorators : List Decorator} : Slashed p q →
      Slashes (.expanded loc method p input output query decorators)
        (.expanded loc method q input output query decorators)

/-- The second flow is the first with slashes after paths of its clauses. -/
inductive Flow.Slashes (d : Flow) : Flow → Prop
  | mk {body : List FlowItem} :
    List.Forall₂ FlowItem.Slashes d.body body → Slashes d { d with body }

/-- The second operation is the first with slashes after paths of its clauses. -/
inductive Operation.Slashes (d : Operation) : Operation → Prop
  | mk {body : List OperationItem} :
    List.Forall₂ OperationItem.Slashes d.body body → Slashes d { d with body }

/-- The second action is the first with slashes after paths of its clauses. -/
inductive Action.Slashes (d : Action) : Action → Prop
  | mk {body : List ActionItem} :
    List.Forall₂ ActionItem.Slashes d.body body → Slashes d { d with body }

/-- The second API is the first with slashes after paths of its endpoints. -/
inductive Api.Slashes (d : Api) : Api → Prop
  | mk {endpoints : List Endpoint} :
    List.Forall₂ Endpoint.Slashes d.endpoints endpoints → Slashes d { d with endpoints }

/-- The second construct is the first, or both differ in slashes after paths. -/
inductive Construct.Slashes : Construct → Construct → Prop
  | same (c : Construct) : Slashes c c
  | flow {d d' : Flow} : d.Slashes d' → Slashes (.flow d) (.flow d')
  | operation {d d' : Operation} : d.Slashes d' → Slashes (.operation d) (.operation d')
  | action {d d' : Action} : d.Slashes d' → Slashes (.action d) (.action d')
  | api {d d' : Api} : d.Slashes d' → Slashes (.api d) (.api d')

/-- The second document is the first with slashes after any of its paths. -/
abbrev Document.Slashes (d d' : Document) : Prop := d.Alters Construct.Slashes d'

/-! ## What slashes leave as it is -/

theorem Endpoint.Slashes.refl (e : Endpoint) : e.Slashes e := by
  cases e with
  | simple => exact .simple (.refl _)
  | expanded => exact .expanded (.refl _)

theorem Flow.Slashes.refl (d : Flow) : d.Slashes d :=
  .mk (List.forall₂_same.2 fun i _ => .same i)

theorem Operation.Slashes.refl (d : Operation) : d.Slashes d :=
  .mk (List.forall₂_same.2 fun i _ => .same i)

theorem Action.Slashes.refl (d : Action) : d.Slashes d :=
  .mk (List.forall₂_same.2 fun i _ => .same i)

theorem Api.Slashes.refl (d : Api) : d.Slashes d :=
  .mk (List.forall₂_same.2 fun e _ => .refl e)

theorem Construct.Slashes.key_eq {c c' : Construct} (h : c.Slashes c') : c'.key = c.key := by
  -- no key has a path of an endpoint in it
  rcases h with _ | ⟨⟨⟩⟩ | ⟨⟨⟩⟩ | ⟨⟨⟩⟩ | ⟨⟨⟩⟩ <;> rfl

theorem Construct.Slashes.alteration : Alteration Slashes := ⟨same, key_eq⟩

theorem Flow.Slashes.of_construct {d d' : Flow}
    (h : Construct.Slashes (.flow d) (.flow d')) : d.Slashes d' := by
  cases h with
  | same => exact .refl d
  | flow h => exact h

theorem Operation.Slashes.of_construct {d d' : Operation}
    (h : Construct.Slashes (.operation d) (.operation d')) : d.Slashes d' := by
  cases h with
  | same => exact .refl d
  | operation h => exact h

theorem Action.Slashes.of_construct {d d' : Action}
    (h : Construct.Slashes (.action d) (.action d')) : d.Slashes d' := by
  cases h with
  | same => exact .refl d
  | action h => exact h

theorem Api.Slashes.of_construct {d d' : Api}
    (h : Construct.Slashes (.api d) (.api d')) : d.Slashes d' := by
  cases h with
  | same => exact .refl d
  | api h => exact h

/-- The constructs of other kinds have no paths to end with slashes. -/
theorem Construct.Slashes.eq_of_kind {c c' : Construct} (h : c.Slashes c')
    (hkind : c.kind ∉ [Kind.flow, .operation, .action, .api]) : c' = c := by
  cases h with
  | same => rfl
  | _ => simp [Construct.kind] at hkind

theorem Endpoint.Slashes.refs_eq {e e' : Endpoint} (h : e.Slashes e') : e'.refs = e.refs := by
  cases h <;> rfl

theorem Endpoint.Slashes.method_eq {e e' : Endpoint} (h : e.Slashes e') :
    e'.method = e.method := by
  cases h <;> rfl

theorem Endpoint.Slashes.slashed {e e' : Endpoint} (h : e.Slashes e') :
    Slashed e.path e'.path := by
  cases h with
  | simple h => exact h
  | expanded h => exact h

theorem Api.Slashes.refs_eq {a a' : Api} (h : a.Slashes a') :
    a'.endpoints.flatMap Endpoint.refs = a.endpoints.flatMap Endpoint.refs := by
  cases h with
  | mk hendpoints => exact flatMap_eq_of_forall₂ hendpoints Endpoint.Slashes.refs_eq

theorem Api.Slashes.key_eq {a a' : Api} (h : a.Slashes a') : a'.key = a.key :=
  (Construct.Slashes.api h).key_eq

theorem Flow.Slashes.name_eq {f f' : Flow} (h : f.Slashes f') : f'.name = f.name := by
  cases h
  rfl

theorem Operation.Slashes.name_eq {d d' : Operation} (h : d.Slashes d') : d'.name = d.name := by
  cases h
  rfl

theorem Action.Slashes.name_eq {d d' : Action} (h : d.Slashes d') : d'.name = d.name := by
  cases h
  rfl

theorem FlowItem.Slashes.text?_eq {i i' : FlowItem} (h : i.Slashes i') : i'.text? = i.text? := by
  cases h <;> rfl

/-! ## Owners -/

namespace Pass

variable {m : Model} {owners : Owners}

theorem scoreApi_of_slashes {a a' : Api} (h : a.Slashes a') (board : ScoreBoard) :
    Evidence.scoreApi m owners board a' = Evidence.scoreApi m owners board a := by
  simp only [Evidence.scoreApi, h.key_eq, h.refs_eq]

theorem flowPoints_of_slashes {e : Evidence} {f f' : Flow} (h : f.Slashes f') :
    flowPoints m e f' = flowPoints m e f := by
  cases h with
  | mk hbody =>
    -- a clause about an endpoint has no text that counts
    have htexts := filterMap_eq_of_forall₂ hbody FlowItem.Slashes.text?_eq
    simp only [flowPoints, htexts]

theorem operationOwner?_of_slashes {d d' : Operation} (h : d.Slashes d') :
    operationOwner? m owners d' = operationOwner? m owners d := by
  cases h with
  | mk hbody =>
    have hpoints : ∀ {body}, List.Forall₂ OperationItem.Slashes d.body body →
        operationPoints owners { d with body } = operationPoints owners d := by
      intro body hbody
      refine congrArg (_ ++ ·) (filterMap_eq_of_forall₂ hbody ?_)
      rintro i i' (_ | _ | _) <;> rfl
    rw [operationOwner?, hpoints hbody]
    rfl

theorem actionOwner?_of_slashes {d d' : Action} (h : d.Slashes d') :
    actionOwner? owners d' = actionOwner? owners d := by
  cases h with
  | mk hbody =>
    refine congrArg owners.firstOwner? (filterMap_eq_of_forall₂ hbody ?_)
    rintro i i' (_ | _ | _) <;> rfl

end Pass

namespace Model

/-- The model with other flows, operations, actions and APIs. -/
def repath (m : Model) (fs : List Flow) (os : List Operation) (as : List Action) (bs : List Api) :
    Model :=
  { m with flows := fs, operations := os, actions := as, apis := bs }

/-- These are the flows, operations, actions and APIs of a model with slashes after their paths. -/
structure Repathed (m : Model) (fs : List Flow) (os : List Operation) (as : List Action)
    (bs : List Api) : Prop where
  flows : List.Forall₂ Flow.Slashes m.flows fs
  operations : List.Forall₂ Operation.Slashes m.operations os
  actions : List.Forall₂ Action.Slashes m.actions as
  apis : List.Forall₂ Api.Slashes m.apis bs

namespace Repathed

variable {m : Model} {fs : List Flow} {os : List Operation} {as : List Action} {bs : List Api}
  {o : Ownership} (h : m.Repathed fs os as bs)

include h

theorem keysOf_eq (k : Kind) : (m.repath fs os as bs).keysOf k = m.keysOf k := by
  cases k with
  | flow => exact filterMap_key?_of_forall₂ h.flows fun h => (Construct.Slashes.flow h).key_eq
  | operation =>
    exact filterMap_key?_of_forall₂ h.operations fun h => (Construct.Slashes.operation h).key_eq
  | action => exact filterMap_key?_of_forall₂ h.actions fun h => (Construct.Slashes.action h).key_eq
  | api => exact filterMap_key?_of_forall₂ h.apis fun h => (Construct.Slashes.api h).key_eq
  | _ => rfl

theorem keys_eq : (m.repath fs os as bs).keys = m.keys := by
  have hkeys : (m.repath fs os as bs).keysOf = m.keysOf := funext h.keysOf_eq
  rw [keys, hkeys, keys]

/-- A pass gathers the same evidence. -/
theorem observe_eq (p : Pass) (owners : Owners) (e : Evidence) :
    p.observe (m.repath fs os as bs) owners e = p.observe m owners e := by
  cases p with
  | typeScoring =>
    have hscores : m.apis.foldl (Evidence.scoreApi m owners) e.typeScores =
        bs.foldl (Evidence.scoreApi m owners) e.typeScores := by
      refine List.rel_foldl (P := Eq) ?_ rfl h.apis
      rintro board _ rfl a a' ha
      exact (Pass.scoreApi_of_slashes ha board).symm
    exact congrArg (Evidence.mk · owners) hscores.symm
  | _ => rfl

theorem flowBoard_eq (e : Evidence) (owners : Owners) :
    Pass.flowBoard (m.repath fs os as bs) e owners = Pass.flowBoard m e owners := by
  have hpoints : ∀ {f f' : Flow}, f.Slashes f' →
      Pass.flowPoints (m.repath fs os as bs) e f' = Pass.flowPoints m e f :=
    fun h => Pass.flowPoints_of_slashes h
  rw [Pass.flowBoard, Pass.flowBoard, List.foldl_filter, List.foldl_filter]
  refine (List.rel_foldl (P := Eq) ?_ rfl h.flows).symm
  rintro board _ rfl f f' hf
  simp only [hf.name_eq, hpoints hf]

theorem heuristics_eq (owners : Owners) :
    Pass.heuristics (m.repath fs os as bs) owners = Pass.heuristics m owners := by
  have ho : (os.map fun d => ((⟨.operation, d.name⟩ : Key), Pass.operationOwner? m owners d)) =
      m.operations.map fun d => (⟨.operation, d.name⟩, Pass.operationOwner? m owners d) := by
    refine map_eq_of_forall₂ h.operations fun h => ?_
    rw [h.name_eq, Pass.operationOwner?_of_slashes h]
  have ha : (as.map fun d => ((⟨.action, d.name⟩ : Key), Pass.actionOwner? owners d)) =
      m.actions.map fun d => (⟨.action, d.name⟩, Pass.actionOwner? owners d) := by
    refine map_eq_of_forall₂ h.actions fun h => ?_
    rw [h.name_eq, Pass.actionOwner?_of_slashes h]
  show m.events.map _ ++ m.signals.map _ ++ m.states.map _ ++ m.rules.map _ ++
    m.journeys.map _ ++
    (os.map fun d => ((⟨.operation, d.name⟩ : Key), Pass.operationOwner? m owners d)) ++
    m.elements.map _ ++
    (as.map fun d => ((⟨.action, d.name⟩ : Key), Pass.actionOwner? owners d)) = _
  rw [ho, ha]
  rfl

/-- **A pass has the same candidates.** -/
theorem candidates_eq (p : Pass) (e : Evidence) (owners : Owners) :
    p.candidates (m.repath fs os as bs) e owners = p.candidates m e owners := by
  cases p with
  | apiNamePrefix =>
    refine map_eq_of_forall₂ h.apis fun h => ?_
    cases h
    rfl
  | flowScoring =>
    show (fs.map fun f => ((⟨.flow, f.name⟩ : Key),
      (Pass.flowBoard (m.repath fs os as bs) e owners).best f.name)) = _
    rw [h.flowBoard_eq]
    refine map_eq_of_forall₂ h.flows fun h => ?_
    rw [h.name_eq]
  | kindHeuristics => exact h.heuristics_eq owners
  | fallback =>
    show ((m.repath fs os as bs).keys.map fun k => (k, m.componentNames.head?)) = _
    rw [h.keys_eq]
    rfl
  | _ => rfl

/-- **Owners do not depend on slashes.** -/
theorem assignOwners_eq : (m.repath fs os as bs).assignOwners = m.assignOwners :=
  assignOwners_congr h.observe_eq (fun p e owners _ => h.candidates_eq p e owners) h.keys_eq rfl

/-! ## Instructions -/

/-- The endpoints of APIs are listed by normal forms. -/
theorem endpoints_eq : (m.repath fs os as bs).endpoints = m.endpoints := by
  refine flatMap_eq_of_forall₂ h.apis fun h => ?_
  cases h with
  | mk hendpoints =>
    refine map_eq_of_forall₂ hendpoints fun he => ?_
    -- the path is appended to that of the API before it is brought into normal form
    rw [he.method_eq, he.slashed.normalizePath_append]

theorem apisServing_eq (method : Option String) {p q : String} (hpath : Slashed p q) :
    (m.repath fs os as bs).apisServing method q = m.apisServing method p := by
  rw [apisServing, h.endpoints_eq, hpath.normalizePath_eq, apisServing]

/-- Clauses say the same, what they note apart. -/
theorem mute_endpointClause {e e' : EndpointClause} (he : e.Slashes e') (source : Key)
    (slot : EndpointSlot) (c : Category) :
    ((m.repath fs os as bs).endpointClause o source slot c e').map Instruction.mute =
      (m.endpointClause o source slot c e).map Instruction.mute := by
  cases he with
  | mk hpath =>
    unfold endpointClause
    cases o.owner? source with
    | none => rfl
    | some component =>
      simp only [h.apisServing_eq _ hpath]
      rfl

theorem operationNames_eq : (m.repath fs os as bs).operationNames = m.operationNames :=
  map_eq_of_forall₂ h.operations Operation.Slashes.name_eq

theorem calledOperation?_eq (reserved : List String) (text : String) :
    (m.repath fs os as bs).calledOperation? reserved text = m.calledOperation? reserved text := by
  rw [calledOperation?, h.operationNames_eq, calledOperation?]

theorem flowInstructions_eq : (m.repath fs os as bs).flowInstructions = m.flowInstructions := by
  refine flatMap_eq_of_forall₂ h.flows fun h => ?_
  cases h with
  | mk hbody =>
    refine congrArg (_ ++ ·) (flatMap_eq_of_forall₂ hbody ?_)
    rintro i i' (_ | _)
    · rfl
    · rfl

theorem apiInstructions_eq : (m.repath fs os as bs).apiInstructions = m.apiInstructions := by
  refine flatMap_eq_of_forall₂ h.apis fun h => ?_
  rw [h.key_eq, h.refs_eq]
  rfl

theorem actionItem_eq {i i' : ActionItem} (hi : i.Slashes i') (source : Key) :
    (m.repath fs os as bs).actionItem source i' = m.actionItem source i := by
  cases hi with
  | same =>
    cases i with
    | streams loc path =>
      rw [actionItem, h.apisServing_eq _ (.refl path), actionItem]
    | _ => rfl
  | calls => rfl
  | streams loc hpath => rw [actionItem, h.apisServing_eq _ hpath, actionItem]

theorem actionInstructions_eq :
    (m.repath fs os as bs).actionInstructions = m.actionInstructions := by
  refine flatMap_eq_of_forall₂ h.actions fun ha => ?_
  cases ha with
  | mk hbody => exact flatMap_eq_of_forall₂ hbody fun hi => h.actionItem_eq hi _

theorem ruleInstructions_eq : (m.repath fs os as bs).ruleInstructions = m.ruleInstructions := by
  have hitem : (m.repath fs os as bs).ruleItem = m.ruleItem := by
    funext source i
    simp only [ruleItem, h.calledOperation?_eq]
    rfl
  rw [ruleInstructions, hitem, ruleInstructions]
  rfl

theorem mute_operationItem {i i' : OperationItem} (hi : i.Slashes i') (source : Key) :
    ((m.repath fs os as bs).operationItem o source i').map Instruction.mute =
      (m.operationItem o source i).map Instruction.mute := by
  cases hi with
  | same =>
    cases i with
    | handles e => exact h.mute_endpointClause (.mk (.refl e.path)) source .handles .handlesApi
    | calls e => exact h.mute_endpointClause (.mk (.refl e.path)) source .calls .callsApi
    | _ => rfl
  | handles he => exact h.mute_endpointClause he source .handles .handlesApi
  | calls he => exact h.mute_endpointClause he source .calls .callsApi

theorem mute_operationInstructions :
    ((m.repath fs os as bs).operationInstructions o).map Instruction.mute =
      (m.operationInstructions o).map Instruction.mute := by
  rw [operationInstructions, operationInstructions, List.map_flatMap, List.map_flatMap]
  refine flatMap_eq_of_forall₂ h.operations fun hd => ?_
  cases hd with
  | mk hbody =>
    rw [List.map_flatMap, List.map_flatMap]
    exact flatMap_eq_of_forall₂ hbody fun hi => h.mute_operationItem hi _

theorem mute_flowCall {i i' : FlowItem} (hi : i.Slashes i') (source : Key) :
    ((m.repath fs os as bs).flowCall o source i').map Instruction.mute =
      (m.flowCall o source i).map Instruction.mute := by
  cases hi with
  | same =>
    cases i with
    | handles e => exact h.mute_endpointClause (.mk (.refl e.path)) source .handles .handlesApi
    | step s => simp only [flowCall, h.calledOperation?_eq]
    | _ => rfl
  | handles he => exact h.mute_endpointClause he source .handles .handlesApi

theorem mute_flowCallInstructions :
    ((m.repath fs os as bs).flowCallInstructions o).map Instruction.mute =
      (m.flowCallInstructions o).map Instruction.mute := by
  rw [flowCallInstructions, flowCallInstructions, List.map_flatMap, List.map_flatMap]
  refine flatMap_eq_of_forall₂ h.flows fun hd => ?_
  cases hd with
  | mk hbody =>
    rw [List.map_flatMap, List.map_flatMap]
    exact flatMap_eq_of_forall₂ hbody fun hi => h.mute_flowCall hi _

theorem inheritanceInstructions_eq :
    (m.repath fs os as bs).inheritanceInstructions = m.inheritanceInstructions := by
  have hlineages : (m.repath fs os as bs).lineages = m.lineages := by
    funext k
    cases k with
    | flow =>
      refine map_eq_of_forall₂ h.flows fun h => ?_
      cases h
      rfl
    | _ => rfl
  rw [inheritanceInstructions, hlineages, inheritanceInstructions]

/-- **Instructions do not depend on slashes, notes apart.** -/
theorem mute_instructions :
    ((m.repath fs os as bs).instructions o).map Instruction.mute =
      (m.instructions o).map Instruction.mute := by
  simp only [instructions, List.map_append, h.flowInstructions_eq, h.apiInstructions_eq,
    h.actionInstructions_eq, h.ruleInstructions_eq, h.mute_operationInstructions,
    h.mute_flowCallInstructions, h.inheritanceInstructions_eq]
  rfl

theorem edges_eq : ((m.repath fs os as bs).buildGraph o).edges = (m.buildGraph o).edges :=
  edges_eq_of_mute_eq h.mute_instructions

end Repathed

/-! ## Collecting -/

section

variable {m m' : Model} (h : m.Alters Construct.Slashes m')

include h

/-- A model with slashes after paths has other constructs with paths, systems and components. -/
theorem eq_regroup_repath :
    m' = (m.repath m'.flows m'.operations m'.actions m'.apis).regroup m'.systems m'.components := by
  refine ext_itemsOf (fun k => ?_) h.unhandled
  cases k with
  | flow | operation | action | api | system | component => rfl
  | _ =>
    refine h.itemsOf_eq (by decide) (by decide) fun hkind hc => hc.eq_of_kind ?_
    rw [hkind]
    decide

theorem repathed : m.Repathed m'.flows m'.operations m'.actions m'.apis where
  flows := Alters.constructs Construct.Slashes.alteration (h.items .flow) .of_construct
  operations := Alters.constructs Construct.Slashes.alteration (h.items .operation) .of_construct
  actions := Alters.constructs Construct.Slashes.alteration (h.items .action) .of_construct
  apis := Alters.constructs Construct.Slashes.alteration (h.items .api) .of_construct

theorem assignOwners_of_slashes : m'.assignOwners = m.assignOwners := by
  have hgroups := assignOwners_regroup (m.repath m'.flows m'.operations m'.actions m'.apis)
    m'.systems h.faces
  rw [eq_regroup_repath h, hgroups, (repathed h).assignOwners_eq]

theorem edges_of_slashes (o : Ownership) : (m'.buildGraph o).edges = (m.buildGraph o).edges := by
  have hgroups := buildGraph_regroup (m.repath m'.flows m'.operations m'.actions m'.apis)
    m'.systems h.faces o
  rw [eq_regroup_repath h, hgroups, (repathed h).edges_eq]

end

end Model

namespace Document

variable {d d' : Document}

/-- **Slashes at the end of paths make no difference to edges.** -/
theorem edges_graph_of_slashes (h : d.Slashes d') : d'.graph.edges = d.graph.edges := by
  have hcollect := h.collect Construct.Slashes.alteration
  have howners : d'.owners = d.owners := Model.assignOwners_of_slashes hcollect
  rw [graph, graph, howners]
  exact Model.edges_of_slashes hcollect d.owners

/-- **The edges of clauses about endpoints are exactly those that the clauses call for, whatever the
slashes at the end of paths.** In a document with components, a construct is joined with an API if
a declaration of it handles, calls or streams an endpoint, and a declaration of the API has an
endpoint with the same method and, up to slashes at the end, the same path. The record of a
construct holds the endpoints that its declarations handle or call, with its owner, each where it is
first named and whether there is such an API or not. Slashes after any of the paths of clauses and
endpoints leave the list of edges as it is. -/
theorem endpoint_edges_exact (d : Document) (h : d.collect.components ≠ []) :
    (∀ c ∈ [Category.handlesApi, .callsApi, .actionStreamApi], ∀ source target,
      d.graph.Joins c source target ↔
        ∃ i ∈ d.declarations source, ∃ e ∈ i.endpoints c, d.Serves target e.1 e.2) ∧
    (∀ k ∈ d.collect.keys, ∃ component, d.owners.owner? k = some component ∧
      ∀ slot : EndpointSlot, d.graph.endpointsAt k slot =
        (((d.declarations k).flatMap (Item.endpoints slot.category)).map
          fun e => ⟨e.1, e.2, component⟩).eraseDups) ∧
    ∀ d' : Document, d.Slashes d' → d'.graph.edges = d.graph.edges := by
  refine ⟨fun c hc source target => joins_endpoint_iff h hc, fun k hk => endpointsAt_graph h hk, ?_⟩
  intro d' hslashes
  exact edges_graph_of_slashes hslashes

/-- A terminal whose desk has a prefix. The paths of its endpoints and of the clauses of a flow, an
operation and an action are left open. -/
def terminal (list board handled called streamed : String) : Document where
  body :=
    [ .component ⟨none, "Gate", none, [], []⟩
        [ .construct (.flow ⟨none, "Check", none, [], [], none, [],
            [.handles ⟨none, "GET", handled⟩, .handles ⟨none, "POST", "/nowhere"⟩]⟩),
          .construct (.operation ⟨none, "fetch", [], none, [],
            [.calls ⟨none, "GET", called⟩, .calls ⟨none, "GET", called⟩]⟩) ],
      .construct (.action ⟨none, "Watch", [], [], [.streams none streamed]⟩),
      .construct (.api ⟨none, some "Desk", .rest,
        [⟨none, "prefix", [⟨.string, .text "/v1", none⟩]⟩],
        [ .simple none .get list none none [],
          .expanded none .stream board none none none [] ], []⟩) ]

/-- The terminal without slashes at the end of paths. -/
def plainTerminal : Document := terminal "" "/board" "/v1" "/v1" "/v1/board"

/-- The terminal with slashes at the end of paths. -/
def slashedTerminal : Document := terminal "/" "/board//" "/v1/" "/v1//" "/v1/board/"

theorem slashes_slashedTerminal : plainTerminal.Slashes slashedTerminal where
  loc := rfl
  body :=
    .component _
      (.construct (.flow (.mk (.cons (.handles (.mk ⟨1, rfl⟩)) (.cons (.same _) .nil))))
        (.construct (.operation (.mk (.cons (.calls (.mk ⟨2, rfl⟩))
          (.cons (.calls (.mk ⟨2, rfl⟩)) .nil)))) .nil))
      (.construct (.action (.mk (.cons (.streams none ⟨1, rfl⟩) .nil)))
        (.construct (.api (.mk (.cons (.simple ⟨1, rfl⟩) (.cons (.expanded ⟨2, rfl⟩) .nil))))
          .nil))

theorem slashedTerminal_endpoint_edges :
    slashedTerminal.collect.components ≠ [] ∧ plainTerminal.Slashes slashedTerminal ∧
      slashedTerminal.graph.Joins .handlesApi ⟨.flow, "Check"⟩ ⟨.api, "Desk:/v1"⟩ ∧
      slashedTerminal.graph.Joins .callsApi ⟨.operation, "fetch"⟩ ⟨.api, "Desk:/v1"⟩ ∧
      slashedTerminal.graph.Joins .actionStreamApi ⟨.action, "Watch"⟩ ⟨.api, "Desk:/v1"⟩ ∧
      slashedTerminal.graph.endpointsAt ⟨.flow, "Check"⟩ .handles =
        [⟨"GET", "/v1/", "Gate"⟩, ⟨"POST", "/nowhere", "Gate"⟩] ∧
      slashedTerminal.graph.endpointsAt ⟨.operation, "fetch"⟩ .calls = [⟨"GET", "/v1//", "Gate"⟩] ∧
      slashedTerminal.graph.edges = plainTerminal.graph.edges := by
  have hplain : plainTerminal.collect.components ≠ [] := List.cons_ne_nil _ _
  have hslashed : slashedTerminal.collect.components ≠ [] := List.cons_ne_nil _ _
  obtain ⟨hjoins, hnotes, -⟩ := endpoint_edges_exact slashedTerminal hslashed
  obtain ⟨-, -, hedges⟩ := endpoint_edges_exact plainTerminal hplain
  have hkeys : ⟨.flow, "Check"⟩ ∈ slashedTerminal.collect.keys ∧
      ⟨.operation, "fetch"⟩ ∈ slashedTerminal.collect.keys ∧
      slashedTerminal.owners.owner? ⟨.flow, "Check"⟩ = some "Gate" ∧
      slashedTerminal.owners.owner? ⟨.operation, "fetch"⟩ = some "Gate" := by
    decide +kernel
  obtain ⟨hcheck, hfetch, hcheckOwner, hfetchOwner⟩ := hkeys
  obtain ⟨_, howner, hhandles⟩ := hnotes _ hcheck
  obtain rfl := Option.some.inj (hcheckOwner.symm.trans howner)
  obtain ⟨_, howner', hcalls⟩ := hnotes _ hfetch
  obtain rfl := Option.some.inj (hfetchOwner.symm.trans howner')
  have hlist (p : String) (hp : normalizePath "/v1/" = normalizePath p) :
      slashedTerminal.Serves ⟨.api, "Desk:/v1"⟩ "GET" p :=
    ⟨_, List.mem_of_getElem? (i := 4) rfl, by decide +kernel, _, List.mem_cons_self, rfl,
      normalizePath_eq_iff.1 hp⟩
  refine ⟨hslashed, slashes_slashedTerminal, (hjoins _ (by decide) _ _).2 ?_,
    (hjoins _ (by decide) _ _).2 ?_, (hjoins _ (by decide) _ _).2 ?_, ?_, ?_,
    hedges _ slashes_slashedTerminal⟩
  · exact ⟨_, List.mem_filter.2 ⟨List.mem_of_getElem? (i := 1) rfl, rfl⟩, _, List.mem_cons_self,
      hlist _ (by decide +kernel)⟩
  · exact ⟨_, List.mem_filter.2 ⟨List.mem_of_getElem? (i := 2) rfl, rfl⟩, _, List.mem_cons_self,
      hlist _ (by decide +kernel)⟩
  · exact ⟨_, List.mem_filter.2 ⟨List.mem_of_getElem? (i := 3) rfl, rfl⟩, _, List.mem_cons_self,
      _, List.mem_of_getElem? (i := 4) rfl, by decide +kernel, _,
      List.mem_of_getElem? (i := 1) rfl, rfl, normalizePath_eq_iff.1 (by decide +kernel)⟩
  · rw [hhandles]
    decide +kernel
  · rw [hcalls]
    decide +kernel

end Document

end Blueprint
