import Blueprint.Proofs.Graph.References
import Blueprint.Proofs.Graph.Slots
import Blueprint.Proofs.Text.Trimming

/-!
# Endpoints that clauses name

Flows and operations handle endpoints, operations call them, and actions listen to streams. A clause
names a method and a path. It is joined with every API that serves such an endpoint, where slashes
at the end of a path do not count. Whether there is such an API or not, the endpoints that a flow or
an operation names are noted in its record, as they are written.

- `SamePath`, `normalizePath_eq_iff`: paths up to slashes at their end.
- `Item.endpoints`: the endpoints that an item names, by the category of its clauses.
- `Document.Serves`: the APIs that serve an endpoint.
- `Model.EndpointReader`: whoever reads the instructions for what clauses name. Its
  `filterMap_instructions` says what comes of it, in order.
- `Document.joins_endpoint_iff`, `Document.endpointsAt_graph`: the edges and the endpoints that are
  noted.
-/

namespace Blueprint

/-! ## Paths -/

/-- Whether two paths differ in slashes at their end only. The empty path and the root do. -/
def SamePath (p q : String) : Prop :=
  ∃ base i j, p.toList = base ++ List.replicate i '/' ∧ q.toList = base ++ List.replicate j '/'

/-- The characters of a path without slashes at its end. -/
def barePath (p : String) : List Char := Text.dropEndWhile (· = '/') p.toList

theorem barePath_eq_iff {p : String} {core : List Char} :
    barePath p = core ↔
      (∃ i, p.toList = core ++ List.replicate i '/') ∧ core.getLast? ≠ some '/' := by
  rw [barePath, Text.dropEndWhile_eq_iff]
  constructor
  · rintro ⟨after, hp, hafter, hlast⟩
    have hslashes : after = List.replicate after.length '/' :=
      List.eq_replicate_of_mem fun c hc => of_decide_eq_true (hafter c hc)
    refine ⟨⟨after.length, hslashes ▸ hp⟩, fun hslash => ?_⟩
    simpa using hlast '/' hslash
  · rintro ⟨⟨i, hp⟩, hlast⟩
    refine ⟨_, hp, fun c hc => decide_eq_true (List.eq_of_mem_replicate hc), fun c hc => ?_⟩
    rw [decide_eq_false_iff_not]
    rintro rfl
    exact hlast hc

theorem samePath_iff {p q : String} : SamePath p q ↔ barePath p = barePath q := by
  constructor
  · rintro ⟨base, i, j, hp, hq⟩
    have hslashes : ∀ n, ∀ c ∈ List.replicate n '/', decide (c = '/') = true :=
      fun n c hc => decide_eq_true (List.eq_of_mem_replicate hc)
    rw [barePath, hp, Text.dropEndWhile_append_of_all (hslashes i), barePath, hq,
      Text.dropEndWhile_append_of_all (hslashes j)]
  · intro heq
    obtain ⟨⟨i, hp⟩, -⟩ := barePath_eq_iff.1 heq
    -- the common base is the bare path itself
    obtain ⟨⟨j, hq⟩, -⟩ := barePath_eq_iff.1 (Eq.refl (barePath q))
    exact ⟨barePath q, i, j, hp, hq⟩

/-- A normal path has a slash at its end only if it is the root. -/
theorem toList_normalizePath (p : String) :
    (normalizePath p).toList = if barePath p = [] then ['/'] else barePath p := by
  by_cases hp : barePath p = []
  · rw [if_pos hp, normalizePath, ← barePath, hp]
    decide
  · have hne : String.ofList (barePath p) ≠ "" := by
      intro h
      exact hp (by simpa using congrArg String.toList h)
    rw [if_neg hp, normalizePath, ← barePath, nonEmpty?, if_neg hne]
    simp

/-- **Paths have the same normal form exactly if they differ in slashes at their end only.** -/
theorem normalizePath_eq_iff {p q : String} : normalizePath p = normalizePath q ↔ SamePath p q := by
  -- the root is the one normal form that is no bare path
  have hlast : ∀ r : String, barePath r ≠ ['/'] := by
    intro r hr
    exact (barePath_eq_iff.1 hr).2 rfl
  rw [samePath_iff, ← String.toList_inj, toList_normalizePath, toList_normalizePath]
  by_cases hp : barePath p = [] <;> by_cases hq : barePath q = []
  · simp [hp, hq]
  · simp [hp, hq, Ne.symm (hlast q), Ne.symm hq]
  · simp [hp, hq, hlast p]
  · simp [hp, hq]

/-! ## Clauses -/

/-- The categories of edges that come from clauses about endpoints. -/
def Category.aboutEndpoints : List Category := [.handlesApi, .callsApi, .actionStreamApi]

/-- The category of the edges that come with the endpoints of a slot. -/
def EndpointSlot.category : EndpointSlot → Category
  | handles => .handlesApi
  | calls => .callsApi

/-- The method and the path that an item of an action names for a category. -/
def ActionItem.endpoint? (c : Category) : ActionItem → Option (String × String)
  | streams _ path =>
    if c = .actionStreamApi then some (Literal.label HttpMethod.stream, path) else none
  | _ => none

/-- The method and the path that an item of an operation names for a category. -/
def OperationItem.endpoint? (c : Category) : OperationItem → Option (String × String)
  | handles e => if c = .handlesApi then some (e.method, e.path) else none
  | calls e => if c = .callsApi then some (e.method, e.path) else none
  | _ => none

/-- The method and the path that an item of a flow names for a category. -/
def FlowItem.endpoint? (c : Category) : FlowItem → Option (String × String)
  | handles e => if c = .handlesApi then some (e.method, e.path) else none
  | _ => none

/-- The methods and paths that a declaration names for a category, in order. -/
def Item.endpoints (c : Category) : Item → List (String × String)
  | construct (.action d) => d.body.filterMap (ActionItem.endpoint? c)
  | construct (.operation d) => d.body.filterMap (OperationItem.endpoint? c)
  | construct (.flow d) => d.body.filterMap (FlowItem.endpoint? c)
  | _ => []

/-- Only constructs name endpoints. -/
theorem Item.exists_construct_of_mem_endpoints {c : Category} {i : Item} {e : String × String}
    (he : e ∈ i.endpoints c) : ∃ decl, i = .construct decl := by
  cases i with
  | construct decl => exact ⟨decl, rfl⟩
  | _ => cases he

/-! ## What is read off the instructions -/

/-- Whether an instruction comes from a clause about an endpoint. -/
def Instruction.AboutEndpoint : Instruction → Prop
  | touch _ => False
  | link c _ _ => c ∈ Category.aboutEndpoints
  | annotate _ _ _ => True

namespace Model

open Instruction

variable {m : Model} {o : Ownership} {k : Key} {c : Category}

/-- The declarations of a construct in a model. -/
def declarations (m : Model) (k : Key) : List Item :=
  (m.itemsOf k.kind).filter fun i => i.key? = some k

theorem annotate_not_mem_flowInstructions {k' : Key} {slot : EndpointSlot} {e : EndpointRef} :
    .annotate k' slot e ∉ m.flowInstructions := by
  intro h
  obtain ⟨f, -, h⟩ := List.mem_flatMap.1 h
  obtain h | h := List.mem_append.1 h
  · grind
  · obtain ⟨item, -, h⟩ := List.mem_flatMap.1 h
    cases item <;> grind [flowItem]

/-- What someone reads who goes through the instructions for what the clauses of a construct say
about endpoints: nothing in instructions about other things or other constructs, and in those of a
clause what there is to say about its method and path. -/
structure EndpointReader {β : Type} (m : Model) (o : Ownership) (k : Key) (c : Category)
    (read : Instruction → Option β) (say : String × String → List β) : Prop where
  other : ∀ i, ¬i.AboutEndpoint → read i = none
  action : ∀ source item, (m.actionItem source item).filterMap read =
    if source = k then (ActionItem.endpoint? c item).toList.flatMap say else []
  operation : ∀ source item, (m.operationItem o source item).filterMap read =
    if source = k then (OperationItem.endpoint? c item).toList.flatMap say else []
  flow : ∀ source item, (m.flowCall o source item).filterMap read =
    if source = k then (FlowItem.endpoint? c item).toList.flatMap say else []

namespace EndpointReader

variable {β : Type} {read : Instruction → Option β} {say : String × String → List β}

/-- Nothing is read in instructions that link by other categories and note nothing. -/
theorem filterMap_eq_nil (h : m.EndpointReader o k c read say) {is : List Instruction}
    {cs : List Category} (hlinks : ∀ {c source target}, .link c source target ∈ is → c ∈ cs)
    (hcs : ∀ c ∈ cs, c ∉ Category.aboutEndpoints)
    (hnotes : ∀ {k' slot e}, .annotate k' slot e ∉ is) : is.filterMap read = [] := by
  refine List.filterMap_eq_nil_iff.2 fun i hi => h.other i ?_
  cases i with
  | touch j => exact id
  | link c' source target => exact hcs c' (hlinks hi)
  | annotate k' slot e => exact absurd hi hnotes

/-- Three of the parts of the instructions come from clauses about endpoints. -/
theorem filterMap_parts (h : m.EndpointReader o k c read say) :
    (m.instructions o).filterMap read =
      m.actionInstructions.filterMap read ++ (m.operationInstructions o).filterMap read ++
        (m.flowCallInstructions o).filterMap read := by
  have hnone : ∀ {c' source target}, .link c' source target ∈ m.journeyInstructions →
      c' ∈ ([] : List Category) := fun h => absurd h link_not_mem_journeyInstructions
  have htouch : (o.ownable.map Instruction.touch).filterMap read = [] := by
    rw [List.filterMap_map, List.filterMap_eq_nil_iff]
    exact fun j _ => h.other (.touch j) id
  have hentity := h.filterMap_eq_nil (category_of_entityInstructions (m := m)) (by decide)
    (by grind [entityInstructions])
  have hflow := h.filterMap_eq_nil (category_of_flowInstructions (m := m)) (by decide)
    annotate_not_mem_flowInstructions
  have hapi := h.filterMap_eq_nil (category_of_apiInstructions (m := m)) (by decide)
    (by grind [apiInstructions])
  have hstate := h.filterMap_eq_nil (category_of_stateInstructions (m := m)) (by decide)
    (by grind [stateInstructions])
  have hrule := h.filterMap_eq_nil (category_of_ruleInstructions (m := m)) (by decide)
    (by grind [ruleInstructions, ruleItem])
  have hscreen := h.filterMap_eq_nil (category_of_screenInstructions (m := m)) (by decide)
    (by grind [screenInstructions])
  have hinheritance := h.filterMap_eq_nil (category_of_inheritanceInstructions (m := m))
    (by decide) (by grind [inheritanceInstructions])
  have hjourney := h.filterMap_eq_nil hnone (by decide) (by grind [journeyInstructions])
  simp only [instructions, List.filterMap_append, htouch, hentity, hflow, hapi, hstate, hrule,
    hscreen, hinheritance, hjourney, List.append_nil, List.nil_append]

/-- What is read of a kind of declaration: what its declarations of the construct say, in order. -/
theorem flatMap_body {α δ : Type} (decls : List δ) (key : δ → Key) (body : δ → List α)
    (name : α → Option (String × String)) :
    (decls.flatMap fun d => (body d).flatMap fun item =>
        if key d = k then (name item).toList.flatMap say else []) =
      decls.flatMap fun d => if key d = k then ((body d).filterMap name).flatMap say else [] := by
  refine List.flatMap_congr fun d _ => ?_
  by_cases hd : key d = k
  · -- within one declaration, item by item
    simp only [if_pos hd]
    induction body d with
    | nil => rfl
    | cons item rest ih =>
      rw [List.flatMap_cons, ih, List.filterMap_cons]
      cases name item <;> simp
  · simp [hd]

/-- **What is read off the instructions: what the declarations of the construct say about the
endpoints that they name, in order.** -/
theorem filterMap_instructions (h : m.EndpointReader o k c read say) :
    (m.instructions o).filterMap read =
      (m.declarations k).flatMap fun i => (i.endpoints c).flatMap say := by
  have haction : m.actionInstructions.filterMap read = m.actions.flatMap fun d =>
      if ⟨.action, d.name⟩ = k then (d.body.filterMap (ActionItem.endpoint? c)).flatMap say
      else [] := by
    simp only [actionInstructions, List.filterMap_flatMap, h.action]
    exact flatMap_body m.actions (fun d => ⟨.action, d.name⟩) Action.body (ActionItem.endpoint? c)
  have hoperation : (m.operationInstructions o).filterMap read = m.operations.flatMap fun d =>
      if ⟨.operation, d.name⟩ = k then (d.body.filterMap (OperationItem.endpoint? c)).flatMap say
      else [] := by
    simp only [operationInstructions, List.filterMap_flatMap, h.operation]
    exact flatMap_body m.operations (fun d => ⟨.operation, d.name⟩) Operation.body
      (OperationItem.endpoint? c)
  have hflow : (m.flowCallInstructions o).filterMap read = m.flows.flatMap fun d =>
      if ⟨.flow, d.name⟩ = k then (d.body.filterMap (FlowItem.endpoint? c)).flatMap say
      else [] := by
    simp only [flowCallInstructions, List.filterMap_flatMap, h.flow]
    exact flatMap_body m.flows (fun d => ⟨.flow, d.name⟩) Flow.body (FlowItem.endpoint? c)
  rw [h.filterMap_parts, haction, hoperation, hflow, declarations, flatMap_filter]
  have hnothing : ∀ {δ : Type} (ds : List δ), (ds.flatMap fun _ => ([] : List β)) = [] :=
    fun ds => List.flatMap_eq_nil_iff.2 fun _ _ => rfl
  -- a construct is of one kind
  obtain ⟨kind, n⟩ := k
  cases kind <;> simp [itemsOf, List.flatMap_map, Item.key?, Construct.key, Construct.kind,
    Construct.name, Item.endpoints, hnothing]

end EndpointReader

/-! ## Links and notes -/

/-- What the instructions of a clause note, if its construct has an owner. -/
theorem filterMap_endpointFor?_endpointClause {component : String}
    (ho : o.owner? k = some component) {slot : EndpointSlot} (source : Key) (slot' : EndpointSlot)
    (c' : Category) (e : EndpointClause) :
    (m.endpointClause o source slot' c' e).filterMap (endpointFor? k slot) =
      if source = k ∧ slot' = slot then [⟨e.method, e.path, component⟩] else [] := by
  have hlinks : ∀ source, ((m.apisServing (some e.method) e.path).map
      (Instruction.link c' source)).filterMap (endpointFor? k slot) = [] := by
    intro source
    rw [List.filterMap_map, List.filterMap_eq_nil_iff]
    exact fun _ _ => rfl
  by_cases hk : source = k
  · subst hk
    by_cases hslot : slot' = slot
    · simp [endpointClause, ho, endpointFor?, hslot, hlinks]
    · simp [endpointClause, ho, endpointFor?, hslot, hlinks]
  · cases hs : o.owner? source with
    | none => simp [endpointClause, hs, hk]
    | some owner => simp [endpointClause, hs, endpointFor?, hk, hlinks]

/-- The links of a clause lead to the APIs that serve its endpoint. -/
theorem filterMap_targetFrom?_endpointClause {component : String}
    (ho : o.owner? k = some component) (source : Key) (slot : EndpointSlot) (c' : Category)
    (e : EndpointClause) :
    (m.endpointClause o source slot c' e).filterMap (targetFrom? c k) =
      if c' = c ∧ source = k then m.apisServing (some e.method) e.path else [] := by
  have hlinks : ((m.apisServing (some e.method) e.path).map
      (Instruction.link c' source)).filterMap (targetFrom? c k) =
        if c' = c ∧ source = k then m.apisServing (some e.method) e.path else [] :=
    (filterMap_targetFrom?_map_link c' source id _).trans (by rw [List.map_id])
  cases hs : o.owner? source with
  | none =>
    -- a construct without an owner notes nothing, and `k` has one
    have hk : source ≠ k := by
      rintro rfl
      rw [hs] at ho
      cases ho
    simp [endpointClause, hs, hk]
  | some owner =>
    rw [endpointClause, hs]
    exact (List.filterMap_cons_none rfl).trans hlinks

/-- Whoever reads notes of a slot reads the endpoints that clauses name, with the owner. -/
theorem endpointReader_notes {component : String} (ho : o.owner? k = some component)
    (slot : EndpointSlot) :
    m.EndpointReader o k slot.category (endpointFor? k slot)
      fun e => [⟨e.1, e.2, component⟩] where
  other i hi := by
    cases i with
    | touch => rfl
    | link => rfl
    | annotate => exact absurd trivial hi
  action source item := by
    have hnone : ActionItem.endpoint? slot.category item = none := by
      cases item <;> cases slot <;> rfl
    rw [hnone, List.filterMap_eq_nil_iff.2]
    · simp
    · cases item <;> grind [actionItem, endpointFor?]
  operation source item := by
    cases item with
    | handles e =>
      simp only [operationItem, filterMap_endpointFor?_endpointClause ho]
      cases slot <;> simp [OperationItem.endpoint?, EndpointSlot.category]
    | calls e =>
      simp only [operationItem, filterMap_endpointFor?_endpointClause ho]
      cases slot <;> simp [OperationItem.endpoint?, EndpointSlot.category]
    | _ => simp [operationItem, endpointFor?, OperationItem.endpoint?]
  flow source item := by
    cases item with
    | handles e =>
      simp only [flowCall, filterMap_endpointFor?_endpointClause ho]
      cases slot <;> simp [FlowItem.endpoint?, EndpointSlot.category]
    | step s =>
      rw [List.filterMap_eq_nil_iff.2]
      · simp [FlowItem.endpoint?]
      · grind [flowCall, endpointFor?]
    | _ => simp [flowCall, FlowItem.endpoint?]

theorem targetFrom?_eq_none (hc : c ∈ Category.aboutEndpoints) (i : Instruction)
    (hi : ¬i.AboutEndpoint) : targetFrom? c k i = none := by
  cases i with
  | touch => rfl
  | annotate => rfl
  | link c' source target =>
    refine if_neg ?_
    rintro ⟨rfl, -⟩
    exact hi hc

theorem filterMap_targetFrom?_eq_nil_of_other (hc : c ∈ Category.aboutEndpoints)
    {is : List Instruction} (his : ∀ i ∈ is, ¬i.AboutEndpoint) :
    is.filterMap (targetFrom? c k) = [] :=
  List.filterMap_eq_nil_iff.2 fun i hi => targetFrom?_eq_none hc i (his i hi)

/-- Who asks for the category and the construct of a clause gets the APIs that serve its endpoint.
-/
theorem ite_apisServing (c' : Category) (source : Key) (method path : String) :
    (if c' = c ∧ source = k then m.apisServing (some method) path else []) =
      if source = k then (if c = c' then some (method, path) else none).toList.flatMap
        fun e => m.apisServing (some e.1) e.2
      else [] := by
  by_cases hk : source = k
  · by_cases hcategory : c = c'
    · simp [hk, hcategory]
    · simp [hk, hcategory, Ne.symm hcategory]
  · simp [hk]

/-- Whoever reads targets of a category reads the APIs that serve what clauses name. -/
theorem endpointReader_targets {component : String} (ho : o.owner? k = some component)
    (hc : c ∈ Category.aboutEndpoints) :
    m.EndpointReader o k c (targetFrom? c k) fun e => m.apisServing (some e.1) e.2 where
  other := targetFrom?_eq_none hc
  action source item := by
    cases item with
    | streams loc path =>
      have hlinks := filterMap_targetFrom?_map_link (c := c) (k := k) .actionStreamApi source id
        (m.apisServing (some (Literal.label HttpMethod.stream)) path)
      rw [List.map_id] at hlinks
      exact hlinks.trans (ite_apisServing ..)
    | _ =>
      rw [filterMap_targetFrom?_eq_nil_of_other hc]
      · simp [ActionItem.endpoint?]
      · grind [actionItem, AboutEndpoint, Category.aboutEndpoints]
  operation source item := by
    cases item with
    | handles e =>
      refine (filterMap_targetFrom?_endpointClause ho source .handles .handlesApi e).trans ?_
      exact ite_apisServing ..
    | calls e =>
      refine (filterMap_targetFrom?_endpointClause ho source .calls .callsApi e).trans ?_
      exact ite_apisServing ..
    | _ =>
      rw [filterMap_targetFrom?_eq_nil_of_other hc]
      · simp [OperationItem.endpoint?]
      · grind [operationItem, AboutEndpoint, Category.aboutEndpoints]
  flow source item := by
    cases item with
    | handles e =>
      refine (filterMap_targetFrom?_endpointClause ho source .handles .handlesApi e).trans ?_
      exact ite_apisServing ..
    | _ =>
      rw [filterMap_targetFrom?_eq_nil_of_other hc]
      · simp [FlowItem.endpoint?]
      · grind [flowCall, AboutEndpoint, Category.aboutEndpoints]

/-- The APIs that serve an endpoint have one with its method and the same path. -/
theorem mem_apisServing_iff {method path : String} {target : Key} :
    target ∈ m.apisServing (some method) path ↔
      ∃ a ∈ m.apis, a.key = target ∧ ∃ e ∈ a.endpoints, Literal.label e.method = method ∧
        SamePath ((decoratorText a.decorators "prefix").getD "" ++ e.path) path := by
  simp only [apisServing, endpoints, List.mem_eraseDups, List.mem_map, List.mem_filter,
    List.mem_flatMap, ← normalizePath_eq_iff]
  constructor
  · rintro ⟨-, ⟨⟨a, ha, e, he, rfl⟩, htest⟩, rfl⟩
    simp only [Option.map_some, Option.getD_some, Bool.and_eq_true, decide_eq_true_eq] at htest
    exact ⟨a, ha, rfl, e, he, htest.2, htest.1⟩
  · rintro ⟨a, ha, rfl, e, he, hmethod, hpath⟩
    refine ⟨_, ⟨⟨a, ha, e, he, rfl⟩, ?_⟩, rfl⟩
    simp [hmethod, hpath]

end Model

/-! ## The endpoints of a document -/

namespace Document

open Builder Instruction

variable {d : Document} {k : Key}

/-- Whether an API serves an endpoint: one of its declarations has an endpoint with the method whose
path, after the prefix of the API, is the same. -/
def Serves (d : Document) (target : Key) (method path : String) : Prop :=
  ∃ a, .construct (.api a) ∈ d.preorder ∧ a.key = target ∧
    ∃ e ∈ a.endpoints, Literal.label e.method = method ∧
      SamePath ((decoratorText a.decorators "prefix").getD "" ++ e.path) path

theorem serves_iff {target : Key} {method path : String} :
    d.Serves target method path ↔ target ∈ d.collect.apisServing (some method) path := by
  simp only [Serves, Model.mem_apisServing_iff, mem_apis_collect_iff]

/-- **Edges of clauses.** A construct is joined with the APIs that serve what its declarations
name. -/
theorem joins_endpoint_iff (h : d.collect.components ≠ []) {c : Category}
    (hc : c ∈ Category.aboutEndpoints) {target : Key} :
    d.graph.Joins c k target ↔
      ∃ i ∈ d.declarations k, ∃ e ∈ i.endpoints c, d.Serves target e.1 e.2 := by
  have hsingle : c.isSingle = false := by
    revert c
    decide
  have hread : ∀ {component}, d.owners.owner? k = some component →
      (.link c k target ∈ d.collect.instructionsFor d.owners c ↔
        ∃ i ∈ d.declarations k, ∃ e ∈ i.endpoints c, d.Serves target e.1 e.2) := by
    intro component ho
    rw [← Model.mem_filterMap_targetFrom?_iff, ← Model.filterMap_targetFrom?_instructions,
      (Model.endpointReader_targets ho hc).filterMap_instructions, Model.declarations,
      ← declarations_eq]
    simp only [List.mem_flatMap, serves_iff]
  rw [joins_iff h hsingle]
  constructor
  · rintro ⟨hlink, hk, -⟩
    obtain ⟨component, ho⟩ := (exists_owner?_iff h).2 hk
    exact (hread ho).1 hlink
  · rintro ⟨i, hi, e, he, hserves⟩
    obtain ⟨decl, rfl⟩ := Item.exists_construct_of_mem_endpoints he
    obtain ⟨hmem, hkey⟩ := List.mem_filter.1 hi
    have hk : k ∈ d.collect.keys := by
      rw [← Option.some.inj (of_decide_eq_true hkey)]
      exact key_mem_keys_of_mem_preorder hmem
    have htarget : target ∈ d.collect.keys := by
      obtain ⟨a, ha, rfl, -⟩ := hserves
      exact key_mem_keys_of_mem_preorder ha
    obtain ⟨component, ho⟩ := (exists_owner?_iff h).2 hk
    exact ⟨(hread ho).2 ⟨_, hi, e, he, hserves⟩, hk, htarget⟩

/-- **Notes of clauses.** The record of a declared construct holds the endpoints that its
declarations name, with its owner, each where it is first named. -/
theorem endpointsAt_graph (h : d.collect.components ≠ []) (hk : k ∈ d.collect.keys) :
    ∃ component, d.owners.owner? k = some component ∧ ∀ slot : EndpointSlot,
      d.graph.endpointsAt k slot = (((d.declarations k).flatMap (Item.endpoints slot.category)).map
        fun e => ⟨e.1, e.2, component⟩).eraseDups := by
  obtain ⟨component, ho⟩ := (exists_owner?_iff h).2 hk
  obtain ⟨r, hr⟩ := (exists_refOf_iff h).2 hk
  refine ⟨component, ho, fun slot => ?_⟩
  have hread := (Model.endpointReader_notes (m := d.collect) ho slot).filterMap_instructions
  rw [graph_eq, endpointsAt_foldl_run hr _ (Graph.sound_empty _), hread, Model.declarations,
    ← declarations_eq]
  simp only [← List.map_eq_flatMap, ← List.map_flatMap]
  exact Table.foldl_append_new_nil _

end Document

end Blueprint
