import Blueprint.Proofs.Graph.Accounting

/-!
# Where edges come from

Every edge of a graph was asked for: only a link writes an edge, and the edge it writes is its own.
The other way round, a link between two constructs with an owner leaves its edge in the graph,
unless its category allows one edge only. So which edges of a category there are can be read off the
links of the category, and each category is the business of one part of the instructions.

- `Builder.mem_edges_run`, `Builder.mem_edges_foldl_run`: a step adds no edge but its own, and a run
  only those of its steps.
- `Graph.Joins`: whether an edge of a category leads from one construct to another.
- `Model.joins_iff`, `Document.joins_iff`: two constructs with an owner are joined if there is an
  instruction to link them.
- `Model.instructionsFor`: the instructions that a category comes from.
- `Model.link_mem_instructions_iff`: it comes from nowhere else.
-/

namespace Blueprint

/-! ## Every edge was asked for -/

namespace Builder

variable {o : Ownership} {b : Builder} {e : Edge}

/-- **The step: no instruction adds an edge but its own.** -/
theorem mem_edges_run (h : b.graph.Balanced) {i : Instruction} (hi : i.Allowed)
    (he : e ∈ (b.run o i).graph.edges) :
    e ∈ b.graph.edges ∨ i = .link e.category e.source.key e.target.key := by
  cases i with
  | touch k => exact Or.inl ((mem_edges_touch k).1 he)
  | link c source target =>
    have htouched : e ∈ ((b.touch o source).touch o target).graph.edges → e ∈ b.graph.edges :=
      fun he => (mem_edges_touch source).1 ((mem_edges_touch target).1 he)
    have hbalanced := balanced_touch (o := o) (balanced_touch (o := o) h source) target
    change e ∈ (b.link o c source target).1.graph.edges at he
    obtain heq | ⟨s, t, hs, ht, -, heq⟩ := link_cases o b c source target
    · rw [heq] at he
      exact Or.inl (htouched he)
    · -- the references of the two ends carry the keys that the instruction names
      obtain rfl := hbalanced.keyed hs
      obtain rfl := hbalanced.keyed ht
      rw [heq] at he
      obtain he | rfl := (mem_edges_connect hs ht hi.1 hi.2).1 he
      · exact Or.inl (htouched he)
      · exact Or.inr rfl
  | annotate k s p =>
    have hviews := annotate_views (o := o) (b := b) k s p
    exact Or.inl ((mem_edges_touch k).1 ((Graph.mem_edges_congr hviews.1 hviews.2).1 he))

/-- **The run: an edge was there, or an instruction asked for it.** -/
theorem mem_edges_foldl_run (is : List Instruction) :
    ∀ {b : Builder}, b.graph.Balanced → (∀ i ∈ is, i.Allowed) →
      e ∈ (is.foldl (Builder.run o) b).graph.edges →
        e ∈ b.graph.edges ∨ .link e.category e.source.key e.target.key ∈ is := by
  induction is with
  | nil => exact fun _ _ he => Or.inl he
  | cons i rest ih =>
    intro b h hall he
    have hi := hall i List.mem_cons_self
    obtain he | hlater := ih (balanced_run h hi) (fun j hj => hall j (List.mem_cons_of_mem _ hj)) he
    · obtain he | rfl := mem_edges_run h hi he
      · exact Or.inl he
      · exact Or.inr List.mem_cons_self
    · exact Or.inr (List.mem_cons_of_mem _ hlater)

end Builder

/-! ## Constructs that are joined -/

/-- Whether an edge of a category leads from one construct to another. -/
def Graph.Joins (g : Graph) (c : Category) (source target : Key) : Prop :=
  ∃ e ∈ g.edges, e.category = c ∧ e.source.key = source ∧ e.target.key = target

instance (g : Graph) (c : Category) (source target : Key) : Decidable (g.Joins c source target) :=
  inferInstanceAs (Decidable (∃ e ∈ g.edges, _))

namespace Model

variable {m : Model} {o : Ownership} {c : Category} {source target : Key}

theorem link_of_mem_edges {e : Edge} (he : e ∈ (m.buildGraph o).edges) :
    .link e.category e.source.key e.target.key ∈ m.instructions o := by
  obtain he | hlink := Builder.mem_edges_foldl_run _ Graph.balanced_empty
    (m.instructions_allowed o) he
  · cases he
  · exact hlink

/-- The ends of an edge have owners. -/
theorem owner?_of_mem_edges {e : Edge} (he : e ∈ (m.buildGraph o).edges) :
    (∃ a, o.owner? e.source.key = some a) ∧ ∃ b, o.owner? e.target.key = some b := by
  have hbalanced : (m.buildGraph o).Balanced := Builder.balanced_build Graph.balanced_empty
  have hsound : (m.buildGraph o).Sound o :=
    Builder.sound_foldl_run (Graph.sound_empty o) (m.instructions o)
  obtain ⟨hs, ht, -⟩ := hbalanced.of_mem_edges he
  obtain ⟨a, ha, -⟩ := Option.map_eq_some_iff.1 (hsound.owned hs)
  obtain ⟨b, hb, -⟩ := Option.map_eq_some_iff.1 (hsound.owned ht)
  exact ⟨⟨a, ha⟩, b, hb⟩

/-- **Two constructs are joined exactly if an instruction links them and both have an owner.** -/
theorem joins_iff (hsingle : c.isSingle = false) :
    (m.buildGraph o).Joins c source target ↔
      .link c source target ∈ m.instructions o ∧
        (∃ a, o.owner? source = some a) ∧ ∃ b, o.owner? target = some b := by
  constructor
  · rintro ⟨e, he, rfl, rfl, rfl⟩
    exact ⟨link_of_mem_edges he, owner?_of_mem_edges he⟩
  · rintro ⟨hlink, ⟨a, hs⟩, ⟨b, ht⟩⟩
    exact ⟨_, mem_edges_of_link hlink hsingle hs ht, rfl, rfl, rfl⟩

/-! ## Links by category -/

/-- The part of the instructions that a category comes from. -/
def instructionsFor (m : Model) (o : Ownership) : Category → List Instruction
  | .entityFieldRef => m.entityInstructions
  | .flowEntity | .flowOnEvent | .flowEmitsEvent => m.flowInstructions
  | .apiExposesEntity => m.apiInstructions
  | .stateEnum | .stateOnEvent | .entityState => m.stateInstructions
  | .actionFromScreen | .actionOnSignal | .actionEmitsSignal | .actionStreamApi =>
    m.actionInstructions
  | .ruleEntity | .ruleTriggersOperation => m.ruleInstructions
  | .operationEmitsEvent | .operationOnEvent | .operationEnforcesRule | .callsApi =>
    m.operationInstructions o
  | .handlesApi => m.operationInstructions o ++ m.flowCallInstructions o
  | .flowUsesOperation => m.flowCallInstructions o
  | .screenUsesElement => m.screenInstructions
  | .inherits | .realizes => m.inheritanceInstructions

-- each part of the instructions links by categories of its own

theorem category_of_entityInstructions
    (h : .link c source target ∈ m.entityInstructions) :
    c ∈ [Category.entityFieldRef] := by
  grind [entityInstructions]

theorem category_of_flowInstructions
    (h : .link c source target ∈ m.flowInstructions) :
    c ∈ [Category.flowEntity, .flowOnEvent, .flowEmitsEvent] := by
  obtain ⟨f, -, h⟩ := List.mem_flatMap.1 h
  obtain h | h := List.mem_append.1 h
  · grind
  · obtain ⟨item, -, h⟩ := List.mem_flatMap.1 h
    cases item <;> grind [flowItem]

theorem category_of_apiInstructions
    (h : .link c source target ∈ m.apiInstructions) :
    c ∈ [Category.apiExposesEntity] := by
  grind [apiInstructions]

theorem category_of_stateInstructions
    (h : .link c source target ∈ m.stateInstructions) :
    c ∈ [Category.stateEnum, .stateOnEvent, .entityState] := by
  grind [stateInstructions]

theorem category_of_actionInstructions
    (h : .link c source target ∈ m.actionInstructions) :
    c ∈ [Category.actionFromScreen, .actionStreamApi, .actionOnSignal, .actionEmitsSignal] := by
  obtain ⟨a, -, h⟩ := List.mem_flatMap.1 h
  obtain ⟨item, -, h⟩ := List.mem_flatMap.1 h
  cases item <;> grind [actionItem]

theorem category_of_ruleInstructions
    (h : .link c source target ∈ m.ruleInstructions) :
    c ∈ [Category.ruleEntity, .ruleTriggersOperation] := by
  grind [ruleInstructions, ruleItem]

theorem category_of_endpointClause {k : Key} {slot : EndpointSlot} {d : Category}
    {clause : EndpointClause} (h : .link c source target ∈ m.endpointClause o k slot d clause) :
    c = d := by
  grind [endpointClause]

theorem category_of_operationInstructions
    (h : .link c source target ∈ m.operationInstructions o) :
    c ∈ [Category.operationEmitsEvent, .operationOnEvent, .operationEnforcesRule, .handlesApi,
      .callsApi] := by
  obtain ⟨d, -, h⟩ := List.mem_flatMap.1 h
  obtain ⟨item, -, h⟩ := List.mem_flatMap.1 h
  cases item <;> grind [operationItem, category_of_endpointClause]

theorem category_of_flowCallInstructions
    (h : .link c source target ∈ m.flowCallInstructions o) :
    c ∈ [Category.flowUsesOperation, .handlesApi] := by
  obtain ⟨f, -, h⟩ := List.mem_flatMap.1 h
  obtain ⟨item, -, h⟩ := List.mem_flatMap.1 h
  cases item <;> grind [flowCall, category_of_endpointClause]

theorem category_of_screenInstructions
    (h : .link c source target ∈ m.screenInstructions) :
    c ∈ [Category.screenUsesElement] := by
  grind [screenInstructions]

theorem category_of_inheritanceInstructions
    (h : .link c source target ∈ m.inheritanceInstructions) :
    c ∈ [Category.inherits, .realizes] := by
  grind [inheritanceInstructions]

theorem link_not_mem_journeyInstructions : .link c source target ∉ m.journeyInstructions := by
  grind [journeyInstructions]

/-- **A category comes from its part of the instructions and from nowhere else.** -/
theorem link_mem_instructions_iff :
    .link c source target ∈ m.instructions o ↔
      .link c source target ∈ m.instructionsFor o c := by
  constructor
  · intro h
    simp only [instructions, List.mem_append] at h
    -- part by part: a link in another part would be of one of that part's categories
    obtain (((((((((((h | h) | h) | h) | h) | h) | h) | h) | h) | h) | h) | h) := h
    · grind
    · grind [instructionsFor, → category_of_entityInstructions]
    · grind [instructionsFor, → category_of_flowInstructions]
    · grind [instructionsFor, → category_of_apiInstructions]
    · grind [instructionsFor, → category_of_stateInstructions]
    · grind [instructionsFor, → category_of_actionInstructions]
    · grind [instructionsFor, → category_of_ruleInstructions]
    · grind [instructionsFor, → category_of_operationInstructions]
    · grind [instructionsFor, → category_of_flowCallInstructions]
    · grind [instructionsFor, → category_of_screenInstructions]
    · grind [instructionsFor, → category_of_inheritanceInstructions]
    · exact absurd h link_not_mem_journeyInstructions
  · intro h
    cases c with
    | handlesApi => obtain h | h := List.mem_append.1 h <;> simp [instructions, h]
    | _ =>
      simp only [instructionsFor] at h
      simp [instructions, h]

end Model

namespace Document

variable {d : Document} {k : Key}

/-- In a document with components, what is declared has an owner, and nothing else has. -/
theorem exists_owner?_iff (h : d.collect.components ≠ []) :
    (∃ c, d.owners.owner? k = some c) ↔ k ∈ d.collect.keys := by
  rw [owners, Ownership.exists_owner?_iff]
  exact ⟨Model.mem_keys_of_mem_assignments d.nests_collect, Model.mem_assignments_of_mem_keys h⟩

/-- **In a document with components, two constructs are joined exactly if both are declared and an
instruction for the category links them.** -/
theorem joins_iff (h : d.collect.components ≠ []) {c : Category} (hsingle : c.isSingle = false)
    {source target : Key} :
    d.graph.Joins c source target ↔
      .link c source target ∈ d.collect.instructionsFor d.owners c ∧
        source ∈ d.collect.keys ∧ target ∈ d.collect.keys := by
  rw [graph, Model.joins_iff hsingle, Model.link_mem_instructions_iff, exists_owner?_iff h,
    exists_owner?_iff h]

end Document

end Blueprint
