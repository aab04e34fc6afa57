import Blueprint.Proofs.Graph.Origins

/-!
# Edges that types and texts give

Entities, flows, APIs and rules name others in their types and in what they say. What they name need
not be declared, a name can be that of an entity and of an enumeration, and a text names whatever
occurs in it. The edges that come of it are told here from the declarations alone: there is an edge
for every name that is declared, and no other.

- `Flow.Says`, `Rule.Says`: the texts of a declaration.
- `Document.Contains`, `Document.Means`: what is declared, and what a name in a field stands for.
- `Model.link_entityFieldRef_iff`, `Model.link_flowEntity_iff`, `Model.link_apiExposesEntity_iff`,
  `Model.link_ruleEntity_iff`: the declarations behind the links of a category.
- `Document.reference_edges_exact`: the declarations behind the edges.
-/

namespace Blueprint

/-! ## What declarations name -/

/-- The texts of a flow are those of its steps, also where they replace others: the action, a space
and the arguments. -/
inductive Flow.Says (f : Flow) : String → Prop
  | step {s : FlowStep} (h : .step s ∈ f.body) : Says f (s.action ++ " " ++ s.args.getD "")
  | override {s : OverrideStep} (h : .override s ∈ f.body) :
    Says f (s.action ++ " " ++ s.args.getD "")

/-- The texts of a rule are those of its clauses. Where a clause has a condition and an action, a
space stands between them, unless one is empty. -/
inductive Rule.Says (r : Rule) : String → Prop
  | condition {loc : Location} {expression : String} (h : .condition loc expression ∈ r.body) :
    Says r expression
  | consequence {loc : Location} {action : String} (h : .consequence loc action ∈ r.body) :
    Says r action
  | otherwiseIf {loc : Location} {premise action : String}
    (h : .otherwiseIf loc premise action ∈ r.body) :
    Says r (" ".intercalate ([premise, action].filter (· ≠ "")))
  | otherwise {loc : Location} {action : String} (h : .otherwise loc action ∈ r.body) :
    Says r action

theorem Flow.says_iff {f : Flow} {text : String} :
    f.Says text ↔ ∃ item ∈ f.body, item.text? = some text := by
  constructor
  · rintro (h | h)
    · exact ⟨_, h, rfl⟩
    · exact ⟨_, h, rfl⟩
  · rintro ⟨item, hitem, htext⟩
    cases item with
    | step s =>
      cases htext
      exact .step hitem
    | override s =>
      cases htext
      exact .override hitem
    | _ => cases htext

theorem Rule.says_iff {r : Rule} {text : String} :
    r.Says text ↔ ∃ item ∈ r.body, item.text? = some text := by
  constructor
  · rintro (h | h | h | h)
    · exact ⟨_, h, rfl⟩
    · exact ⟨_, h, rfl⟩
    · exact ⟨_, h, rfl⟩
    · exact ⟨_, h, rfl⟩
  · rintro ⟨item, hitem, htext⟩
    cases item with
    | condition loc expression =>
      cases htext
      exact .condition hitem
    | consequence loc action =>
      cases htext
      exact .consequence hitem
    | otherwiseIf loc premise action =>
      cases htext
      exact .otherwiseIf hitem
    | otherwise loc action =>
      cases htext
      exact .otherwise hitem
    | comment => cases htext

theorem TypeExpr.mem_refsOfAll_iff {ts : List (Option TypeExpr)} {n : String} :
    n ∈ refsOfAll ts ↔ ∃ type, some type ∈ ts ∧ n ∈ type.refs := by
  simp only [refsOfAll, List.mem_flatMap]
  constructor
  · rintro ⟨t, ht, hn⟩
    cases t with
    | none => cases hn
    | some type => exact ⟨type, ht, hn⟩
  · rintro ⟨type, ht, hn⟩
    exact ⟨some type, ht, hn⟩

theorem Flow.mem_refs_iff {f : Flow} {n : String} :
    n ∈ TypeExpr.refsOfAll (f.params.map some ++ [f.returnType]) ↔
      ∃ type, (type ∈ f.params ∨ f.returnType = some type) ∧ n ∈ type.refs := by
  simp [TypeExpr.mem_refsOfAll_iff, eq_comm]

theorem Endpoint.mem_refs_iff {e : Endpoint} {n : String} :
    n ∈ e.refs ↔ ∃ type, (e.input = some type ∨ e.output = some type) ∧ n ∈ type.refs := by
  simp [refs, TypeExpr.mem_refsOfAll_iff, eq_comm]

/-! ## The links of a category -/

namespace Model

variable {m : Model} {o : Ownership} {source target : Key} {n : String}

theorem mem_entityNames_iff : n ∈ m.entityNames ↔ ⟨.entity, n⟩ ∈ m.keys := by
  simp [mem_keys_iff_mem_keysOf, keysOf, itemsOf, Item.key?, Construct.key, Construct.kind,
    Construct.name, entityNames]

theorem mem_enumNames_iff : n ∈ m.enumNames ↔ ⟨.enumeration, n⟩ ∈ m.keys := by
  simp [mem_keys_iff_mem_keysOf, keysOf, itemsOf, Item.key?, Construct.key, Construct.kind,
    Construct.name, enumNames]

theorem mem_mentionedEntities_iff {text : String} :
    n ∈ m.mentionedEntities text ↔ ⟨.entity, n⟩ ∈ m.keys ∧ n.toList <:+: text.toList := by
  rw [mentionedEntities, List.mem_filter, mem_entityNames_iff, Text.mentions_iff]

/-- Entities are linked to what the names in their fields stand for, declared or not. -/
theorem link_entityFieldRef_iff :
    .link .entityFieldRef source target ∈ m.instructionsFor o .entityFieldRef ↔
      ∃ d ∈ m.entities, source = ⟨.entity, d.name⟩ ∧ ∃ f ∈ d.fields, ∃ n ∈ f.type.refs,
        target = ⟨if m.enumNames.contains n then .enumeration else .entity, n⟩ := by
  show _ ∈ m.entityInstructions ↔ _
  -- whatever the name stands for is linked, and the graph drops links to what is not declared
  grind [entityInstructions]

theorem link_mem_flowItem_iff {k : Key} {item : FlowItem} :
    .link .flowEntity source ⟨.entity, n⟩ ∈ m.flowItem k item ↔
      source = k ∧ ∃ text, item.text? = some text ∧ n ∈ m.mentionedEntities text := by
  cases item <;> grind [flowItem, FlowItem.text?]

/-- Flows are linked to the entities that their types name, declared or not, and to the declared
entities that their texts mention. -/
theorem link_flowEntity_iff :
    .link .flowEntity source ⟨.entity, n⟩ ∈ m.instructionsFor o .flowEntity ↔
      ∃ f ∈ m.flows, source = ⟨.flow, f.name⟩ ∧
        (n ∈ TypeExpr.refsOfAll (f.params.map some ++ [f.returnType]) ∨
          ∃ text, f.Says text ∧ n ∈ m.mentionedEntities text) := by
  show _ ∈ m.flowInstructions ↔ _
  simp only [flowInstructions, List.mem_flatMap, List.mem_append, List.mem_map,
    link_mem_flowItem_iff, Flow.says_iff]
  grind

/-- APIs are linked to the declared entities that the types of their endpoints name. -/
theorem link_apiExposesEntity_iff :
    .link .apiExposesEntity source ⟨.entity, n⟩ ∈ m.instructionsFor o .apiExposesEntity ↔
      ∃ a ∈ m.apis, source = a.key ∧ n ∈ m.entityNames ∧ ∃ e ∈ a.endpoints, n ∈ e.refs := by
  show _ ∈ m.apiInstructions ↔ _
  grind [apiInstructions]

theorem link_mem_ruleItem_iff {k : Key} {item : RuleItem} :
    .link .ruleEntity source ⟨.entity, n⟩ ∈ m.ruleItem k item ↔
      source = k ∧ ∃ text, item.text? = some text ∧ n ∈ m.mentionedEntities text := by
  cases item <;> grind [ruleItem, RuleItem.text?]

/-- Rules are linked to the declared entities that their texts mention. -/
theorem link_ruleEntity_iff :
    .link .ruleEntity source ⟨.entity, n⟩ ∈ m.instructionsFor o .ruleEntity ↔
      ∃ r ∈ m.rules, source = ⟨.rule, r.name⟩ ∧
        ∃ text, r.Says text ∧ n ∈ m.mentionedEntities text := by
  show _ ∈ m.ruleInstructions ↔ _
  simp only [ruleInstructions, List.mem_flatMap, link_mem_ruleItem_iff, Rule.says_iff]
  grind

end Model

/-! ## The edges of a document -/

namespace Document

variable {d : Document} {k source target : Key} {n : String}

/-- Whether a construct is declared somewhere in a document. -/
def Contains (d : Document) (k : Key) : Prop := ∃ i ∈ d.preorder, i.key? = some k

/-- Whether a name in the type of a field stands for a construct: for the enumeration of the name,
and if there is none for the entity of the name. -/
def Means (d : Document) (n : String) (k : Key) : Prop :=
  (d.Contains ⟨.enumeration, n⟩ ∧ k = ⟨.enumeration, n⟩) ∨
    (¬d.Contains ⟨.enumeration, n⟩ ∧ d.Contains ⟨.entity, n⟩ ∧ k = ⟨.entity, n⟩)

theorem mem_keys_iff_contains (hk : k.kind ≠ .system) : k ∈ d.collect.keys ↔ d.Contains k := by
  rw [mem_keys_collect_iff]
  exact ⟨And.right, fun h => ⟨hk, h⟩⟩

theorem key_mem_keys_of_mem_preorder {c : Construct} (h : .construct c ∈ d.preorder) :
    c.key ∈ d.collect.keys :=
  (mem_keys_iff_contains c.kind_ne_system).2 ⟨_, h, rfl⟩

theorem construct_mem_itemsOf_iff {c : Construct} :
    .construct c ∈ d.collect.itemsOf c.kind ↔ .construct c ∈ d.preorder := by
  rw [itemsOf_collect, List.mem_filter]
  simp [Item.kind?, Item.key?, Construct.key]

theorem mem_entities_collect_iff {e : Structured} :
    e ∈ d.collect.entities ↔ .construct (.entity e) ∈ d.preorder := by
  simp [← construct_mem_itemsOf_iff, Model.itemsOf, Construct.kind]

theorem mem_flows_collect_iff {f : Flow} :
    f ∈ d.collect.flows ↔ .construct (.flow f) ∈ d.preorder := by
  simp [← construct_mem_itemsOf_iff, Model.itemsOf, Construct.kind]

theorem mem_apis_collect_iff {a : Api} :
    a ∈ d.collect.apis ↔ .construct (.api a) ∈ d.preorder := by
  simp [← construct_mem_itemsOf_iff, Model.itemsOf, Construct.kind]

theorem mem_rules_collect_iff {r : Rule} :
    r ∈ d.collect.rules ↔ .construct (.rule r) ∈ d.preorder := by
  simp [← construct_mem_itemsOf_iff, Model.itemsOf, Construct.kind]

/-- A link of a field leads to something declared exactly if that is what the name stands for. -/
theorem means_iff :
    d.Means n k ↔
      k = ⟨if d.collect.enumNames.contains n then .enumeration else .entity, n⟩ ∧
        k ∈ d.collect.keys := by
  have henum : n ∈ d.collect.enumNames ↔ d.Contains ⟨.enumeration, n⟩ := by
    rw [Model.mem_enumNames_iff, mem_keys_iff_contains (by simp)]
  have hentity : ⟨.entity, n⟩ ∈ d.collect.keys ↔ d.Contains ⟨.entity, n⟩ :=
    mem_keys_iff_contains (by simp)
  rw [Means, ← henum, ← hentity]
  -- the enumeration of a name hides the entity of the same name
  by_cases hn : n ∈ d.collect.enumNames
  · rw [if_pos (List.contains_iff_mem.2 hn)]
    constructor
    · rintro (⟨-, rfl⟩ | ⟨hnot, -⟩)
      · exact ⟨rfl, Model.mem_enumNames_iff.1 hn⟩
      · exact absurd hn hnot
    · rintro ⟨rfl, -⟩
      exact Or.inl ⟨hn, rfl⟩
  · rw [if_neg (mt List.contains_iff_mem.1 hn)]
    constructor
    · rintro (⟨hin, -⟩ | ⟨-, hkey, rfl⟩)
      · exact absurd hin hn
      · exact ⟨rfl, hkey⟩
    · rintro ⟨rfl, hkey⟩
      exact Or.inr ⟨hn, hkey, rfl⟩

/-- Entities are joined with what the names in their fields stand for. -/
theorem joins_entityFieldRef_iff (h : d.collect.components ≠ []) {x : String} :
    d.graph.Joins .entityFieldRef ⟨.entity, x⟩ target ↔
      ∃ e, .construct (.entity e) ∈ d.preorder ∧ e.name = x ∧
        ∃ f ∈ e.fields, ∃ n ∈ f.type.refs, d.Means n target := by
  rw [joins_iff h rfl, Model.link_entityFieldRef_iff]
  constructor
  · rintro ⟨⟨e, he, hsource, f, hf, n, hn, htarget⟩, -, hkey⟩
    obtain ⟨-, rfl⟩ := Key.mk.inj hsource
    exact ⟨e, mem_entities_collect_iff.1 he, rfl, f, hf, n, hn, means_iff.2 ⟨htarget, hkey⟩⟩
  · rintro ⟨e, he, rfl, f, hf, n, hn, hmeans⟩
    obtain ⟨htarget, hkey⟩ := means_iff.1 hmeans
    exact ⟨⟨e, mem_entities_collect_iff.2 he, rfl, f, hf, n, hn, htarget⟩,
      key_mem_keys_of_mem_preorder he, hkey⟩

/-- Flows are joined with the entities that their types name and their texts mention. -/
theorem joins_flowEntity_iff (h : d.collect.components ≠ []) {x : String} :
    d.graph.Joins .flowEntity ⟨.flow, x⟩ ⟨.entity, n⟩ ↔
      d.Contains ⟨.entity, n⟩ ∧ ∃ f, .construct (.flow f) ∈ d.preorder ∧ f.name = x ∧
        ((∃ type, (type ∈ f.params ∨ f.returnType = some type) ∧ n ∈ type.refs) ∨
          ∃ text, f.Says text ∧ n.toList <:+: text.toList) := by
  rw [joins_iff h rfl, Model.link_flowEntity_iff, ← mem_keys_iff_contains (by simp)]
  constructor
  · rintro ⟨⟨f, hf, hsource, hnamed⟩, -, hkey⟩
    obtain ⟨-, rfl⟩ := Key.mk.inj hsource
    refine ⟨hkey, f, mem_flows_collect_iff.1 hf, rfl, ?_⟩
    obtain hrefs | ⟨text, htext, hmention⟩ := hnamed
    · exact Or.inl (Flow.mem_refs_iff.1 hrefs)
    · exact Or.inr ⟨text, htext, (Model.mem_mentionedEntities_iff.1 hmention).2⟩
  · rintro ⟨hkey, f, hf, rfl, hnamed⟩
    refine ⟨⟨f, mem_flows_collect_iff.2 hf, rfl, ?_⟩, key_mem_keys_of_mem_preorder hf, hkey⟩
    obtain hrefs | ⟨text, htext, hmention⟩ := hnamed
    · exact Or.inl (Flow.mem_refs_iff.2 hrefs)
    · exact Or.inr ⟨text, htext, Model.mem_mentionedEntities_iff.2 ⟨hkey, hmention⟩⟩

/-- APIs are joined with the entities that the types of their endpoints name. -/
theorem joins_apiExposesEntity_iff (h : d.collect.components ≠ []) :
    d.graph.Joins .apiExposesEntity source ⟨.entity, n⟩ ↔
      d.Contains ⟨.entity, n⟩ ∧ ∃ a, .construct (.api a) ∈ d.preorder ∧ a.key = source ∧
        ∃ e ∈ a.endpoints, ∃ type, (e.input = some type ∨ e.output = some type) ∧
          n ∈ type.refs := by
  rw [joins_iff h rfl, Model.link_apiExposesEntity_iff, ← mem_keys_iff_contains (by simp)]
  constructor
  · rintro ⟨⟨a, ha, rfl, -, e, he, hrefs⟩, -, hkey⟩
    exact ⟨hkey, a, mem_apis_collect_iff.1 ha, rfl, e, he, Endpoint.mem_refs_iff.1 hrefs⟩
  · rintro ⟨hkey, a, ha, rfl, e, he, hrefs⟩
    refine ⟨⟨a, mem_apis_collect_iff.2 ha, rfl, Model.mem_entityNames_iff.2 hkey, e, he, ?_⟩,
      key_mem_keys_of_mem_preorder ha, hkey⟩
    exact Endpoint.mem_refs_iff.2 hrefs

/-- Rules are joined with the entities that their texts mention. -/
theorem joins_ruleEntity_iff (h : d.collect.components ≠ []) {x : String} :
    d.graph.Joins .ruleEntity ⟨.rule, x⟩ ⟨.entity, n⟩ ↔
      d.Contains ⟨.entity, n⟩ ∧ ∃ r, .construct (.rule r) ∈ d.preorder ∧ r.name = x ∧
        ∃ text, r.Says text ∧ n.toList <:+: text.toList := by
  rw [joins_iff h rfl, Model.link_ruleEntity_iff, ← mem_keys_iff_contains (by simp)]
  constructor
  · rintro ⟨⟨r, hr, hsource, text, htext, hmention⟩, -, hkey⟩
    obtain ⟨-, rfl⟩ := Key.mk.inj hsource
    exact ⟨hkey, r, mem_rules_collect_iff.1 hr, rfl, text, htext,
      (Model.mem_mentionedEntities_iff.1 hmention).2⟩
  · rintro ⟨hkey, r, hr, rfl, text, htext, hmention⟩
    exact ⟨⟨r, mem_rules_collect_iff.2 hr, rfl, text, htext,
      Model.mem_mentionedEntities_iff.2 ⟨hkey, hmention⟩⟩, key_mem_keys_of_mem_preorder hr, hkey⟩

/-- **The edges that types and texts give are exactly those that the declarations call for.** In a
document with components, an edge leads from an entity to what a name in a field of one of its
declarations stands for; from a flow to a declared entity that one of its declarations takes, gives
back or mentions in a step; from an API to a declared entity that an endpoint takes or gives back;
and from a rule to a declared entity that a clause mentions. Whatever is declared so is an edge, and
nothing else is. -/
theorem reference_edges_exact (d : Document) (h : d.collect.components ≠ []) :
    (∀ x target, d.graph.Joins .entityFieldRef ⟨.entity, x⟩ target ↔
      ∃ e, .construct (.entity e) ∈ d.preorder ∧ e.name = x ∧
        ∃ f ∈ e.fields, ∃ n ∈ f.type.refs, d.Means n target) ∧
    (∀ x n, d.graph.Joins .flowEntity ⟨.flow, x⟩ ⟨.entity, n⟩ ↔
      d.Contains ⟨.entity, n⟩ ∧ ∃ f, .construct (.flow f) ∈ d.preorder ∧ f.name = x ∧
        ((∃ type, (type ∈ f.params ∨ f.returnType = some type) ∧ n ∈ type.refs) ∨
          ∃ text, f.Says text ∧ n.toList <:+: text.toList)) ∧
    (∀ source n, d.graph.Joins .apiExposesEntity source ⟨.entity, n⟩ ↔
      d.Contains ⟨.entity, n⟩ ∧ ∃ a, .construct (.api a) ∈ d.preorder ∧ a.key = source ∧
        ∃ e ∈ a.endpoints, ∃ type, (e.input = some type ∨ e.output = some type) ∧
          n ∈ type.refs) ∧
    ∀ x n, d.graph.Joins .ruleEntity ⟨.rule, x⟩ ⟨.entity, n⟩ ↔
      d.Contains ⟨.entity, n⟩ ∧ ∃ r, .construct (.rule r) ∈ d.preorder ∧ r.name = x ∧
        ∃ text, r.Says text ∧ n.toList <:+: text.toList :=
  ⟨fun _ _ => joins_entityFieldRef_iff h, fun _ _ => joins_flowEntity_iff h,
    fun _ _ => joins_apiExposesEntity_iff h, fun _ _ => joins_ruleEntity_iff h⟩

/-- A bakery with two declarations of its cake and of its baking, with sizes that are an entity and
an enumeration, with a baker whom nobody declares, and with an entity that its rule mentions only
where the condition and the action of a clause meet. -/
def bakery : Document where
  body :=
    [ .component ⟨none, "Kitchen", none, [], []⟩
        [ .construct (.entity ⟨none, "Cake", none, [], [],
            [⟨none, "size", .optional none (.reference none "Size"), []⟩]⟩),
          .construct (.flow ⟨none, "Bake", none, [], [], none, [],
            [.step ⟨none, false, "decorate", some "Cakes", [], []⟩]⟩) ],
      .construct (.entity ⟨none, "Cake", none, [], [],
        [ ⟨none, "baker", .reference none "Baker", []⟩,
          ⟨none, "from", .reference none "Oven", []⟩ ]⟩),
      .construct (.entity ⟨none, "Size", none, [], [], []⟩),
      .construct (.enumeration ⟨none, "Size", [], []⟩),
      .construct (.entity ⟨none, "Oven", none, [], [], []⟩),
      .construct (.entity ⟨none, "hot Oven", none, [], [], []⟩),
      .construct (.flow ⟨none, "Bake", none, [], [.reference none "Baker"],
        some (.array none (.reference none "Oven")), [], []⟩),
      .construct (.api ⟨none, some "counter", .rest, [],
        [.simple none .get "/cakes" none
          (some (.union none [.reference none "Cake", .reference none "Baker"])) []], []⟩),
      .construct (.rule ⟨none, "Closing", [], [.otherwiseIf none "still hot" "Oven off"]⟩) ]

theorem bakery_reference_edges :
    bakery.collect.components ≠ [] ∧
      bakery.graph.Joins .entityFieldRef ⟨.entity, "Cake"⟩ ⟨.enumeration, "Size"⟩ ∧
      ¬bakery.graph.Joins .entityFieldRef ⟨.entity, "Cake"⟩ ⟨.entity, "Size"⟩ ∧
      bakery.graph.Joins .flowEntity ⟨.flow, "Bake"⟩ ⟨.entity, "Cake"⟩ ∧
      bakery.graph.Joins .flowEntity ⟨.flow, "Bake"⟩ ⟨.entity, "Oven"⟩ ∧
      bakery.graph.Joins .apiExposesEntity ⟨.api, "counter"⟩ ⟨.entity, "Cake"⟩ ∧
      bakery.graph.Joins .ruleEntity ⟨.rule, "Closing"⟩ ⟨.entity, "hot Oven"⟩ := by
  have hcomponents : bakery.collect.components ≠ [] := List.cons_ne_nil _ _
  obtain ⟨hfields, hflows, hapis, hrules⟩ := reference_edges_exact bakery hcomponents
  have hsize : bakery.Contains ⟨.enumeration, "Size"⟩ := ⟨_, List.mem_of_getElem? (i := 5) rfl, rfl⟩
  have hcake : bakery.Contains ⟨.entity, "Cake"⟩ := ⟨_, List.mem_of_getElem? (i := 1) rfl, rfl⟩
  have hoven : bakery.Contains ⟨.entity, "Oven"⟩ := ⟨_, List.mem_of_getElem? (i := 6) rfl, rfl⟩
  have hhot : bakery.Contains ⟨.entity, "hot Oven"⟩ := ⟨_, List.mem_of_getElem? (i := 7) rfl, rfl⟩
  refine ⟨hcomponents, (hfields _ _).2 ?_, mt (hfields _ _).1 ?_, (hflows _ _).2 ⟨hcake, ?_⟩,
    (hflows _ _).2 ⟨hoven, ?_⟩, (hapis _ _).2 ⟨hcake, ?_⟩, (hrules _ _).2 ⟨hhot, ?_⟩⟩
  · exact ⟨_, List.mem_of_getElem? (i := 1) rfl, rfl, _, List.mem_cons_self, "Size",
      List.mem_cons_self, Or.inl ⟨hsize, rfl⟩⟩
  · -- the name stands for the enumeration
    rintro ⟨-, -, -, -, -, n, -, ⟨-, hkey⟩ | ⟨hnone, -, hkey⟩⟩
    · cases hkey
    · cases hkey
      exact hnone hsize
  · exact ⟨_, List.mem_of_getElem? (i := 2) rfl, rfl, Or.inr ⟨_, .step List.mem_cons_self,
      by decide +kernel⟩⟩
  · exact ⟨_, List.mem_of_getElem? (i := 8) rfl, rfl, Or.inl ⟨_, Or.inr rfl, List.mem_cons_self⟩⟩
  · exact ⟨_, List.mem_of_getElem? (i := 9) rfl, by decide +kernel, _, List.mem_cons_self, _,
      Or.inr rfl, List.mem_cons_self⟩
  · exact ⟨_, List.mem_of_getElem? (i := 10) rfl, rfl, _, .otherwiseIf List.mem_cons_self,
      by decide +kernel⟩

end Document

end Blueprint
