import Mathlib.Data.List.Infix
import Blueprint.Proofs.Graph.References
import Blueprint.Proofs.Text.Trimming

/-!
# Edges that calls give

A step of a flow with an arrow calls an operation, and so does a clause of a rule with a bracket in
its action. Which one is read off the text: its first word has to be the name of an operation. Words
that flows and rules have for other things call nothing, even if there is an operation of that name.

- `Flow.Runs`, `Rule.Acts`: the texts that can call an operation.
- `Model.calledOperation?_eq_some_iff`: what a text calls.
- `Model.link_flowUsesOperation_iff`, `Model.link_ruleTriggersOperation_iff`: the links that come of
  it.
- `Document.operation_calls_exact`: the declarations behind the edges.
-/

namespace Blueprint

/-! ## What can be a call -/

/-- The texts of a flow that can call an operation: the actions of its steps with an arrow. -/
def Flow.Runs (f : Flow) (action : String) : Prop :=
  ∃ s, .step s ∈ f.body ∧ s.hasArrow = true ∧ s.action = action

/-- The actions of the clauses of a rule. -/
inductive Rule.Acts (r : Rule) : String → Prop
  | consequence {loc : Location} {action : String} (h : .consequence loc action ∈ r.body) :
    Acts r action
  | otherwiseIf {loc : Location} {premise action : String}
    (h : .otherwiseIf loc premise action ∈ r.body) : Acts r action
  | otherwise {loc : Location} {action : String} (h : .otherwise loc action ∈ r.body) :
    Acts r action

theorem Rule.acts_iff {r : Rule} {action : String} :
    r.Acts action ↔ ∃ item ∈ r.body, Model.ruleAction? item = some action := by
  constructor
  · rintro (h | h | h)
    · exact ⟨_, h, rfl⟩
    · exact ⟨_, h, rfl⟩
    · exact ⟨_, h, rfl⟩
  · rintro ⟨item, hitem, haction⟩
    cases item with
    | consequence loc action =>
      cases haction
      exact .consequence hitem
    | otherwiseIf loc premise action =>
      cases haction
      exact .otherwiseIf hitem
    | otherwise loc action =>
      cases haction
      exact .otherwise hitem
    | _ => cases haction

/-! ## The links of calls -/

namespace Model

variable {m : Model} {o : Ownership} {source : Key} {n : String}

theorem mem_operationNames_iff : n ∈ m.operationNames ↔ ⟨.operation, n⟩ ∈ m.keys := by
  simp [mem_keys_iff_mem_keysOf, keysOf, itemsOf, Item.key?, Construct.key, Construct.kind,
    Construct.name, operationNames]

/-- A text calls the declared operation with whose name it begins, unless the name is reserved. -/
theorem calledOperation?_eq_some_iff {reserved : List String} {text : String} :
    m.calledOperation? reserved text = some n ↔
      ⟨.operation, n⟩ ∈ m.keys ∧ n ≠ "" ∧ n ∉ reserved ∧ Text.Calls text n := by
  rw [calledOperation?, Option.filter_eq_some_iff, nonEmpty?_eq_some_iff, Text.calls_iff,
    ← mem_operationNames_iff]
  simp only [Bool.and_eq_true, Bool.not_eq_true', List.contains_eq_mem, decide_eq_true_eq,
    decide_eq_false_iff_not]
  constructor
  · rintro ⟨⟨rfl, hempty⟩, hreserved, hdeclared⟩
    exact ⟨hdeclared, hempty, hreserved, rfl⟩
  · rintro ⟨hdeclared, hempty, hreserved, rfl⟩
    exact ⟨⟨rfl, hempty⟩, hreserved, hdeclared⟩

theorem link_mem_flowCall_iff {k : Key} {item : FlowItem} :
    .link .flowUsesOperation source ⟨.operation, n⟩ ∈ m.flowCall o k item ↔
      source = k ∧ ∃ s, item = .step s ∧ s.hasArrow = true ∧
        m.calledOperation? flowReserved s.action = some n := by
  cases item with
  | step s =>
    cases harrow : s.hasArrow <;> grind [flowCall]
  | handles c =>
    have hother : .link .flowUsesOperation source ⟨.operation, n⟩ ∉
        m.endpointClause o k .handles .handlesApi c := by
      intro hlink
      -- a clause about an endpoint links by another category
      cases category_of_endpointClause hlink
    simp [flowCall, hother]
  | _ => simp [flowCall]

/-- Flows are linked to the operations that their steps with an arrow call. -/
theorem link_flowUsesOperation_iff :
    .link .flowUsesOperation source ⟨.operation, n⟩ ∈ m.instructionsFor o .flowUsesOperation ↔
      ∃ f ∈ m.flows, source = ⟨.flow, f.name⟩ ∧
        ∃ action, f.Runs action ∧ m.calledOperation? flowReserved action = some n := by
  show _ ∈ m.flowCallInstructions o ↔ _
  simp only [flowCallInstructions, List.mem_flatMap, link_mem_flowCall_iff, Flow.Runs]
  grind

theorem link_ruleTriggersOperation_mem_ruleItem_iff {k : Key} {item : RuleItem} :
    .link .ruleTriggersOperation source ⟨.operation, n⟩ ∈ m.ruleItem k item ↔
      source = k ∧ ∃ action, ruleAction? item = some action ∧ '(' ∈ action.toList ∧
        m.calledOperation? ruleReserved action = some n := by
  have hbracket : ∀ action : String, Text.mentions action "(" = true ↔ '(' ∈ action.toList := by
    intro action
    rw [Text.mentions_iff]
    exact List.singleton_infix_iff '(' action.toList
  rw [ruleItem, List.mem_append, or_iff_right]
  · cases haction : ruleAction? item with
    | none => simp
    | some action =>
      by_cases hmentions : Text.mentions action "(" = true
      · have hmem := (hbracket action).1 hmentions
        simp [Option.filter, hmentions, hmem, eq_comm, and_comm]
      · have hmem := mt (hbracket action).2 hmentions
        simp [Option.filter, hmentions, hmem]
  · -- the other links of a clause lead to entities
    cases item.text? <;> simp

/-- Rules are linked to the operations that the actions of their clauses call, if there is a bracket
in the action. -/
theorem link_ruleTriggersOperation_iff :
    .link .ruleTriggersOperation source ⟨.operation, n⟩ ∈
        m.instructionsFor o .ruleTriggersOperation ↔
      ∃ r ∈ m.rules, source = ⟨.rule, r.name⟩ ∧
        ∃ action, r.Acts action ∧ '(' ∈ action.toList ∧
          m.calledOperation? ruleReserved action = some n := by
  show _ ∈ m.ruleInstructions ↔ _
  simp only [ruleInstructions, List.mem_flatMap, link_ruleTriggersOperation_mem_ruleItem_iff,
    Rule.acts_iff]
  grind

end Model

/-! ## The edges of calls -/

namespace Document

variable {d : Document} {x n : String}

/-- Flows are joined with the operations that their steps with an arrow call. -/
theorem joins_flowUsesOperation_iff (h : d.collect.components ≠ []) :
    d.graph.Joins .flowUsesOperation ⟨.flow, x⟩ ⟨.operation, n⟩ ↔
      d.Contains ⟨.operation, n⟩ ∧ n ≠ "" ∧ n ∉ ["emit", "return"] ∧
        ∃ f, .construct (.flow f) ∈ d.preorder ∧ f.name = x ∧
          ∃ action, f.Runs action ∧ Text.Calls action n := by
  rw [joins_iff h rfl, Model.link_flowUsesOperation_iff, ← mem_keys_iff_contains (by simp)]
  simp only [Model.calledOperation?_eq_some_iff]
  constructor
  · rintro ⟨⟨f, hf, hsource, action, hruns, hkey, hempty, hreserved, hcalls⟩, -, -⟩
    obtain ⟨-, rfl⟩ := Key.mk.inj hsource
    exact ⟨hkey, hempty, hreserved, f, mem_flows_collect_iff.1 hf, rfl, action, hruns, hcalls⟩
  · rintro ⟨hkey, hempty, hreserved, f, hf, rfl, action, hruns, hcalls⟩
    exact ⟨⟨f, mem_flows_collect_iff.2 hf, rfl, action, hruns, hkey, hempty, hreserved, hcalls⟩,
      key_mem_keys_of_mem_preorder hf, hkey⟩

/-- Rules are joined with the operations that the actions of their clauses call. -/
theorem joins_ruleTriggersOperation_iff (h : d.collect.components ≠ []) :
    d.graph.Joins .ruleTriggersOperation ⟨.rule, x⟩ ⟨.operation, n⟩ ↔
      d.Contains ⟨.operation, n⟩ ∧ n ≠ "" ∧ n ∉ ["emit", "deny"] ∧
        ∃ r, .construct (.rule r) ∈ d.preorder ∧ r.name = x ∧
          ∃ action, r.Acts action ∧ '(' ∈ action.toList ∧ Text.Calls action n := by
  rw [joins_iff h rfl, Model.link_ruleTriggersOperation_iff, ← mem_keys_iff_contains (by simp)]
  simp only [Model.calledOperation?_eq_some_iff]
  constructor
  · rintro ⟨⟨r, hr, hsource, action, hacts, hbracket, hkey, hempty, hreserved, hcalls⟩, -, -⟩
    obtain ⟨-, rfl⟩ := Key.mk.inj hsource
    exact ⟨hkey, hempty, hreserved, r, mem_rules_collect_iff.1 hr, rfl, action, hacts, hbracket,
      hcalls⟩
  · rintro ⟨hkey, hempty, hreserved, r, hr, rfl, action, hacts, hbracket, hcalls⟩
    exact ⟨⟨r, mem_rules_collect_iff.2 hr, rfl, action, hacts, hbracket, hkey, hempty, hreserved,
      hcalls⟩, key_mem_keys_of_mem_preorder hr, hkey⟩

/-- **The edges that calls give are exactly those that the texts call for.** In a document with
components, a flow is joined with an operation if the operation is declared, its name is neither
empty nor `emit` nor `return`, and a step with an arrow in a declaration of the flow begins with the
name, up to blanks before it. The name ends at a blank, at an opening bracket or with the text, and
has none of them inside. For rules the same holds of the actions of their clauses with an opening
bracket, with `deny` in place of `return`. There are no other such edges. -/
theorem operation_calls_exact (d : Document) (h : d.collect.components ≠ []) :
    (∀ x n, d.graph.Joins .flowUsesOperation ⟨.flow, x⟩ ⟨.operation, n⟩ ↔
      d.Contains ⟨.operation, n⟩ ∧ n ≠ "" ∧ n ∉ ["emit", "return"] ∧
        ∃ f, .construct (.flow f) ∈ d.preorder ∧ f.name = x ∧
          ∃ action, f.Runs action ∧ Text.Calls action n) ∧
    ∀ x n, d.graph.Joins .ruleTriggersOperation ⟨.rule, x⟩ ⟨.operation, n⟩ ↔
      d.Contains ⟨.operation, n⟩ ∧ n ≠ "" ∧ n ∉ ["emit", "deny"] ∧
        ∃ r, .construct (.rule r) ∈ d.preorder ∧ r.name = x ∧
          ∃ action, r.Acts action ∧ '(' ∈ action.toList ∧ Text.Calls action n :=
  ⟨fun _ _ => joins_flowUsesOperation_iff h, fun _ _ => joins_ruleTriggersOperation_iff h⟩

/-- A laundry with operations whose names are reserved for flows or for rules. Its flow is declared
twice, and its rule calls an operation only in the clause with a bracket. -/
def laundry : Document where
  body :=
    [ .component ⟨none, "Basement", none, [], []⟩
        [ .construct (.flow ⟨none, "Clean", none, [], [], none, [],
            [ .step ⟨none, true, " wash (shirt)", none, [], []⟩,
              .step ⟨none, false, "press", none, [], []⟩ ]⟩) ],
      .construct (.flow ⟨none, "Clean", none, [], [], none, [],
        [ .step ⟨none, true, "return", none, [], []⟩,
          .step ⟨none, true, "deny", none, [], []⟩ ]⟩),
      .construct (.rule ⟨none, "Delicate", [],
        [ .consequence none "press gently", .otherwiseIf none "wool" "\treturn(shirt)",
          .otherwise none "deny(shirt)" ]⟩),
      .construct (.operation ⟨none, "wash", [], none, [], []⟩),
      .construct (.operation ⟨none, "press", [], none, [], []⟩),
      .construct (.operation ⟨none, "return", [], none, [], []⟩),
      .construct (.operation ⟨none, "deny", [], none, [], []⟩) ]

theorem laundry_operation_calls :
    laundry.collect.components ≠ [] ∧
      laundry.graph.Joins .flowUsesOperation ⟨.flow, "Clean"⟩ ⟨.operation, "wash"⟩ ∧
      laundry.graph.Joins .flowUsesOperation ⟨.flow, "Clean"⟩ ⟨.operation, "deny"⟩ ∧
      ¬laundry.graph.Joins .flowUsesOperation ⟨.flow, "Clean"⟩ ⟨.operation, "return"⟩ ∧
      laundry.graph.Joins .ruleTriggersOperation ⟨.rule, "Delicate"⟩ ⟨.operation, "return"⟩ ∧
      ¬laundry.graph.Joins .ruleTriggersOperation ⟨.rule, "Delicate"⟩ ⟨.operation, "deny"⟩ := by
  have hcomponents : laundry.collect.components ≠ [] := List.cons_ne_nil _ _
  obtain ⟨hflows, hrules⟩ := operation_calls_exact laundry hcomponents
  have hwash : laundry.Contains ⟨.operation, "wash"⟩ :=
    ⟨_, List.mem_of_getElem? (i := 4) rfl, rfl⟩
  have hreturn : laundry.Contains ⟨.operation, "return"⟩ :=
    ⟨_, List.mem_of_getElem? (i := 6) rfl, rfl⟩
  have hdeny : laundry.Contains ⟨.operation, "deny"⟩ :=
    ⟨_, List.mem_of_getElem? (i := 7) rfl, rfl⟩
  refine ⟨hcomponents, (hflows _ _).2 ⟨hwash, by decide, by decide, ?_⟩,
    (hflows _ _).2 ⟨hdeny, by decide, by decide, ?_⟩, mt (hflows _ _).1 ?_,
    (hrules _ _).2 ⟨hreturn, by decide, by decide, ?_⟩, mt (hrules _ _).1 ?_⟩
  · exact ⟨_, List.mem_of_getElem? (i := 1) rfl, rfl, _, ⟨_, List.mem_cons_self, rfl, rfl⟩,
      Text.calls_iff.2 (by decide +kernel)⟩
  · exact ⟨_, List.mem_of_getElem? (i := 2) rfl, rfl, _,
      ⟨_, List.mem_of_getElem? (i := 1) rfl, rfl, rfl⟩, Text.calls_iff.2 (by decide +kernel)⟩
  · rintro ⟨-, -, hreserved, -⟩
    exact hreserved (by decide)
  · exact ⟨_, List.mem_of_getElem? (i := 3) rfl, rfl, _,
      .otherwiseIf (List.mem_of_getElem? (i := 1) rfl), by decide +kernel,
      Text.calls_iff.2 (by decide +kernel)⟩
  · rintro ⟨-, -, hreserved, -⟩
    exact hreserved (by decide)

end Document

end Blueprint
