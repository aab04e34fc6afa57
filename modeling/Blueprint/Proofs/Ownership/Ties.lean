import Blueprint.Proofs.Ownership.Leaders
import Blueprint.Proofs.Ownership.Nesting

/-!
# Rules, operations and ties

Rules and operations go to the component that most of the evidence speaks for: the entities that the
clauses of a rule mention, the types and events that an operation uses. A tie is settled by the
order in which components are declared. What counts is where a component is declared last, so a
component that is declared again, after another one, loses a tie with it.

- `Pass.firstFor_map_named`, `Pass.firstFor_heuristics_rule`, `Pass.firstFor_heuristics_operation`:
  whom the heuristics speak for.
- `Model.ruleTotal`, `Operation.total`: how much of a rule and of an operation speaks for a
  component.
- `Pass.ruleOwner?_eq_leader?`, `Pass.operationOwner?_eq_leader?`: the component that leads.
- `Document.TiesFollow`: rules and operations belong to the component that leads in an order.
- `Document.ties_follow_last_declaration`: the order is that of last declarations.
- `Document.reopened_ties_not_by_first_declaration`: it is not that of first declarations.
-/

namespace Blueprint

/-! ## Totals -/

/-- The number of pairs of a clause of a rule and an entity declaration such that the clause
mentions the entity and a component owns it. -/
def Model.ruleTotal (m : Model) (owner? : Key → Option String) (r : Rule) (c : String) : Nat :=
  weigh (fun text => m.entityNames.countP fun n =>
    Text.mentions text n && owner? ⟨.entity, n⟩ = some c) (r.body.filterMap RuleItem.text?)

/-- The event that a clause of an operation emits or reacts to. -/
def OperationItem.event? : OperationItem → Option String
  | emits c => some c.event
  | reacts c => some c.event
  | _ => none

/-- The names that the parameters and the result of an operation refer to. -/
def Operation.typeRefs (o : Operation) : List String :=
  TypeExpr.refsOfAll (o.params.map some ++ [o.returnType])

/-- What an operation counts for a component: three for each type and two for each event. -/
def Operation.total (owner? : Key → Option String) (o : Operation) (c : String) : Nat :=
  3 * o.typeRefs.countP (fun r => typeOwnerBy? owner? r = some c) +
  2 * (o.body.filterMap OperationItem.event?).countP fun e => owner? ⟨.event, e⟩ = some c

namespace Pass

variable {m : Model} {owners : Owners}

/-! ## Points of rules and operations -/

theorem total_rulePoints (r : Rule) (c : String) :
    Scores.total (rulePoints m owners r) c = m.ruleTotal owners.owner? r c := by
  have hweight : ruleMentionWeight = (1 : Nat) := rfl
  refine Scores.total_flatMap fun text _ => ?_
  rw [Scores.total_filterMap_const _ hweight, List.countP_filter, Nat.one_mul]
  simp only [Bool.and_comm]

theorem pos_of_mem_rulePoints (r : Rule) : ∀ p ∈ rulePoints m owners r, 0 < p.2 := by
  intro p hp
  obtain ⟨text, -, hp⟩ := List.mem_flatMap.1 hp
  obtain ⟨n, -, hn⟩ := List.mem_filterMap.1 hp
  obtain ⟨c, -, rfl⟩ := Option.map_eq_some_iff.1 hn
  exact (by decide : 0 < ruleMentionWeight)

/-- The points of an operation, its events being named first. -/
theorem operationPoints_eq (owners : Owners) (o : Operation) :
    operationPoints owners o =
      (o.typeRefs.filterMap fun r => (owners.typeOwner? r).map fun c => (c, operationRefWeight)) ++
      (o.body.filterMap OperationItem.event?).filterMap fun e =>
        (owners.owner? ⟨.event, e⟩).map fun c => (c, operationEventWeight) := by
  rw [List.filterMap_filterMap, operationPoints]
  congr 1
  refine List.filterMap_congr fun item _ => ?_
  cases item <;> rfl

theorem total_operationPoints (o : Operation) (c : String) :
    Scores.total (operationPoints owners o) c = o.total owners.owner? c := by
  have htypes : operationRefWeight = (3 : Nat) := rfl
  have hevents : operationEventWeight = (2 : Nat) := rfl
  rw [operationPoints_eq, Scores.total_append, Scores.total_filterMap_const _ htypes,
    Scores.total_filterMap_const _ hevents]
  exact (Int.natCast_add _ _).symm

theorem pos_of_mem_operationPoints (o : Operation) :
    ∀ p ∈ operationPoints owners o, 0 < p.2 := by
  intro p hp
  rw [operationPoints_eq] at hp
  rcases List.mem_append.1 hp with hp | hp <;> obtain ⟨x, -, hx⟩ := List.mem_filterMap.1 hp <;>
    obtain ⟨c, -, rfl⟩ := Option.map_eq_some_iff.1 hx
  · exact (by decide : 0 < operationRefWeight)
  · exact (by decide : 0 < operationEventWeight)

/-! ## The component that leads -/

/-- **A rule goes to the component that leads**, components being ordered by last declarations. -/
theorem ruleOwner?_eq_leader? (ho : owners.Within m.componentNames) (r : Rule) :
    ruleOwner? m owners r =
      leader? (m.ruleTotal owners.owner? r) m.componentNames.dedup := by
  rw [ruleOwner?, ScoreBoard.best_merge]
  exact Scores.best_tally_order_eq_leader? (pos_of_mem_rulePoints r) (total_rulePoints r)
    fun p hp => mem_of_rulePoints ho hp

/-- **So does an operation.** -/
theorem operationOwner?_eq_leader? (ho : owners.Within m.componentNames) (o : Operation) :
    operationOwner? m owners o =
      leader? (o.total owners.owner?) m.componentNames.dedup := by
  rw [operationOwner?, ScoreBoard.best_merge]
  exact Scores.best_tally_order_eq_leader? (pos_of_mem_operationPoints o) (total_operationPoints o)
    fun p hp => mem_of_operationPoints ho hp

/-! ## Whom the heuristics speak for -/

section Named

variable {δ : Type} {name : δ → String} {speaks : δ → Option String} {kind kind' : Kind}
  {n : String}

/-- The first declaration of a name that speaks for a component counts. -/
theorem firstFor_map_named (decls : List δ) :
    firstFor ⟨kind, n⟩ (decls.map fun d => (⟨kind, name d⟩, speaks d)) =
      (decls.filter fun d => name d = n).findSome? speaks := by
  unfold firstFor
  induction decls with
  | nil => rfl
  | cons d rest ih =>
    rw [List.map_cons, List.findSome?_cons, ih, List.filter_cons]
    by_cases hd : name d = n
    · simp [hd, List.findSome?_cons]
    · simp [hd]

/-- Declarations of one kind do not speak for another kind. -/
theorem firstFor_map_of_kind_ne (h : kind' ≠ kind) (decls : List δ) :
    firstFor ⟨kind, n⟩ (decls.map fun d => (⟨kind', name d⟩, speaks d)) = none := by
  rw [firstFor, List.findSome?_eq_none_iff]
  intro c hc
  obtain ⟨d, -, rfl⟩ := List.mem_map.1 hc
  exact if_neg fun heq => h (congrArg Key.kind heq)

end Named

theorem firstFor_append (k : Key) (xs ys : List (Key × Option String)) :
    firstFor k (xs ++ ys) = (firstFor k xs).or (firstFor k ys) :=
  List.findSome?_append

theorem firstFor_heuristics_rule (n : String) :
    firstFor ⟨.rule, n⟩ (heuristics m owners) =
      (m.rules.filter fun r => r.name = n).findSome? (ruleOwner? m owners) := by
  simp only [heuristics, firstFor_append, firstFor_map_named, ne_eq, reduceCtorEq,
    not_false_eq_true, firstFor_map_of_kind_ne, Option.none_or, Option.or_none]

theorem firstFor_heuristics_operation (n : String) :
    firstFor ⟨.operation, n⟩ (heuristics m owners) =
      (m.operations.filter fun o => o.name = n).findSome? (operationOwner? m owners) := by
  simp only [heuristics, firstFor_append, firstFor_map_named, ne_eq, reduceCtorEq,
    not_false_eq_true, firstFor_map_of_kind_ne, Option.none_or, Option.or_none]

end Pass

/-! ## Owners of rules and operations -/

namespace Model

variable {m : Model}

/-- The owners that the passes before the heuristics found. -/
def foundBeforeHeuristics? (m : Model) : Key → Option String :=
  m.assignOwners.foundBy? [.directNesting, .apiNamePrefix, .typeScoring, .flowScoring,
    .enumInheritance]

theorem owner?_runOf_beforeHeuristics (m : Model) :
    (m.runOf (.directNesting :: [.apiNamePrefix, .typeScoring, .flowScoring,
      .enumInheritance])).owners.owner? = m.foundBeforeHeuristics? := by
  have hall : Pass.all = [Pass.directNesting, .apiNamePrefix, .typeScoring, .flowScoring,
    .enumInheritance] ++ [Pass.kindHeuristics, .fallback] := rfl
  exact funext fun k => owner?_runOf hall k

/-- A construct of a kind for which only the heuristics speak, if it stands in no component. -/
theorem owner?_of_heuristics {kind : Kind} {n : String} (hkind : kind ∈ Pass.kindHeuristics.kinds)
    (hk : ⟨kind, n⟩ ∈ m.keys)
    (hnested : (m.components.find? fun c => ⟨kind, n⟩ ∈ Pass.nestedKeys c) = none) :
    m.assignOwners.owner? ⟨kind, n⟩ =
      (Pass.firstFor ⟨kind, n⟩ (Pass.heuristics m (m.runOf (.directNesting ::
        [.apiNamePrefix, .typeScoring, .flowScoring, .enumInheritance])).owners)).or
          m.componentNames.head? := by
  have hall : Pass.all = Pass.directNesting :: [Pass.apiNamePrefix, .typeScoring, .flowScoring,
      .enumInheritance] ++ Pass.kindHeuristics :: ([] ++ [Pass.fallback]) := rfl
  -- of the passes between nesting and the heuristics none speaks for these kinds
  have hothers : ∀ kind ∈ Pass.kindHeuristics.kinds,
      ∀ q ∈ [Pass.apiNamePrefix, .typeScoring, .flowScoring, .enumInheritance] ++ [],
        kind ∉ q.kinds := by decide
  have hcomponent : ∀ kind ∈ Pass.kindHeuristics.kinds, kind ≠ .component := by decide
  rw [owner?_of_kind hall (hothers kind hkind) (hcomponent kind hkind) hk, hnested]
  rfl

/-- What is declared once is declared. -/
theorem mem_of_filter_eq {δ : Type} {p : δ → Bool} {decls : List δ} {d : δ}
    (h : decls.filter p = [d]) : d ∈ decls :=
  List.mem_of_mem_filter (h ▸ List.mem_singleton_self d)

/-- The owner of a rule that is declared once and stands in no component. -/
theorem owner?_rule {r : Rule} (honce : (m.rules.filter fun s => s.name = r.name) = [r])
    (hnested : (m.components.find? fun c => ⟨.rule, r.name⟩ ∈ Pass.nestedKeys c) = none) :
    m.assignOwners.owner? ⟨.rule, r.name⟩ =
      (leader? (m.ruleTotal m.foundBeforeHeuristics? r) m.componentNames.dedup).or
        m.componentNames.head? := by
  have hk : ⟨.rule, r.name⟩ ∈ m.keys :=
    key_mem_keys_of_construct (c := .rule r) (List.mem_map_of_mem (mem_of_filter_eq honce))
  rw [owner?_of_heuristics (by decide) hk hnested, Pass.firstFor_heuristics_rule, honce,
    List.findSome?_singleton, Pass.ruleOwner?_eq_leader? (m.drawn_runOf _).owners,
    owner?_runOf_beforeHeuristics]

/-- The owner of an operation that is declared once and stands in no component. -/
theorem owner?_operation {o : Operation}
    (honce : (m.operations.filter fun s => s.name = o.name) = [o])
    (hnested : (m.components.find? fun c => ⟨.operation, o.name⟩ ∈ Pass.nestedKeys c) = none) :
    m.assignOwners.owner? ⟨.operation, o.name⟩ =
      (leader? (o.total m.foundBeforeHeuristics?) m.componentNames.dedup).or
        m.componentNames.head? := by
  have hk : ⟨.operation, o.name⟩ ∈ m.keys :=
    key_mem_keys_of_construct (c := .operation o) (List.mem_map_of_mem (mem_of_filter_eq honce))
  rw [owner?_of_heuristics (by decide) hk hnested, Pass.firstFor_heuristics_operation, honce,
    List.findSome?_singleton, Pass.operationOwner?_eq_leader? (m.drawn_runOf _).owners,
    owner?_runOf_beforeHeuristics]

end Model

namespace Document

/-- Rules and operations that are declared once and that no component declares belong to the
component that leads, the first one in an order if there are several, or to the first component if
nothing speaks for any. Owners count as the passes before the heuristics left them. -/
structure TiesFollow (d : Document) (order : List String) : Prop where
  rule : ∀ r : Rule, (d.collect.rules.filter fun s => s.name = r.name) = [r] →
    (∀ i ∈ d.preorder, i.declares ⟨.rule, r.name⟩ = false) →
    d.collect.assignOwners.owner? ⟨.rule, r.name⟩ =
      (leader? (d.collect.ruleTotal d.collect.foundBeforeHeuristics? r) order).or
        d.collect.componentNames.head?
  operation : ∀ o : Operation, (d.collect.operations.filter fun s => s.name = o.name) = [o] →
    (∀ i ∈ d.preorder, i.declares ⟨.operation, o.name⟩ = false) →
    d.collect.assignOwners.owner? ⟨.operation, o.name⟩ =
      (leader? (o.total d.collect.foundBeforeHeuristics?) order).or d.collect.componentNames.head?

/-- **Ties follow last declarations.** Of the components that lead for a rule or an operation, the
one whose last declaration comes first is its owner. Where no component is declared more than once,
this is the order of declaration. -/
theorem ties_follow_last_declaration (d : Document) :
    d.TiesFollow d.collect.componentNames.dedup ∧
      (d.collect.componentNames.Nodup → d.TiesFollow d.collect.componentNames) := by
  have hlast : d.TiesFollow d.collect.componentNames.dedup :=
    ⟨fun r honce hfree => Model.owner?_rule honce (find?_components_eq_none hfree),
      fun o honce hfree => Model.owner?_operation honce (find?_components_eq_none hfree)⟩
  refine ⟨hlast, fun hnodup => ?_⟩
  -- each declaration is the last one then
  rwa [hnodup.dedup] at hlast

/-- A rule that mentions invoices and orders. -/
def consistency : Rule :=
  ⟨none, "Consistency", [], [.condition none "Invoice total matches Order total"]⟩

/-- An operation that takes an order and gives back an invoice. -/
def settling : Operation :=
  ⟨none, "settle", [.reference none "Order"], some (.reference none "Invoice"), [], []⟩

/-- Orders and billing, with a rule and an operation about both. What else is declared is left
open. -/
def accounts (more : List Item) : Document where
  body :=
    [ .component ⟨none, "Orders", none, [], []⟩
        [.construct (.entity ⟨none, "Order", none, [], [], []⟩)],
      .component ⟨none, "Billing", none, [], []⟩
        [.construct (.entity ⟨none, "Invoice", none, [], [], []⟩)],
      .construct (.rule consistency),
      .construct (.operation settling) ] ++ more

/-- The accounts, in which orders are declared again at the end. -/
def reopened : Document := accounts [.component ⟨none, "Orders", none, [], []⟩ []]

/-- The tie between orders and billing goes to orders, which are declared first. Once orders are
declared again, it goes to billing. -/
theorem accounts_ties_follow :
    (accounts []).collect.componentNames.Nodup ∧
    (accounts []).collect.assignOwners.owner? ⟨.rule, "Consistency"⟩ = some "Orders" ∧
    (accounts []).collect.assignOwners.owner? ⟨.operation, "settle"⟩ = some "Orders" ∧
    reopened.collect.componentNames = ["Orders", "Billing", "Orders"] ∧
    reopened.collect.assignOwners.owner? ⟨.rule, "Consistency"⟩ = some "Billing" ∧
    reopened.collect.assignOwners.owner? ⟨.operation, "settle"⟩ = some "Billing" := by
  have hnodup : (accounts []).collect.componentNames.Nodup := by decide +kernel
  have hfirst := (ties_follow_last_declaration (accounts [])).2 hnodup
  have hlast := (ties_follow_last_declaration reopened).1
  refine ⟨hnodup, ?_, ?_, by decide +kernel, ?_, ?_⟩
  · exact (hfirst.rule consistency rfl (by decide +kernel)).trans (by decide +kernel)
  · exact (hfirst.operation settling rfl (by decide +kernel)).trans (by decide +kernel)
  · exact (hlast.rule consistency rfl (by decide +kernel)).trans (by decide +kernel)
  · exact (hlast.operation settling rfl (by decide +kernel)).trans (by decide +kernel)

/-- When a component is declared again, ties do not follow first declarations. -/
theorem reopened_ties_not_by_first_declaration :
    ¬ reopened.TiesFollow reopened.collect.componentNames := by
  intro h
  have hrule := h.rule consistency rfl (by decide +kernel)
  revert hrule
  decide +kernel

end Document

end Blueprint
