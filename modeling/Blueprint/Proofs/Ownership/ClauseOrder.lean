import Blueprint.Proofs.Graph.Systems
import Blueprint.Proofs.Model.Alteration
import Blueprint.Proofs.Ownership.Leaders

/-!
# The order of clauses

Rules and operations are weighed clause by clause, and components come on the board in the order in
which clauses speak for them. Owners still do not depend on the order of clauses. Sums are the same,
and a tie is left to ranks, which settle it: only owners are given points, owners are components,
and different components have different ranks, also when some are declared more than once.

- `Rule.Shuffles`, `Operation.Shuffles`, `Construct.Shuffles`, `Document.Shuffles`: rules with their
  clauses in another order, operations with their clauses and parameters in another order, and what
  holds them.
- `Pass.ruleOwner?_of_shuffles`, `Pass.operationOwner?_of_shuffles`: whom the heuristics speak for.
- `Model.assignOwners_reorder`: the owners of a model.
- `Model.eq_regroup_reorder`, `Model.assignOwners_of_shuffles`: what is left of a model, and its
  owners.
- `Document.clause_order_irrelevant`: the owners of a document.
-/

namespace Blueprint

/-! ## Clauses in another order -/

/-- The second rule is the first with its clauses in another order. -/
inductive Rule.Shuffles (r : Rule) : Rule → Prop
  | mk {body : List RuleItem} : r.body.Perm body → Shuffles r { r with body }

/-- The second operation is the first with its parameters and its clauses in another order. -/
inductive Operation.Shuffles (o : Operation) : Operation → Prop
  | mk {params : List TypeExpr} {body : List OperationItem} :
    o.params.Perm params → o.body.Perm body → Shuffles o { o with params, body }

/-- The second construct is the first, or both are rules or operations and differ in order. -/
inductive Construct.Shuffles : Construct → Construct → Prop
  | same (c : Construct) : Shuffles c c
  | rule {r r' : Rule} : r.Shuffles r' → Shuffles (.rule r) (.rule r')
  | operation {o o' : Operation} : o.Shuffles o' → Shuffles (.operation o) (.operation o')

/-- The second document is the first with clauses in another order, in any of the rules and
operations that stand in it. -/
abbrev Document.Shuffles (d d' : Document) : Prop := d.Alters Construct.Shuffles d'

theorem Rule.Shuffles.refl (r : Rule) : r.Shuffles r := .mk (.refl _)

theorem Operation.Shuffles.refl (o : Operation) : o.Shuffles o := .mk (.refl _) (.refl _)

theorem Rule.Shuffles.name_eq {r r' : Rule} (h : r.Shuffles r') : r'.name = r.name := by
  cases h
  rfl

theorem Operation.Shuffles.name_eq {o o' : Operation} (h : o.Shuffles o') : o'.name = o.name := by
  cases h
  rfl

theorem Construct.Shuffles.key_eq {c c' : Construct} (h : c.Shuffles c') : c'.key = c.key := by
  cases h with
  | same => rfl
  | rule h => exact congrArg (Key.mk .rule) h.name_eq
  | operation h => exact congrArg (Key.mk .operation) h.name_eq

theorem Rule.Shuffles.of_construct {r r' : Rule} (h : Construct.Shuffles (.rule r) (.rule r')) :
    r.Shuffles r' := by
  cases h with
  | same => exact .refl r
  | rule h => exact h

theorem Operation.Shuffles.of_construct {o o' : Operation}
    (h : Construct.Shuffles (.operation o) (.operation o')) : o.Shuffles o' := by
  cases h with
  | same => exact .refl o
  | operation h => exact h

theorem Construct.Shuffles.alteration : Alteration Shuffles := ⟨same, key_eq⟩

/-- Only rules and operations have an order to lose. -/
theorem Construct.Shuffles.eq_of_kind {c c' : Construct} (h : c.Shuffles c')
    (hkind : c.kind ∉ [Kind.rule, .operation]) : c' = c := by
  cases h with
  | same => rfl
  | _ => simp [Construct.kind] at hkind

/-! ## Points -/

namespace Pass

variable {m : Model} {owners : Owners}

theorem rulePoints_perm {r r' : Rule} (h : r.Shuffles r') :
    (rulePoints m owners r).Perm (rulePoints m owners r') := by
  cases h with
  | mk hbody => exact (hbody.filterMap RuleItem.text?).flatMap_right _

theorem operationPoints_perm {o o' : Operation} (h : o.Shuffles o') :
    (operationPoints owners o).Perm (operationPoints owners o') := by
  cases h with
  | mk hparams hbody =>
    -- the result stays behind the parameters
    have hsignature := (hparams.map some).append_right [o.returnType]
    exact ((hsignature.flatMap_right _).filterMap _).append (hbody.filterMap _)

/-- **A rule goes to the same component**, whatever the order of its clauses. -/
theorem ruleOwner?_of_shuffles (ho : owners.Within m.componentNames) {r r' : Rule}
    (h : r.Shuffles r') : ruleOwner? m owners r' = ruleOwner? m owners r := by
  rw [ruleOwner?, ruleOwner?, ScoreBoard.best_merge, ScoreBoard.best_merge]
  exact Scores.best_tally_perm (rulePoints_perm h) fun p hp => mem_of_rulePoints ho hp

/-- **So does an operation**, whatever the order of its parameters and clauses. -/
theorem operationOwner?_of_shuffles (ho : owners.Within m.componentNames) {o o' : Operation}
    (h : o.Shuffles o') : operationOwner? m owners o' = operationOwner? m owners o := by
  rw [operationOwner?, operationOwner?, ScoreBoard.best_merge, ScoreBoard.best_merge]
  exact Scores.best_tally_perm (operationPoints_perm h) fun p hp => mem_of_operationPoints ho hp

end Pass

/-! ## Owners -/

namespace Model

variable (m : Model) {rs : List Rule} {os : List Operation}

/-- The model with other rules and operations. -/
def reorder (rs : List Rule) (os : List Operation) : Model :=
  { m with rules := rs, operations := os }

section

variable (hrules : List.Forall₂ Rule.Shuffles m.rules rs)
  (hoperations : List.Forall₂ Operation.Shuffles m.operations os)

include hrules hoperations

theorem keysOf_reorder (k : Kind) : (m.reorder rs os).keysOf k = m.keysOf k := by
  cases k with
  | rule => exact filterMap_key?_of_forall₂ hrules fun h => (Construct.Shuffles.rule h).key_eq
  | operation =>
    exact filterMap_key?_of_forall₂ hoperations fun h => (Construct.Shuffles.operation h).key_eq
  | _ => rfl

theorem keys_reorder : (m.reorder rs os).keys = m.keys := by
  have hkeys : (m.reorder rs os).keysOf = m.keysOf :=
    funext (m.keysOf_reorder hrules hoperations)
  rw [keys, hkeys, keys]

theorem heuristics_reorder {owners : Owners} (ho : owners.Within m.componentNames) :
    Pass.heuristics (m.reorder rs os) owners = Pass.heuristics m owners := by
  have hr : (rs.map fun r => ((⟨.rule, r.name⟩ : Key), Pass.ruleOwner? m owners r)) =
      m.rules.map fun r => (⟨.rule, r.name⟩, Pass.ruleOwner? m owners r) := by
    refine map_eq_of_forall₂ hrules fun h => ?_
    rw [h.name_eq, Pass.ruleOwner?_of_shuffles ho h]
  have ho : (os.map fun o => ((⟨.operation, o.name⟩ : Key), Pass.operationOwner? m owners o)) =
      m.operations.map fun o => (⟨.operation, o.name⟩, Pass.operationOwner? m owners o) := by
    refine map_eq_of_forall₂ hoperations fun h => ?_
    rw [h.name_eq, Pass.operationOwner?_of_shuffles ho h]
  show m.events.map _ ++ m.signals.map _ ++ m.states.map _ ++
    (rs.map fun r => ((⟨.rule, r.name⟩ : Key), Pass.ruleOwner? m owners r)) ++ m.journeys.map _ ++
    (os.map fun o => ((⟨.operation, o.name⟩ : Key), Pass.operationOwner? m owners o)) ++
    m.elements.map _ ++ m.actions.map _ = _
  rw [hr, ho]
  rfl

/-- **Owners do not depend on the order of clauses.** -/
theorem assignOwners_reorder : (m.reorder rs os).assignOwners = m.assignOwners := by
  have hkeys := m.keys_reorder hrules hoperations
  refine assignOwners_congr (fun p owners e => ?_) (fun p e owners ho => ?_) hkeys rfl
  · cases p <;> rfl
  · cases p with
    | kindHeuristics => exact m.heuristics_reorder hrules hoperations ho
    | fallback =>
      show ((m.reorder rs os).keys.map fun k => (k, m.componentNames.head?)) = _
      rw [hkeys]
      rfl
    | _ => rfl

end

/-! ## Collecting -/

variable {m m' : Model}

/-- A model with clauses in another order has other rules, operations, systems and components. -/
theorem eq_regroup_reorder (h : m.Alters Construct.Shuffles m') :
    m' = (m.reorder m'.rules m'.operations).regroup m'.systems m'.components := by
  refine ext_itemsOf (fun k => ?_) h.unhandled
  cases k with
  | rule | operation | system | component => rfl
  | _ =>
    refine h.itemsOf_eq (by decide) (by decide) fun hkind hc => hc.eq_of_kind ?_
    rw [hkind]
    decide

theorem assignOwners_of_shuffles (h : m.Alters Construct.Shuffles m') :
    m'.assignOwners = m.assignOwners := by
  have hrules : List.Forall₂ Rule.Shuffles m.rules m'.rules :=
    Alters.constructs Construct.Shuffles.alteration (h.items .rule) .of_construct
  have hoperations : List.Forall₂ Operation.Shuffles m.operations m'.operations :=
    Alters.constructs Construct.Shuffles.alteration (h.items .operation) .of_construct
  have hgroups := assignOwners_regroup (m.reorder m'.rules m'.operations) m'.systems h.faces
  rw [eq_regroup_reorder h, hgroups, m.assignOwners_reorder hrules hoperations]

/-- The components that are given points when the heuristics look at rules and operations. -/
def scoredByHeuristics (m : Model) : List String :=
  let owners := (m.runOf [.directNesting, .apiNamePrefix, .typeScoring, .flowScoring,
    .enumInheritance]).owners
  (m.rules.flatMap (Pass.rulePoints m owners) ++
    m.operations.flatMap (Pass.operationPoints owners)).map Prod.fst

theorem scoredByHeuristics_subset (m : Model) : m.scoredByHeuristics ⊆ m.componentNames := by
  intro c hc
  obtain ⟨p, hp, rfl⟩ := List.mem_map.1 hc
  have howners := (m.drawn_runOf [.directNesting, .apiNamePrefix, .typeScoring, .flowScoring,
    .enumInheritance]).owners
  rcases List.mem_append.1 hp with hp | hp
  · obtain ⟨r, -, hp⟩ := List.mem_flatMap.1 hp
    exact Pass.mem_of_rulePoints howners hp
  · obtain ⟨o, -, hp⟩ := List.mem_flatMap.1 hp
    exact Pass.mem_of_operationPoints howners hp

end Model

namespace Document

variable {d d' : Document}

/-- **The order of clauses is irrelevant.** Whoever is given points for a rule or an operation is
listed among the components by whose ranks ties are settled, and different components have different
ranks there, though some may be listed more than once. So a document with the clauses of its rules,
and the parameters and clauses of its operations, in another order has the same owners, found by the
same passes. -/
theorem clause_order_irrelevant (d : Document) :
    d.collect.scoredByHeuristics ⊆ d.collect.componentNames ∧
    (∀ c ∈ d.collect.componentNames, ∀ c' ∈ d.collect.componentNames,
      rank d.collect.componentNames c = rank d.collect.componentNames c' → c = c') ∧
    ∀ d' : Document, d.Shuffles d' → d'.owners = d.owners := by
  refine ⟨d.collect.scoredByHeuristics_subset, ?_, ?_⟩
  · intro c hc c' hc' hrank
    exact eq_of_rank_eq hc hc' hrank
  · intro d' h
    exact Model.assignOwners_of_shuffles (h.collect Construct.Shuffles.alteration)

/-- A pharmacy beside a ward that is declared twice, with a rule and an operation about both. The
clauses of the rule, and the parameters and clauses of the operation, are left open. -/
def infirmary (clauses : List RuleItem) (params : List TypeExpr) (body : List OperationItem) :
    Document where
  body :=
    [ .component ⟨none, "Ward", none, [], []⟩
        [ .construct (.entity ⟨none, "Patient", none, [], [], []⟩),
          .construct (.event ⟨none, "Admitted", none, [], [], []⟩) ],
      .component ⟨none, "Pharmacy", none, [], []⟩
        [ .construct (.entity ⟨none, "Drug", none, [], [], []⟩),
          .construct (.event ⟨none, "Dispensed", none, [], [], []⟩) ],
      .component ⟨none, "Ward", none, [], []⟩ [.construct (.rule ⟨none, "Visits", [], clauses⟩)],
      .construct (.rule ⟨none, "Dosage", [], clauses⟩),
      .construct (.operation ⟨none, "treat", params, none, [], body⟩) ]

/-- The infirmary, patients first. -/
def patientsFirst : Document :=
  infirmary [.condition none "Patient is awake", .consequence none "give Drug"]
    [.reference none "Patient", .reference none "Drug"]
    [.emits ⟨none, "Admitted"⟩, .reacts ⟨none, "Dispensed"⟩]

/-- The infirmary, drugs first. -/
def drugsFirst : Document :=
  infirmary [.consequence none "give Drug", .condition none "Patient is awake"]
    [.reference none "Drug", .reference none "Patient"]
    [.reacts ⟨none, "Dispensed"⟩, .emits ⟨none, "Admitted"⟩]

theorem shuffles_drugsFirst : patientsFirst.Shuffles drugsFirst where
  loc := rfl
  body :=
    .keep _ (.keep _ (.component _ (.construct (.rule (.mk (.swap _ _ _))) .nil)
      (.construct (.rule (.mk (.swap _ _ _)))
        (.construct (.operation (.mk (.swap _ _ _) (.swap _ _ _))) .nil))))

/-- In the infirmary, ward and pharmacy come to the same points for the dosage and for the
treatment, and whichever is named first, both go to the pharmacy. -/
theorem drugsFirst_clause_order_irrelevant :
    patientsFirst.collect.componentNames = ["Ward", "Pharmacy", "Ward"] ∧
    patientsFirst.collect.scoredByHeuristics.eraseDups = ["Ward", "Pharmacy"] ∧
    drugsFirst.collect.scoredByHeuristics.eraseDups = ["Pharmacy", "Ward"] ∧
    patientsFirst.Shuffles drugsFirst ∧ drugsFirst.owners = patientsFirst.owners ∧
    drugsFirst.owners.assignments.find? ⟨.rule, "Dosage"⟩ = some ⟨"Pharmacy", .kindHeuristics⟩ ∧
    drugsFirst.owners.assignments.find? ⟨.operation, "treat"⟩ =
      some ⟨"Pharmacy", .kindHeuristics⟩ := by
  obtain ⟨-, -, horder⟩ := clause_order_irrelevant patientsFirst
  have howners := horder drugsFirst shuffles_drugsFirst
  refine ⟨by decide +kernel, by decide +kernel, by decide +kernel, shuffles_drugsFirst, howners,
    ?_, ?_⟩
  · rw [howners]
    decide +kernel
  · rw [howners]
    decide +kernel

end Document

end Blueprint
