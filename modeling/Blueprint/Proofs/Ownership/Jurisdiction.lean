import Blueprint.Proofs.Ownership.Nesting

/-!
# Which passes decide which constructs

The seven passes share one table of owners, and each of them is shown what the others found. Still
every kind of construct has passes of its own: whatever a pass is shown, it goes through constructs
of certain kinds only. The first and the last pass go through all kinds, but nothing is left of the
components when the last one comes.

- `Kind.passes`: the passes that can decide who owns a construct of a kind.
- `Model.pass_mem_passes`: no other pass does.
- `Model.find?_eq_or_fallback`: an owner comes from the passes before the last, or else from it.
- `Model.isFallback_iff`: the last pass decides what no other pass proposes.
- `Model.owner?_of_isFallback`: and gives it to the first component.
- `Document.kinds_have_own_passes`: all of this for documents.
-/

namespace Blueprint

/-- The passes that can decide who owns a construct of a kind. -/
def Kind.passes : Kind → List Pass
  | component => [.directNesting]
  | screen => [.directNesting, .fallback]
  | dependency => [.directNesting, .fallback]
  | secret => [.directNesting, .fallback]
  | node => [.directNesting, .fallback]
  | api => [.directNesting, .apiNamePrefix, .fallback]
  | entity => [.directNesting, .typeScoring, .fallback]
  | enumeration => [.directNesting, .typeScoring, .enumInheritance, .fallback]
  | flow => [.directNesting, .flowScoring, .fallback]
  | event => [.directNesting, .kindHeuristics, .fallback]
  | signal => [.directNesting, .kindHeuristics, .fallback]
  | state => [.directNesting, .kindHeuristics, .fallback]
  | rule => [.directNesting, .kindHeuristics, .fallback]
  | journey => [.directNesting, .kindHeuristics, .fallback]
  | operation => [.directNesting, .kindHeuristics, .fallback]
  | element => [.directNesting, .kindHeuristics, .fallback]
  | action => [.directNesting, .kindHeuristics, .fallback]
  | system => []

/-- The passes of a kind are those that speak for it; components are never left to the last one. -/
theorem Kind.mem_passes_iff {kind : Kind} {p : Pass} :
    p ∈ kind.passes ↔ kind ∈ p.kinds ∧ ¬(kind = .component ∧ p = .fallback) := by
  cases kind <;> cases p <;> decide

namespace Pass

theorem mem_all (p : Pass) : p ∈ all := by cases p <;> decide

theorem all_eq_concat : all = all.dropLast ++ [fallback] := rfl

theorem mem_dropLast_all_iff {p : Pass} : p ∈ all.dropLast ↔ p ≠ fallback := by cases p <;> decide

end Pass

namespace Model

variable {m : Model} {k : Key} {a : Assignment}

/-! ## Kinds -/

/-- A pass decides only what it speaks for. -/
theorem kind_mem_of_assignment (h : m.assignOwners.assignments.find? k = some a) :
    k.kind ∈ a.pass.kinds := by
  obtain ⟨ps, qs, hall⟩ := List.append_of_mem (Pass.mem_all a.pass)
  exact Pass.kind_mem_of_mem_candidates (mem_candidates_of_assignment hall h)

/-- What the last pass decides is a construct of the model, and it goes to the first component. -/
theorem of_assignment_fallback {c : String}
    (h : m.assignOwners.assignments.find? k = some ⟨c, .fallback⟩) :
    k ∈ m.keys ∧ m.componentNames.head? = some c := by
  have hcandidate := mem_candidates_of_assignment Pass.all_eq_concat h
  -- all candidates of the last pass name the first component
  obtain ⟨j, hj, heq⟩ := List.mem_map.1 hcandidate
  obtain ⟨rfl, hhead⟩ := Prod.mk.inj heq
  exact ⟨hj, hhead⟩

/-- **No pass but those of its kind decides who owns a construct.** -/
theorem pass_mem_passes (h : m.assignOwners.assignments.find? k = some a) :
    a.pass ∈ k.kind.passes := by
  refine Kind.mem_passes_iff.2 ⟨kind_mem_of_assignment h, ?_⟩
  rintro ⟨hkind, hpass⟩
  obtain ⟨kind, n⟩ := k
  obtain ⟨c, p⟩ := a
  subst hkind hpass
  -- the component would be one of the model, and these belong to themselves
  have hname : n ∈ m.componentNames := mem_componentNames_iff.2 (of_assignment_fallback h).1
  rw [find?_assignOwners_component hname] at h
  cases h

/-! ## The last pass -/

/-- The owner that the passes before the last propose. -/
def proposedEarlier? (m : Model) (k : Key) : Option Assignment :=
  Pass.all.dropLast.findSome? fun p =>
    ((m.assignOwners.proposal m p).find? k).map fun c => ⟨c, p⟩

/-- An owner comes from the passes before the last, or else from the last. -/
theorem find?_eq_or_fallback (m : Model) (k : Key) :
    m.assignOwners.assignments.find? k = (m.proposedEarlier? k).or
      (((m.assignOwners.proposal m .fallback).find? k).map fun c => ⟨c, .fallback⟩) := by
  refine (find?_runOf (List.append_nil Pass.all).symm k).trans ?_
  rw [Pass.all_eq_concat, List.findSome?_append]
  simp [proposedEarlier?]

theorem pass_ne_fallback_of_proposedEarlier? (h : m.proposedEarlier? k = some a) :
    a.pass ≠ .fallback := by
  obtain ⟨p, hp, hpropose⟩ := List.exists_of_findSome?_eq_some h
  obtain ⟨c, -, rfl⟩ := Option.map_eq_some_iff.1 hpropose
  exact Pass.mem_dropLast_all_iff.1 hp

theorem proposedEarlier?_eq_none_iff :
    m.proposedEarlier? k = none ↔
      ∀ p, p ≠ .fallback → k ∉ (m.assignOwners.proposal m p).keys := by
  simp only [proposedEarlier?, List.findSome?_eq_none_iff, Option.map_eq_none_iff,
    Table.find?_eq_none_iff, Pass.mem_dropLast_all_iff]

theorem isFallback_eq (h : m.assignOwners.assignments.find? k = some a) :
    m.assignOwners.isFallback k = decide (a.pass = .fallback) := by
  rw [Ownership.isFallback, h]
  rfl

/-- **The last pass decides exactly what no other pass proposes.** -/
theorem isFallback_iff (hk : k ∈ m.assignOwners.assignments.keys) :
    m.assignOwners.isFallback k = true ↔
      ∀ p, p ≠ .fallback → k ∉ (m.assignOwners.proposal m p).keys := by
  obtain ⟨a, ha⟩ := Table.mem_keys_iff.1 hk
  -- the owner is what the first pass to propose one says
  have hfirst := m.find?_eq_or_fallback k
  rw [isFallback_eq ha, decide_eq_true_eq, ← proposedEarlier?_eq_none_iff]
  rw [ha] at hfirst
  constructor
  · intro hpass
    -- what a pass before the last proposes would be the owner, and the pass would be recorded
    refine Option.eq_none_iff_forall_ne_some.2 fun a' ha' => ?_
    rw [ha', Option.some_or] at hfirst
    cases hfirst
    exact pass_ne_fallback_of_proposedEarlier? ha' hpass
  · intro hnone
    rw [hnone, Option.none_or] at hfirst
    obtain ⟨c, -, rfl⟩ := Option.map_eq_some_iff.1 hfirst.symm
    rfl

/-- What the last pass decides belongs to the first component. -/
theorem owner?_of_isFallback (h : m.assignOwners.isFallback k = true) :
    ∃ first rest, m.components = first :: rest ∧
      m.assignOwners.owner? k = some first.name := by
  obtain ⟨a, ha, hpass⟩ := (Option.any_eq_true _ _).1 h
  obtain ⟨c, p⟩ := a
  rw [decide_eq_true_eq] at hpass
  subst hpass
  obtain ⟨-, hhead⟩ := of_assignment_fallback ha
  rw [componentNames] at hhead
  cases hcomponents : m.components with
  | nil =>
    rw [hcomponents] at hhead
    cases hhead
  | cons first rest =>
    rw [hcomponents] at hhead
    obtain rfl : first.name = c := Option.some.inj hhead
    refine ⟨first, rest, rfl, ?_⟩
    rw [Ownership.owner?, ha]
    rfl

end Model

/-! ## Documents -/

namespace Document

/-- **Each kind is decided by its own passes.** Whatever the document, the pass that is recorded for
a construct is one of its kind: components are decided by nesting; screens, dependencies, secrets
and nodes by nesting or by default; and the other kinds by what is particular to them besides. Of
the constructs that have an owner, the last pass decided exactly those that none of the six passes
before it proposes, and they belong to the first component. -/
theorem kinds_have_own_passes (d : Document) :
    (∀ k a, d.collect.assignOwners.assignments.find? k = some a → a.pass ∈ k.kind.passes) ∧
    (∀ k ∈ d.collect.assignOwners.assignments.keys,
      (d.collect.assignOwners.isFallback k = true ↔
        ∀ p, p ≠ .fallback → k ∉ (d.collect.assignOwners.proposal d.collect p).keys)) ∧
    ∀ k, d.collect.assignOwners.isFallback k = true →
      ∃ first rest, d.collect.components = first :: rest ∧
        d.collect.assignOwners.owner? k = some first.name :=
  ⟨fun _ _ h => Model.pass_mem_passes h, fun _ hk => Model.isFallback_iff hk,
    fun _ h => Model.owner?_of_isFallback h⟩

/-- A vineyard in which every pass decides something. -/
def vineyard : Document where
  body :=
    let grape : TypeExpr := .reference none "Grape"
    [ .component ⟨none, "Cellar", none, [], []⟩
        [.construct (.entity ⟨none, "Barrel", none, [], [], []⟩)],
      .component ⟨none, "Press", none, [], []⟩ [],
      .construct (.api ⟨none, some "pressApi", .rest, [],
        [.simple none .get "/grapes" none (some grape) []], []⟩),
      .construct (.entity ⟨none, "Grape", none, [], [],
        [⟨none, "sort", .reference none "Variety", []⟩]⟩),
      .construct (.enumeration ⟨none, "Variety", [], []⟩),
      .construct (.flow ⟨none, "Fill", none, [], [.reference none "Barrel"], none, [], []⟩),
      .construct (.event ⟨none, "GrapePressed", none, [], [], []⟩),
      .construct (.screen ⟨none, "Tour", none, [], [], []⟩) ]

/-- The tour is the only construct that no pass proposes before the last one. -/
theorem vineyard_passes :
    vineyard.collect.assignOwners.assignments.entries =
      [ (⟨.component, "Cellar"⟩, ⟨"Cellar", .directNesting⟩),
        (⟨.entity, "Barrel"⟩, ⟨"Cellar", .directNesting⟩),
        (⟨.component, "Press"⟩, ⟨"Press", .directNesting⟩),
        (⟨.api, "pressApi"⟩, ⟨"Press", .apiNamePrefix⟩),
        (⟨.entity, "Grape"⟩, ⟨"Press", .typeScoring⟩),
        (⟨.flow, "Fill"⟩, ⟨"Cellar", .flowScoring⟩),
        (⟨.enumeration, "Variety"⟩, ⟨"Press", .enumInheritance⟩),
        (⟨.event, "GrapePressed"⟩, ⟨"Press", .kindHeuristics⟩),
        (⟨.screen, "Tour"⟩, ⟨"Cellar", .fallback⟩) ] ∧
    (∀ e ∈ vineyard.collect.assignOwners.assignments.entries, e.2.pass ∈ e.1.kind.passes) ∧
    vineyard.collect.assignOwners.isFallback ⟨.screen, "Tour"⟩ = true ∧
    (∀ p, p ≠ .fallback → ⟨.screen, "Tour"⟩ ∉
      (vineyard.collect.assignOwners.proposal vineyard.collect p).keys) ∧
    ∃ first rest, vineyard.collect.components = first :: rest ∧
      vineyard.collect.assignOwners.owner? ⟨.screen, "Tour"⟩ = some first.name := by
  have htour : vineyard.collect.assignOwners.isFallback ⟨.screen, "Tour"⟩ = true := by
    decide +kernel
  obtain ⟨hpasses, hfallback, hfirst⟩ := kinds_have_own_passes vineyard
  obtain ⟨first, rest, hcomponents, howner⟩ := hfirst _ htour
  have hassigned : ⟨.screen, "Tour"⟩ ∈ vineyard.collect.assignOwners.assignments.keys :=
    Ownership.exists_owner?_iff.1 ⟨_, howner⟩
  refine ⟨by decide +kernel, ?_, htour, ?_, first, rest, hcomponents, howner⟩
  · intro e he
    exact hpasses e.1 e.2 (Table.find?_eq_some_iff.2 he)
  · exact (hfallback _ hassigned).1 htour

end Document

end Blueprint
