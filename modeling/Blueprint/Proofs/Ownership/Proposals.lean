import Blueprint.Ownership.Basic

/-!
# What the passes of ownership propose

The seven passes look at very different things, but they all go about it in the same way: they go
through candidates, each a construct with the component that is to own it, if any speaks for it, and
the first component named for a construct counts. What a pass does is said here once, so that
whatever holds of owners is shown of candidates.

- `Pass.candidates`: what a pass considers, in order.
- `Pass.propose_eq_foldl`: a pass goes through its candidates.
- `Pass.find?_propose`: a construct without owner is proposed for the first component that a
  candidate names.
- `OwnershipRun.find?_step`: an owned construct keeps its owner, any other one gets what is
  proposed.
- `Model.runOf`: how far the passes have come after some of them.
-/

namespace Blueprint

namespace Pass

/-! ## Candidates -/

/-- The component of the first candidate for a construct that names one. -/
def firstFor (k : Key) (candidates : List (Key × Option String)) : Option String :=
  candidates.findSome? fun c => if c.1 = k then c.2 else none

theorem mem_of_firstFor {k : Key} {component : String} {candidates : List (Key × Option String)}
    (h : firstFor k candidates = some component) : (k, some component) ∈ candidates := by
  obtain ⟨⟨j, component?⟩, hmem, hc⟩ := List.exists_of_findSome?_eq_some h
  by_cases hj : j = k
  · rw [if_pos hj] at hc
    obtain rfl := hj
    exact hc ▸ hmem
  · rw [if_neg hj] at hc
    cases hc

/-- What a pass considers, in order: constructs, each with the component that is to own it. -/
def candidates (m : Model) (e : Evidence) (owners : Owners) : Pass → List (Key × Option String)
  | directNesting =>
    m.components.flatMap fun c =>
      (⟨.component, c.name⟩ :: nestedKeys c).map fun k => (k, some c.name)
  | apiNamePrefix => m.apis.map fun a => (a.key, namesake? m a)
  | typeScoring =>
    (m.entityNames.map (Key.mk .entity) ++ m.enumNames.map (Key.mk .enumeration)).map fun k =>
      (k, e.typeScores.best k.name)
  | flowScoring =>
    m.flows.map fun f => (⟨.flow, f.name⟩, (flowBoard m e owners).best f.name)
  | enumInheritance => m.enumNames.map fun n => (⟨.enumeration, n⟩, heir? m owners n)
  | kindHeuristics => heuristics m owners
  | fallback => m.keys.map fun k => (k, m.componentNames.head?)

/-! ## Proposals -/

variable {owners : Owners} {k : Key}

/-- The first candidate for a construct without owner counts. -/
theorem find?_foldl_proposeFor (h : owners.contains k = false)
    (candidates : List (Key × Option String)) (proposed : Owners) :
    (candidates.foldl (fun p c => proposeFor owners p c.1 c.2) proposed).find? k =
      (proposed.find? k).or (firstFor k candidates) := by
  induction candidates generalizing proposed with
  | nil => simp [firstFor]
  | cons c rest ih =>
    obtain ⟨j, component?⟩ := c
    rw [List.foldl_cons, ih]
    by_cases hj : j = k
    · subst hj
      cases component? with
      | none => simp [proposeFor, firstFor]
      | some component =>
        simp [proposeFor, firstFor, h, Table.find?_insertNew]
    · -- a candidate for another construct changes nothing for this one
      have hsame : (proposeFor owners proposed j component?).find? k = proposed.find? k := by
        unfold proposeFor
        split
        · rfl
        · split
          · rfl
          · rw [Table.find?_insertNew, if_neg (Ne.symm hj), Option.or_none]
      rw [hsame]
      simp [firstFor, hj]

/-- The owners that a pass heeds: the first pass heeds none. -/
def heeded (owners : Owners) : Pass → Owners
  | directNesting => ∅
  | _ => owners

/-- A pass goes through its candidates. -/
theorem propose_eq_foldl (m : Model) (e : Evidence) (owners : Owners) (p : Pass) :
    p.propose m e owners =
      (p.candidates m e owners).foldl (fun t c => proposeFor (p.heeded owners) t c.1 c.2) ∅ := by
  cases p with
  | directNesting =>
    simp only [propose, byNesting, candidates, List.foldl_flatMap, List.foldl_map]
    rfl
  | kindHeuristics => rfl
  | _ =>
    simp only [candidates, List.foldl_map]
    rfl

/-- **A construct without owner is proposed for the first component that a candidate names.** -/
theorem find?_propose (m : Model) (e : Evidence) (h : owners.contains k = false) (p : Pass) :
    (p.propose m e owners).find? k = firstFor k (p.candidates m e owners) := by
  -- the first pass proposes for owned constructs too, which makes no difference for this one
  have hheeded : (p.heeded owners).contains k = false := by
    cases p with
    | directNesting => rfl
    | _ => exact h
  rw [propose_eq_foldl]
  exact find?_foldl_proposeFor hheeded _ ∅

end Pass

/-! ## Runs -/

namespace OwnershipRun

variable {m : Model} {r : OwnershipRun}

theorem find?_owners (r : OwnershipRun) (k : Key) :
    r.owners.find? k = (r.assignments.find? k).map Assignment.component :=
  Table.find?_mapValues ..

theorem contains_owners (r : OwnershipRun) (k : Key) :
    r.owners.contains k = r.assignments.contains k := by
  rw [Table.contains, Table.contains, find?_owners, Option.isSome_map]

theorem find?_accepted (m : Model) (r : OwnershipRun) (p : Pass) (k : Key) :
    (r.accepted m p).find? k =
      if r.assignments.contains k then none
      else (p.propose m (r.evidenceFor m p) r.owners).find? k := by
  rw [accepted, Table.find?_filter]
  cases r.assignments.contains k with
  | true => simp
  | false => cases (p.propose m (r.evidenceFor m p) r.owners).find? k <;> rfl

/-- **An owned construct keeps its owner, any other one gets what the pass proposes.** -/
theorem find?_step (m : Model) (r : OwnershipRun) (p : Pass) (k : Key) :
    (r.step m p).assignments.find? k = (r.assignments.find? k).or
      (((p.propose m (r.evidenceFor m p) r.owners).find? k).map fun c => ⟨c, p⟩) := by
  show (r.assignments.extend _).find? k = _
  rw [Table.find?_extend, Table.find?_mapValues, find?_accepted]
  -- what is proposed for an owned construct is not accepted
  cases h : r.assignments.find? k with
  | none => simp [Table.contains, h]
  | some a => simp

/-- The same, said with candidates. -/
theorem find?_step_eq_firstFor (m : Model) (r : OwnershipRun) (p : Pass) (k : Key) :
    (r.step m p).assignments.find? k = (r.assignments.find? k).or
      ((Pass.firstFor k (p.candidates m (r.evidenceFor m p) r.owners)).map fun c => ⟨c, p⟩) := by
  rw [find?_step]
  cases h : r.assignments.find? k with
  | none =>
    have hfree : r.owners.contains k = false := by
      rw [contains_owners, Table.contains, h]
      rfl
    rw [Pass.find?_propose m _ hfree]
  | some a => rw [Option.some_or, Option.some_or]

end OwnershipRun

namespace Model

/-- How far the passes have come after some of them. -/
def runOf (m : Model) (ps : List Pass) : OwnershipRun := ps.foldl (OwnershipRun.step m) {}

theorem runOf_concat (m : Model) (ps : List Pass) (p : Pass) :
    m.runOf (ps ++ [p]) = (m.runOf ps).step m p := by
  rw [runOf, List.foldl_append]
  rfl

/-- What holds at first and is kept by every pass holds after all of them. -/
theorem runOf_induct {m : Model} {P : OwnershipRun → Prop} (start : P {})
    (step : ∀ r p, P r → P (r.step m p)) (ps : List Pass) : P (m.runOf ps) :=
  List.foldlRecOn ps _ start fun r hr p _ => step r p hr

end Model

/-- The constructs with an owner are those with an assignment. -/
theorem Ownership.exists_owner?_iff {o : Ownership} {k : Key} :
    (∃ c, o.owner? k = some c) ↔ k ∈ o.assignments.keys := by
  rw [← Option.isSome_iff_exists, owner?, Option.isSome_map, ← Table.contains_iff, Table.contains]

end Blueprint
