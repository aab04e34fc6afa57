import Blueprint.Proofs.Model.Collection
import Blueprint.Proofs.Ownership.Proposals

/-!
# Everything has an owner, and every owner is a component

Passes propose owners from names, from points and from owners found before. However long the way,
every name on it is that of a component of the model: points are only given to owners, and owners
are only taken from components and from points. In the same way every construct that gets an owner
is one of the model, for all that passes go through are its declarations. And once there is a
component, the last pass leaves nothing without owner. In the specification this is the testable
property of totality (§8).

- `ScoreBoard.Given`: what holds of every component with points, because it holds whenever points
  are given.
- `ScoreBoard.Within`, `Owners.Within`, `Evidence.Within`: all components are among given names.
- `Pass.component_mem_of_mem_candidates`: the components that passes speak for.
- `Pass.key_mem_of_mem_candidates`: the constructs that passes go through.
- `Model.assignOwners_congr`: owners depend on what the passes see.
- `Model.owner_mem_componentNames`: owners are components, in every model.
- `Document.ownership_total_closed`: ownership of the constructs of a document.
-/

namespace Blueprint

/-! ## Points -/

theorem mem_of_firstMin {α : Type} {f : α → Nat} {xs : List α} {x : α}
    (h : firstMin f xs = some x) : x ∈ xs := by
  cases xs with
  | nil => cases h
  | cons a rest =>
    obtain rfl := Option.some.inj h
    -- whichever of two elements is kept, it is one of the list
    refine List.foldlRecOn rest _ List.mem_cons_self fun best hbest y hy => ?_
    split
    · exact List.mem_cons_of_mem a hy
    · exact hbest

theorem Scores.mem_keys_of_mem_leaders {s : Scores} {c : String} (h : c ∈ s.leaders) :
    c ∈ s.keys := by
  unfold leaders at h
  split at h
  · exact absurd h List.not_mem_nil
  · obtain ⟨e, he, rfl⟩ := List.mem_map.1 h
    exact List.mem_map_of_mem (List.mem_filter.1 he).1

/-- Only a component with points can be the best. -/
theorem Scores.mem_keys_of_best {s : Scores} {order : Option (List String)} {c : String}
    (h : s.best order = some c) : c ∈ s.keys := by
  cases order with
  | none => exact mem_keys_of_mem_leaders (List.mem_of_head? h)
  | some order => exact mem_keys_of_mem_leaders (mem_of_firstMin h)

namespace ScoreBoard

variable {names : List String} {P : String → String → Prop} {b : ScoreBoard}

/-- Targets and the components with points for them have a property. -/
def Given (P : String → String → Prop) (b : ScoreBoard) : Prop :=
  ∀ target, ∀ c ∈ (b.scores target).keys, P target c

theorem given_empty : ({} : ScoreBoard).Given P := fun _ _ hc => absurd hc List.not_mem_nil

theorem Given.add (h : b.Given P) {target c : String} (hc : P target c) (points : Int) :
    (b.add target c points).Given P := by
  intro t d hd
  rw [scores_add] at hd
  split at hd
  · next ht =>
    -- the component that is given points now, or one that had some
    rcases Table.mem_keys_upsert.1 hd with rfl | hd
    · exact ht ▸ hc
    · exact h t d hd
  · exact h t d hd

theorem Given.merge (h : b.Given P) (target : String) {points : List (String × Int)}
    (hpoints : ∀ p ∈ points, P target p.1) : (b.merge target points).Given P :=
  List.foldlRecOn points _ h fun _ hb p hp => hb.add (hpoints p hp) p.2

theorem Given.best (h : b.Given P) {target : String} {order : Option (List String)} {c : String}
    (hc : b.best target order = some c) : P target c :=
  h target c (Scores.mem_keys_of_best hc)

/-- The components on a board are among given names. -/
def Within (names : List String) (b : ScoreBoard) : Prop :=
  ∀ target, ∀ c ∈ (b.scores target).keys, c ∈ names

theorem within_iff : b.Within names ↔ b.Given fun _ c => c ∈ names := Iff.rfl

theorem within_empty : ({} : ScoreBoard).Within names := within_iff.2 given_empty

theorem Within.add (h : b.Within names) {c : String} (hc : c ∈ names) (target : String)
    (points : Int) : (b.add target c points).Within names :=
  within_iff.2 ((within_iff.1 h).add hc points)

theorem Within.merge (h : b.Within names) (target : String) {points : List (String × Int)}
    (hpoints : ∀ p ∈ points, p.1 ∈ names) : (b.merge target points).Within names :=
  within_iff.2 ((within_iff.1 h).merge target hpoints)

theorem Within.best (h : b.Within names) {target : String} {order : Option (List String)}
    {c : String} (hc : b.best target order = some c) : c ∈ names :=
  (within_iff.1 h).best hc

end ScoreBoard

/-! ## Owners and evidence -/

namespace Owners

variable {names : List String} {owners : Owners}

/-- The owners are among given names. -/
def Within (names : List String) (owners : Owners) : Prop :=
  ∀ k c, owners.find? k = some c → c ∈ names

theorem Within.owner? (h : owners.Within names) {k : Key} {c : String}
    (hc : owners.owner? k = some c) : c ∈ names := by
  obtain ⟨c', hfind, hname⟩ := Option.bind_eq_some_iff.1 hc
  obtain ⟨rfl, -⟩ := nonEmpty?_eq_some_iff.1 hname
  exact h k c' hfind

theorem Within.typeOwner? (h : owners.Within names) {name c : String}
    (hc : owners.typeOwner? name = some c) : c ∈ names := by
  rcases Option.or_eq_some_iff.1 hc with hc | ⟨-, hc⟩
  · exact h.owner? hc
  · exact h.owner? hc

theorem Within.firstOwner? (h : owners.Within names) {keys : List Key} {c : String}
    (hc : owners.firstOwner? keys = some c) : c ∈ names := by
  obtain ⟨k, -, hk⟩ := List.exists_of_findSome?_eq_some hc
  exact h.owner? hk

end Owners

namespace Evidence

variable {m : Model} {names : List String} {owners : Owners} {e : Evidence}

/-- All components that the passes hand on are among given names. -/
structure Within (names : List String) (e : Evidence) : Prop where
  typeScores : e.typeScores.Within names
  ownedBefore : e.ownedBefore.Within names

/-- An API gives points to its owner only. -/
theorem within_scoreApi (ho : owners.Within names) {b : ScoreBoard} (hb : b.Within names)
    (a : Api) : (scoreApi m owners b a).Within names := by
  unfold scoreApi
  split
  · exact hb
  · next component hc =>
    exact List.foldlRecOn _ _ hb fun _ hb r _ => hb.add (ho.owner? hc) r _

theorem Within.scoreTypes (h : e.Within names) (ho : owners.Within names) :
    (e.scoreTypes m owners).Within names := by
  refine ⟨?_, ho⟩
  exact List.foldlRecOn m.apis _ h.typeScores fun _ hb a _ => within_scoreApi ho hb a

theorem Within.observe (h : e.Within names) (ho : owners.Within names) (p : Pass) :
    (p.observe m owners e).Within names := by
  cases p with
  | typeScoring => exact h.scoreTypes ho
  | _ => exact h

end Evidence

/-! ## The components that passes speak for -/

namespace Pass

variable {m : Model} {names : List String} {e : Evidence} {owners : Owners} {k : Key} {c : String}

theorem mem_of_mentionPoints (he : e.Within names) {entity : String} {p : String × Int}
    (hp : p ∈ mentionPoints e entity) : p.1 ∈ names := by
  unfold mentionPoints at hp
  split at hp
  · next component hc =>
    rw [List.mem_singleton.1 hp]
    exact he.ownedBefore.owner? hc
  · exact he.typeScores entity p.1 (List.mem_map_of_mem hp)

theorem mem_of_flowPoints (he : e.Within names) {f : Flow} {p : String × Int}
    (hp : p ∈ flowPoints m e f) : p.1 ∈ names := by
  rcases List.mem_append.1 hp with hp | hp
  · obtain ⟨text, -, hp⟩ := List.mem_flatMap.1 hp
    obtain ⟨entity, -, hp⟩ := List.mem_flatMap.1 hp
    exact mem_of_mentionPoints he hp
  · obtain ⟨r, -, hr⟩ := List.mem_filterMap.1 hp
    obtain ⟨component, hc, rfl⟩ := Option.map_eq_some_iff.1 hr
    exact he.ownedBefore.typeOwner? hc

theorem within_flowBoard (he : e.Within names) : (flowBoard m e owners).Within names :=
  List.foldlRecOn _ _ ScoreBoard.within_empty fun _ hb f _ =>
    hb.merge f.name fun _ hp => mem_of_flowPoints he hp

theorem mem_of_rulePoints (ho : owners.Within names) {r : Rule} {p : String × Int}
    (hp : p ∈ rulePoints m owners r) : p.1 ∈ names := by
  obtain ⟨text, -, hp⟩ := List.mem_flatMap.1 hp
  obtain ⟨n, -, hn⟩ := List.mem_filterMap.1 hp
  obtain ⟨component, hc, rfl⟩ := Option.map_eq_some_iff.1 hn
  exact ho.owner? hc

theorem mem_of_operationPoints (ho : owners.Within names) {o : Operation} {p : String × Int}
    (hp : p ∈ operationPoints owners o) : p.1 ∈ names := by
  rcases List.mem_append.1 hp with hp | hp
  · obtain ⟨r, -, hr⟩ := List.mem_filterMap.1 hp
    obtain ⟨component, hc, rfl⟩ := Option.map_eq_some_iff.1 hr
    exact ho.typeOwner? hc
  · obtain ⟨item, -, hitem⟩ := List.mem_filterMap.1 hp
    split at hitem
    · obtain ⟨component, hc, rfl⟩ := Option.map_eq_some_iff.1 hitem
      exact ho.owner? hc
    · obtain ⟨component, hc, rfl⟩ := Option.map_eq_some_iff.1 hitem
      exact ho.owner? hc
    · cases hitem

/-- Every heuristic answers with an owner or with the best of a board of owners. -/
theorem mem_of_heuristics (ho : owners.Within names) (h : (k, some c) ∈ heuristics m owners) :
    c ∈ names := by
  simp only [heuristics, List.mem_append, List.mem_map, Prod.mk.injEq] at h
  rcases h with ((((((h | h) | h) | h) | h) | h) | h) | h <;> obtain ⟨d, -, -, hc⟩ := h
  · exact ho.firstOwner? hc
  · exact ho.firstOwner? hc
  · exact ho.owner? hc
  · exact (ScoreBoard.within_empty.merge d.name fun p hp => mem_of_rulePoints ho hp).best hc
  · exact ho.firstOwner? hc
  · exact (ScoreBoard.within_empty.merge d.name fun p hp => mem_of_operationPoints ho hp).best hc
  · exact ho.firstOwner? hc
  · exact ho.firstOwner? hc

/-- **Passes only speak for components of the model.** -/
theorem component_mem_of_mem_candidates (ho : owners.Within m.componentNames)
    (he : e.Within m.componentNames) {p : Pass} (h : (k, some c) ∈ p.candidates m e owners) :
    c ∈ m.componentNames := by
  cases p with
  | directNesting =>
    obtain ⟨d, hd, h⟩ := List.mem_flatMap.1 h
    obtain ⟨j, -, heq⟩ := List.mem_map.1 h
    cases heq
    exact List.mem_map_of_mem hd
  | apiNamePrefix =>
    obtain ⟨a, -, heq⟩ := List.mem_map.1 h
    obtain ⟨-, hc⟩ := Prod.mk.inj heq
    obtain ⟨name, -, hfind⟩ := Option.bind_eq_some_iff.1 hc
    exact List.mem_of_find?_eq_some hfind
  | typeScoring =>
    obtain ⟨j, -, heq⟩ := List.mem_map.1 h
    exact he.typeScores.best (Prod.mk.inj heq).2
  | flowScoring =>
    obtain ⟨f, -, heq⟩ := List.mem_map.1 h
    exact (within_flowBoard he).best (Prod.mk.inj heq).2
  | enumInheritance =>
    obtain ⟨n, -, heq⟩ := List.mem_map.1 h
    obtain ⟨d, -, hd⟩ := List.exists_of_findSome?_eq_some (Prod.mk.inj heq).2
    split at hd
    · exact ho.owner? hd
    · cases hd
  | kindHeuristics => exact mem_of_heuristics ho h
  | fallback =>
    obtain ⟨j, -, heq⟩ := List.mem_map.1 h
    exact List.mem_of_head? (Prod.mk.inj heq).2

end Pass

/-! ## The constructs that passes go through -/

theorem Construct.kind_ne_system (c : Construct) : c.kind ≠ .system := by
  intro h
  cases c <;> cases h

theorem Construct.kind_ne_component (c : Construct) : c.kind ≠ .component := by
  intro h
  cases c <;> cases h

namespace Model

variable {m : Model}

theorem key_mem_keys_of_construct {c : Construct} (h : .construct c ∈ m.itemsOf c.kind) :
    c.key ∈ m.keys := by
  have hkind : c.kind ∈ Kind.ownable := Kind.mem_ownable_iff.2 c.kind_ne_system
  exact List.mem_flatMap.2 ⟨c.kind, hkind, List.mem_filterMap.2 ⟨_, h, rfl⟩⟩

theorem key_mem_keys_of_component {c : Component} (h : c ∈ m.components) :
    ⟨.component, c.name⟩ ∈ m.keys :=
  List.mem_flatMap.2 ⟨.component, by decide,
    List.mem_filterMap.2 ⟨.component c.head c.body, List.mem_map_of_mem h, rfl⟩⟩

/-- A key that can be owned is listed with its kind. -/
theorem mem_keys_iff_mem_keysOf {k : Key} :
    k ∈ m.keys ↔ k.kind ≠ .system ∧ k ∈ m.keysOf k.kind := by
  constructor
  · intro h
    obtain ⟨kind, hkind, h⟩ := List.mem_flatMap.1 h
    obtain ⟨i, hi, hkey⟩ := List.mem_filterMap.1 h
    obtain rfl : k.kind = kind :=
      Option.some.inj ((Item.kind?_eq_some_of_key? hkey).symm.trans (kind?_of_mem_itemsOf hi))
    exact ⟨Kind.mem_ownable_iff.1 hkind, h⟩
  · rintro ⟨hkind, h⟩
    exact List.mem_flatMap.2 ⟨k.kind, Kind.mem_ownable_iff.2 hkind, h⟩

theorem kind_ne_system_of_mem_keys {k : Key} (h : k ∈ m.keys) : k.kind ≠ .system :=
  (mem_keys_iff_mem_keysOf.1 h).1

theorem mem_componentNames_iff {n : String} :
    n ∈ m.componentNames ↔ ⟨.component, n⟩ ∈ m.keys := by
  simp [mem_keys_iff_mem_keysOf, keysOf, itemsOf, Item.key?, componentNames, Component.name]

/-- What stands directly in a component of a model is in the model. -/
def Nests (m : Model) : Prop := ∀ c ∈ m.components, ∀ k ∈ Pass.nestedKeys c, k ∈ m.keys

end Model

namespace Pass

open Model

variable {m : Model} {e : Evidence} {owners : Owners} {k : Key} {c? : Option String}

theorem key_mem_of_heuristics (h : (k, c?) ∈ heuristics m owners) : k ∈ m.keys := by
  simp only [heuristics, List.mem_append, List.mem_map, Prod.mk.injEq] at h
  rcases h with ((((((h | h) | h) | h) | h) | h) | h) | h <;> obtain ⟨d, hd, rfl, -⟩ := h
  · exact key_mem_keys_of_construct (c := .event d) (List.mem_map_of_mem hd)
  · exact key_mem_keys_of_construct (c := .signal d) (List.mem_map_of_mem hd)
  · exact key_mem_keys_of_construct (c := .state d) (List.mem_map_of_mem hd)
  · exact key_mem_keys_of_construct (c := .rule d) (List.mem_map_of_mem hd)
  · exact key_mem_keys_of_construct (c := .journey d) (List.mem_map_of_mem hd)
  · exact key_mem_keys_of_construct (c := .operation d) (List.mem_map_of_mem hd)
  · exact key_mem_keys_of_construct (c := .element d) (List.mem_map_of_mem hd)
  · exact key_mem_keys_of_construct (c := .action d) (List.mem_map_of_mem hd)

/-- **Passes only go through constructs of the model**, if components hold no others. -/
theorem key_mem_of_mem_candidates (hm : m.Nests) {p : Pass}
    (h : (k, c?) ∈ p.candidates m e owners) : k ∈ m.keys := by
  cases p with
  | directNesting =>
    obtain ⟨d, hd, h⟩ := List.mem_flatMap.1 h
    obtain ⟨j, hj, heq⟩ := List.mem_map.1 h
    cases heq
    rcases List.mem_cons.1 hj with rfl | hj
    · exact key_mem_keys_of_component hd
    · exact hm d hd k hj
  | apiNamePrefix =>
    obtain ⟨a, ha, heq⟩ := List.mem_map.1 h
    cases heq
    exact key_mem_keys_of_construct (c := .api a) (List.mem_map_of_mem ha)
  | typeScoring =>
    obtain ⟨j, hj, heq⟩ := List.mem_map.1 h
    cases heq
    rcases List.mem_append.1 hj with hj | hj <;>
      obtain ⟨n, hn, rfl⟩ := List.mem_map.1 hj <;> obtain ⟨d, hd, rfl⟩ := List.mem_map.1 hn
    · exact key_mem_keys_of_construct (c := .entity d) (List.mem_map_of_mem hd)
    · exact key_mem_keys_of_construct (c := .enumeration d) (List.mem_map_of_mem hd)
  | flowScoring =>
    obtain ⟨f, hf, heq⟩ := List.mem_map.1 h
    cases heq
    exact key_mem_keys_of_construct (c := .flow f) (List.mem_map_of_mem hf)
  | enumInheritance =>
    obtain ⟨n, hn, heq⟩ := List.mem_map.1 h
    cases heq
    obtain ⟨d, hd, rfl⟩ := List.mem_map.1 hn
    exact key_mem_keys_of_construct (c := .enumeration d) (List.mem_map_of_mem hd)
  | kindHeuristics => exact key_mem_of_heuristics h
  | fallback =>
    obtain ⟨j, hj, heq⟩ := List.mem_map.1 h
    cases heq
    exact hj

/-- The last pass speaks for every construct of a model with components. -/
theorem firstFor_fallback (hm : m.components ≠ []) (hk : k ∈ m.keys) :
    ∃ c, firstFor k (fallback.candidates m e owners) = some c := by
  obtain ⟨d, rest, hd⟩ := List.exists_cons_of_ne_nil hm
  have hhead : m.componentNames.head? = some d.name := by simp [componentNames, hd]
  have hsome : (firstFor k (fallback.candidates m e owners)).isSome := by
    rw [firstFor, List.findSome?_isSome_iff]
    exact ⟨(k, m.componentNames.head?), List.mem_map_of_mem hk, by simp [hhead]⟩
  exact Option.isSome_iff_exists.1 hsome

end Pass

/-! ## Runs -/

namespace OwnershipRun

variable {m : Model} {r : OwnershipRun}

/-- Everything that the passes have found are components of the model. -/
structure Drawn (m : Model) (r : OwnershipRun) : Prop where
  owners : r.owners.Within m.componentNames
  evidence : r.evidence.Within m.componentNames

theorem drawn_start (m : Model) : Drawn m {} where
  owners k c h := by cases h
  evidence := ⟨ScoreBoard.within_empty, fun k c h => by cases h⟩

/-- The step: a pass that is shown components finds components. -/
theorem Drawn.step (h : r.Drawn m) (p : Pass) : (r.step m p).Drawn m := by
  have hevidence : (r.evidenceFor m p).Within m.componentNames := h.evidence.observe h.owners p
  refine ⟨?_, hevidence⟩
  intro k c hc
  rw [find?_owners] at hc
  obtain ⟨a, ha, rfl⟩ := Option.map_eq_some_iff.1 hc
  rw [find?_step_eq_firstFor] at ha
  -- the owner was there before the pass, or the pass is the first to name one
  rcases Option.or_eq_some_iff.1 ha with ha | ⟨-, ha⟩
  · refine h.owners k a.component ?_
    rw [find?_owners, ha]
    rfl
  · obtain ⟨c, hfirst, rfl⟩ := Option.map_eq_some_iff.1 ha
    exact Pass.component_mem_of_mem_candidates h.owners hevidence (Pass.mem_of_firstFor hfirst)

end OwnershipRun

namespace Model

variable {m : Model} {k : Key} {c : String}

/-- The run: what any number of passes find are components of the model. -/
theorem drawn_runOf (m : Model) (ps : List Pass) : (m.runOf ps).Drawn m :=
  runOf_induct (OwnershipRun.drawn_start m) (fun _ p h => h.step p) ps

section

variable {m' : Model}
  (hobserve : ∀ (p : Pass) (owners : Owners) (e : Evidence),
    p.observe m' owners e = p.observe m owners e)
  (hcandidates : ∀ (p : Pass) (e : Evidence) (owners : Owners), owners.Within m.componentNames →
    p.candidates m' e owners = p.candidates m e owners)

include hobserve hcandidates

theorem step_congr {r : OwnershipRun} (hr : r.Drawn m) (p : Pass) : r.step m' p = r.step m p := by
  have hevidence : r.evidenceFor m' p = r.evidenceFor m p := hobserve p r.owners r.evidence
  have haccepted : r.accepted m' p = r.accepted m p := by
    rw [OwnershipRun.accepted, OwnershipRun.accepted, hevidence, Pass.propose_eq_foldl,
      Pass.propose_eq_foldl, hcandidates p _ _ hr.owners]
  rw [OwnershipRun.step, OwnershipRun.step, hevidence, haccepted]

theorem foldl_step_congr (ps : List Pass) {r : OwnershipRun} (hr : r.Drawn m) :
    ps.foldl (OwnershipRun.step m') r = ps.foldl (OwnershipRun.step m) r := by
  induction ps generalizing r with
  | nil => rfl
  | cons p ps ih =>
    rw [List.foldl_cons, List.foldl_cons, step_congr hobserve hcandidates hr, ih (hr.step p)]

/-- **Owners depend on what the passes see.** Models with the same keys and components have the same
owners if every pass gathers the same evidence and has the same candidates, whenever the owners that
it is shown are components. -/
theorem assignOwners_congr (hkeys : m'.keys = m.keys)
    (hnames : m'.componentNames = m.componentNames) : m'.assignOwners = m.assignOwners := by
  have hrun : m'.ownershipRun = m.ownershipRun :=
    foldl_step_congr hobserve hcandidates Pass.all (OwnershipRun.drawn_start m)
  rw [assignOwners, assignOwners, hrun, hkeys, hnames]

end

/-- **Owners are components.** -/
theorem owner_mem_componentNames (h : m.assignOwners.owner? k = some c) :
    c ∈ m.componentNames := by
  refine (m.drawn_runOf Pass.all).owners k c ?_
  rw [OwnershipRun.find?_owners]
  exact h

/-- In a model without components nothing has an owner. -/
theorem owner?_eq_none (hm : m.components = []) (k : Key) : m.assignOwners.owner? k = none := by
  refine Option.eq_none_iff_forall_ne_some.2 fun c hc => ?_
  have hmem := owner_mem_componentNames hc
  rw [componentNames, hm] at hmem
  exact absurd hmem List.not_mem_nil

/-- **Only constructs of the model get an owner**, if components hold no others. -/
theorem mem_keys_of_mem_assignments (hm : m.Nests) (h : k ∈ m.assignOwners.assignments.keys) :
    k ∈ m.keys := by
  have hrun : ∀ a, (m.runOf Pass.all).assignments.find? k = some a → k ∈ m.keys := by
    refine runOf_induct (P := fun r => ∀ a, r.assignments.find? k = some a → k ∈ m.keys)
      nofun ?_ Pass.all
    intro r p ih a ha
    rw [OwnershipRun.find?_step_eq_firstFor] at ha
    rcases Option.or_eq_some_iff.1 ha with ha | ⟨-, ha⟩
    · exact ih a ha
    · obtain ⟨c, hc, -⟩ := Option.map_eq_some_iff.1 ha
      exact Pass.key_mem_of_mem_candidates hm (Pass.mem_of_firstFor hc)
  obtain ⟨a, ha⟩ := Table.mem_keys_iff.1 h
  exact hrun a ha

/-- **Every construct of a model with components gets an owner.** -/
theorem mem_assignments_of_mem_keys (hm : m.components ≠ []) (h : k ∈ m.keys) :
    k ∈ m.assignOwners.assignments.keys := by
  -- whatever the passes before it found, the last pass speaks for what is left
  have hlast : m.runOf Pass.all =
      (m.runOf (Pass.all.take 6)).step m .fallback := m.runOf_concat (Pass.all.take 6) .fallback
  obtain ⟨c, hc⟩ : ∃ c, Pass.firstFor k (Pass.fallback.candidates m
      ((m.runOf (Pass.all.take 6)).evidenceFor m .fallback) (m.runOf (Pass.all.take 6)).owners) =
        some c := Pass.firstFor_fallback hm h
  rw [← Table.contains_iff]
  show ((m.runOf Pass.all).assignments.find? k).isSome = true
  rw [hlast, OwnershipRun.find?_step_eq_firstFor, hc]
  simp

end Model

/-! ## Documents -/

namespace Document

variable {d : Document}

/-- Collecting opens components wherever they stand, so it finds what stands in them. -/
theorem nests_collect (d : Document) : d.collect.Nests := by
  intro c hc k hk
  obtain ⟨i, hi, hkey⟩ := List.mem_filterMap.1 hk
  have hi' : i ∈ d.preorder :=
    Item.mem_preorderAll_of_mem_body (mem_components_collect_iff.1 hc) hi
  cases i with
  | construct decl =>
    obtain rfl := Option.some.inj hkey
    exact mem_keys_collect_iff.2 ⟨decl.kind_ne_system, _, hi', rfl⟩
  | _ => cases hkey

/-- **Ownership is total and closed.** In a document with components, the constructs with an owner
are all constructs that can be owned; in a document without components there are none. Every owner
is a component of the document, and no system has an owner. -/
theorem ownership_total_closed (d : Document) :
    (d.collect.components ≠ [] →
      (∀ k, k ∈ d.collect.assignOwners.assignments.keys ↔ k ∈ d.collect.keys) ∧
        d.collect.assignOwners.unassigned = []) ∧
    (d.collect.components = [] → d.collect.assignOwners.assignments.keys = []) ∧
    (∀ k c, d.collect.assignOwners.owner? k = some c → c ∈ d.collect.componentNames) ∧
    ∀ k ∈ d.collect.assignOwners.assignments.keys, k.kind ≠ .system := by
  have hmem : ∀ k ∈ d.collect.assignOwners.assignments.keys, k ∈ d.collect.keys :=
    fun k => Model.mem_keys_of_mem_assignments d.nests_collect
  refine ⟨?_, ?_, fun k c => Model.owner_mem_componentNames,
    fun k hk => Model.kind_ne_system_of_mem_keys (hmem k hk)⟩
  · intro hcomponents
    have hall : ∀ k ∈ d.collect.keys, k ∈ d.collect.assignOwners.assignments.keys :=
      fun k => Model.mem_assignments_of_mem_keys hcomponents
    refine ⟨fun k => ⟨hmem k, hall k⟩, ?_⟩
    refine List.filter_eq_nil_iff.2 fun k hk => ?_
    rw [Table.contains_iff.2 (hall k hk)]
    decide
  · intro hnone
    refine List.eq_nil_iff_forall_not_mem.2 fun k hk => ?_
    obtain ⟨c, hc⟩ := Ownership.exists_owner?_iff.2 hk
    rw [Model.owner?_eq_none hnone] at hc
    cases hc

/-- Two components, one of which came to stand in the other together with a system, and two
constructs outside of both. -/
def bazaar : Document where
  body :=
    [ .component ⟨none, "Stalls", none, [], []⟩
        [ .construct (.entity ⟨none, "Ware", none, [], [], []⟩),
          .system ⟨none, "Guild", []⟩ [.component ⟨none, "Till", none, [], []⟩
            [.construct (.secret ⟨none, "pin", []⟩)]] ],
      .construct (.event ⟨none, "WareSold", none, [], [], []⟩),
      .construct (.node ⟨none, "market", []⟩) ]

/-- Everything in the bazaar has an owner, the guild apart. -/
theorem bazaar_ownership_total :
    bazaar.collect.components ≠ [] ∧
      bazaar.collect.keys =
        [⟨.entity, "Ware"⟩, ⟨.event, "WareSold"⟩, ⟨.component, "Stalls"⟩, ⟨.component, "Till"⟩,
          ⟨.secret, "pin"⟩, ⟨.node, "market"⟩] ∧
      (∀ k, k ∈ bazaar.collect.assignOwners.assignments.keys ↔ k ∈ bazaar.collect.keys) ∧
      bazaar.collect.assignOwners.unassigned = [] := by
  have hcomponents : bazaar.collect.components ≠ [] :=
    List.ne_nil_of_length_pos (by decide +kernel)
  exact ⟨hcomponents, by decide +kernel, (ownership_total_closed bazaar).1 hcomponents⟩

end Document

end Blueprint
