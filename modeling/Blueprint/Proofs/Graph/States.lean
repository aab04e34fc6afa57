import Blueprint.Proofs.Graph.References
import Blueprint.Proofs.Graph.Slots

/-!
# States follow the fields of entities

A state names an enumeration, and governs the entities with a field of it. The same fields join the
entities with the enumeration itself, by edges that come from another part of the declarations. Both
parts tell the same: a state governs an entity exactly if the entity refers to the enumeration that
the state names.

- `Model.link_entityState_iff`, `Model.filterMap_stateEnum`: the declarations behind the links.
- `Document.joins_entityState_iff`: the declarations behind the edges.
- `Document.states_follow_fields`: what states and their enumerations have in common.
-/

namespace Blueprint

/-! ## Links -/

namespace Model

open Instruction

variable {m : Model} {o : Ownership} {source target : Key}

/-- States are linked to the entities with a field of the type that they name, declared or not. -/
theorem link_entityState_iff :
    .link .entityState source target ∈ m.instructionsFor o .entityState ↔
      ∃ s ∈ m.states, target = ⟨.state, s.name⟩ ∧ ∃ e ∈ m.entities, source = ⟨.entity, e.name⟩ ∧
        ∃ f ∈ e.fields, s.enumRef ∈ f.type.refs := by
  show _ ∈ m.stateInstructions ↔ _
  grind [stateInstructions, Pass.usesType]

/-- A state is linked to the enumerations that its declarations name, in order. -/
theorem filterMap_stateEnum (n : String) :
    (m.instructionsFor o .stateEnum).filterMap (targetFrom? .stateEnum ⟨.state, n⟩) =
      ((m.states.filter fun s => s.name = n).flatMap fun s =>
        if m.enumNames.contains s.enumRef then [⟨.enumeration, s.enumRef⟩] else []) := by
  show m.stateInstructions.filterMap _ = _
  rw [stateInstructions, List.filterMap_flatMap, flatMap_filter]
  refine List.flatMap_congr fun s _ => ?_
  -- events and entities are linked by other categories
  by_cases hs : s.name = n <;> by_cases henum : s.enumRef ∈ m.enumNames <;>
    simp [List.filterMap_map, Function.comp_def, targetFrom?, hs, henum]

end Model

/-! ## Edges -/

namespace Document

variable {d : Document} {s : StateMachine} {n : String}

theorem mem_states_collect_iff :
    s ∈ d.collect.states ↔ .construct (.state s) ∈ d.preorder := by
  simp [← construct_mem_itemsOf_iff, Model.itemsOf, Construct.kind]

/-- The declarations of a state are those of its name. -/
theorem declarations_state (d : Document) (n : String) :
    d.declarations ⟨.state, n⟩ =
      (d.collect.states.filter fun s => s.name = n).map fun s => .construct (.state s) := by
  rw [declarations_eq]
  simp [Model.itemsOf, List.filter_map, Function.comp_def, Item.key?, Construct.key, Construct.kind,
    Construct.name]

/-- Entities are joined with the states that name the type of one of their fields. -/
theorem joins_entityState_iff (h : d.collect.components ≠ []) {x : String} :
    d.graph.Joins .entityState ⟨.entity, x⟩ ⟨.state, n⟩ ↔
      ∃ s, .construct (.state s) ∈ d.preorder ∧ s.name = n ∧
        ∃ e, .construct (.entity e) ∈ d.preorder ∧ e.name = x ∧
          ∃ f ∈ e.fields, s.enumRef ∈ f.type.refs := by
  rw [joins_iff h rfl, Model.link_entityState_iff]
  constructor
  · rintro ⟨⟨s, hs, htarget, e, he, hsource, hfield⟩, -, -⟩
    obtain ⟨-, rfl⟩ := Key.mk.inj htarget
    obtain ⟨-, rfl⟩ := Key.mk.inj hsource
    exact ⟨s, mem_states_collect_iff.1 hs, rfl, e, mem_entities_collect_iff.1 he, rfl, hfield⟩
  · rintro ⟨s, hs, rfl, e, he, rfl, hfield⟩
    exact ⟨⟨s, mem_states_collect_iff.2 hs, rfl, e, mem_entities_collect_iff.2 he, rfl, hfield⟩,
      key_mem_keys_of_mem_preorder he, key_mem_keys_of_mem_preorder hs⟩

/-- A name in a field that stands for an enumeration is its name. -/
theorem means_enumeration_iff {n' : String} :
    d.Means n' ⟨.enumeration, n⟩ ↔ n' = n ∧ d.Contains ⟨.enumeration, n⟩ := by
  constructor
  · rintro (⟨henum, hkey⟩ | ⟨-, -, hkey⟩)
    · obtain ⟨-, rfl⟩ := Key.mk.inj hkey
      exact ⟨rfl, henum⟩
    · cases hkey
  · rintro ⟨rfl, henum⟩
    exact Or.inl ⟨henum, rfl⟩

section

variable (h : d.collect.components ≠ [])
  (hs : d.declarations ⟨.state, s.name⟩ = [.construct (.state s)])
  (henum : d.Contains ⟨.enumeration, s.enumRef⟩)
include h hs henum

/-- A state that is declared once has the enumeration that it names. -/
theorem refsAt_enumRef :
    ∃ r, d.graph.ref? ⟨.enumeration, s.enumRef⟩ = some r ∧
      d.graph.refsAt ⟨.state, s.name⟩ .enumRef = [r] := by
  have hkey : ⟨.enumeration, s.enumRef⟩ ∈ d.collect.keys :=
    (mem_keys_iff_contains (by simp)).2 henum
  have hstate : .construct (.state s) ∈ d.preorder :=
    (List.mem_filter.1 (hs ▸ List.mem_singleton_self _)).1
  -- that it is declared once matters: the slot would keep the first enumeration of several
  have honly : (d.collect.states.filter fun s' => s'.name = s.name) = [s] := by
    have hmap := (d.declarations_state s.name).symm.trans hs
    obtain ⟨s', heq, hs'⟩ := List.map_eq_singleton_iff.1 hmap
    cases hs'
    exact heq
  have hforward : (d.graph.refsAt ⟨.state, s.name⟩ .enumRef).map Ref.key =
      [⟨.enumeration, s.enumRef⟩] := by
    have hkey' : ⟨.state, s.name⟩ ∈ d.collect.keys := key_mem_keys_of_mem_preorder hstate
    refine (keys_refsAt_forward (c := .stateEnum) h (List.mem_singleton_self _) hkey').trans ?_
    have hnamed : d.collect.enumNames.contains s.enumRef = true :=
      List.contains_iff_mem.2 (Model.mem_enumNames_iff.2 hkey)
    rw [Model.filterMap_stateEnum, honly, List.flatMap_singleton, if_pos hnamed, Category.keep,
      if_pos (by decide)]
    simp [hkey]
  obtain ⟨r, hr, hrkey⟩ := List.map_eq_singleton_iff.1 hforward
  have hclosed := d.balanced_graph.closed (hr ▸ List.mem_singleton_self r)
  rw [hrkey] at hclosed
  exact ⟨r, hclosed, hr⟩

/-- Entities are joined with a state that is declared once and with its enumeration for the same
fields. -/
theorem joins_entityState_iff_joins_entityFieldRef (x : String) :
    d.graph.Joins .entityState ⟨.entity, x⟩ ⟨.state, s.name⟩ ↔
      d.graph.Joins .entityFieldRef ⟨.entity, x⟩ ⟨.enumeration, s.enumRef⟩ := by
  have honce : ∀ s', .construct (.state s') ∈ d.preorder ∧ s'.name = s.name ↔ s' = s := by
    intro s'
    have hmem : .construct (.state s') ∈ d.declarations ⟨.state, s.name⟩ ↔ s' = s := by
      rw [hs, List.mem_singleton, Item.construct.injEq, Construct.state.injEq]
    rw [← hmem, declarations, List.mem_filter]
    simp [Item.key?, Construct.key, Construct.kind, Construct.name]
  rw [joins_entityState_iff h, joins_entityFieldRef_iff h]
  constructor
  · rintro ⟨s', hs', hname, e, he, hx, f, hf, hrefs⟩
    obtain rfl := (honce s').1 ⟨hs', hname⟩
    exact ⟨e, he, hx, f, hf, _, hrefs, means_enumeration_iff.2 ⟨rfl, henum⟩⟩
  · rintro ⟨e, he, hx, f, hf, n, hrefs, hmeans⟩
    obtain ⟨rfl, -⟩ := means_enumeration_iff.1 hmeans
    obtain ⟨hmem, hname⟩ := (honce s).2 rfl
    exact ⟨s, hmem, hname, e, he, hx, f, hf, hrefs⟩

end

/-- **States follow the fields of entities.** In a document with components, a state that is
declared once and names a declared enumeration has the enumeration in its record. It is joined with
an entity exactly if a field joins the entity with the enumeration, so it governs the entities that
refer to the enumeration. -/
theorem states_follow_fields (d : Document) (h : d.collect.components ≠ []) (s : StateMachine)
    (hs : d.declarations ⟨.state, s.name⟩ = [.construct (.state s)])
    (henum : d.Contains ⟨.enumeration, s.enumRef⟩) :
    (∃ r, d.graph.ref? ⟨.enumeration, s.enumRef⟩ = some r ∧
      d.graph.refsAt ⟨.state, s.name⟩ .enumRef = [r]) ∧
    (∀ x, d.graph.Joins .entityState ⟨.entity, x⟩ ⟨.state, s.name⟩ ↔
      d.graph.Joins .entityFieldRef ⟨.entity, x⟩ ⟨.enumeration, s.enumRef⟩) ∧
    ∀ r, r ∈ d.graph.refsAt ⟨.state, s.name⟩ .governsEntities ↔
      r ∈ d.graph.refsAt ⟨.enumeration, s.enumRef⟩ .referencedByEntities := by
  have hjoins := joins_entityState_iff_joins_entityFieldRef h hs henum
  refine ⟨refsAt_enumRef h hs henum, hjoins, fun r => ?_⟩
  have hstate : ∀ c ∈ Category.all, Kind.state ∈ c.sources → c.forward ≠ .governsEntities := by
    decide
  have henumeration : ∀ c ∈ Category.all, Kind.enumeration ∈ c.sources →
      c.forward ≠ .referencedByEntities := by
    decide
  have hgoverns := mem_refsAt_inverse_iff (d := d) (c := .entityState) (k := ⟨.state, s.name⟩)
    (r := r) (by decide) hstate
  have hreferenced := mem_refsAt_inverse_iff (d := d) (c := .entityFieldRef)
    (k := ⟨.enumeration, s.enumRef⟩) (r := r) (by decide) henumeration
  refine hgoverns.trans (Iff.trans (and_congr_right fun _ => ?_) hreferenced.symm)
  by_cases hr : r.kind = .entity
  · have hkey : r.key = ⟨.entity, r.name⟩ := by rw [Ref.key, hr]
    rw [hkey]
    exact hjoins r.name
  · -- only entities are at the other end
    constructor
    · intro hgoverned
      exact absurd (List.mem_singleton.1 (d.balanced_graph.kinds_of_joins hgoverned).1) hr
    · intro hfield
      exact absurd (List.mem_singleton.1 (d.balanced_graph.kinds_of_joins hfield).1) hr

/-- A workshop whose bike is declared twice, with a field of the enumeration of its states in the
second declaration only. There are also an entity of the name of the enumeration, which has a state
of another enumeration, and a part without such a field. -/
def cycleShop : Document where
  body :=
    [ .component ⟨none, "Stand", none, [], []⟩
        [ .construct (.entity ⟨none, "Bike", none, [], [], []⟩),
          .construct (.state ⟨none, "Repair", "Phase", [], [], []⟩) ],
      .construct (.entity ⟨none, "Bike", none, [], [],
        [⟨none, "phase", .optional none (.reference none "Phase"), []⟩]⟩),
      .construct (.entity ⟨none, "Phase", none, [], [], []⟩),
      .construct (.entity ⟨none, "Part", none, [], [],
        [⟨none, "bike", .reference none "Bike", []⟩]⟩),
      .construct (.enumeration ⟨none, "Phase", [], []⟩),
      .construct (.state ⟨none, "Delivery", "Route", [], [], []⟩) ]

theorem cycleShop_states :
    cycleShop.collect.components ≠ [] ∧
      cycleShop.graph.refsAt ⟨.state, "Repair"⟩ .enumRef = [⟨"Stand", .enumeration, "Phase"⟩] ∧
      cycleShop.graph.Joins .entityState ⟨.entity, "Bike"⟩ ⟨.state, "Repair"⟩ ∧
      ¬cycleShop.graph.Joins .entityState ⟨.entity, "Part"⟩ ⟨.state, "Repair"⟩ ∧
      ∀ r, r ∈ cycleShop.graph.refsAt ⟨.state, "Repair"⟩ .governsEntities ↔
        r ∈ cycleShop.graph.refsAt ⟨.enumeration, "Phase"⟩ .referencedByEntities := by
  have hcomponents : cycleShop.collect.components ≠ [] := List.cons_ne_nil _ _
  have henum : cycleShop.Contains ⟨.enumeration, "Phase"⟩ :=
    ⟨_, List.mem_of_getElem? (i := 6) rfl, rfl⟩
  obtain ⟨⟨r, hr, henumRef⟩, hjoins, hsame⟩ := states_follow_fields cycleShop hcomponents
    ⟨none, "Repair", "Phase", [], [], []⟩ (by rfl) henum
  have hfacts : cycleShop.graph.ref? ⟨.enumeration, "Phase"⟩ =
        some ⟨"Stand", .enumeration, "Phase"⟩ ∧
      ⟨.enumeration, "Phase"⟩ ∈
        (cycleShop.graph.refsAt ⟨.entity, "Bike"⟩ .referencesTypes).map Ref.key ∧
      ⟨.enumeration, "Phase"⟩ ∉
        (cycleShop.graph.refsAt ⟨.entity, "Part"⟩ .referencesTypes).map Ref.key := by
    decide +kernel
  obtain ⟨hphase, hbike, hpart⟩ := hfacts
  obtain rfl := Option.some.inj (hphase.symm.trans hr)
  refine ⟨hcomponents, henumRef, (hjoins "Bike").2 ?_, mt (hjoins "Part").1 ?_, hsame⟩
  · exact (cycleShop.balanced_graph.joins_iff_forward (by decide) (by decide)).2 hbike
  · exact mt (cycleShop.balanced_graph.joins_iff_forward (by decide) (by decide)).1 hpart

end Document

end Blueprint
