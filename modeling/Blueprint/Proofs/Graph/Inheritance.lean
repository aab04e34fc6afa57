import Blueprint.Proofs.Graph.References
import Blueprint.Proofs.Graph.Slots

/-!
# Inheritance is a function

A construct can be declared more than once, and each declaration can name another parent, the
construct itself, or something that is not there. Still it has one parent at most: the first that is
named and declared. No other parent knows of it, although the declarations that were refused had
named them. Interfaces, of which there can be any number, are collected over all declarations.

- `Item.lineage?`, `Document.lineagesOf`: what the declarations of a construct say of its ancestry.
- `Document.parent?`, `Document.interfacesOf`: the parent and the interfaces of a construct.
- `Model.filterMap_targetFrom?_inheritance`: the links that come of it.
- `Document.keys_refsAt_ancestors`: what a record holds of them.
- `Document.joins_inherits_iff`: edges lead to parents.
- `Document.inheritance_functional`: what records hold.
-/

namespace Blueprint

open Model (Lineage)

/-! ## Ancestry -/

/-- What an item says about its ancestry, if it is of a kind that has one. -/
def Item.lineage? : Item → Option Lineage
  | component head _ => some ⟨head.name, head.parent, head.interfaces⟩
  | construct (.element d) => some ⟨d.name, d.parent, d.interfaces⟩
  | construct (.entity d) => some ⟨d.name, d.parent, d.interfaces⟩
  | construct (.flow d) => some ⟨d.name, d.parent, d.interfaces⟩
  | construct (.event d) => some ⟨d.name, d.parent, d.interfaces⟩
  | construct (.signal d) => some ⟨d.name, d.parent, d.interfaces⟩
  | construct (.screen d) => some ⟨d.name, d.parent, d.interfaces⟩
  | _ => none

theorem Item.key?_of_lineage? {i : Item} {l : Lineage} (h : i.lineage? = some l) :
    ∃ kind ∈ Kind.inheritable, i.key? = some ⟨kind, l.name⟩ := by
  unfold lineage? at h
  split at h
  all_goals cases h
  · exact ⟨.component, by decide, rfl⟩
  · exact ⟨.element, by decide, rfl⟩
  · exact ⟨.entity, by decide, rfl⟩
  · exact ⟨.flow, by decide, rfl⟩
  · exact ⟨.event, by decide, rfl⟩
  · exact ⟨.signal, by decide, rfl⟩
  · exact ⟨.screen, by decide, rfl⟩

namespace Document

variable (d : Document) (k : Key)

instance : Decidable (d.Contains k) :=
  inferInstanceAs (Decidable (∃ i ∈ d.preorder, i.key? = some k))

/-- What the declarations of a construct say about its ancestry, in order. -/
def lineagesOf : List Lineage := (d.declarations k).filterMap Item.lineage?

/-- The parent of a construct is of its kind and declared. It is named by the first declaration that
names such a parent; an empty name is none. -/
def parent? : Option Key :=
  (d.lineagesOf k).findSome? fun l =>
    (l.parent.filter fun p => p ≠ "" ∧ d.Contains ⟨k.kind, p⟩).map (Key.mk k.kind)

/-- The interfaces of a construct are of its kind and declared. They are collected over all its
declarations, each where it is first named. -/
def interfacesOf : List Key :=
  ((((d.lineagesOf k).flatMap Lineage.interfaces).map (Key.mk k.kind)).filter
    (d.Contains ·)).eraseDups

end Document

/-! ## Links -/

namespace Model

open Instruction

variable {m : Model} {k : Key}

theorem lineages_eq (m : Model) (kind : Kind) :
    m.lineages kind = (m.itemsOf kind).filterMap Item.lineage? := by
  cases kind <;> simp [lineages, itemsOf, List.filterMap_map, Function.comp_def, Item.lineage?]

/-- A kind with ancestry lists every construct of the kind. -/
theorem mem_names_lineages_iff (hk : k.kind ∈ Kind.inheritable) :
    k.name ∈ (m.lineages k.kind).map Lineage.name ↔ k ∈ m.keys := by
  obtain ⟨kind, n⟩ := k
  simp only [Kind.inheritable, List.mem_cons, List.not_mem_nil, or_false] at hk
  rcases hk with rfl | rfl | rfl | rfl | rfl | rfl | rfl <;>
    simp [mem_keys_iff_mem_keysOf, keysOf, itemsOf, lineages, Item.key?, Construct.key,
      Construct.kind, Construct.name]

/-- The constructs of a kind to which a declaration of it is linked for its ancestry. -/
def ancestors (m : Model) (kind : Kind) : Category → Lineage → List Key
  | .inherits, l =>
    ((l.parent.bind nonEmpty?).filter ((m.lineages kind).map Lineage.name).contains).toList.map
      (Key.mk kind)
  | .realizes, l =>
    (l.interfaces.filter ((m.lineages kind).map Lineage.name).contains).map (Key.mk kind)
  | _, _ => []

/-- **The links of a construct to its ancestors are those of its declarations, in order.** -/
theorem filterMap_targetFrom?_inheritance (hk : k.kind ∈ Kind.inheritable) (c : Category) :
    m.inheritanceInstructions.filterMap (targetFrom? c k) =
      ((m.lineages k.kind).filter fun l => l.name = k.name).flatMap (m.ancestors k.kind c) := by
  obtain ⟨kind, n⟩ := k
  rw [inheritanceInstructions, List.filterMap_flatMap,
    ← flatMap_ite_of_nodup (by decide : Kind.inheritable.Nodup) hk
      (((m.lineages kind).filter _).flatMap _)]
  -- kind by kind: links stay within a kind, so all other kinds come to nothing
  refine List.flatMap_congr fun kind' _ => ?_
  simp only [List.filterMap_flatMap, List.filterMap_append, filterMap_targetFrom?_map_link]
  by_cases hkind : kind' = kind
  · subst hkind
    rw [if_pos rfl, flatMap_filter]
    refine List.flatMap_congr fun l _ => ?_
    by_cases hl : l.name = n
    · cases c <;> simp [hl, ancestors]
    · simp [hl]
  · rw [if_neg hkind]
    simp [hkind]

theorem ancestors_inherits (hk : k.kind ∈ Kind.inheritable) (l : Lineage) :
    m.ancestors k.kind .inherits l =
      ((l.parent.filter fun p => p ≠ "" ∧ ⟨k.kind, p⟩ ∈ m.keys).map (Key.mk k.kind)).toList := by
  cases hp : l.parent with
  | none => simp [ancestors, hp]
  | some p =>
    have hdeclared := mem_names_lineages_iff (m := m) (k := ⟨k.kind, p⟩) hk
    by_cases hempty : p = ""
    · simp [ancestors, hp, hempty, nonEmpty?]
    · by_cases hmem : p ∈ (m.lineages k.kind).map Lineage.name
      · simp [ancestors, hp, hempty, nonEmpty?, Option.filter, -List.mem_map, hmem,
          hdeclared.1 hmem]
      · simp [ancestors, hp, hempty, nonEmpty?, Option.filter, -List.mem_map, hmem,
          mt hdeclared.2 hmem]

theorem ancestors_realizes (hk : k.kind ∈ Kind.inheritable) (l : Lineage) :
    m.ancestors k.kind .realizes l = (l.interfaces.map (Key.mk k.kind)).filter (· ∈ m.keys) := by
  rw [ancestors, List.filter_map]
  congr 1
  refine List.filter_congr fun n _ => ?_
  have hdeclared := mem_names_lineages_iff (m := m) (k := ⟨k.kind, n⟩) hk
  simp only [Function.comp_apply, ← hdeclared, List.contains_eq_mem]

/-- Ancestors are declared. -/
theorem mem_keys_of_mem_ancestors (hk : k.kind ∈ Kind.inheritable) {c : Category} {l : Lineage}
    {j : Key} (hj : j ∈ m.ancestors k.kind c l) : j ∈ m.keys := by
  cases c with
  | inherits =>
    rw [ancestors_inherits hk, Option.mem_toList, Option.map_eq_some_iff] at hj
    obtain ⟨p, hp, rfl⟩ := hj
    exact (of_decide_eq_true (Option.filter_eq_some_iff.1 hp).2).2
  | realizes =>
    rw [ancestors_realizes hk, List.mem_filter] at hj
    exact of_decide_eq_true hj.2
  | _ => cases hj

end Model

/-! ## Documents -/

namespace Document

variable {d : Document} {k j : Key}

theorem filter_lineages (d : Document) (k : Key) :
    ((d.collect.lineages k.kind).filter fun l => l.name = k.name) = d.lineagesOf k := by
  rw [Model.lineages_eq, List.filter_filterMap, lineagesOf, declarations_eq, List.filterMap_filter]
  refine List.filterMap_congr fun i hi => ?_
  cases hl : i.lineage? with
  | none => simp
  | some l =>
    obtain ⟨kind, -, hkey⟩ := Item.key?_of_lineage? hl
    rw [itemsOf_collect, List.mem_filter, decide_eq_true_eq, Item.kind?_eq_some_of_key? hkey] at hi
    -- an item with ancestry is filed under its own kind
    have hkind : kind = k.kind := Option.some.inj hi.2
    have hname : i.key? = some k ↔ l.name = k.name := by
      rw [hkey, hkind, Option.some.injEq]
      exact ⟨fun h => congrArg Key.name h, fun h => by rw [h]⟩
    simp [Option.filter, hname]

theorem lineagesOf_eq_nil (hk : ¬d.Contains k) : d.lineagesOf k = [] := by
  have hnone : d.declarations k = [] := by
    refine List.filter_eq_nil_iff.2 fun i hi hkey => ?_
    exact hk ⟨i, hi, of_decide_eq_true hkey⟩
  rw [lineagesOf, hnone, List.filterMap_nil]

theorem kind_mem_inheritable {l : Lineage} (hl : l ∈ d.lineagesOf k) :
    k.kind ∈ Kind.inheritable := by
  obtain ⟨i, hi, hlineage⟩ := List.mem_filterMap.1 hl
  obtain ⟨kind, hkind, hkey⟩ := Item.key?_of_lineage? hlineage
  have hsame := (of_decide_eq_true (List.mem_filter.1 hi).2).symm.trans hkey
  cases hsame
  exact hkind

theorem kind_ne_system (hk : k.kind ∈ Kind.inheritable) : k.kind ≠ .system := by
  intro hkind
  rw [hkind] at hk
  revert hk
  decide

/-- What the record of a construct holds of its ancestry, by category. -/
theorem keys_refsAt_ancestors (h : d.collect.components ≠ []) (hk : k.kind ∈ Kind.inheritable)
    {c : Category} (hc : c ∈ [Category.inherits, .realizes]) :
    (d.graph.refsAt k c.forward).map Ref.key =
      c.keep ((d.lineagesOf k).flatMap (d.collect.ancestors k.kind c)) := by
  have hpart : k.kind ∈ c.sources ∧
      d.collect.instructionsFor d.owners c = d.collect.inheritanceInstructions := by
    simp only [List.mem_cons, List.not_mem_nil, or_false] at hc
    obtain rfl | rfl := hc
    · exact ⟨hk, rfl⟩
    · exact ⟨hk, rfl⟩
  by_cases hmem : k ∈ d.collect.keys
  · rw [keys_refsAt_forward h hpart.1 hmem, hpart.2, Model.filterMap_targetFrom?_inheritance hk,
      filter_lineages, List.filter_eq_self.2]
    intro j hj
    obtain ⟨l, -, hl⟩ := List.mem_flatMap.1 hj
    exact decide_eq_true (Model.mem_keys_of_mem_ancestors hk hl)
  · -- what is not declared has no record, and nothing is said of its ancestry
    have hnone : d.graph.ref? k = none := by
      rw [ref?_graph, Option.eq_none_iff_forall_not_mem]
      exact fun r hr => hmem ((exists_refOf_iff h).1 ⟨r, hr⟩)
    have hunsaid := lineagesOf_eq_nil (mt (mem_keys_iff_contains (kind_ne_system hk)).2 hmem)
    rw [Graph.refsAt_of_ref?_eq_none hnone, hunsaid]
    cases c <;> rfl

theorem mem_keys_namesake_iff (hk : k.kind ∈ Kind.inheritable) (n : String) :
    ⟨k.kind, n⟩ ∈ d.collect.keys ↔ d.Contains ⟨k.kind, n⟩ :=
  mem_keys_iff_contains (k := ⟨k.kind, n⟩) (kind_ne_system hk)

theorem keys_refsAt_extendsParent (h : d.collect.components ≠ []) (hk : k.kind ∈ Kind.inheritable) :
    (d.graph.refsAt k .extendsParent).map Ref.key = (d.parent? k).toList := by
  refine (keys_refsAt_ancestors h hk (c := .inherits) (by simp)).trans ?_
  rw [Category.keep, if_pos (by decide), List.head?_flatMap]
  simp only [Model.ancestors_inherits hk, mem_keys_namesake_iff hk, Option.head?_toList]
  rfl

theorem keys_refsAt_implementsInterfaces (h : d.collect.components ≠ [])
    (hk : k.kind ∈ Kind.inheritable) :
    (d.graph.refsAt k .implementsInterfaces).map Ref.key = d.interfacesOf k := by
  refine (keys_refsAt_ancestors h hk (c := .realizes) (by simp)).trans ?_
  rw [Category.keep, if_neg (by decide), interfacesOf]
  congr 1
  rw [List.map_flatMap, List.filter_flatMap]
  refine List.flatMap_congr fun l _ => ?_
  rw [Model.ancestors_realizes hk, List.filter_map, List.filter_map]
  congr 1
  refine List.filter_congr fun n _ => ?_
  exact decide_eq_decide.2 (mem_keys_namesake_iff hk n)

/-- **Edges of inheritance lead to parents.** -/
theorem joins_inherits_iff (h : d.collect.components ≠ []) :
    d.graph.Joins .inherits k j ↔ d.parent? k = some j := by
  constructor
  · intro hjoins
    obtain ⟨hk, hj⟩ := d.balanced_graph.kinds_of_joins hjoins
    rw [d.balanced_graph.joins_iff_forward hk hj] at hjoins
    rw [← Option.mem_toList, ← keys_refsAt_extendsParent h hk]
    exact hjoins
  · intro hparent
    obtain ⟨l, hl, hsome⟩ := List.exists_of_findSome?_eq_some hparent
    obtain ⟨p, -, rfl⟩ := Option.map_eq_some_iff.1 hsome
    have hk := kind_mem_inheritable hl
    rw [d.balanced_graph.joins_iff_forward hk hk]
    rw [← Option.mem_toList, ← keys_refsAt_extendsParent h hk] at hparent
    exact hparent

/-- **Inheritance is a function.** In a document with components, the record of a construct that can
inherit holds its parent and no other, and its interfaces, in the order in which they are first
named. Every construct stands once among the children of its parent, and among those of no other. -/
theorem inheritance_functional (d : Document) (h : d.collect.components ≠ []) :
    (∀ k, k.kind ∈ Kind.inheritable →
      (d.graph.refsAt k .extendsParent).map some = (d.parent? k).toList.map d.graph.ref? ∧
      (d.graph.refsAt k .implementsInterfaces).map some = (d.interfacesOf k).map d.graph.ref?) ∧
    ∀ k ∈ d.collect.keys, ∃ r, d.graph.ref? k = some r ∧ ∀ j,
      (d.graph.refsAt j .extendedByChildren).count r = if d.parent? k = some j then 1 else 0 := by
  constructor
  · intro k hk
    rw [d.balanced_graph.map_some_refsAt, d.balanced_graph.map_some_refsAt,
      keys_refsAt_extendsParent h hk, keys_refsAt_implementsInterfaces h hk]
    exact ⟨rfl, rfl⟩
  · intro k hk
    obtain ⟨r, hr⟩ := (exists_refOf_iff h).2 hk
    rw [← ref?_graph] at hr
    obtain rfl := d.balanced_graph.keyed hr
    refine ⟨r, hr, fun j => ?_⟩
    -- the slot for children is written by inheritance only
    have hchild : r ∈ d.graph.refsAt j .extendedByChildren ↔ d.parent? r.key = some j := by
      rw [← joins_inherits_iff h]
      refine (mem_refsAt_inverse_iff (c := .inherits) (by decide) ?_).trans (and_iff_right hr)
      exact fun c _ _ => by cases c <;> decide
    rw [(d.sound_graph.nodup_refsAt j .extendedByChildren).count]
    simp only [hchild]

/-- An orchard whose apple is declared four times: with an empty parent, with one that nobody
declares, and then with two that are declared. Its tree is its own parent. -/
def orchard : Document where
  body :=
    [ .component ⟨none, "Grove", none, [], []⟩
        [ .construct (.entity ⟨none, "Apple", some "", ["Sweet", "Ghost"], [], []⟩),
          .construct (.entity ⟨none, "Fruit", none, [], [], []⟩) ],
      .construct (.entity ⟨none, "Apple", some "Plant", [], [], []⟩),
      .construct (.entity ⟨none, "Apple", some "Fruit", ["Round", "Sweet"], [], []⟩),
      .construct (.entity ⟨none, "Apple", some "Tree", [], [], []⟩),
      .construct (.entity ⟨none, "Tree", some "Tree", [], [], []⟩),
      .construct (.entity ⟨none, "Round", none, [], [], []⟩),
      .construct (.entity ⟨none, "Sweet", none, [], [], []⟩),
      .construct (.event ⟨none, "Plant", none, [], [], []⟩) ]

theorem orchard_inheritance :
    orchard.collect.components ≠ [] ∧
      orchard.graph.refsAt ⟨.entity, "Apple"⟩ .extendsParent = [⟨"Grove", .entity, "Fruit"⟩] ∧
      orchard.graph.refsAt ⟨.entity, "Apple"⟩ .implementsInterfaces =
        [⟨"Grove", .entity, "Sweet"⟩, ⟨"Grove", .entity, "Round"⟩] ∧
      (orchard.graph.refsAt ⟨.entity, "Fruit"⟩ .extendedByChildren).count
        ⟨"Grove", .entity, "Apple"⟩ = 1 ∧
      (orchard.graph.refsAt ⟨.entity, "Tree"⟩ .extendedByChildren).count
        ⟨"Grove", .entity, "Apple"⟩ = 0 ∧
      (orchard.graph.refsAt ⟨.entity, "Tree"⟩ .extendedByChildren).count
        ⟨"Grove", .entity, "Tree"⟩ = 1 := by
  have hcomponents : orchard.collect.components ≠ [] := List.cons_ne_nil _ _
  obtain ⟨hancestors, hchildren⟩ := inheritance_functional orchard hcomponents
  obtain ⟨hparent, hinterfaces⟩ := hancestors ⟨.entity, "Apple"⟩ (by decide)
  have hfacts : ⟨.entity, "Apple"⟩ ∈ orchard.collect.keys ∧
      ⟨.entity, "Tree"⟩ ∈ orchard.collect.keys ∧
      orchard.parent? ⟨.entity, "Apple"⟩ = some ⟨.entity, "Fruit"⟩ ∧
      orchard.parent? ⟨.entity, "Tree"⟩ = some ⟨.entity, "Tree"⟩ ∧
      orchard.interfacesOf ⟨.entity, "Apple"⟩ = [⟨.entity, "Sweet"⟩, ⟨.entity, "Round"⟩] ∧
      orchard.graph.ref? ⟨.entity, "Apple"⟩ = some ⟨"Grove", .entity, "Apple"⟩ ∧
      orchard.graph.ref? ⟨.entity, "Tree"⟩ = some ⟨"Grove", .entity, "Tree"⟩ ∧
      orchard.graph.ref? ⟨.entity, "Fruit"⟩ = some ⟨"Grove", .entity, "Fruit"⟩ ∧
      orchard.graph.ref? ⟨.entity, "Sweet"⟩ = some ⟨"Grove", .entity, "Sweet"⟩ ∧
      orchard.graph.ref? ⟨.entity, "Round"⟩ = some ⟨"Grove", .entity, "Round"⟩ := by
    decide +kernel
  obtain ⟨happleKey, htreeKey, hfruit, htree, hboth, happle, htreeRef, hfruitRef, hsweet,
    hround⟩ := hfacts
  have hsome := List.map_injective_iff.2 fun (r r' : Ref) => Option.some.inj
  obtain ⟨r, hr, happles⟩ := hchildren ⟨.entity, "Apple"⟩ happleKey
  obtain ⟨r', hr', htrees⟩ := hchildren ⟨.entity, "Tree"⟩ htreeKey
  obtain rfl := Option.some.inj (happle.symm.trans hr)
  obtain rfl := Option.some.inj (htreeRef.symm.trans hr')
  refine ⟨hcomponents, hsome ?_, hsome ?_, ?_, ?_, ?_⟩
  · rw [hparent, hfruit, Option.toList_some, List.map_singleton, hfruitRef, List.map_singleton]
  · rw [hinterfaces, hboth]
    simp [hsweet, hround]
  · rw [happles, hfruit, if_pos rfl]
  · rw [happles, hfruit, if_neg (by decide)]
  · rw [htrees, htree, if_pos rfl]

end Document

end Blueprint
