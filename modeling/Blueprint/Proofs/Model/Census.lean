import Mathlib.Algebra.BigOperators.Group.Finset.Basic
import Blueprint.Proofs.Model.Collection

/-!
# A census of a document

A walk over a document meets declarations, items that are passed over on purpose, and fragments. The
model has a place for the first and the last, and keeps the order of the walk in each of its places.
Nothing is lost and nothing is counted twice.

- `Item.isPassedOver`: what collecting passes over.
- `Model.unhandled_addItems`: collecting keeps the fragments that a walk meets, in its order.
- `Model.census`, `Kind.foldl_count`: the declarations of all kinds together.
- `Document.collect_sorts_preorder`: the model against the walk.
-/

namespace Blueprint

namespace Item

/-- Whether collecting passes over an item on purpose: comments, include directives and lines that
could not be parsed. -/
def isPassedOver : Item → Bool
  | inclusion _ => true
  | comment _ => true
  | unparsed _ => true
  | _ => false

/-- Whether an item is neither a declaration nor passed over on purpose. -/
def isStranger (i : Item) : Bool := i.kind?.isNone && !i.isPassedOver

end Item

/-! ## Fragments -/

namespace Model

theorem unhandled_addConstruct (m : Model) (c : Construct) :
    (m.addConstruct c).unhandled = m.unhandled := by
  cases c <;> rfl

mutual

theorem unhandled_addItem (m : Model) (i : Item) :
    (m.addItem i).unhandled.map Item.fragment =
      m.unhandled.map Item.fragment ++ i.preorder.filter Item.isStranger := by
  cases i with
  | system head body =>
    rw [addItem, unhandled_addItems, Item.preorder,
      List.filter_cons_of_neg (by simp [Item.isStranger, Item.kind?, Item.key?])]
  | component head body =>
    rw [addItem, unhandled_addItems, Item.preorder,
      List.filter_cons_of_neg (by simp [Item.isStranger, Item.kind?, Item.key?])]
  | construct decl =>
    rw [addItem, unhandled_addConstruct]
    simp [Item.preorder, Item.isStranger, Item.kind?, Item.key?]
  | fragment part =>
    simp [addItem, Item.preorder, Item.isStranger, Item.kind?, Item.key?, Item.isPassedOver]
  | inclusion d => simp [addItem, Item.preorder, Item.isStranger, Item.isPassedOver]
  | comment c => simp [addItem, Item.preorder, Item.isStranger, Item.isPassedOver]
  | unparsed line => simp [addItem, Item.preorder, Item.isStranger, Item.isPassedOver]

/-- **Collecting keeps the fragments that a walk over the items meets, in its order.** -/
theorem unhandled_addItems (m : Model) (items : List Item) :
    (m.addItems items).unhandled.map Item.fragment =
      m.unhandled.map Item.fragment ++ (Item.preorderAll items).filter Item.isStranger := by
  cases items with
  | nil => simp [addItems, Item.preorderAll]
  | cons i rest =>
    rw [addItems, unhandled_addItems, unhandled_addItem, Item.preorderAll, List.filter_append,
      List.append_assoc]

end

/-- The number of declarations of all kinds. -/
def census (m : Model) : Nat := m.stats.foldl (fun n s => n + s.2) 0

end Model

/-! ## Counts -/

theorem Kind.nodup_counted : Kind.counted.Nodup := by decide

theorem Kind.mem_counted (k : Kind) : k ∈ Kind.counted := by cases k <;> decide

/-- Counting kind by kind is counting, if every kind is counted once. -/
theorem Kind.foldl_count {ks : List Kind} (hnodup : ks.Nodup) (hall : ∀ k, k ∈ ks)
    (kinds : List Kind) : ks.foldl (fun n k => n + kinds.count k) 0 = kinds.length := by
  calc ks.foldl (fun n k => n + kinds.count k) 0
      = (ks.map fun k => kinds.count k).sum := by rw [List.sum_eq_foldl, List.foldl_map]
    _ = ∑ k ∈ ks.toFinset, Multiset.count k kinds := by
        simp only [List.sum_toFinset _ hnodup, Multiset.coe_count]
    _ = kinds.length := Multiset.sum_count_eq_card fun k _ => List.mem_toFinset.2 (hall k)

namespace Item

theorem length_filter_kind? (items : List Item) (k : Kind) :
    (items.filter fun i => i.kind? = some k).length = (items.filterMap kind?).count k := by
  rw [← List.countP_eq_length_filter, List.count, List.countP_filterMap]
  refine List.countP_congr fun i _ => ?_
  cases i.kind? <;> simp

/-- An item is a declaration, a fragment or passed over, and only one of these. -/
theorem length_filterMap_kind?_add (items : List Item) :
    (items.filterMap kind?).length + (items.filter isStranger).length +
      (items.filter isPassedOver).length = items.length := by
  induction items with
  | nil => rfl
  | cons i items ih =>
    cases i <;>
      simp [List.filterMap_cons, List.filter_cons, kind?, key?, isStranger, isPassedOver] <;> omega

end Item

namespace Document

theorem census_collect (d : Document) :
    d.collect.census = (d.preorder.filterMap Item.kind?).length := by
  rw [Model.census, Model.stats, List.foldl_map]
  simp only [itemsOf_collect, Item.length_filter_kind?]
  exact Kind.foldl_count Kind.nodup_counted Kind.mem_counted _

theorem unhandled_collect (d : Document) :
    d.collect.unhandled.map Item.fragment = d.preorder.filter Item.isStranger := by
  rw [collect, Model.unhandled_addItems]
  rfl

/-- Every declaration has a key, so that none is left out of the keys of its kind. -/
theorem map_some_keysOf_collect (d : Document) (k : Kind) :
    (d.collect.keysOf k).map some =
      (d.preorder.filter fun i => i.kind? = some k).map Item.key? := by
  rw [Model.keysOf, itemsOf_collect]
  -- an item of a kind is a declaration, and these have keys
  have hkeys : ∀ i ∈ d.preorder.filter fun i => i.kind? = some k, i.key?.isSome := by
    intro i hi
    have hkind : i.kind? = some k := by simpa using (List.mem_filter.1 hi).2
    obtain ⟨key, hkey, -⟩ := Option.map_eq_some_iff.1 hkind
    rw [hkey, Option.isSome_some]
  generalize d.preorder.filter (fun i => i.kind? = some k) = items at hkeys
  induction items with
  | nil => rfl
  | cons i items ih =>
    rw [List.forall_mem_cons] at hkeys
    obtain ⟨key, hkey⟩ := Option.isSome_iff_exists.1 hkeys.1
    rw [List.filterMap_cons_some hkey, List.map_cons, List.map_cons, hkey, ih hkeys.2]

/-- **The model of a document is the walk over the document, sorted by kind.** The declarations of a
kind are those that the walk meets, in its order. The unhandled nodes are what the walk meets
besides declarations, comments, directives and lines that could not be parsed, again in its order.
The keys are those of the declarations, kind by kind, with one key for each. The counts name every
kind once, and together with the unhandled nodes and what is passed over they make up the walk. -/
theorem collect_sorts_preorder (d : Document) :
    (∀ k, d.collect.itemsOf k = d.preorder.filter fun i => i.kind? = some k) ∧
    d.collect.unhandled.map Item.fragment =
      d.preorder.filter (fun i => i.kind?.isNone && !i.isPassedOver) ∧
    d.collect.keys.map some =
      Kind.ownable.flatMap (fun k => (d.preorder.filter fun i => i.kind? = some k).map Item.key?) ∧
    (d.collect.stats.map Prod.fst).Nodup ∧
    (∀ k, (k, (d.preorder.filter fun i => i.kind? = some k).length) ∈ d.collect.stats) ∧
    d.collect.census + d.collect.unhandled.length + (d.preorder.filter Item.isPassedOver).length =
      d.preorder.length := by
  have hunhandled := d.unhandled_collect
  refine ⟨d.itemsOf_collect, hunhandled, ?_, ?_, fun k => ?_, ?_⟩
  · rw [Model.keys, List.map_flatMap]
    simp only [map_some_keysOf_collect]
  · have hkinds : d.collect.stats.map Prod.fst = Kind.counted := by
      simp [Model.stats, Function.comp_def]
    rw [hkinds]
    exact Kind.nodup_counted
  · rw [← itemsOf_collect]
    exact List.mem_map.2 ⟨k, k.mem_counted, rfl⟩
  · have hlength := congrArg List.length hunhandled
    rw [List.length_map] at hlength
    rw [census_collect, hlength]
    exact Item.length_filterMap_kind?_add d.preorder

end Document

end Blueprint
