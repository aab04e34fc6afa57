import Blueprint.Model.Basic

/-!
# What a model holds

Collecting goes through a document container by container, and sorts what it meets by kind. Seen
from the other side, the declarations of a kind are those that a walk over the document meets.

- `Model.itemsOf_addItems`: collecting adds the declarations that a walk meets, in its order.
- `Document.itemsOf_collect`: the declarations of a kind in a document.
- `Document.declarations`: the declarations of one construct.
- `Item.mem_preorderAll_of_mem_body`: a walk meets what stands in a container that it meets.
- `Document.mem_keys_collect_iff`, `Document.mem_components_collect_iff`: the keys and the
  components of a model.
-/

namespace Blueprint

/-! ## Collecting by kind -/

namespace Model

theorem itemsOf_addConstruct (m : Model) (c : Construct) (k : Kind) :
    (m.addConstruct c).itemsOf k = m.itemsOf k ++ if c.kind = k then [.construct c] else [] := by
  by_cases h : c.kind = k
  · subst h
    rw [if_pos rfl]
    cases c <;> exact List.map_append
  · -- the declarations of another kind are kept in a field of their own
    rw [if_neg h, List.append_nil]
    cases c <;> cases k <;> first | rfl | exact absurd rfl h

theorem itemsOf_addSystem (m : Model) (s : System) (k : Kind) :
    { m with systems := m.systems ++ [s] }.itemsOf k =
      m.itemsOf k ++ if Kind.system = k then [.system s.head s.body] else [] := by
  cases k <;> simp [itemsOf]

theorem itemsOf_addComponent (m : Model) (c : Component) (k : Kind) :
    { m with components := m.components ++ [c] }.itemsOf k =
      m.itemsOf k ++ if Kind.component = k then [.component c.head c.body] else [] := by
  cases k <;> simp [itemsOf]

theorem itemsOf_addUnhandled (m : Model) (f : Fragment) (k : Kind) :
    { m with unhandled := m.unhandled ++ [f] }.itemsOf k = m.itemsOf k := by
  cases k <;> rfl

mutual

theorem itemsOf_addItem (m : Model) (i : Item) (k : Kind) :
    (m.addItem i).itemsOf k = m.itemsOf k ++ i.preorder.filter fun j => j.kind? = some k := by
  cases i with
  | system head body =>
    -- a container is met before what stands in it
    rw [addItem, itemsOf_addItems, itemsOf_addSystem, Item.preorder, List.append_assoc]
    by_cases h : Kind.system = k <;> simp [Item.kind?, Item.key?, h]
  | component head body =>
    rw [addItem, itemsOf_addItems, itemsOf_addComponent, Item.preorder, List.append_assoc]
    by_cases h : Kind.component = k <;> simp [Item.kind?, Item.key?, h]
  | construct decl =>
    rw [addItem, itemsOf_addConstruct]
    by_cases h : decl.kind = k <;>
      simp [Item.preorder, Item.kind?, Item.key?, Construct.key, h]
  | fragment part =>
    rw [addItem, itemsOf_addUnhandled]
    simp [Item.preorder, Item.kind?, Item.key?]
  | inclusion d => simp [addItem, Item.preorder, Item.kind?, Item.key?]
  | comment c => simp [addItem, Item.preorder, Item.kind?, Item.key?]
  | unparsed line => simp [addItem, Item.preorder, Item.kind?, Item.key?]

/-- **Collecting adds the declarations that a walk over the items meets, in its order.** -/
theorem itemsOf_addItems (m : Model) (items : List Item) (k : Kind) :
    (m.addItems items).itemsOf k =
      m.itemsOf k ++ (Item.preorderAll items).filter fun j => j.kind? = some k := by
  cases items with
  | nil => simp [addItems, Item.preorderAll]
  | cons i rest =>
    rw [addItems, itemsOf_addItems, itemsOf_addItem, Item.preorderAll, List.filter_append,
      List.append_assoc]

end

theorem kind?_of_mem_itemsOf {m : Model} {i : Item} {kind : Kind} (h : i ∈ m.itemsOf kind) :
    i.kind? = some kind := by
  cases kind <;> obtain ⟨d, -, rfl⟩ := List.mem_map.1 h <;> rfl

end Model

/-- The declarations of a kind are those that a walk over the document meets. -/
theorem Document.itemsOf_collect (d : Document) (k : Kind) :
    d.collect.itemsOf k = d.preorder.filter fun i => i.kind? = some k := by
  have hnone : ({} : Model).itemsOf k = [] := by cases k <;> rfl
  rw [collect, Model.itemsOf_addItems, hnone, List.nil_append, preorder]

/-! ## Containers -/

namespace Item

/-- The items that stand directly in an item. -/
def body : Item → List Item
  | system _ body => body
  | component _ body => body
  | _ => []

/-- The key of an item that is a construct. -/
def constructKey? : Item → Option Key
  | construct decl => some decl.key
  | _ => none

theorem preorder_eq_cons (i : Item) : i.preorder = i :: preorderAll i.body := by
  cases i <;> rfl

theorem preorderAll_eq_flatMap (items : List Item) :
    preorderAll items = items.flatMap preorder := by
  induction items with
  | nil => rfl
  | cons i rest ih => simp [preorderAll, ih]

theorem preorderAll_append (items items' : List Item) :
    preorderAll (items ++ items') = preorderAll items ++ preorderAll items' := by
  simp only [preorderAll_eq_flatMap, List.flatMap_append]

theorem subset_preorderAll {items : List Item} : items ⊆ preorderAll items := by
  intro i hi
  rw [preorderAll_eq_flatMap, List.mem_flatMap]
  exact ⟨i, hi, by simp [preorder_eq_cons]⟩

mutual

theorem preorder_subset_preorder {i j : Item} (h : j ∈ i.preorder) : j.preorder ⊆ i.preorder := by
  rw [preorder_eq_cons i, List.mem_cons] at h
  rcases h with rfl | h
  · exact List.Subset.refl _
  · rw [preorder_eq_cons i]
    refine List.Subset.trans ?_ (List.subset_cons_self i _)
    cases i with
    | system head body =>
      have hbody : j ∈ preorderAll body := h
      exact preorder_subset_preorderAll hbody
    | component head body =>
      have hbody : j ∈ preorderAll body := h
      exact preorder_subset_preorderAll hbody
    | _ => exact absurd h List.not_mem_nil

/-- A walk that meets an item meets everything in it. -/
theorem preorder_subset_preorderAll {items : List Item} {j : Item} (h : j ∈ preorderAll items) :
    j.preorder ⊆ preorderAll items := by
  cases items with
  | nil => exact absurd h List.not_mem_nil
  | cons i rest =>
    rw [preorderAll, List.mem_append] at h
    rw [preorderAll]
    rcases h with h | h
    · exact List.subset_append_of_subset_left _ (preorder_subset_preorder h)
    · exact List.subset_append_of_subset_right _ (preorder_subset_preorderAll h)

end

theorem preorderAll_body_subset {items : List Item} {j : Item} (h : j ∈ preorderAll items) :
    preorderAll j.body ⊆ preorderAll items := by
  refine List.Subset.trans ?_ (preorder_subset_preorderAll h)
  rw [preorder_eq_cons j]
  exact List.subset_cons_self j _

/-- A walk meets what stands in a container that it meets. -/
theorem mem_preorderAll_of_mem_body {items : List Item} {j x : Item} (h : j ∈ preorderAll items)
    (hx : x ∈ j.body) : x ∈ preorderAll items :=
  preorderAll_body_subset h (subset_preorderAll hx)

theorem preorderAll_mono {items items' : List Item} (h : items ⊆ items') :
    preorderAll items ⊆ preorderAll items' := by
  rw [preorderAll_eq_flatMap items]
  intro j hj
  obtain ⟨i, hi, hj⟩ := List.mem_flatMap.1 hj
  exact preorder_subset_preorderAll (subset_preorderAll (h hi)) hj

theorem kind?_eq_some_of_key? {i : Item} {k : Key} (h : i.key? = some k) :
    i.kind? = some k.kind := by
  rw [kind?, h, Option.map_some]

end Item

/-- The declarations of a construct, in the order of the document. -/
def Document.declarations (d : Document) (k : Key) : List Item :=
  d.preorder.filter fun i => i.key? = some k

theorem Document.declarations_eq (d : Document) (k : Key) :
    d.declarations k = (d.collect.itemsOf k.kind).filter fun i => i.key? = some k := by
  rw [itemsOf_collect, List.filter_filter, declarations]
  refine List.filter_congr fun i _ => ?_
  by_cases hk : i.key? = some k
  · simp [hk, Item.kind?_eq_some_of_key? hk]
  · simp [hk]

/-! ## Keys -/

namespace Document

variable {d : Document}

/-- The keys of a model are those of the declarations that a walk over the document meets, systems
apart. -/
theorem mem_keys_collect_iff {k : Key} :
    k ∈ d.collect.keys ↔ k.kind ≠ .system ∧ ∃ i ∈ d.preorder, i.key? = some k := by
  simp only [Model.keys, Model.keysOf, List.mem_flatMap, List.mem_filterMap, itemsOf_collect,
    List.mem_filter, decide_eq_true_eq, Kind.mem_ownable_iff]
  constructor
  · rintro ⟨kind, hkind, i, ⟨hi, hk⟩, hkey⟩
    -- the kind under which an item is filed is the one in its key
    have hsame : k.kind = kind := Option.some.inj ((Item.kind?_eq_some_of_key? hkey).symm.trans hk)
    exact ⟨hsame ▸ hkind, i, hi, hkey⟩
  · rintro ⟨hkind, i, hi, hkey⟩
    exact ⟨k.kind, hkind, i, ⟨hi, Item.kind?_eq_some_of_key? hkey⟩, hkey⟩

theorem mem_components_collect_iff {c : Component} :
    c ∈ d.collect.components ↔ Item.component c.head c.body ∈ d.preorder := by
  have hitems := d.itemsOf_collect .component
  constructor
  · intro hc
    have hmem : Item.component c.head c.body ∈ d.collect.itemsOf .component :=
      List.mem_map.2 ⟨c, hc, rfl⟩
    rw [hitems] at hmem
    exact (List.mem_filter.1 hmem).1
  · intro hc
    have hmem : Item.component c.head c.body ∈ d.collect.itemsOf .component := by
      rw [hitems]
      exact List.mem_filter.2 ⟨hc, by simp [Item.kind?, Item.key?]⟩
    obtain ⟨c', hc', heq⟩ := List.mem_map.1 hmem
    cases c; cases c'; cases heq
    exact hc'

end Document

end Blueprint
