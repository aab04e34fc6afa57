import Mathlib.Data.List.Forall2
import Blueprint.Proofs.Model.Census

/-!
# Altered constructs

Some ways to write a construct make no difference to who owns it or to what it is joined with. The
clauses of a rule can stand in another order, a path can end with slashes. A relation between
constructs says what may differ. The constructs stand in systems and components, at any depth, and
collecting sorts them by kind. So a relation between constructs is carried over to documents, and
from there to models, once for all relations.

- `Construct.Alteration`: relations between constructs that keep keys.
- `Item.Alters`, `Document.Alters`: documents that differ in altered constructs.
- `Item.Alike`, `Item.Alters.preorderAll`: what a walk over both documents sees, item by item.
- `Model.Alters`, `Document.Alters.collect`: what is left of models.
- `Model.Alters.constructs`, `Model.Alters.itemsOf_eq`, `Model.Alters.components`: the constructs of
  an altered kind, the declarations of other kinds, and components.
-/

namespace Blueprint

/-! ## Lists of related elements -/

section

variable {α β γ : Type} {R : α → α → Prop} {xs ys : List α}

/-- What is the same of related elements is the same of their lists. -/
theorem map_eq_of_forall₂ {f : α → β} (h : List.Forall₂ R xs ys)
    (hf : ∀ {x y : α}, R x y → f y = f x) : ys.map f = xs.map f := by
  induction h with
  | nil => rfl
  | cons hxy _ ih => rw [List.map_cons, List.map_cons, hf hxy, ih]

theorem flatMap_eq_of_forall₂ {f g : α → List β} (h : List.Forall₂ R xs ys)
    (hf : ∀ {x y : α}, R x y → g y = f x) : ys.flatMap g = xs.flatMap f := by
  induction h with
  | nil => rfl
  | cons hxy _ ih => rw [List.flatMap_cons, List.flatMap_cons, hf hxy, ih]

theorem filterMap_eq_of_forall₂ {f : α → Option β} (h : List.Forall₂ R xs ys)
    (hf : ∀ {x y : α}, R x y → f y = f x) : ys.filterMap f = xs.filterMap f := by
  induction h with
  | nil => rfl
  | cons hxy _ ih => rw [List.filterMap_cons, List.filterMap_cons, hf hxy, ih]

end

/-! ## Relations between constructs -/

/-- A relation says how constructs may be altered if each construct may stay as it is, and none
comes to have another key. -/
structure Construct.Alteration (R : Construct → Construct → Prop) : Prop where
  refl (c : Construct) : R c c
  key_eq {c c' : Construct} : R c c' → c'.key = c.key

namespace Item

/-- The second list of items is the first with constructs altered, at any depth. -/
inductive Alters (R : Construct → Construct → Prop) : List Item → List Item → Prop
  | nil : Alters R [] []
  | keep (i : Item) {xs ys : List Item} : Alters R xs ys → Alters R (i :: xs) (i :: ys)
  | construct {c c' : Construct} {xs ys : List Item} :
    R c c' → Alters R xs ys → Alters R (.construct c :: xs) (.construct c' :: ys)
  | system (head : SystemHead) {body body' xs ys : List Item} :
    Alters R body body' → Alters R xs ys →
      Alters R (.system head body :: xs) (.system head body' :: ys)
  | component (head : ComponentHead) {body body' xs ys : List Item} :
    Alters R body body' → Alters R xs ys →
      Alters R (.component head body :: xs) (.component head body' :: ys)

/-- What a walk sees of an alteration where it meets an item. A container keeps its head, and a
component also the keys of the constructs that stand directly in it. -/
inductive Alike (R : Construct → Construct → Prop) : Item → Item → Prop
  | same (i : Item) : Alike R i i
  | construct {c c' : Construct} : R c c' → Alike R (.construct c) (.construct c')
  | system (head : SystemHead) (body body' : List Item) :
    Alike R (.system head body) (.system head body')
  | component (head : ComponentHead) {body body' : List Item} :
    body'.filterMap constructKey? = body.filterMap constructKey? →
      Alike R (.component head body) (.component head body')

section

variable {R : Construct → Construct → Prop} (hR : Construct.Alteration R)

include hR

theorem Alters.constructKeys_eq {xs ys : List Item} (h : Alters R xs ys) :
    ys.filterMap constructKey? = xs.filterMap constructKey? := by
  induction h with
  | nil => rfl
  | keep i _ ih => rw [List.filterMap_cons, List.filterMap_cons, ih]
  | construct hc _ ih => simp [constructKey?, hR.key_eq hc, ih]
  | system head _ _ _ ih => exact ih
  | component head _ _ _ ih => exact ih

/-- **A walk meets alike items**, one after the other in both lists. -/
theorem Alters.preorderAll {xs ys : List Item} (h : Alters R xs ys) :
    List.Forall₂ (Alike R) (preorderAll xs) (preorderAll ys) := by
  induction h with
  | nil => exact .nil
  | keep i _ ih => exact List.rel_append (List.forall₂_same.2 fun j _ => .same j) ih
  | construct hc _ ih => exact .cons (.construct hc) ih
  | system head _ _ ihbody ih => exact List.rel_append (.cons (.system head _ _) ihbody) ih
  | component head hbody _ ihbody ih =>
    exact List.rel_append (.cons (.component head (hbody.constructKeys_eq hR)) ihbody) ih

theorem Alike.key?_eq {i i' : Item} (h : Alike R i i') : i'.key? = i.key? := by
  cases h with
  | construct hc => exact congrArg some (hR.key_eq hc)
  | _ => rfl

theorem Alike.kind?_eq {i i' : Item} (h : Alike R i i') : i'.kind? = i.kind? :=
  congrArg (Option.map Key.kind) (h.key?_eq hR)

theorem Alike.of_construct {c c' : Construct} (h : Alike R (.construct c) (.construct c')) :
    R c c' := by
  cases h with
  | same => exact hR.refl c
  | construct hc => exact hc

end

/-- Only declarations are altered. -/
theorem Alike.eq_of_kind?_eq_none {R : Construct → Construct → Prop} {i i' : Item}
    (h : Alike R i i') (hkind : i.kind? = none) : i' = i := by
  cases h with
  | same => rfl
  | _ => cases hkind

end Item

/-- The second document is the first with constructs altered. -/
structure Document.Alters (R : Construct → Construct → Prop) (d d' : Document) : Prop where
  loc : d'.loc = d.loc
  body : Item.Alters R d.body d'.body

/-! ## Models -/

/-- The second model is the first with constructs altered, kind by kind. -/
structure Model.Alters (R : Construct → Construct → Prop) (m m' : Model) : Prop where
  items (k : Kind) : List.Forall₂ (Item.Alike R) (m.itemsOf k) (m'.itemsOf k)
  unhandled : m'.unhandled = m.unhandled

/-- **Collecting goes through both documents alike.** -/
theorem Document.Alters.collect {R : Construct → Construct → Prop} (hR : Construct.Alteration R)
    {d d' : Document} (h : d.Alters R d') : d.collect.Alters R d'.collect := by
  have hwalk : List.Forall₂ (Item.Alike R) d.preorder d'.preorder := h.body.preorderAll hR
  refine ⟨fun k => ?_, ?_⟩
  · rw [itemsOf_collect, itemsOf_collect]
    exact List.rel_filter (fun i i' hi => by simp only [hi.kind?_eq hR]) hwalk
  · -- strangers are no declarations, so the walks meet the same ones
    have hstrangers : d'.preorder.filter Item.isStranger = d.preorder.filter Item.isStranger := by
      rw [← List.filterMap_eq_filter]
      refine filterMap_eq_of_forall₂ hwalk fun {i i'} hi => ?_
      cases hkind : i.kind? with
      | none => rw [hi.eq_of_kind?_eq_none hkind]
      | some k => simp [Option.guard, Item.isStranger, hi.kind?_eq hR, hkind]
    rw [← unhandled_collect, ← unhandled_collect] at hstrangers
    exact (List.map_injective_iff.2 fun _ _ => Item.fragment.inj) hstrangers

namespace Model

variable {m m' : Model}

/-- A model is told by its declarations, kind by kind, and by what it leaves unhandled. -/
theorem ext_itemsOf (h : ∀ k, m'.itemsOf k = m.itemsOf k)
    (hunhandled : m'.unhandled = m.unhandled) : m' = m := by
  -- the items of a kind are one field of the model, under a constructor
  have hfield (k : Kind) {α : Type} {f : α → Item} {xs ys : List α} (hf : f.Injective)
      (hxs : m'.itemsOf k = xs.map f) (hys : m.itemsOf k = ys.map f) : xs = ys :=
    List.map_injective_iff.2 hf (hxs.symm.trans ((h k).trans hys))
  cases m
  cases m'
  rw [mk.injEq]
  refine ⟨hfield .system ?_ rfl rfl, hfield .component ?_ rfl rfl, hfield .element ?_ rfl rfl,
    hfield .entity ?_ rfl rfl, hfield .enumeration ?_ rfl rfl, hfield .flow ?_ rfl rfl,
    hfield .state ?_ rfl rfl, hfield .event ?_ rfl rfl, hfield .signal ?_ rfl rfl,
    hfield .api ?_ rfl rfl, hfield .rule ?_ rfl rfl, hfield .dependency ?_ rfl rfl,
    hfield .secret ?_ rfl rfl, hfield .screen ?_ rfl rfl, hfield .journey ?_ rfl rfl,
    hfield .operation ?_ rfl rfl, hfield .action ?_ rfl rfl, hfield .node ?_ rfl rfl, hunhandled⟩
  all_goals
    rintro ⟨⟩ ⟨⟩ ⟨⟩
    rfl

theorem filterMap_key?_of_forall₂ {α : Type} {S : α → α → Prop} {make : α → Construct}
    {xs ys : List α} (h : List.Forall₂ S xs ys)
    (hkey : ∀ {x y : α}, S x y → (make y).key = (make x).key) :
    (ys.map fun x => Item.construct (make x)).filterMap Item.key? =
      (xs.map fun x => Item.construct (make x)).filterMap Item.key? := by
  rw [List.filterMap_map, List.filterMap_map]
  exact filterMap_eq_of_forall₂ h fun hxy => congrArg some (hkey hxy)

namespace Alters

variable {R : Construct → Construct → Prop}

/-- The constructs of a kind are altered one by one, each in the way that its kind has. -/
theorem constructs (hR : Construct.Alteration R) {α : Type} {S : α → α → Prop}
    {make : α → Construct} {xs ys : List α}
    (h : List.Forall₂ (Item.Alike R) (xs.map fun x => .construct (make x))
      (ys.map fun x => .construct (make x)))
    (hmake : ∀ {x y : α}, R (make x) (make y) → S x y) : List.Forall₂ S xs ys := by
  rw [List.forall₂_map_left_iff, List.forall₂_map_right_iff] at h
  exact h.imp fun _ _ hxy => hmake (hxy.of_construct hR)

variable (h : m.Alters R m')

include h

/-- Where the relation lets no construct of a kind be altered, the declarations stay. -/
theorem itemsOf_eq {k : Kind} (hsystem : k ≠ .system) (hcomponent : k ≠ .component)
    (hfix : ∀ {c c' : Construct}, c.kind = k → R c c' → c' = c) : m'.itemsOf k = m.itemsOf k := by
  -- all items in the list are of the kind, which leaves no way to be altered
  have hkinds := (List.forall₂_and_left _ _).2 ⟨fun i => kind?_of_mem_itemsOf, h.items k⟩
  have hsame : List.Forall₂ (· = ·) (m.itemsOf k) (m'.itemsOf k) := by
    refine hkinds.imp fun i i' hi => ?_
    obtain ⟨hkind, hi⟩ := hi
    cases hi with
    | same => rfl
    | construct hc => rw [hfix (Option.some.inj hkind) hc]
    | system => exact absurd (Option.some.inj hkind).symm hsystem
    | component => exact absurd (Option.some.inj hkind).symm hcomponent
  rw [List.forall₂_eq_eq_eq] at hsame
  exact hsame.symm

/-- Components keep their heads and the keys of the constructs that stand directly in them. -/
theorem components :
    (m'.components.map fun c => (c.head, c.body.filterMap Item.constructKey?)) =
      m.components.map fun c => (c.head, c.body.filterMap Item.constructKey?) := by
  have hitems := h.items .component
  rw [itemsOf, itemsOf, List.forall₂_map_left_iff, List.forall₂_map_right_iff] at hitems
  refine map_eq_of_forall₂ hitems fun {c c'} hc => ?_
  obtain ⟨head, body⟩ := c
  obtain ⟨head', body'⟩ := c'
  cases hc with
  | same => rfl
  | component _ hkeys => exact congrArg (Prod.mk head) hkeys

end Alters

end Model

end Blueprint
