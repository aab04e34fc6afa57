import Blueprint.Proofs.Ownership.Entities

/-!
# What stands in a component belongs to it

The first pass looks at what stands directly in components, and no later pass is asked about what it
has decided. Components can come to stand in one another when files are merged, and constructs of
different components can have the same key. The component that counts is the first one that a walk
over the document meets.

- `Item.declares`: whether an item is a component in which a construct of a key stands directly.
- `Document.find?_components_collect`: the components of a model are searched in the order of the
  walk.
- `Pass.firstFor_directNesting_component`: a component speaks for itself.
- `Document.nesting_decisive`: what the first pass decides, and that it stays.
-/

namespace Blueprint

/-! ## Declarations in components -/

namespace Item

/-- Whether an item is a component in which a construct of a key stands directly. -/
def declares (k : Key) : Item → Bool
  | component _ body => body.any fun
    | construct decl => decl.key = k
    | _ => false
  | _ => false

theorem declares_component_iff {k : Key} {c : Component} :
    (component c.head c.body).declares k = true ↔ k ∈ Pass.nestedKeys c := by
  rw [Pass.mem_nestedKeys_iff, declares, List.any_eq_true]
  constructor
  · rintro ⟨i, hi, hkey⟩
    cases i with
    | construct decl => exact ⟨decl, hi, of_decide_eq_true hkey⟩
    | _ => cases hkey
  · rintro ⟨decl, hdecl, hkey⟩
    exact ⟨_, hdecl, decide_eq_true hkey⟩

/-- Only components declare anything. -/
theorem exists_component_of_declares {i : Item} {k : Key} (h : i.declares k = true) :
    ∃ c : Component, i = component c.head c.body := by
  cases i with
  | component head body => exact ⟨⟨head, body⟩, rfl⟩
  | _ => cases h

end Item

/-- A component holds only constructs of other kinds. -/
theorem Pass.kind_ne_component_of_mem_nestedKeys {k : Key} {c : Component}
    (h : k ∈ nestedKeys c) : k.kind ≠ .component := by
  obtain ⟨decl, -, rfl⟩ := mem_nestedKeys_iff.1 h
  exact decl.kind_ne_component

/-- The first component of the model in which a construct stands is the first one that a walk over
the document meets. -/
theorem Document.find?_components_collect (d : Document) (k : Key) :
    (d.collect.components.find? fun c => k ∈ Pass.nestedKeys c).map
        (fun c => Item.component c.head c.body) =
      d.preorder.find? (Item.declares k) := by
  have hitems : d.collect.components.map (fun c => Item.component c.head c.body) =
      d.preorder.filter fun i => i.kind? = some .component := d.itemsOf_collect .component
  have hdeclares : (fun c : Component => decide (k ∈ Pass.nestedKeys c)) =
      Item.declares k ∘ fun c => Item.component c.head c.body := by
    funext c
    rw [Bool.eq_iff_iff, decide_eq_true_eq]
    exact Item.declares_component_iff.symm
  rw [hdeclares, ← List.find?_map, hitems, List.find?_filter]
  -- nothing is lost by passing over what is no component
  congr 1
  funext i
  cases i with
  | component head body => simp [Item.kind?, Item.key?]
  | _ => simp [Item.declares]

/-- A construct that no component declares stands in none of the model. -/
theorem Document.find?_components_eq_none {d : Document} {k : Key}
    (h : ∀ i ∈ d.preorder, i.declares k = false) :
    (d.collect.components.find? fun c => k ∈ Pass.nestedKeys c) = none := by
  have hnone : d.preorder.find? (Item.declares k) = none :=
    List.find?_eq_none.2 fun i hi => by simp [h i hi]
  rw [← find?_components_collect] at hnone
  exact Option.map_eq_none_iff.1 hnone

/-! ## The first pass -/

/-- **A component speaks for itself**, whatever else has its name. -/
theorem Pass.firstFor_directNesting_component {m : Model} {n : String} (e : Evidence)
    (owners : Owners) (hn : n ∈ m.componentNames) :
    firstFor ⟨.component, n⟩ (directNesting.candidates m e owners) = some n := by
  obtain ⟨c, hc, rfl⟩ := List.mem_map.1 hn
  -- somebody speaks for the component: at least it does itself
  have hsome : (firstFor ⟨.component, c.name⟩ (directNesting.candidates m e owners)).isSome := by
    rw [firstFor, List.findSome?_isSome_iff]
    refine ⟨(⟨.component, c.name⟩, some c.name), ?_, by simp⟩
    exact List.mem_flatMap.2 ⟨c, hc, List.mem_map_of_mem List.mem_cons_self⟩
  obtain ⟨owner, howner⟩ := Option.isSome_iff_exists.1 hsome
  -- whichever component speaks first, it speaks for a component of its own name
  obtain ⟨c', -, hmem⟩ := List.mem_flatMap.1 (mem_of_firstFor howner)
  obtain ⟨k, hk, heq⟩ := List.mem_map.1 hmem
  cases heq
  rcases List.mem_cons.1 hk with hself | hnested
  · have hname : c.name = c'.name := congrArg Key.name hself
    rw [howner, hname]
  · exact absurd rfl (kind_ne_component_of_mem_nestedKeys hnested)

/-- A component belongs to itself. -/
theorem Model.find?_assignOwners_component {m : Model} {n : String} (hn : n ∈ m.componentNames) :
    m.assignOwners.assignments.find? ⟨.component, n⟩ = some ⟨n, .directNesting⟩ := by
  have hfirst : (m.runOf [.directNesting]).assignments.find? ⟨.component, n⟩ =
      some ⟨n, .directNesting⟩ := by
    show (({} : OwnershipRun).step m .directNesting).assignments.find? _ = _
    rw [OwnershipRun.find?_step_eq_firstFor, Pass.firstFor_directNesting_component _ _ hn]
    rfl
  -- what the first pass decides, the others keep
  exact find?_runOf_append hfirst Pass.all.tail

/-! ## Documents -/

namespace Document

/-- What the first component declares that a walk over the document meets is its own. -/
theorem find?_assignOwners_of_declares {d : Document} {k : Key} {head : ComponentHead}
    {body : List Item} (h : d.preorder.find? (Item.declares k) = some (.component head body)) :
    d.collect.assignOwners.assignments.find? k = some ⟨head.name, .directNesting⟩ := by
  rw [← find?_components_collect] at h
  obtain ⟨c, hc, heq⟩ := Option.map_eq_some_iff.1 h
  obtain ⟨rfl, rfl⟩ := Item.component.inj heq
  have hnested := List.find?_some hc
  rw [decide_eq_true_eq] at hnested
  exact Model.find?_assignOwners_of_nested (Pass.kind_ne_component_of_mem_nestedKeys hnested) hc

/-- **Direct nesting is decisive.** When some component declares a construct directly, the construct
belongs to the first component that does, in the order of a walk over the document, and the first
pass decides it, whatever else there is in the document. Every component belongs to itself, by the
first pass. So what stands directly in a component, wherever the component itself stands, belongs to
this component, unless one that the walk meets earlier declares the same. -/
theorem nesting_decisive (d : Document) :
    (∀ k, (∃ i ∈ d.preorder, i.declares k = true) →
      ∃ head body, d.preorder.find? (Item.declares k) = some (.component head body) ∧
        d.collect.assignOwners.assignments.find? k = some ⟨head.name, .directNesting⟩) ∧
    (∀ head body, .component head body ∈ d.preorder →
      d.collect.assignOwners.assignments.find? ⟨.component, head.name⟩ =
        some ⟨head.name, .directNesting⟩) ∧
    ∀ before inner items after, d.preorder = before ++ .component inner items :: after →
      ∀ decl, .construct decl ∈ items → (∀ i ∈ before, i.declares decl.key = false) →
        d.collect.assignOwners.assignments.find? decl.key =
          some ⟨inner.name, .directNesting⟩ := by
  refine ⟨?_, ?_, ?_⟩
  · rintro k ⟨i, hi, hdeclares⟩
    have hsome : (d.preorder.find? (Item.declares k)).isSome :=
      List.find?_isSome.2 ⟨i, hi, hdeclares⟩
    obtain ⟨j, hj⟩ := Option.isSome_iff_exists.1 hsome
    obtain ⟨c, rfl⟩ := Item.exists_component_of_declares (List.find?_some hj)
    exact ⟨c.head, c.body, hj, find?_assignOwners_of_declares hj⟩
  · intro head body hmem
    have hc : (⟨head, body⟩ : Component) ∈ d.collect.components := mem_components_collect_iff.2 hmem
    exact Model.find?_assignOwners_component (List.mem_map_of_mem (f := Component.name) hc)
  · intro before inner items after hwalk decl hdecl hbefore
    have hdeclares : (Item.component inner items).declares decl.key = true :=
      Item.declares_component_iff (c := ⟨inner, items⟩).2
        (Pass.mem_nestedKeys_iff.2 ⟨decl, hdecl, rfl⟩)
    have hfind : d.preorder.find? (Item.declares decl.key) = some (.component inner items) := by
      rw [List.find?_eq_some_iff_append]
      exact ⟨hdeclares, before, after, hwalk, fun i hi => by simp [hbefore i hi]⟩
    exact find?_assignOwners_of_declares hfind

/-- The archive of a library, which came to stand in the library. It has books like the library, and
an API of the same style without a name. -/
def archive : Item :=
  .component ⟨none, "Archive", none, [], []⟩
    [ .construct (.entity ⟨none, "Book", none, [], [], []⟩),
      .construct (.api ⟨none, none, .rest, [], [], []⟩),
      .construct (.entity ⟨none, "Scroll", none, [], [], []⟩) ]

/-- A library with its archive, and a reading room that has scrolls too. -/
def campus : Document where
  body :=
    [ .component ⟨none, "Library", none, [], []⟩
        [ .system ⟨none, "Basement", []⟩ [archive],
          .construct (.api ⟨none, none, .rest, [], [], []⟩),
          .construct (.entity ⟨none, "Book", none, [], [], []⟩) ],
      .component ⟨none, "Reading", none, [], []⟩
        [.construct (.entity ⟨none, "Scroll", none, [], [], []⟩)] ]

/-- The books and the API are the library's, though the archive stands before them: the walk meets
the library first. The scrolls are the archive's. -/
theorem campus_nesting_decisive :
    (∃ i ∈ campus.preorder, i.declares ⟨.entity, "Book"⟩ = true) ∧
    campus.collect.assignOwners.assignments.find? ⟨.entity, "Book"⟩ =
      some ⟨"Library", .directNesting⟩ ∧
    (∃ i ∈ campus.preorder, i.declares ⟨.api, "REST"⟩ = true) ∧
    campus.collect.assignOwners.assignments.find? ⟨.api, "REST"⟩ =
      some ⟨"Library", .directNesting⟩ ∧
    archive ∈ campus.preorder ∧
    campus.collect.assignOwners.assignments.find? ⟨.component, "Archive"⟩ =
      some ⟨"Archive", .directNesting⟩ ∧
    campus.collect.assignOwners.assignments.find? ⟨.entity, "Scroll"⟩ =
      some ⟨"Archive", .directNesting⟩ := by
  obtain ⟨hfirst, hself, hinner⟩ := nesting_decisive campus
  have howner {k : Key} {n : String} (h : ∃ i ∈ campus.preorder, i.declares k = true)
      (hname : (campus.preorder.find? (Item.declares k)).bind Item.key? = some ⟨.component, n⟩) :
      campus.collect.assignOwners.assignments.find? k = some ⟨n, .directNesting⟩ := by
    obtain ⟨head, body, hfind, howner⟩ := hfirst k h
    rw [hfind] at hname
    cases hname
    exact howner
  have hbook : ∃ i ∈ campus.preorder, i.declares ⟨.entity, "Book"⟩ = true :=
    ⟨_, List.mem_cons_self, by decide +kernel⟩
  have hapi : ∃ i ∈ campus.preorder, i.declares ⟨.api, "REST"⟩ = true :=
    ⟨_, List.mem_cons_self, by decide +kernel⟩
  have hwalk : campus.preorder = campus.preorder.take 2 ++ archive :: campus.preorder.drop 3 := rfl
  have harchive : archive ∈ campus.preorder := by
    rw [hwalk]
    exact List.mem_append_right _ List.mem_cons_self
  have hscroll := hinner _ _ _ _ hwalk (.entity ⟨none, "Scroll", none, [], [], []⟩)
    (by simp) (by decide +kernel)
  have hcomponent := hself _ _ harchive
  refine ⟨hbook, ?_, hapi, ?_, harchive, ?_, ?_⟩
  · exact howner hbook (by decide +kernel)
  · exact howner hapi (by decide +kernel)
  · exact hcomponent
  · exact hscroll

end Document

end Blueprint
