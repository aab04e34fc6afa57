import Blueprint.Document.Source

/-!
# What stands where in a document that was read

A reader only accepts an item where an item of its kind may stand. A file that was read therefore
has systems at the top, components there or in systems, and constructs anywhere but in systems.

- `Schema.Gives`: what holds of every value that a reader returns, for each way to build readers.
- `Item.standsInComponent`, `Item.standsInSystem`, `Item.standsInDocument`: what may stand where.
- `Document.WellPlaced`, `Document.wellPlaced_parse`: documents that were read.
-/

namespace Blueprint

/-! ## What readers return -/

namespace Schema

variable {α β : Type} {P : α → Prop} {r : Reader α}

/-- Everything that a reader returns has a property. -/
def Gives (r : Reader α) (P : α → Prop) : Prop := ∀ v a, r v = .ok a → P a

theorem exists_of_map_eq_ok {x : Except Mismatch α} {f : α → β} {b : β} (h : x.map f = .ok b) :
    ∃ a, x = .ok a ∧ f a = b := by
  cases x with
  | error m => cases h
  | ok a => exact ⟨a, rfl, Except.ok.inj h⟩

theorem forall_of_elementsFrom (hr : Gives r P) {vs : List Json} {i : Nat} {as : List α}
    (h : elementsFrom r i vs = .ok as) : ∀ a ∈ as, P a := by
  induction vs generalizing i as with
  | nil =>
    cases h
    exact nofun
  | cons v vs ih =>
    obtain ⟨a, ha, h⟩ := exists_of_bind_eq_ok h
    obtain ⟨rest, hrest, h⟩ := exists_of_bind_eq_ok h
    cases h
    rw [List.forall_mem_cons]
    exact ⟨hr v a (within_eq_ok_iff.1 ha), ih hrest⟩

theorem gives_listOf (hr : Gives r P) : Gives (listOf r) fun as => ∀ a ∈ as, P a := by
  intro v as h
  cases v with
  | arr vs => exact forall_of_elementsFrom hr h
  | _ => cases h

/-- The elements of a list member are what the reader of elements returns. -/
theorem forall_of_items (hr : Gives r P) {m : Members} {name : String} {as : List α}
    (h : items m name r = .ok as) : ∀ a ∈ as, P a := by
  unfold items defaulted at h
  split at h
  · exact gives_listOf hr _ as (within_eq_ok_iff.1 h)
  · cases h
    exact nofun

theorem gives_map {v : Variant β} {f : β → α} (h : ∀ b, P (f b)) : Gives (v.map f).read P := by
  intro value a ha
  obtain ⟨b, -, rfl⟩ := exists_of_map_eq_ok ha
  exact h b

theorem gives_object {typeName : String} {read : Members → Except Mismatch α}
    (h : ∀ m a, read m = .ok a → P a) : Gives (object typeName read) P := by
  intro v a ha
  cases v with
  | obj m => exact h m a ha
  | _ => cases ha

/-- A union returns what its alternatives return. -/
theorem gives_tagged {alternatives : List (Variant α)}
    (h : ∀ v ∈ alternatives, Gives v.read P) : Gives (tagged alternatives) P := by
  intro value a ha
  unfold tagged at ha
  split at ha
  · split at ha
    · cases ha
    · next found _ =>
      split at ha
      · next v hv =>
        -- only a text selects an alternative, and it selects one of the list
        have hmem : v ∈ alternatives := by
          cases found with
          | str s => exact List.mem_of_find?_eq_some hv
          | _ => cases hv
        exact h v hmem _ a (within_eq_ok_iff.1 ha)
      · cases ha
  · cases ha

end Schema

open Schema

theorem gives_nodeVariant {α : Type} {P : α → Prop} {typeName : String}
    {read : Members → Location → Except Mismatch α}
    (h : ∀ m loc a, read m loc = .ok a → P a) : Gives (nodeVariant typeName read).read P := by
  refine gives_object fun m a ha => ?_
  obtain ⟨loc, -, ha⟩ := exists_of_bind_eq_ok ha
  obtain ⟨_, -, ha⟩ := exists_of_bind_eq_ok ha
  exact h m loc a ha

/-! ## Places -/

namespace Item

/-- What may stand in a component of a file. -/
def standsInComponent : Item → Bool
  | construct _ => true
  | inclusion _ => true
  | comment _ => true
  | unparsed _ => true
  | _ => false

/-- What may stand in a system of a file. -/
def standsInSystem : Item → Bool
  | component _ body => body.all standsInComponent
  | inclusion _ => true
  | comment _ => true
  | unparsed _ => true
  | _ => false

/-- What may stand in a file. -/
def standsInDocument : Item → Bool
  | system _ body => body.all standsInSystem
  | component _ body => body.all standsInComponent
  | i => i.standsInComponent

end Item

/-- A document in which everything stands where it may. -/
def Document.WellPlaced (d : Document) : Prop := ∀ i ∈ d.body, i.standsInDocument = true

instance (d : Document) : Decidable d.WellPlaced :=
  inferInstanceAs (Decidable (∀ i ∈ d.body, i.standsInDocument = true))

/-- A parser that returns such documents only. -/
def Parser.WellPlaced (parse : Parser) : Prop :=
  ∀ source path d, parse source path = .ok d → d.WellPlaced

/-! ## Reading -/

namespace Item

variable (type : Reader TypeExpr)

theorem gives_of_mem_inComponent {v : Variant Item} (hv : v ∈ inComponent type) :
    Gives v.read fun i => i.standsInComponent = true := by
  rcases List.mem_append.1 hv with hv | hv
  · obtain ⟨c, -, rfl⟩ := List.mem_map.1 hv
    exact gives_map fun _ => rfl
  · simp only [List.mem_cons, List.not_mem_nil, or_false] at hv
    rcases hv with rfl | rfl | rfl <;> exact gives_map fun _ => rfl

theorem gives_componentVariant :
    Gives (componentVariant type).read fun i =>
      ∃ head body, i = .component head body ∧ body.all standsInComponent = true := by
  refine gives_nodeVariant fun m loc i h => ?_
  obtain ⟨name, -, h⟩ := exists_of_bind_eq_ok h
  obtain ⟨parent, -, h⟩ := exists_of_bind_eq_ok h
  obtain ⟨interfaces, -, h⟩ := exists_of_bind_eq_ok h
  obtain ⟨decorators, -, h⟩ := exists_of_bind_eq_ok h
  obtain ⟨body, hbody, h⟩ := exists_of_bind_eq_ok h
  cases h
  -- of all that is read for a component, only the body matters here
  have hall := forall_of_items (gives_tagged fun v => gives_of_mem_inComponent type) hbody
  exact ⟨_, body, rfl, List.all_eq_true.2 hall⟩

theorem gives_inSystem : Gives (tagged (inSystem type)) fun i => i.standsInSystem = true := by
  refine gives_tagged fun v hv => ?_
  simp only [inSystem, List.mem_cons, List.not_mem_nil, or_false] at hv
  rcases hv with rfl | rfl | rfl | rfl
  · exact gives_map fun _ => rfl
  · intro value i h
    obtain ⟨head, body, rfl, hbody⟩ := gives_componentVariant type value i h
    exact hbody
  · exact gives_map fun _ => rfl
  · exact gives_map fun _ => rfl

theorem gives_systemVariant :
    Gives (systemVariant type).read fun i => i.standsInDocument = true := by
  refine gives_nodeVariant fun m loc i h => ?_
  obtain ⟨name, -, h⟩ := exists_of_bind_eq_ok h
  obtain ⟨decorators, -, h⟩ := exists_of_bind_eq_ok h
  obtain ⟨body, hbody, h⟩ := exists_of_bind_eq_ok h
  cases h
  exact List.all_eq_true.2 (forall_of_items (gives_inSystem type) hbody)

theorem gives_topLevel : Gives (tagged (topLevel type)) fun i => i.standsInDocument = true := by
  refine gives_tagged fun v hv => ?_
  rcases List.mem_append.1 hv with hv | hv
  · simp only [List.mem_cons, List.not_mem_nil, or_false] at hv
    rcases hv with rfl | rfl
    · exact gives_systemVariant type
    · intro value i h
      obtain ⟨head, body, rfl, hbody⟩ := gives_componentVariant type value i h
      exact hbody
  · -- what may stand in a component may stand in a document as well
    intro value i h
    have hi := gives_of_mem_inComponent type hv value i h
    cases i with
    | system => cases hi
    | component => cases hi
    | _ => exact hi

end Item

theorem Document.gives_readWith (type : Reader TypeExpr) :
    Gives (Document.readWith type) Document.WellPlaced := by
  refine gives_object fun m d h => ?_
  obtain ⟨loc, -, h⟩ := exists_of_bind_eq_ok h
  obtain ⟨_, -, h⟩ := exists_of_bind_eq_ok h
  obtain ⟨body, hbody, h⟩ := exists_of_bind_eq_ok h
  cases h
  exact forall_of_items (Item.gives_topLevel type) hbody

/-- **Everything in a document that was read stands where it may.** -/
theorem Document.wellPlaced_parse : Parser.WellPlaced Document.parse := by
  intro source path d h
  unfold Document.parse at h
  split at h
  · cases h
  · next value _ =>
    split at h
    · cases h
    · next hread =>
      cases h
      exact Document.gives_readWith (TypeExpr.read value.depth) value d hread

end Blueprint
