import Blueprint.Graph.Builder

/-!
# What building does to a graph

A graph is seen through two functions: `Graph.ref?`, the reference of a construct, and
`Graph.refsAt`, what a slot of a construct's record holds. Everything that is asked of a graph can
be said with these two, and each step of a builder is one equation or one equivalence on them.

- `Graph.mem_edges_iff`, `Graph.mem_inverses_iff`: edges through the two views.
- `Builder.ref?_touch`, `Builder.refsAt_touch`: touching adds a reference and leaves slots alone.
- `Builder.ref?_connect`, `Builder.mem_refsAt_connect`: connecting adds one reference to each of two
  slots, which may belong to one record.
- `Builder.link_cases`: a link comes to a touch of its ends, or to a connection after that.
- `Builder.annotate_views`: noting an endpoint is a touch as far as references go.
-/

namespace Blueprint

/-! ## Tables -/

namespace Table

variable {κ α : Type} [DecidableEq κ]

theorem find?_insert (t : Table κ α) (k j : κ) (v : α) :
    (t.insert k v).find? j = if j = k then some v else t.find? j := by
  rw [insert, find?_upsert]

end Table

/-! ## Edges through the views -/

namespace Graph

variable {g : Graph}

/-- A construct without reference has no record either. -/
theorem refsAt_of_ref?_eq_none {k : Key} (h : g.ref? k = none) (s : Slot) : g.refsAt k s = [] := by
  have hv : g.vertices.find? k = none := by simpa [ref?] using h
  simp [refsAt, record?, hv]

/-- A construct whose record holds something has a reference. -/
theorem ref?_isSome_of_mem_refsAt {k : Key} {s : Slot} {r : Ref} (h : r ∈ g.refsAt k s) :
    ∃ r', g.ref? k = some r' := by
  cases hk : g.ref? k with
  | some r' => exact ⟨r', rfl⟩
  | none =>
    rw [refsAt_of_ref?_eq_none hk] at h
    exact absurd h List.not_mem_nil

/-- What a vertex holds, through the views. -/
theorem views_of_mem_entries {k : Key} {v : Vertex} (h : (k, v) ∈ g.vertices.entries) :
    g.ref? k = some v.ref ∧ ∀ s, g.refsAt k s = v.record.refs s := by
  have hv : g.vertices.find? k = some v := Table.find?_eq_some_iff.2 h
  exact ⟨by simp [ref?, hv], fun s => by simp [refsAt, record?, hv]⟩

/-- A construct with a reference has a vertex. -/
theorem exists_vertex_of_ref? {k : Key} {r : Ref} (h : g.ref? k = some r) :
    ∃ v, (k, v) ∈ g.vertices.entries ∧ v.ref = r := by
  obtain ⟨v, hv, rfl⟩ := Option.map_eq_some_iff.1 h
  exact ⟨v, Table.find?_eq_some_iff.1 hv, rfl⟩

/-- The edges of a category at a vertex: the vertex can have them, holds their target, and the
target fits. -/
theorem mem_edgesOfVertex_iff {k : Key} {v : Vertex} {c : Category} {e : Edge} :
    e ∈ edgesOfVertex k v c ↔ e.source = v.ref ∧ e.category = c ∧
      e.target ∈ v.record.refs c.forward ∧ k.kind ∈ c.sources ∧ e.target.kind ∈ c.targets := by
  obtain ⟨s, c', t⟩ := e
  by_cases hk : k.kind ∈ c.sources
  · simp only [edgesOfVertex, List.contains_iff_mem, hk, if_true, List.mem_map, List.mem_filter,
      Edge.mk.injEq]
    constructor
    · rintro ⟨t', ⟨ht, hkind⟩, rfl, rfl, rfl⟩
      exact ⟨rfl, rfl, ht, trivial, hkind⟩
    · rintro ⟨rfl, rfl, ht, -, hkind⟩
      exact ⟨t, ⟨ht, hkind⟩, rfl, rfl, rfl⟩
  · simp [edgesOfVertex, hk]

/-- The same from the other end. -/
theorem mem_inversesOfVertex_iff {k : Key} {v : Vertex} {c : Category} {e : Edge} :
    e ∈ inversesOfVertex k v c ↔ e.target = v.ref ∧ e.category = c ∧
      e.source ∈ v.record.refs c.inverse ∧ k.kind ∈ c.targets ∧ e.source.kind ∈ c.sources := by
  obtain ⟨s, c', t⟩ := e
  by_cases hk : k.kind ∈ c.targets
  · simp only [inversesOfVertex, List.contains_iff_mem, hk, if_true, List.mem_map, List.mem_filter,
      Edge.mk.injEq]
    constructor
    · rintro ⟨s', ⟨hs, hkind⟩, rfl, rfl, rfl⟩
      exact ⟨rfl, rfl, hs, trivial, hkind⟩
    · rintro ⟨rfl, rfl, hs, -, hkind⟩
      exact ⟨s, ⟨hs, hkind⟩, rfl, rfl, rfl⟩
  · simp [inversesOfVertex, hk]

/-- An edge is listed when its source can have it, holds its target, and the target fits. -/
theorem mem_edges_iff {e : Edge} :
    e ∈ g.edges ↔ ∃ k, g.ref? k = some e.source ∧ e.target ∈ g.refsAt k e.category.forward ∧
      k.kind ∈ e.category.sources ∧ e.target.kind ∈ e.category.targets := by
  simp only [edges, edgesIn, List.mem_flatMap, mem_edgesOfVertex_iff]
  constructor
  · rintro ⟨⟨k, v⟩, hkv, c, -, hs, rfl, hmem, hkinds⟩
    obtain ⟨href, hrefs⟩ := views_of_mem_entries hkv
    exact ⟨k, by rw [href, hs], by rw [hrefs]; exact hmem, hkinds⟩
  · rintro ⟨k, href, hmem, hkinds⟩
    obtain ⟨v, hkv, hv⟩ := exists_vertex_of_ref? href
    rw [(views_of_mem_entries hkv).2] at hmem
    exact ⟨(k, v), hkv, e.category, Category.mem_all _, hv.symm, rfl, hmem, hkinds⟩

/-- The same from the other end. -/
theorem mem_inverses_iff {e : Edge} :
    e ∈ g.inverses ↔ ∃ k, g.ref? k = some e.target ∧ e.source ∈ g.refsAt k e.category.inverse ∧
      k.kind ∈ e.category.targets ∧ e.source.kind ∈ e.category.sources := by
  simp only [inverses, List.mem_flatMap, mem_inversesOfVertex_iff]
  constructor
  · rintro ⟨⟨k, v⟩, hkv, c, -, ht, rfl, hmem, hkinds⟩
    obtain ⟨href, hrefs⟩ := views_of_mem_entries hkv
    exact ⟨k, by rw [href, ht], by rw [hrefs]; exact hmem, hkinds⟩
  · rintro ⟨k, href, hmem, hkinds⟩
    obtain ⟨v, hkv, hv⟩ := exists_vertex_of_ref? href
    rw [(views_of_mem_entries hkv).2] at hmem
    exact ⟨(k, v), hkv, e.category, Category.mem_all _, hv.symm, rfl, hmem, hkinds⟩

/-- Nothing stands on one end only when every edge is known at its other end. -/
theorem asymmetries_eq_nil_iff :
    g.asymmetries = [] ↔
      (∀ e ∈ g.edges, g.targetKnows e = true) ∧ ∀ e ∈ g.inverses, g.sourceKnows e = true := by
  simp [asymmetries, List.filter_eq_nil_iff]

end Graph

/-! ## Steps of a builder through the views -/

@[simp] theorem mem_addNew_iff {α : Type} [DecidableEq α] {xs : List α} {x y : α} :
    y ∈ addNew xs x ↔ y ∈ xs ∨ y = x := by
  by_cases h : x ∈ xs
  · rw [addNew, if_pos h]
    exact ⟨Or.inl, fun hy => hy.elim id fun hyx => hyx ▸ h⟩
  · rw [addNew, if_neg h]
    simp

namespace Builder

variable {o : Ownership} {b : Builder}

/-- The reference that a construct gets from its owner. -/
def refOf (o : Ownership) (k : Key) : Option Ref := (o.owner? k).map fun c => ⟨c, k.kind, k.name⟩

theorem key_of_refOf {k : Key} {r : Ref} (h : refOf o k = some r) : r.key = k := by
  obtain ⟨c, -, rfl⟩ := Option.map_eq_some_iff.1 h
  rfl

/-- Touching gives a construct without reference that of its owner. -/
theorem ref?_touch (k j : Key) :
    (b.touch o k).graph.ref? j =
      if j = k then (b.graph.ref? k).or (refOf o k) else b.graph.ref? j := by
  by_cases hk : b.graph.vertices.contains k = true
  · obtain ⟨v, hv⟩ := Option.isSome_iff_exists.1 hk
    rw [touch, if_pos hk]
    by_cases hj : j = k
    · simp [Graph.ref?, hj, hv]
    · simp [hj]
  · have hv : b.graph.vertices.find? k = none := by simpa [Table.contains] using hk
    rw [touch, if_neg hk]
    cases hc : o.owner? k with
    | none => by_cases hj : j = k <;> simp [Graph.ref?, refOf, hc, hj, hv]
    | some c => by_cases hj : j = k <;> simp [Graph.ref?, refOf, Table.find?_insert, hc, hj, hv]

/-- A new record is empty, so touching changes no slot. -/
@[simp] theorem refsAt_touch (k j : Key) (s : Slot) :
    (b.touch o k).graph.refsAt j s = b.graph.refsAt j s := by
  by_cases hk : b.graph.vertices.contains k = true
  · rw [touch, if_pos hk]
  · have hv : b.graph.vertices.find? k = none := by simpa [Table.contains] using hk
    rw [touch, if_neg hk]
    cases o.owner? k with
    | none => rfl
    | some c =>
      by_cases hj : j = k <;> simp [Graph.refsAt, Graph.record?, Table.find?_insert, hj, hv]

@[simp] theorem strays_touch (k : Key) : (b.touch o k).strays = b.strays := by
  unfold touch
  split
  · rfl
  · cases o.owner? k <;> rfl

/-- A change of a record changes no reference. -/
@[simp] theorem ref?_modify (k j : Key) (f : Record → Record) :
    (b.modify k f).graph.ref? j = b.graph.ref? j := by
  unfold modify
  cases hv : b.graph.vertices.find? k with
  | none => rfl
  | some v => by_cases hj : j = k <;> simp [Graph.ref?, Table.find?_insert, hj, hv]

@[simp] theorem strays_modify (k : Key) (f : Record → Record) :
    (b.modify k f).strays = b.strays := by
  unfold modify
  cases b.graph.vertices.find? k <;> rfl

/-- A change that leaves the references of a record alone. -/
theorem refsAt_modify_of_refs_eq {k : Key} {f : Record → Record} (hf : ∀ r, (f r).refs = r.refs)
    (j : Key) (s : Slot) : (b.modify k f).graph.refsAt j s = b.graph.refsAt j s := by
  unfold modify
  cases hv : b.graph.vertices.find? k with
  | none => rfl
  | some v =>
    by_cases hj : j = k <;> simp [Graph.refsAt, Graph.record?, Table.find?_insert, hj, hv, hf]

/-- A change of one slot of a construct with a reference. -/
theorem refsAt_modify_setRefs {k : Key} {r : Ref} (h : b.graph.ref? k = some r) (s : Slot)
    (f : List Ref → List Ref) (j : Key) (t : Slot) :
    (b.modify k fun r => r.setRefs s (f (r.refs s))).graph.refsAt j t =
      if j = k ∧ t = s then f (b.graph.refsAt k s) else b.graph.refsAt j t := by
  obtain ⟨v, hv, -⟩ := Option.map_eq_some_iff.1 h
  simp only [modify, hv]
  by_cases hj : j = k
  · by_cases ht : t = s <;>
      simp [Graph.refsAt, Graph.record?, Table.find?_insert, Record.setRefs, hj, ht, hv]
  · simp [Graph.refsAt, Graph.record?, Table.find?_insert, hj]

/-- The same for a change that adds one reference, whether or not it is there already. -/
theorem mem_refsAt_modify_add {k : Key} {r x : Ref} (h : b.graph.ref? k = some r) (s : Slot)
    {f : List Ref → List Ref} (hf : ∀ xs y, y ∈ f xs ↔ y ∈ xs ∨ y = x) {j : Key} {t : Slot}
    {y : Ref} :
    y ∈ (b.modify k fun r => r.setRefs s (f (r.refs s))).graph.refsAt j t ↔
      y ∈ b.graph.refsAt j t ∨ (j = k ∧ t = s ∧ y = x) := by
  rw [refsAt_modify_setRefs h s f j t]
  by_cases hjt : j = k ∧ t = s
  · obtain ⟨rfl, rfl⟩ := hjt
    simp [hf]
  · rw [if_neg hjt]
    exact ⟨Or.inl, fun hy => hy.elim id fun hy => absurd ⟨hy.1, hy.2.1⟩ hjt⟩

@[simp] theorem ref?_connect (c : Category) (s t : Ref) (k : Key) :
    (b.connect c s t).graph.ref? k = b.graph.ref? k := by
  simp [connect]

@[simp] theorem strays_connect (c : Category) (s t : Ref) :
    (b.connect c s t).strays = b.strays := by
  simp [connect]

/-- Connecting adds the target to the forward slot of the source and the source to the inverse slot
of the target, and nothing else. -/
theorem mem_refsAt_connect {c : Category} {s t s' t' : Ref} (hs : b.graph.ref? s.key = some s')
    (ht : b.graph.ref? t.key = some t') {k : Key} {slot : Slot} {r : Ref} :
    r ∈ (b.connect c s t).graph.refsAt k slot ↔
      (r ∈ b.graph.refsAt k slot ∨ (k = s.key ∧ slot = c.forward ∧ r = t)) ∨
        (k = t.key ∧ slot = c.inverse ∧ r = s) := by
  -- the second change is made to a graph in which the target still has its reference
  have ht₁ : (b.modify s.key fun r =>
      r.setRefs c.forward (r.refs c.forward ++ [t])).graph.ref? t.key = some t' := by
    rw [ref?_modify, ht]
  refine Iff.trans (mem_refsAt_modify_add ht₁ c.inverse fun _ _ => mem_addNew_iff) ?_
  rw [mem_refsAt_modify_add (f := (· ++ [t])) (x := t) hs c.forward fun _ _ => by simp]

/-- A link touches its ends. If both then have a reference and the source takes the target, it
connects them. -/
theorem link_cases (o : Ownership) (b : Builder) (c : Category) (source target : Key) :
    (b.link o c source target).1 = (b.touch o source).touch o target ∨
      ∃ s t, ((b.touch o source).touch o target).graph.ref? source = some s ∧
        ((b.touch o source).touch o target).graph.ref? target = some t ∧
        refuses c (((b.touch o source).touch o target).graph.refsAt source c.forward) t = false ∧
        (b.link o c source target).1 = ((b.touch o source).touch o target).connect c s t := by
  simp only [link]
  split
  · next s t hs ht =>
    split
    · exact Or.inl rfl
    · next hfree =>
      rw [Bool.or_eq_true, not_or, Bool.not_eq_true, Bool.not_eq_true] at hfree
      exact Or.inr ⟨s, t, hs, ht, hfree.2, rfl⟩
  · exact Or.inl rfl

/-- Noting an endpoint is a touch as far as references go. -/
theorem annotate_views (k : Key) (e : EndpointSlot) (p : EndpointRef) :
    (∀ j, (b.annotate o k e p).graph.ref? j = (b.touch o k).graph.ref? j) ∧
      ∀ j s, (b.annotate o k e p).graph.refsAt j s = (b.touch o k).graph.refsAt j s :=
  ⟨fun _ => ref?_modify .., refsAt_modify_of_refs_eq fun _ => rfl⟩

/-- No instruction leaves a stray. -/
@[simp] theorem strays_run (i : Instruction) : (b.run o i).strays = b.strays := by
  cases i with
  | touch k => exact strays_touch k
  | link c s t =>
    show (b.link o c s t).1.strays = b.strays
    obtain h | ⟨_, _, -, -, -, h⟩ := link_cases o b c s t <;> simp [h]
  | annotate k e p =>
    show ((b.touch o k).modify k _).strays = b.strays
    simp

end Builder

end Blueprint
