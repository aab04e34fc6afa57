import Mathlib.Data.Set.Basic
import Blueprint.Proofs.Graph.Accounting

/-!
# The search for one-sided edges is exact

An edge that stands on one end only is found by going from the end on which it stands to the record
at the other end and comparing references there. Two loops do this, one from each end, and both look
records up by key. They can be trusted with any graph, however it was made and whatever is missing
in it, as long as its references agree: a vertex is filed under its own key, and nobody refers to a
construct by another reference than that of its vertex.

- `Graph.Coherent`: the references of a graph agree. This can be decided.
- `Graph.Balanced.coherent`: they do in every graph that is built.
- `Graph.inverseEdges`: the edges as the targets see them.
- `Graph.Coherent.targetKnows_iff`, `Graph.Coherent.sourceKnows_iff`: the other end of an edge knows
  it exactly when the edge can be read from there.
- `Graph.asymmetries_exact`: what is found are the edges that can be read from one end only.
-/

namespace Blueprint

namespace Graph

variable {g : Graph} {e : Edge}

/-! ## Coherence -/

/-- The references of a graph agree. Constructs without vertex may be referred to in any way, and an
edge need not stand on both of its ends. -/
structure Coherent (g : Graph) : Prop where
  keyed : ∀ {k r}, g.ref? k = some r → r.key = k
  agrees : ∀ {k s r r'}, r ∈ g.refsAt k s → g.ref? r.key = some r' → r = r'

/-- It is enough to go through the vertices and through what they hold. -/
theorem coherent_iff :
    g.Coherent ↔ (∀ e ∈ g.vertices.entries, e.2.ref.key = e.1) ∧
      ∀ x ∈ g.holdings, (g.ref? x.ref.key).all (· = x.ref) = true := by
  constructor
  · intro h
    constructor
    · intro e he
      exact h.keyed (views_of_mem_entries he).1
    · intro x hx
      cases hr : g.ref? x.ref.key with
      | none => rfl
      | some r' => exact decide_eq_true (h.agrees (mem_holdings_iff.1 hx) hr).symm
  · rintro ⟨hkeyed, hagrees⟩
    constructor
    · intro k r hr
      obtain ⟨v, hv, rfl⟩ := exists_vertex_of_ref? hr
      exact hkeyed _ hv
    · intro k s r r' hheld hr
      have hall := hagrees ⟨k, s, r⟩ (mem_holdings_iff.2 hheld)
      rw [hr] at hall
      exact (of_decide_eq_true hall).symm

instance : Decidable g.Coherent := decidable_of_iff' _ coherent_iff

/-- In a graph that is built every reference is that of a vertex. -/
theorem Balanced.coherent (h : g.Balanced) : g.Coherent where
  keyed := h.keyed
  agrees := by
    intro k s r r' hheld hr
    exact Option.some.inj ((h.closed hheld).symm.trans hr)

/-! ## Edges from the other end -/

/-- The edges as their targets see them: for each vertex and each category that can lead to it, the
sources that the inverse slot holds, if an edge of the category can start from them. -/
def inverseEdges (g : Graph) : Set Edge :=
  {e | ∃ k v, (k, v) ∈ g.vertices.entries ∧ k.kind ∈ e.category.targets ∧
    e.source.kind ∈ e.category.sources ∧ e.source ∈ v.record.refs e.category.inverse ∧
    e.target = v.ref}

theorem mem_inverseEdges_iff : e ∈ g.inverseEdges ↔ e ∈ g.inverses := by
  rw [mem_inverses_iff]
  constructor
  · rintro ⟨k, v, hv, htarget, hsource, hheld, heq⟩
    obtain ⟨href, hrefs⟩ := views_of_mem_entries hv
    exact ⟨k, by rw [href, heq], by rw [hrefs]; exact hheld, htarget, hsource⟩
  · rintro ⟨k, href, hheld, htarget, hsource⟩
    obtain ⟨v, hv, heq⟩ := exists_vertex_of_ref? href
    rw [(views_of_mem_entries hv).2] at hheld
    exact ⟨k, v, hv, htarget, hsource, hheld, heq.symm⟩

/-- The target of an edge knows the edge exactly when it can be read from there. A record that holds
the source belongs to a vertex, whose reference is the one that the source holds. -/
theorem Coherent.targetKnows_iff (h : g.Coherent) (he : e ∈ g.edges) :
    g.targetKnows e = true ↔ e ∈ g.inverseEdges := by
  obtain ⟨k, hk, hheld, hsource, htarget⟩ := mem_edges_iff.1 he
  obtain rfl := h.keyed hk
  rw [mem_inverseEdges_iff, mem_inverses_iff, targetKnows, List.contains_iff_mem]
  constructor
  · intro hknown
    obtain ⟨t, ht⟩ := ref?_isSome_of_mem_refsAt hknown
    -- the vertex found there has the reference that the source holds, not just its key
    obtain rfl := h.agrees hheld ht
    exact ⟨e.target.key, ht, hknown, htarget, hsource⟩
  · rintro ⟨j, hj, hknown, -, -⟩
    obtain rfl := h.keyed hj
    exact hknown

/-- The same for the source of an edge that the target knows. -/
theorem Coherent.sourceKnows_iff (h : g.Coherent) (he : e ∈ g.inverseEdges) :
    g.sourceKnows e = true ↔ e ∈ g.edges := by
  obtain ⟨k, hk, hheld, htarget, hsource⟩ := mem_inverses_iff.1 (mem_inverseEdges_iff.1 he)
  obtain rfl := h.keyed hk
  rw [mem_edges_iff, sourceKnows, List.contains_iff_mem]
  constructor
  · intro hknown
    obtain ⟨s, hs⟩ := ref?_isSome_of_mem_refsAt hknown
    obtain rfl := h.agrees hheld hs
    exact ⟨e.source.key, hs, hknown, hsource, htarget⟩
  · rintro ⟨j, hj, hknown, -, -⟩
    obtain rfl := h.keyed hj
    exact hknown

/-! ## What is found -/

theorem mem_asymmetries_iff :
    e ∈ g.asymmetries ↔ (e ∈ g.edges ∧ ¬g.targetKnows e = true) ∨
      (e ∈ g.inverseEdges ∧ ¬g.sourceKnows e = true) := by
  simp only [asymmetries, List.mem_append, List.mem_filter, mem_inverseEdges_iff, Bool.not_eq_true,
    Bool.not_eq_eq_eq_not, Bool.not_true]

/-- **The search for one-sided edges is exact.** In a graph whose references agree, whether or not
its edges stand on both of their ends, the edges that are found are those that can be read from
their source and not from their target, and those that can be read from their target and not from
their source. No edge of this sort is missed and no other edge is found. Every graph that is built
from a model is such a graph. -/
theorem asymmetries_exact :
    (∀ g : Graph, g.Coherent →
      {e | e ∈ g.asymmetries} =
        ({e | e ∈ g.edges} \ g.inverseEdges) ∪ (g.inverseEdges \ {e | e ∈ g.edges})) ∧
    ∀ (m : Model) (o : Ownership), (m.buildGraph o).Coherent := by
  constructor
  · intro g h
    ext e
    show e ∈ g.asymmetries ↔
      e ∈ g.edges ∧ e ∉ g.inverseEdges ∨ e ∈ g.inverseEdges ∧ e ∉ g.edges
    have htarget : e ∈ g.edges → (¬g.targetKnows e = true ↔ e ∉ g.inverseEdges) :=
      fun he => not_congr (h.targetKnows_iff he)
    have hsource : e ∈ g.inverseEdges → (¬g.sourceKnows e = true ↔ e ∉ g.edges) :=
      fun he => not_congr (h.sourceKnows_iff he)
    rw [mem_asymmetries_iff, and_congr_right_iff.2 htarget, and_congr_right_iff.2 hsource]
  · intro m o
    exact (Builder.balanced_build balanced_empty).coherent

/-- A graph that somebody has changed. A rule governs an order, which knows it, and a construct that
has no vertex. A state has an enumeration that does not know it, and claims to govern the order. -/
def tampered : Graph where
  vertices :=
    let order : Ref := ⟨"Shop", .entity, "Order"⟩
    let limit : Ref := ⟨"Shop", .rule, "Limit"⟩
    let life : Ref := ⟨"Shop", .state, "Life"⟩
    let status : Ref := ⟨"Stock", .enumeration, "Status"⟩
    let vertex (ref : Ref) (refs : List (Slot × List Ref)) : Key × Vertex :=
      (ref.key, ⟨ref, refs.foldl (fun r s => r.setRefs s.1 s.2) {}⟩)
    Table.ofList
      [ vertex order [(.governedByRules, [limit])],
        vertex limit [(.governsEntities, [order, ⟨"Attic", .entity, "Ghost"⟩])],
        vertex life [(.enumRef, [status]), (.governsEntities, [order])],
        vertex status [] ]

/-- Three of the four edges stand on one end only. -/
theorem tampered_asymmetries_exact :
    tampered.Coherent ∧
    tampered.asymmetries =
      [ ⟨⟨"Shop", .rule, "Limit"⟩, .ruleEntity, ⟨"Attic", .entity, "Ghost"⟩⟩,
        ⟨⟨"Shop", .state, "Life"⟩, .stateEnum, ⟨"Stock", .enumeration, "Status"⟩⟩,
        ⟨⟨"Shop", .entity, "Order"⟩, .entityState, ⟨"Shop", .state, "Life"⟩⟩ ] ∧
    {e | e ∈ tampered.asymmetries} =
      ({e | e ∈ tampered.edges} \ tampered.inverseEdges) ∪
        (tampered.inverseEdges \ {e | e ∈ tampered.edges}) := by
  have hcoherent : tampered.Coherent := by decide +kernel
  exact ⟨hcoherent, by decide +kernel, asymmetries_exact.1 tampered hcoherent⟩

end Graph

end Blueprint
