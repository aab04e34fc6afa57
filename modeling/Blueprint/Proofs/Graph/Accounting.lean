import Mathlib.Data.List.Nodup
import Blueprint.Proofs.Graph.Edges

/-!
# Every reference is accounted for

A graph lists its edges from the records of their sources, and a builder counts the edges that it
writes. The two agree, and nothing is in a record that is not one end of an edge: a reference in a
slot is what exactly one edge left there, on its forward or on its inverse side. Slots that several
categories share make no difference, for the kinds at both ends tell the categories apart.

- `Graph.edgesOf_eq_filter`: the edges of a category are those edges that have the category.
- `Holding`, `Graph.holdings`: the references that records hold.
- `Edge.trace`: what an edge leaves at each of its ends.
- `Graph.Balanced.eq_of_trace_eq`: an edge and a side are known from what the edge leaves there.
- `Builder.Accounted`: the invariant. Every reference was left by an edge, and the edges have been
  counted.
- `Builder.accounted_run`, `Builder.accounted_foldl_obey`: an instruction keeps the invariant, and
  so does every run.
- `Builder.commands_accounted`: what holds of the edges and references of a finished graph.
-/

namespace Blueprint

/-! ## Edges by category -/

/-- What is said about one element of a list without repetitions is said once. -/
theorem flatMap_ite_of_nodup {α β : Type} [DecidableEq α] {as : List α} (hnodup : as.Nodup) {a : α}
    (ha : a ∈ as) (xs : List β) : (as.flatMap fun x => if x = a then xs else []) = xs := by
  obtain ⟨before, later, rfl⟩ := List.append_of_mem ha
  rw [List.nodup_append, List.nodup_cons] at hnodup
  obtain ⟨-, ⟨hlater, -⟩, hbefore⟩ := hnodup
  have hskip : ∀ bs : List α, a ∉ bs → (bs.flatMap fun x => if x = a then xs else []) = [] := by
    intro bs hbs
    refine List.flatMap_eq_nil_iff.2 fun x hx => if_neg ?_
    rintro rfl
    exact hbs hx
  have ha : a ∉ before := fun ha => hbefore a ha a List.mem_cons_self rfl
  rw [List.flatMap_append, List.flatMap_cons, hskip before ha, hskip later hlater, if_pos rfl,
    List.nil_append, List.append_nil]

namespace Category

theorem nodup_all : all.Nodup := by decide

/-- What is said about one category only is said once. -/
theorem flatMap_all_ite {α : Type} (c : Category) (xs : List α) :
    (all.flatMap fun d => if d = c then xs else []) = xs :=
  flatMap_ite_of_nodup nodup_all (mem_all c) xs

end Category

namespace Graph

/-- **The edges of a category are those of all edges that have the category**, in the same order. -/
theorem edgesOf_eq_filter (g : Graph) (c : Category) :
    g.edgesOf c = g.edges.filter fun e => e.category = c := by
  have hvertex : ∀ (k : Key) (v : Vertex) (d : Category),
      (edgesOfVertex k v d).filter (fun e => e.category = c) =
        if d = c then edgesOfVertex k v c else [] := by
    intro k v d
    by_cases hd : d = c
    · subst hd
      rw [if_pos rfl, List.filter_eq_self]
      intro e he
      exact decide_eq_true (mem_edgesOfVertex_iff.1 he).2.1
    · rw [if_neg hd, List.filter_eq_nil_iff]
      intro e he
      rw [decide_eq_true_eq, (mem_edgesOfVertex_iff.1 he).2.1]
      exact hd
  simp only [edgesOf, edges, edgesIn, List.filter_flatMap, hvertex, Category.flatMap_all_ite,
    List.flatMap_singleton]

end Graph

/-! ## References in records -/

/-- A reference that a slot of a construct's record holds. -/
structure Holding where
  key : Key
  slot : Slot
  ref : Ref
deriving DecidableEq

/-- A side of an edge. -/
inductive Side where
  | forward
  | inverse
deriving DecidableEq

/-- What an edge leaves at each of its ends: the target in the record of the source, and the source
in the record of the target. -/
def Edge.trace (e : Edge) : Side → Holding
  | .forward => ⟨e.source.key, e.category.forward, e.target⟩
  | .inverse => ⟨e.target.key, e.category.inverse, e.source⟩

namespace Graph

variable {g g' : Graph}

/-- The references of a vertex, slot by slot. -/
def holdingsOfVertex (k : Key) (v : Vertex) : List Holding :=
  Slot.all.flatMap fun s => (v.record.refs s).map (Holding.mk k s)

/-- The references that all records hold. -/
def holdings (g : Graph) : List Holding :=
  g.vertices.entries.flatMap fun e => holdingsOfVertex e.1 e.2

theorem mem_holdingsOfVertex_iff {k : Key} {v : Vertex} {x : Holding} :
    x ∈ holdingsOfVertex k v ↔ x.key = k ∧ x.ref ∈ v.record.refs x.slot := by
  obtain ⟨j, s, r⟩ := x
  simp only [holdingsOfVertex, List.mem_flatMap, List.mem_map, Holding.mk.injEq]
  constructor
  · rintro ⟨s', -, r', hr, rfl, rfl, rfl⟩
    exact ⟨rfl, hr⟩
  · rintro ⟨rfl, hr⟩
    exact ⟨s, Slot.mem_all s, r, hr, rfl, rfl, rfl⟩

theorem mem_holdings_iff {x : Holding} : x ∈ g.holdings ↔ x.ref ∈ g.refsAt x.key x.slot := by
  simp only [holdings, List.mem_flatMap, mem_holdingsOfVertex_iff]
  constructor
  · rintro ⟨⟨k, v⟩, hkv, hkey, hr⟩
    rw [hkey, (views_of_mem_entries hkv).2]
    exact hr
  · intro hr
    obtain ⟨r', hr'⟩ := ref?_isSome_of_mem_refsAt hr
    obtain ⟨v, hkv, -⟩ := exists_vertex_of_ref? hr'
    rw [(views_of_mem_entries hkv).2] at hr
    exact ⟨(x.key, v), hkv, rfl, hr⟩

/-! ## Nothing is listed twice -/

/-- What vertices list is listed once if each vertex lists it once and what is listed tells the
vertex. -/
theorem nodup_flatMap_entries {α : Type} {f : Key × Vertex → List α} (key : α → Key)
    (hkey : ∀ e ∈ g.vertices.entries, ∀ x ∈ f e, key x = e.1)
    (hf : ∀ e ∈ g.vertices.entries, (f e).Nodup) : (g.vertices.entries.flatMap f).Nodup := by
  rw [List.nodup_flatMap]
  refine ⟨hf, ?_⟩
  have hkeys : g.vertices.entries.Pairwise fun e e' => e.1 ≠ e'.1 :=
    List.pairwise_map.1 g.vertices.nodup
  refine hkeys.imp_of_mem ?_
  intro e e' he he' hne x hx hx'
  exact hne ((hkey e he x hx).symm.trans (hkey e' he' x hx'))

theorem nodup_holdings (h : ∀ k s, (g.refsAt k s).Nodup) : g.holdings.Nodup := by
  have hslots : Slot.all.Nodup := by decide
  refine nodup_flatMap_entries Holding.key ?_ ?_
  · intro e he x hx
    exact (mem_holdingsOfVertex_iff.1 hx).1
  · intro e he
    rw [holdingsOfVertex, List.nodup_flatMap]
    constructor
    · intro s hs
      rw [← (views_of_mem_entries he).2 s]
      refine (h e.1 s).map fun r r' heq => ?_
      exact (Holding.mk.inj heq).2.2
    · refine hslots.imp fun hne x hx hx' => hne ?_
      obtain ⟨r, -, rfl⟩ := List.mem_map.1 hx
      obtain ⟨r', -, heq⟩ := List.mem_map.1 hx'
      exact (Holding.mk.inj heq).2.1.symm

/-- Edges are listed once: the source of an edge tells the vertex that it was read from. -/
theorem nodup_edges (hbalanced : g.Balanced) (h : ∀ k s, (g.refsAt k s).Nodup) : g.edges.Nodup := by
  refine nodup_flatMap_entries (fun e => e.source.key) ?_ ?_
  · intro e he x hx
    obtain ⟨c, -, hx⟩ := List.mem_flatMap.1 hx
    rw [(mem_edgesOfVertex_iff.1 hx).1]
    exact hbalanced.keyed (views_of_mem_entries he).1
  · intro e he
    rw [List.nodup_flatMap]
    constructor
    · intro c hc
      unfold edgesOfVertex
      split
      · rw [← (views_of_mem_entries he).2]
        refine ((h e.1 c.forward).filter _).map fun t t' heq => ?_
        exact (Edge.mk.inj heq).2.2
      · exact List.nodup_nil
    · refine Category.nodup_all.imp fun hne x hx hx' => hne ?_
      exact (mem_edgesOfVertex_iff.1 hx).2.1.symm.trans (mem_edgesOfVertex_iff.1 hx').2.1

/-! ## What edges leave -/

namespace Balanced

variable {e e' : Edge}

/-- The ends of an edge are vertices of kinds that its category allows. -/
theorem of_mem_edges (h : g.Balanced) (he : e ∈ g.edges) :
    g.ref? e.source.key = some e.source ∧ g.ref? e.target.key = some e.target ∧
      e.source.kind ∈ e.category.sources ∧ e.target.kind ∈ e.category.targets := by
  obtain ⟨k, hk, hmem, hsource, htarget⟩ := mem_edges_iff.1 he
  obtain rfl := h.keyed hk
  exact ⟨hk, h.closed hmem, hsource, htarget⟩

/-- Records hold what edges leave. -/
theorem trace_mem_holdings (h : g.Balanced) (he : e ∈ g.edges) (side : Side) :
    e.trace side ∈ g.holdings := by
  obtain ⟨hs, ht, hsource, htarget⟩ := h.of_mem_edges he
  obtain ⟨k, hk, hmem, -, -⟩ := mem_edges_iff.1 he
  obtain rfl := h.keyed hk
  rw [mem_holdings_iff]
  cases side with
  | forward => exact hmem
  | inverse => exact (h.paired hs ht hsource htarget).1 hmem

/-- **An edge and a side are known from what the edge leaves there.** -/
theorem eq_of_trace_eq (h : g.Balanced) (he : e ∈ g.edges) (he' : e' ∈ g.edges)
    {side side' : Side} (heq : e.trace side = e'.trace side') : e = e' ∧ side = side' := by
  obtain ⟨s, c, t⟩ := e
  obtain ⟨s', c', t'⟩ := e'
  obtain ⟨hs, ht, hsource, htarget⟩ := h.of_mem_edges he
  obtain ⟨hs', ht', hsource', htarget'⟩ := h.of_mem_edges he'
  -- what is left names the record and the slot: kinds tell the sides and then the categories apart
  have kindOf : ∀ {p q : Ref}, p.key = q.key → p.kind = q.kind := congrArg Key.kind
  cases side with
  | forward =>
    cases side' with
    | forward =>
      obtain ⟨hkey, hslot, rfl⟩ := Holding.mk.inj heq
      obtain rfl : s = s' := Option.some.inj (hs.symm.trans (hkey ▸ hs'))
      obtain rfl := Category.eq_of_forward_eq hsource hsource' hslot
      exact ⟨rfl, rfl⟩
    | inverse =>
      obtain ⟨hkey, hslot, -⟩ := Holding.mk.inj heq
      exact absurd hslot (Category.forward_ne_inverse hsource (kindOf hkey ▸ htarget'))
  | inverse =>
    cases side' with
    | forward =>
      obtain ⟨hkey, hslot, -⟩ := Holding.mk.inj heq
      exact absurd hslot.symm (Category.forward_ne_inverse (kindOf hkey ▸ hsource') htarget)
    | inverse =>
      obtain ⟨hkey, hslot, rfl⟩ := Holding.mk.inj heq
      obtain rfl : t = t' := Option.some.inj (ht.symm.trans (hkey ▸ ht'))
      obtain rfl := Category.eq_of_inverse_eq hsource hsource' htarget htarget' hslot
      exact ⟨rfl, rfl⟩

end Balanced

theorem Sound.nodup_refsAt {o : Ownership} (h : g.Sound o) (k : Key) (s : Slot) :
    (g.refsAt k s).Nodup := by
  unfold refsAt
  cases hk : g.record? k with
  | none => exact List.nodup_nil
  | some r => exact (h.distinct hk).refs s

/-- Edges only depend on the two views. -/
theorem mem_edges_congr (href : ∀ k, g'.ref? k = g.ref? k)
    (hrefs : ∀ k s, g'.refsAt k s = g.refsAt k s) {e : Edge} : e ∈ g'.edges ↔ e ∈ g.edges := by
  simp only [mem_edges_iff, href, hrefs]

end Graph

/-! ## The invariant -/

namespace Builder

open Blueprint.Graph

variable {m : Model} {o : Ownership} {b b' : Builder}

@[simp] theorem edgeCount_touch (k : Key) : (b.touch o k).edgeCount = b.edgeCount := by
  unfold touch
  split
  · rfl
  · cases o.owner? k <;> rfl

@[simp] theorem edgeCount_modify (k : Key) (f : Record → Record) :
    (b.modify k f).edgeCount = b.edgeCount := by
  unfold modify
  cases b.graph.vertices.find? k <;> rfl

@[simp] theorem edgeCount_connect (c : Category) (s t : Ref) :
    (b.connect c s t).edgeCount = b.edgeCount + 1 := by
  simp [connect]

/-- A new vertex has no edges. -/
theorem mem_edges_touch (k : Key) {e : Edge} :
    e ∈ (b.touch o k).graph.edges ↔ e ∈ b.graph.edges := by
  have hkeeps := keeps_touch o b k
  simp only [mem_edges_iff, refsAt_touch]
  constructor
  · rintro ⟨j, hj, hmem, hkinds⟩
    -- a vertex that holds something was there before
    obtain ⟨r, hr⟩ := ref?_isSome_of_mem_refsAt hmem
    have hsame : some r = some e.source := (hkeeps.known hr).symm.trans hj
    exact ⟨j, hr.trans hsame, hmem, hkinds⟩
  · rintro ⟨j, hj, hmem, hkinds⟩
    exact ⟨j, hkeeps.known hj, hmem, hkinds⟩

/-- Connecting two vertices of allowed kinds adds one edge. -/
theorem mem_edges_connect {c : Category} {s t : Ref} (hs : b.graph.ref? s.key = some s)
    (ht : b.graph.ref? t.key = some t) (hsource : s.kind ∈ c.sources)
    (htarget : t.kind ∈ c.targets) {e : Edge} :
    e ∈ (b.connect c s t).graph.edges ↔ e ∈ b.graph.edges ∨ e = ⟨s, c, t⟩ := by
  simp only [mem_edges_iff, ref?_connect, mem_refsAt_connect hs ht]
  constructor
  · rintro ⟨k, hk, (hmem | ⟨rfl, hslot, htarget'⟩) | ⟨rfl, hslot, -⟩, hkind, hkind'⟩
    · exact Or.inl ⟨k, hk, hmem, hkind, hkind'⟩
    · have hsource' : e.source = s := Option.some.inj (hk.symm.trans hs)
      have hcategory : e.category = c := Category.eq_of_forward_eq hkind hsource hslot
      obtain ⟨_, _, _⟩ := e
      cases hsource'
      cases hcategory
      cases htarget'
      exact Or.inr rfl
    · -- the other end of the new edge is no forward slot
      exact absurd hslot (Category.forward_ne_inverse hkind htarget)
  · rintro (⟨k, hk, hmem, hkinds⟩ | rfl)
    · exact ⟨k, hk, Or.inl (Or.inl hmem), hkinds⟩
    · exact ⟨s.key, hs, Or.inl (Or.inr ⟨rfl, rfl, rfl⟩), hsource, htarget⟩

/-- Every reference in a record was left by an edge, and the edges have been counted. -/
structure Accounted (o : Ownership) (b : Builder) : Prop where
  balanced : b.graph.Balanced
  sound : b.graph.Sound o
  traced : ∀ x ∈ b.graph.holdings, ∃ e ∈ b.graph.edges, ∃ side, e.trace side = x
  counted : b.graph.edges.length = b.edgeCount

namespace Accounted

theorem nodup_edges (h : b.Accounted o) : b.graph.edges.Nodup :=
  Graph.nodup_edges h.balanced h.sound.nodup_refsAt

theorem empty (o : Ownership) : ({} : Builder).Accounted o where
  balanced := balanced_empty
  sound := sound_empty o
  traced _ hx := absurd hx List.not_mem_nil
  counted := rfl

/-- What leaves references and edges as they are keeps the invariant. -/
theorem of_same (h : b.Accounted o) (hbalanced : b'.graph.Balanced) (hsound : b'.graph.Sound o)
    (hrefs : ∀ k s, b'.graph.refsAt k s = b.graph.refsAt k s)
    (hedges : ∀ e, e ∈ b'.graph.edges ↔ e ∈ b.graph.edges)
    (hcount : b'.edgeCount = b.edgeCount) : b'.Accounted o where
  balanced := hbalanced
  sound := hsound
  traced := by
    intro x hx
    rw [mem_holdings_iff, hrefs, ← mem_holdings_iff] at hx
    obtain ⟨e, he, htrace⟩ := h.traced x hx
    exact ⟨e, (hedges e).2 he, htrace⟩
  counted := by
    have hnodup := Graph.nodup_edges hbalanced hsound.nodup_refsAt
    rw [hcount, ← h.counted]
    -- the lists may differ in order, but have the same members and no repetitions
    exact ((List.perm_ext_iff_of_nodup hnodup h.nodup_edges).2 hedges).length_eq

theorem touch (h : b.Accounted o) (k : Key) : (b.touch o k).Accounted o :=
  h.of_same (balanced_touch h.balanced k) (sound_touch h.sound k) (refsAt_touch k)
    (fun _ => mem_edges_touch k) (edgeCount_touch k)

theorem annotate (h : b.Accounted o) (k : Key) (s : EndpointSlot) (p : EndpointRef) :
    (b.annotate o k s p).Accounted o := by
  have htouched := h.touch k
  obtain ⟨href, hrefs⟩ := annotate_views (o := o) (b := b) k s p
  exact htouched.of_same (htouched.balanced.congr href hrefs) (sound_run h.sound (.annotate k s p))
    hrefs (fun _ => mem_edges_congr href hrefs) (edgeCount_modify k _)

/-- Connecting two vertices writes one edge, which was not there, and counts it. -/
theorem connect (h : b.Accounted o) {c : Category} {s t : Ref}
    (hs : b.graph.ref? s.key = some s) (ht : b.graph.ref? t.key = some t)
    (hsource : s.kind ∈ c.sources) (htarget : t.kind ∈ c.targets)
    (hfree : refuses c (b.graph.refsAt s.key c.forward) t = false) :
    (b.connect c s t).Accounted o := by
  have hbalanced := balanced_connect h.balanced hs ht hsource htarget
  have hsound : (b.connect c s t).graph.Sound o := sound_connect h.sound hfree
  have hedges : ∀ e, e ∈ (b.connect c s t).graph.edges ↔ e ∈ ⟨s, c, t⟩ :: b.graph.edges := by
    intro e
    rw [mem_edges_connect hs ht hsource htarget, List.mem_cons, or_comm]
  refine ⟨hbalanced, hsound, ?_, ?_⟩
  · intro x hx
    rw [mem_holdings_iff, mem_refsAt_connect hs ht] at hx
    obtain ⟨k, slot, r⟩ := x
    rcases hx with (hx | ⟨rfl, rfl, rfl⟩) | ⟨rfl, rfl, rfl⟩
    · obtain ⟨e, he, htrace⟩ := h.traced ⟨k, slot, r⟩ (mem_holdings_iff.2 hx)
      exact ⟨e, (hedges e).2 (List.mem_cons_of_mem _ he), htrace⟩
    · exact ⟨_, (hedges _).2 List.mem_cons_self, .forward, rfl⟩
    · exact ⟨_, (hedges _).2 List.mem_cons_self, .inverse, rfl⟩
  · -- the source would have refused an edge that it had
    have hnew : (⟨s, c, t⟩ : Edge) ∉ b.graph.edges := by
      intro hmem
      obtain ⟨k, hk, hheld, -, -⟩ := mem_edges_iff.1 hmem
      obtain rfl : s.key = k := h.balanced.keyed hk
      have hlast := nodup_of_refuses_eq_false (h.sound.nodup_refsAt s.key c.forward) hfree
      exact (List.nodup_append.1 hlast).2.2 t hheld t (List.mem_singleton_self t) rfl
    -- the new edge may be listed anywhere among the old ones
    have hperm := (List.perm_ext_iff_of_nodup (Graph.nodup_edges hbalanced hsound.nodup_refsAt)
      (List.nodup_cons.2 ⟨hnew, h.nodup_edges⟩)).2 hedges
    rw [hperm.length_eq, List.length_cons, h.counted, edgeCount_connect]

end Accounted

/-- **The step: an instruction that respects kinds keeps the invariant.** -/
theorem accounted_run (h : b.Accounted o) {i : Instruction} (hi : i.Allowed) :
    (b.run o i).Accounted o := by
  cases i with
  | touch k => exact h.touch k
  | annotate k s p => exact h.annotate k s p
  | link c source target =>
    have htouched := (h.touch source).touch target
    show (b.link o c source target).1.Accounted o
    obtain heq | ⟨s, t, hs, ht, hfree, heq⟩ := link_cases o b c source target
    · rw [heq]
      exact htouched
    · obtain rfl := htouched.balanced.keyed hs
      obtain rfl := htouched.balanced.keyed ht
      rw [heq]
      exact htouched.connect hs ht hi.1 hi.2 hfree

theorem accounted_foldl_run (h : b.Accounted o) (is : List Instruction)
    (hall : ∀ i ∈ is, i.Allowed) : (is.foldl (Builder.run o) b).Accounted o :=
  List.foldlRecOn (motive := fun b : Builder => b.Accounted o) is _ h fun _ hb i hi =>
    accounted_run hb (hall i hi)

/-- The run: so do any steps and builds, in any order. -/
theorem accounted_foldl_obey (cs : List Command) (hall : ∀ c ∈ cs, c.Allowed) :
    (cs.foldl (obey m o) {}).Accounted o := by
  refine List.foldlRecOn (motive := fun b : Builder => b.Accounted o) cs _ (.empty o) ?_
  intro b hb c hc
  cases c with
  | step i => exact accounted_run hb (hall _ hc)
  | build => exact accounted_foldl_run hb _ (m.instructions_allowed o)

/-! ## Finished graphs -/

/-- The references in records are what the edges leave at their ends, each once. -/
theorem Accounted.holdings_perm (h : b.Accounted o) :
    b.graph.holdings.Perm (b.graph.edges.map (fun e => e.trace .forward) ++
      b.graph.edges.map fun e => e.trace .inverse) := by
  have hinjective : ∀ side, (b.graph.edges.map fun e => e.trace side).Nodup := by
    intro side
    refine List.Nodup.map_on ?_ h.nodup_edges
    intro e he e' he' heq
    exact (h.balanced.eq_of_trace_eq he he' heq).1
  have hdisjoint : ∀ x ∈ b.graph.edges.map (fun e => e.trace .forward),
      ∀ y ∈ b.graph.edges.map (fun e => e.trace .inverse), x ≠ y := by
    intro x hx y hy heq
    obtain ⟨e, he, rfl⟩ := List.mem_map.1 hx
    obtain ⟨e', he', rfl⟩ := List.mem_map.1 hy
    exact nomatch (h.balanced.eq_of_trace_eq he he' heq).2
  refine (List.perm_ext_iff_of_nodup (nodup_holdings h.sound.nodup_refsAt)
    (List.nodup_append.2 ⟨hinjective _, hinjective _, hdisjoint⟩)).2 fun x => ?_
  rw [List.mem_append, List.mem_map, List.mem_map]
  constructor
  · intro hx
    obtain ⟨e, he, side, htrace⟩ := h.traced x hx
    cases side with
    | forward => exact Or.inl ⟨e, he, htrace⟩
    | inverse => exact Or.inr ⟨e, he, htrace⟩
  · rintro (⟨e, he, rfl⟩ | ⟨e, he, rfl⟩)
    · exact h.balanced.trace_mem_holdings he .forward
    · exact h.balanced.trace_mem_holdings he .inverse

/-- **Every edge is listed once and counted once, and every reference is one end of one edge.**
Whatever steps and builds are asked of an empty builder, as long as links respect kinds, its graph
can be finished. No edge is listed twice, there are as many edges as the builder counted and noted,
and the edges of a category are those among all edges. Every reference in a record stands there once
and is what exactly one edge left on exactly one side; so the references are, in some order, what
the edges leave on their forward sides and what they leave on their inverse sides. -/
theorem commands_accounted (m : Model) (o : Ownership) (cs : List Command)
    (h : ∀ c ∈ cs, c.Allowed) :
    ∃ g, (cs.foldl (obey m o) {}).finish = .ok g ∧
      g.edges.Nodup ∧ g.edges.length = (cs.foldl (obey m o) {}).edgeCount ∧
      (cs.foldl (obey m o) {}).builtNote = .info (s!"Built relationship graph: " ++
        s!"{g.vertices.size} record(s), {g.edges.length} edge(s)") ∧
      (∀ c, g.edgesOf c = g.edges.filter fun e => e.category = c) ∧
      g.holdings.Nodup ∧ (∀ x, x ∈ g.holdings ↔ x.ref ∈ g.refsAt x.key x.slot) ∧
      (∀ x ∈ g.holdings, ∃! p : Edge × Side, p.1 ∈ g.edges ∧ p.1.trace p.2 = x) ∧
      g.holdings.Perm
        (g.edges.map (fun e => e.trace .forward) ++ g.edges.map fun e => e.trace .inverse) := by
  obtain ⟨-, hstrays⟩ :=
    balanced_foldl_obey (m := m) (o := o) (b := {}) cs Graph.balanced_empty rfl h
  have haccounted := accounted_foldl_obey (m := m) (o := o) cs h
  generalize cs.foldl (obey m o) {} = b at hstrays haccounted ⊢
  refine ⟨b.graph, finish_of_strays_eq_empty hstrays, haccounted.nodup_edges, haccounted.counted,
    ?_, edgesOf_eq_filter b.graph, nodup_holdings haccounted.sound.nodup_refsAt,
    fun _ => mem_holdings_iff, ?_, haccounted.holdings_perm⟩
  · rw [builtNote, haccounted.counted]
    rfl
  · intro x hx
    obtain ⟨e, he, side, htrace⟩ := haccounted.traced x hx
    refine ⟨(e, side), ⟨he, htrace⟩, ?_⟩
    rintro ⟨e', side'⟩ ⟨he', htrace'⟩
    obtain ⟨rfl, rfl⟩ :=
      haccounted.balanced.eq_of_trace_eq he' he (htrace'.trans htrace.symm)
    rfl

/-- The rule that governs the order, the state that governs it and the order that extends itself:
five edges and ten references, in slots that two categories share. -/
theorem commands_accounted_order :
    (∀ c ∈ orderCommands, c.Allowed) ∧
      ∃ g, (orderCommands.foldl (obey orderModel orderOwners) {}).finish = .ok g ∧
        g.edges.Nodup ∧ g.edges.length = 5 ∧ g.holdings.length = 10 ∧
        ∀ x ∈ g.holdings, ∃! p : Edge × Side, p.1 ∈ g.edges ∧ p.1.trace p.2 = x := by
  have hallowed : ∀ c ∈ orderCommands, c.Allowed := by
    simp [orderCommands, Command.Allowed, Instruction.Allowed, Category.sources, Category.targets]
  have hcount : (orderCommands.foldl (obey orderModel orderOwners) {}).edgeCount = 5 := by
    decide +kernel
  obtain ⟨g, hfinish, hnodup, hlength, -, -, -, -, hunique, hperm⟩ :=
    commands_accounted orderModel orderOwners orderCommands hallowed
  rw [hcount] at hlength
  refine ⟨hallowed, g, hfinish, hnodup, hlength, ?_, hunique⟩
  rw [hperm.length_eq, List.length_append, List.length_map, List.length_map, hlength]

end Builder

end Blueprint
