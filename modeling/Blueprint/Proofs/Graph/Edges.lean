import Blueprint.Proofs.Graph.Integrity

/-!
# What a link leaves behind

The declarations of a model are turned into instructions, and an instruction to link two constructs
may come long before the graph is finished. What it writes stays: no later instruction takes a
reference out of a slot. So whoever can name the instruction knows the edge.

- `Builder.Keeps`: a builder still has everything that another one had.
- `Builder.keeps_run`, `Builder.keeps_foldl_run`: an instruction keeps everything, and so does any
  number of them.
- `Builder.holds_link`: after a link, the source holds its target, whether or not it did before.
- `Model.mem_edges_of_link`: the edge of an instruction between two constructs with an owner.
-/

namespace Blueprint

namespace Builder

variable {o : Ownership} {b b₁ b' : Builder}

/-! ## Nothing is forgotten -/

/-- A builder has the references and holds whatever another one has and holds. -/
structure Keeps (b b' : Builder) : Prop where
  known : ∀ {k r}, b.graph.ref? k = some r → b'.graph.ref? k = some r
  held : ∀ {k s r}, r ∈ b.graph.refsAt k s → r ∈ b'.graph.refsAt k s

namespace Keeps

theorem refl (b : Builder) : b.Keeps b := ⟨id, id⟩

theorem trans (h : b.Keeps b₁) (h' : b₁.Keeps b') : b.Keeps b' :=
  ⟨fun hk => h'.known (h.known hk), fun hr => h'.held (h.held hr)⟩

end Keeps

theorem keeps_touch (o : Ownership) (b : Builder) (k : Key) : b.Keeps (b.touch o k) where
  known := by
    intro j r hj
    rw [ref?_touch]
    split
    · next heq =>
      rw [← heq, hj]
      rfl
    · exact hj
  held hr := by rwa [refsAt_touch]

/-- Connecting two vertices only adds. -/
theorem keeps_connect {c : Category} {s t s' t' : Ref} (hs : b.graph.ref? s.key = some s')
    (ht : b.graph.ref? t.key = some t') : b.Keeps (b.connect c s t) where
  known hk := by rwa [ref?_connect]
  held hr := (mem_refsAt_connect hs ht).2 (Or.inl (Or.inl hr))

/-- A link keeps what there is when its ends have been touched. -/
theorem keeps_link (h : b.graph.Sound o) (c : Category) (source target : Key) :
    ((b.touch o source).touch o target).Keeps (b.link o c source target).1 := by
  have hsound := sound_touch (sound_touch h source) target
  obtain heq | ⟨s, t, hs, ht, -, heq⟩ := link_cases o b c source target
  · rw [heq]
    exact .refl _
  · rw [heq]
    -- both ends are filed under their own keys
    obtain rfl := key_of_refOf (hsound.owned hs)
    obtain rfl := key_of_refOf (hsound.owned ht)
    exact keeps_connect hs ht

/-- **The step: an instruction keeps everything.** -/
theorem keeps_run (h : b.graph.Sound o) (i : Instruction) : b.Keeps (b.run o i) := by
  cases i with
  | touch k => exact keeps_touch o b k
  | link c source target =>
    have htouched := (keeps_touch o b source).trans (keeps_touch o (b.touch o source) target)
    exact htouched.trans (keeps_link h c source target)
  | annotate k s e =>
    obtain ⟨hknown, hheld⟩ := annotate_views (o := o) (b := b) k s e
    have hannotated : (b.touch o k).Keeps (b.annotate o k s e) :=
      ⟨fun hr => (hknown _).trans hr, fun hr => (hheld _ _).symm ▸ hr⟩
    exact (keeps_touch o b k).trans hannotated

/-- The run: so does any number of instructions. -/
theorem keeps_foldl_run (is : List Instruction) :
    ∀ {b : Builder}, b.graph.Sound o → b.Keeps (is.foldl (Builder.run o) b) := by
  induction is with
  | nil => exact fun _ => .refl _
  | cons i rest ih => exact fun h => (keeps_run h i).trans (ih (sound_run h i))

/-! ## Links -/

/-- A construct with an owner has its reference once it is touched. -/
theorem ref?_touch_self (h : b.graph.Sound o) {k : Key} {r : Ref} (hr : refOf o k = some r) :
    (b.touch o k).graph.ref? k = some r := by
  rw [ref?_touch, if_pos rfl]
  cases hk : b.graph.ref? k with
  | none => exact hr
  | some r' => exact (h.owned hk).symm.trans hr

/-- **After a link the source holds its target**, unless it can hold one target only. -/
theorem holds_link (h : b.graph.Sound o) {c : Category} (hsingle : c.isSingle = false)
    {source target : Key} {s t : Ref} (hs : refOf o source = some s)
    (ht : refOf o target = some t) :
    (b.link o c source target).1.graph.ref? source = some s ∧
      t ∈ (b.link o c source target).1.graph.refsAt source c.forward := by
  have hsource := (keeps_touch o _ target).known (ref?_touch_self h hs)
  have htarget := ref?_touch_self (sound_touch h source) ht
  have hopen : ((b.touch o source).touch o target).isBlocked c source = false := by
    rw [isBlocked, hsingle, Bool.false_and]
  simp only [link, hsource, htarget, hopen, Bool.false_or]
  cases hheld : refuses c
    (((b.touch o source).touch o target).graph.refsAt source c.forward) t with
  | true =>
    -- the edge is there already
    rw [refuses, hsingle, if_neg Bool.false_ne_true] at hheld
    exact ⟨hsource, List.contains_iff_mem.1 hheld⟩
  | false =>
    obtain rfl := key_of_refOf hs
    obtain rfl := key_of_refOf ht
    refine ⟨(ref?_connect ..).trans hsource, ?_⟩
    exact (mem_refsAt_connect hsource htarget).2 (Or.inl (Or.inr ⟨rfl, rfl, rfl⟩))

end Builder

namespace Model

open Builder

/-- **An instruction to link two constructs with an owner is an edge of the graph.** -/
theorem mem_edges_of_link {m : Model} {o : Ownership} {c : Category} {source target : Key}
    (h : .link c source target ∈ m.instructions o) (hsingle : c.isSingle = false) {a b : String}
    (hs : o.owner? source = some a) (ht : o.owner? target = some b) :
    ⟨⟨a, source.kind, source.name⟩, c, ⟨b, target.kind, target.name⟩⟩ ∈
      (m.buildGraph o).edges := by
  have hallowed : (Instruction.link c source target).Allowed := m.instructions_allowed o _ h
  obtain ⟨before, later, hsplit⟩ := List.append_of_mem h
  have hsound := sound_foldl_run (o := o) (b := {}) (Graph.sound_empty o) before
  have hs' : refOf o source = some ⟨a, source.kind, source.name⟩ := by
    rw [refOf, hs]
    rfl
  have ht' : refOf o target = some ⟨b, target.kind, target.name⟩ := by
    rw [refOf, ht]
    rfl
  obtain ⟨hknown, hheld⟩ := holds_link hsound hsingle hs' ht'
  -- what comes after the instruction keeps what it wrote
  have hkeeps := keeps_foldl_run later (sound_run hsound (.link c source target))
  have hgraph : (m.buildGraph o).edges = ((later.foldl (Builder.run o)
      ((before.foldl (Builder.run o) {}).run o (.link c source target))).graph).edges := by
    rw [buildGraph, build, hsplit, List.foldl_append, List.foldl_cons]
  rw [hgraph, Graph.mem_edges_iff]
  exact ⟨source, hkeeps.known hknown, hkeeps.held hheld, hallowed.1, hallowed.2⟩

end Model

end Blueprint
