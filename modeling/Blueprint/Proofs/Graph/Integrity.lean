import Blueprint.Proofs.Graph.Symmetry
import Blueprint.Proofs.Ownership.Totality

/-!
# Referential integrity of graphs

Every instruction makes the records it needs, and most of them name constructs that nobody has
looked up before. Still there is a record for each construct of a model and for nothing else,
because only constructs with an owner get one and all of these are touched first.

- `Record.Distinct`, `Graph.Sound`: the invariant. References name the owner of their construct, and
  no slot holds anything twice.
- `Builder.sound_run`: every instruction keeps the invariant.
- `Builder.Full`, `Builder.keys_foldl_run_of_full`: when every construct with an owner has a record,
  no instruction makes another one.
- `Document.full_touched`: this is so once all constructs have been touched.
- `Document.graph_integrity`: what holds of the graph of a document.
-/

namespace Blueprint

/-! ## Nothing twice -/

theorem nodup_addNew {α : Type} [DecidableEq α] {xs : List α} (h : xs.Nodup) (x : α) :
    (addNew xs x).Nodup := by
  by_cases hx : x ∈ xs
  · rwa [addNew, if_pos hx]
  · rw [addNew, if_neg hx, List.nodup_append]
    refine ⟨h, List.pairwise_singleton _ x, ?_⟩
    intro y hy z hz heq
    exact hx (List.mem_singleton.1 hz ▸ heq ▸ hy)

/-- What a slot takes is not in it. -/
theorem Builder.nodup_of_refuses_eq_false {c : Category} {held : List Ref} {t : Ref}
    (h : held.Nodup) (hfree : refuses c held t = false) : (held ++ [t]).Nodup := by
  have hnew : t ∉ held := by
    intro ht
    unfold refuses at hfree
    split at hfree
    · -- a slot for one reference takes it only while it is empty
      cases held with
      | nil => exact absurd ht List.not_mem_nil
      | cons => cases hfree
    · rw [List.contains_iff_mem.2 ht] at hfree
      cases hfree
  have hadd := nodup_addNew h t
  rwa [addNew, if_neg hnew] at hadd

namespace Record

/-- No slot holds anything twice. -/
structure Distinct (r : Record) : Prop where
  refs : ∀ s, (r.refs s).Nodup
  endpoints : ∀ s, (r.endpoints s).Nodup

theorem distinct_empty : Distinct {} where
  refs _ := List.nodup_nil
  endpoints _ := List.nodup_nil

variable {r : Record}

theorem Distinct.setRefs (h : r.Distinct) {refs : List Ref} (hrefs : refs.Nodup) (s : Slot) :
    (r.setRefs s refs).Distinct where
  refs t := by
    by_cases ht : t = s
    · rwa [ht, refs_setRefs_self]
    · rw [refs_setRefs_of_ne r refs ht]
      exact h.refs t
  endpoints := h.endpoints

theorem Distinct.addEndpoint (h : r.Distinct) (s : EndpointSlot) (e : EndpointRef) :
    (r.addEndpoint s e).Distinct where
  refs := h.refs
  endpoints t := by
    show (if t = s then addNew (r.endpoints s) e else r.endpoints t).Nodup
    split
    · exact nodup_addNew (h.endpoints s) e
    · exact h.endpoints t

end Record

/-! ## The invariant -/

namespace Graph

/-- References name the owner of their construct, and no slot holds anything twice. -/
structure Sound (o : Ownership) (g : Graph) : Prop where
  owned : ∀ {k r}, g.ref? k = some r → Builder.refOf o k = some r
  distinct : ∀ {k r}, g.record? k = some r → r.Distinct

/-- The constructs with a record are those with a reference. -/
theorem mem_keys_iff {g : Graph} {k : Key} :
    k ∈ g.vertices.keys ↔ ∃ r, g.ref? k = some r := by
  rw [← Table.contains_iff, Table.contains, ← Option.isSome_iff_exists, ref?, Option.isSome_map]

theorem sound_empty (o : Ownership) : ({} : Graph).Sound o where
  owned h := by cases h
  distinct h := by cases h

end Graph

namespace Builder

variable {o : Ownership} {b : Builder} {k : Key}

/-- The record of a construct that is touched is the old one, or new and empty. -/
theorem record?_touch {j : Key} {r : Record} (h : (b.touch o k).graph.record? j = some r) :
    b.graph.record? j = some r ∨ r = {} := by
  unfold touch at h
  split at h
  · exact Or.inl h
  · split at h
    · exact Or.inl h
    · rw [Graph.record?, Table.find?_insert] at h
      split at h
      · exact Or.inr (Option.some.inj h).symm
      · exact Or.inl h

theorem record?_modify (k j : Key) (f : Record → Record) :
    (b.modify k f).graph.record? j =
      if j = k then (b.graph.record? k).map f else b.graph.record? j := by
  unfold modify
  cases hv : b.graph.vertices.find? k with
  | none => by_cases hj : j = k <;> simp [Graph.record?, hj, hv]
  | some v => by_cases hj : j = k <;> simp [Graph.record?, Table.find?_insert, hj, hv]

theorem sound_touch (h : b.graph.Sound o) (k : Key) : (b.touch o k).graph.Sound o where
  owned := by
    intro j r hj
    rw [ref?_touch] at hj
    split at hj
    · next hjk =>
      subst hjk
      -- an old reference stays, and a new one is made from the owner
      rcases Option.or_eq_some_iff.1 hj with hj | ⟨-, hj⟩
      · exact h.owned hj
      · exact hj
    · exact h.owned hj
  distinct hr := by
    rcases record?_touch hr with hr | rfl
    · exact h.distinct hr
    · exact Record.distinct_empty

theorem sound_modify (h : b.graph.Sound o) {f : Record → Record}
    (hf : ∀ r, b.graph.record? k = some r → r.Distinct → (f r).Distinct) :
    (b.modify k f).graph.Sound o where
  owned hj := h.owned (ref?_modify .. ▸ hj)
  distinct := by
    intro j r hr
    rw [record?_modify] at hr
    split at hr
    · obtain ⟨r', hr', rfl⟩ := Option.map_eq_some_iff.1 hr
      exact hf r' hr' (h.distinct hr')
    · exact h.distinct hr

/-- Connecting adds a target to a slot that does not refuse it, and a source where it is new. -/
theorem sound_connect (h : b.graph.Sound o) {c : Category} {s t : Ref}
    (hfree : refuses c (b.graph.refsAt s.key c.forward) t = false) :
    (b.connect c s t).graph.Sound o := by
  have hforward : (b.modify s.key fun r =>
      r.setRefs c.forward (r.refs c.forward ++ [t])).graph.Sound o := by
    refine sound_modify h fun r hr hdistinct => hdistinct.setRefs ?_ c.forward
    have hheld : b.graph.refsAt s.key c.forward = r.refs c.forward := by
      rw [Graph.refsAt, hr]
      rfl
    exact nodup_of_refuses_eq_false (hdistinct.refs c.forward) (hheld ▸ hfree)
  -- the second change starts from what the first one left, even when both ends are one construct
  exact sound_modify hforward fun r _ hdistinct =>
    hdistinct.setRefs (nodup_addNew (hdistinct.refs c.inverse) s) c.inverse

/-- **The step: every instruction keeps the invariant.** -/
theorem sound_run (h : b.graph.Sound o) (i : Instruction) : (b.run o i).graph.Sound o := by
  cases i with
  | touch k => exact sound_touch h k
  | link c source target =>
    have htouched := sound_touch (sound_touch h source) target
    show (b.link o c source target).1.graph.Sound o
    obtain heq | ⟨s, t, hs, -, hfree, heq⟩ := link_cases o b c source target
    · rw [heq]
      exact htouched
    · rw [heq]
      have hkey : s.key = source := key_of_refOf (htouched.owned hs)
      exact sound_connect htouched (hkey ▸ hfree)
  | annotate k s e => exact sound_modify (sound_touch h k) fun r _ hr => hr.addEndpoint s e

/-- The run: so do any number of them. -/
theorem sound_foldl_run (h : b.graph.Sound o) (is : List Instruction) :
    (is.foldl (Builder.run o) b).graph.Sound o :=
  List.foldlRecOn (motive := fun b : Builder => b.graph.Sound o) is _ h fun _ hb i _ =>
    sound_run hb i

/-! ## No further records -/

theorem keys_touch (k : Key) :
    (b.touch o k).graph.vertices.keys =
      if k ∈ b.graph.vertices.keys ∨ o.owner? k = none then b.graph.vertices.keys
      else b.graph.vertices.keys ++ [k] := by
  by_cases hk : k ∈ b.graph.vertices.keys
  · rw [touch, if_pos (Table.contains_iff.2 hk), if_pos (Or.inl hk)]
  · rw [touch, if_neg (mt Table.contains_iff.1 hk)]
    cases o.owner? k with
    | none => simp
    | some c => simp [Table.insert, Table.keys_upsert, hk]

@[simp] theorem keys_modify (k : Key) (f : Record → Record) :
    (b.modify k f).graph.vertices.keys = b.graph.vertices.keys := by
  unfold modify
  cases hv : b.graph.vertices.find? k with
  | none => rfl
  | some v =>
    have hk : k ∈ b.graph.vertices.keys := Table.mem_keys_iff.2 ⟨v, hv⟩
    show (b.graph.vertices.upsert k _).keys = _
    rw [Table.keys_upsert, if_pos hk]

@[simp] theorem keys_connect (c : Category) (s t : Ref) :
    (b.connect c s t).graph.vertices.keys = b.graph.vertices.keys := by
  simp [connect]

/-- Every construct with an owner has a record. -/
def Full (o : Ownership) (b : Builder) : Prop :=
  ∀ k c, o.owner? k = some c → k ∈ b.graph.vertices.keys

theorem keys_touch_of_full (h : b.Full o) (k : Key) :
    (b.touch o k).graph.vertices.keys = b.graph.vertices.keys := by
  rw [keys_touch]
  refine if_pos ?_
  cases hk : o.owner? k with
  | none => exact Or.inr rfl
  | some c => exact Or.inl (h k c hk)

theorem Full.touch (h : b.Full o) (k : Key) : (b.touch o k).Full o := by
  intro j c hj
  rw [keys_touch_of_full h]
  exact h j c hj

/-- **The step: no instruction makes a further record.** -/
theorem keys_run_of_full (h : b.Full o) (i : Instruction) :
    (b.run o i).graph.vertices.keys = b.graph.vertices.keys := by
  cases i with
  | touch k => exact keys_touch_of_full h k
  | link c source target =>
    have htouched : ((b.touch o source).touch o target).graph.vertices.keys =
        b.graph.vertices.keys := by
      rw [keys_touch_of_full (h.touch source), keys_touch_of_full h]
    show (b.link o c source target).1.graph.vertices.keys = _
    obtain heq | ⟨s, t, -, -, -, heq⟩ := link_cases o b c source target
    · rw [heq, htouched]
    · rw [heq, keys_connect, htouched]
  | annotate k s e =>
    show ((b.touch o k).modify k _).graph.vertices.keys = _
    rw [keys_modify, keys_touch_of_full h]

/-- The run: no number of instructions does. -/
theorem keys_foldl_run_of_full (is : List Instruction) :
    ∀ {b : Builder}, b.Full o →
      (is.foldl (Builder.run o) b).graph.vertices.keys = b.graph.vertices.keys := by
  induction is with
  | nil => exact fun _ => rfl
  | cons i rest ih =>
    intro b h
    have hstep := keys_run_of_full h i
    -- no key is new, so every owned construct still has its record
    have hfull : (b.run o i).Full o := fun k c hk => hstep ▸ h k c hk
    rw [List.foldl_cons, ih hfull, hstep]

/-- Constructs with an owner that are touched get their records in order. -/
theorem keys_foldl_touch {ks : List Key} (h : ∀ k ∈ ks, o.owner? k ≠ none) (b : Builder) :
    ((ks.map Instruction.touch).foldl (Builder.run o) b).graph.vertices.keys =
      ks.foldl (fun acc k => if k ∈ acc then acc else acc ++ [k]) b.graph.vertices.keys := by
  induction ks generalizing b with
  | nil => rfl
  | cons k rest ih =>
    rw [List.forall_mem_cons] at h
    rw [List.map_cons, List.foldl_cons, ih h.2]
    show rest.foldl _ (b.touch o k).graph.vertices.keys = _
    rw [keys_touch, List.foldl_cons]
    simp [h.1]

end Builder

/-! ## Documents -/

namespace Document

open Builder

/-- The owners of the constructs of a document. -/
def owners (d : Document) : Ownership := d.collect.assignOwners

/-- The relationships between the constructs of a document. -/
def graph (d : Document) : Graph := d.collect.buildGraph d.owners

/-- The builder when all constructs have been touched. -/
def touched (d : Document) : Builder :=
  (d.owners.ownable.map Instruction.touch).foldl (Builder.run d.owners) {}

theorem graph_eq (d : Document) :
    d.graph = ((d.collect.instructions d.owners).foldl (Builder.run d.owners) {}).graph := rfl

variable {d : Document} {k : Key}

theorem keys_touched (h : d.collect.components ≠ []) :
    d.touched.graph.vertices.keys = d.collect.keys.eraseDups := by
  have howned : ∀ k ∈ d.owners.ownable, d.owners.owner? k ≠ none := by
    intro k hk
    obtain ⟨c, hc⟩ := Ownership.exists_owner?_iff.2 (Model.mem_assignments_of_mem_keys h hk)
    exact Option.ne_none_iff_exists'.2 ⟨c, hc⟩
  rw [touched, keys_foldl_touch howned]
  exact Table.foldl_append_new_nil d.owners.ownable

/-- When all constructs have been touched, every construct with an owner has a record. -/
theorem full_touched (d : Document) : d.touched.Full d.owners := by
  intro k c hk
  have hmem : k ∈ d.collect.keys :=
    Model.mem_keys_of_mem_assignments d.nests_collect (Ownership.exists_owner?_iff.1 ⟨c, hk⟩)
  by_cases hcomponents : d.collect.components = []
  · -- nothing has an owner then
    rw [owners, Model.owner?_eq_none hcomponents] at hk
    cases hk
  · rw [keys_touched hcomponents, List.mem_eraseDups]
    exact hmem

/-- Whatever is done after that makes no further record. -/
theorem keys_foldl_run_of_touched {is : List Instruction}
    (h : d.owners.ownable.map Instruction.touch <+: is) :
    (is.foldl (Builder.run d.owners) {}).graph.vertices.keys = d.touched.graph.vertices.keys := by
  obtain ⟨rest, rfl⟩ := h
  rw [List.foldl_append]
  exact keys_foldl_run_of_full rest d.full_touched

theorem keys_graph (d : Document) : d.graph.vertices.keys = d.touched.graph.vertices.keys := by
  have hfirst : d.owners.ownable.map Instruction.touch <+: d.collect.instructions d.owners := by
    simp only [Model.instructions, List.append_assoc]
    exact List.prefix_append _ _
  rw [graph_eq, keys_foldl_run_of_touched hfirst]

theorem keys_graph_of_no_components (h : d.collect.components = []) :
    d.graph.vertices.keys = [] := by
  have hfull : ({} : Builder).Full d.owners := by
    intro k c hk
    rw [owners, Model.owner?_eq_none h] at hk
    cases hk
  rw [graph_eq, keys_foldl_run_of_full _ hfull]
  rfl

/-- **Referential integrity.** The graph of a document can be finished. In a document with
components, its records are those of the constructs that can be owned, in order; otherwise there are
none. All of them are there once these constructs have been touched, whatever is done next. The
reference of a construct names its owner, its kind and its name. Every reference in any slot of a
record is that of a construct with a record, and no slot holds a reference or an endpoint twice. -/
theorem graph_integrity (d : Document) :
    (build d.collect d.owners {}).finish = .ok d.graph ∧
    (d.collect.components ≠ [] → d.graph.vertices.keys = d.owners.ownable.eraseDups) ∧
    (d.collect.components = [] → d.graph.vertices.keys = []) ∧
    (∀ is, d.owners.ownable.map Instruction.touch <+: is →
      (is.foldl (Builder.run d.owners) {}).graph.vertices.keys = d.graph.vertices.keys) ∧
    (∀ k ∈ d.graph.vertices.keys, ∃ c, d.owners.owner? k = some c ∧
      d.graph.ref? k = some ⟨c, k.kind, k.name⟩) ∧
    ∀ k r, d.graph.record? k = some r →
      (∀ s, ∀ t ∈ r.refs s, t.key ∈ d.graph.vertices.keys ∧ d.graph.ref? t.key = some t) ∧
      (∀ s, (r.refs s).Nodup) ∧ ∀ s, (r.endpoints s).Nodup := by
  have hsound : d.graph.Sound d.owners := sound_foldl_run (Graph.sound_empty _) _
  have hbalanced : d.graph.Balanced := balanced_build Graph.balanced_empty
  refine ⟨finish_of_strays_eq_empty (strays_foldl_run _ _), fun h => ?_,
    keys_graph_of_no_components, fun is h => ?_, fun k hk => ?_, fun k r hr => ⟨?_, ?_, ?_⟩⟩
  · rw [keys_graph, keys_touched h]
    rfl
  · rw [keys_foldl_run_of_touched h, keys_graph]
  · obtain ⟨r, hr⟩ := Graph.mem_keys_iff.1 hk
    obtain ⟨c, hc, rfl⟩ := Option.map_eq_some_iff.1 (hsound.owned hr)
    exact ⟨c, hc, hr⟩
  · intro s t ht
    have hheld : t ∈ d.graph.refsAt k s := by
      rw [Graph.refsAt, hr]
      exact ht
    -- references are those of vertices as long as links respect kinds, and those of a model do
    have hknown := hbalanced.closed hheld
    exact ⟨Graph.mem_keys_iff.2 ⟨t, hknown⟩, hknown⟩
  · exact (hsound.distinct hr).refs
  · exact (hsound.distinct hr).endpoints

/-- A lot that has two bidders, extends itself and mentions a type that is not there; it is declared
twice, once outside of the only component. -/
def auction : Document where
  body :=
    let lot : Item := .construct (.entity {
      loc := none, name := "Lot", parent := some "Lot", interfaces := [], decorators := []
      fields := ["first", "second"].map (fun n => ⟨none, n, .reference none "Bidder", []⟩) ++
        [⟨none, "ghost", .reference none "Nobody", []⟩] })
    [ .component ⟨none, "House", none, [], []⟩
        [lot, .construct (.entity ⟨none, "Bidder", none, [], [], []⟩)], lot ]

/-- The lot has one record, which refers to bidders once. -/
theorem auction_graph_integrity :
    auction.collect.components ≠ [] ∧
      auction.owners.ownable = [⟨.entity, "Lot"⟩, ⟨.entity, "Bidder"⟩, ⟨.entity, "Lot"⟩,
        ⟨.component, "House"⟩] ∧
      auction.graph.vertices.keys = auction.owners.ownable.eraseDups ∧
      ∃ r, auction.graph.record? ⟨.entity, "Lot"⟩ = some r ∧
        r.refs .referencesTypes = [⟨"House", .entity, "Bidder"⟩] ∧
        (∀ s, ∀ t ∈ r.refs s,
          t.key ∈ auction.graph.vertices.keys ∧ auction.graph.ref? t.key = some t) ∧
        ∀ s, (r.refs s).Nodup := by
  have hcomponents : auction.collect.components ≠ [] :=
    List.ne_nil_of_length_pos (by decide +kernel)
  have hrefs : (auction.graph.record? ⟨.entity, "Lot"⟩).map (fun r => r.refs .referencesTypes) =
      some [⟨"House", .entity, "Bidder"⟩] := by decide +kernel
  obtain ⟨r, hr, hbidder⟩ := Option.map_eq_some_iff.1 hrefs
  obtain ⟨-, hkeys, -, -, -, hrecords⟩ := graph_integrity auction
  obtain ⟨hknown, hdistinct, -⟩ := hrecords _ r hr
  exact ⟨hcomponents, by decide +kernel, hkeys hcomponents, r, hr, hbidder, hknown, hdistinct⟩

end Document

end Blueprint
