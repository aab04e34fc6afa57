import Mathlib.Data.List.Nodup
import Mathlib.Data.List.Perm.Subperm
import Blueprint.Proofs.Graph.Integrity
import Blueprint.Proofs.Json.Members
import Blueprint.Proofs.Text.Trimming

/-!
# Graphs as JSON values tell everything

A graph is written with a member for each construct, under its key as text, and without the slots
that hold nothing. Objects are compared without regard to the order of their members, so this order
is lost. Nothing else is.

- `Json.same`: values with the same members, in whatever order.
- `Key.text_injective`: different keys have different texts, whatever is in the names.
- `Record.Narrow`, `Builder.narrow_run`: the invariant. A slot for one reference holds at most one.
- `Vertex.eq_of_same`: the owner and the record of a construct from what is written of it.
- `Model.buildGraph_dump_lossless`: the same for the graphs of models.
-/

namespace Blueprint

/-! ## Values in whatever order of members -/

namespace Json

mutual

/-- Whether two values are equal when objects are compared by the values of their members. -/
def same : Json → Json → Bool
  | null, null => true
  | bool a, bool b => a = b
  | int a, int b => a = b
  | float a, float b => a = b
  | str a, str b => a = b
  | arr vs, arr ws => sameItems vs ws
  | obj ms, obj ns => ms.length = ns.length && sameMembers ms ns
  | _, _ => false

/-- Whether two lists are equal element by element. -/
def sameItems : List Json → List Json → Bool
  | [], [] => true
  | v :: vs, w :: ws => same v w && sameItems vs ws
  | _, _ => false

/-- Whether the members of the first list have the same values in the second. -/
def sameMembers : List (String × Json) → List (String × Json) → Bool
  | [], _ => true
  | (k, v) :: ms, ns =>
    (match memberOf? k ns with
      | some w => same v w
      | none => false) && sameMembers ms ns

end

variable {k : String} {v : Json} {ms ns : List (String × Json)}

/-- Of members that are written under some condition, each is found when it is written. -/
theorem memberOf?_map_filter {α : Type} {xs : List α} {name : α → String}
    (hname : (xs.map name).Nodup) (p : α → Bool) (f : α → Json) {a : α} (ha : a ∈ xs) :
    memberOf? (name a) ((xs.filter p).map fun x => (name x, f x)) =
      if p a = true then some (f a) else none := by
  have hnodup : (((xs.filter p).map fun x => (name x, f x)).map Prod.fst).Nodup := by
    rw [List.map_map]
    exact hname.sublist (List.filter_sublist.map _)
  split
  · next hp =>
    rw [memberOf?_eq_some_iff hnodup]
    exact List.mem_map.2 ⟨a, List.mem_filter.2 ⟨ha, hp⟩, rfl⟩
  · next hp =>
    rw [memberOf?_eq_none_iff, List.map_map]
    intro hmem
    obtain ⟨b, hb, heq⟩ := List.mem_map.1 hmem
    obtain ⟨hb, hpb⟩ := List.mem_filter.1 hb
    exact hp (List.inj_on_of_nodup_map hname hb ha heq ▸ hpb)

theorem exists_of_sameMembers (h : sameMembers ms ns = true) (hv : (k, v) ∈ ms) :
    ∃ w, memberOf? k ns = some w ∧ same v w = true := by
  induction ms with
  | nil => exact absurd hv List.not_mem_nil
  | cons m ms ih =>
    obtain ⟨j, u⟩ := m
    rw [sameMembers, Bool.and_eq_true] at h
    rcases List.mem_cons.1 hv with hv | hv
    · obtain ⟨rfl, rfl⟩ := Prod.mk.inj hv
      cases hw : memberOf? k ns with
      | none => simp [hw] at h
      | some w => exact ⟨w, rfl, by simpa [hw] using h.1⟩
    · exact ih h.2 hv

/-- A key of either one of two objects that are the same is a key of both, with the same value. -/
theorem same_obj_cases (hms : (ms.map Prod.fst).Nodup) (hns : (ns.map Prod.fst).Nodup)
    (h : same (.obj ms) (.obj ns) = true) (k : String) :
    memberOf? k ms = none ∧ memberOf? k ns = none ∨
      ∃ v w, memberOf? k ms = some v ∧ memberOf? k ns = some w ∧ same v w = true := by
  obtain ⟨hlength, hmembers⟩ : ms.length = ns.length ∧ sameMembers ms ns = true := by
    simpa [same] using h
  -- the keys of the first are among those of the second, and as many
  have hsub : ms.map Prod.fst ⊆ ns.map Prod.fst := by
    intro j hj
    obtain ⟨⟨_, v⟩, hv, rfl⟩ := List.mem_map.1 hj
    obtain ⟨w, hw, -⟩ := exists_of_sameMembers hmembers hv
    exact List.mem_map.2 ⟨_, (memberOf?_eq_some_iff hns).1 hw, rfl⟩
  have hperm : (ms.map Prod.fst).Perm (ns.map Prod.fst) :=
    (List.subperm_of_subset hms hsub).perm_of_length_le (by simp [hlength])
  cases hk : memberOf? k ms with
  | some v =>
    obtain ⟨w, hw, hsame⟩ := exists_of_sameMembers hmembers ((memberOf?_eq_some_iff hms).1 hk)
    exact Or.inr ⟨v, w, rfl, hw, hsame⟩
  | none =>
    refine Or.inl ⟨rfl, ?_⟩
    rw [memberOf?_eq_none_iff] at hk ⊢
    exact fun hmem => hk (hperm.mem_iff.2 hmem)

/-- Lists are the same when their elements are, so they come from the same list. -/
theorem eq_of_sameItems_map {α : Type} {f : α → Json}
    (hf : ∀ {a b}, same (f a) (f b) = true → a = b) :
    ∀ {as bs : List α}, sameItems (as.map f) (bs.map f) = true → as = bs
  | [], [], _ => rfl
  | a :: as, b :: bs, h => by
    rw [List.map_cons, List.map_cons, sameItems, Bool.and_eq_true] at h
    rw [hf h.1, eq_of_sameItems_map hf h.2]

end Json

/-! ## Keys -/

theorem Kind.label_injective : Function.Injective Kind.label := by
  intro k k' h
  have hsome := Kind.ofLabel?_label k
  rw [h, Kind.ofLabel?_label] at hsome
  exact (Option.some.inj hsome).symm

theorem Kind.ne_colon_of_mem_label {k : Kind} {c : Char} (h : c ∈ k.label.toList) : c ≠ ':' := by
  have hall : ∀ k ∈ Kind.all, ':' ∉ k.label.toList := by decide
  rintro rfl
  exact hall k (Kind.mem_all k) h

/-- The kind of a key ends at the first colon of its text. -/
theorem Key.takeWhile_text (k : Key) :
    k.text.toList.takeWhile (fun c => c != ':') = k.kind.label.toList := by
  rw [Text.takeWhile_eq_iff]
  refine ⟨fun c hc => by simpa using Kind.ne_colon_of_mem_label hc, ':' :: k.name.toList, ?_, ?_⟩
  · simp [Key.text]
  · rintro _ ⟨⟩
    rfl

/-- Different keys have different texts, whatever is in the names. -/
theorem Key.text_injective : Function.Injective Key.text := by
  intro k k' h
  have hkind : k.kind = k'.kind := by
    have htake := k.takeWhile_text
    rw [h, k'.takeWhile_text, String.toList_inj] at htake
    exact (Kind.label_injective htake).symm
  have hname : k.name = k'.name := by
    -- the kinds are equal, so the texts go on with the names
    rw [Key.text, Key.text, hkind, ← String.toList_inj, String.toList_append,
      String.toList_append (t := k'.name), List.append_cancel_left_eq] at h
    exact String.toList_inj.1 h
  cases k
  cases k'
  exact congrArg₂ Key.mk hkind hname

/-! ## References and endpoints -/

theorem Ref.eq_of_same {r r' : Ref} (h : Json.same r.toJson r'.toJson = true) : r = r' := by
  cases r
  cases r'
  simp [Ref.toJson, Json.same, Json.sameMembers, Json.memberOf?] at h
  rw [h.1, Kind.label_injective h.2.1, h.2.2]

theorem EndpointRef.eq_of_same {e e' : EndpointRef}
    (h : Json.same e.toJson e'.toJson = true) : e = e' := by
  cases e
  cases e'
  simp [EndpointRef.toJson, Json.same, Json.sameMembers, Json.memberOf?] at h
  rw [h.1, h.2.1, h.2.2]

/-! ## At most one reference -/

namespace Record

/-- A slot for one reference holds at most one. -/
def Narrow (r : Record) : Prop := ∀ s, s.isSingle = true → (r.refs s).length ≤ 1

variable {r : Record}

theorem Narrow.setRefs (h : r.Narrow) {s : Slot} {refs : List Ref}
    (hrefs : s.isSingle = true → refs.length ≤ 1) : (r.setRefs s refs).Narrow := by
  intro t ht
  by_cases hts : t = s
  · subst hts
    rw [refs_setRefs_self]
    exact hrefs ht
  · rw [refs_setRefs_of_ne r refs hts]
    exact h t ht

end Record

/-- No slot for one reference is at the far end of an edge. -/
theorem Category.inverse_isSingle (c : Category) : c.inverse.isSingle = false := by
  cases c <;> rfl

namespace Graph

/-- No record holds more than one reference in a slot for one. -/
def Narrow (g : Graph) : Prop := ∀ k r, g.record? k = some r → r.Narrow

theorem narrow_empty : ({} : Graph).Narrow := fun _ _ h => by cases h

end Graph

namespace Builder

variable {o : Ownership} {b : Builder}

theorem narrow_touch (h : b.graph.Narrow) (k : Key) : (b.touch o k).graph.Narrow := by
  intro j r hr
  rcases record?_touch hr with hr | rfl
  · exact h j r hr
  · exact fun _ _ => Nat.zero_le 1

theorem narrow_modify (h : b.graph.Narrow) {k : Key} {f : Record → Record}
    (hf : ∀ r, b.graph.record? k = some r → r.Narrow → (f r).Narrow) :
    (b.modify k f).graph.Narrow := by
  intro j r hr
  rw [record?_modify] at hr
  split at hr
  · obtain ⟨r', hr', rfl⟩ := Option.map_eq_some_iff.1 hr
    exact hf r' hr' (h k r' hr')
  · exact h j r hr

/-- Connecting adds a target to a slot for one reference only while it is empty. -/
theorem narrow_connect (h : b.graph.Narrow) {c : Category} {s t : Ref}
    (hfree : refuses c (b.graph.refsAt s.key c.forward) t = false) :
    (b.connect c s t).graph.Narrow := by
  have hforward : (b.modify s.key fun r =>
      r.setRefs c.forward (r.refs c.forward ++ [t])).graph.Narrow := by
    refine narrow_modify h fun r hr hnarrow => hnarrow.setRefs fun hsingle => ?_
    have hheld : b.graph.refsAt s.key c.forward = r.refs c.forward := by
      rw [Graph.refsAt, hr]
      rfl
    -- a slot for one reference refuses unless it is empty
    rw [refuses, Category.isSingle, if_pos hsingle, hheld, Bool.not_eq_false',
      List.isEmpty_iff] at hfree
    rw [hfree]
    exact Nat.le_refl 1
  refine narrow_modify hforward fun r _ hnarrow => hnarrow.setRefs fun hsingle => ?_
  rw [Category.inverse_isSingle] at hsingle
  cases hsingle

/-- **The step: no instruction fills a slot for one reference twice.** -/
theorem narrow_run (hsound : b.graph.Sound o) (h : b.graph.Narrow) (i : Instruction) :
    (b.run o i).graph.Narrow := by
  cases i with
  | touch k => exact narrow_touch h k
  | link c source target =>
    have htouched := narrow_touch (o := o) (narrow_touch (o := o) h source) target
    show (b.link o c source target).1.graph.Narrow
    obtain heq | ⟨s, t, hs, -, hfree, heq⟩ := link_cases o b c source target
    · rw [heq]
      exact htouched
    · rw [heq]
      have hkey : s.key = source :=
        key_of_refOf ((sound_touch (sound_touch hsound source) target).owned hs)
      exact narrow_connect htouched (hkey ▸ hfree)
  | annotate k s e => exact narrow_modify (narrow_touch h k) fun r _ hr => hr

/-- The run: neither does any number of them. -/
theorem narrow_build (m : Model) (o : Ownership) : (m.buildGraph o).Narrow :=
  (List.foldlRecOn (motive := fun b : Builder => b.graph.Sound o ∧ b.graph.Narrow)
    (m.instructions o) _ ⟨Graph.sound_empty o, Graph.narrow_empty⟩ fun _ hb i _ =>
      ⟨sound_run hb.1 i, narrow_run hb.1 hb.2 i⟩).2

end Builder

/-! ## Records -/

/-- The names of all slots differ, and none is that of the owner. -/
theorem Slot.nodup_labels :
    ("component" ::
      (Slot.all.map Slot.label ++ EndpointSlot.all.map EndpointSlot.label)).Nodup := by
  decide +kernel

theorem EndpointSlot.mem_all (s : EndpointSlot) : s ∈ all := by cases s <;> decide

namespace Record

variable {r r' : Record}

/-- A slot that holds something is read off what is written for it. -/
theorem refs_eq_of_same (hr : r.Narrow) (hr' : r'.Narrow) {s : Slot} (h : r.refs s ≠ [])
    (h' : r'.refs s ≠ []) (hsame : Json.same (r.slotJson s) (r'.slotJson s) = true) :
    r.refs s = r'.refs s := by
  unfold slotJson at hsame
  split at hsame
  · next hsingle =>
    -- both hold one reference
    obtain ⟨a, ha⟩ := List.length_eq_one_iff.1
      (Nat.le_antisymm (hr s hsingle) (List.length_pos_of_ne_nil h))
    obtain ⟨b, hb⟩ := List.length_eq_one_iff.1
      (Nat.le_antisymm (hr' s hsingle) (List.length_pos_of_ne_nil h'))
    rw [ha, hb] at hsame ⊢
    rw [Ref.eq_of_same hsame]
  · exact Json.eq_of_sameItems_map Ref.eq_of_same hsame

end Record

namespace Vertex

/-- What is written of a construct. -/
def toMembers (v : Vertex) : List (String × Json) :=
  ("component", .str v.ref.component) :: v.record.toFilledMembers

variable {v v' : Vertex}

theorem nodup_toMembers (v : Vertex) : (v.toMembers.map Prod.fst).Nodup := by
  -- members are left out but never reordered
  refine Slot.nodup_labels.sublist ?_
  simp only [toMembers, Record.toFilledMembers, List.map_cons, List.map_append, List.map_map,
    Function.comp_def]
  exact ((List.filter_sublist.map _).append (List.filter_sublist.map _)).cons_cons _

/-- What a slot holds stands under the name of the slot, if it holds something. -/
theorem memberOf?_label (v : Vertex) (s : Slot) :
    Json.memberOf? s.label v.toMembers =
      if v.record.refs s = [] then none else some (v.record.slotJson s) := by
  obtain ⟨hcomponent, hlabels⟩ := List.nodup_cons.1 Slot.nodup_labels
  obtain ⟨hslots, -, hapart⟩ := List.nodup_append.1 hlabels
  have hlabel : s.label ∈ Slot.all.map Slot.label := List.mem_map_of_mem s.mem_all
  have hfirst : ¬ "component" = s.label := fun heq =>
    hcomponent (heq ▸ List.mem_append_left _ hlabel)
  rw [toMembers, Json.memberOf?, if_neg hfirst, Record.toFilledMembers, Json.memberOf?_append,
    Json.memberOf?_map_filter hslots _ _ s.mem_all, Json.memberOf?_eq_none_iff.2, Option.or_none]
  · simp
  · rw [List.map_map]
    exact fun hmem => hapart _ hlabel _ ((List.filter_sublist.map _).subset hmem) rfl

/-- The same for endpoints. -/
theorem memberOf?_endpointLabel (v : Vertex) (s : EndpointSlot) :
    Json.memberOf? s.label v.toMembers =
      if v.record.endpoints s = [] then none else some (v.record.endpointsJson s) := by
  obtain ⟨hcomponent, hlabels⟩ := List.nodup_cons.1 Slot.nodup_labels
  obtain ⟨-, hslots, hapart⟩ := List.nodup_append.1 hlabels
  have hlabel : s.label ∈ EndpointSlot.all.map EndpointSlot.label :=
    List.mem_map_of_mem s.mem_all
  have hfirst : ¬ "component" = s.label := fun heq =>
    hcomponent (heq ▸ List.mem_append_right _ hlabel)
  rw [toMembers, Json.memberOf?, if_neg hfirst, Record.toFilledMembers, Json.memberOf?_append,
    Json.memberOf?_map_filter hslots _ _ s.mem_all, Json.memberOf?_eq_none_iff.2, Option.none_or]
  · simp
  · rw [List.map_map]
    exact fun hmem => hapart _ ((List.filter_sublist.map _).subset hmem) _ hlabel rfl

/-- **A construct is read off what is written of it:** its owner and its record. -/
theorem eq_of_same (hv : v.record.Narrow) (hv' : v'.record.Narrow)
    (h : Json.same (.obj v.toMembers) (.obj v'.toMembers) = true) :
    v.ref.component = v'.ref.component ∧ v.record = v'.record := by
  have hcases := Json.same_obj_cases v.nodup_toMembers v'.nodup_toMembers h
  have hrefs (s : Slot) : v.record.refs s = v'.record.refs s := by
    have hs := hcases s.label
    rw [memberOf?_label, memberOf?_label] at hs
    -- an empty slot is not written, so both are empty or neither is
    split at hs <;> split at hs
    · next hheld hheld' => rw [hheld, hheld']
    · simp at hs
    · simp at hs
    · next hheld hheld' =>
      obtain ⟨_, _, rfl, rfl, hsame⟩ :
          ∃ a b, v.record.slotJson s = a ∧ v'.record.slotJson s = b ∧ Json.same a b = true := by
        simpa using hs
      exact Record.refs_eq_of_same hv hv' hheld hheld' hsame
  have hendpoints (s : EndpointSlot) : v.record.endpoints s = v'.record.endpoints s := by
    have hs := hcases s.label
    rw [memberOf?_endpointLabel, memberOf?_endpointLabel] at hs
    split at hs <;> split at hs
    · next hheld hheld' => rw [hheld, hheld']
    · simp at hs
    · simp at hs
    · next hheld hheld' =>
      obtain ⟨_, _, rfl, rfl, hsame⟩ :
          ∃ a b, v.record.endpointsJson s = a ∧ v'.record.endpointsJson s = b ∧
            Json.same a b = true := by
        simpa using hs
      exact Json.eq_of_sameItems_map EndpointRef.eq_of_same hsame
  constructor
  · simpa [toMembers, Json.memberOf?, Json.same] using hcases "component"
  · obtain ⟨_, refs, endpoints⟩ := v
    obtain ⟨_, refs', endpoints'⟩ := v'
    exact congrArg₂ Record.mk (funext hrefs) (funext hendpoints)

end Vertex

/-! ## Graphs -/

namespace Graph

variable {g g' : Graph}

/-- There is one entry for each record, in order. -/
theorem map_fst_toEntries (g : Graph) :
    g.toEntries.map Prod.fst = g.vertices.keys.map Key.text := by
  simp [toEntries, Table.keys, Function.comp_def]

theorem nodup_toEntries (g : Graph) : (g.toEntries.map Prod.fst).Nodup := by
  rw [map_fst_toEntries]
  exact g.vertices.keys_nodup.map Key.text_injective

/-- What is written under the text of a key is what is written of its construct. -/
theorem memberOf?_text (g : Graph) (k : Key) :
    Json.memberOf? k.text g.toEntries = (g.vertices.find? k).map fun v => .obj v.toMembers := by
  unfold toEntries Table.find?
  induction g.vertices.entries with
  | nil => rfl
  | cons e es ih =>
    by_cases hk : e.1 = k
    · simp [Json.memberOf?, Table.lookup, Vertex.toMembers, hk]
    · simp [Json.memberOf?, Table.lookup, hk, Key.text_injective.eq_iff, ih]

/-- Graphs of which the same is written have the same references and records. -/
theorem views_eq_of_same {o o' : Ownership} (hsound : g.Sound o) (hsound' : g'.Sound o')
    (hnarrow : g.Narrow) (hnarrow' : g'.Narrow)
    (h : Json.same (.obj g.toEntries) (.obj g'.toEntries) = true) (k : Key) :
    g.ref? k = g'.ref? k ∧ g.record? k = g'.record? k := by
  have hk := Json.same_obj_cases g.nodup_toEntries g'.nodup_toEntries h k.text
  rw [memberOf?_text, memberOf?_text] at hk
  unfold ref? record?
  cases hv : g.vertices.find? k with
  | none =>
    have hv' : g'.vertices.find? k = none := by simpa [hv] using hk
    rw [hv']
    exact ⟨rfl, rfl⟩
  | some v =>
    obtain ⟨v', hv', hsame⟩ : ∃ v', g'.vertices.find? k = some v' ∧
        Json.same (.obj v.toMembers) (.obj v'.toMembers) = true := by
      rw [hv] at hk
      obtain ⟨hnone, -⟩ | ⟨a, b, ha, hb, hsame⟩ := hk
      · cases hnone
      · cases ha
        obtain ⟨v', hv', rfl⟩ := Option.map_eq_some_iff.1 hb
        exact ⟨v', hv', hsame⟩
    have href : g.ref? k = some v.ref := by rw [ref?, hv]; rfl
    have href' : g'.ref? k = some v'.ref := by rw [ref?, hv']; rfl
    obtain ⟨hcomponent, hrecord⟩ := Vertex.eq_of_same
      (hnarrow k v.record (by rw [record?, hv]; rfl))
      (hnarrow' k v'.record (by rw [record?, hv']; rfl)) hsame
    -- both references name the construct itself, so they differ in the owner at most
    obtain ⟨c, -, hc⟩ := Option.map_eq_some_iff.1 (hsound.owned href)
    obtain ⟨c', -, hc'⟩ := Option.map_eq_some_iff.1 (hsound'.owned href')
    rw [hv', Option.map_some, Option.map_some, Option.map_some, Option.map_some, hrecord]
    rw [← hc, ← hc'] at hcomponent ⊢
    exact ⟨congrArg (fun c => some (Ref.mk c k.kind k.name)) hcomponent, rfl⟩

end Graph

namespace Model

open Builder

/-- **The graph of a model is written without loss.** Different keys have different texts, so there
is one entry for each record, and two graphs of which the same is written, in whatever order, have
the same references and the same records. -/
theorem buildGraph_dump_lossless (m m' : Model) (o o' : Ownership) :
    (∀ k k' : Key, k.text = k'.text ↔ k = k') ∧
      (m.buildGraph o).toEntries.map Prod.fst = (m.buildGraph o).vertices.keys.map Key.text ∧
      ((m.buildGraph o).toEntries.map Prod.fst).Nodup ∧
      (Json.same (.obj (m.buildGraph o).toEntries) (.obj (m'.buildGraph o').toEntries) = true →
        ∀ k, (m.buildGraph o).ref? k = (m'.buildGraph o').ref? k ∧
          (m.buildGraph o).record? k = (m'.buildGraph o').record? k) :=
  ⟨fun _ _ => Key.text_injective.eq_iff, Graph.map_fst_toEntries _, Graph.nodup_toEntries _,
    Graph.views_eq_of_same (sound_foldl_run (Graph.sound_empty o) _)
      (sound_foldl_run (Graph.sound_empty o') _) (narrow_build m o) (narrow_build m' o')⟩

/-- A ship and its hull, whose name has a colon in it, in either order. -/
def dockyard (hullFirst : Bool) : Model :=
  let hull : Item := .construct (.entity ⟨none, "hull:steel", none, [], [], []⟩)
  let ship : Item := .construct (.entity ⟨none, "ship", some "hull:steel", [], [], []⟩)
  (Document.mk none [.component ⟨none, "yard", none, [], []⟩
    (if hullFirst then [hull, ship] else [ship, hull])]).collect

/-- The order of the records differs, and the records do not. -/
theorem dockyard_dump_lossless :
    ((dockyard true).buildGraph (dockyard true).assignOwners).toEntries.map Prod.fst =
        ["entity:hull:steel", "entity:ship", "component:yard"] ∧
      ((dockyard false).buildGraph (dockyard false).assignOwners).toEntries.map Prod.fst =
        ["entity:ship", "entity:hull:steel", "component:yard"] ∧
      ∀ k, ((dockyard true).buildGraph (dockyard true).assignOwners).record? k =
        ((dockyard false).buildGraph (dockyard false).assignOwners).record? k := by
  have hkeys : ((dockyard true).buildGraph (dockyard true).assignOwners).toEntries.map Prod.fst =
        ["entity:hull:steel", "entity:ship", "component:yard"] ∧
      ((dockyard false).buildGraph (dockyard false).assignOwners).toEntries.map Prod.fst =
        ["entity:ship", "entity:hull:steel", "component:yard"] ∧
      Json.same
        (.obj ((dockyard true).buildGraph (dockyard true).assignOwners).toEntries)
        (.obj ((dockyard false).buildGraph (dockyard false).assignOwners).toEntries) = true := by
    decide +kernel
  obtain ⟨hfirst, hlast, hsame⟩ := hkeys
  obtain ⟨-, -, -, hviews⟩ := buildGraph_dump_lossless (dockyard true) (dockyard false)
    (dockyard true).assignOwners (dockyard false).assignOwners
  exact ⟨hfirst, hlast, fun k => (hviews hsame k).2⟩

end Model

end Blueprint
