import Blueprint.Proofs.Graph.Origins
import Blueprint.Proofs.Graph.Rebuilding
import Blueprint.Proofs.Ownership.Scores

/-!
# What slots hold, in order

Which edges there are does not tell in which order a record lists them, nor which of several parents
a construct has. Both are decided by the order of the instructions. The forward slot of a construct
belongs to one category, so only links of that category write it. Each of them adds its target at
the end, unless the slot refuses it: a slot for one reference keeps the first, any other slot keeps
each target once. Endpoints are noted in the same way.

- `Category.keep`: what is kept of targets that come one after the other.
- `Instruction.targetFrom?`, `Instruction.endpointFor?`: what an instruction has for a slot.
- `Builder.refsAt_run_forward`, `Builder.refsAt_foldl_run_forward`: what an instruction adds to a
  forward slot, and what is in it after a run.
- `Builder.endpointsAt_run`, `Builder.endpointsAt_foldl_run`: the same for endpoints.
- `Model.filterMap_targetFrom?_instructions`: the links of a category, in order, come from its part
  of the instructions.
- `Document.keys_refsAt_forward`: what a forward slot holds in the graph of a document.
- `Document.mem_refsAt_inverse_iff`: what an inverse slot holds.
-/

namespace Blueprint

/-! ## What is kept -/

/-- What a function does to elements that it tells apart leaves repetitions what they are. -/
theorem map_eraseDups_of_inj {α β : Type} [DecidableEq α] [DecidableEq β] {f : α → β} {xs : List α}
    (hf : ∀ x ∈ xs, ∀ y ∈ xs, f x = f y → x = y) :
    xs.eraseDups.map f = (xs.map f).eraseDups := by
  -- from the end, for `eraseDups` keeps first occurrences and the last element adds one at most
  induction xs using List.reverseRecOn with
  | nil => rfl
  | append_singleton xs x ih =>
    have hx : f x ∈ xs.map f ↔ x ∈ xs := by
      constructor
      · intro hmem
        obtain ⟨y, hy, heq⟩ := List.mem_map.1 hmem
        have hyx : y = x := hf y (List.mem_append_left _ hy) x (by simp) heq
        exact hyx ▸ hy
      · exact List.mem_map_of_mem
    have hold := ih fun y hy z hz =>
      hf y (List.mem_append_left _ hy) z (List.mem_append_left _ hz)
    rw [List.map_append, List.map_singleton, eraseDups_concat, eraseDups_concat]
    by_cases hmem : x ∈ xs
    · rw [if_pos hmem, if_pos (hx.2 hmem), hold]
    · rw [if_neg hmem, if_neg (mt hx.1 hmem), List.map_append, hold, List.map_singleton]

/-- What a source keeps of targets that come one after the other: the first, if its category allows
one edge only, else each of them once. -/
def Category.keep {α : Type} [DecidableEq α] (c : Category) (targets : List α) : List α :=
  if c.isSingle then targets.head?.toList else targets.eraseDups

theorem Category.map_keep_of_inj {α β : Type} [DecidableEq α] [DecidableEq β] (c : Category)
    {f : α → β} {xs : List α} (hf : ∀ x ∈ xs, ∀ y ∈ xs, f x = f y → x = y) :
    (c.keep xs).map f = c.keep (xs.map f) := by
  rw [keep, keep]
  split
  · cases xs <;> rfl
  · exact map_eraseDups_of_inj hf

namespace Builder

/-- What a forward slot holds when it is offered one more target. -/
def offer (c : Category) (held : List Ref) (t : Ref) : List Ref :=
  if refuses c held t then held else held ++ [t]

theorem foldl_offer_of_held {c : Category} (hc : c.isSingle = true) {held : List Ref}
    (hheld : held ≠ []) (ts : List Ref) : ts.foldl (offer c) held = held := by
  induction ts with
  | nil => rfl
  | cons t rest ih =>
    have hrefuses : refuses c held t = true := by
      rw [refuses, if_pos hc, List.isEmpty_eq_false_iff.2 hheld]
      rfl
    rw [List.foldl_cons, offer, if_pos hrefuses, ih]

/-- An empty slot comes to hold what is kept of the targets that it is offered. -/
theorem foldl_offer (c : Category) (ts : List Ref) : ts.foldl (offer c) [] = c.keep ts := by
  -- a single category fills its slot once and then refuses, any other refuses what it holds
  cases hc : c.isSingle with
  | true =>
    rw [Category.keep, if_pos hc]
    cases ts with
    | nil => rfl
    | cons t rest =>
      have hfirst : offer c [] t = [t] := by
        simp [offer, refuses, hc]
      rw [List.foldl_cons, hfirst]
      exact foldl_offer_of_held hc (List.cons_ne_nil t []) rest
  | false =>
    have hoffer : offer c = fun held t => if t ∈ held then held else held ++ [t] := by
      funext held t
      simp [offer, refuses, hc]
    rw [Category.keep, if_neg (by simp [hc]), hoffer]
    exact Table.foldl_append_new_nil ts

end Builder

/-! ## What an instruction has for a slot -/

namespace Instruction

/-- The target to which an instruction links a construct by a category. -/
def targetFrom? (c : Category) (k : Key) : Instruction → Option Key
  | link c' source target => if c' = c ∧ source = k then some target else none
  | _ => none

/-- The endpoint that an instruction notes in a slot of a construct. -/
def endpointFor? (k : Key) (s : EndpointSlot) : Instruction → Option EndpointRef
  | annotate k' s' e => if k' = k ∧ s' = s then some e else none
  | _ => none

end Instruction

namespace Builder

open Blueprint.Graph Instruction

variable {o : Ownership} {b : Builder} {c c' : Category} {k : Key}

/-! ## Forward slots -/

/-- Connecting adds its target to the forward slot of its source, at the end, and changes no other
forward slot. -/
theorem refsAt_connect_forward {s t s' t' : Ref} (hs : b.graph.ref? s.key = some s')
    (ht : b.graph.ref? t.key = some t') (hsource : s.kind ∈ c'.sources)
    (htarget : t.kind ∈ c'.targets) (hk : k.kind ∈ c.sources) :
    (b.connect c' s t).graph.refsAt k c.forward =
      if c' = c ∧ s.key = k then b.graph.refsAt k c.forward ++ [t]
      else b.graph.refsAt k c.forward := by
  have ht₁ : (b.modify s.key fun r =>
      r.setRefs c'.forward (r.refs c'.forward ++ [t])).graph.ref? t.key = some t' := by
    rw [ref?_modify, ht]
  -- what is written at the other end is in no forward slot
  have hinverse : ¬(k = t.key ∧ c.forward = c'.inverse) := by
    rintro ⟨rfl, hslot⟩
    exact Category.forward_ne_inverse hk htarget hslot
  have hforward : (k = s.key ∧ c.forward = c'.forward) ↔ (c' = c ∧ s.key = k) := by
    constructor
    · rintro ⟨rfl, hslot⟩
      exact ⟨(Category.eq_of_forward_eq hk hsource hslot).symm, rfl⟩
    · rintro ⟨rfl, rfl⟩
      exact ⟨rfl, rfl⟩
  refine (refsAt_modify_setRefs ht₁ c'.inverse (fun refs => addNew refs s) k c.forward).trans ?_
  rw [if_neg hinverse, refsAt_modify_setRefs hs c'.forward (fun refs => refs ++ [t]) k c.forward]
  by_cases hlink : c' = c ∧ s.key = k
  · obtain ⟨rfl, rfl⟩ := hlink
    rw [if_pos ⟨rfl, rfl⟩, if_pos ⟨rfl, rfl⟩]
  · rw [if_neg (mt hforward.1 hlink), if_neg hlink]

/-- A link offers its target to the forward slot of its source. -/
theorem refsAt_link_self (hb : b.graph.Sound o) (hstrays : b.strays = ∅) {target : Key} {s : Ref}
    (hs : refOf o k = some s) (hallowed : (Instruction.link c k target).Allowed) :
    (b.link o c k target).1.graph.refsAt k c.forward =
      (refOf o target).toList.foldl (offer c) (b.graph.refsAt k c.forward) := by
  have hsource := (keeps_touch o _ target).known (ref?_touch_self hb hs)
  have htouched := sound_touch (sound_touch hb k) target
  cases ht : refOf o target with
  | none =>
    -- without an owner the target has no reference
    have htarget : ((b.touch o k).touch o target).graph.ref? target = none := by
      cases href : ((b.touch o k).touch o target).graph.ref? target with
      | none => rfl
      | some t =>
        have howned := htouched.owned href
        rw [ht] at howned
        cases howned
    simp [Builder.link, hsource, htarget]
  | some t =>
    have htarget := ref?_touch_self (sound_touch hb k) ht
    -- strays are what blocks a slot, and there are none
    have hopen : ((b.touch o k).touch o target).isBlocked c k = false := by
      simp [isBlocked, straysUnder, hstrays, Table.findD]
    simp only [Builder.link, hsource, htarget, hopen, Bool.false_or, refsAt_touch, offer,
      Option.toList_some, List.foldl_cons, List.foldl_nil]
    split
    · rw [refsAt_touch, refsAt_touch]
    · obtain rfl := key_of_refOf hs
      obtain rfl := key_of_refOf ht
      rw [refsAt_connect_forward hsource htarget hallowed.1 hallowed.2 hallowed.1,
        if_pos ⟨rfl, rfl⟩, refsAt_touch, refsAt_touch]

/-- **The step: an instruction offers its target to the slot that it is for**, and changes no other
forward slot. -/
theorem refsAt_run_forward (hb : b.graph.Sound o) (hstrays : b.strays = ∅) {i : Instruction}
    (hi : i.Allowed) (hk : k.kind ∈ c.sources) {r : Ref} (hr : refOf o k = some r) :
    (b.run o i).graph.refsAt k c.forward =
      ((i.targetFrom? c k).bind (refOf o)).toList.foldl (offer c) (b.graph.refsAt k c.forward) := by
  cases i with
  | touch j => exact refsAt_touch j k c.forward
  | annotate j s e =>
    exact ((annotate_views j s e).2 k c.forward).trans (refsAt_touch j k c.forward)
  | link c' source target =>
    by_cases hlink : c' = c ∧ source = k
    · obtain ⟨rfl, rfl⟩ := hlink
      simp only [targetFrom?, and_self, if_true, Option.bind_some]
      exact refsAt_link_self hb hstrays hr hi
    · simp only [targetFrom?, if_neg hlink, Option.bind_none, Option.toList_none, List.foldl_nil]
      have htouched := sound_touch (sound_touch hb source) target
      show (b.link o c' source target).1.graph.refsAt k c.forward = _
      obtain heq | ⟨s, t, hs, ht, -, heq⟩ := link_cases o b c' source target
      · rw [heq, refsAt_touch, refsAt_touch]
      · obtain rfl := key_of_refOf (htouched.owned hs)
        obtain rfl := key_of_refOf (htouched.owned ht)
        rw [heq, refsAt_connect_forward hs ht hi.1 hi.2 hk, if_neg hlink, refsAt_touch,
          refsAt_touch]

/-- **The run: a forward slot is offered the targets that the instructions have for it.** -/
theorem refsAt_foldl_run_forward (hk : k.kind ∈ c.sources) {r : Ref} (hr : refOf o k = some r)
    (is : List Instruction) :
    ∀ {b : Builder}, b.graph.Sound o → b.strays = ∅ → (∀ i ∈ is, i.Allowed) →
      (is.foldl (Builder.run o) b).graph.refsAt k c.forward =
        ((is.filterMap (targetFrom? c k)).filterMap (refOf o)).foldl (offer c)
          (b.graph.refsAt k c.forward) := by
  induction is with
  | nil => exact fun _ _ _ => rfl
  | cons i rest ih =>
    intro b hb hstrays hall
    rw [List.forall_mem_cons] at hall
    rw [List.foldl_cons, ih (sound_run hb i) ((strays_run i).trans hstrays) hall.2,
      refsAt_run_forward hb hstrays hall.1 hk hr, List.filterMap_cons]
    cases i.targetFrom? c k with
    | none => rfl
    | some t =>
      rw [Option.bind_some, List.filterMap_cons]
      cases refOf o t <;> rfl

/-! ## Endpoints -/

section

variable {s : EndpointSlot}

/-- A new record has no endpoints. -/
theorem endpointsAt_touch (j : Key) :
    (b.touch o j).graph.endpointsAt k s = b.graph.endpointsAt k s := by
  cases hr : b.graph.record? k with
  | some r => rw [endpointsAt, endpointsAt, record?_touch_of_some hr, hr]
  | none =>
    rw [endpointsAt, endpointsAt, hr]
    cases hr' : (b.touch o j).graph.record? k with
    | none => rfl
    | some r =>
      obtain hold | rfl := record?_touch hr'
      · rw [hr] at hold
        cases hold
      · rfl

/-- A change that leaves the endpoints of a record alone. -/
theorem endpointsAt_modify_of_endpoints_eq {j : Key} {f : Record → Record}
    (hf : ∀ r, (f r).endpoints = r.endpoints) :
    (b.modify j f).graph.endpointsAt k s = b.graph.endpointsAt k s := by
  rw [endpointsAt, endpointsAt, record?_modify]
  by_cases hj : k = j
  · rw [if_pos hj, hj, Option.map_map]
    congr 2
    funext r
    exact congrFun (hf r) s
  · rw [if_neg hj]

theorem endpointsAt_connect (c : Category) (source target : Ref) :
    (b.connect c source target).graph.endpointsAt k s = b.graph.endpointsAt k s := by
  have hforward := endpointsAt_modify_of_endpoints_eq (b := b) (k := k) (s := s) (j := source.key)
    (f := fun r => r.setRefs c.forward (r.refs c.forward ++ [target])) fun _ => rfl
  rw [← hforward]
  exact endpointsAt_modify_of_endpoints_eq fun _ => rfl

/-- An endpoint that is noted for a construct with an owner comes last, unless it is there. -/
theorem endpointsAt_annotate_self (hb : b.graph.Sound o) {r : Ref} (hr : refOf o k = some r)
    (e : EndpointRef) :
    (b.annotate o k s e).graph.endpointsAt k s = addNew (b.graph.endpointsAt k s) e := by
  obtain ⟨v, hv, -⟩ := Option.map_eq_some_iff.1 (ref?_touch_self hb hr)
  have hrecord : (b.touch o k).graph.record? k = some v.record := by
    rw [record?, hv]
    rfl
  have hheld : b.graph.endpointsAt k s = v.record.endpoints s := by
    rw [← endpointsAt_touch (o := o) k, endpointsAt, hrecord]
    rfl
  rw [annotate, endpointsAt, record?_modify, if_pos rfl, hrecord, hheld]
  simp [Record.addEndpoint]

theorem endpointsAt_annotate_of_ne {j : Key} {s' : EndpointSlot} (h : ¬(j = k ∧ s' = s))
    (e : EndpointRef) :
    (b.annotate o j s' e).graph.endpointsAt k s = b.graph.endpointsAt k s := by
  rw [← endpointsAt_touch (b := b) (o := o) j, annotate, endpointsAt, endpointsAt, record?_modify]
  by_cases hj : k = j
  · have hs : s ≠ s' := by
      rintro rfl
      exact h ⟨hj.symm, rfl⟩
    rw [if_pos hj, hj, Option.map_map]
    congr 2
    funext r
    exact if_neg hs
  · rw [if_neg hj]

/-- **The step: an instruction notes the endpoint that it has for a slot**, and no other one. -/
theorem endpointsAt_run (hb : b.graph.Sound o) {r : Ref} (hr : refOf o k = some r)
    (i : Instruction) :
    (b.run o i).graph.endpointsAt k s =
      (i.endpointFor? k s).toList.foldl addNew (b.graph.endpointsAt k s) := by
  cases i with
  | touch j => exact endpointsAt_touch j
  | link c source target =>
    show (b.link o c source target).1.graph.endpointsAt k s = b.graph.endpointsAt k s
    obtain heq | ⟨s', t', -, -, -, heq⟩ := link_cases o b c source target
    · rw [heq, endpointsAt_touch, endpointsAt_touch]
    · rw [heq, endpointsAt_connect, endpointsAt_touch, endpointsAt_touch]
  | annotate j s' e =>
    by_cases hslot : j = k ∧ s' = s
    · obtain ⟨rfl, rfl⟩ := hslot
      simp only [endpointFor?, and_self, if_true]
      exact endpointsAt_annotate_self hb hr e
    · simp only [endpointFor?, if_neg hslot]
      exact endpointsAt_annotate_of_ne hslot e

/-- **The run: a slot for endpoints holds those that the instructions have for it, each once.** -/
theorem endpointsAt_foldl_run {r : Ref} (hr : refOf o k = some r) (is : List Instruction) :
    ∀ {b : Builder}, b.graph.Sound o →
      (is.foldl (Builder.run o) b).graph.endpointsAt k s =
        (is.filterMap (endpointFor? k s)).foldl addNew (b.graph.endpointsAt k s) := by
  induction is with
  | nil => exact fun _ => rfl
  | cons i rest ih =>
    intro b hb
    rw [List.foldl_cons, ih (sound_run hb i), endpointsAt_run hb hr, List.filterMap_cons]
    cases i.endpointFor? k s <;> rfl

end

end Builder

/-! ## Links of a category in order -/

theorem flatMap_filter {α β : Type} (p : α → Prop) [DecidablePred p] (f : α → List β)
    (xs : List α) :
    (xs.filter fun x => p x).flatMap f = xs.flatMap fun x => if p x then f x else [] := by
  induction xs with
  | nil => rfl
  | cons x rest ih =>
    by_cases hx : p x
    · simp [hx, ih]
    · simp [hx, ih]

namespace Model

open Instruction

variable {m : Model} {o : Ownership} {c : Category} {k : Key}

/-- What the instructions have for a slot are the targets of links. -/
theorem mem_filterMap_targetFrom?_iff {is : List Instruction} {target : Key} :
    target ∈ is.filterMap (targetFrom? c k) ↔ .link c k target ∈ is := by
  rw [List.mem_filterMap]
  constructor
  · rintro ⟨i, hi, htarget⟩
    cases i with
    | link c' source target' =>
      by_cases hlink : c' = c ∧ source = k
      · obtain ⟨rfl, rfl⟩ := hlink
        rw [targetFrom?, if_pos ⟨rfl, rfl⟩, Option.some.injEq] at htarget
        exact htarget ▸ hi
      · rw [targetFrom?, if_neg hlink] at htarget
        cases htarget
    | touch => cases htarget
    | annotate => cases htarget
  · intro hlink
    exact ⟨_, hlink, if_pos ⟨rfl, rfl⟩⟩

/-- Instructions that link by other categories have nothing for the slot of a category. -/
theorem filterMap_targetFrom?_eq_nil {is : List Instruction} {cs : List Category}
    (h : ∀ {c source target}, .link c source target ∈ is → c ∈ cs) (hc : c ∉ cs) :
    is.filterMap (targetFrom? c k) = [] := by
  refine List.filterMap_eq_nil_iff.2 fun i hi => ?_
  cases i with
  | link c' source target =>
    refine if_neg ?_
    rintro ⟨rfl, -⟩
    exact hc (h hi)
  | touch => rfl
  | annotate => rfl

/-- Links that lead from one construct by one category have all their targets for one slot. -/
theorem filterMap_targetFrom?_map_link {α : Type} (c' : Category) (source : Key) (f : α → Key)
    (xs : List α) :
    (xs.map fun x => Instruction.link c' source (f x)).filterMap (targetFrom? c k) =
      if c' = c ∧ source = k then xs.map f else [] := by
  rw [List.filterMap_map]
  by_cases h : c' = c ∧ source = k
  · simp [targetFrom?, h]
  · simp [Function.comp_def, targetFrom?, h]

/-- **The links of a category, in order, come from its part of the instructions.** -/
theorem filterMap_targetFrom?_instructions :
    (m.instructions o).filterMap (targetFrom? c k) =
      (m.instructionsFor o c).filterMap (targetFrom? c k) := by
  have htouch : (o.ownable.map Instruction.touch).filterMap (targetFrom? c k) = [] := by
    rw [List.filterMap_map, List.filterMap_eq_nil_iff]
    exact fun _ _ => rfl
  have hnone : ∀ {c' source target}, .link c' source target ∈ m.journeyInstructions →
      c' ∈ ([] : List Category) := fun h => absurd h link_not_mem_journeyInstructions
  have hother : ∀ {is : List Instruction} {cs : List Category},
      (∀ {c' source target}, .link c' source target ∈ is → c' ∈ cs) → c ∉ cs →
        is.filterMap (targetFrom? c k) = [] := fun h hc => filterMap_targetFrom?_eq_nil h hc
  have hjourney := hother hnone List.not_mem_nil
  have hentity := hother (category_of_entityInstructions (m := m))
  have hflow := hother (category_of_flowInstructions (m := m))
  have hapi := hother (category_of_apiInstructions (m := m))
  have hstate := hother (category_of_stateInstructions (m := m))
  have haction := hother (category_of_actionInstructions (m := m))
  have hrule := hother (category_of_ruleInstructions (m := m))
  have hoperation := hother (category_of_operationInstructions (m := m) (o := o))
  have hcall := hother (category_of_flowCallInstructions (m := m) (o := o))
  have hscreen := hother (category_of_screenInstructions (m := m))
  have hinheritance := hother (category_of_inheritanceInstructions (m := m))
  simp only [instructions, List.filterMap_append, htouch, hjourney]
  -- every other part links by categories of its own, so all but one come to nothing
  cases c <;> simp [instructionsFor, hentity, hflow, hapi, hstate, haction, hrule, hoperation,
    hcall, hscreen, hinheritance]

end Model

/-! ## Edges seen from their ends -/

namespace Graph

variable {g : Graph} {c : Category} {s t : Key}

/-- The ends of an edge are of kinds that its category allows. -/
theorem Balanced.kinds_of_joins (h : g.Balanced) (hjoins : g.Joins c s t) :
    s.kind ∈ c.sources ∧ t.kind ∈ c.targets := by
  obtain ⟨e, he, rfl, rfl, rfl⟩ := hjoins
  exact (h.of_mem_edges he).2.2

/-- The references in a slot are those of vertices. -/
theorem Balanced.map_some_refsAt (h : g.Balanced) (k : Key) (slot : Slot) :
    (g.refsAt k slot).map some = ((g.refsAt k slot).map Ref.key).map g.ref? := by
  rw [List.map_map]
  refine List.map_congr_left fun r hr => ?_
  exact (h.closed hr).symm

/-- An edge is seen from its source: the forward slot holds the target. -/
theorem Balanced.joins_iff_forward (h : g.Balanced) (hs : s.kind ∈ c.sources)
    (ht : t.kind ∈ c.targets) : g.Joins c s t ↔ t ∈ (g.refsAt s c.forward).map Ref.key := by
  rw [List.mem_map]
  constructor
  · rintro ⟨e, he, rfl, rfl, rfl⟩
    obtain ⟨k, hk, hmem, -, -⟩ := mem_edges_iff.1 he
    obtain rfl := h.keyed hk
    exact ⟨e.target, hmem, rfl⟩
  · rintro ⟨r, hr, rfl⟩
    obtain ⟨s', hs'⟩ := ref?_isSome_of_mem_refsAt hr
    exact ⟨⟨s', c, r⟩, mem_edges_iff.2 ⟨s, hs', hr, hs, ht⟩, rfl, h.keyed hs', rfl⟩

end Graph

/-- An edge is seen from its target: the inverse slot holds the source, if the slot is the inverse
slot of one category only and, in the record of the target, no forward slot. -/
theorem Builder.Accounted.mem_refsAt_inverse_iff {o : Ownership} {b : Builder} (h : b.Accounted o)
    {c : Category} (hc : (Category.all.filter fun c' => c'.inverse = c.inverse) = [c]) {k : Key}
    (hk : ∀ c' ∈ Category.all, k.kind ∈ c'.sources → c'.forward ≠ c.inverse) {r : Ref} :
    r ∈ b.graph.refsAt k c.inverse ↔
      b.graph.ref? r.key = some r ∧ b.graph.Joins c r.key k := by
  constructor
  · intro hr
    obtain ⟨e, he, side, htrace⟩ := h.traced ⟨k, c.inverse, r⟩ (Graph.mem_holdings_iff.2 hr)
    obtain ⟨hs, -, hsource, -⟩ := h.balanced.of_mem_edges he
    cases side with
    | forward =>
      obtain ⟨rfl, hslot, -⟩ := Holding.mk.inj htrace
      exact absurd hslot (hk _ (Category.mem_all _) hsource)
    | inverse =>
      obtain ⟨rfl, hslot, rfl⟩ := Holding.mk.inj htrace
      -- only one category writes to this inverse slot
      have hmem : e.category ∈ Category.all.filter fun c' => c'.inverse = c.inverse :=
        List.mem_filter.2 ⟨Category.mem_all _, decide_eq_true hslot⟩
      rw [hc, List.mem_singleton] at hmem
      exact ⟨hs, e, he, hmem, rfl, rfl⟩
  · rintro ⟨hr, e, he, rfl, hsource, rfl⟩
    obtain ⟨hs, -, -, -⟩ := h.balanced.of_mem_edges he
    rw [hsource, hr] at hs
    obtain rfl := Option.some.inj hs
    exact Graph.mem_holdings_iff.1 (h.balanced.trace_mem_holdings he .inverse)

/-! ## Documents -/

namespace Document

open Builder Instruction

variable {d : Document} {c : Category} {k : Key}

theorem sound_graph (d : Document) : d.graph.Sound d.owners :=
  sound_foldl_run (Graph.sound_empty _) _

theorem balanced_graph (d : Document) : d.graph.Balanced := balanced_build Graph.balanced_empty

theorem accounted_build (d : Document) : (build d.collect d.owners {}).Accounted d.owners :=
  accounted_foldl_run (.empty _) _ (d.collect.instructions_allowed d.owners)

/-- The graph has the reference of every construct with an owner. -/
theorem ref?_graph (d : Document) (k : Key) : d.graph.ref? k = refOf d.owners k := by
  cases hr : refOf d.owners k with
  | none =>
    cases hk : d.graph.ref? k with
    | none => rfl
    | some r =>
      have howned := d.sound_graph.owned hk
      rw [hr] at howned
      cases howned
  | some r =>
    obtain ⟨a, ha, -⟩ := Option.map_eq_some_iff.1 hr
    have hmem : k ∈ d.graph.vertices.keys := by
      rw [keys_graph]
      exact d.full_touched k a ha
    obtain ⟨r', hr'⟩ := Graph.mem_keys_iff.1 hmem
    rw [hr', ← d.sound_graph.owned hr', hr]

/-- In a document with components, what is declared has its reference. -/
theorem exists_refOf_iff (h : d.collect.components ≠ []) :
    (∃ r, refOf d.owners k = some r) ↔ k ∈ d.collect.keys := by
  rw [← exists_owner?_iff h]
  constructor
  · rintro ⟨r, hr⟩
    obtain ⟨a, ha, -⟩ := Option.map_eq_some_iff.1 hr
    exact ⟨a, ha⟩
  · rintro ⟨a, ha⟩
    exact ⟨_, Option.map_eq_some_iff.2 ⟨a, ha, rfl⟩⟩

/-- References of constructs with owners stand for their keys. -/
theorem map_key_filterMap_refOf (h : d.collect.components ≠ []) (ts : List Key) :
    (ts.filterMap (refOf d.owners)).map Ref.key = ts.filter (· ∈ d.collect.keys) := by
  induction ts with
  | nil => rfl
  | cons t rest ih =>
    rw [List.filterMap_cons, List.filter_cons]
    cases ht : refOf d.owners t with
    | none =>
      have hnot : t ∉ d.collect.keys := by
        rw [← exists_refOf_iff h, ht]
        simp
      simp [hnot, ih]
    | some r =>
      have hmem : t ∈ d.collect.keys := (exists_refOf_iff h).1 ⟨r, ht⟩
      simp [hmem, ih, key_of_refOf ht]

/-- **What a forward slot holds.** In a document with components, the forward slot of a construct
keeps those of the targets that the instructions for its category name in turn which are
declared. -/
theorem keys_refsAt_forward (h : d.collect.components ≠ []) (hc : k.kind ∈ c.sources)
    (hk : k ∈ d.collect.keys) :
    (d.graph.refsAt k c.forward).map Ref.key =
      c.keep (((d.collect.instructionsFor d.owners c).filterMap (targetFrom? c k)).filter
        (· ∈ d.collect.keys)) := by
  obtain ⟨r, hr⟩ := (exists_refOf_iff h).2 hk
  have hrun : d.graph.refsAt k c.forward =
      c.keep (((d.collect.instructionsFor d.owners c).filterMap (targetFrom? c k)).filterMap
        (refOf d.owners)) := by
    rw [graph_eq, refsAt_foldl_run_forward hc hr _ (Graph.sound_empty _) rfl
      (d.collect.instructions_allowed d.owners), Model.filterMap_targetFrom?_instructions]
    exact foldl_offer c _
  rw [hrun, ← map_key_filterMap_refOf h]
  refine c.map_keep_of_inj fun x hx y hy hxy => ?_
  -- a key has one reference
  obtain ⟨s, -, hs⟩ := List.mem_filterMap.1 hx
  obtain ⟨t, -, ht⟩ := List.mem_filterMap.1 hy
  have hsame : s = t := by rw [← key_of_refOf hs, hxy, key_of_refOf ht]
  rw [hsame, ht] at hs
  exact (Option.some.inj hs).symm

/-- What an inverse slot of one category holds: the sources of the edges that lead to it. -/
theorem mem_refsAt_inverse_iff
    (hc : (Category.all.filter fun c' => c'.inverse = c.inverse) = [c])
    (hk : ∀ c' ∈ Category.all, k.kind ∈ c'.sources → c'.forward ≠ c.inverse) {r : Ref} :
    r ∈ d.graph.refsAt k c.inverse ↔ d.graph.ref? r.key = some r ∧ d.graph.Joins c r.key k :=
  d.accounted_build.mem_refsAt_inverse_iff hc hk

end Document

end Blueprint
