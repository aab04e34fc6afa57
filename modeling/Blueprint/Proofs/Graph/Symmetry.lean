import Blueprint.Proofs.Graph.Views

/-!
# Graphs are symmetric

However a graph is built, every edge stands on both of its ends. Slots do not belong to one category
alone: `emitted_by` is the inverse slot of two categories, and `governs_entities` is the forward
slot of one category and the inverse slot of another. What keeps the ends apart is the kinds of the
constructs, so a builder is only symmetric when its links respect the kinds of their category. In
the specification this is the testable property of symmetry (§8).

- `Category.eq_of_forward_eq`, `Category.eq_of_inverse_eq`, `Category.forward_ne_inverse`: a slot
  and the kinds at its ends determine the category and the direction.
- `Graph.Balanced`: the invariant. References are those of vertices, and the two ends of an edge
  agree.
- `Builder.balanced_run`: every instruction that respects kinds keeps the invariant.
- `Model.instructions_allowed`: what the declarations of a model say respects kinds.
- `Builder.commands_symmetric`: no order of steps and builds makes an edge one-sided.
-/

namespace Blueprint

/-! ## Slots and kinds -/

namespace Category

/-- A forward slot and the kind of its record determine the category. -/
theorem eq_of_forward_eq {c d : Category} {k : Kind} (hc : k ∈ c.sources) (hd : k ∈ d.sources)
    (h : c.forward = d.forward) : c = d := by
  have all : ∀ c ∈ Category.all, ∀ d ∈ Category.all, c.forward = d.forward →
      (∃ k ∈ c.sources, k ∈ d.sources) → c = d := by decide
  exact all c (mem_all c) d (mem_all d) h ⟨k, hc, hd⟩

/-- An inverse slot determines the category only together with the kinds at both ends: flows and
operations emit events, and flows use entities and operations. -/
theorem eq_of_inverse_eq {c d : Category} {k j : Kind} (hc : k ∈ c.sources) (hd : k ∈ d.sources)
    (hc' : j ∈ c.targets) (hd' : j ∈ d.targets) (h : c.inverse = d.inverse) : c = d := by
  have all : ∀ c ∈ Category.all, ∀ d ∈ Category.all, c.inverse = d.inverse →
      (∃ k ∈ c.sources, k ∈ d.sources) → (∃ j ∈ c.targets, j ∈ d.targets) → c = d := by decide
  exact all c (mem_all c) d (mem_all d) h ⟨k, hc, hd⟩ ⟨j, hc', hd'⟩

/-- In the record of one construct no slot is a forward and an inverse slot at once. -/
theorem forward_ne_inverse {c d : Category} {k : Kind} (hc : k ∈ c.sources) (hd : k ∈ d.targets) :
    c.forward ≠ d.inverse := by
  have all : ∀ c ∈ Category.all, ∀ d ∈ Category.all,
      (∃ k ∈ c.sources, k ∈ d.targets) → c.forward ≠ d.inverse := by decide
  exact all c (mem_all c) d (mem_all d) ⟨k, hc, hd⟩

end Category

/-! ## The invariant -/

namespace Graph

/-- The references of a graph are those of its vertices, and the two ends of an edge agree. -/
structure Balanced (g : Graph) : Prop where
  keyed : ∀ {k r}, g.ref? k = some r → r.key = k
  closed : ∀ {k s r}, r ∈ g.refsAt k s → g.ref? r.key = some r
  paired : ∀ {c : Category} {s t : Ref}, g.ref? s.key = some s → g.ref? t.key = some t →
    s.kind ∈ c.sources → t.kind ∈ c.targets →
      (t ∈ g.refsAt s.key c.forward ↔ s ∈ g.refsAt t.key c.inverse)

/-- A graph whose ends agree has no edge on one end only. -/
theorem Balanced.asymmetries_eq_nil {g : Graph} (h : g.Balanced) : g.asymmetries = [] := by
  rw [asymmetries_eq_nil_iff]
  constructor
  · intro e he
    obtain ⟨k, hk, hmem, hsource, htarget⟩ := mem_edges_iff.1 he
    obtain rfl := h.keyed hk
    exact List.contains_iff_mem.2 ((h.paired hk (h.closed hmem) hsource htarget).1 hmem)
  · intro e he
    obtain ⟨k, hk, hmem, htarget, hsource⟩ := mem_inverses_iff.1 he
    obtain rfl := h.keyed hk
    exact List.contains_iff_mem.2 ((h.paired (h.closed hmem) hk hsource htarget).2 hmem)

theorem balanced_empty : ({} : Graph).Balanced where
  keyed h := by simp [ref?] at h
  closed h := by simp [refsAt, record?] at h
  paired h := by simp [ref?] at h

/-- The invariant only speaks of the two views. -/
theorem Balanced.congr {g g' : Graph} (h : g.Balanced) (href : ∀ k, g'.ref? k = g.ref? k)
    (hrefs : ∀ k s, g'.refsAt k s = g.refsAt k s) : g'.Balanced where
  keyed hk := h.keyed (href _ ▸ hk)
  closed hr := by
    rw [href]
    exact h.closed (hrefs _ _ ▸ hr)
  paired hs ht := by
    rw [href] at hs ht
    rw [hrefs, hrefs]
    exact h.paired hs ht

end Graph

/-! ## What keeps the invariant -/

namespace Instruction

/-- Whether the ends of a link are of kinds that its category allows. -/
def Allowed : Instruction → Prop
  | touch _ => True
  | link c source target => source.kind ∈ c.sources ∧ target.kind ∈ c.targets
  | annotate _ _ _ => True

/-- Most categories have one kind at each end. -/
theorem allowed_of_kinds {c : Category} {k j : Kind} (hk : c.sources = [k]) (hj : c.targets = [j])
    {source target : Key} (hs : source.kind = k) (ht : target.kind = j) :
    (link c source target).Allowed :=
  ⟨by rw [hk, hs]; exact List.mem_singleton_self k, by rw [hj, ht]; exact List.mem_singleton_self j⟩

end Instruction

namespace Builder

open Blueprint.Graph

variable {o : Ownership} {b : Builder}

/-- Touching adds a vertex that holds nothing and that nothing refers to. -/
theorem balanced_touch (h : b.graph.Balanced) (k : Key) : (b.touch o k).graph.Balanced := by
  -- old references stay what they are
  have hold : ∀ {j r}, b.graph.ref? j = some r → (b.touch o k).graph.ref? j = some r := by
    intro j r hj
    rw [ref?_touch]
    split
    · next hjk => rw [← hjk, hj, Option.some_or]
    · exact hj
  refine ⟨?_, ?_, ?_⟩
  · intro j r hj
    rw [ref?_touch] at hj
    split at hj
    · next hjk =>
      obtain hk | ⟨-, hk⟩ := Option.or_eq_some_iff.1 hj
      · rw [h.keyed hk, hjk]
      · rw [key_of_refOf hk, hjk]
    · exact h.keyed hj
  · intro j s r hr
    rw [refsAt_touch] at hr
    exact hold (h.closed hr)
  · intro c s t hs ht hsource htarget
    rw [refsAt_touch, refsAt_touch]
    -- whichever side holds, its slot is not empty and so both ends were there before
    constructor
    · intro hmem
      obtain ⟨s', hs'⟩ := ref?_isSome_of_mem_refsAt hmem
      obtain rfl : s' = s := Option.some.inj ((hold hs').symm.trans hs)
      exact (h.paired hs' (h.closed hmem) hsource htarget).1 hmem
    · intro hmem
      obtain ⟨t', ht'⟩ := ref?_isSome_of_mem_refsAt hmem
      obtain rfl : t' = t := Option.some.inj ((hold ht').symm.trans ht)
      exact (h.paired (h.closed hmem) ht' hsource htarget).2 hmem

/-- Connecting two vertices of allowed kinds adds one edge, at both of its ends. -/
theorem balanced_connect (h : b.graph.Balanced) {c : Category} {s t : Ref}
    (hs : b.graph.ref? s.key = some s) (ht : b.graph.ref? t.key = some t)
    (hsource : s.kind ∈ c.sources) (htarget : t.kind ∈ c.targets) :
    (b.connect c s t).graph.Balanced := by
  refine ⟨?_, ?_, ?_⟩
  · intro k r hk
    rw [ref?_connect] at hk
    exact h.keyed hk
  · intro k slot r hr
    rw [ref?_connect]
    obtain (hr | ⟨-, -, rfl⟩) | ⟨-, -, rfl⟩ := (mem_refsAt_connect hs ht).1 hr
    · exact h.closed hr
    · exact ht
    · exact hs
  · intro d x y hx hy hxd hyd
    rw [ref?_connect] at hx hy
    rw [mem_refsAt_connect hs ht, mem_refsAt_connect hs ht]
    have kindOf : ∀ {p q : Ref}, p.key = q.key → p.kind = q.kind := congrArg Key.kind
    -- seen from either end, what is new is the edge from `s` to `t`
    have left : (x.key = s.key ∧ d.forward = c.forward ∧ y = t) ∨
        (x.key = t.key ∧ d.forward = c.inverse ∧ y = s) → d = c ∧ x = s ∧ y = t := by
      rintro (⟨hkey, hslot, rfl⟩ | ⟨hkey, hslot, rfl⟩)
      · have hxs : x = s := Option.some.inj (by rw [← hx, ← hs, hkey])
        exact ⟨Category.eq_of_forward_eq hxd (hxs ▸ hsource) hslot, hxs, rfl⟩
      · exact absurd hslot (Category.forward_ne_inverse hxd (kindOf hkey ▸ htarget))
    have right : (y.key = s.key ∧ d.inverse = c.forward ∧ x = t) ∨
        (y.key = t.key ∧ d.inverse = c.inverse ∧ x = s) → d = c ∧ x = s ∧ y = t := by
      rintro (⟨hkey, hslot, rfl⟩ | ⟨hkey, hslot, rfl⟩)
      · exact absurd hslot.symm (Category.forward_ne_inverse (kindOf hkey ▸ hsource) hyd)
      · have hyt : y = t := Option.some.inj (by rw [← hy, ← ht, hkey])
        exact ⟨Category.eq_of_inverse_eq hxd hsource hyd (hyt ▸ htarget) hslot, rfl, hyt⟩
    have old := h.paired hx hy hxd hyd
    constructor
    · intro hmem
      rw [or_assoc] at hmem
      obtain hmem | hnew := hmem
      · exact Or.inl (Or.inl (old.1 hmem))
      · obtain ⟨rfl, rfl, rfl⟩ := left hnew
        exact Or.inr ⟨rfl, rfl, rfl⟩
    · intro hmem
      rw [or_assoc] at hmem
      obtain hmem | hnew := hmem
      · exact Or.inl (Or.inl (old.2 hmem))
      · obtain ⟨rfl, rfl, rfl⟩ := right hnew
        exact Or.inl (Or.inr ⟨rfl, rfl, rfl⟩)

/-- **An instruction that respects kinds keeps the invariant.** -/
theorem balanced_run (h : b.graph.Balanced) {i : Instruction} (hi : i.Allowed) :
    (b.run o i).graph.Balanced := by
  cases i with
  | touch k => exact balanced_touch h k
  | link c source target =>
    show (b.link o c source target).1.graph.Balanced
    have touched := balanced_touch (o := o) (balanced_touch (o := o) h source) target
    obtain heq | ⟨s, t, hs, ht, -, heq⟩ := link_cases o b c source target
    · rw [heq]
      exact touched
    · obtain rfl := touched.keyed hs
      obtain rfl := touched.keyed ht
      rw [heq]
      exact balanced_connect touched hs ht hi.1 hi.2
  | annotate k e p =>
    exact (balanced_touch h k).congr (annotate_views k e p).1 (annotate_views k e p).2

/-- So do any number of them. -/
theorem balanced_foldl_run (is : List Instruction) :
    ∀ {b : Builder}, b.graph.Balanced → (∀ i ∈ is, i.Allowed) →
      (is.foldl (Builder.run o) b).graph.Balanced := by
  induction is with
  | nil => exact fun h _ => h
  | cons i rest ih =>
    intro b h hall
    exact ih (balanced_run h (hall i List.mem_cons_self))
      fun j hj => hall j (List.mem_cons_of_mem _ hj)

theorem strays_foldl_run (is : List Instruction) :
    ∀ b : Builder, (is.foldl (Builder.run o) b).strays = b.strays := by
  induction is with
  | nil => exact fun _ => rfl
  | cons i rest ih => exact fun b => (ih _).trans (strays_run i)

end Builder

/-! ## What declarations say respects kinds -/

namespace Model

open Instruction

variable {m : Model} {o : Ownership}

theorem kind_of_mem_apisServing {method : Option String} {path : String} {k : Key}
    (h : k ∈ m.apisServing method path) : k.kind = .api := by
  simp only [apisServing, List.mem_eraseDups, List.mem_map, List.mem_filter, endpoints,
    List.mem_flatMap] at h
  obtain ⟨-, ⟨⟨a, -, e, -, rfl⟩, -⟩, rfl⟩ := h
  rfl

theorem endpointClause_allowed {source : Key} {slot : EndpointSlot} {c : Category}
    (hsource : source.kind ∈ c.sources) (htarget : Kind.api ∈ c.targets) (clause : EndpointClause) :
    ∀ i ∈ m.endpointClause o source slot c clause, i.Allowed := by
  unfold endpointClause
  cases o.owner? source with
  | none => simp
  | some component =>
    simp only [List.mem_cons, List.mem_map]
    rintro i (rfl | ⟨k, hk, rfl⟩)
    · trivial
    · exact ⟨hsource, kind_of_mem_apisServing hk ▸ htarget⟩

theorem entityInstructions_allowed : ∀ i ∈ m.entityInstructions, i.Allowed := by
  simp only [entityInstructions, List.mem_flatMap, List.mem_map]
  rintro i ⟨d, -, r, -, rfl⟩
  -- a type that is referred to is an enumeration or an entity, and the category allows both
  refine ⟨List.mem_singleton.2 rfl, ?_⟩
  show (if m.enumNames.contains r then Kind.enumeration else Kind.entity) ∈ _
  split <;> decide

theorem flowItem_allowed {source : Key} (h : source.kind = .flow) (item : FlowItem) :
    ∀ i ∈ m.flowItem source item, i.Allowed := by
  intro i hi
  unfold flowItem at hi
  split at hi
  · split at hi
    · obtain rfl := List.mem_singleton.1 hi
      exact allowed_of_kinds rfl rfl h rfl
    · exact absurd hi List.not_mem_nil
  · split at hi
    · obtain rfl := List.mem_singleton.1 hi
      exact allowed_of_kinds rfl rfl h rfl
    · exact absurd hi List.not_mem_nil
  · split at hi
    · exact absurd hi List.not_mem_nil
    · simp only [List.mem_append, List.mem_map] at hi
      obtain ⟨n, -, rfl⟩ | ⟨n, -, rfl⟩ := hi
      · exact allowed_of_kinds rfl rfl h rfl
      · exact allowed_of_kinds rfl rfl h rfl

theorem flowInstructions_allowed : ∀ i ∈ m.flowInstructions, i.Allowed := by
  simp only [flowInstructions, List.mem_flatMap, List.mem_append, List.mem_map]
  rintro i ⟨f, -, ⟨r, -, rfl⟩ | ⟨item, -, hi⟩⟩
  · exact allowed_of_kinds rfl rfl rfl rfl
  · exact flowItem_allowed rfl item i hi

theorem apiInstructions_allowed : ∀ i ∈ m.apiInstructions, i.Allowed := by
  simp only [apiInstructions, List.mem_flatMap, List.mem_map]
  rintro i ⟨a, -, r, -, rfl⟩
  exact allowed_of_kinds rfl rfl rfl rfl

theorem stateInstructions_allowed : ∀ i ∈ m.stateInstructions, i.Allowed := by
  simp only [stateInstructions, List.mem_flatMap, List.mem_append, List.mem_map]
  rintro i ⟨s, -, (hi | ⟨e, -, rfl⟩) | ⟨d, -, rfl⟩⟩
  · split at hi
    · obtain rfl := List.mem_singleton.1 hi
      exact allowed_of_kinds rfl rfl rfl rfl
    · exact absurd hi List.not_mem_nil
  · exact allowed_of_kinds rfl rfl rfl rfl
  · exact allowed_of_kinds rfl rfl rfl rfl

theorem actionInstructions_allowed : ∀ i ∈ m.actionInstructions, i.Allowed := by
  simp only [actionInstructions, List.mem_flatMap]
  rintro i ⟨a, -, item, -, hi⟩
  unfold actionItem at hi
  split at hi
  · obtain rfl := List.mem_singleton.1 hi
    exact allowed_of_kinds rfl rfl rfl rfl
  · obtain ⟨k, hk, rfl⟩ := List.mem_map.1 hi
    exact allowed_of_kinds rfl rfl rfl (kind_of_mem_apisServing hk)
  · obtain rfl := List.mem_singleton.1 hi
    exact allowed_of_kinds rfl rfl rfl rfl
  · obtain rfl := List.mem_singleton.1 hi
    exact allowed_of_kinds rfl rfl rfl rfl
  · split at hi
    · exact absurd hi List.not_mem_nil
    · obtain rfl := List.mem_singleton.1 hi
      trivial
  · exact absurd hi List.not_mem_nil

theorem ruleInstructions_allowed : ∀ i ∈ m.ruleInstructions, i.Allowed := by
  simp only [ruleInstructions, List.mem_flatMap, ruleItem, List.mem_append]
  rintro i ⟨r, -, item, -, hi | hi⟩
  · split at hi
    · exact absurd hi List.not_mem_nil
    · obtain ⟨n, -, rfl⟩ := List.mem_map.1 hi
      exact allowed_of_kinds rfl rfl rfl rfl
  · split at hi
    · exact absurd hi List.not_mem_nil
    · obtain ⟨w, -, rfl⟩ := List.mem_map.1 hi
      exact allowed_of_kinds rfl rfl rfl rfl

theorem operationInstructions_allowed : ∀ i ∈ m.operationInstructions o, i.Allowed := by
  simp only [operationInstructions, List.mem_flatMap]
  rintro i ⟨d, -, item, -, hi⟩
  cases item with
  | emits c =>
    obtain rfl := List.mem_singleton.1 hi
    exact allowed_of_kinds rfl rfl rfl rfl
  | reacts c =>
    obtain rfl := List.mem_singleton.1 hi
    exact allowed_of_kinds rfl rfl rfl rfl
  | enforces c =>
    obtain rfl := List.mem_singleton.1 hi
    exact allowed_of_kinds rfl rfl rfl rfl
  | handles c => exact endpointClause_allowed (by simp [Category.sources]) (by decide) c i hi
  | calls c => exact endpointClause_allowed (by simp [Category.sources]) (by decide) c i hi
  | comment c => exact absurd hi List.not_mem_nil

theorem flowCallInstructions_allowed : ∀ i ∈ m.flowCallInstructions o, i.Allowed := by
  simp only [flowCallInstructions, List.mem_flatMap]
  rintro i ⟨f, -, item, -, hi⟩
  unfold flowCall at hi
  split at hi
  · split at hi
    · obtain ⟨w, -, rfl⟩ := List.mem_map.1 hi
      exact allowed_of_kinds rfl rfl rfl rfl
    · exact absurd hi List.not_mem_nil
  · exact endpointClause_allowed (by simp [Category.sources]) (by decide) _ i hi
  · exact absurd hi List.not_mem_nil

theorem screenInstructions_allowed : ∀ i ∈ m.screenInstructions, i.Allowed := by
  simp only [screenInstructions, List.mem_flatMap, List.mem_filterMap]
  rintro i ⟨s, -, item, -, hi⟩
  split at hi
  · obtain rfl := Option.some.inj hi
    exact allowed_of_kinds rfl rfl rfl rfl
  · exact absurd hi (by simp)

theorem inheritanceInstructions_allowed : ∀ i ∈ m.inheritanceInstructions, i.Allowed := by
  simp only [inheritanceInstructions, List.mem_flatMap, List.mem_append, List.mem_map]
  rintro i ⟨k, hk, d, -, ⟨p, -, rfl⟩ | ⟨p, -, rfl⟩⟩
  · exact ⟨hk, hk⟩
  · exact ⟨hk, hk⟩

theorem journeyInstructions_allowed : ∀ i ∈ m.journeyInstructions, i.Allowed := by
  simp only [journeyInstructions, List.mem_flatMap]
  rintro i ⟨j, -, item, -, hi⟩
  split at hi
  · obtain ⟨n, -, rfl⟩ := List.mem_map.1 hi
    trivial
  · exact absurd hi List.not_mem_nil

/-- **Everything that the declarations of a model say respects kinds.** -/
theorem instructions_allowed (m : Model) (o : Ownership) : ∀ i ∈ m.instructions o, i.Allowed := by
  simp only [instructions, List.forall_mem_append]
  refine ⟨⟨⟨⟨⟨⟨⟨⟨⟨⟨⟨?_, entityInstructions_allowed⟩, flowInstructions_allowed⟩,
    apiInstructions_allowed⟩, stateInstructions_allowed⟩, actionInstructions_allowed⟩,
    ruleInstructions_allowed⟩, operationInstructions_allowed⟩, flowCallInstructions_allowed⟩,
    screenInstructions_allowed⟩, inheritanceInstructions_allowed⟩, journeyInstructions_allowed⟩
  intro i hi
  obtain ⟨k, -, rfl⟩ := List.mem_map.1 hi
  trivial

end Model

/-! ## Every run -/

namespace Builder

variable {m : Model} {o : Ownership} {b : Builder}

/-- Building keeps the invariant, however often it is done and whatever was there before. -/
theorem balanced_build (h : b.graph.Balanced) : (build m o b).graph.Balanced :=
  balanced_foldl_run _ h (m.instructions_allowed o)

/-- What can be asked of a builder: a single step, or everything that the model says. -/
inductive Command where
  | step (instruction : Instruction)
  | build

/-- Whether the links among the steps respect kinds. -/
def Command.Allowed : Command → Prop
  | step i => i.Allowed
  | build => True

/-- Do what is asked. -/
def obey (m : Model) (o : Ownership) (b : Builder) : Command → Builder
  | .step i => b.run o i
  | .build => build m o b

/-- The invariant and the absence of strays along every run. -/
theorem balanced_foldl_obey (cs : List Command) :
    ∀ {b : Builder}, b.graph.Balanced → b.strays = ∅ → (∀ c ∈ cs, c.Allowed) →
      (cs.foldl (obey m o) b).graph.Balanced ∧ (cs.foldl (obey m o) b).strays = ∅ := by
  induction cs with
  | nil => exact fun h hs _ => ⟨h, hs⟩
  | cons c rest ih =>
    intro b h hs hall
    have hrest : ∀ c ∈ rest, c.Allowed := fun d hd => hall d (List.mem_cons_of_mem _ hd)
    cases c with
    | step i =>
      exact ih (balanced_run h (hall _ List.mem_cons_self)) ((strays_run i).trans hs) hrest
    | build => exact ih (balanced_build h) ((strays_foldl_run _ b).trans hs) hrest

/-- **Graphs are symmetric.** Whatever steps and builds are asked of an empty builder, in whatever
order, its graph can be finished and no edge stands on one end only, as long as links respect kinds.
What a model says always does, and the graph of a model is the case of a single build. -/
theorem commands_symmetric (m : Model) (o : Ownership) (cs : List Command)
    (h : ∀ c ∈ cs, c.Allowed) :
    (∃ g, (cs.foldl (obey m o) {}).finish = .ok g ∧ g.asymmetries = []) ∧
      (∀ i ∈ m.instructions o, i.Allowed) ∧ (m.buildGraph o).asymmetries = [] := by
  obtain ⟨balanced, strays⟩ :=
    balanced_foldl_obey (m := m) (o := o) (b := {}) cs Graph.balanced_empty rfl h
  exact ⟨⟨_, finish_of_strays_eq_empty strays, balanced.asymmetries_eq_nil⟩,
    m.instructions_allowed o, (balanced_build Graph.balanced_empty).asymmetries_eq_nil⟩

/-- An order that extends itself, with a state machine over one of its types. -/
def orderModel : Model where
  entities := [{
    loc := none, name := "Order", parent := some "Order", interfaces := [], decorators := []
    fields := [⟨none, "status", .reference none "Status", []⟩] }]
  enumerations := [⟨none, "Status", [], []⟩]
  states := [⟨none, "Life", "Status", [], [], []⟩]

/-- The constructs of the model, and a rule, belong to one component. -/
def orderOwners : Ownership where
  assignments := Table.ofList
    ([⟨.entity, "Order"⟩, ⟨.enumeration, "Status"⟩, ⟨.state, "Life"⟩, ⟨.rule, "Limit"⟩].map
      fun k => (k, ⟨"Shop", .fallback⟩))
  snapshots := []
  ownable := orderModel.keys
  components := ["Shop"]

/-- The rule governs the order before and after the model is built: twice the same edge, in a slot
that the state uses for its own end of an edge from the order. -/
def orderCommands : List Command :=
  [.step (.link .ruleEntity ⟨.rule, "Limit"⟩ ⟨.entity, "Order"⟩), .build,
    .step (.link .ruleEntity ⟨.rule, "Limit"⟩ ⟨.entity, "Order"⟩), .build]

theorem commands_symmetric_order :
    (∀ c ∈ orderCommands, c.Allowed) ∧
      (orderCommands.foldl (obey orderModel orderOwners) {}).edgeCount = 5 ∧
      (∃ g, (orderCommands.foldl (obey orderModel orderOwners) {}).finish = .ok g ∧
        g.asymmetries = []) := by
  have allowed : ∀ c ∈ orderCommands, c.Allowed := by
    simp [orderCommands, Command.Allowed, Instruction.Allowed, Category.sources, Category.targets]
  obtain ⟨symmetric, -⟩ := commands_symmetric orderModel orderOwners orderCommands allowed
  exact ⟨allowed, by decide +kernel, symmetric⟩

end Builder

end Blueprint
