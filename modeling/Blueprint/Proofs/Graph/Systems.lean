import Blueprint.Proofs.Graph.Integrity
import Blueprint.Proofs.Model.Alteration
import Blueprint.Proofs.Model.Revision
import Blueprint.Proofs.Resolution.FullyExpanded

/-!
# Systems are transparent

A system groups components. Owners and relationships do not depend on the grouping: a document in
which every system gives way to what it holds has the same owners and the same graph. This takes
more than the order of the walk over the document. A construct that stood in a system inside a
component would come to stand directly in the component, where it has an owner at once. No such
construct exists in a document that was read or merged.

- `Component.face`, `Model.Alters.faces`, `Model.regroup`: what an analysis sees of a component,
  which altered constructs do not change, and a model with other systems and components.
- `Model.assignOwners_regroup`, `Model.buildGraph_regroup`: other components with the same faces
  make no difference, and systems never do.
- `Document.withoutSystems`, `Document.collect_withoutSystems`: the document in which systems give
  way to what they hold, and its model.
- `Item.AllBare`, `Document.Arises`: systems without constructs of their own, which are the only
  ones in documents that were read or merged.
- `Document.systems_transparent`: the analysis does not notice.
-/

namespace Blueprint

/-! ## What an analysis sees of components -/

/-- What an analysis sees of a component: its head, and the constructs that stand directly in it. -/
def Component.face (c : Component) : ComponentHead × List Key := (c.head, Pass.nestedKeys c)

theorem Pass.nestedKeys_eq (c : Component) :
    nestedKeys c = c.body.filterMap Item.constructKey? := rfl

namespace Model

/-- Altered constructs do not show in the faces of components. -/
theorem Alters.faces {R : Construct → Construct → Prop} {m m' : Model} (h : m.Alters R m') :
    m'.components.map Component.face = m.components.map Component.face := by
  have hface : Component.face = fun c => (c.head, c.body.filterMap Item.constructKey?) := rfl
  rw [hface]
  exact h.components

variable (m : Model) (ss : List System) {cs : List Component} {o : Ownership}

/-- The model with other systems and components. -/
def regroup (cs : List Component) : Model := { m with systems := ss, components := cs }

section

variable (h : cs.map Component.face = m.components.map Component.face)

include h

/-- What is read off heads alone stays. -/
theorem map_head_regroup {α : Type} (f : ComponentHead → α) :
    (cs.map fun c => f c.head) = m.components.map fun c => f c.head := by
  have hmap := congrArg (List.map fun p => f p.1) h
  rwa [List.map_map, List.map_map] at hmap

theorem componentNames_regroup : (m.regroup ss cs).componentNames = m.componentNames :=
  map_head_regroup m h ComponentHead.name

theorem keysOf_regroup {k : Kind} (hk : k ≠ .system) :
    (m.regroup ss cs).keysOf k = m.keysOf k := by
  cases k with
  | system => exact absurd rfl hk
  | component =>
    have hkeys := map_head_regroup m h fun head => (⟨.component, head.name⟩ : Key)
    simp only [keysOf, itemsOf, regroup, List.filterMap_map, Function.comp_def, Item.key?,
      List.filterMap_eq_map']
    exact hkeys
  | _ => rfl

theorem keys_regroup : (m.regroup ss cs).keys = m.keys := by
  have hkeys : ∀ ks : List Kind, .system ∉ ks →
      ks.flatMap (m.regroup ss cs).keysOf = ks.flatMap m.keysOf := by
    intro ks hks
    induction ks with
    | nil => rfl
    | cons k ks ih =>
      rw [List.mem_cons, not_or] at hks
      rw [List.flatMap_cons, List.flatMap_cons, keysOf_regroup m ss h (Ne.symm hks.1), ih hks.2]
  exact hkeys Kind.ownable (by decide)

/-- **A pass has the same candidates.** Only the first pass looks into components. -/
theorem candidates_regroup (e : Evidence) (owners : Owners) (p : Pass) :
    p.candidates (m.regroup ss cs) e owners = p.candidates m e owners := by
  have hnames := componentNames_regroup m ss h
  cases p with
  | directNesting =>
    -- the candidates of the first pass are read off the faces
    have hfaces := congrArg (List.flatMap fun p : ComponentHead × List Key =>
      (⟨.component, p.1.name⟩ :: p.2).map fun k => (k, some p.1.name)) h
    rwa [List.flatMap_map, List.flatMap_map] at hfaces
  | apiNamePrefix =>
    have hnamesake : Pass.namesake? (m.regroup ss cs) = Pass.namesake? m := by
      funext a
      rw [Pass.namesake?, hnames, Pass.namesake?]
    show (m.apis.map fun a => (a.key, Pass.namesake? (m.regroup ss cs) a)) = _
    rw [hnamesake]
    rfl
  | kindHeuristics =>
    have hrules : Pass.ruleOwner? (m.regroup ss cs) owners = Pass.ruleOwner? m owners := by
      funext r
      rw [Pass.ruleOwner?, hnames, Pass.ruleOwner?]
      rfl
    have hoperations :
        Pass.operationOwner? (m.regroup ss cs) owners = Pass.operationOwner? m owners := by
      funext d
      rw [Pass.operationOwner?, hnames, Pass.operationOwner?]
    simp only [Pass.candidates, Pass.heuristics, hrules, hoperations]
    rfl
  | fallback =>
    show ((m.regroup ss cs).keys.map fun k => (k, (m.regroup ss cs).componentNames.head?)) = _
    rw [keys_regroup m ss h, hnames]
    rfl
  | _ => rfl

/-- **Owners do not depend on systems**, nor on components beyond their faces. -/
theorem assignOwners_regroup : (m.regroup ss cs).assignOwners = m.assignOwners := by
  have hobserve : ∀ (p : Pass) (owners : Owners) (e : Evidence),
      p.observe (m.regroup ss cs) owners e = p.observe m owners e := by
    intro p owners e
    cases p <;> rfl
  exact assignOwners_congr hobserve (fun p e owners _ => candidates_regroup m ss h e owners p)
    (keys_regroup m ss h) (componentNames_regroup m ss h)

/-- **Nor does the graph.** Of components it shows the ancestry. -/
theorem buildGraph_regroup (o : Ownership) : (m.regroup ss cs).buildGraph o = m.buildGraph o := by
  have hlineages : (m.regroup ss cs).lineages = m.lineages := by
    funext k
    cases k with
    | component =>
      exact map_head_regroup m h fun head => (⟨head.name, head.parent, head.interfaces⟩ : Lineage)
    | _ => rfl
  have hinstructions : (m.regroup ss cs).instructions o = m.instructions o := by
    have hinheritance :
        (m.regroup ss cs).inheritanceInstructions = m.inheritanceInstructions := by
      rw [inheritanceInstructions, hlineages, inheritanceInstructions]
    rw [instructions, hinheritance]
    rfl
  rw [buildGraph, Builder.build, hinstructions]
  rfl

end

end Model

/-! ## Systems give way -/

namespace Item

mutual

/-- What an item comes to when systems give way to what they hold. -/
def dissolve : Item → List Item
  | system _ body => dissolveAll body
  | component head body => [component head (dissolveAll body)]
  | i => [i]

/-- What the items of a list come to. -/
def dissolveAll : List Item → List Item
  | [] => []
  | i :: rest => dissolve i ++ dissolveAll rest

end

/-- Whether an item is a system. -/
def isSystem : Item → Bool
  | system _ _ => true
  | _ => false

end Item

/-- The document in which every system, wherever it stands, gives way to what it holds. -/
def Document.withoutSystems (d : Document) : Document :=
  { d with body := Item.dissolveAll d.body }

def Component.withoutSystems (c : Component) : Component :=
  { c with body := Item.dissolveAll c.body }

/-- The model without systems. -/
def Model.withoutSystems (m : Model) : Model :=
  m.regroup [] (m.components.map Component.withoutSystems)

namespace Model

theorem withoutSystems_addConstruct (m : Model) (c : Construct) :
    (m.addConstruct c).withoutSystems = m.withoutSystems.addConstruct c := by
  cases c <;> rfl

mutual

theorem addItems_dissolve (m : Model) (i : Item) :
    m.withoutSystems.addItems i.dissolve = (m.addItem i).withoutSystems := by
  cases i with
  | system head body =>
    -- what the system holds is collected in its place
    exact addItems_dissolveAll { m with systems := m.systems ++ [⟨head, body⟩] } body
  | component head body =>
    have hadd : { m.withoutSystems with
        components := m.withoutSystems.components ++
          [({ head, body := Item.dissolveAll body } : Component)] } =
        { m with components := m.components ++ [({ head, body } : Component)] }.withoutSystems := by
      simp [withoutSystems, regroup, Component.withoutSystems]
    rw [addItem, ← addItems_dissolveAll, ← hadd]
    rfl
  | construct decl => exact (withoutSystems_addConstruct m decl).symm
  | inclusion directive => rfl
  | comment text => rfl
  | unparsed line => rfl
  | fragment part => rfl

theorem addItems_dissolveAll (m : Model) (items : List Item) :
    m.withoutSystems.addItems (Item.dissolveAll items) = (m.addItems items).withoutSystems := by
  cases items with
  | nil => rfl
  | cons i rest =>
    rw [Item.dissolveAll, addItems_append, addItems_dissolve, addItems_dissolveAll]
    rfl

end

end Model

/-- **A document without systems has the model without systems**: every kind keeps its order. -/
theorem Document.collect_withoutSystems (d : Document) :
    d.withoutSystems.collect = d.collect.withoutSystems :=
  Model.addItems_dissolveAll {} d.body

namespace Item

mutual

theorem preorderAll_dissolve (i : Item) :
    (preorderAll i.dissolve).map shell = (i.preorder.filter fun j => !j.isSystem).map shell := by
  cases i with
  | system head body => exact preorderAll_dissolveAll body
  | component head body =>
    have hbody := preorderAll_dissolveAll body
    simpa [dissolve, preorderAll, preorder, isSystem, shell] using hbody
  | _ => rfl

theorem preorderAll_dissolveAll (items : List Item) :
    (preorderAll (dissolveAll items)).map shell =
      ((preorderAll items).filter fun j => !j.isSystem).map shell := by
  cases items with
  | nil => rfl
  | cons i rest =>
    rw [dissolveAll, preorderAll_eq_flatMap, List.flatMap_append, ← preorderAll_eq_flatMap,
      ← preorderAll_eq_flatMap, List.map_append, preorderAll_dissolve, preorderAll_dissolveAll,
      preorderAll, List.filter_append, List.map_append]

end

/-! ## Systems without constructs -/

/-- An item that is no system, or a system in which no construct stands directly. -/
def Bare : Item → Prop
  | system _ body => ∀ decl, construct decl ∉ body
  | _ => True

/-- The items of a list and all items in them are bare. -/
def AllBare (items : List Item) : Prop := ∀ i ∈ preorderAll items, i.Bare

theorem allBare_cons {i : Item} {rest : List Item} :
    AllBare (i :: rest) ↔ i.Bare ∧ AllBare i.body ∧ AllBare rest := by
  simp only [AllBare, preorderAll, preorder_eq_cons, List.forall_mem_append,
    List.forall_mem_cons, and_assoc]

mutual

theorem constructKeys_dissolve {i : Item} (h : AllBare [i]) :
    i.dissolve.filterMap constructKey? = [i].filterMap constructKey? := by
  cases i with
  | system head body =>
    obtain ⟨hbare, hbody, -⟩ := allBare_cons.1 h
    have hnone : body.filterMap constructKey? = [] := by
      refine List.filterMap_eq_nil_iff.2 fun x hx => ?_
      cases x with
      | construct decl => exact absurd hx (hbare decl)
      | _ => rfl
    exact (constructKeys_dissolveAll hbody).trans hnone
  | _ => rfl

/-- When systems without constructs give way, no other construct comes to stand in their place. -/
theorem constructKeys_dissolveAll {items : List Item} (h : AllBare items) :
    (dissolveAll items).filterMap constructKey? = items.filterMap constructKey? := by
  cases items with
  | nil => rfl
  | cons i rest =>
    obtain ⟨hi, hbody, hrest⟩ := allBare_cons.1 h
    have hfirst : AllBare [i] := allBare_cons.2 ⟨hi, hbody, nofun⟩
    rw [dissolveAll, List.filterMap_append, constructKeys_dissolve hfirst,
      constructKeys_dissolveAll hrest, ← List.filterMap_append]
    rfl

end

end Item

/-! ## Documents that were read or merged -/

namespace Item

variable {items : List Item}

theorem allBare_of_standsInComponent (h : ∀ i ∈ items, i.standsInComponent = true) :
    AllBare items := by
  induction items with
  | nil => exact nofun
  | cons i rest ih =>
    rw [List.forall_mem_cons] at h
    have hrest := ih h.2
    cases i with
    | system | component => cases h.1
    | _ => exact allBare_cons.2 ⟨trivial, nofun, hrest⟩

theorem allBare_of_standsInSystem (h : ∀ i ∈ items, i.standsInSystem = true) : AllBare items := by
  induction items with
  | nil => exact nofun
  | cons i rest ih =>
    rw [List.forall_mem_cons] at h
    have hrest := ih h.2
    cases i with
    | component head body =>
      have hbody := allBare_of_standsInComponent (List.all_eq_true.1 h.1)
      exact allBare_cons.2 ⟨trivial, hbody, hrest⟩
    | system => cases h.1
    | _ => exact allBare_cons.2 ⟨trivial, nofun, hrest⟩

/-- In a file, a system holds no construct. -/
theorem allBare_of_standsInDocument (h : ∀ i ∈ items, i.standsInDocument = true) :
    AllBare items := by
  induction items with
  | nil => exact nofun
  | cons i rest ih =>
    rw [List.forall_mem_cons] at h
    have hrest := ih h.2
    cases i with
    | system head body =>
      have hstands : ∀ x ∈ body, x.standsInSystem = true := List.all_eq_true.1 h.1
      have hbare : ∀ decl, construct decl ∉ body := by
        intro decl hdecl
        exact nomatch hstands _ hdecl
      exact allBare_cons.2 ⟨hbare, allBare_of_standsInSystem hstands, hrest⟩
    | component head body =>
      have hbody := allBare_of_standsInComponent (List.all_eq_true.1 h.1)
      exact allBare_cons.2 ⟨trivial, hbody, hrest⟩
    | _ => exact allBare_cons.2 ⟨trivial, nofun, hrest⟩

/-- What may stay in a system is no construct. -/
theorem AllSettled.allBare (h : AllSettled items) : AllBare items := by
  intro i hi
  have hsettled := h i hi
  cases i with
  | system head body =>
    intro decl hdecl
    exact nomatch hsettled _ hdecl
  | _ => exact trivial

end Item

namespace Document

variable {d : Document}

/-- A document was read by a parser, or merged by a resolution. -/
inductive Arises : Document → Prop
  | parsed {parse : Parser} {source path : String} {d : Document} (placed : parse.WellPlaced)
      (read : parse source path = .ok d) : Arises d
  | merged {j : Job} {res : Resolution} (placed : j.parse.WellPlaced) (yields : j.Yields res) :
      Arises res.document

theorem Arises.allBare (h : d.Arises) : Item.AllBare d.body := by
  cases h with
  | parsed placed read => exact Item.allBare_of_standsInDocument (placed _ _ _ read)
  | merged placed yields =>
    exact (Job.allSettled_of_ending placed (Job.ending_of_yields yields)).allBare

/-- Components keep their faces when the systems of a document are bare. -/
theorem map_face_withoutSystems (h : Item.AllBare d.body) :
    (d.collect.components.map Component.withoutSystems).map Component.face =
      d.collect.components.map Component.face := by
  rw [List.map_map]
  refine List.map_congr_left fun c hc => ?_
  have hbare : Item.AllBare c.body := by
    intro i hi
    refine h i (Item.preorder_subset_preorderAll (mem_components_collect_iff.1 hc) ?_)
    exact List.mem_cons_of_mem _ hi
  show (c.head, Pass.nestedKeys c.withoutSystems) = (c.head, Pass.nestedKeys c)
  rw [Pass.nestedKeys_eq, Pass.nestedKeys_eq]
  exact congrArg _ (Item.constructKeys_dissolveAll hbare)

/-- **Systems are transparent.** Take a document that was read or merged and let every system, at
any depth, give way to what it holds: what else stands in the document is still there, in the same
order. The owners are the same, found by the same passes in the same order, and so is the graph with
its records and edges. The parser of JSON texts is one of those whose documents this holds of. -/
theorem systems_transparent :
    Parser.WellPlaced Document.parse ∧
    ∀ d : Document, d.Arises →
      d.withoutSystems.preorder.map Item.shell =
        (d.preorder.filter fun i => !i.isSystem).map Item.shell ∧
      d.withoutSystems.owners = d.owners ∧ d.withoutSystems.graph = d.graph ∧
      d.withoutSystems.graph.edges = d.graph.edges := by
  refine ⟨wellPlaced_parse, fun d hd => ?_⟩
  have hfaces := map_face_withoutSystems hd.allBare
  have howners : d.withoutSystems.owners = d.owners := by
    rw [owners, collect_withoutSystems]
    exact d.collect.assignOwners_regroup [] hfaces
  have hgraph : d.withoutSystems.graph = d.graph := by
    rw [graph, howners, collect_withoutSystems]
    exact d.collect.buildGraph_regroup [] hfaces d.owners
  exact ⟨Item.preorderAll_dissolveAll d.body, howners, hgraph, congrArg Graph.edges hgraph⟩

end Document

namespace Job

/-- A plaza that includes a market in one of its components, and a guild of stalls with it. -/
def plaza : Job where
  resolver := {}
  tree := sampleTree ["main", "market"]
  parse source path :=
    match source with
    | "main" => .ok { body :=
        [ .system ⟨none, "Town", []⟩ [.component ⟨none, "Hall", none, [], []⟩ []],
          .component ⟨none, "Plaza", none, [], []⟩ [sampleDirective "market"],
          .construct (.event ⟨none, "WareSold", none, [], [], []⟩) ] }
    | "market" => .ok { body :=
        [ .system ⟨none, "Guild", []⟩
            [.component ⟨none, "Till", some "Hall", [], []⟩
              [.construct (.secret ⟨none, "pin", []⟩)]],
          .construct (.entity ⟨none, "Ware", none, [], [], []⟩) ] }
    | _ => .error (.refused ⟨path, "Expecting value", some (1, 1)⟩)
  origin := .file "main.mfd"

theorem wellPlaced_plaza : plaza.parse.WellPlaced := by
  intro source path d h
  dsimp only [plaza] at h
  split at h <;> cases h <;> decide

theorem looksUp_plaza : plaza.LooksUp := by
  refine looksUp_of_list [.mk ["w", "main.mfd"], .mk ["w", "market.mfd"]] ?_ ?_ ?_
  · decide +kernel
  · decide +kernel
  · decide +kernel

/-- In the plaza, the guild stands inside a component. Without it and the town, the sale still goes
to the plaza, whose ware it names, and the till still extends the hall. -/
theorem plaza_systems_transparent :
    plaza.parse.WellPlaced ∧ ∃ res, plaza.Yields res ∧
      res.document.preorder.map Item.key? =
        [some ⟨.system, "Town"⟩, some ⟨.component, "Hall"⟩, some ⟨.component, "Plaza"⟩,
          some ⟨.system, "Guild"⟩, some ⟨.component, "Till"⟩, some ⟨.secret, "pin"⟩,
          some ⟨.entity, "Ware"⟩, some ⟨.event, "WareSold"⟩] ∧
      res.document.owners.assignments.find? ⟨.event, "WareSold"⟩ =
        some ⟨"Plaza", .kindHeuristics⟩ ∧
      res.document.withoutSystems.owners = res.document.owners ∧
      res.document.withoutSystems.graph = res.document.graph ∧
      res.document.withoutSystems.graph.edges.length = 1 := by
  obtain ⟨res, hyields⟩ := exists_yields looksUp_plaza
  have hkeys : plaza.result?.map (fun res => res.document.preorder.map Item.key?) =
      some [some ⟨.system, "Town"⟩, some ⟨.component, "Hall"⟩, some ⟨.component, "Plaza"⟩,
        some ⟨.system, "Guild"⟩, some ⟨.component, "Till"⟩, some ⟨.secret, "pin"⟩,
        some ⟨.entity, "Ware"⟩, some ⟨.event, "WareSold"⟩] := by decide +kernel
  have hsold : plaza.result?.map (fun res =>
      res.document.owners.assignments.find? ⟨.event, "WareSold"⟩) =
      some (some ⟨"Plaza", .kindHeuristics⟩) := by decide +kernel
  have hcount : plaza.result?.map (fun res => res.document.graph.edges.length) = some 1 := by
    decide +kernel
  rw [yields_iff.1 hyields, Option.map_some, Option.some_inj] at hkeys hsold hcount
  obtain ⟨-, howners, hgraph, hedges⟩ :=
    Document.systems_transparent.2 res.document (.merged wellPlaced_plaza hyields)
  refine ⟨wellPlaced_plaza, res, hyields, hkeys, hsold, howners, hgraph, ?_⟩
  rw [hedges, hcount]

end Job

end Blueprint
