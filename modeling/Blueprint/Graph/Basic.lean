import Blueprint.Graph.Category
import Blueprint.Json.Basic
import Blueprint.Schema
import Blueprint.Table

/-!
# Relationship graphs

A graph has a vertex for each construct: the construct's reference and its record. Every edge should
stand on both of its ends. The specification asks for this of every graph that is built (§4.4, §8).

- `Graph.edges`: the edges, each read from its source.
- `Graph.asymmetries`: edges that stand on one end only.
- `Graph.overview`: the edges of an overview.
- `Record.ofFields`: a record from what is given for each of its fields.
- `Graph.toEntries`: the graph as JSON values, empty slots left out.
-/

namespace Blueprint

/-- A construct with its owner and its references. -/
structure Vertex where
  ref : Ref
  record : Record := {}

/-- The relationships between the constructs of a model. -/
structure Graph where
  vertices : Table Key Vertex := ∅

namespace Graph

/-- The reference of a construct. -/
def ref? (g : Graph) (k : Key) : Option Ref := (g.vertices.find? k).map Vertex.ref

/-- The record of a construct. -/
def record? (g : Graph) (k : Key) : Option Record := (g.vertices.find? k).map Vertex.record

/-- The edges of a category that start from a vertex. -/
def edgesOfVertex (k : Key) (v : Vertex) (c : Category) : List Edge :=
  if c.sources.contains k.kind then
    ((v.record.refs c.forward).filter fun t => c.targets.contains t.kind).map fun t => ⟨v.ref, c, t⟩
  else []

/-- The edges of the given categories, vertex by vertex. -/
def edgesIn (g : Graph) (categories : List Category) : List Edge :=
  g.vertices.entries.flatMap fun e => categories.flatMap (edgesOfVertex e.1 e.2)

/-- All edges, each read from its source. -/
def edges (g : Graph) : List Edge := g.edgesIn Category.all

/-- The edges of one category. -/
def edgesOf (g : Graph) (c : Category) : List Edge := g.edgesIn [c]

/-- The edges shown in an overview (specification, §4.4). -/
def overview (g : Graph) : List Edge := g.edges.filter fun e => e.category.inOverview

/-- The references that a construct's record holds in a slot. -/
def refsAt (g : Graph) (k : Key) (s : Slot) : List Ref :=
  ((g.record? k).map fun r => r.refs s).getD []

/-- The edges of a category that lead to a vertex, read from the vertex. -/
def inversesOfVertex (k : Key) (v : Vertex) (c : Category) : List Edge :=
  if c.targets.contains k.kind then
    ((v.record.refs c.inverse).filter fun s => c.sources.contains s.kind).map fun s => ⟨s, c, v.ref⟩
  else []

/-- All edges, each read from its target. -/
def inverses (g : Graph) : List Edge :=
  g.vertices.entries.flatMap fun e => Category.all.flatMap (inversesOfVertex e.1 e.2)

/-- Whether the target of an edge knows the edge. -/
def targetKnows (g : Graph) (e : Edge) : Bool :=
  (g.refsAt e.target.key e.category.inverse).contains e.source

/-- Whether the source of an edge knows the edge. -/
def sourceKnows (g : Graph) (e : Edge) : Bool :=
  (g.refsAt e.source.key e.category.forward).contains e.target

/-- The edges that stand on one end only: those that their target does not know, then those that
their source does not know (specification, §4.4). -/
def asymmetries (g : Graph) : List Edge :=
  (g.edges.filter fun e => !g.targetKnows e) ++ g.inverses.filter fun e => !g.sourceKnows e

end Graph

/-! ## Records from fields -/

/-- What is given for a field of a record. -/
inductive FieldValue where
  | single (ref : Ref)
  | many (refs : List Ref)

/-- The mismatch of something that is no reference in a slot; in a list, the first such position. -/
def Slot.mismatch (s : Slot) (position : Nat) : Schema.Mismatch :=
  ⟨.key s.label :: if s.isSingle then [] else [.index position], .notObject "ConstructRef"⟩

/-- The mismatch of something that is no endpoint in an endpoint slot. -/
def EndpointSlot.mismatch (s : EndpointSlot) : Schema.Mismatch :=
  ⟨[.key s.label, .index 0], .notObject "EndpointRef"⟩

namespace Record

/-- Fill a slot from the fields. A single reference is given as such and others as a list. -/
def fillSlot (fields : List (String × FieldValue)) (r : Record) (s : Slot) :
    Except Schema.Mismatch Record :=
  match fields.lookup s.label with
  | none => .ok r
  | some (.single ref) => if s.isSingle then .ok (r.setRefs s [ref]) else .error (s.mismatch 0)
  | some (.many refs) => if s.isSingle then .error (s.mismatch 0) else .ok (r.setRefs s refs)

/-- Whether an endpoint slot gets no references from the fields. -/
def checkEndpoints (fields : List (String × FieldValue)) (s : EndpointSlot) :
    Except Schema.Mismatch Unit :=
  match fields.lookup s.label with
  | none => .ok ()
  | some (.many []) => .ok ()
  | some _ => .error s.mismatch

/-- The record with what is given for its fields. Fields that a record does not have are passed
over. -/
def ofFields (fields : List (String × FieldValue)) : Except Schema.Mismatch Record := do
  let r ← Slot.all.foldlM (fillSlot fields) {}
  EndpointSlot.all.forM (checkEndpoints fields)
  return r

end Record

/-! ## Graphs as JSON values -/

/-- A reference. -/
def Ref.toJson (r : Ref) : Json :=
  .obj [("component", .str r.component), ("kind", .str r.kind.label), ("name", .str r.name)]

/-- An endpoint. -/
def EndpointRef.toJson (e : EndpointRef) : Json :=
  .obj [("method", .str e.method), ("path", .str e.path), ("component", .str e.component)]

namespace Record

/-- What a slot holds: a reference or null if it holds at most one, else a list. -/
def slotJson (r : Record) (s : Slot) : Json :=
  if s.isSingle then ((r.refs s).head?.map Ref.toJson).getD .null
  else .arr ((r.refs s).map Ref.toJson)

/-- What an endpoint slot holds. -/
def endpointsJson (r : Record) (s : EndpointSlot) : Json :=
  .arr ((r.endpoints s).map EndpointRef.toJson)

/-- Every slot of a record. -/
def toMembers (r : Record) : List (String × Json) :=
  Slot.all.map (fun s => (s.label, r.slotJson s)) ++
    EndpointSlot.all.map fun s => (s.label, r.endpointsJson s)

/-- The slots of a record that hold something. -/
def toFilledMembers (r : Record) : List (String × Json) :=
  (Slot.all.filter fun s => !(r.refs s).isEmpty).map (fun s => (s.label, r.slotJson s)) ++
    (EndpointSlot.all.filter fun s => !(r.endpoints s).isEmpty).map fun s =>
      (s.label, r.endpointsJson s)

end Record

/-- The graph as JSON: for each construct, under its key as text, its owner and the slots that hold
something. -/
def Graph.toEntries (g : Graph) : List (String × Json) :=
  g.vertices.entries.map fun e =>
    (e.1.text, .obj (("component", .str e.2.ref.component) :: e.2.record.toFilledMembers))

end Blueprint
