import Blueprint.Proofs.Graph.Rebuilding

/-!
# Edges do not depend on notes

A record holds references and, beside them, the endpoints that clauses name. Building looks at
references only, so it goes the same way if nothing is noted: a note that is muted still touches its
construct, and the graph that comes of it is the same without its endpoints.

- `Graph.bare`, `Graph.edges_bare`: a graph without endpoints has the same edges.
- `Instruction.mute`: an instruction that notes nothing.
- `Builder.bare_run`, `Builder.bare_foldl_run`: muted instructions build a graph without endpoints.
- `Model.edges_eq_of_mute_eq`: instructions that differ in notes only give the same edges.
-/

namespace Blueprint

/-! ## Graphs without endpoints -/

theorem Table.upsertEntries_map {κ α β : Type} [DecidableEq κ] (f : κ → α → β) (k : κ) (v : α)
    (es : List (κ × α)) :
    (upsertEntries k (fun _ => v) es).map (fun e => (e.1, f e.1 e.2)) =
      upsertEntries k (fun _ => f k v) (es.map fun e => (e.1, f e.1 e.2)) := by
  induction es with
  | nil => rfl
  | cons e rest ih =>
    obtain ⟨k', w⟩ := e
    by_cases h : k' = k
    · simp [upsertEntries, h]
    · simp [upsertEntries, h, ih]

/-- Values can be replaced before or after one is set. -/
theorem Table.mapValues_insert {κ α β : Type} [DecidableEq κ] (f : κ → α → β) (t : Table κ α)
    (k : κ) (v : α) : (t.insert k v).mapValues f = (t.mapValues f).insert k (f k v) :=
  Table.ext (upsertEntries_map f k v t.entries)

/-- A record without endpoints. -/
def Record.bare (r : Record) : Record := { r with endpoints := fun _ => [] }

def Vertex.bare (v : Vertex) : Vertex := { v with record := v.record.bare }

/-- A graph without endpoints. -/
def Graph.bare (g : Graph) : Graph := ⟨g.vertices.mapValues fun _ v => v.bare⟩

namespace Graph

variable {g : Graph} {k : Key}

theorem find?_bare : g.bare.vertices.find? k = (g.vertices.find? k).map Vertex.bare :=
  Table.find?_mapValues ..

theorem ref?_bare : g.bare.ref? k = g.ref? k := by
  rw [ref?, find?_bare, Option.map_map]
  rfl

theorem refsAt_bare (s : Slot) : g.bare.refsAt k s = g.refsAt k s := by
  rw [refsAt, refsAt, record?, record?, find?_bare, Option.map_map, Option.map_map, Option.map_map]
  rfl

/-- Edges are read off references. -/
theorem edges_bare (g : Graph) : g.bare.edges = g.edges := by
  rw [edges, edgesIn, bare, Table.entries_mapValues, List.flatMap_map]
  rfl

end Graph

/-! ## Muted instructions -/

/-- An instruction that touches what it would have noted something for. -/
def Instruction.mute : Instruction → Instruction
  | annotate k _ _ => touch k
  | i => i

namespace Builder

open Blueprint.Graph

variable {o : Ownership}

/-- A builder whose graph is without endpoints. -/
def bare (b : Builder) : Builder := { b with graph := b.graph.bare }

theorem bare_touch (b : Builder) (k : Key) : (b.touch o k).bare = b.bare.touch o k := by
  have hcontains : b.bare.graph.vertices.contains k = b.graph.vertices.contains k := by
    rw [Table.contains, bare, find?_bare, Option.isSome_map, Table.contains]
  unfold touch
  rw [hcontains]
  split
  · rfl
  · cases o.owner? k with
    | none => rfl
    | some component =>
      simp only [bare, Graph.bare, Table.mapValues_insert]
      rfl

/-- A change of records goes the same way without endpoints if it does so for each record. -/
theorem bare_modify (b : Builder) (k : Key) {f g : Record → Record}
    (h : ∀ r, (f r).bare = g r.bare) : (b.modify k f).bare = b.bare.modify k g := by
  unfold modify
  rw [bare, bare, find?_bare]
  cases b.graph.vertices.find? k with
  | none => rfl
  | some v => simp only [Option.map_some, Graph.bare, Table.mapValues_insert, Vertex.bare, h]

theorem bare_modify_setRefs (b : Builder) (k : Key) (s : Slot) (f : List Ref → List Ref) :
    (b.modify k fun r => r.setRefs s (f (r.refs s))).bare =
      b.bare.modify k fun r => r.setRefs s (f (r.refs s)) :=
  b.bare_modify k fun _ => rfl

theorem bare_connect (b : Builder) (c : Category) (source target : Ref) :
    (b.connect c source target).bare = b.bare.connect c source target := by
  have hforward := b.bare_modify_setRefs source.key c.forward fun refs => refs ++ [target]
  have hinverse := fun b' : Builder =>
    b'.bare_modify_setRefs target.key c.inverse fun refs => addNew refs source
  have hboth := (hinverse _).trans (congrArg (fun b' => modify b' target.key _) hforward)
  exact congrArg (fun b' : Builder => { b' with edgeCount := b'.edgeCount + 1 }) hboth

theorem bare_link (b : Builder) (c : Category) (source target : Key) :
    (b.link o c source target).1.bare = (b.bare.link o c source target).1 := by
  have htouch : (b.bare.touch o source).touch o target =
      ((b.touch o source).touch o target).bare := by
    rw [bare_touch, bare_touch]
  simp only [link, htouch]
  -- from here on only the views of the touched builder matter
  generalize (b.touch o source).touch o target = b'
  have hs : b'.bare.graph.ref? source = b'.graph.ref? source := ref?_bare
  have ht : b'.bare.graph.ref? target = b'.graph.ref? target := ref?_bare
  have hheld : b'.bare.graph.refsAt source c.forward = b'.graph.refsAt source c.forward :=
    refsAt_bare c.forward
  have hblocked : b'.bare.isBlocked c source = b'.isBlocked c source := rfl
  rw [hs, ht, hheld, hblocked]
  split
  · split
    · rfl
    · exact bare_connect ..
  · rfl

/-- **The step: a muted instruction builds the graph without endpoints.** -/
theorem bare_run (b : Builder) (i : Instruction) : (b.run o i).bare = b.bare.run o i.mute := by
  cases i with
  | touch k => exact b.bare_touch k
  | link c source target => exact b.bare_link c source target
  | annotate k s e =>
    have hnote := (b.touch o k).bare_modify k (f := fun r => r.addEndpoint s e) (g := id)
      fun _ => rfl
    show (b.annotate o k s e).bare = b.bare.touch o k
    rw [annotate, hnote, bare_touch]
    -- what was noted is gone, so the change to the record is none
    exact modify_of_same fun _ _ => rfl

/-- **The run.** -/
theorem bare_foldl_run (is : List Instruction) (b : Builder) :
    (is.foldl (Builder.run o) b).bare = (is.map Instruction.mute).foldl (Builder.run o) b.bare := by
  induction is generalizing b with
  | nil => rfl
  | cons i rest ih => rw [List.foldl_cons, ih, bare_run, List.map_cons, List.foldl_cons]

end Builder

/-- Models whose instructions differ in notes only have the same edges. -/
theorem Model.edges_eq_of_mute_eq {m m' : Model} {o : Ownership}
    (h : (m'.instructions o).map Instruction.mute = (m.instructions o).map Instruction.mute) :
    (m'.buildGraph o).edges = (m.buildGraph o).edges := by
  have hbare : ∀ m : Model, (m.buildGraph o).edges =
      (((m.instructions o).map Instruction.mute).foldl (Builder.run o) {}).graph.edges := by
    intro m
    rw [← Graph.edges_bare]
    exact congrArg (fun b => b.graph.edges) (Builder.bare_foldl_run (m.instructions o) {})
  rw [hbare, h, ← hbare]

end Blueprint
