import Blueprint.Graph.Builder
import Blueprint.Ownership.Basic
import Blueprint.Resolution.Basic

/-!
# Analyses

Everything there is to know about a model that starts from a root file: the merged document, its
constructs, their owners and their relationships. Problems with includes do not stop an analysis; it
works on whatever could be merged. The stages are those of the pipeline in the specification (§2).
-/

namespace Blueprint

/-- The outcome of every stage for one root file. -/
structure Analysis where
  resolution : Resolution
  model : Model
  owners : Ownership
  graph : Graph

namespace Analysis

/-- Whether nothing was reported. -/
def ok (a : Analysis) : Bool := a.resolution.ok

/-- Analyse a merged document. -/
def ofResolution (r : Resolution) : Analysis :=
  let model := r.document.collect
  let owners := model.assignOwners
  { resolution := r, model, owners, graph := model.buildGraph owners }

/-- What the stages after resolution note in the journal. -/
def stageNotes (a : Analysis) : Journal :=
  a.resolution.document.collectNotes ++ a.model.ownershipNotes ++ a.model.graphNotes a.owners

/-- The summary of the analysis of a file. -/
def summary (a : Analysis) (root : String) : Entry :=
  .info <| s!"Analyzed {root}: {a.resolution.files.length} file(s), " ++
    s!"{a.owners.assignments.size} owned construct(s), " ++
    s!"{a.resolution.diagnostics.length} diagnostic(s)"

/-- Note what the stages after resolution note. -/
def noteAll (notes : Journal) : Resolve Unit :=
  modify fun s => { s with journal := s.journal ++ notes }

/-- Analyse the model that starts from the file at a path (specification, §2). -/
def analyzeFile (r : Resolver) (tree : FileTree) (parse : Parser) (root : String) :
    Resolve Analysis := do
  let a := ofResolution (← r.resolveFile tree parse root)
  noteAll (a.stageNotes ++ [a.summary root])
  return a

/-- Analyse the model that starts from source text standing for the file at a path. -/
def analyzeSource (r : Resolver) (tree : FileTree) (parse : Parser) (source root : String) :
    Resolve Analysis := do
  let a := ofResolution (← r.resolveSource tree parse source root)
  noteAll a.stageNotes
  return a

end Analysis

end Blueprint
