import Mathlib.Logic.Relation
import Blueprint.Proofs.Resolution.Outcome

/-!
# The graph of includes

The files of a project form a graph: a file that can be read and parsed leads to the targets of its
directives. A resolution walks this graph from the root file.

- `Job`: everything a resolution depends on; `Job.run` is the resolution.
- `Job.documentOf`: the document of a file. The text of the root file may be given in its place.
- `Job.directivesOf`, `Job.Includes`: the directives of a file and the edges of the graph.
- `Job.Ending`: what a whole resolution can come to. The root file cannot be read, it cannot be
  parsed, or its directives are run.
- `Job.ending_of_yields`, `Job.yields_of_runs`: a resolution ends in one of these ways, and it ends
  when the directives of the root file can be run.
-/

namespace Blueprint

open Resolve

/-- What a resolution starts from: the file at a path, or a text that stands for it. -/
inductive Origin where
  | file (root : String)
  | source (text root : String)

/-- The path of the root file, as it is given. -/
def Origin.rootText : Origin → String
  | file root => root
  | source _ root => root

/-- A resolution that is to be done. -/
structure Job where
  resolver : Resolver
  tree : FileTree
  parse : Parser
  origin : Origin

namespace Job

/-- The root file. -/
def root (j : Job) : Path := j.tree.current.follow j.origin.rootText

/-- The text of the root file, if it is given or can be read. -/
def source? (j : Job) : Option String :=
  match j.origin with
  | .file _ => (j.tree.readText j.root).toOption
  | .source text _ => some text

/-- What the resolution works on. -/
def workspace (j : Job) : Workspace := j.resolver.workspace j.tree j.parse j.root

/-- The place of the root file. -/
def start (j : Job) : Place := { file := j.root }

@[simp] theorem file_start (j : Job) : j.start.file = j.root := rfl

/-- The resolution. -/
def run (j : Job) : Resolve Resolution :=
  match j.origin with
  | .file root => j.resolver.resolveFile j.tree j.parse root
  | .source text root => j.resolver.resolveSource j.tree j.parse text root

/-- What the resolution comes to. -/
def Yields (j : Job) (res : Resolution) : Prop := ∃ s, j.run {} = .ok res s

/-- What the resolution comes to, as a value. -/
def result? (j : Job) : Option Resolution :=
  match j.run {} with
  | .ok res _ => some res
  | .error _ _ => none

theorem yields_iff {j : Job} {res : Resolution} : j.Yields res ↔ j.result? = some res := by
  unfold Yields result?
  cases j.run {} with
  | ok res' s => simp
  | error e s => simp

/-! ## Documents and edges -/

/-- Whether a regular file stands at a path. -/
def IsFile (j : Job) (f : Path) : Prop := ∃ bytes, j.tree.find f = .file bytes

/-- The document of a file that can be read and parsed. -/
def documentOf (j : Job) (f : Path) : Option Document :=
  (if f = j.root then j.source? else (j.tree.readText f).toOption).bind fun text =>
    (j.parse text f.text).toOption

/-- The include directives of a file. A file that cannot be read and parsed has none. -/
def directivesOf (j : Job) (f : Path) : List Inclusion :=
  (j.documentOf f).elim [] Document.directives

/-- A file has a directive that leads to another. -/
def Includes (j : Job) (f g : Path) : Prop :=
  ∃ d ∈ j.directivesOf f, j.workspace.target f d = g

variable {j : Job}

theorem documentOf_root {text : String} (h : j.source? = some text) :
    j.documentOf j.root = (j.parse text j.root.text).toOption := by
  simp [documentOf, h]

theorem documentOf_root_eq_some {text : String} {document : Document}
    (hsource : j.source? = some text) (hparsed : j.parse text j.root.text = .ok document) :
    j.documentOf j.root = some document := by
  rw [documentOf_root hsource, hparsed]
  rfl

theorem documentOf_root_eq_none {text : String} {failure : ParseFailure}
    (hsource : j.source? = some text) (hparsed : j.parse text j.root.text = .error failure) :
    j.documentOf j.root = none := by
  rw [documentOf_root hsource, hparsed]
  rfl

/-- What a resolver makes of a file other than the root file is its document. -/
theorem documentOf_of_reading_eq_ok {place : Place} {d : Inclusion} {f : Path} {found : Found}
    {document : Document} (hroot : f ≠ j.root) (hfind : j.tree.find f = found)
    (h : j.workspace.reading place d f found = .ok document) : j.documentOf f = some document := by
  simp only [documentOf, if_neg hroot, FileTree.readText, hfind]
  unfold Workspace.reading at h
  split at h
  · cases h
  · next source htext =>
    split at h
    · next parsed hparse =>
      cases h
      -- the workspace parses with the parser of the job
      have hparse' : j.parse source f.text = .ok document := hparse
      simp [htext, hparse', Except.toOption]
    · cases h

theorem documentOf_of_reading_eq_error {place : Place} {d : Inclusion} {f : Path} {found : Found}
    {e : Diagnostic} (hroot : f ≠ j.root) (hfind : j.tree.find f = found)
    (h : j.workspace.reading place d f found = .error e) : j.documentOf f = none := by
  simp only [documentOf, if_neg hroot, FileTree.readText, hfind]
  unfold Workspace.reading at h
  split at h
  · next reason htext => simp [htext, Except.toOption]
  · next source htext =>
    split at h
    · cases h
    · next failure hparse =>
      have hparse' : j.parse source f.text = .error failure := hparse
      simp [htext, hparse', Except.toOption]

/-- Only the root file can have a document without standing in the file tree. -/
theorem documentOf_of_not_isFile {f : Path} (hroot : f ≠ j.root) (h : ¬ j.IsFile f) :
    j.documentOf f = none := by
  have hread : (j.tree.readText f).toOption = none := by
    unfold FileTree.readText
    cases hfind : j.tree.find f with
    | file bytes => exact absurd ⟨bytes, hfind⟩ h
    | _ => rfl
  simp [documentOf, hroot, hread]

theorem directivesOf_of_some {f : Path} {document : Document}
    (h : j.documentOf f = some document) : j.directivesOf f = document.directives := by
  simp [directivesOf, h]

theorem directivesOf_of_none {f : Path} (h : j.documentOf f = none) : j.directivesOf f = [] := by
  simp [directivesOf, h]

theorem includes_iff {f g : Path} :
    j.Includes f g ↔ g ∈ (j.directivesOf f).map (j.workspace.target f) := by
  rw [List.mem_map]
  rfl

/-- A file with includes is the root file or stands in the file tree. -/
theorem eq_root_or_isFile_of_includes {f g : Path} (h : j.Includes f g) :
    f = j.root ∨ j.IsFile f := by
  by_cases hroot : f = j.root
  · exact Or.inl hroot
  -- neither, so the file has no document and no directives
  by_cases hfile : j.IsFile f
  · exact Or.inr hfile
  rw [includes_iff, directivesOf_of_none (documentOf_of_not_isFile hroot hfile)] at h
  exact absurd h List.not_mem_nil

/-! ## Endings -/

/-- What a resolution can come to. -/
inductive Ending (j : Job) : Resolution → Prop
  | unreadable {e : Diagnostic} (source : j.source? = none) (file : e.file = j.root.text)
      (kind : e.kind = .fileNotFound) :
      Ending j { document := Resolution.emptyDocument, files := [], diagnostics := [e] }
  | refused {text : String} {failure : ParseFailure} (source : j.source? = some text)
      (parsed : j.parse text j.root.text = .error failure) :
      Ending j
        { document := Resolution.emptyDocument
          files := [j.root]
          diagnostics := [Workspace.refusal j.start failure] }
  | expanded {text : String} {document : Document} {s s' : Progress} {cs : List (List Item)}
      (source : j.source? = some text) (parsed : j.parse text j.root.text = .ok document)
      (adds : Progress.Adds {} [j.root] [] s)
      (runs : Runs (j.workspace.Expands j.resolver.levels j.start) document.directives s cs s') :
      Ending j
        { document := { document with body := Item.fillBody document.body cs }
          files := s'.files
          diagnostics := s'.diagnostics }

/-- The resolution of the text of the root file. -/
theorem ending_of_resolveRoot {text : String} {res : Resolution} {s : Progress}
    (hsource : j.source? = some text)
    (h : j.resolver.resolveRoot j.tree j.parse j.root text {} = .ok res s) : j.Ending res := by
  obtain ⟨u₁, s₁, hlog, h⟩ := bind_eq_ok_iff.1 h
  -- the steps of a resolution are peeled off one by one, the notes for the journal among them
  cases hlog
  obtain ⟨u₂, s₂, henter, h⟩ := bind_eq_ok_iff.1 h
  have hroot : Progress.Adds {} [j.root] [] s₂ := by
    cases henter
    exact ⟨rfl, rfl⟩
  obtain ⟨answer, s₃, hparse, h⟩ := bind_eq_ok_iff.1 h
  cases hresult : j.parse text j.root.text with
  | error failure =>
    obtain ⟨s₄, heq, hadds⟩ :=
      Workspace.parseFile_of_error (w := j.workspace) j.start hresult s₂
    obtain ⟨rfl, rfl⟩ : none = answer ∧ s₄ = s₃ := by simpa using heq.symm.trans hparse
    cases h
    -- the root file is counted as loaded, and its refusal is the only thing reported
    have hall := hroot.trans hadds
    have hfiles : s₄.files = [j.root] := hall.files
    have hdiagnostics : s₄.diagnostics = [Workspace.refusal j.start failure] := hall.diagnostics
    rw [hfiles, hdiagnostics]
    exact .refused hsource hresult
  | ok document =>
    obtain ⟨s₄, heq, hadds⟩ := Workspace.parseFile_of_ok (w := j.workspace) j.start hresult s₂
    obtain ⟨rfl, rfl⟩ : some document = answer ∧ s₄ = s₃ := by simpa using heq.symm.trans hparse
    obtain ⟨body, s₅, hexpand, h⟩ := bind_eq_ok_iff.1 h
    obtain ⟨cs, hruns, rfl⟩ := expandBody_eq_ok_iff.1 hexpand
    cases h
    exact .expanded hsource hresult (hroot.trans hadds) hruns

/-- Whether the path of the root file can be looked up at all. -/
def RootNameable (j : Job) : Prop := j.origin.rootText.toList.contains (Char.ofNat 0) = false

theorem rootPath_of_rootNameable (h : j.RootNameable) (s : Progress) :
    Resolver.rootPath j.tree j.origin.rootText s = .ok j.root s := by
  unfold RootNameable at h
  simp only [Resolver.rootPath, h]
  rfl

theorem rootNameable_of_rootPath {s s' : Progress} {p : Path}
    (h : Resolver.rootPath j.tree j.origin.rootText s = .ok p s') : j.RootNameable := by
  unfold RootNameable
  cases hnull : j.origin.rootText.toList.contains (Char.ofNat 0) with
  | false => rfl
  | true =>
    simp only [Resolver.rootPath, hnull] at h
    cases h

theorem rootPath_eq_ok_iff {s s' : Progress} {p : Path} :
    Resolver.rootPath j.tree j.origin.rootText s = .ok p s' ↔
      j.RootNameable ∧ p = j.root ∧ s = s' := by
  constructor
  · intro h
    have hnamed := rootNameable_of_rootPath h
    rw [rootPath_of_rootNameable hnamed] at h
    cases h
    exact ⟨hnamed, rfl, rfl⟩
  · rintro ⟨hnamed, rfl, rfl⟩
    exact rootPath_of_rootNameable hnamed s

/-- **Every resolution ends in one of three ways.** -/
theorem ending_of_yields {res : Resolution} (h : j.Yields res) : j.Ending res := by
  obtain ⟨s, h⟩ := h
  cases horigin : j.origin with
  | file root =>
    have hroot : j.origin.rootText = root := by rw [horigin]; rfl
    have hsource : j.source? = (j.tree.readText j.root).toOption := by simp [source?, horigin]
    simp only [run, horigin, Resolver.resolveFile] at h
    obtain ⟨p, s₁, hpath, h⟩ := bind_eq_ok_iff.1 h
    rw [← hroot] at hpath
    -- the path is the root's, and looking it up has left no trace
    obtain ⟨-, rfl, rfl⟩ := rootPath_eq_ok_iff.1 hpath
    cases htext : j.tree.readText j.root with
    | ok text =>
      simp only [htext] at h
      exact ending_of_resolveRoot (by simp [hsource, htext, Except.toOption]) h
    | error e =>
      simp only [htext] at h
      cases h
      exact .unreadable (by simp [hsource, htext, Except.toOption]) rfl rfl
  | source text root =>
    have hroot : j.origin.rootText = root := by rw [horigin]; rfl
    simp only [run, horigin, Resolver.resolveSource] at h
    obtain ⟨p, s₁, hpath, h⟩ := bind_eq_ok_iff.1 h
    rw [← hroot] at hpath
    obtain ⟨-, rfl, rfl⟩ := rootPath_eq_ok_iff.1 hpath
    exact ending_of_resolveRoot (by simp [source?, horigin]) h

/-- A resolution of the text of the root file ends when its directives can be run. -/
theorem exists_ok_resolveRoot {text : String}
    (hruns : ∀ document s, j.parse text j.root.text = .ok document →
      Progress.Adds {} [j.root] [] s →
      ∃ cs s', Runs (j.workspace.Expands j.resolver.levels j.start) document.directives s cs s') :
    ∃ res s, j.resolver.resolveRoot j.tree j.parse j.root text {} = .ok res s := by
  refine exists_ok_bind (a := ()) rfl (exists_ok_bind (a := ()) rfl ?_)
  cases hresult : j.parse text j.root.text with
  | error failure =>
    obtain ⟨s, hparse, -⟩ := Workspace.parseFile_of_error (w := j.workspace) j.start hresult _
    exact exists_ok_bind hparse ⟨_, _, rfl⟩
  | ok document =>
    obtain ⟨s, hparse, hadds⟩ := Workspace.parseFile_of_ok (w := j.workspace) j.start hresult _
    refine exists_ok_bind hparse ?_
    have hroot : Progress.Adds {} [j.root] [] s := ⟨hadds.files, hadds.diagnostics⟩
    obtain ⟨cs, s', hrun⟩ := hruns document s hresult hroot
    exact exists_ok_bind (expandBody_eq_ok_iff.2 ⟨cs, hrun, rfl⟩) ⟨_, _, rfl⟩

/-- **A resolution ends when its root file can be looked up and the directives of that file can be
run.** -/
theorem yields_of_runs (hroot : j.RootNameable)
    (hruns : ∀ text document s, j.source? = some text → j.parse text j.root.text = .ok document →
      Progress.Adds {} [j.root] [] s →
      ∃ cs s', Runs (j.workspace.Expands j.resolver.levels j.start) document.directives s cs s') :
    ∃ res, j.Yields res := by
  have hpath := rootPath_of_rootNameable hroot {}
  cases horigin : j.origin with
  | file root =>
    have hsource : j.source? = (j.tree.readText j.root).toOption := by simp [source?, horigin]
    rw [horigin] at hpath
    show ∃ res s, j.run {} = .ok res s
    simp only [run, horigin]
    refine exists_ok_bind hpath ?_
    cases htext : j.tree.readText j.root with
    | ok text =>
      exact exists_ok_resolveRoot fun document s =>
        hruns text document s (by simp [hsource, htext, Except.toOption])
    | error e => exact ⟨_, _, rfl⟩
  | source text root =>
    rw [horigin] at hpath
    show ∃ res s, j.run {} = .ok res s
    simp only [run, horigin]
    refine exists_ok_bind hpath ?_
    exact exists_ok_resolveRoot fun document s => hruns text document s (by simp [source?, horigin])

/-! ## A small project -/

/-- The directive to include a file. -/
def sampleDirective (path : String) : Item := .inclusion { loc := none, path }

/-- A tree with one directory, which is the current one, and files in it. The text of each file is
its name, and stands for the text that a document is written in. -/
def sampleTree (names : List String) : FileTree :=
  names.foldl (fun t name => t.addFile ["w", name ++ ".mfd"] name.toUTF8.toList)
    { directories := [[], ["w"]], current := .mk ["w"] }

/-- A shop whose files include each other, each with a word that stands for its text. `stock` is
included from two places, `orders` leads back to the root file, `notes` cannot be parsed and `gone`
is missing. -/
def shop : Job where
  resolver := {}
  tree := sampleTree ["main", "orders", "stock", "notes"]
  parse source path :=
    match source with
    | "main" => .ok { body := [sampleDirective "orders",
        .system ⟨none, "Shop", []⟩ [sampleDirective "stock"]] }
    | "orders" => .ok { body := [.component ⟨none, "Orders", none, [], []⟩
        [sampleDirective "stock.mfd", sampleDirective "../w/main"], sampleDirective "notes"] }
    | "stock" => .ok { body := [.construct (.secret ⟨none, "key", []⟩), sampleDirective "gone"] }
    | _ => .error (.refused ⟨path, "Expecting value", some (1, 1)⟩)
  origin := .file "main.mfd"

end Job

end Blueprint
