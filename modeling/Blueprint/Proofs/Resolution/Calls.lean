import Blueprint.Proofs.Resolution.Walk

/-!
# The calls of a resolution

A resolution runs one directive after the other, and for a directive that leads to a new document
it runs the directives of that document first. Each directive that is run this way is a call. It has
a place in the graph of includes, a number of levels left and the progress made so far. What a
resolution reports and loads is what its calls report and load, so that facts about whole
resolutions are facts about single calls.

- `Turn`: a directive of a list whose turn has come, and how far the resolution is by then.
- `Workspace.Enters.expands_iff`: what a directive that leads to a new document comes to.
- `Job.Calls`: the calls of a resolution, whether it comes to a result or not.
- `Job.under_of_calls`: where a call is in the graph of includes.
- `Job.expands_of_calls`: in a resolution with a result, every call came to something, and what it
  left behind is still there at the end.
- `Job.Accounted`: what is new was reported or loaded by a call. `Job.accounted_of_expands` and
  `Job.accounted_of_runs` are the step and the run.
-/

namespace Blueprint

open Relation Resolve

/-- Two steps, when it is known what the first comes to. -/
theorem Resolve.bind_of_ok {α β : Type} {x : Resolve α} {f : α → Resolve β} {a : α}
    {s s' : Progress} (h : x s = .ok a s') : (x >>= f) s = f a s' := by
  show EStateM.bind x f s = f a s'
  unfold EStateM.bind
  rw [h]

/-! ## Turns -/

/-- A directive of a list has its turn when the directives before it have been run. -/
inductive Turn (step : Inclusion → Progress → List Item → Progress → Prop) :
    List Inclusion → Progress → Inclusion → Progress → Prop
  | here {d : Inclusion} {ds : List Inclusion} {s : Progress} : Turn step (d :: ds) s d s
  | later {d d' : Inclusion} {ds : List Inclusion} {s s₁ s' : Progress} {items : List Item}
      (first : step d s items s₁) (others : Turn step ds s₁ d' s') : Turn step (d :: ds) s d' s'

section

variable {step step' : Inclusion → Progress → List Item → Progress → Prop} {d : Inclusion}
  {ds : List Inclusion} {s s₁ s' : Progress} {cs : List (List Item)}

namespace Turn

theorem mem (h : Turn step ds s d s') : d ∈ ds := by
  induction h with
  | here => exact List.mem_cons_self
  | later _ _ ih => exact List.mem_cons_of_mem _ ih

theorem grows (h : Turn step ds s d s') (hstep : ∀ d s items s', step d s items s' → s.Grows s') :
    s.Grows s' := by
  induction h with
  | here => exact .refl _
  | later first _ ih => exact (hstep _ _ _ _ first).trans ih

end Turn

namespace Runs

/-- What is run has its turn. -/
theorem exists_turn (h : Runs step ds s cs s') (hd : d ∈ ds) : ∃ s₁, Turn step ds s d s₁ := by
  induction h with
  | nil _ => exact absurd hd List.not_mem_nil
  | cons first _ ih =>
    rcases List.mem_cons.1 hd with rfl | hd
    · exact ⟨_, .here⟩
    · obtain ⟨s₁, hturn⟩ := ih hd
      exact ⟨s₁, .later first hturn⟩

/-- What holds of every directive when it has its turn holds of them when they are run. -/
theorem imp_of_turn (h : Runs step ds s cs s')
    (hstep : ∀ d s₁ items s₂, Turn step ds s d s₁ → step d s₁ items s₂ → step' d s₁ items s₂) :
    Runs step' ds s cs s' := by
  induction h with
  | nil s => exact .nil s
  | cons first _ ih =>
    exact .cons (hstep _ _ _ _ .here first)
      (ih fun d s₁ items s₂ hturn => hstep d s₁ items s₂ (.later first hturn))

/-- A list can be run when each of its directives can once it has its turn. -/
theorem exists_of_turn
    (hstep : ∀ d s₁, Turn step ds s d s₁ → ∃ items s₂, step d s₁ items s₂) :
    ∃ cs s', Runs step ds s cs s' := by
  induction ds generalizing s with
  | nil => exact ⟨[], s, .nil s⟩
  | cons d ds ih =>
    obtain ⟨items, s₁, first⟩ := hstep d s .here
    obtain ⟨cs, s', others⟩ := ih fun d' s₂ hturn => hstep d' s₂ (.later first hturn)
    exact ⟨items :: cs, s', .cons first others⟩

/-- A directive that had its turn in a run was run then, and the others after it. -/
theorem step_of_turn {expand : Inclusion → Resolve (List Item)}
    (h : Runs (Answers expand) ds s cs s') (hturn : Turn (Answers expand) ds s d s₁)
    (hgrows : ∀ d s items s', Answers expand d s items s' → s.Grows s') :
    ∃ items s₂, Answers expand d s₁ items s₂ ∧ s₂.Grows s' := by
  induction hturn generalizing cs with
  | here =>
    obtain ⟨items, s₂, rest, rfl, first, others⟩ := cons_iff.1 h
    exact ⟨items, s₂, first, others.grows hgrows⟩
  | later first _ ih =>
    obtain ⟨items, s₂, rest, rfl, first', others⟩ := cons_iff.1 h
    -- a directive comes to one thing only, so both runs go the same way
    have hsame := first.symm.trans first'
    cases hsame
    exact ih others

end Runs

end

/-! ## Directives that lead to a new document -/

namespace Workspace

variable {w : Workspace} {place : Place} {d : Inclusion} {s s' : Progress} {document : Document}
  {levels : Nat} {items : List Item}

namespace Enters

/-- A directive that leads to a new document stands for what its items expand to. -/
theorem expandDirective_eq (h : w.Enters place d s document s') (levels : Nat) :
    w.expandDirective (levels + 1) place d s =
      expandBody (w.expandDirective levels (place.enter (w.target place.file d))) document.body
        s' := by
  obtain ⟨s₁, hlocate, hload⟩ := h.steps
  obtain ⟨bytes, hfind⟩ := h.isFile
  -- the state is read after the path was located, which loads nothing
  have hfiles : s₁.files = s.files := by simp [(locate_of_ok hlocate).2.files]
  have hknown : w.target place.file d ∉ s₁.files := hfiles ▸ h.unknown
  rw [hfind] at hload
  rw [expandDirective, bind_of_ok hlocate, if_neg (mt List.contains_iff_mem.1 h.offChain),
    bind_of_ok (show (get : Resolve Progress) s₁ = .ok s₁ s₁ from rfl),
    if_neg (mt List.contains_iff_mem.1 hknown)]
  simp only [hfind]
  exact bind_of_ok hload

theorem expands_iff (h : w.Enters place d s document s') {s'' : Progress} :
    w.Expands (levels + 1) place d s items s'' ↔
      ∃ cs, Runs (w.Expands levels (place.enter (w.target place.file d))) document.directives s' cs
        s'' ∧ Item.fillBody document.body cs = items := by
  unfold Expands Answers
  rw [h.expandDirective_eq]
  exact expandBody_eq_ok_iff

end Enters

end Workspace

/-! ## Calls -/

namespace Job

variable {j : Job} {levels : Nat} {place : Place} {d : Inclusion} {s s' : Progress}
  {document : Document} {text : String} {res : Resolution}

/-- What a resolution does before it runs the first directive. -/
def opening (j : Job) (text : String) : Resolve (Option Document) := do
  Progress.log (.info s!"Resolving includes from {j.root.text}")
  Progress.enter j.root
  j.workspace.parseFile j.start text

/-- The calls of a resolution: the levels left, the place, the directive and the progress so far.
The directives of the root file are called one after the other, and so are those of every document
that a call leads to. -/
inductive Calls (j : Job) : Nat → Place → Inclusion → Progress → Prop
  | root {text : String} {document : Document} {d : Inclusion} {s s' : Progress}
      (named : j.RootNameable) (source : j.source? = some text)
      (opened : j.opening text {} = .ok (some document) s)
      (turn : Turn (j.workspace.Expands j.resolver.levels j.start) document.directives s d s') :
      Calls j j.resolver.levels j.start d s'
  | deeper {levels : Nat} {place : Place} {d d' : Inclusion} {s s₁ s' : Progress}
      {document : Document} (call : Calls j (levels + 1) place d s)
      (enters : j.workspace.Enters place d s document s₁)
      (turn : Turn (j.workspace.Expands levels (place.enter (j.workspace.target place.file d)))
        document.directives s₁ d' s') :
      Calls j levels (place.enter (j.workspace.target place.file d)) d' s'

theorem of_opening_eq_some (h : j.opening text {} = .ok (some document) s) :
    j.parse text j.root.text = .ok document ∧ Progress.Adds {} [j.root] [] s := by
  obtain ⟨u₁, s₁, hlog, h⟩ := bind_eq_ok_iff.1 h
  cases hlog
  obtain ⟨u₂, s₂, henter, h⟩ := bind_eq_ok_iff.1 h
  have hroot : Progress.Adds {} [j.root] [] s₂ := by
    cases henter
    exact ⟨rfl, rfl⟩
  cases hresult : j.parse text j.root.text with
  -- a parser that refuses gives no document, against what is known
  | error failure =>
    obtain ⟨s₃, heq, -⟩ := Workspace.parseFile_of_error (w := j.workspace) j.start hresult s₂
    cases heq.symm.trans h
  | ok document' =>
    obtain ⟨s₃, heq, hadds⟩ := Workspace.parseFile_of_ok (w := j.workspace) j.start hresult s₂
    cases heq.symm.trans h
    exact ⟨rfl, hroot.trans hadds⟩

theorem exists_opening (h : j.parse text j.root.text = .ok document) :
    ∃ s, j.opening text {} = .ok (some document) s := by
  obtain ⟨s, hparse, -⟩ := Workspace.parseFile_of_ok (w := j.workspace) j.start h _
  exact ⟨s, (bind_of_ok rfl).trans ((bind_of_ok rfl).trans hparse)⟩

/-- The document of the root file is read from its text. -/
theorem exists_source_of_documentOf_root (h : j.documentOf j.root = some document) :
    ∃ text, j.source? = some text ∧ j.parse text j.root.text = .ok document := by
  cases hsource : j.source? with
  | none => simp [documentOf, hsource] at h
  | some text =>
    rw [documentOf_root hsource] at h
    cases hparsed : j.parse text j.root.text with
    | error failure => simp [hparsed, Except.toOption] at h
    | ok document' => exact ⟨text, rfl, by simpa [hparsed, Except.toOption] using h⟩

/-- A call is made somewhere on the walk, for a directive of the file that the walk is at. -/
theorem under_of_calls (h : j.Calls levels place d s) :
    j.Under place s ∧ d ∈ j.directivesOf place.file := by
  have hgrows : ∀ {levels place} (d : Inclusion) s items s',
      j.workspace.Expands levels place d s items s' → s.Grows s' :=
    fun _ _ _ _ => Workspace.grows_of_expands
  induction h with
  | root named source opened turn =>
    obtain ⟨hparsed, hadds⟩ := of_opening_eq_some opened
    have hdocument := documentOf_root_eq_some source hparsed
    -- the directives that had their turn before have only added
    refine ⟨(under_start hadds).mono (turn.grows hgrows), ?_⟩
    rw [file_start, directivesOf_of_some hdocument]
    exact turn.mem
  | deeper _ enters turn ih =>
    obtain ⟨hunder, hd⟩ := ih
    -- a file that is not loaded yet is not the root, so its document is the one that was read
    have hdocument := documentOf_of_reading_eq_ok (hunder.ne_root enters.unknown) rfl enters.reading
    refine ⟨(hunder.enter ⟨_, hd, rfl⟩ enters.adds).mono (turn.grows hgrows), ?_⟩
    rw [Place.file_enter, directivesOf_of_some hdocument]
    exact turn.mem

/-! ## Calls of resolutions with a result -/

theorem rootNameable_of_yields (h : j.Yields res) : j.RootNameable := by
  obtain ⟨s, h⟩ := h
  cases horigin : j.origin with
  | file root =>
    have hroot : j.origin.rootText = root := by rw [horigin]; rfl
    simp only [run, horigin] at h
    obtain ⟨p, s₁, hpath, -⟩ := bind_eq_ok_iff.1 h
    exact rootNameable_of_rootPath (hroot ▸ hpath)
  | source text root =>
    have hroot : j.origin.rootText = root := by rw [horigin]; rfl
    simp only [run, horigin] at h
    obtain ⟨p, s₁, hpath, -⟩ := bind_eq_ok_iff.1 h
    exact rootNameable_of_rootPath (hroot ▸ hpath)

/-- A resolution resolves the text of its root file, if there is one. -/
theorem run_of_source (hroot : j.RootNameable) (hsource : j.source? = some text) :
    j.run {} = j.resolver.resolveRoot j.tree j.parse j.root text {} := by
  have hpath := rootPath_of_rootNameable hroot {}
  cases horigin : j.origin with
  | file root =>
    rw [horigin] at hpath
    have hread : j.tree.readText j.root = .ok text := by
      simp only [source?, horigin] at hsource
      cases htext : j.tree.readText j.root with
      | ok text' => simpa [htext, Except.toOption] using hsource
      | error e => simp [htext, Except.toOption] at hsource
    simp only [run, horigin]
    refine (bind_of_ok hpath).trans ?_
    simp only [hread]
  | source text' root =>
    rw [horigin] at hpath
    obtain rfl : text' = text := by simpa [source?, horigin] using hsource
    simp only [run, horigin]
    exact bind_of_ok hpath

/-- A resolution whose root file has a document comes to a result when the directives of that
document can be run, and the result is read off the run. -/
theorem yields_iff_of_opening (hroot : j.RootNameable) (hsource : j.source? = some text)
    (hopened : j.opening text {} = .ok (some document) s) :
    j.Yields res ↔ ∃ cs s',
      Runs (j.workspace.Expands j.resolver.levels j.start) document.directives s cs s' ∧
        res =
          { document := { document with body := Item.fillBody document.body cs }
            files := s'.files
            diagnostics := s'.diagnostics } := by
  unfold Yields
  rw [run_of_source hroot hsource]
  -- the first two steps always come to something, and parsing came to the document
  have hparse := (bind_of_ok rfl).symm.trans ((bind_of_ok rfl).symm.trans hopened)
  constructor
  · rintro ⟨s', h⟩
    obtain ⟨body, s₁, hexpand, h⟩ := bind_eq_ok_iff.1 ((bind_of_ok hparse).symm.trans h)
    obtain ⟨cs, hruns, rfl⟩ := expandBody_eq_ok_iff.1 hexpand
    cases h
    exact ⟨cs, s₁, hruns, rfl⟩
  · rintro ⟨cs, s', hruns, rfl⟩
    have hexpand := expandBody_eq_ok_iff.2 ⟨cs, hruns, rfl⟩
    exact ⟨_, bind_eq_ok_iff.2 ⟨(), _, rfl, bind_eq_ok_iff.2 ⟨(), _, rfl,
      bind_eq_ok_iff.2 ⟨_, s, hparse, bind_eq_ok_iff.2 ⟨_, s', hexpand, rfl⟩⟩⟩⟩⟩

/-- In a resolution with a result, every call came to something. What it left behind is still there
at the end. -/
theorem expands_of_calls (hyields : j.Yields res) (h : j.Calls levels place d s) :
    ∃ items s', j.workspace.Expands levels place d s items s' ∧
      s'.files ⊆ res.files ∧ s'.diagnostics ⊆ res.diagnostics := by
  induction h with
  | root named source opened turn =>
    obtain ⟨cs, s', hruns, rfl⟩ := (yields_iff_of_opening named source opened).1 hyields
    obtain ⟨items, s₂, hexpands, hgrows⟩ :=
      hruns.step_of_turn turn fun _ _ _ _ => Workspace.grows_of_expands
    exact ⟨items, s₂, hexpands, hgrows.files.subset, hgrows.diagnostics.subset⟩
  | deeper _ enters turn ih =>
    obtain ⟨items, s', hexpands, hfiles, hdiagnostics⟩ := ih
    -- the call above came to something, so all directives of its document were run
    obtain ⟨cs, hruns, -⟩ := enters.expands_iff.1 hexpands
    obtain ⟨items', s₂, hexpands', hgrows⟩ :=
      hruns.step_of_turn turn fun _ _ _ _ => Workspace.grows_of_expands
    exact ⟨items', s₂, hexpands', fun f hf => hfiles (hgrows.files.subset hf),
      fun e he => hdiagnostics (hgrows.diagnostics.subset he)⟩

end Job

/-! ## What calls report and load -/

open Workspace in
/-- What a directive itself reports, the directives further down apart. -/
inductive Workspace.Reports (w : Workspace) : Nat → Place → Inclusion → Diagnostic → Prop
  | suspicious {levels : Nat} {place : Place} {d : Inclusion} {e : Diagnostic}
      (mem : e ∈ w.suspicions place d) : Reports w levels place d e
  | tooDeep {place : Place} {d : Inclusion} :
      Reports w 0 place d (diagnostic place (.tooDeep w.resolver.maxDepth)
        (w.target place.file d).text (place.chain ++ [w.target place.file d]))
  | circular {levels : Nat} {place : Place} {d : Inclusion}
      (onChain : w.target place.file d ∈ place.chain) :
      Reports w (levels + 1) place d (diagnostic place (.circular (w.written d))
        (w.target place.file d).text (place.chain ++ [w.target place.file d]))
  | missing {levels : Nat} {place : Place} {d : Inclusion} :
      Reports w (levels + 1) place d (diagnostic place (.missing (w.written d))
        (w.target place.file d).text place.chain)
  | refused {levels : Nat} {place : Place} {d : Inclusion} {found : Found} {e : Diagnostic}
      (read : w.reading place d (w.target place.file d) found = .error e) :
      Reports w (levels + 1) place d e

/-- A directive that came to something has a path that can be looked up. -/
theorem Workspace.nameable_of_expands {w : Workspace} {levels : Nat} {place : Place} {d : Inclusion}
    {s s' : Progress} {items : List Item} (h : w.Expands levels place d s items s') :
    w.Nameable d := by
  cases levels with
  | zero =>
    obtain ⟨t, s₁, hlocate, -⟩ := bind_eq_ok_iff.1 h
    exact nameable_of_locate hlocate
  | succ levels =>
    obtain ⟨t, s₁, hlocate, -⟩ := bind_eq_ok_iff.1 h
    exact nameable_of_locate hlocate

/-- A directive that leads to a new file with a document enters it. -/
theorem Workspace.exists_enters {w : Workspace} {place : Place} {d : Inclusion} {s : Progress}
    {bytes : List UInt8} {document : Document} (hname : w.Nameable d)
    (hchain : w.target place.file d ∉ place.chain) (hunknown : w.target place.file d ∉ s.files)
    (hfind : w.tree.find (w.target place.file d) = .file bytes)
    (hread : w.reading place d (w.target place.file d) (.file bytes) = .ok document) :
    ∃ s₁, w.Enters place d s document s₁ := by
  obtain ⟨s₁, hlocate, -⟩ := locate_of_nameable hname place s
  obtain ⟨s₂, hload, -⟩ := load_of_ok hread s₁
  exact ⟨s₂, ⟨hchain, hunknown, bytes, hfind⟩, s₁, hlocate, hfind ▸ hload⟩

namespace Job

variable {j : Job} {levels : Nat} {place : Place} {d : Inclusion} {s s₁ s' : Progress}
  {items : List Item} {res : Resolution}

/-- A file is loaded at a depth of nesting: the root file at none, the file that a call leads to one
level below the place of the call. -/
inductive LoadedAt (j : Job) : Path → Nat → Prop
  | root (source : j.source? ≠ none) : LoadedAt j j.root 0
  | call {levels : Nat} {place : Place} {d : Inclusion} {s : Progress}
      (call : j.Calls (levels + 1) place d s) (loads : j.workspace.Loads place d s) :
      LoadedAt j (j.workspace.target place.file d) place.chain.length

/-- A call reports a diagnostic. -/
def Reported (j : Job) (e : Diagnostic) : Prop :=
  ∃ levels place d s, j.Calls levels place d s ∧ j.workspace.Reports levels place d e

/-- What is new was reported or loaded by a call. -/
structure Accounted (j : Job) (s s' : Progress) : Prop where
  files : ∀ f ∈ s'.files, f ∈ s.files ∨ ∃ depth, j.LoadedAt f depth
  diagnostics : ∀ e ∈ s'.diagnostics, e ∈ s.diagnostics ∨ j.Reported e

namespace Accounted

theorem refl (s : Progress) : j.Accounted s s := ⟨fun _ => Or.inl, fun _ => Or.inl⟩

theorem trans (h : j.Accounted s s₁) (h' : j.Accounted s₁ s') : j.Accounted s s' where
  files f hf := (h'.files f hf).elim (h.files f) Or.inr
  diagnostics e he := (h'.diagnostics e he).elim (h.diagnostics e) Or.inr

theorem of_adds {fs : List Path} {es : List Diagnostic} (hadds : s.Adds fs es s')
    (hfs : ∀ f ∈ fs, ∃ depth, j.LoadedAt f depth) (hes : ∀ e ∈ es, j.Reported e) :
    j.Accounted s s' where
  files f hf := (hadds.mem_files.1 hf).imp_right (hfs f)
  diagnostics e he := (hadds.mem_diagnostics.1 he).imp_right (hes e)

/-- What a call reports at the end of its work comes after what is suspicious about its path. -/
theorem of_reported {fs : List Path} {e : Diagnostic} (hcall : j.Calls levels place d s)
    (hadds : s.Adds fs (j.workspace.suspicions place d ++ [e]) s')
    (hfs : ∀ f ∈ fs, ∃ depth, j.LoadedAt f depth) (he : j.workspace.Reports levels place d e) :
    j.Accounted s s' := by
  refine of_adds hadds hfs fun e' he' => ⟨levels, place, d, s, hcall, ?_⟩
  rcases List.mem_append.1 he' with he' | he'
  · exact .suspicious he'
  · rwa [List.mem_singleton.1 he']

end Accounted

/-- The run: directives account for what they add, one after the other. -/
theorem accounted_of_runs {ds : List Inclusion} {cs : List (List Item)}
    (h : Runs (fun _ s _ s' => j.Accounted s s') ds s cs s') : j.Accounted s s' := by
  induction h with
  | nil s => exact .refl s
  | cons first _ ih => exact first.trans ih

/-- **The step: what a call adds was reported or loaded by it or by a call further down.** -/
theorem accounted_of_expands (hcall : j.Calls levels place d s)
    (h : j.workspace.Expands levels place d s items s') : j.Accounted s s' := by
  induction levels generalizing place d s items s' with
  | zero =>
    cases Workspace.outcome_of_expands h with
    | tooDeep adds => exact .of_reported hcall adds nofun .tooDeep
  | succ levels ih =>
    cases Workspace.outcome_of_expands h with
    | circular onChain adds => exact .of_reported hcall adds nofun (.circular onChain)
    | skipped _ _ adds =>
      exact .of_adds adds nofun fun e he => ⟨_, _, _, _, hcall, .suspicious he⟩
    | missing _ _ _ _ adds => exact .of_reported hcall adds nofun .missing
    -- a file that is refused is loaded nevertheless
    | refused offChain unknown isFile read adds =>
      have hloaded := LoadedAt.call hcall ⟨offChain, unknown, _, isFile⟩
      refine .of_reported hcall adds (fun f hf => ?_) (.refused read)
      rw [List.mem_singleton.1 hf]
      exact ⟨_, hloaded⟩
    | loaded offChain unknown isFile read _ _ =>
      obtain ⟨s₁, henters⟩ := Workspace.exists_enters (Workspace.nameable_of_expands h) offChain
        unknown isFile read
      obtain ⟨cs, hruns, -⟩ := henters.expands_iff.1 h
      have hloaded := LoadedAt.call hcall henters.toLoads
      have hfirst : j.Accounted s s₁ := by
        refine .of_adds henters.adds (fun f hf => ?_) fun e he =>
          ⟨_, _, _, _, hcall, .suspicious he⟩
        rw [List.mem_singleton.1 hf]
        exact ⟨_, hloaded⟩
      -- the directives of the new document are calls themselves
      refine hfirst.trans (accounted_of_runs (hruns.imp_of_turn ?_))
      intro d' s₂ items' s₃ hturn hexpands
      exact ih (.deeper hcall henters hturn) hexpands

/-- What a resolution adds after the document of its root file was read. -/
theorem accounted_of_opening {text : String} {document : Document} (hyields : j.Yields res)
    (hsource : j.source? = some text) (hopened : j.opening text {} = .ok (some document) s) :
    j.Accounted s { files := res.files, diagnostics := res.diagnostics } := by
  have hroot := rootNameable_of_yields hyields
  obtain ⟨cs, s', hruns, rfl⟩ := (yields_iff_of_opening hroot hsource hopened).1 hyields
  have haccounted : j.Accounted s s' := by
    refine accounted_of_runs (hruns.imp_of_turn ?_)
    intro d s₁ items s₂ hturn hexpands
    exact accounted_of_expands (.root hroot hsource hopened hturn) hexpands
  exact ⟨haccounted.files, haccounted.diagnostics⟩

/-- **Every file of a result was loaded**, as the root file or by a call. -/
theorem exists_loadedAt (hyields : j.Yields res) {f : Path} (hf : f ∈ res.files) :
    ∃ depth, j.LoadedAt f depth := by
  cases ending_of_yields hyields with
  | unreadable => exact absurd hf List.not_mem_nil
  | refused source =>
    rw [List.mem_singleton.1 hf]
    exact ⟨0, .root (by simp [source])⟩
  | expanded source parsed =>
    obtain ⟨s, hopened⟩ := exists_opening parsed
    have hfiles : s.files = [j.root] := (of_opening_eq_some hopened).2.files
    -- the opening loads the root file alone, and everything else came later
    rcases (accounted_of_opening hyields source hopened).files f hf with hf | hf
    · rw [hfiles, List.mem_singleton] at hf
      rw [hf]
      exact ⟨0, .root (by simp [source])⟩
    · exact hf

/-- The report of a resolution whose root file cannot be read. -/
theorem of_mem_of_source_eq_none (hyields : j.Yields res) (hsource : j.source? = none)
    {e : Diagnostic} (he : e ∈ res.diagnostics) :
    e.chain = [j.root] ∧ e.kind = .fileNotFound := by
  obtain ⟨s, h⟩ := hyields
  cases horigin : j.origin with
  -- a text that is given need not be read
  | source text root => simp [source?, horigin] at hsource
  | file root =>
    have hroot : j.origin.rootText = root := by rw [horigin]; rfl
    simp only [run, horigin] at h
    obtain ⟨p, s₁, hpath, h⟩ := bind_eq_ok_iff.1 h
    rw [← hroot] at hpath
    obtain ⟨-, rfl, rfl⟩ := rootPath_eq_ok_iff.1 hpath
    cases htext : j.tree.readText j.root with
    | ok text => simp [source?, horigin, htext, Except.toOption] at hsource
    | error reason =>
      simp only [htext] at h
      cases h
      rw [List.mem_singleton.1 he]
      exact ⟨rfl, rfl⟩

/-- **Every diagnostic of a result was reported**, about the root file or by a call. -/
theorem root_or_reported (hyields : j.Yields res) {e : Diagnostic} (he : e ∈ res.diagnostics) :
    e.chain = [j.root] ∧ (e.kind = .fileNotFound ∨ e.kind = .parseError) ∨ j.Reported e := by
  cases ending_of_yields hyields with
  | unreadable source =>
    obtain ⟨hchain, hkind⟩ := of_mem_of_source_eq_none hyields source he
    exact Or.inl ⟨hchain, Or.inl hkind⟩
  | refused =>
    rw [List.mem_singleton.1 he]
    exact Or.inl ⟨rfl, Or.inr rfl⟩
  | expanded source parsed =>
    obtain ⟨s, hopened⟩ := exists_opening parsed
    have hnone : s.diagnostics = [] := (of_opening_eq_some hopened).2.diagnostics
    rcases (accounted_of_opening hyields source hopened).diagnostics e he with he | he
    · rw [hnone] at he
      exact absurd he List.not_mem_nil
    · exact Or.inr he

end Job

end Blueprint
