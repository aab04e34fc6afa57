import Blueprint.Proofs.Resolution.Closure

/-!
# Which cycles a resolution finds

A directive that leads back to a file on the way to it is reported as circular. A file that was
loaded before and is not on the way is passed over in silence, so a cycle through it must have been
found earlier. It was: when all directives of a file have been run and no cycle was reported, none
can be reached from that file. In the specification this is the testable property of cycle safety
(§8).

- `Job.CycleFrom`: a cycle that can be reached from a file.
- `Job.Cleared`: the files that the search is done with lead to no cycle.
- `Job.cleared_of_expands`, `Job.cleared_of_runs`: this is kept as long as nothing is reported.
- `Job.Justified`: a report of a cycle is right. `Job.justified_of_expands` and
  `Job.justified_of_runs` keep it.
- `Job.reports_circular_iff`: a cycle is reported if and only if there is one.
-/

namespace Blueprint

open Relation Resolve

namespace Job

variable {j : Job} {place : Place} {s s' : Progress}

/-! ## Cycles -/

/-- A cycle of includes can be reached from a file. -/
def CycleFrom (j : Job) (f : Path) : Prop :=
  ∃ g, ReflTransGen j.Includes f g ∧ TransGen j.Includes g g

/-- A cycle that can be reached from a file can be reached from one that it includes. -/
theorem CycleFrom.exists_includes {f : Path} (h : j.CycleFrom f) :
    ∃ g, j.Includes f g ∧ j.CycleFrom g := by
  obtain ⟨c, hreach, hcycle⟩ := h
  rcases hreach.cases_head with rfl | ⟨g, hfg, hgc⟩
  · -- the file is on the cycle itself: follow the cycle
    obtain ⟨g, hfg, hback⟩ := TransGen.head'_iff.1 hcycle
    exact ⟨g, hfg, f, hback, hcycle⟩
  · exact ⟨g, hfg, c, hgc, hcycle⟩

theorem not_cycleFrom_of_directives {f : Path}
    (h : ∀ d ∈ j.directivesOf f, ¬ j.CycleFrom (j.workspace.target f d)) : ¬ j.CycleFrom f := by
  intro hcycle
  obtain ⟨g, ⟨d, hd, rfl⟩, hg⟩ := hcycle.exists_includes
  exact h d hd hg

theorem not_cycleFrom_of_documentOf_eq_none {f : Path} (h : j.documentOf f = none) :
    ¬ j.CycleFrom f := by
  refine not_cycleFrom_of_directives fun d hd => ?_
  rw [directivesOf_of_none h] at hd
  exact absurd hd List.not_mem_nil

/-! ## No cycle is missed -/

/-- Neither a cycle nor too deep a nesting has been reported. -/
def Quiet (diagnostics : List Diagnostic) : Prop :=
  ∀ e ∈ diagnostics, e.kind ≠ .circularInclude ∧ e.kind ≠ .maxDepthExceeded

theorem Quiet.of_grows (h : Quiet s'.diagnostics) (hg : s.Grows s') : Quiet s.diagnostics :=
  fun e he => h e (hg.diagnostics.subset he)

/-- The files that the search is done with: those loaded and no longer on the way. No cycle can be
reached from them. -/
def Cleared (j : Job) (place : Place) (s : Progress) : Prop :=
  ∀ f ∈ s.files, f ∉ place.chain → ¬ j.CycleFrom f

theorem Cleared.of_adds {ds : List Diagnostic} (h : j.Cleared place s) (hadds : s.Adds [] ds s') :
    j.Cleared place s' := by
  intro f hf
  rw [hadds.files, List.append_nil] at hf
  exact h f hf

/-- A file that is entered is on the way from then on. -/
theorem Cleared.enter {f : Path} {ds : List Diagnostic} (h : j.Cleared place s)
    (hadds : s.Adds [f] ds s') : j.Cleared (place.enter f) s' := by
  intro g hg hchain
  rw [Place.chain_enter, List.mem_append, not_or] at hchain
  rcases hadds.mem_files.1 hg with hg | hg
  · exact h g hg hchain.1
  · exact absurd hg hchain.2

/-- A file that is left is cleared when it leads to no cycle. -/
theorem Cleared.leave {f : Path} (h : j.Cleared (place.enter f) s) (hf : ¬ j.CycleFrom f) :
    j.Cleared place s := by
  intro g hg hchain
  by_cases heq : g = f
  · rwa [heq]
  · refine h g hg ?_
    rw [Place.chain_enter, List.mem_append, not_or]
    exact ⟨hchain, fun hmem => heq (List.mem_singleton.1 hmem)⟩

/-- The run: quiet directives lead to no cycle, one after the other. -/
theorem cleared_of_runs {ds : List Inclusion} {cs : List (List Item)}
    (h : Runs (fun d s _ s' => s.Grows s' ∧ (j.Cleared place s → Quiet s'.diagnostics →
      ¬ j.CycleFrom (j.workspace.target place.file d) ∧ j.Cleared place s')) ds s cs s')
    (hcleared : j.Cleared place s) (hquiet : Quiet s'.diagnostics) :
    (∀ d ∈ ds, ¬ j.CycleFrom (j.workspace.target place.file d)) ∧ j.Cleared place s' := by
  induction h with
  | nil s => exact ⟨fun d hd => absurd hd List.not_mem_nil, hcleared⟩
  | cons first others ih =>
    -- what is quiet in the end was quiet all along, since reports are never taken back
    have hquiet₁ := hquiet.of_grows (others.grows fun _ _ _ _ h => h.1)
    obtain ⟨htarget, hcleared₁⟩ := first.2 hcleared hquiet₁
    obtain ⟨hrest, hcleared'⟩ := ih hcleared₁ hquiet
    refine ⟨fun d hd => ?_, hcleared'⟩
    rcases List.mem_cons.1 hd with rfl | hd
    · exact htarget
    · exact hrest d hd

/-- **The step: a quiet directive leads to no cycle.** -/
theorem cleared_of_expands {levels : Nat} {d : Inclusion} {items : List Item}
    (hunder : j.Under place s) (hd : d ∈ j.directivesOf place.file)
    (h : j.workspace.Expands levels place d s items s') (hcleared : j.Cleared place s)
    (hquiet : Quiet s'.diagnostics) :
    ¬ j.CycleFrom (j.workspace.target place.file d) ∧ j.Cleared place s' := by
  refine expands_induct (P := fun _ place d s _ s' => j.Cleared place s → Quiet s'.diagnostics →
    ¬ j.CycleFrom (j.workspace.target place.file d) ∧ j.Cleared place s') ?_ hunder hd h hcleared
    hquiet
  intro levels place d s items s' hunder hd h hcleared hquiet
  cases h with
  | tooDeep adds =>
    have he := hquiet _ (adds.mem_diagnostics.2 (Or.inr List.mem_concat_self))
    exact absurd rfl he.2
  | circular _ adds =>
    have he := hquiet _ (adds.mem_diagnostics.2 (Or.inr List.mem_concat_self))
    exact absurd rfl he.1
  | skipped offChain known adds =>
    -- the walk has left this file: had it led to a cycle, there would be a report
    exact ⟨hcleared _ known offChain, hcleared.of_adds adds⟩
  | missing _ unknown noFile _ adds =>
    have hfile : ¬ j.IsFile (j.workspace.target place.file d) := fun ⟨bytes, h⟩ => noFile bytes h
    have hdocument := documentOf_of_not_isFile (hunder.ne_root unknown) hfile
    exact ⟨not_cycleFrom_of_documentOf_eq_none hdocument, hcleared.of_adds adds⟩
  | refused _ unknown isFile read adds =>
    have hdocument := documentOf_of_reading_eq_error (hunder.ne_root unknown) isFile read
    have htarget := not_cycleFrom_of_documentOf_eq_none hdocument
    -- the walk enters the file and leaves it at once
    exact ⟨htarget, (hcleared.enter adds).leave htarget⟩
  | loaded _ unknown isFile read adds runs =>
    have hdocument := documentOf_of_reading_eq_ok (hunder.ne_root unknown) isFile read
    obtain ⟨htargets, hcleared'⟩ := cleared_of_runs runs (hcleared.enter adds) hquiet
    rw [Place.file_enter, ← directivesOf_of_some hdocument] at htargets
    -- all targets of the file lead to no cycle, so neither does the file
    have htarget := not_cycleFrom_of_directives htargets
    exact ⟨htarget, hcleared'.leave htarget⟩

/-! ## No cycle is made up -/

/-- A report of a cycle is right: one can be reached from the root file. -/
def Justified (j : Job) (diagnostics : List Diagnostic) : Prop :=
  (∃ e ∈ diagnostics, e.kind = .circularInclude) → j.CycleFrom j.root

theorem Justified.of_adds {fs : List Path} {ds : List Diagnostic} (h : j.Justified s.diagnostics)
    (hadds : s.Adds fs ds s') (hds : ∀ e ∈ ds, e.kind ≠ .circularInclude) :
    j.Justified s'.diagnostics := by
  rintro ⟨e, he, hkind⟩
  rcases hadds.mem_diagnostics.1 he with he | he
  · exact h ⟨e, he, hkind⟩
  · exact absurd hkind (hds e he)

/-- What is suspicious about a path is not a cycle. -/
theorem kind_ne_of_mem_suspicions {d : Inclusion} {e : Diagnostic}
    (h : e ∈ j.workspace.suspicions place d) : e.kind ≠ .circularInclude := by
  rw [Workspace.kind_of_mem_suspicions h]
  decide

theorem Justified.of_reported {fs : List Path} {d : Inclusion} {e : Diagnostic}
    (h : j.Justified s.diagnostics)
    (hadds : s.Adds fs (j.workspace.suspicions place d ++ [e]) s')
    (hkind : e.kind ≠ .circularInclude) : j.Justified s'.diagnostics := by
  refine h.of_adds hadds fun e' he' => ?_
  rcases List.mem_append.1 he' with he' | he'
  · exact kind_ne_of_mem_suspicions he'
  · rwa [List.mem_singleton.1 he']

/-- A directive that leads back to a file on the way closes a cycle. -/
theorem Under.cycleFrom {f : Path} (h : j.Under place s) (hmem : f ∈ place.chain)
    (hf : j.Includes place.file f) : j.CycleFrom j.root := by
  obtain ⟨hroot, hback⟩ := h.between f hmem
  exact ⟨f, hroot, .tail' hback hf⟩

/-- The run: directives report no cycle without reason, one after the other. -/
theorem justified_of_runs {ds : List Inclusion} {cs : List (List Item)}
    (h : Runs (fun _ s _ s' => s.Grows s' ∧
      (j.Justified s.diagnostics → j.Justified s'.diagnostics)) ds s cs s')
    (hs : j.Justified s.diagnostics) : j.Justified s'.diagnostics := by
  induction h with
  | nil s => exact hs
  | cons first _ ih => exact ih (first.2 hs)

/-- **The step: a directive reports no cycle without reason.** -/
theorem justified_of_expands {levels : Nat} {d : Inclusion} {items : List Item}
    (hunder : j.Under place s) (hd : d ∈ j.directivesOf place.file)
    (h : j.workspace.Expands levels place d s items s') (hs : j.Justified s.diagnostics) :
    j.Justified s'.diagnostics := by
  refine expands_induct (P := fun _ _ _ s _ s' =>
    j.Justified s.diagnostics → j.Justified s'.diagnostics) ?_ hunder hd h hs
  intro levels place d s items s' hunder hd h hs
  cases h with
  | tooDeep adds =>
    refine hs.of_reported adds ?_
    show DiagnosticKind.maxDepthExceeded ≠ .circularInclude
    decide
  -- the one outcome that reports a cycle has one to show
  | circular onChain _ => exact fun _ => hunder.cycleFrom onChain ⟨d, hd, rfl⟩
  | skipped _ _ adds => exact hs.of_adds adds fun e => kind_ne_of_mem_suspicions
  | missing _ _ _ _ adds =>
    refine hs.of_reported adds ?_
    show DiagnosticKind.fileNotFound ≠ .circularInclude
    decide
  | refused _ _ _ read adds =>
    refine hs.of_reported adds ?_
    rcases (Workspace.of_reading_eq_error read).2 with hkind | hkind
    · rw [hkind]
      decide
    · rw [hkind]
      decide
  | loaded _ _ _ _ adds runs =>
    exact justified_of_runs runs (hs.of_adds adds fun e => kind_ne_of_mem_suspicions)

/-! ## Whole resolutions -/

variable {res : Resolution}

/-- No cycle can be reached from a root file whose directives are quiet. -/
theorem not_cycleFrom_root {levels : Nat} {document : Document} {cs : List (List Item)}
    (hdocument : j.documentOf j.root = some document) (hadds : Progress.Adds {} [j.root] [] s)
    (h : Runs (j.workspace.Expands levels j.start) document.directives s cs s')
    (hquiet : Quiet s'.diagnostics) : ¬ j.CycleFrom j.root := by
  have hfiles : s.files = [j.root] := hadds.files
  -- at the start the only file is on the way, so there is nothing to clear
  have hcleared : j.Cleared j.start s := by
    intro f hf hchain
    rw [hfiles] at hf
    exact absurd hf hchain
  have hruns := runs_of_start hdocument hadds
    (fun _ _ _ _ hunder hd h => cleared_of_expands hunder hd h) h
  obtain ⟨htargets, -⟩ := cleared_of_runs hruns hcleared hquiet
  rw [file_start, ← directivesOf_of_some hdocument] at htargets
  exact not_cycleFrom_of_directives htargets

/-- The directives of a root file report no cycle without reason. -/
theorem justified_root {levels : Nat} {document : Document} {cs : List (List Item)}
    (hdocument : j.documentOf j.root = some document) (hadds : Progress.Adds {} [j.root] [] s)
    (h : Runs (j.workspace.Expands levels j.start) document.directives s cs s') :
    j.Justified s'.diagnostics := by
  have hnone : s.diagnostics = [] := hadds.diagnostics
  have hs : j.Justified s.diagnostics := by
    rw [hnone]
    rintro ⟨e, he, -⟩
    exact absurd he List.not_mem_nil
  have hruns := runs_of_start hdocument hadds
    (fun _ _ _ _ hunder hd h => justified_of_expands hunder hd h) h
  exact justified_of_runs hruns hs

/-- A resolution that was not cut off reports a cycle if and only if one can be reached. -/
theorem reports_iff_cycleFrom (h : j.Ending res) (hsource : j.source? ≠ none)
    (hdepth : ∀ e ∈ res.diagnostics, e.kind ≠ .maxDepthExceeded) :
    (∃ e ∈ res.diagnostics, e.kind = .circularInclude) ↔ j.CycleFrom j.root := by
  cases h with
  | unreadable source => exact absurd source hsource
  | refused source parsed =>
    have hdocument := documentOf_root_eq_none source parsed
    refine iff_of_false ?_ (not_cycleFrom_of_documentOf_eq_none hdocument)
    rintro ⟨e, he, hkind⟩
    rw [List.mem_singleton.1 he] at hkind
    cases hkind
  | @expanded text document s s' cs source parsed adds runs =>
    have hdocument := documentOf_root_eq_some source parsed
    constructor
    · exact justified_root hdocument adds runs
    · intro hcycle
      -- a search that reports neither cycle nor depth is quiet, and then there is no cycle
      by_cases hreport : ∃ e ∈ s'.diagnostics, e.kind = .circularInclude
      · exact hreport
      · have hquiet : Quiet s'.diagnostics := fun e he =>
          ⟨fun hkind => hreport ⟨e, he, hkind⟩, hdepth e he⟩
        exact absurd hcycle (not_cycleFrom_root hdocument adds runs hquiet)

/-- The edges of the graph that leave the files loaded by a resolution. -/
def LoadedIncludes (j : Job) (res : Resolution) (f g : Path) : Prop :=
  f ∈ res.files ∧ j.Includes f g

/-- A search that was not cut off has seen every cycle that can be reached. -/
theorem cycleFrom_root_iff (hclosed : j.Closed res)
    (hdepth : ∀ e ∈ res.diagnostics, e.kind ≠ .maxDepthExceeded) :
    j.CycleFrom j.root ↔
      ∃ f, ReflTransGen (j.LoadedIncludes res) j.root f ∧ TransGen (j.LoadedIncludes res) f f := by
  -- a file that can be reached and has includes was loaded, so no edge is left out
  have hloaded : ∀ f g, ReflTransGen j.Includes j.root f → j.Includes f g →
      j.LoadedIncludes res f g := fun f g hreach hfg =>
    ⟨hclosed.mem_files hdepth hreach (eq_root_or_isFile_of_includes hfg), hfg⟩
  constructor
  · rintro ⟨f, hreach, hcycle⟩
    refine ⟨f, ?_, ?_⟩
    · clear hcycle
      induction hreach with
      | refl => exact .refl
      | tail hb hbc ih => exact ih.tail (hloaded _ _ hb hbc)
    · suffices h : ∀ g, TransGen j.Includes f g → TransGen (j.LoadedIncludes res) f g from
        h f hcycle
      intro g hg
      induction hg with
      | single hfb => exact .single (hloaded _ _ hreach hfb)
      | tail hfb hbc ih => exact ih.tail (hloaded _ _ (hreach.trans hfb.to_reflTransGen) hbc)
  · rintro ⟨f, hreach, hcycle⟩
    have hmono : ∀ a b, j.LoadedIncludes res a b → j.Includes a b := fun _ _ h => h.2
    exact ⟨f, ReflTransGen.mono hmono _ _ hreach, TransGen.mono hmono _ _ hcycle⟩

/-- **Cycle detection is exact.** A resolution that was not cut off reports a circular include if
and only if the graph of includes of the loaded files has a cycle that can be reached from the root
file. -/
theorem reports_circular_iff (j : Job) (res : Resolution) (hyields : j.Yields res)
    (hdepth : ∀ e ∈ res.diagnostics, e.kind ≠ .maxDepthExceeded) :
    (∃ e ∈ res.diagnostics, e.kind = .circularInclude) ↔
      ∃ f, ReflTransGen (j.LoadedIncludes res) j.root f ∧
        TransGen (j.LoadedIncludes res) f f := by
  have hending := ending_of_yields hyields
  by_cases hsource : j.source? = none
  · cases hending with
    | @unreadable e _ _ kind =>
      -- nothing is loaded, so there are no edges
      refine iff_of_false ?_ ?_
      · rintro ⟨e', he, hkind⟩
        rw [List.mem_singleton.1 he, kind] at hkind
        cases hkind
      · rintro ⟨f, -, hcycle⟩
        obtain ⟨g, hfg, -⟩ := TransGen.head'_iff.1 hcycle
        exact absurd hfg.1 List.not_mem_nil
    | refused source => simp [hsource] at source
    | expanded source => simp [hsource] at source
  · rw [reports_iff_cycleFrom hending hsource hdepth]
    exact cycleFrom_root_iff (closed_of_ending hending hsource) hdepth

/-- The shop has a cycle, which is reported, though one of its files is included twice. -/
theorem shop_reports_circular :
    ∃ res, shop.Yields res ∧ (∀ e ∈ res.diagnostics, e.kind ≠ .maxDepthExceeded) ∧
      (∃ e ∈ res.diagnostics, e.kind = .circularInclude) ∧
      ∃ f, ReflTransGen (shop.LoadedIncludes res) shop.root f ∧
        TransGen (shop.LoadedIncludes res) f f := by
  obtain ⟨res, hyields⟩ := exists_yields looksUp_shop
  have hkinds : shop.result?.map (fun res => res.diagnostics.map Diagnostic.kind) =
      some [.fileNotFound, .circularInclude, .parseError] := by decide +kernel
  rw [yields_iff.1 hyields, Option.map_some, Option.some_inj] at hkinds
  have hmem : ∀ e ∈ res.diagnostics,
      e.kind ∈ [DiagnosticKind.fileNotFound, .circularInclude, .parseError] := by
    rw [← hkinds]
    exact fun e he => List.mem_map_of_mem he
  have hdepth : ∀ e ∈ res.diagnostics, e.kind ≠ .maxDepthExceeded := by
    intro e he heq
    have hkind := hmem e he
    rw [heq] at hkind
    exact absurd hkind (by decide)
  have hreport : ∃ e ∈ res.diagnostics, e.kind = .circularInclude := by
    rw [← List.mem_map, hkinds]
    decide
  exact ⟨res, hyields, hdepth, hreport, (reports_circular_iff shop res hyields hdepth).1 hreport⟩

end Job

end Blueprint
