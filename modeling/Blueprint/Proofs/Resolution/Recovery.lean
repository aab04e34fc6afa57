import Blueprint.Proofs.Resolution.Calls

/-!
# What a resolution recovers from

A file that is missing, cannot be read or cannot be parsed is reported, the directive that leads to
it stands for nothing, and the resolution goes on. There is one exception: a path that cannot even
be looked up ends the whole resolution. It holds a null character, or it has a name that is too
long.

- `Workspace.not_stuck_of_expands`: a call that comes to something is not stuck.
- `Job.exists_yields_iff`: a resolution comes to a result if and only if no call is stuck.
- `Job.exists_calls_of_mem_files`: all directives of a loaded file are called, whatever becomes of
  those before.
- `Job.excuses_of_calls`: a call for a file without a document stands for nothing, and the result
  says why.
- `Job.recovers_unless_stuck`: all of this together.
- `Job.null_character_ends_resolution`: a project whose resolution has no result.
-/

namespace Blueprint

open Relation Resolve

/-! ## Paths that cannot be looked up -/

namespace Workspace

variable {w : Workspace} {levels : Nat} {place : Place} {d : Inclusion} {s s' : Progress}
  {items : List Item}

theorem not_stuck_of_expands (h : w.Expands levels place d s items s') :
    ¬ w.Stuck levels place d s := by
  rintro (hname | ⟨hlevels, hchain, hunknown, hfind⟩)
  · exact hname (nameable_of_expands h)
  · -- a name that is too long is neither that of a file nor that of a missing one
    cases outcome_of_expands h with
    | tooDeep => exact absurd hlevels (Nat.lt_irrefl 0)
    | circular onChain => exact hchain onChain
    | skipped _ known => exact hunknown known
    | missing _ _ _ lookedUp => exact lookedUp hfind
    | refused _ _ isFile => cases hfind.symm.trans isFile
    | loaded _ _ isFile => cases hfind.symm.trans isFile

end Workspace

namespace Job

variable {j : Job} {levels : Nat} {place : Place} {d : Inclusion} {s s' : Progress}
  {items : List Item} {res : Resolution}

/-- A call comes to something when no call is stuck. -/
theorem exists_expands_of_calls
    (hfree : ∀ levels place d s, j.Calls levels place d s → ¬ j.workspace.Stuck levels place d s)
    (hcall : j.Calls levels place d s) :
    ∃ items s', j.workspace.Expands levels place d s items s' := by
  -- on the levels: a call that is not stuck only depends on the calls one level below
  induction levels generalizing place d s with
  | zero =>
    refine Workspace.exists_expands_of_not_stuck (hfree _ _ _ _ hcall) ?_
    intro below document s₁ hlevels
    cases hlevels
  | succ levels ih =>
    refine Workspace.exists_expands_of_not_stuck (hfree _ _ _ _ hcall) ?_
    rintro _ document s₁ ⟨⟩ henters
    refine Runs.exists_of_turn fun d' s₂ hturn => ?_
    exact ih (.deeper hcall henters hturn)

/-- **A resolution comes to a result if and only if no call is stuck.** -/
theorem exists_yields_iff (hroot : j.RootNameable) :
    (∃ res, j.Yields res) ↔
      ∀ levels place d s, j.Calls levels place d s → ¬ j.workspace.Stuck levels place d s := by
  constructor
  · rintro ⟨res, hyields⟩ levels place d s hcall
    obtain ⟨items, s', hexpands, -⟩ := expands_of_calls hyields hcall
    exact Workspace.not_stuck_of_expands hexpands
  · intro hfree
    by_cases hopens : ∃ text document, j.source? = some text ∧
        j.parse text j.root.text = .ok document
    · obtain ⟨text, document, hsource, hparsed⟩ := hopens
      obtain ⟨s, hopened⟩ := exists_opening hparsed
      have hruns : ∃ cs s', Runs (j.workspace.Expands j.resolver.levels j.start)
          document.directives s cs s' :=
        Runs.exists_of_turn fun d s₁ hturn =>
          exists_expands_of_calls hfree (.root hroot hsource hopened hturn)
      obtain ⟨cs, s', hruns⟩ := hruns
      exact ⟨_, (yields_iff_of_opening hroot hsource hopened).2 ⟨cs, s', hruns, rfl⟩⟩
    · refine yields_of_runs hroot fun text document s hsource hparsed => ?_
      exact absurd ⟨text, document, hsource, hparsed⟩ hopens

/-! ## Loaded files -/

/-- A call that loads a file and comes to something reports why the file has no document, or goes on
with the directives of its document. -/
theorem refused_or_enters (hunder : j.Under place s) (hloads : j.workspace.Loads place d s)
    (h : j.workspace.Expands (levels + 1) place d s items s') :
    (j.documentOf (j.workspace.target place.file d) = none ∧
      ∃ e ∈ s'.diagnostics, e.file = (j.workspace.target place.file d).text ∧
        (e.kind = .fileNotFound ∨ e.kind = .parseError)) ∨
    ∃ document s₁, j.documentOf (j.workspace.target place.file d) = some document ∧
      j.workspace.Enters place d s document s₁ := by
  cases Workspace.outcome_of_expands h with
  | circular onChain => exact absurd onChain hloads.offChain
  | skipped _ known => exact absurd known hloads.unknown
  | missing _ _ noFile =>
    obtain ⟨bytes, hfind⟩ := hloads.isFile
    exact absurd hfind (noFile bytes)
  | refused _ unknown isFile read adds =>
    have hdocument := documentOf_of_reading_eq_error (hunder.ne_root unknown) isFile read
    have he := adds.mem_diagnostics.2 (Or.inr List.mem_concat_self)
    exact Or.inl ⟨hdocument, _, he, Workspace.of_reading_eq_error read⟩
  | loaded offChain unknown isFile read =>
    have hdocument := documentOf_of_reading_eq_ok (hunder.ne_root unknown) isFile read
    obtain ⟨s₁, henters⟩ := Workspace.exists_enters (Workspace.nameable_of_expands h) offChain
      unknown isFile read
    exact Or.inr ⟨_, s₁, hdocument, henters⟩

/-- **All directives of a loaded file are called**, whatever becomes of those before them. -/
theorem exists_calls_of_mem_files (hyields : j.Yields res) {f : Path} (hf : f ∈ res.files)
    (hd : d ∈ j.directivesOf f) : ∃ levels place s, place.file = f ∧ j.Calls levels place d s := by
  cases hdocument : j.documentOf f with
  | none =>
    rw [directivesOf_of_none hdocument] at hd
    exact absurd hd List.not_mem_nil
  | some document =>
    rw [directivesOf_of_some hdocument] at hd
    obtain ⟨depth, hloaded⟩ := exists_loadedAt hyields hf
    cases hloaded with
    | root =>
      have hroot := rootNameable_of_yields hyields
      obtain ⟨text, hsource, hparsed⟩ := exists_source_of_documentOf_root hdocument
      obtain ⟨s, hopened⟩ := exists_opening hparsed
      obtain ⟨cs, s', hruns, -⟩ := (yields_iff_of_opening hroot hsource hopened).1 hyields
      obtain ⟨s₁, hturn⟩ := hruns.exists_turn hd
      exact ⟨_, j.start, s₁, rfl, .root hroot hsource hopened hturn⟩
    | call call loads =>
      -- the call that loaded the file went on to run its directives
      obtain ⟨items, s', hexpands, -⟩ := expands_of_calls hyields call
      rcases refused_or_enters (under_of_calls call).1 loads hexpands with
        ⟨hnone, -⟩ | ⟨document', s₁, hsome, henters⟩
      · cases hdocument.symm.trans hnone
      · cases hdocument.symm.trans hsome
        obtain ⟨cs, hruns, -⟩ := henters.expands_iff.1 hexpands
        obtain ⟨s₂, hturn⟩ := hruns.exists_turn hd
        have hcall := Calls.deeper call henters hturn
        exact ⟨_, _, s₂, Place.file_enter _ _, hcall⟩

/-! ## Files without a document -/

/-- A result says why there is nothing of a file in it. -/
def Excuses (res : Resolution) (f : Path) : Prop :=
  ∃ e ∈ res.diagnostics, e.file = f.text ∧
    (e.kind = .fileNotFound ∨ e.kind = .parseError ∨ e.kind = .maxDepthExceeded)

/-- A loaded file without a document is reported. -/
theorem excuses_of_mem_files (hyields : j.Yields res) {f : Path} (hf : f ∈ res.files)
    (hnone : j.documentOf f = none) : Excuses res f := by
  obtain ⟨depth, hloaded⟩ := exists_loadedAt hyields hf
  cases hloaded with
  | root source =>
    cases ending_of_yields hyields with
    | unreadable hsource => exact absurd hsource source
    | refused => exact ⟨_, List.mem_singleton_self _, rfl, Or.inr (Or.inl rfl)⟩
    | expanded hsource parsed =>
      rw [documentOf_root_eq_some hsource parsed] at hnone
      cases hnone
  | call call loads =>
    obtain ⟨items, s', hexpands, -, hdiagnostics⟩ := expands_of_calls hyields call
    rcases refused_or_enters (under_of_calls call).1 loads hexpands with
      ⟨-, e, he, hfile, hkind⟩ | ⟨document, s₁, hsome, -⟩
    · exact ⟨e, hdiagnostics he, hfile, hkind.imp_right Or.inl⟩
    · cases hnone.symm.trans hsome

/-- **A call for a file without a document stands for nothing, and the result says why.** -/
theorem excuses_of_calls (hyields : j.Yields res) (hcall : j.Calls levels place d s)
    (hnone : j.documentOf (j.workspace.target place.file d) = none) :
    (∃ s', j.workspace.Expands levels place d s [] s') ∧
      Excuses res (j.workspace.target place.file d) := by
  obtain ⟨items, s', hexpands, hfiles, hdiagnostics⟩ := expands_of_calls hyields hcall
  have hunder := (under_of_calls hcall).1
  have hgrows := Workspace.grows_of_expands hexpands
  cases Workspace.outcome_of_expands hexpands with
  | tooDeep adds =>
    have he := hdiagnostics (adds.mem_diagnostics.2 (Or.inr List.mem_concat_self))
    exact ⟨⟨s', hexpands⟩, _, he, rfl, Or.inr (Or.inr rfl)⟩
  -- the report is of the call that loaded the file first
  | circular onChain =>
    have hf := hfiles (hgrows.files.subset (hunder.loaded _ onChain))
    exact ⟨⟨s', hexpands⟩, excuses_of_mem_files hyields hf hnone⟩
  | skipped _ known =>
    have hf := hfiles (hgrows.files.subset known)
    exact ⟨⟨s', hexpands⟩, excuses_of_mem_files hyields hf hnone⟩
  | missing _ _ _ _ adds =>
    have he := hdiagnostics (adds.mem_diagnostics.2 (Or.inr List.mem_concat_self))
    exact ⟨⟨s', hexpands⟩, _, he, rfl, Or.inl rfl⟩
  | refused _ _ _ _ adds =>
    have hf := hfiles (adds.mem_files.2 (Or.inr (List.mem_singleton_self _)))
    exact ⟨⟨s', hexpands⟩, excuses_of_mem_files hyields hf hnone⟩
  | loaded _ unknown isFile read =>
    rw [documentOf_of_reading_eq_ok (hunder.ne_root unknown) isFile read] at hnone
    cases hnone

/-- The root file keeps its items, and between them comes what its directives stand for. -/
theorem exists_runs_of_yields {document : Document} (hyields : j.Yields res)
    (hdocument : j.documentOf j.root = some document) :
    ∃ s cs s', Runs (j.workspace.Expands j.resolver.levels j.start) document.directives s cs s' ∧
      res.document = { document with body := Item.fillBody document.body cs } := by
  have hroot := rootNameable_of_yields hyields
  obtain ⟨text, hsource, hparsed⟩ := exists_source_of_documentOf_root hdocument
  obtain ⟨s, hopened⟩ := exists_opening hparsed
  obtain ⟨cs, s', hruns, rfl⟩ := (yields_iff_of_opening hroot hsource hopened).1 hyields
  exact ⟨s, cs, s', hruns, rfl⟩

/-- **A resolution recovers from every include that it can look up.** It comes to a result if and
only if no call is stuck. Then the root file keeps its items, with what its directives stand for
between them. All directives of all loaded files are called and come to something, and one whose
file is missing, cannot be read or cannot be parsed stands for nothing and is reported. -/
theorem recovers_unless_stuck (j : Job) (hroot : j.RootNameable) :
    ((∃ res, j.Yields res) ↔
      ∀ levels place d s, j.Calls levels place d s → ¬ j.workspace.Stuck levels place d s) ∧
    ∀ res, j.Yields res →
      (∀ document, j.documentOf j.root = some document → ∃ s cs s',
        Runs (j.workspace.Expands j.resolver.levels j.start) document.directives s cs s' ∧
          res.document = { document with body := Item.fillBody document.body cs }) ∧
      (∀ f ∈ res.files, ∀ d ∈ j.directivesOf f,
        ∃ levels place s, place.file = f ∧ j.Calls levels place d s) ∧
      ∀ levels place d s, j.Calls levels place d s →
        (∃ items s', j.workspace.Expands levels place d s items s') ∧
        (j.documentOf (j.workspace.target place.file d) = none →
          (∃ s', j.workspace.Expands levels place d s [] s') ∧
            Excuses res (j.workspace.target place.file d)) := by
  refine ⟨exists_yields_iff hroot, fun res hyields => ⟨?_, ?_, ?_⟩⟩
  · intro document hdocument
    exact exists_runs_of_yields hyields hdocument
  · intro f hf d hd
    exact exists_calls_of_mem_files hyields hf hd
  · intro levels place d s hcall
    obtain ⟨items, s', hexpands, -⟩ := expands_of_calls hyields hcall
    exact ⟨⟨items, s', hexpands⟩, excuses_of_calls hyields hcall⟩

/-- In the shop, the stock includes a file that is missing. -/
theorem shop_recovers :
    shop.RootNameable ∧ ∃ res, shop.Yields res ∧
      (∀ levels place d s, shop.Calls levels place d s →
        ¬ shop.workspace.Stuck levels place d s) ∧
      Excuses res (.mk ["w", "gone.mfd"]) := by
  have hroot : shop.RootNameable := by
    unfold RootNameable
    decide +kernel
  have hresult : (shop.result?.map fun res => decide (.mk ["w", "stock.mfd"] ∈ res.files)) =
      some true := by decide +kernel
  obtain ⟨res, hres, hstock⟩ := Option.map_eq_some_iff.1 hresult
  have hyields := yields_iff.2 hres
  obtain ⟨hfree, hrecovers⟩ := recovers_unless_stuck shop hroot
  obtain ⟨-, hcalled, hcalls⟩ := hrecovers res hyields
  refine ⟨hroot, res, hyields, hfree.1 ⟨res, hyields⟩, ?_⟩
  obtain ⟨d, hd, htarget⟩ : shop.Includes (.mk ["w", "stock.mfd"]) (.mk ["w", "gone.mfd"]) :=
    includes_iff.2 (by decide +kernel)
  obtain ⟨levels, place, s, hfile, hcall⟩ := hcalled _ (of_decide_eq_true hstock) d hd
  have hnone : shop.documentOf (.mk ["w", "gone.mfd"]) = none := by
    rw [← Option.isNone_iff_eq_none]
    decide +kernel
  rw [← hfile] at htarget
  rw [← htarget] at hnone ⊢
  exact ((hcalls levels place d s hcall).2 hnone).2

/-- A project whose root file includes a path with a null character. -/
def brokenPath : Job where
  resolver := {}
  tree :=
    (sampleTree []).addFile ["w", "main.mfd"]
      (Document.toSource { body := [sampleDirective "\x00"] }).toUTF8.toList
  parse := Document.parse
  origin := .file "main.mfd"

/-- A path with a null character in a root file that can be read and parsed leaves the resolution
without a result. -/
theorem null_character_ends_resolution :
    brokenPath.RootNameable ∧ brokenPath.documentOf brokenPath.root ≠ none ∧
      ¬ ∃ res, brokenPath.Yields res := by
  refine ⟨?_, ?_, ?_⟩
  · unfold RootNameable
    decide +kernel
  · rw [← Option.isSome_iff_ne_none]
    decide +kernel
  · rintro ⟨res, hyields⟩
    have hnone : brokenPath.result?.isNone = true := by decide +kernel
    rw [yields_iff.1 hyields] at hnone
    cases hnone

end Job

end Blueprint
