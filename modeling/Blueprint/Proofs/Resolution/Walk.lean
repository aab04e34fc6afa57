import Blueprint.Proofs.Resolution.IncludeGraph

/-!
# The walk over the graph of includes

Whatever a resolution does, it adds to what is there, and it is always somewhere in the graph: at a
file that can be reached from the root file, with all files on the way loaded. With these two facts
at hand, what every directive preserves is shown by going through its outcomes once.

- `Progress.Grows`: files and diagnostics are only ever added, and no file twice.
- `Job.Under`: where the walk is.
- `Job.runs_of_expands`: what holds of each directive of a file holds of them when they are run.
- `Job.expands_induct`: what every outcome preserves, every directive of the walk preserves.
- `Job.runs_of_start`: what every directive of the walk preserves, the directives of the root file
  preserve.
-/

namespace Blueprint

open Relation Resolve

/-! ## Growth -/

namespace Progress

/-- A later point of a resolution: files and diagnostics are only ever added, and no file twice. -/
structure Grows (s s' : Progress) : Prop where
  files : s.files <+: s'.files
  diagnostics : s.diagnostics <+: s'.diagnostics
  nodup : s.files.Nodup → s'.files.Nodup

namespace Grows

variable {s s₁ s' : Progress}

theorem refl (s : Progress) : s.Grows s := ⟨List.prefix_rfl, List.prefix_rfl, id⟩

theorem trans (h : s.Grows s₁) (h' : s₁.Grows s') : s.Grows s' :=
  ⟨h.files.trans h'.files, h.diagnostics.trans h'.diagnostics, h'.nodup ∘ h.nodup⟩

end Grows

variable {s s' : Progress} {ds : List Diagnostic}

theorem Adds.grows (h : s.Adds [] ds s') : s.Grows s' where
  files := ⟨[], h.files.symm⟩
  diagnostics := ⟨ds, h.diagnostics.symm⟩
  nodup hs := by rwa [h.files, List.append_nil]

theorem Adds.grows_of_not_mem {f : Path} (h : s.Adds [f] ds s') (hf : f ∉ s.files) :
    s.Grows s' where
  files := ⟨[f], h.files.symm⟩
  diagnostics := ⟨ds, h.diagnostics.symm⟩
  nodup hs := by
    rw [h.files, List.nodup_append]
    refine ⟨hs, by simp, ?_⟩
    -- the new file would have to be among those that were there
    rintro g hg t ht rfl
    rw [List.mem_singleton.1 ht] at hg
    exact hf hg

end Progress

/-- A list of directives adds what its directives add. -/
theorem Runs.grows {step : Inclusion → Progress → List Item → Progress → Prop}
    {ds : List Inclusion} {s s' : Progress} {cs : List (List Item)} (h : Runs step ds s cs s')
    (hstep : ∀ d s items s', step d s items s' → s.Grows s') : s.Grows s' := by
  induction h with
  | nil s => exact .refl s
  | cons first _ ih => exact (hstep _ _ _ _ first).trans ih

theorem Workspace.grows_of_expands {w : Workspace} {levels : Nat} {place : Place} {d : Inclusion}
    {s s' : Progress} {items : List Item} (h : w.Expands levels place d s items s') :
    s.Grows s' := by
  refine expandDirective_induct (P := fun _ _ _ s _ s' => s.Grows s') ?_ h
  intro levels place d s items s' h
  cases h with
  | tooDeep adds => exact adds.grows
  | circular _ adds => exact adds.grows
  | skipped _ _ adds => exact adds.grows
  | missing _ _ _ _ adds => exact adds.grows
  | refused _ unknown _ _ adds => exact adds.grows_of_not_mem unknown
  | loaded _ unknown _ _ adds runs =>
    exact (adds.grows_of_not_mem unknown).trans (runs.grows fun _ _ _ _ h => h.2)

namespace Job

variable {j : Job} {place : Place} {s s' : Progress}

/-! ## Places on the way -/

/-- Where the walk is: the root file and all files on the way are loaded, and the files on the way
lie between the root file and the file at the place. -/
structure Under (j : Job) (place : Place) (s : Progress) : Prop where
  root : j.root ∈ s.files
  loaded : ∀ f ∈ place.chain, f ∈ s.files
  between : ∀ f ∈ place.chain,
    ReflTransGen j.Includes j.root f ∧ ReflTransGen j.Includes f place.file

namespace Under

theorem mono (h : j.Under place s) (hg : s.Grows s') : j.Under place s' where
  root := hg.files.subset h.root
  loaded f hf := hg.files.subset (h.loaded f hf)
  between := h.between

theorem reaches (h : j.Under place s) : ReflTransGen j.Includes j.root place.file :=
  (h.between place.file (by simp [Place.chain])).1

/-- A file that is not loaded yet is not the root file. -/
theorem ne_root (h : j.Under place s) {f : Path} (hf : f ∉ s.files) : f ≠ j.root :=
  fun heq => hf (heq ▸ h.root)

/-- The walk goes on to the file that a directive leads to. -/
theorem enter {f : Path} {ds : List Diagnostic} (h : j.Under place s)
    (hf : j.Includes place.file f) (hadds : s.Adds [f] ds s') : j.Under (place.enter f) s' where
  root := hadds.mem_files.2 (Or.inl h.root)
  loaded g hg := by
    rw [Place.chain_enter] at hg
    exact hadds.mem_files.2 ((List.mem_append.1 hg).imp_left (h.loaded g))
  between g hg := by
    rw [Place.chain_enter, List.mem_append] at hg
    rw [Place.file_enter]
    rcases hg with hg | hg
    · exact ⟨(h.between g hg).1, (h.between g hg).2.tail hf⟩
    · -- the file itself is at the end of its chain
      rw [List.mem_singleton.1 hg]
      exact ⟨h.reaches.tail hf, .refl⟩

end Under

/-- The walk starts at the root file. -/
theorem under_start (hadds : Progress.Adds {} [j.root] [] s) : j.Under j.start s := by
  have hfiles : s.files = [j.root] := hadds.files
  have hchain : ∀ f ∈ j.start.chain, f = j.root := fun f hf => List.mem_singleton.1 hf
  refine ⟨by simp [hfiles], fun f hf => by simp [hfiles, hchain f hf], fun f hf => ?_⟩
  rw [hchain f hf]
  exact ⟨.refl, .refl⟩

/-! ## Induction over the walk -/

/-- What holds of each directive of a file holds of them when they are run one after the other, for
the walk is back at the file after each of them. -/
theorem runs_of_expands {step : Inclusion → Progress → List Item → Progress → Prop}
    {Q : Inclusion → Progress → List Item → Progress → Prop} {ds : List Inclusion}
    {cs : List (List Item)} (hgrows : ∀ d s items s', step d s items s' → s.Grows s')
    (hstep : ∀ d ∈ ds, ∀ s items s', j.Under place s → step d s items s' → Q d s items s')
    (hunder : j.Under place s) (h : Runs step ds s cs s') :
    Runs (fun d s items s' => s.Grows s' ∧ Q d s items s') ds s cs s' := by
  induction h with
  | nil s => exact .nil s
  | cons first _ ih =>
    have hg := hgrows _ _ _ _ first
    have hfirst := hstep _ List.mem_cons_self _ _ _ hunder first
    -- the next directive starts from a later point, and from the same place
    exact .cons ⟨hg, hfirst⟩ (ih (fun d hd => hstep d (List.mem_cons_of_mem _ hd)) (hunder.mono hg))

/-- **What every outcome preserves, every directive of the walk preserves.** -/
theorem expands_induct {P : Nat → Place → Inclusion → Progress → List Item → Progress → Prop}
    {levels : Nat} {d : Inclusion} {items : List Item}
    (step : ∀ {levels place d s items s'}, j.Under place s → d ∈ j.directivesOf place.file →
      Outcome j.workspace (fun n p d s i s' => s.Grows s' ∧ P n p d s i s')
        levels place d s items s' → P levels place d s items s')
    (hunder : j.Under place s) (hd : d ∈ j.directivesOf place.file)
    (h : j.workspace.Expands levels place d s items s') : P levels place d s items s' := by
  refine Workspace.expandDirective_induct (P := fun n p d s i s' =>
    j.Under p s → d ∈ j.directivesOf p.file → P n p d s i s') ?_ h hunder hd
  intro levels place d s items s' h hunder hd
  refine step hunder hd ?_
  cases h with
  | tooDeep adds => exact .tooDeep adds
  | circular onChain adds => exact .circular onChain adds
  | skipped offChain known adds => exact .skipped offChain known adds
  | missing offChain unknown noFile lookedUp adds =>
    exact .missing offChain unknown noFile lookedUp adds
  | refused offChain unknown isFile read adds => exact .refused offChain unknown isFile read adds
  | loaded offChain unknown isFile read adds runs =>
    have hdocument := documentOf_of_reading_eq_ok (hunder.ne_root unknown) isFile read
    -- only here the walk goes on, from the file that the directive leads to
    refine .loaded offChain unknown isFile read adds ?_
    refine runs_of_expands (fun _ _ _ _ h => Workspace.grows_of_expands h.1) ?_
      (hunder.enter ⟨d, hd, rfl⟩ adds) runs
    intro d' hd' s items s' hunder' h
    refine h.2 hunder' ?_
    rwa [Place.file_enter, directivesOf_of_some hdocument]

/-- What holds of each directive of the root file holds of them when they are run. -/
theorem runs_of_start {levels : Nat} {Q : Inclusion → Progress → List Item → Progress → Prop}
    {document : Document} {cs : List (List Item)} (hdocument : j.documentOf j.root = some document)
    (hadds : Progress.Adds {} [j.root] [] s)
    (hstep : ∀ d s items s', j.Under j.start s → d ∈ j.directivesOf j.start.file →
      j.workspace.Expands levels j.start d s items s' → Q d s items s')
    (h : Runs (j.workspace.Expands levels j.start) document.directives s cs s') :
    Runs (fun d s items s' => s.Grows s' ∧ Q d s items s') document.directives s cs s' := by
  refine runs_of_expands (fun _ _ _ _ h => Workspace.grows_of_expands h) ?_ (under_start hadds) h
  intro d hd s items s' hunder hexpands
  refine hstep d s items s' hunder ?_ hexpands
  rwa [file_start, directivesOf_of_some hdocument]

end Job

end Blueprint
