import Blueprint.Proofs.Resolution.Walk

/-!
# What a resolution loads

A resolution is a depth-first search of the graph of includes. It passes over a file that was
loaded before, it turns back at a file on the way to the directive, and it stops at a depth. Nothing
is lost on the way: once a directive has been run, all directives of the files loaded for it have
been run too.

- `Job.Covered`: a target that is loaded, or that a diagnostic tells about.
- `Job.Explored`: what a run of directives leaves behind. Their targets are covered, so are all
  targets of the files that were loaded for them, and these files can be reached.
- `Job.explored_of_expands`, `Job.explored_of_runs`: the step and the run.
- `Job.Closed`: what a whole resolution leaves behind. The loaded files are those that can be
  reached (`Job.Closed.mem_files_iff`).
- `Job.exists_yields`: a resolution ends when every path can be looked up.
- `Job.loads_every_include`: no include is lost and no file is loaded twice.
-/

namespace Blueprint

open Relation Resolve

namespace Job

variable {j : Job} {place : Place} {s s₁ s' : Progress}

/-! ## Coverage -/

/-- A target that is not lost: it is loaded, or a diagnostic tells about it. The diagnostic may be
about the depth, else no file stands there. -/
def Covered (j : Job) (files : List Path) (diagnostics : List Diagnostic) (g : Path) : Prop :=
  g ∈ files ∨ ∃ e ∈ diagnostics, e.file = g.text ∧ (e.kind = .maxDepthExceeded ∨ ¬ j.IsFile g)

theorem Covered.mono {g : Path} (h : j.Covered s.files s.diagnostics g) (hg : s.Grows s') :
    j.Covered s'.files s'.diagnostics g := by
  rcases h with h | ⟨e, he, h⟩
  · exact Or.inl (hg.files.subset h)
  · exact Or.inr ⟨e, hg.diagnostics.subset he, h⟩

/-- What a run of directives leaves behind, given the files that the directives lead to. -/
structure Explored (j : Job) (targets : List Path) (s s' : Progress) : Prop where
  covered : ∀ g ∈ targets, j.Covered s'.files s'.diagnostics g
  settled : ∀ f ∈ s'.files, f ∈ s.files ∨
    ∀ g, j.Includes f g → j.Covered s'.files s'.diagnostics g
  reached : ∀ f ∈ s'.files, f ∈ s.files ∨
    j.IsFile f ∧ ∃ g ∈ targets, ReflTransGen j.Includes g f

namespace Explored

theorem nil (s : Progress) : j.Explored [] s s :=
  ⟨nofun, fun _ => Or.inl, fun _ => Or.inl⟩

/-- A directive that loads nothing explores its target once it is covered. -/
theorem of_covered {g : Path} {ds : List Diagnostic} (hadds : s.Adds [] ds s')
    (h : j.Covered s'.files s'.diagnostics g) : j.Explored [g] s s' := by
  have hfiles : s'.files = s.files := by rw [hadds.files, List.append_nil]
  refine ⟨?_, fun f hf => Or.inl (hfiles ▸ hf), fun f hf => Or.inl (hfiles ▸ hf)⟩
  intro g' hg'
  rwa [List.mem_singleton.1 hg']

/-- A directive whose target is reported explores it when the report tells why it is not loaded. -/
theorem of_reported {g : Path} {ds : List Diagnostic} {e : Diagnostic}
    (hadds : s.Adds [] (ds ++ [e]) s') (hfile : e.file = g.text)
    (hwhy : e.kind = .maxDepthExceeded ∨ ¬ j.IsFile g) : j.Explored [g] s s' := by
  have he : e ∈ s'.diagnostics := hadds.mem_diagnostics.2 (Or.inr List.mem_concat_self)
  exact of_covered hadds (Or.inr ⟨e, he, hfile, hwhy⟩)

/-- A directive that loads a file explores it when the targets of that file have been explored. -/
theorem of_loaded {f : Path} {ds : List Diagnostic} (hfile : j.IsFile f)
    (hadds : s.Adds [f] ds s₁)
    (h : j.Explored ((j.directivesOf f).map (j.workspace.target f)) s₁ s') (hg : s₁.Grows s') :
    j.Explored [f] s s' := by
  have hf : f ∈ s'.files := hg.files.subset (hadds.mem_files.2 (Or.inr (List.mem_singleton_self f)))
  -- what is loaded in the end was there before, is the file itself, or came after it
  have hnew : ∀ t ∈ s₁.files, t ∈ s.files ∨ t = f := fun t ht =>
    (hadds.mem_files.1 ht).imp_right List.mem_singleton.1
  constructor
  · intro g hg
    rw [List.mem_singleton.1 hg]
    exact Or.inl hf
  · intro t ht
    rcases h.settled t ht with ht | ht
    · rcases hnew t ht with ht | rfl
      · exact Or.inl ht
      · exact Or.inr fun g hg => h.covered g (includes_iff.1 hg)
    · exact Or.inr ht
  · intro t ht
    rcases h.reached t ht with ht | ⟨htfile, g, hg, hreach⟩
    · rcases hnew t ht with ht | rfl
      · exact Or.inl ht
      · exact Or.inr ⟨hfile, t, List.mem_singleton_self t, .refl⟩
    · -- what was reached from a target of the file is reached from the file
      exact Or.inr ⟨htfile, f, List.mem_singleton_self f, .head (includes_iff.2 hg) hreach⟩

theorem cons {g : Path} {gs : List Path} (h : j.Explored [g] s s₁) (h' : j.Explored gs s₁ s')
    (hg : s₁.Grows s') : j.Explored (g :: gs) s s' where
  covered t ht := by
    rcases List.mem_cons.1 ht with rfl | ht
    · -- the other directives take nothing back
      exact (h.covered _ List.mem_cons_self).mono hg
    · exact h'.covered t ht
  settled f hf := by
    rcases h'.settled f hf with hf | hf
    · exact (h.settled f hf).imp_right fun hs t ht => (hs t ht).mono hg
    · exact Or.inr hf
  reached f hf := by
    rcases h'.reached f hf with hf | ⟨hfile, t, ht, hreach⟩
    · refine (h.reached f hf).imp_right ?_
      rintro ⟨hfile, t, ht, hreach⟩
      obtain rfl := List.mem_singleton.1 ht
      exact ⟨hfile, t, List.mem_cons_self, hreach⟩
    · exact Or.inr ⟨hfile, t, List.mem_cons_of_mem g ht, hreach⟩

end Explored

/-- The run: directives that are run one after the other explore what each of them leads to. -/
theorem explored_of_runs {ds : List Inclusion} {cs : List (List Item)}
    (h : Runs (fun d s _ s' => s.Grows s' ∧ j.Explored [j.workspace.target place.file d] s s')
      ds s cs s') :
    j.Explored (ds.map (j.workspace.target place.file)) s s' := by
  induction h with
  | nil s => exact .nil s
  | cons first others ih => exact first.2.cons ih (others.grows fun _ _ _ _ h => h.1)

/-- **The step: a directive explores the file that it leads to.** -/
theorem explored_of_expands {levels : Nat} {d : Inclusion} {items : List Item}
    (hunder : j.Under place s) (hd : d ∈ j.directivesOf place.file)
    (h : j.workspace.Expands levels place d s items s') :
    j.Explored [j.workspace.target place.file d] s s' := by
  refine expands_induct (P := fun _ place d s _ s' =>
    j.Explored [j.workspace.target place.file d] s s') ?_ hunder hd h
  intro levels place d s items s' hunder hd h
  cases h with
  | tooDeep adds => exact .of_reported adds rfl (Or.inl rfl)
  | circular onChain adds =>
    -- a file on the way was loaded when the walk entered it
    exact .of_covered adds (Or.inl (adds.mem_files.2 (Or.inl (hunder.loaded _ onChain))))
  | skipped _ known adds => exact .of_covered adds (Or.inl (adds.mem_files.2 (Or.inl known)))
  | missing _ _ noFile _ adds =>
    exact .of_reported adds rfl (Or.inr fun ⟨bytes, h⟩ => noFile bytes h)
  | refused _ unknown isFile read adds =>
    -- a file without a document has no directives left to run
    have hdocument := documentOf_of_reading_eq_error (hunder.ne_root unknown) isFile read
    refine .of_loaded ⟨_, isFile⟩ adds ?_ (.refl s')
    rw [directivesOf_of_none hdocument]
    exact .nil s'
  | loaded _ unknown isFile read adds runs =>
    have hdocument := documentOf_of_reading_eq_ok (hunder.ne_root unknown) isFile read
    have hexplored := explored_of_runs runs
    rw [Place.file_enter, ← directivesOf_of_some hdocument] at hexplored
    exact .of_loaded ⟨_, isFile⟩ adds hexplored (runs.grows fun _ _ _ _ h => h.1)

/-! ## Whole resolutions -/

variable {res : Resolution}

/-- What a resolution whose root file can be read leaves behind. -/
structure Closed (j : Job) (res : Resolution) : Prop where
  nodup : res.files.Nodup
  first : res.files.head? = some j.root
  settled : ∀ f ∈ res.files, ∀ g, j.Includes f g → j.Covered res.files res.diagnostics g
  reached : ∀ f ∈ res.files, f = j.root ∨ j.IsFile f ∧ ReflTransGen j.Includes j.root f

theorem closed_of_ending (h : j.Ending res) (hsource : j.source? ≠ none) : j.Closed res := by
  cases h with
  | unreadable source => exact absurd source hsource
  | refused source parsed =>
    have hdocument := documentOf_root_eq_none source parsed
    refine ⟨by simp, rfl, ?_, fun f hf => Or.inl (List.mem_singleton.1 hf)⟩
    intro f hf g hg
    rw [List.mem_singleton.1 hf, includes_iff, directivesOf_of_none hdocument] at hg
    exact absurd hg List.not_mem_nil
  | @expanded text document s s' cs source parsed adds runs =>
    have hdocument := documentOf_root_eq_some source parsed
    have hfiles : s.files = [j.root] := adds.files
    have hgrows := runs.grows fun _ _ _ _ => Workspace.grows_of_expands
    have hexplored := explored_of_runs (runs_of_start hdocument adds
      (fun _ _ _ _ hunder hd h => explored_of_expands hunder hd h) runs)
    rw [file_start, ← directivesOf_of_some hdocument] at hexplored
    have hold : ∀ f, f ∈ s.files → f = j.root := fun f hf => by simpa [hfiles] using hf
    refine ⟨hgrows.nodup (by simp [hfiles]), ?_, ?_, ?_⟩
    · -- the root file was there first, and files are only added behind it
      obtain ⟨rest, hrest⟩ := hgrows.files
      show s'.files.head? = some j.root
      rw [← hrest, hfiles]
      rfl
    · intro f hf g hg
      rcases hexplored.settled f hf with hf | hf
      · -- the root file was not loaded by a directive, so it is settled by its own targets
        rw [hold f hf] at hg
        exact hexplored.covered g (includes_iff.1 hg)
      · exact hf g hg
    · intro f hf
      rcases hexplored.reached f hf with hf | ⟨hfile, g, hg, hreach⟩
      · exact Or.inl (hold f hf)
      · exact Or.inr ⟨hfile, .head (includes_iff.2 hg) hreach⟩

/-- No file is loaded twice, whether the root file can be read or not. -/
theorem nodup_of_ending (h : j.Ending res) : res.files.Nodup := by
  by_cases hsource : j.source? = none
  · cases h with
    | unreadable => exact List.nodup_nil
    | refused source => simp [hsource] at source
    | expanded source => simp [hsource] at source
  · exact (closed_of_ending h hsource).nodup

namespace Closed

/-- A file that can be reached is loaded, unless the search was cut off. -/
theorem mem_files (h : j.Closed res) (hdepth : ∀ e ∈ res.diagnostics, e.kind ≠ .maxDepthExceeded)
    {f : Path} (hreach : ReflTransGen j.Includes j.root f) (hf : f = j.root ∨ j.IsFile f) :
    f ∈ res.files := by
  induction hreach with
  | refl => exact List.mem_of_head? h.first
  | @tail b c _ hbc ih =>
    -- only a file with a document has includes, so `b` was loaded itself
    have hb : b ∈ res.files := ih (eq_root_or_isFile_of_includes hbc)
    rcases h.settled b hb c hbc with hc | ⟨e, he, -, hkind | hfile⟩
    · exact hc
    · exact absurd hkind (hdepth e he)
    · rcases hf with rfl | hf
      · exact List.mem_of_head? h.first
      · exact absurd hf hfile

/-- **The loaded files are the files that can be reached**, unless the search was cut off. -/
theorem mem_files_iff (h : j.Closed res)
    (hdepth : ∀ e ∈ res.diagnostics, e.kind ≠ .maxDepthExceeded) (f : Path) :
    f ∈ res.files ↔ f = j.root ∨ j.IsFile f ∧ ReflTransGen j.Includes j.root f := by
  constructor
  · exact h.reached f
  · rintro (rfl | ⟨hfile, hreach⟩)
    · exact h.mem_files hdepth .refl (Or.inl rfl)
    · exact h.mem_files hdepth hreach (Or.inr hfile)

end Closed

/-! ## Resolutions end -/

deriving instance DecidableEq for Found

instance (w : Workspace) (d : Inclusion) : Decidable (w.Nameable d) :=
  inferInstanceAs (Decidable (_ = false))

instance (j : Job) : Decidable j.RootNameable := inferInstanceAs (Decidable (_ = false))

/-- Every path that a resolution comes across can be looked up. -/
structure LooksUp (j : Job) : Prop where
  root : j.RootNameable
  targets : ∀ f, ReflTransGen j.Includes j.root f → ∀ d ∈ j.directivesOf f,
    j.workspace.Nameable d ∧ j.tree.find (j.workspace.target f d) ≠ .nameTooLong

/-- It is enough to look at a list of files that holds the root file and all targets. -/
theorem looksUp_of_list (fs : List Path) (hroot : j.RootNameable) (hmem : j.root ∈ fs)
    (htargets : ∀ f ∈ fs, ∀ d ∈ j.directivesOf f, j.workspace.target f d ∈ fs ∧
      j.workspace.Nameable d ∧ j.tree.find (j.workspace.target f d) ≠ .nameTooLong) :
    j.LooksUp := by
  refine ⟨hroot, fun f hreach d hd => ?_⟩
  -- the list is closed under includes, so the walk cannot leave it
  suffices hf : f ∈ fs from (htargets f hf d hd).2
  clear hd
  induction hreach with
  | refl => exact hmem
  | tail _ hbc ih =>
    obtain ⟨d', hd', rfl⟩ := hbc
    exact (htargets _ ih d' hd').1

/-- The directives of a document can be run when each of them can. -/
theorem exists_runs {levels : Nat} {ds : List Inclusion} (hunder : j.Under place s)
    (hstep : ∀ d ∈ ds, ∀ s, j.Under place s →
      ∃ items s', j.workspace.Expands levels place d s items s') :
    ∃ cs s', Runs (j.workspace.Expands levels place) ds s cs s' := by
  have hruns := Runs.exists_of_forall (I := j.Under place)
    (fun d hd s hs => by
      obtain ⟨items, s', h⟩ := hstep d hd s hs
      exact ⟨items, s', h, hs.mono (Workspace.grows_of_expands h)⟩) hunder
  obtain ⟨cs, s', h, -⟩ := hruns
  exact ⟨cs, s', h⟩

theorem exists_expands (hlook : j.LooksUp) {levels : Nat} {d : Inclusion}
    (hunder : j.Under place s) (hd : d ∈ j.directivesOf place.file) :
    ∃ items s', j.workspace.Expands levels place d s items s' := by
  induction levels generalizing place d s with
  | zero =>
    obtain ⟨hname, hfind⟩ := hlook.targets _ hunder.reaches d hd
    refine Workspace.exists_expands_of_not_stuck (Workspace.not_stuck hname hfind) ?_
    -- with no level left nothing is entered
    intro below _ _ hlevels
    cases hlevels
  | succ levels ih =>
    obtain ⟨hname, hfind⟩ := hlook.targets _ hunder.reaches d hd
    refine Workspace.exists_expands_of_not_stuck (Workspace.not_stuck hname hfind) ?_
    rintro _ document s₁ ⟨⟩ henters
    obtain ⟨bytes, hfile⟩ := henters.isFile
    have hread := henters.reading
    rw [hfile] at hread
    have hdocument := documentOf_of_reading_eq_ok (hunder.ne_root henters.unknown) hfile hread
    -- the directives of the new file are run with one level less
    refine exists_runs (hunder.enter ⟨d, hd, rfl⟩ henters.adds) ?_
    intro d' hd' s hs
    refine ih hs ?_
    rwa [Place.file_enter, directivesOf_of_some hdocument]

/-- **A resolution ends when every path can be looked up.** -/
theorem exists_yields (hlook : j.LooksUp) : ∃ res, j.Yields res := by
  refine yields_of_runs hlook.root ?_
  intro text document s hsource hparsed hadds
  have hdocument := documentOf_root_eq_some hsource hparsed
  refine exists_runs (under_start hadds) ?_
  intro d hd s hs
  refine exists_expands hlook hs ?_
  rwa [file_start, directivesOf_of_some hdocument]

/-! ## Nothing is lost -/

/-- **No include is lost and no file is loaded twice.** When every path can be looked up, the
resolution ends, no file is loaded twice, and every directive of a loaded file leads to a loaded
file or to one that a diagnostic tells about. If the root file can be read, it comes first, and
unless the search was cut off, the loaded files are the root file and the regular files that can be
reached from it. If it cannot be read, nothing is loaded, and this is what is reported. -/
theorem loads_every_include (j : Job) (hlook : j.LooksUp) :
    ∃ res, j.Yields res ∧ res.files.Nodup ∧
      (∀ f ∈ res.files, ∀ d ∈ j.directivesOf f,
        j.workspace.target f d ∈ res.files ∨
          ∃ e ∈ res.diagnostics, e.file = (j.workspace.target f d).text) ∧
      (j.source? ≠ none → res.files.head? = some j.root ∧
        ((∀ e ∈ res.diagnostics, e.kind ≠ .maxDepthExceeded) → ∀ f,
          f ∈ res.files ↔ f = j.root ∨ j.IsFile f ∧ ReflTransGen j.Includes j.root f)) ∧
      (j.source? = none → res.files = [] ∧
        ∃ e, res.diagnostics = [e] ∧ e.kind = .fileNotFound ∧ e.file = j.root.text) := by
  obtain ⟨res, hyields⟩ := exists_yields hlook
  have hending := ending_of_yields hyields
  refine ⟨res, hyields, ?_⟩
  by_cases hsource : j.source? = none
  · have hnothing : res.files = [] ∧
        ∃ e, res.diagnostics = [e] ∧ e.kind = .fileNotFound ∧ e.file = j.root.text := by
      cases hending with
      | unreadable _ file kind => exact ⟨rfl, _, rfl, kind, file⟩
      | refused source => simp [hsource] at source
      | expanded source => simp [hsource] at source
    rw [hnothing.1]
    exact ⟨List.nodup_nil, nofun, fun h => absurd hsource h, fun _ => ⟨rfl, hnothing.2⟩⟩
  · have hclosed := closed_of_ending hending hsource
    refine ⟨hclosed.nodup, ?_, fun _ => ⟨hclosed.first, hclosed.mem_files_iff⟩,
      fun h => absurd h hsource⟩
    intro f hf d hd
    refine (hclosed.settled f hf _ ⟨d, hd, rfl⟩).imp_right ?_
    rintro ⟨e, he, hfile, -⟩
    exact ⟨e, he, hfile⟩

theorem looksUp_shop : shop.LooksUp := by
  refine looksUp_of_list [.mk ["w", "main.mfd"], .mk ["w", "orders.mfd"], .mk ["w", "stock.mfd"],
    .mk ["w", "notes.mfd"], .mk ["w", "gone.mfd"]] ?_ ?_ ?_
  · decide +kernel
  · decide +kernel
  · decide +kernel

/-- The files of the shop are loaded once each. -/
theorem shop_loads_every_include :
    shop.LooksUp ∧ shop.source? ≠ none ∧
      ∃ res, shop.Yields res ∧ res.files.Nodup ∧ res.files.head? = some shop.root ∧
        ∀ f ∈ res.files, ∀ d ∈ shop.directivesOf f,
          shop.workspace.target f d ∈ res.files ∨
            ∃ e ∈ res.diagnostics, e.file = (shop.workspace.target f d).text := by
  have hsource : shop.source? ≠ none := by decide +kernel
  obtain ⟨res, hyields, hnodup, hcovered, hread, -⟩ := loads_every_include shop looksUp_shop
  exact ⟨looksUp_shop, hsource, res, hyields, hnodup, (hread hsource).1, hcovered⟩

/-- A project without files, of which a file is to be resolved. -/
def vacantLot : Job where
  resolver := {}
  tree := sampleTree []
  parse := Document.parse
  origin := .file "nope.mfd"

/-- A root file that cannot be read is not among the loaded files, though nothing is cut off. -/
theorem missing_root_not_loaded :
    vacantLot.LooksUp ∧ ∃ res, vacantLot.Yields res ∧
      (∀ e ∈ res.diagnostics, e.kind ≠ .maxDepthExceeded) ∧
      res.files.head? ≠ some vacantLot.root ∧ vacantLot.root ∉ res.files := by
  refine ⟨looksUp_of_list [.mk ["w", "nope.mfd"]] ?_ ?_ ?_, ?_⟩
  · decide +kernel
  · decide +kernel
  · decide +kernel
  · have hresult :
        vacantLot.result?.map (fun res => (res.files, res.diagnostics.map Diagnostic.kind)) =
          some ([], [.fileNotFound]) := by decide +kernel
    obtain ⟨res, hres, hshape⟩ := Option.map_eq_some_iff.1 hresult
    obtain ⟨hfiles, hkinds⟩ := Prod.mk.inj hshape
    refine ⟨res, yields_iff.2 hres, fun e he => ?_, ?_, ?_⟩
    · have hkind : e.kind ∈ res.diagnostics.map Diagnostic.kind := List.mem_map_of_mem he
      rw [hkinds, List.mem_singleton] at hkind
      rw [hkind]
      decide
    · rw [hfiles]
      decide
    · rw [hfiles]
      exact List.not_mem_nil

end Job

end Blueprint
