import Blueprint.Proofs.Resolution.Calls
import Blueprint.Proofs.Resolution.Closure

/-!
# Resolution as plain inlining

When the includes of a project form a tree, nothing that a resolution keeps track of matters: no
file is met twice, no include leads back and none is too deep. The result is then what one gets by
putting the content of each file in the place of the directive that leads to it, without any state.

- `Item.inlineBody`: the items of a document with contents in the place of its directives.
- `Job.inlined`, `Job.visits`: the content of a file and the files that it takes, by recursion over
  includes alone.
- `Job.TreeShaped`: the includes form a tree, and all files in it have a document.
- `Job.grafts_of_calls`, `Job.grafts_of_runs`: what a call and a list of calls leave behind is what
  inlining gives.
- `Job.resolves_tree_by_inlining`: the same for whole resolutions.
-/

namespace Blueprint

open Relation Resolve

/-! ## Items with contents in the place of directives -/

namespace Item

variable (content : Inclusion → List Item)

/-- The items of a component: contents take the place of directives. -/
def inlineComponent (items : List Item) : List Item :=
  items.flatMap fun
    | inclusion d => content d
    | i => [i]

/-- The items of other files that a system takes in: components and comments. -/
def TakenIn (i : Item) : Prop := (∃ head body, i = component head body) ∨ ∃ text, i = comment text

instance : DecidablePred TakenIn := fun i =>
  match i with
  | component head body => isTrue (.inl ⟨head, body, rfl⟩)
  | comment text => isTrue (.inr ⟨text, rfl⟩)
  | system _ _ | construct _ | inclusion _ | unparsed _ | fragment _ => isFalse (by simp [TakenIn])

/-- The items of a system: of the contents, what the system takes in comes in the place of a
directive. -/
def inlineSystem (items : List Item) : List Item :=
  items.flatMap fun
    | inclusion d => (content d).filter fun i => TakenIn i
    | component head body => [component head (inlineComponent content body)]
    | i => [i]

/-- What comes to stand before a system: the contents that it does not take in. -/
def beforeSystem (items : List Item) : List Item :=
  items.flatMap fun
    | inclusion d => (content d).filter fun i => ¬ TakenIn i
    | _ => []

/-- The items of a document: contents take the place of directives. -/
def inlineBody (items : List Item) : List Item :=
  items.flatMap fun
    | inclusion d => content d
    | component head body => [component head (inlineComponent content body)]
    | system head body => beforeSystem content body ++ [system head (inlineSystem content body)]
    | i => [i]

theorem fillComponent_map (items : List Item) :
    fillComponent items ((directivesInComponent items).map content) =
      inlineComponent content items := by
  induction items with
  | nil => rfl
  | cons i rest ih =>
    unfold inlineComponent at ih ⊢
    cases i <;> simp [fillComponent, directivesInComponent, ih]

/-- An included item is let in where it is to be taken in. -/
theorem fitsSystem_eq : fitsSystem = fun i => decide (TakenIn i) := by
  funext i
  cases i <;> simp [fitsSystem, TakenIn]

theorem fillSystem_map (items : List Item) :
    fillSystem items ((directivesInSystem items).map content) =
      (inlineSystem content items, beforeSystem content items) := by
  induction items with
  | nil => rfl
  | cons i rest ih =>
    unfold inlineSystem beforeSystem at ih ⊢
    cases i with
    | component head body => simp [fillSystem, directivesInSystem, ih, fillComponent_map]
    | inclusion d => simp [fillSystem, directivesInSystem, ih, fitsSystem_eq]
    | _ => simp [fillSystem, directivesInSystem, ih]

/-- **Contents that depend on the directive only are filled in by inlining.** -/
theorem fillBody_map (items : List Item) :
    fillBody items ((directivesInBody items).map content) = inlineBody content items := by
  induction items with
  | nil => rfl
  | cons i rest ih =>
    unfold inlineBody at ih ⊢
    cases i with
    | system head body => simp [fillBody, directivesInBody, ih, fillSystem_map]
    | component head body => simp [fillBody, directivesInBody, ih, fillComponent_map]
    | _ => simp [fillBody, directivesInBody, ih]

end Item

namespace Job

variable {j : Job} {levels depth bound : Nat} {place : Place} {d : Inclusion} {s s₁ s' : Progress}
  {document : Document} {items : List Item} {cs : List (List Item)} {f g : Path}

/-! ## Values by recursion over includes -/

/-- A value for every file, put together from the values for the files that its directives lead to.
Includes that are nested deeper than the bound do not count. -/
def gather {α : Type} (j : Job) (combine : Path → (Inclusion → α) → α) (nothing : α) :
    Nat → Path → α
  | 0, _ => nothing
  | bound + 1, f =>
    combine f fun d => gather j combine nothing bound (j.workspace.target f d)

/-- The items of a file. A file that cannot be read and parsed has none. -/
def bodyOf (j : Job) (f : Path) : List Item := (j.documentOf f).elim [] Document.body

/-- The content of a file: its items with the contents of other files in the place of the
directives. -/
def inlined (j : Job) : Nat → Path → List Item :=
  j.gather (fun f content => Item.inlineBody content (j.bodyOf f)) []

/-- The files that the content of a file is made of: the file itself, and then those for its
directives, in order. -/
def visits (j : Job) : Nat → Path → List Path :=
  j.gather (fun f order => f :: (j.directivesOf f).flatMap order) []

theorem inlined_succ (j : Job) (bound : Nat) (f : Path) :
    j.inlined (bound + 1) f =
      Item.inlineBody (fun d => j.inlined bound (j.workspace.target f d)) (j.bodyOf f) := rfl

theorem bodyOf_of_some (h : j.documentOf f = some document) : j.bodyOf f = document.body := by
  simp [bodyOf, h]

/-- Inlining looks at the contents for the directives of a file only. -/
theorem inlineBody_congr {content content' : Inclusion → List Item}
    (h : ∀ d ∈ j.directivesOf f, content d = content' d) :
    Item.inlineBody content (j.bodyOf f) = Item.inlineBody content' (j.bodyOf f) := by
  cases hdocument : j.documentOf f with
  | none => simp [bodyOf, hdocument, Item.inlineBody]
  | some document =>
    rw [directivesOf_of_some hdocument] at h
    rw [bodyOf_of_some hdocument, ← Item.fillBody_map, ← Item.fillBody_map]
    exact congrArg _ (List.map_congr_left h)

/-- All files that are visited can be reached. -/
theorem reaches_of_mem_visits (h : g ∈ j.visits bound f) : ReflTransGen j.Includes f g := by
  induction bound generalizing f with
  | zero => exact absurd h List.not_mem_nil
  | succ bound ih =>
    rcases List.mem_cons.1 h with rfl | h
    · exact .refl
    · obtain ⟨d, hd, h⟩ := List.mem_flatMap.1 h
      exact .head ⟨d, hd, rfl⟩ (ih h)

/-! ## Trees of includes -/

/-- A file is nested in the root file, as many levels deep as the number says. -/
inductive Nested (j : Job) : Nat → Path → Prop
  | root : Nested j 0 j.root
  | step {depth : Nat} {f g : Path} (above : Nested j depth f) (edge : j.Includes f g) :
      Nested j (depth + 1) g

/-- The includes form a tree that the limit leaves room for: every directive can be looked up and
leads to a file with a document, no two directives lead to the same file, and none leads to the root
file. -/
structure TreeShaped (j : Job) : Prop where
  named : j.RootNameable
  root : j.documentOf j.root ≠ none
  targets : ∀ f, ReflTransGen j.Includes j.root f → ∀ d ∈ j.directivesOf f,
    j.workspace.Nameable d ∧ j.documentOf (j.workspace.target f d) ≠ none
  once : ∀ f, ReflTransGen j.Includes j.root f →
    ((j.directivesOf f).map (j.workspace.target f)).Nodup
  parent : ∀ f f' g, ReflTransGen j.Includes j.root f → ReflTransGen j.Includes j.root f' →
    j.Includes f g → j.Includes f' g → f = f'
  top : ∀ f, ReflTransGen j.Includes j.root f → ¬ j.Includes f j.root
  limit : ∀ depth f, j.Nested depth f → depth ≤ j.resolver.levels

theorem exists_nested (h : ReflTransGen j.Includes j.root f) : ∃ depth, j.Nested depth f := by
  induction h with
  | refl => exact ⟨0, .root⟩
  | tail _ edge ih =>
    obtain ⟨depth, above⟩ := ih
    exact ⟨depth + 1, .step above edge⟩

/-- A call is nested as deep as levels are used up. -/
theorem nested_of_calls (h : j.Calls levels place d s) :
    ∃ depth, depth + levels = j.resolver.levels ∧ j.Nested depth place.file := by
  induction h with
  | root => exact ⟨0, Nat.zero_add _, .root⟩
  | deeper call _ _ ih =>
    obtain ⟨depth, hdepth, above⟩ := ih
    have hnested := above.step ⟨_, (under_of_calls call).2, rfl⟩
    rw [Place.file_enter]
    exact ⟨depth + 1, by omega, hnested⟩

namespace TreeShaped

/-- No file of a tree is below itself. A file is included by one file only, so that a cycle would go
through all files above, up to the root file. -/
theorem not_cyclic (h : j.TreeShaped) (hf : ReflTransGen j.Includes j.root f) :
    ¬ TransGen j.Includes f f := by
  induction hf with
  | refl =>
    intro hcycle
    -- the cycle would end in a directive that leads to the root file
    obtain ⟨g, hg, hlast⟩ := TransGen.tail'_iff.1 hcycle
    exact h.top g hg hlast
  | tail hg edge ih =>
    intro hcycle
    obtain ⟨g', hg', hlast⟩ := TransGen.tail'_iff.1 hcycle
    -- the last file of the cycle is the one file that includes it, so the cycle moves up by one
    have hsame := h.parent _ _ _ ((hg.tail edge).trans hg') hg hlast edge
    rw [hsame] at hg'
    exact ih (.head' edge hg')

/-- Nothing is below two files that the same file includes. -/
theorem apart (h : j.TreeShaped) (hf : ReflTransGen j.Includes j.root f) {g g' x : Path}
    (hg : j.Includes f g) (hg' : j.Includes f g') (hne : g ≠ g')
    (hx : ReflTransGen j.Includes g x) : ¬ ReflTransGen j.Includes g' x := by
  induction hx with
  | refl =>
    intro hback
    rcases hback.cases_tail with heq | ⟨y, hy, hlast⟩
    · exact hne heq
    · obtain rfl := h.parent _ _ _ ((hf.tail hg').trans hy) hf hlast hg
      exact h.not_cyclic hf (.head' hg' hy)
  | tail hy hlast ih =>
    intro hback
    have hreach := (hf.tail hg).trans hy
    rcases hback.cases_tail with rfl | ⟨z, hz, hlast'⟩
    · obtain rfl := h.parent _ _ _ hreach hf hlast hg'
      exact h.not_cyclic hf (.head' hg hy)
    · obtain rfl := h.parent _ _ _ ((hf.tail hg').trans hz) hreach hlast' hlast
      exact ih hz

theorem looksUp (h : j.TreeShaped) : j.LooksUp := by
  refine ⟨h.named, fun f hf d hd => ⟨(h.targets f hf d hd).1, fun hfind => ?_⟩⟩
  refine (h.targets f hf d hd).2 (documentOf_of_not_isFile ?_ ?_)
  · exact fun heq => h.top f hf ⟨d, hd, heq⟩
  · rintro ⟨bytes, hfile⟩
    cases hfind.symm.trans hfile

/-- Below a file, no more levels count than the limit leaves. -/
theorem gather_succ {α : Type} {combine : Path → (Inclusion → α) → α} {nothing : α}
    (h : j.TreeShaped)
    (hcombine : ∀ f c c', (∀ d ∈ j.directivesOf f, c d = c' d) → combine f c = combine f c')
    (hnested : j.Nested depth f) (hbound : j.resolver.levels < depth + bound) :
    j.gather combine nothing (bound + 1) f = j.gather combine nothing bound f := by
  induction bound generalizing depth f with
  | zero =>
    -- with no level left to count, the file would be nested deeper than the limit
    have hdepth := h.limit depth f hnested
    omega
  | succ bound ih =>
    refine hcombine f _ _ fun d hd => ?_
    exact ih (hnested.step ⟨d, hd, rfl⟩) (by omega)

/-- Contents are put together from contents, with nothing left out. -/
theorem inlined_eq (h : j.TreeShaped) (hbound : j.resolver.levels < bound)
    (hf : ReflTransGen j.Includes j.root f) :
    j.inlined bound f =
      Item.inlineBody (fun d => j.inlined bound (j.workspace.target f d)) (j.bodyOf f) := by
  obtain ⟨depth, hnested⟩ := exists_nested hf
  exact (h.gather_succ (fun f c c' => inlineBody_congr) hnested (by omega)).symm

theorem visits_eq (h : j.TreeShaped) (hbound : j.resolver.levels < bound)
    (hf : ReflTransGen j.Includes j.root f) :
    j.visits bound f =
      f :: (j.directivesOf f).flatMap fun d => j.visits bound (j.workspace.target f d) := by
  obtain ⟨depth, hnested⟩ := exists_nested hf
  refine (h.gather_succ (fun f c c' hc => ?_) hnested (by omega)).symm
  rw [List.flatMap_def, List.flatMap_def, List.map_congr_left hc]

/-- All files below a file are visited. -/
theorem mem_visits (h : j.TreeShaped) (hbound : j.resolver.levels < bound)
    (hf : ReflTransGen j.Includes j.root f) (hg : ReflTransGen j.Includes f g) :
    g ∈ j.visits bound f := by
  induction hg using ReflTransGen.head_induction_on with
  | refl =>
    rw [h.visits_eq hbound hf]
    exact List.mem_cons_self
  | head edge _ ih =>
    obtain ⟨d, hd, rfl⟩ := edge
    rw [h.visits_eq hbound hf]
    exact List.mem_cons_of_mem _ (List.mem_flatMap.2 ⟨d, hd, ih (hf.tail ⟨d, hd, rfl⟩)⟩)

end TreeShaped

/-- It is enough to look at a list of files that holds the root file and all targets, with a depth
for each of them. -/
theorem treeShaped_of_list (fs : List Path) (depthOf : Path → Nat) (hnamed : j.RootNameable)
    (hroot : j.root ∈ fs ∧ depthOf j.root = 0)
    (hfiles : ∀ f ∈ fs, (j.documentOf f).isSome ∧ depthOf f ≤ j.resolver.levels ∧
      ((j.directivesOf f).map (j.workspace.target f)).Nodup)
    (htargets : ∀ f ∈ fs, ∀ d ∈ j.directivesOf f, j.workspace.Nameable d ∧
      j.workspace.target f d ∈ fs ∧ depthOf (j.workspace.target f d) = depthOf f + 1)
    (hparent : ∀ f ∈ fs, ∀ f' ∈ fs, ∀ d ∈ j.directivesOf f, ∀ d' ∈ j.directivesOf f',
      j.workspace.target f d = j.workspace.target f' d' → f = f') : j.TreeShaped := by
  -- the depths that are given are the depths at which files are nested
  have hnested : ∀ depth f, j.Nested depth f → f ∈ fs ∧ depthOf f = depth := by
    intro depth f hnested
    induction hnested with
    | root => exact hroot
    | step _ edge ih =>
      obtain ⟨d, hd, rfl⟩ := edge
      obtain ⟨-, hmem, hdepth⟩ := htargets _ ih.1 d hd
      exact ⟨hmem, by rw [hdepth, ih.2]⟩
  have hmem : ∀ f, ReflTransGen j.Includes j.root f → f ∈ fs := by
    intro f hf
    obtain ⟨depth, hdepth⟩ := exists_nested hf
    exact (hnested depth f hdepth).1
  have hdocument : ∀ f ∈ fs, j.documentOf f ≠ none := fun f hf =>
    Option.isSome_iff_ne_none.1 (hfiles f hf).1
  refine ⟨hnamed, hdocument _ hroot.1, fun f hf d hd => ?_, fun f hf => ?_, ?_, ?_, ?_⟩
  · obtain ⟨hname, htarget, -⟩ := htargets f (hmem f hf) d hd
    exact ⟨hname, hdocument _ htarget⟩
  · exact (hfiles f (hmem f hf)).2.2
  · rintro f f' g hf hf' ⟨d, hd, rfl⟩ ⟨d', hd', heq⟩
    exact hparent f (hmem f hf) f' (hmem f' hf') d hd d' hd' heq.symm
  · rintro f hf ⟨d, hd, heq⟩
    have hdepth := (htargets f (hmem f hf) d hd).2.2
    rw [heq, hroot.2] at hdepth
    omega
  · intro depth f hdepth
    obtain ⟨hf, rfl⟩ := hnested depth f hdepth
    exact (hfiles f hf).2.1

/-! ## Resolutions of trees -/

/-- Nothing at a file or below it is loaded yet. -/
def Fresh (j : Job) (s : Progress) (f : Path) : Prop :=
  ∀ g, ReflTransGen j.Includes f g → g ∉ s.files

/-- A file is put in place as inlining does it: the items are its content, its files are loaded in
order, and only paths are reported. -/
structure Grafts (j : Job) (bound : Nat) (f : Path) (s : Progress) (items : List Item)
    (s' : Progress) : Prop where
  items : items = j.inlined bound f
  adds : ∃ es, s.Adds (j.visits bound f) es s' ∧ ∀ e ∈ es, e.kind = .suspiciousPath

/-- When a file is loaded, the files that it includes are still fresh. -/
theorem Fresh.enter {es : List Diagnostic} (hfresh : j.Fresh s f) (h : j.TreeShaped)
    (hf : ReflTransGen j.Includes j.root f) (hadds : s.Adds [f] es s₁) (hg : j.Includes f g) :
    j.Fresh s₁ g := by
  intro x hx hmem
  rcases hadds.mem_files.1 hmem with hmem | hmem
  · exact hfresh x (.head hg hx) hmem
  · rw [List.mem_singleton.1 hmem] at hx
    exact h.not_cyclic hf (.head' hg hx)

/-- The run: files that are apart are put in place one after the other. -/
theorem grafts_of_runs {ds : List Inclusion}
    (hruns : Runs (fun d s items s' => j.Fresh s (j.workspace.target f d) →
      j.Grafts bound (j.workspace.target f d) s items s') ds s cs s')
    (hapart : ds.Pairwise fun d d' => ∀ g, ReflTransGen j.Includes (j.workspace.target f d) g →
      ¬ ReflTransGen j.Includes (j.workspace.target f d') g)
    (hfresh : ∀ d ∈ ds, j.Fresh s (j.workspace.target f d)) :
    cs = ds.map (fun d => j.inlined bound (j.workspace.target f d)) ∧
      ∃ es, s.Adds (ds.flatMap fun d => j.visits bound (j.workspace.target f d)) es s' ∧
        ∀ e ∈ es, e.kind = .suspiciousPath := by
  induction hruns with
  | nil s => exact ⟨rfl, [], .refl s, fun e he => absurd he List.not_mem_nil⟩
  | cons first _ ih =>
    obtain ⟨hfirst, hothers⟩ := List.pairwise_cons.1 hapart
    obtain ⟨rfl, es, hadds, hes⟩ := first (hfresh _ List.mem_cons_self)
    -- the files loaded so far are below the first file, and so apart from those to come
    obtain ⟨rfl, es', hadds', hes'⟩ := ih hothers fun d' hd' g hg hmem => by
      rcases hadds.mem_files.1 hmem with hmem | hmem
      · exact hfresh d' (List.mem_cons_of_mem _ hd') g hg hmem
      · exact hfirst d' hd' g (reaches_of_mem_visits hmem) hg
    refine ⟨rfl, es ++ es', hadds.trans hadds', fun e he => ?_⟩
    exact (List.mem_append.1 he).elim (hes e) (hes' e)

/-- A file is put in place when the files that its directives lead to are. -/
theorem grafts_of_document {es : List Diagnostic} (h : j.TreeShaped)
    (hbound : j.resolver.levels < bound) (hf : ReflTransGen j.Includes j.root f)
    (hdocument : j.documentOf f = some document) (hfresh : j.Fresh s f)
    (hadds : s.Adds [f] es s₁) (hes : ∀ e ∈ es, e.kind = .suspiciousPath)
    (hruns : Runs (fun d s items s' => j.Fresh s (j.workspace.target f d) →
      j.Grafts bound (j.workspace.target f d) s items s') document.directives s₁ cs s') :
    j.Grafts bound f s (Item.fillBody document.body cs) s' := by
  have hdirectives := directivesOf_of_some hdocument
  -- two directives lead to two files, and nothing is below both
  have hapart : document.directives.Pairwise fun d d' =>
      ∀ g, ReflTransGen j.Includes (j.workspace.target f d) g →
        ¬ ReflTransGen j.Includes (j.workspace.target f d') g := by
    rw [← hdirectives]
    refine (List.pairwise_map.1 (h.once f hf)).imp_of_mem fun hd hd' hne g => ?_
    exact h.apart hf ⟨_, hd, rfl⟩ ⟨_, hd', rfl⟩ hne
  obtain ⟨rfl, es', hadds', hes'⟩ := grafts_of_runs hruns hapart fun d hd =>
    hfresh.enter h hf hadds ⟨d, hdirectives ▸ hd, rfl⟩
  refine ⟨?_, es ++ es', ?_, fun e he => (List.mem_append.1 he).elim (hes e) (hes' e)⟩
  · rw [h.inlined_eq hbound hf, bodyOf_of_some hdocument]
    exact Item.fillBody_map _ document.body
  · rw [h.visits_eq hbound hf, hdirectives]
    exact hadds.trans hadds'

/-- **The step: a call puts the file that it leads to in place**, if nothing of it is loaded yet. -/
theorem grafts_of_calls (h : j.TreeShaped) (hbound : j.resolver.levels < bound)
    (hcall : j.Calls levels place d s) (hfresh : j.Fresh s (j.workspace.target place.file d))
    (hexpands : j.workspace.Expands levels place d s items s') :
    j.Grafts bound (j.workspace.target place.file d) s items s' := by
  induction levels generalizing place d s items s' with
  | zero =>
    obtain ⟨depth, hdepth, hnested⟩ := nested_of_calls hcall
    -- the file would be one level below the limit
    have hlimit := h.limit _ _ (hnested.step ⟨d, (under_of_calls hcall).2, rfl⟩)
    omega
  | succ levels ih =>
    obtain ⟨hunder, hd⟩ := under_of_calls hcall
    have hdocument := (h.targets _ hunder.reaches d hd).2
    cases Workspace.outcome_of_expands hexpands with
    | circular onChain => exact absurd (hunder.loaded _ onChain) (hfresh _ .refl)
    | skipped _ known => exact absurd known (hfresh _ .refl)
    | missing _ unknown noFile =>
      have hnone := documentOf_of_not_isFile (hunder.ne_root unknown)
        fun ⟨bytes, hfile⟩ => noFile bytes hfile
      exact absurd hnone hdocument
    | refused _ unknown isFile read =>
      have hnone := documentOf_of_reading_eq_error (hunder.ne_root unknown) isFile read
      exact absurd hnone hdocument
    | loaded offChain unknown isFile read =>
      have hsome := documentOf_of_reading_eq_ok (hunder.ne_root unknown) isFile read
      obtain ⟨s₁, henters⟩ := Workspace.exists_enters (Workspace.nameable_of_expands hexpands)
        offChain unknown isFile read
      obtain ⟨cs, hruns, hfilled⟩ := henters.expands_iff.1 hexpands
      rw [← hfilled]
      refine grafts_of_document h hbound (hunder.reaches.tail ⟨d, hd, rfl⟩) hsome hfresh
        henters.adds (fun e => Workspace.kind_of_mem_suspicions) (hruns.imp_of_turn ?_)
      intro d' s₂ items' s₃ hturn hexpands'
      have hgrafts := fun hfresh => ih (.deeper hcall henters hturn) hfresh hexpands'
      rwa [Place.file_enter] at hgrafts

/-- The root file is put in place. -/
theorem exists_yields_grafts (h : j.TreeShaped) :
    ∃ res, j.Yields res ∧ ∀ bound, j.resolver.levels < bound → ∃ s,
      s.files = res.files ∧ s.diagnostics = res.diagnostics ∧
        j.Grafts bound j.root {} res.document.body s := by
  obtain ⟨res, hyields⟩ := exists_yields h.looksUp
  refine ⟨res, hyields, fun bound hbound => ?_⟩
  obtain ⟨document, hdocument⟩ := Option.ne_none_iff_exists'.1 h.root
  obtain ⟨text, hsource, hparsed⟩ := exists_source_of_documentOf_root hdocument
  obtain ⟨s, hopened⟩ := exists_opening hparsed
  obtain ⟨cs, s', hruns, rfl⟩ := (yields_iff_of_opening h.named hsource hopened).1 hyields
  have hfresh : j.Fresh {} j.root := fun g _ => List.not_mem_nil
  refine ⟨s', rfl, rfl, grafts_of_document h hbound .refl hdocument hfresh
    (of_opening_eq_some hopened).2 (fun e he => absurd he List.not_mem_nil)
    (hruns.imp_of_turn ?_)⟩
  intro d s₁ items s₂ hturn hexpands
  have hcall := Calls.root h.named hsource hopened hturn
  have hgrafts := fun hfresh => grafts_of_calls h hbound hcall hfresh hexpands
  rwa [file_start] at hgrafts

/-- **A resolution of a tree is plain inlining.** It comes to a result. For every bound above the
limit, the content of a file is its items with the contents of other files in the place of the
directives, all the way down, and the result has the content of the root file. Its files are those
that can be reached, each of them once and in the order in which the directives are met. Nothing is
reported but suspicious paths. -/
theorem resolves_tree_by_inlining (j : Job) (h : j.TreeShaped) :
    ∃ res, j.Yields res ∧
      (∀ bound, j.resolver.levels < bound →
        (∀ f, ReflTransGen j.Includes j.root f →
          j.inlined bound f =
            Item.inlineBody (fun d => j.inlined bound (j.workspace.target f d)) (j.bodyOf f) ∧
          j.visits bound f =
            f :: (j.directivesOf f).flatMap fun d => j.visits bound (j.workspace.target f d)) ∧
        res.document.body = j.inlined bound j.root ∧ res.files = j.visits bound j.root) ∧
      res.files.Nodup ∧ (∀ f, f ∈ res.files ↔ ReflTransGen j.Includes j.root f) ∧
      ∀ e ∈ res.diagnostics, e.kind = .suspiciousPath := by
  obtain ⟨res, hyields, hgrafts⟩ := exists_yields_grafts h
  have hresult : ∀ bound, j.resolver.levels < bound →
      res.document.body = j.inlined bound j.root ∧ res.files = j.visits bound j.root ∧
        ∀ e ∈ res.diagnostics, e.kind = .suspiciousPath := by
    intro bound hbound
    obtain ⟨s, hfiles, hdiagnostics, hitems, es, hadds, hes⟩ := hgrafts bound hbound
    refine ⟨hitems, hfiles ▸ hadds.files, fun e he => hes e ?_⟩
    rw [← hdiagnostics] at he
    exact (hadds.mem_diagnostics.1 he).resolve_left List.not_mem_nil
  have hsome := hresult (j.resolver.levels + 1) (Nat.lt_succ_self _)
  refine ⟨res, hyields, fun bound hbound => ⟨fun f hf => ?_, ?_⟩, ?_, fun f => ?_, hsome.2.2⟩
  · exact ⟨h.inlined_eq hbound hf, h.visits_eq hbound hf⟩
  · exact ⟨(hresult bound hbound).1, (hresult bound hbound).2.1⟩
  · exact nodup_of_ending (ending_of_yields hyields)
  · rw [hsome.2.1]
    exact ⟨reaches_of_mem_visits, h.mem_visits (Nat.lt_succ_self _) .refl⟩

/-- An arcade whose files form a tree. The stock is included in a system and holds a system that
includes the depot, so that what does not fit comes to stand before two systems. -/
def arcade : Job where
  resolver := {}
  tree := sampleTree ["main", "orders", "people", "stock", "depot"]
  parse source path :=
    match source with
    | "main" => .ok { body := [.system ⟨none, "Arcade", []⟩
        [sampleDirective "stock",
          .component ⟨none, "Desk", none, [], []⟩ [sampleDirective "people"]],
        sampleDirective "/w/orders"] }
    | "orders" => .ok { body := [.component ⟨none, "Orders", none, [], []⟩ []] }
    | "people" => .ok { body := [.construct (.secret ⟨none, "badge", []⟩)] }
    | "stock" => .ok { body := [.component ⟨none, "Stock", none, [], []⟩ [],
        .system ⟨none, "Store", []⟩ [sampleDirective "depot"]] }
    | "depot" => .ok { body := [.construct (.secret ⟨none, "key", []⟩),
        .component ⟨none, "Depot", none, [], []⟩ []] }
    | _ => .error (.refused ⟨path, "Expecting value", some (1, 1)⟩)
  origin := .file "main.mfd"

theorem treeShaped_arcade : arcade.TreeShaped := by
  refine treeShaped_of_list
    [.mk ["w", "main.mfd"], .mk ["w", "stock.mfd"], .mk ["w", "depot.mfd"], .mk ["w", "people.mfd"],
      .mk ["w", "orders.mfd"]]
    (fun f => if f.name = "main.mfd" then 0 else if f.name = "depot.mfd" then 2 else 1)
    ?_ ?_ ?_ ?_ ?_
  · decide +kernel
  · decide +kernel
  · decide +kernel
  · decide +kernel
  · decide +kernel

/-- The items of the files of the arcade. -/
theorem bodyOf_arcade :
    arcade.bodyOf arcade.root =
      [ .system ⟨none, "Arcade", []⟩
          [ sampleDirective "stock",
            .component ⟨none, "Desk", none, [], []⟩ [sampleDirective "people"] ],
        sampleDirective "/w/orders" ] ∧
    arcade.bodyOf (.mk ["w", "orders.mfd"]) = [.component ⟨none, "Orders", none, [], []⟩ []] ∧
    arcade.bodyOf (.mk ["w", "people.mfd"]) = [.construct (.secret ⟨none, "badge", []⟩)] ∧
    arcade.bodyOf (.mk ["w", "stock.mfd"]) =
      [ .component ⟨none, "Stock", none, [], []⟩ [],
        .system ⟨none, "Store", []⟩ [sampleDirective "depot"] ] ∧
    arcade.bodyOf (.mk ["w", "depot.mfd"]) =
      [ .construct (.secret ⟨none, "key", []⟩), .component ⟨none, "Depot", none, [], []⟩ [] ] := by
  have hbody (text : String) {f : Path}
      (hread : (if f = arcade.root then arcade.source? else (arcade.tree.readText f).toOption) =
        some text) :
      arcade.bodyOf f = (arcade.parse text f.text).toOption.elim [] Document.body := by
    rw [bodyOf, documentOf, hread]
    rfl
  refine ⟨hbody "main" ?_, hbody "orders" ?_, hbody "people" ?_, hbody "stock" ?_,
    hbody "depot" ?_⟩
  all_goals decide +kernel

/-- Contents are put together from the leaves of the tree upwards. The key of the depot comes to
stand before the store, and the store, which then holds the depot only, before the arcade. -/
theorem inlined_arcade : arcade.inlined 21 arcade.root =
    [ .construct (.secret ⟨none, "key", []⟩),
      .system ⟨none, "Store", []⟩ [.component ⟨none, "Depot", none, [], []⟩ []],
      .system ⟨none, "Arcade", []⟩
        [ .component ⟨none, "Stock", none, [], []⟩ [],
          .component ⟨none, "Desk", none, [], []⟩ [.construct (.secret ⟨none, "badge", []⟩)] ],
      .component ⟨none, "Orders", none, [], []⟩ [] ] := by
  have htargets :
      arcade.workspace.target arcade.root ⟨none, "stock"⟩ = .mk ["w", "stock.mfd"] ∧
      arcade.workspace.target arcade.root ⟨none, "people"⟩ = .mk ["w", "people.mfd"] ∧
      arcade.workspace.target arcade.root ⟨none, "/w/orders"⟩ = .mk ["w", "orders.mfd"] ∧
      arcade.workspace.target (.mk ["w", "stock.mfd"]) ⟨none, "depot"⟩ =
        .mk ["w", "depot.mfd"] := by decide +kernel
  obtain ⟨htoStock, htoPeople, htoOrders, htoDepot⟩ := htargets
  obtain ⟨hmain, horders, hpeople, hstock, hdepot⟩ := bodyOf_arcade
  -- a file without directives is its own content
  have hleaf {f : Path} {bound : Nat} {items : List Item} (hbody : arcade.bodyOf f = items)
      (hnone : ∀ content, Item.inlineBody content items = items) :
      arcade.inlined (bound + 1) f = items := by
    rw [inlined_succ, hbody, hnone]
  have hstore : arcade.inlined 20 (.mk ["w", "stock.mfd"]) =
      [ .component ⟨none, "Stock", none, [], []⟩ [], .construct (.secret ⟨none, "key", []⟩),
        .system ⟨none, "Store", []⟩ [.component ⟨none, "Depot", none, [], []⟩ []] ] := by
    have hdepot : arcade.inlined 19 _ = _ := hleaf hdepot fun _ => rfl
    rw [inlined_succ, hstock]
    simp [Item.inlineBody, Item.inlineSystem, Item.beforeSystem, Item.inlineComponent,
      Item.TakenIn, sampleDirective, htoDepot, hdepot]
  have horders : arcade.inlined 20 _ = _ := hleaf horders fun _ => rfl
  have hpeople : arcade.inlined 20 _ = _ := hleaf hpeople fun _ => rfl
  rw [inlined_succ, hmain]
  simp [Item.inlineBody, Item.inlineSystem, Item.beforeSystem, Item.inlineComponent, Item.TakenIn,
    sampleDirective, htoStock, hstore, htoOrders, horders, htoPeople, hpeople]

/-- In the arcade, the depot is met as a part of the stock, before the people and the orders. -/
theorem arcade_inlined :
    arcade.TreeShaped ∧ ∃ res, arcade.Yields res ∧
      res.document.body = arcade.inlined 21 arcade.root ∧
      res.document.body =
        [ .construct (.secret ⟨none, "key", []⟩),
          .system ⟨none, "Store", []⟩ [.component ⟨none, "Depot", none, [], []⟩ []],
          .system ⟨none, "Arcade", []⟩
            [ .component ⟨none, "Stock", none, [], []⟩ [],
              .component ⟨none, "Desk", none, [], []⟩ [.construct (.secret ⟨none, "badge", []⟩)] ],
          .component ⟨none, "Orders", none, [], []⟩ [] ] ∧
      res.files.map Path.name = ["main.mfd", "stock.mfd", "depot.mfd", "people.mfd", "orders.mfd"] ∧
      ∀ e ∈ res.diagnostics, e.kind = .suspiciousPath := by
  obtain ⟨res, hyields, hinlined, -, -, hkinds⟩ :=
    resolves_tree_by_inlining arcade treeShaped_arcade
  obtain ⟨-, hbody, hfiles⟩ := hinlined 21 (by decide)
  have horder : (arcade.visits 21 arcade.root).map Path.name =
      ["main.mfd", "stock.mfd", "depot.mfd", "people.mfd", "orders.mfd"] := by decide +kernel
  exact ⟨treeShaped_arcade, res, hyields, hbody, hbody.trans inlined_arcade, hfiles ▸ horder,
    hkinds⟩

end Job

end Blueprint
