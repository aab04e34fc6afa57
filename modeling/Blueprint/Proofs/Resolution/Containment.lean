import Blueprint.Proofs.Resolution.Nesting

/-!
# What lies outside of the project

A directive may lead anywhere, for its path may be absolute and may have any number of steps up. A
file outside of the project directory is loaded like any other, but never silently: before anything
else is decided about a directive, its path is looked at, and what is suspicious about it is
reported.

- `Resolve.ReportsOnly`: everything that a step reports has a property, whether the step comes to
  something or not. It holds of steps that are made of steps for which it holds.
- `Workspace.Concerns`: what a directive reports, apart from what the directives further down do.
  `Workspace.concerns_expandDirective` shows it of every directive.
- `Job.nothing_outside_silently`: files outside of the project are reported, and a directive that is
  relative and stays inside is not.
-/

namespace Blueprint

open Resolve

/-! ## Suspicions -/

namespace Workspace

variable {w : Workspace} {levels : Nat} {place : Place} {d : Inclusion} {s s' : Progress}
  {items : List Item} {e : Diagnostic}

/-- Nothing else that a directive reports is a suspicious path. -/
theorem Reports.mem_suspicions (h : w.Reports levels place d e)
    (hkind : e.kind = .suspiciousPath) : e ∈ w.suspicions place d := by
  cases h with
  | suspicious mem => exact mem
  | tooDeep => cases hkind
  | circular => cases hkind
  | missing => cases hkind
  | refused read =>
    rcases (of_reading_eq_error read).2 with h | h
    · cases hkind.symm.trans h
    · cases hkind.symm.trans h

/-- Whatever a directive comes to, its suspicions are reported. -/
theorem suspicions_subset_of_expands (h : w.Expands levels place d s items s') :
    w.suspicions place d ⊆ s'.diagnostics := by
  intro e he
  cases outcome_of_expands h with
  | tooDeep adds => exact adds.mem_diagnostics.2 (Or.inr (List.mem_append_left _ he))
  | circular _ adds => exact adds.mem_diagnostics.2 (Or.inr (List.mem_append_left _ he))
  | skipped _ _ adds => exact adds.mem_diagnostics.2 (Or.inr he)
  | missing _ _ _ _ adds => exact adds.mem_diagnostics.2 (Or.inr (List.mem_append_left _ he))
  | refused _ _ _ _ adds => exact adds.mem_diagnostics.2 (Or.inr (List.mem_append_left _ he))
  | loaded _ _ _ _ adds runs =>
    have hgrows := runs.grows fun _ _ _ _ => grows_of_expands
    exact hgrows.diagnostics.subset (adds.mem_diagnostics.2 (Or.inr he))

end Workspace

/-! ## What steps report -/

namespace Resolve

variable {α β : Type} {P Q : Diagnostic → Prop}

/-- How far a step has come, whether it came to something or not. -/
def after (x : Resolve α) (s : Progress) : Progress :=
  match x s with
  | .ok _ s' => s'
  | .error _ s' => s'

/-- Whatever a step reports has a property. Nothing that was reported before is lost. -/
def ReportsOnly (P : Diagnostic → Prop) (x : Resolve α) : Prop :=
  ∀ s, ∃ new, (x.after s).diagnostics = s.diagnostics ++ new ∧ ∀ e ∈ new, P e

namespace ReportsOnly

theorem mono {x : Resolve α} (h : ReportsOnly P x) (hPQ : ∀ e, P e → Q e) : ReportsOnly Q x := by
  intro s
  obtain ⟨new, heq, hnew⟩ := h s
  exact ⟨new, heq, fun e he => hPQ e (hnew e he)⟩

/-- A step that leaves the diagnostics alone reports nothing. -/
theorem of_silent {x : Resolve α} (h : ∀ s, (x.after s).diagnostics = s.diagnostics) :
    ReportsOnly P x := by
  intro s
  exact ⟨[], by rw [h, List.append_nil], nofun⟩

theorem pure (a : α) : ReportsOnly P (Pure.pure a : Resolve α) := of_silent fun _ => rfl

theorem throw (e : Abort) : ReportsOnly P (MonadExcept.throw e : Resolve α) :=
  of_silent fun _ => rfl

theorem get : ReportsOnly P (MonadState.get : Resolve Progress) := of_silent fun _ => rfl

theorem log (entry : Entry) : ReportsOnly P (Progress.log entry) := of_silent fun _ => rfl

theorem report {e : Diagnostic} (he : P e) : ReportsOnly P (Progress.report e) := by
  intro s
  refine ⟨[e], rfl, ?_⟩
  intro e' he'
  rwa [List.mem_singleton.1 he']

/-- The second of two steps only matters for what the first can come to. -/
theorem bind {x : Resolve α} {f : α → Resolve β} (hx : ReportsOnly P x)
    (hf : ∀ a s s', x s = .ok a s' → ReportsOnly P (f a)) : ReportsOnly P (x >>= f) := by
  intro s
  obtain ⟨new, heq, hnew⟩ := hx s
  cases h : x s with
  -- the second step is never taken, so the first alone accounts for what is reported
  | error e s' =>
    have hbind : (x >>= f) s = .error e s' := by
      show EStateM.bind x f s = _
      unfold EStateM.bind
      rw [h]
    refine ⟨new, ?_, hnew⟩
    simpa only [after, hbind, h] using heq
  | ok a s' =>
    obtain ⟨more, heq', hmore⟩ := hf a s s' h s'
    refine ⟨new ++ more, ?_, ?_⟩
    · simp only [after, h] at heq
      rw [after, bind_of_ok h]
      rw [after] at heq'
      rw [heq', heq, List.append_assoc]
    · intro e he
      rcases List.mem_append.1 he with he | he
      · exact hnew e he
      · exact hmore e he

end ReportsOnly

/-! Items report what their directives report. -/

section

variable {expand : Inclusion → Resolve (List Item)} (h : ∀ d, ReportsOnly P (expand d))

include h

theorem reportsOnly_expandComponent (items : List Item) :
    ReportsOnly P (expandComponent expand items) := by
  induction items with
  | nil => exact .pure []
  | cons i rest ih =>
    cases i with
    | inclusion d => exact (h d).bind fun _ _ _ _ => ih.bind fun _ _ _ _ => .pure _
    | _ => exact ih.bind fun _ _ _ _ => .pure _

theorem reportsOnly_expandSystem (items : List Item) :
    ReportsOnly P (expandSystem expand items) := by
  induction items with
  | nil => exact .pure ([], [])
  | cons i rest ih =>
    cases i with
    | inclusion d => exact (h d).bind fun _ _ _ _ => ih.bind fun _ _ _ _ => .pure _
    | component head body =>
      have hbody := reportsOnly_expandComponent h body
      exact hbody.bind fun _ _ _ _ => ih.bind fun _ _ _ _ => .pure _
    | _ => exact ih.bind fun _ _ _ _ => .pure _

theorem reportsOnly_expandBody (items : List Item) : ReportsOnly P (expandBody expand items) := by
  induction items with
  | nil => exact .pure []
  | cons i rest ih =>
    cases i with
    | inclusion d => exact (h d).bind fun _ _ _ _ => ih.bind fun _ _ _ _ => .pure _
    | system head body =>
      have hbody := reportsOnly_expandSystem h body
      exact hbody.bind fun _ _ _ _ => ih.bind fun _ _ _ _ => .pure _
    | component head body =>
      have hbody := reportsOnly_expandComponent h body
      exact hbody.bind fun _ _ _ _ => ih.bind fun _ _ _ _ => .pure _
    | _ => exact ih.bind fun _ _ _ _ => .pure _

end

end Resolve

/-! ## What a directive reports -/

namespace Workspace

variable {w : Workspace} {place : Place} {d : Inclusion}

/-- What a directive at a place reports: its own suspicions, other problems, and whatever the
directives of the file it leads to report, which has that file in its chain. -/
structure Concerns (w : Workspace) (place : Place) (d : Inclusion) (e : Diagnostic) : Prop where
  chain : place.chain <+: e.chain
  suspicious : e.kind = .suspiciousPath → e ∈ w.suspicions place d ∨
    place.chain ++ [w.target place.file d] <+: e.chain

namespace Concerns

theorem of_mem_suspicions {e : Diagnostic} (h : e ∈ w.suspicions place d) :
    w.Concerns place d e where
  chain := chain_of_mem_suspicions h ▸ List.prefix_rfl
  suspicious _ := Or.inl h

/-- A problem of another kind. -/
theorem of_kind_ne {e : Diagnostic} (hchain : place.chain <+: e.chain)
    (hkind : e.kind ≠ .suspiciousPath) : w.Concerns place d e where
  chain := hchain
  suspicious h := absurd h hkind

/-- What is reported further down. -/
theorem of_enter {d' : Inclusion} {e : Diagnostic}
    (h : w.Concerns (place.enter (w.target place.file d)) d' e) : w.Concerns place d e where
  chain := by
    have hchain := h.chain
    rw [Place.chain_enter] at hchain
    exact (List.prefix_append _ _).trans hchain
  suspicious _ := Or.inr (Place.chain_enter place _ ▸ h.chain)

end Concerns

/-- Looking up a path reports what is suspicious about it, and no more if the path cannot be looked
up. -/
theorem concerns_locate (w : Workspace) (place : Place) (d : Inclusion) :
    ReportsOnly (w.Concerns place d) (w.locate place d) := by
  intro s
  cases hnull : (w.written d).toList.contains (Char.ofNat 0) with
  | false =>
    obtain ⟨s', hlocate, hadds⟩ := locate_of_nameable (w := w) hnull place s
    refine ⟨w.suspicions place d, ?_, fun e he => .of_mem_suspicions he⟩
    rw [after, hlocate]
    exact hadds.diagnostics
  | true =>
    unfold locate
    simp only [hnull, if_true]
    split
    · next habsolute =>
      refine ⟨[_], rfl, fun e he => .of_mem_suspicions (mem_suspicions_iff.2 (Or.inl ?_))⟩
      exact ⟨habsolute, List.mem_singleton.1 he⟩
    · exact ⟨[], (List.append_nil _).symm, nofun⟩

/-- Reading and parsing a file reports no suspicious path. -/
theorem concerns_load (w : Workspace) (place : Place) (d : Inclusion) (found : Found) :
    ReportsOnly (w.Concerns place d) (w.load place d (w.target place.file d) found) := by
  intro s
  cases hread : w.reading place d (w.target place.file d) found with
  | ok document =>
    obtain ⟨s', hload, hadds⟩ := load_of_ok hread s
    refine ⟨[], ?_, nofun⟩
    rw [after, hload]
    exact hadds.diagnostics
  | error e =>
    obtain ⟨s', hload, hadds⟩ := load_of_error hread s
    refine ⟨[e], ?_, ?_⟩
    · rw [after, hload]
      exact hadds.diagnostics
    · intro e' he'
      obtain rfl := List.mem_singleton.1 he'
      have hchain : place.chain <+: e'.chain := by
        rcases chain_of_reading_eq_error hread with h | h
        · exact h ▸ List.prefix_rfl
        · exact h ▸ List.prefix_append _ _
      refine .of_kind_ne hchain ?_
      rcases (of_reading_eq_error hread).2 with h | h
      · rw [h]
        decide
      · rw [h]
        decide

/-- **A directive reports what concerns it**, and so do the directives further down. -/
theorem concerns_expandDirective (w : Workspace) (levels : Nat) (place : Place) (d : Inclusion) :
    ReportsOnly (w.Concerns place d) (w.expandDirective levels place d) := by
  -- on the levels: the hypothesis is about the place one file deeper, hence for any place
  induction levels generalizing place d with
  | zero =>
    refine (concerns_locate w place d).bind fun target s s' hlocate => ?_
    refine (ReportsOnly.report (.of_kind_ne ?_ nofun)).bind fun _ _ _ _ => .pure []
    exact List.prefix_append _ _
  | succ levels ih =>
    refine (concerns_locate w place d).bind fun target s s' hlocate => ?_
    obtain ⟨rfl, -⟩ := locate_of_ok hlocate
    split
    · refine (ReportsOnly.report (.of_kind_ne ?_ nofun)).bind fun _ _ _ _ => .pure []
      exact List.prefix_append _ _
    refine ReportsOnly.get.bind fun now _ _ _ => ?_
    split
    · exact (ReportsOnly.log _).bind fun _ _ _ _ => .pure []
    split
    · exact .throw _
    · next bytes hfind =>
      refine (concerns_load w place d _).bind fun answer _ _ _ => ?_
      cases answer with
      | none => exact .pure []
      | some document =>
        -- what the new document reports has its file in the chain
        refine reportsOnly_expandBody (fun d' => ?_) document.body
        exact (ih (place.enter (w.target place.file d)) d').mono fun e he => he.of_enter
    · refine (ReportsOnly.report (.of_kind_ne ?_ nofun)).bind fun _ _ _ _ => .pure []
      exact List.prefix_rfl

end Workspace

/-! ## Results -/

namespace Job

variable {j : Job} {res : Resolution}

/-- The project directory: the one that is given, or else that of the root file. -/
def projectDirectory (j : Job) : Path := j.resolver.projectRoot.getD j.root.parent

/-- A loaded file outside of the project was reported by the call that loaded it. -/
theorem suspicious_of_outside (hyields : j.Yields res) {f : Path} (hf : f ∈ res.files)
    (hroot : f ≠ j.root) (houtside : ¬ j.projectDirectory.names <+: f.names) :
    ∃ e ∈ res.diagnostics, e.kind = .suspiciousPath ∧ e.file = f.text := by
  obtain ⟨depth, hloaded⟩ := exists_loadedAt hyields hf
  cases hloaded with
  | root => exact absurd rfl hroot
  | @call levels place d s call =>
    obtain ⟨items, s', hexpands, -, hdiagnostics⟩ := expands_of_calls hyields call
    -- lying outside is the second of the two reasons, and this diagnostic names the file
    have hmem : _ ∈ j.workspace.suspicions place d :=
      Workspace.mem_suspicions_iff.2 (Or.inr ⟨houtside, rfl⟩)
    have hreported := hdiagnostics (Workspace.suspicions_subset_of_expands hexpands hmem)
    exact ⟨_, hreported, rfl, rfl⟩

/-- A suspicious path is that of a directive of a loaded file, and there is a reason for it. -/
theorem exists_suspect (hyields : j.Yields res) {e : Diagnostic} (he : e ∈ res.diagnostics)
    (hkind : e.kind = .suspiciousPath) :
    ∃ f ∈ res.files, ∃ d ∈ j.directivesOf f, e.includedFrom = some f ∧
      (isAbsolute d.path = true ∨
        ¬ j.projectDirectory.names <+: (j.workspace.target f d).names) := by
  rcases root_or_reported hyields he with ⟨-, hroot⟩ | ⟨levels, place, d, s, hcall, hreports⟩
  · rcases hroot with h | h
    · cases hkind.symm.trans h
    · cases hkind.symm.trans h
  · obtain ⟨hunder, hd⟩ := under_of_calls hcall
    obtain ⟨items, s', hexpands, hfiles, -⟩ := expands_of_calls hyields hcall
    have hplace : place.file ∈ place.chain := by simp [Place.chain]
    have hgrows := Workspace.grows_of_expands hexpands
    -- the file with the directive is on the chain, and files on the chain are loaded
    have hloaded := hfiles (hgrows.files.subset (hunder.loaded _ hplace))
    have hmem := hreports.mem_suspicions hkind
    rcases Workspace.mem_suspicions_iff.1 hmem with ⟨habsolute, rfl⟩ | ⟨houtside, rfl⟩
    · exact ⟨place.file, hloaded, d, hd, rfl, Or.inl habsolute⟩
    · exact ⟨place.file, hloaded, d, hd, rfl, Or.inr houtside⟩

/-- **Nothing outside of the project is loaded silently.** In every result, the paths of the files
have no detours, every file other than the root file that does not lie name by name under the
project directory is reported as a suspicious path, and every suspicious path is that of a directive
of a loaded file that is absolute or leads out of the project. A directive that is relative and
leads to a file under the project directory never reports a suspicious path, whatever becomes of it:
all those that come up while it is run are about directives of the file it leads to or of files
further down. -/
theorem nothing_outside_silently (j : Job) :
    (∀ res, j.Yields res →
      (∀ f ∈ res.files, ∀ name ∈ f.names, Path.Proper name) ∧
      (∀ f ∈ res.files, f ≠ j.root → ¬ j.projectDirectory.names <+: f.names →
        ∃ e ∈ res.diagnostics, e.kind = .suspiciousPath ∧ e.file = f.text) ∧
      ∀ e ∈ res.diagnostics, e.kind = .suspiciousPath →
        ∃ f ∈ res.files, ∃ d ∈ j.directivesOf f, e.includedFrom = some f ∧
          (isAbsolute d.path = true ∨
            ¬ j.projectDirectory.names <+: (j.workspace.target f d).names)) ∧
    ∀ levels place d s, isAbsolute d.path = false →
      j.projectDirectory.names <+: (j.workspace.target place.file d).names →
      ∃ new, ((j.workspace.expandDirective levels place d).after s).diagnostics =
          s.diagnostics ++ new ∧
        ∀ e ∈ new, e.kind = .suspiciousPath →
          place.chain ++ [j.workspace.target place.file d] <+: e.chain := by
  constructor
  · intro res hyields
    refine ⟨?_, ?_, ?_⟩
    · intro f _ name hname
      exact f.proper name hname
    · intro f hf hroot houtside
      exact suspicious_of_outside hyields hf hroot houtside
    · intro e he hkind
      exact exists_suspect hyields he hkind
  · intro levels place d s hrelative hinside
    obtain ⟨new, hadded, hnew⟩ := Workspace.concerns_expandDirective j.workspace levels place d s
    refine ⟨new, hadded, fun e he hkind => ?_⟩
    rcases (hnew e he).suspicious hkind with hmem | hdeeper
    · -- neither of the two reasons is there
      rcases Workspace.mem_suspicions_iff.1 hmem with ⟨habsolute, -⟩ | ⟨houtside, -⟩
      · rw [hrelative] at habsolute
        cases habsolute
      · exact absurd hinside houtside
    · exact hdeeper

/-- A workshop next to a directory whose name begins with its own. The root file includes a tool by
a path with detours, and the shelf next door, which includes the same tool. -/
def workshop : Job where
  resolver := {}
  tree :=
    [(["app", "main.mfd"], "main"), (["app", "lib", "tools.mfd"], "tools"),
      (["app2", "shelf.mfd"], "shelf")].foldl
      (fun t file => t.addFile ("w" :: file.1) file.2.toUTF8.toList)
      (sampleTree [])
  parse source path :=
    match source with
    | "main" => .ok { body := [sampleDirective "./lib//tools", sampleDirective "../app2/shelf"] }
    | "shelf" => .ok { body := [sampleDirective "../app/lib/../lib/tools"] }
    | "tools" => .ok { body := [.construct (.secret ⟨none, "key", []⟩)] }
    | _ => .error (.refused ⟨path, "Expecting value", some (1, 1)⟩)
  origin := .file "app/main.mfd"

/-- The shelf next door is loaded and reported; what it includes lies in the workshop and is not. -/
theorem workshop_nothing_silent :
    ∃ res, workshop.Yields res ∧
      res.files = [.mk ["w", "app", "main.mfd"], .mk ["w", "app", "lib", "tools.mfd"],
        .mk ["w", "app2", "shelf.mfd"]] ∧
      (∀ f ∈ res.files, ∀ name ∈ f.names, Path.Proper name) ∧
      (∃ e ∈ res.diagnostics, e.kind = .suspiciousPath ∧ e.file = "/w/app2/shelf.mfd") ∧
      ∀ levels s, ∃ new,
        ((workshop.workspace.expandDirective levels ⟨.mk ["w", "app2", "shelf.mfd"], []⟩
          ⟨none, "../app/lib/../lib/tools"⟩).after s).diagnostics = s.diagnostics ++ new ∧
        ∀ e ∈ new, e.kind = .suspiciousPath →
          [.mk ["w", "app2", "shelf.mfd"], .mk ["w", "app", "lib", "tools.mfd"]] <+: e.chain := by
  have hresult : workshop.result?.map Resolution.files =
      some [.mk ["w", "app", "main.mfd"], .mk ["w", "app", "lib", "tools.mfd"],
        .mk ["w", "app2", "shelf.mfd"]] := by decide +kernel
  obtain ⟨res, hres, hfiles⟩ := Option.map_eq_some_iff.1 hresult
  have hyields := yields_iff.2 hres
  obtain ⟨hresults, hquiet⟩ := nothing_outside_silently workshop
  obtain ⟨hproper, hreported, -⟩ := hresults res hyields
  have hshelf := hreported (.mk ["w", "app2", "shelf.mfd"]) (by simp [hfiles]) (by decide +kernel)
    (by decide +kernel)
  refine ⟨res, hyields, hfiles, hproper, hshelf, fun levels s => ?_⟩
  have htarget : workshop.workspace.target (.mk ["w", "app2", "shelf.mfd"])
      ⟨none, "../app/lib/../lib/tools"⟩ = .mk ["w", "app", "lib", "tools.mfd"] := by decide +kernel
  have hinside := hquiet levels ⟨.mk ["w", "app2", "shelf.mfd"], []⟩
    ⟨none, "../app/lib/../lib/tools"⟩ s (by decide +kernel) (by decide +kernel)
  rw [htarget] at hinside
  exact hinside

end Job

end Blueprint
