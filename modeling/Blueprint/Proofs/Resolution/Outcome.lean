import Blueprint.Proofs.Resolution.Expansion

/-!
# What an include directive can come to

A directive is looked up, and then one of six things happens: it is nested too deeply, it leads back
to a file on the way to it, its file was loaded before, there is no such file, the file cannot be
read or parsed, or the file is loaded and its own directives are run. Whatever holds of a whole
resolution is proved case by case over these six.

- `Progress.Adds`: the files and diagnostics that a step adds.
- `Workspace.suspicions`: what is reported about the path of a directive, whatever comes of it, and
  `Workspace.mem_suspicions_iff`: the reasons for it.
- `Workspace.reading`: what a file that exists comes to, a document or a diagnostic.
- `Workspace.Loads`, `Workspace.Enters`: a directive leads to a new file, and to a new document.
- `Outcome`: the six cases, with what each adds.
- `Workspace.expandDirective_induct`: what every outcome preserves, every directive preserves.
- `Workspace.Stuck`: a call whose path cannot be looked up.
- `Workspace.exists_expands_of_not_stuck`: every other call comes to something, if the directives
  further down can be run.
-/

namespace Blueprint

open Resolve

/-! ## What steps add -/

namespace Progress

/-- A step adds files and diagnostics to those that are there. -/
structure Adds (s : Progress) (files : List Path) (diagnostics : List Diagnostic) (s' : Progress) :
    Prop where
  files : s'.files = s.files ++ files
  diagnostics : s'.diagnostics = s.diagnostics ++ diagnostics

namespace Adds

variable {s s₁ s' : Progress} {fs fs' : List Path} {ds ds' : List Diagnostic}

theorem refl (s : Progress) : s.Adds [] [] s := ⟨by simp, by simp⟩

theorem trans (h : s.Adds fs ds s₁) (h' : s₁.Adds fs' ds' s') : s.Adds (fs ++ fs') (ds ++ ds') s' :=
  ⟨by rw [h'.files, h.files, List.append_assoc],
    by rw [h'.diagnostics, h.diagnostics, List.append_assoc]⟩

theorem mem_files (h : s.Adds fs ds s') {f : Path} : f ∈ s'.files ↔ f ∈ s.files ∨ f ∈ fs := by
  rw [h.files, List.mem_append]

theorem mem_diagnostics (h : s.Adds fs ds s') {e : Diagnostic} :
    e ∈ s'.diagnostics ↔ e ∈ s.diagnostics ∨ e ∈ ds := by
  rw [h.diagnostics, List.mem_append]

end Adds

end Progress

@[simp] theorem Place.file_enter (p : Place) (file : Path) : (p.enter file).file = file := rfl

/-! ## Looking up and reading -/

namespace Workspace

variable {w : Workspace} {place : Place} {d : Inclusion} {s s' : Progress}

/-- Whether the path of a directive can be looked up at all. -/
def Nameable (w : Workspace) (d : Inclusion) : Prop :=
  (w.written d).toList.contains (Char.ofNat 0) = false

/-- What is reported about the path of a directive, whatever comes of it. -/
def suspicions (w : Workspace) (place : Place) (d : Inclusion) : List Diagnostic :=
  (if isAbsolute d.path then
    [diagnostic place (.absolutePath d.path) (tidyPath d.path) place.chain] else []) ++
  if (w.target place.file d).liesIn w.projectDirectory then []
  else [diagnostic place (.outsideProject (w.written d)) (w.target place.file d).text place.chain]

/-- Two things are suspicious about a path: it is absolute, or it leads out of the project. -/
theorem mem_suspicions_iff {e : Diagnostic} :
    e ∈ w.suspicions place d ↔
      isAbsolute d.path = true ∧
          e = diagnostic place (.absolutePath d.path) (tidyPath d.path) place.chain ∨
        ¬ w.projectDirectory.names <+: (w.target place.file d).names ∧
          e = diagnostic place (.outsideProject (w.written d)) (w.target place.file d).text
            place.chain := by
  rw [← Path.liesIn_iff]
  unfold suspicions
  constructor
  · intro h
    rcases List.mem_append.1 h with h | h
    · split at h
      · next habsolute => exact Or.inl ⟨habsolute, List.mem_singleton.1 h⟩
      · exact absurd h List.not_mem_nil
    · split at h
      · exact absurd h List.not_mem_nil
      · next houtside => exact Or.inr ⟨houtside, List.mem_singleton.1 h⟩
  · rintro (⟨habsolute, rfl⟩ | ⟨houtside, rfl⟩)
    · rw [if_pos habsolute]
      exact List.mem_append_left _ (List.mem_singleton_self _)
    · rw [if_neg houtside]
      exact List.mem_append_right _ (List.mem_singleton_self _)

theorem kind_of_mem_suspicions {e : Diagnostic} (h : e ∈ w.suspicions place d) :
    e.kind = .suspiciousPath := by
  obtain ⟨-, rfl⟩ | ⟨-, rfl⟩ := mem_suspicions_iff.1 h
  · rfl
  · rfl

theorem chain_of_mem_suspicions {e : Diagnostic} (h : e ∈ w.suspicions place d) :
    e.chain = place.chain := by
  obtain ⟨-, rfl⟩ | ⟨-, rfl⟩ := mem_suspicions_iff.1 h
  · rfl
  · rfl

theorem locate_of_nameable (h : w.Nameable d) (place : Place) (s : Progress) :
    ∃ s', w.locate place d s = .ok (w.target place.file d) s' ∧
      s.Adds [] (w.suspicions place d) s' := by
  unfold Nameable at h
  -- the two checks are independent, and each reports at most once
  by_cases ha : isAbsolute d.path = true <;>
    by_cases hl : (w.target place.file d).liesIn w.projectDirectory = true
  all_goals
    simp only [locate, suspicions, ha, hl, h, if_true, if_false, Bool.false_eq_true]
    exact ⟨_, rfl, by simp, by simp⟩

theorem nameable_of_locate {t : Path} (h : w.locate place d s = .ok t s') : w.Nameable d := by
  unfold Nameable
  cases hnull : (w.written d).toList.contains (Char.ofNat 0) with
  | false => rfl
  | true =>
    unfold locate at h
    simp only [hnull, if_true] at h
    -- whatever was reported before, the step throws
    split at h <;> cases h

theorem locate_of_ok {t : Path} (h : w.locate place d s = .ok t s') :
    t = w.target place.file d ∧ s.Adds [] (w.suspicions place d) s' := by
  obtain ⟨s₁, heq, hadds⟩ := locate_of_nameable (nameable_of_locate h) place s
  rw [heq] at h
  cases h
  exact ⟨rfl, hadds⟩

/-- The diagnostic of a file that a parser gave no document for. -/
def refusal (place : Place) (failure : ParseFailure) : Diagnostic :=
  let (detail, location) := match failure with
    | .refused e => (e.detail, e.location)
    | .broken reason => (reason, none)
  { problem := .unparsable (ParseError.place place.file.text location) detail
    file := place.file.text
    includedFrom := place.above.head?
    location
    chain := place.chain }

theorem parseFile_of_ok (place : Place) {source : String} {document : Document}
    (h : w.parse source place.file.text = .ok document) (s : Progress) :
    ∃ s', w.parseFile place source s = .ok (some document) s' ∧ s.Adds [] [] s' := by
  simp only [parseFile, h]
  exact ⟨_, rfl, by simp, by simp⟩

theorem parseFile_of_error (place : Place) {source : String} {failure : ParseFailure}
    (h : w.parse source place.file.text = .error failure) (s : Progress) :
    ∃ s', w.parseFile place source s = .ok none s' ∧ s.Adds [] [refusal place failure] s' := by
  simp only [parseFile, h]
  exact ⟨_, rfl, by simp, by rfl⟩

/-- What a file that a directive leads to comes to, given what stands at its path. -/
def reading (w : Workspace) (place : Place) (d : Inclusion) (target : Path) (found : Found) :
    Except Diagnostic Document :=
  match FileTree.textOf found with
  | .error e =>
    .error (diagnostic place (.unreadable (w.written d) (e.message target.text)) target.text
      place.chain)
  | .ok source =>
    match w.parse source target.text with
    | .ok document => .ok document
    | .error failure => .error (refusal (place.enter target) failure)

theorem load_of_ok {target : Path} {found : Found} {document : Document}
    (h : w.reading place d target found = .ok document) (s : Progress) :
    ∃ s', w.load place d target found s = .ok (some document) s' ∧ s.Adds [target] [] s' := by
  unfold reading at h
  cases htext : FileTree.textOf found with
  | error e => simp [htext] at h
  | ok source =>
    simp only [htext] at h
    cases hparse : w.parse source target.text with
    | error failure => simp [hparse] at h
    | ok document' =>
      obtain rfl : document' = document := by simpa [hparse] using h
      -- the file counts as loaded before it is parsed
      obtain ⟨s₂, hfile, hadds⟩ := parseFile_of_ok (place.enter target) hparse
        { s with files := s.files ++ [target] }
      simp only [load, htext]
      exact ⟨_, bind_eq_ok_iff.2 ⟨(), _, rfl, bind_eq_ok_iff.2 ⟨_, s₂, hfile, rfl⟩⟩,
        by simp [hadds.files], by simp [hadds.diagnostics]⟩

theorem load_of_error {target : Path} {found : Found} {e : Diagnostic}
    (h : w.reading place d target found = .error e) (s : Progress) :
    ∃ s', w.load place d target found s = .ok none s' ∧ s.Adds [target] [e] s' := by
  unfold reading at h
  cases htext : FileTree.textOf found with
  | error reason =>
    obtain rfl : _ = e := by simpa [htext] using h
    simp only [load, htext]
    exact ⟨_, rfl, by simp, by simp⟩
  | ok source =>
    simp only [htext] at h
    cases hparse : w.parse source target.text with
    | ok document => simp [hparse] at h
    | error failure =>
      obtain rfl : _ = e := by simpa [hparse] using h
      -- and it stays counted when it cannot be parsed
      obtain ⟨s₂, hfile, hadds⟩ := parseFile_of_error (place.enter target) hparse
        { s with files := s.files ++ [target] }
      simp only [load, htext]
      exact ⟨s₂, bind_eq_ok_iff.2 ⟨(), _, rfl, bind_eq_ok_iff.2 ⟨_, s₂, hfile, rfl⟩⟩,
        by simp [hadds.files], by simp [hadds.diagnostics]⟩

/-- What a file cannot be read or parsed for is reported about that file. -/
theorem of_reading_eq_error {target : Path} {found : Found} {e : Diagnostic}
    (h : w.reading place d target found = .error e) :
    e.file = target.text ∧ (e.kind = .fileNotFound ∨ e.kind = .parseError) := by
  unfold reading at h
  split at h
  · cases h
    exact ⟨rfl, Or.inl rfl⟩
  · split at h
    · cases h
    · cases h
      exact ⟨rfl, Or.inr rfl⟩

/-! ## Directives that lead to a new document -/

/-- A directive loads the file that it leads to: the file exists and is new. -/
structure Loads (w : Workspace) (place : Place) (d : Inclusion) (s : Progress) : Prop where
  offChain : w.target place.file d ∉ place.chain
  unknown : w.target place.file d ∉ s.files
  isFile : ∃ bytes, w.tree.find (w.target place.file d) = .file bytes

/-- A directive loads a file and the file has a document. The directives of that document are run
next, from where loading it leads. -/
structure Enters (w : Workspace) (place : Place) (d : Inclusion) (s : Progress)
    (document : Document) (s' : Progress) : Prop extends Loads w place d s where
  steps : ∃ s₁, w.locate place d s = .ok (w.target place.file d) s₁ ∧
    w.load place d (w.target place.file d) (w.tree.find (w.target place.file d)) s₁ =
      .ok (some document) s'

theorem of_load_eq_some {target : Path} {found : Found}
    (h : w.load place d target found s = .ok (some document) s') :
    w.reading place d target found = .ok document ∧ s.Adds [target] [] s' := by
  cases hread : w.reading place d target found with
  | error e =>
    obtain ⟨s₁, heq, -⟩ := load_of_error hread s
    rw [heq] at h
    cases h
  | ok document' =>
    obtain ⟨s₁, heq, hadds⟩ := load_of_ok hread s
    rw [heq] at h
    cases h
    exact ⟨rfl, hadds⟩

namespace Enters

theorem reading (h : w.Enters place d s document s') :
    w.reading place d (w.target place.file d) (w.tree.find (w.target place.file d)) =
      .ok document := by
  obtain ⟨s₁, -, hload⟩ := h.steps
  exact (of_load_eq_some hload).1

theorem adds (h : w.Enters place d s document s') :
    s.Adds [w.target place.file d] (w.suspicions place d) s' := by
  obtain ⟨s₁, hlocate, hload⟩ := h.steps
  simpa using (locate_of_ok hlocate).2.trans (of_load_eq_some hload).2

end Enters

end Workspace

/-! ## Outcomes -/

open Workspace in
/-- What a directive can come to: the items it stands for, and what it adds. In the last case the
directives of the file it leads to are run one level further down, where `Deeper` holds. -/
inductive Outcome (w : Workspace)
    (Deeper : Nat → Place → Inclusion → Progress → List Item → Progress → Prop) :
    Nat → Place → Inclusion → Progress → List Item → Progress → Prop
  | tooDeep {place : Place} {d : Inclusion} {s s' : Progress}
      (adds : s.Adds [] (w.suspicions place d ++ [diagnostic place (.tooDeep w.resolver.maxDepth)
        (w.target place.file d).text (place.chain ++ [w.target place.file d])]) s') :
      Outcome w Deeper 0 place d s [] s'
  | circular {levels : Nat} {place : Place} {d : Inclusion} {s s' : Progress}
      (onChain : w.target place.file d ∈ place.chain)
      (adds : s.Adds [] (w.suspicions place d ++ [diagnostic place (.circular (w.written d))
        (w.target place.file d).text (place.chain ++ [w.target place.file d])]) s') :
      Outcome w Deeper (levels + 1) place d s [] s'
  | skipped {levels : Nat} {place : Place} {d : Inclusion} {s s' : Progress}
      (offChain : w.target place.file d ∉ place.chain)
      (known : w.target place.file d ∈ s.files)
      (adds : s.Adds [] (w.suspicions place d) s') :
      Outcome w Deeper (levels + 1) place d s [] s'
  | missing {levels : Nat} {place : Place} {d : Inclusion} {s s' : Progress}
      (offChain : w.target place.file d ∉ place.chain)
      (unknown : w.target place.file d ∉ s.files)
      (noFile : ∀ bytes, w.tree.find (w.target place.file d) ≠ .file bytes)
      (lookedUp : w.tree.find (w.target place.file d) ≠ .nameTooLong)
      (adds : s.Adds [] (w.suspicions place d ++ [diagnostic place (.missing (w.written d))
        (w.target place.file d).text place.chain]) s') :
      Outcome w Deeper (levels + 1) place d s [] s'
  | refused {levels : Nat} {place : Place} {d : Inclusion} {s s' : Progress} {bytes : List UInt8}
      {e : Diagnostic}
      (offChain : w.target place.file d ∉ place.chain)
      (unknown : w.target place.file d ∉ s.files)
      (isFile : w.tree.find (w.target place.file d) = .file bytes)
      (read : w.reading place d (w.target place.file d) (.file bytes) = .error e)
      (adds : s.Adds [w.target place.file d] (w.suspicions place d ++ [e]) s') :
      Outcome w Deeper (levels + 1) place d s [] s'
  | loaded {levels : Nat} {place : Place} {d : Inclusion} {s s₁ s' : Progress}
      {bytes : List UInt8} {document : Document} {cs : List (List Item)}
      (offChain : w.target place.file d ∉ place.chain)
      (unknown : w.target place.file d ∉ s.files)
      (isFile : w.tree.find (w.target place.file d) = .file bytes)
      (read : w.reading place d (w.target place.file d) (.file bytes) = .ok document)
      (adds : s.Adds [w.target place.file d] (w.suspicions place d) s₁)
      (runs : Runs (Deeper levels (place.enter (w.target place.file d))) document.directives s₁ cs
        s') :
      Outcome w Deeper (levels + 1) place d s (Item.fillBody document.body cs) s'

namespace Outcome

variable {w : Workspace}
  {Deeper Deeper' : Nat → Place → Inclusion → Progress → List Item → Progress → Prop}

/-- Outcomes only depend on what holds one level further down. -/
theorem imp {levels : Nat} {place : Place} {d : Inclusion} {s s' : Progress} {items : List Item}
    (h : Outcome w Deeper levels place d s items s')
    (himp : ∀ below, levels = below + 1 → ∀ place d s items s',
      Deeper below place d s items s' → Deeper' below place d s items s') :
    Outcome w Deeper' levels place d s items s' := by
  cases h with
  | tooDeep adds => exact .tooDeep adds
  | circular onChain adds => exact .circular onChain adds
  | skipped offChain known adds => exact .skipped offChain known adds
  | missing offChain unknown noFile lookedUp adds =>
    exact .missing offChain unknown noFile lookedUp adds
  | refused offChain unknown isFile read adds => exact .refused offChain unknown isFile read adds
  | loaded offChain unknown isFile read adds runs =>
    exact .loaded offChain unknown isFile read adds (runs.imp fun d _ => himp _ rfl _ d)

end Outcome

namespace Workspace

variable {w : Workspace} {levels : Nat} {place : Place} {d : Inclusion} {s s' : Progress}
  {items : List Item}

/-- The directives that a resolver has run. -/
def Expands (w : Workspace) (levels : Nat) (place : Place) : Inclusion → Progress → List Item →
    Progress → Prop :=
  Answers (w.expandDirective levels place)

theorem outcome_of_expands (h : w.Expands levels place d s items s') :
    Outcome w w.Expands levels place d s items s' := by
  cases levels with
  | zero =>
    obtain ⟨t, s₁, hlocate, h⟩ := bind_eq_ok_iff.1 h
    obtain ⟨rfl, hadds⟩ := locate_of_ok hlocate
    obtain ⟨u, s₂, hreport, h⟩ := bind_eq_ok_iff.1 h
    obtain ⟨rfl, rfl⟩ := pure_eq_ok_iff.1 h
    cases hreport
    -- no levels are left: the target is located, so that its path is looked at, but not sought
    exact .tooDeep (hadds.trans ⟨by simp, rfl⟩)
  | succ levels =>
    obtain ⟨t, s₁, hlocate, h⟩ := bind_eq_ok_iff.1 h
    obtain ⟨rfl, hadds⟩ := locate_of_ok hlocate
    -- from here on the branches stand in the order of the resolver's own tests
    by_cases hchain : w.target place.file d ∈ place.chain
    · rw [if_pos (List.contains_iff_mem.2 hchain)] at h
      obtain ⟨u, s₂, hreport, h⟩ := bind_eq_ok_iff.1 h
      obtain ⟨rfl, rfl⟩ := pure_eq_ok_iff.1 h
      cases hreport
      exact .circular hchain (hadds.trans ⟨by simp, rfl⟩)
    rw [if_neg (mt List.contains_iff_mem.1 hchain)] at h
    obtain ⟨now, s₂, hget, h⟩ := bind_eq_ok_iff.1 h
    cases hget
    -- locating a target may report, but loads nothing
    have hfiles : ∀ {f}, f ∈ s₁.files ↔ f ∈ s.files := by simp [hadds.files]
    by_cases hknown : w.target place.file d ∈ s₁.files
    · rw [if_pos (List.contains_iff_mem.2 hknown)] at h
      obtain ⟨u, s₃, hlog, h⟩ := bind_eq_ok_iff.1 h
      obtain ⟨rfl, rfl⟩ := pure_eq_ok_iff.1 h
      cases hlog
      exact .skipped hchain (hfiles.1 hknown) ⟨hadds.files, hadds.diagnostics⟩
    rw [if_neg (mt List.contains_iff_mem.1 hknown)] at h
    have hunknown := mt hfiles.2 hknown
    cases hfind : w.tree.find (w.target place.file d) with
    -- the step throws, so it has not come to anything
    | nameTooLong =>
      simp only [hfind] at h
      cases h
    | file bytes =>
      simp only [hfind] at h
      obtain ⟨answer, s₃, hload, h⟩ := bind_eq_ok_iff.1 h
      cases hread : w.reading place d (w.target place.file d) (.file bytes) with
      | error e =>
        obtain ⟨s₄, heq, hadds'⟩ := load_of_error hread s₁
        rw [heq] at hload
        cases hload
        obtain ⟨rfl, rfl⟩ := pure_eq_ok_iff.1 h
        exact .refused hchain hunknown hfind hread (hadds.trans hadds')
      | ok document =>
        obtain ⟨s₄, heq, hadds'⟩ := load_of_ok hread s₁
        rw [heq] at hload
        cases hload
        obtain ⟨cs, hruns, rfl⟩ := expandBody_eq_ok_iff.1 h
        exact .loaded hchain hunknown hfind hread (by simpa using hadds.trans hadds') hruns
    | _ =>
      simp only [hfind] at h
      obtain ⟨u, s₃, hreport, h⟩ := bind_eq_ok_iff.1 h
      obtain ⟨rfl, rfl⟩ := pure_eq_ok_iff.1 h
      cases hreport
      exact .missing hchain hunknown (by simp [hfind]) (by simp [hfind])
        (hadds.trans ⟨by simp, rfl⟩)

/-- **What every outcome preserves, every directive preserves.** The directives further down come
with what is to be shown of them and with the fact that they were run. -/
theorem expandDirective_induct
    {P : Nat → Place → Inclusion → Progress → List Item → Progress → Prop}
    (step : ∀ {levels place d s items s'},
      Outcome w (fun n p d s i s' => w.Expands n p d s i s' ∧ P n p d s i s')
        levels place d s items s' → P levels place d s items s')
    (h : w.Expands levels place d s items s') : P levels place d s items s' := by
  induction levels generalizing place d s items s' with
  | zero => exact step ((outcome_of_expands h).imp nofun)
  | succ levels ih =>
    refine step ((outcome_of_expands h).imp ?_)
    -- the directives further down have one level less, which is what the induction is on
    rintro _ ⟨⟩ place d s items s' hd
    exact ⟨hd, ih hd⟩

/-- A call whose path cannot be looked up: it holds a null character, or the file it leads to is
sought and has a name that is too long. Permissions and links are no part of a tree, so a look-up
that is refused for want of a permission, or because links lead round in a circle, is not among the
ways to be stuck. -/
def Stuck (w : Workspace) (levels : Nat) (place : Place) (d : Inclusion) (s : Progress) : Prop :=
  ¬ w.Nameable d ∨
    0 < levels ∧ w.target place.file d ∉ place.chain ∧ w.target place.file d ∉ s.files ∧
      w.tree.find (w.target place.file d) = .nameTooLong

theorem not_stuck (hname : w.Nameable d)
    (hfind : w.tree.find (w.target place.file d) ≠ .nameTooLong) : ¬ w.Stuck levels place d s := by
  rintro (hstuck | ⟨-, -, -, hstuck⟩)
  · exact hstuck hname
  · exact hfind hstuck

/-- **A call that is not stuck comes to something**, if the directives of the document that it leads
to can be run. -/
theorem exists_expands_of_not_stuck (hfree : ¬ w.Stuck levels place d s)
    (hruns : ∀ below document s₁, levels = below + 1 → w.Enters place d s document s₁ →
      ∃ cs s', Runs (w.Expands below (place.enter (w.target place.file d))) document.directives s₁
        cs s') :
    ∃ items s', w.Expands levels place d s items s' := by
  have hname : w.Nameable d := Classical.not_not.1 fun hname => hfree (Or.inl hname)
  obtain ⟨s₁, hlocate, hadds⟩ := locate_of_nameable hname place s
  cases levels with
  | zero => exact exists_ok_bind hlocate ⟨[], _, rfl⟩
  | succ below =>
    -- the cases are those of `outcome_of_expands`, and only one of them has something left to run
    refine exists_ok_bind hlocate ?_
    by_cases hchain : w.target place.file d ∈ place.chain
    · rw [if_pos (List.contains_iff_mem.2 hchain)]
      exact ⟨[], _, rfl⟩
    rw [if_neg (mt List.contains_iff_mem.1 hchain)]
    refine exists_ok_bind (show (get : Resolve Progress) s₁ = .ok s₁ s₁ from rfl) ?_
    by_cases hknown : w.target place.file d ∈ s₁.files
    · rw [if_pos (List.contains_iff_mem.2 hknown)]
      exact ⟨[], _, rfl⟩
    rw [if_neg (mt List.contains_iff_mem.1 hknown)]
    have hunknown : w.target place.file d ∉ s.files := by simpa [hadds.files] using hknown
    cases hfind : w.tree.find (w.target place.file d) with
    | nameTooLong => exact absurd (Or.inr ⟨Nat.succ_pos _, hchain, hunknown, hfind⟩) hfree
    | file bytes =>
      cases hread : w.reading place d (w.target place.file d) (.file bytes) with
      | error e =>
        obtain ⟨s₂, hload, -⟩ := load_of_error hread s₁
        exact exists_ok_bind hload ⟨[], s₂, rfl⟩
      | ok document =>
        obtain ⟨s₂, hload, -⟩ := load_of_ok hread s₁
        have henters : w.Enters place d s document s₂ :=
          ⟨⟨hchain, hunknown, bytes, hfind⟩, s₁, hlocate, hfind ▸ hload⟩
        obtain ⟨cs, s', hrun⟩ := hruns below document s₂ rfl henters
        exact exists_ok_bind hload ⟨_, s', expandBody_eq_ok_iff.2 ⟨cs, hrun, rfl⟩⟩
    | _ => exact ⟨[], _, rfl⟩

end Workspace

end Blueprint
