import Mathlib.Data.List.Nodup
import Blueprint.Proofs.Resolution.Closure
import Blueprint.Proofs.Resolution.Nesting

/-!
# When the depth limit matters

The limit on the nesting of includes is looked at in one place only: a directive with no level left
is reported instead of being run. As long as that does not happen, a higher limit changes nothing.
And it cannot happen when the limit is higher than the number of files, for no file is on a chain
twice. What ends a resolution is that files run out, not that levels do. In the specification the
depth bound is a testable property (§8).

- `Workspace.expandDirective_of_not_enters`: a directive that leads to no new document comes to the
  same with any number of levels.
- `Job.expands_withLimit`: so does one that leads to a document, if no call is cut off.
- `FileTree.regularFiles`: the files of a tree, one path for each.
- `Job.length_chain_le_regularFiles`: a chain is not longer than there are files.
- `Job.limit_matters_when_hit`: a limit that is not hit can be raised, and a limit that is high
  enough is never hit.
-/

namespace Blueprint

open Relation Resolve

/-- Steps that go on in the same way come to the same. -/
theorem Resolve.bind_congr {α β : Type} {x : Resolve α} {f g : α → Resolve β} {s : Progress}
    (h : ∀ a s', x s = .ok a s' → f a s' = g a s') : (x >>= f) s = (x >>= g) s := by
  show EStateM.bind x f s = EStateM.bind x g s
  unfold EStateM.bind
  cases hx : x s with
  | ok a s' => exact h a s' hx
  | error e s' => rfl

/-! ## Limits that are not hit -/

namespace Workspace

variable {w : Workspace} {place : Place} {d : Inclusion} {s s' : Progress} {items : List Item}

/-- A workspace with another limit. -/
def withLimit (w : Workspace) (limit : Int) : Workspace :=
  { w with resolver := { w.resolver with maxDepth := limit } }

theorem target_withLimit (w : Workspace) (limit : Int) :
    (w.withLimit limit).target = w.target := rfl

theorem locate_withLimit (w : Workspace) (limit : Int) :
    (w.withLimit limit).locate = w.locate := rfl

theorem load_withLimit (w : Workspace) (limit : Int) : (w.withLimit limit).load = w.load := rfl

/-- Which documents a directive leads to has nothing to do with the limit. -/
theorem Enters.withLimit {document : Document} (h : w.Enters place d s document s') (limit : Int) :
    (w.withLimit limit).Enters place d s document s' where
  offChain := by rw [target_withLimit]; exact h.offChain
  unknown := by rw [target_withLimit]; exact h.unknown
  isFile := by rw [target_withLimit]; exact h.isFile
  steps := by rw [target_withLimit, locate_withLimit, load_withLimit]; exact h.steps

/-- A directive that leads to no new document comes to the same with any limit, as long as a level
is left. -/
theorem expandDirective_of_not_enters (h : ¬ ∃ document s', w.Enters place d s document s')
    (limit : Int) (levels more : Nat) :
    (w.withLimit limit).expandDirective (more + 1) place d s =
      w.expandDirective (levels + 1) place d s := by
  rw [expandDirective, expandDirective]
  -- both sides take the same steps, and the limit is only handed on to a document further down
  refine bind_congr fun t s₁ hlocate => ?_
  have hlocate' : w.locate place d s = .ok t s₁ := hlocate
  obtain ⟨rfl, hadds⟩ := locate_of_ok hlocate'
  by_cases hchain : w.target place.file d ∈ place.chain
  · rw [if_pos (List.contains_iff_mem.2 hchain), if_pos (List.contains_iff_mem.2 hchain)]
    rfl
  rw [if_neg (mt List.contains_iff_mem.1 hchain), if_neg (mt List.contains_iff_mem.1 hchain)]
  refine bind_congr fun now s₂ hget => ?_
  cases hget
  by_cases hknown : w.target place.file d ∈ s₁.files
  · rw [if_pos (List.contains_iff_mem.2 hknown), if_pos (List.contains_iff_mem.2 hknown)]
  rw [if_neg (mt List.contains_iff_mem.1 hknown), if_neg (mt List.contains_iff_mem.1 hknown)]
  cases hfind : w.tree.find (w.target place.file d) with
  | file bytes =>
    have hfind' : (w.withLimit limit).tree.find (w.target place.file d) = .file bytes := hfind
    simp only [hfind']
    refine bind_congr fun answer s₂ hload => ?_
    cases answer with
    | none => rfl
    | some document =>
      -- then the directive leads to a new document after all
      have hunknown : w.target place.file d ∉ s.files := by simpa [hadds.files] using hknown
      exact absurd ⟨document, s₂, ⟨hchain, hunknown, bytes, hfind⟩, s₁, hlocate',
        hfind ▸ hload⟩ h
  | nameTooLong => simp only [withLimit, hfind]
  | _ =>
    simp only [withLimit, hfind]
    rfl

/-- A directive comes to the same with another limit when the directives further down do. -/
theorem Expands.withLimit {levels more : Nat} {limit : Int}
    (h : w.Expands (levels + 1) place d s items s')
    (hdeeper : ∀ document s₁ d' s₂ items' s₃, w.Enters place d s document s₁ →
      Turn (w.Expands levels (place.enter (w.target place.file d))) document.directives s₁ d' s₂ →
      w.Expands levels (place.enter (w.target place.file d)) d' s₂ items' s₃ →
      (w.withLimit limit).Expands more (place.enter (w.target place.file d)) d' s₂ items' s₃) :
    (w.withLimit limit).Expands (more + 1) place d s items s' := by
  by_cases henters : ∃ document s₁, w.Enters place d s document s₁
  · obtain ⟨document, s₁, henters⟩ := henters
    obtain ⟨cs, hruns, rfl⟩ := henters.expands_iff.1 h
    exact (henters.withLimit limit).expands_iff.2 ⟨cs, hruns.imp_of_turn fun d' s₂ items' s₃ =>
      hdeeper document s₁ d' s₂ items' s₃ henters, rfl⟩
  · exact (expandDirective_of_not_enters henters limit levels more).trans h

end Workspace

namespace Job

variable {j : Job} {levels : Nat} {place : Place} {d : Inclusion} {s s' : Progress}
  {items : List Item} {limit : Int} {res : Resolution}

/-- A resolution with another limit. -/
def withLimit (j : Job) (limit : Int) : Job :=
  { j with resolver := { j.resolver with maxDepth := limit } }

/-- **A call comes to the same with more levels and another limit, if no call is cut off.** -/
theorem expands_withLimit (hfree : ∀ place d s, ¬ j.Calls 0 place d s) (more : Nat)
    (hcall : j.Calls levels place d s) (h : j.workspace.Expands levels place d s items s') :
    (j.workspace.withLimit limit).Expands (levels + more) place d s items s' := by
  induction levels generalizing place d s items s' with
  | zero => exact absurd hcall (hfree place d s)
  | succ levels ih =>
    rw [Nat.succ_add]
    refine h.withLimit ?_
    intro document s₁ d' s₂ items' s₃ henters hturn
    exact ih (.deeper hcall henters hturn)

/-- A call without a level left is reported in the result. -/
theorem not_calls_zero (hyields : j.Yields res)
    (hquiet : ∀ e ∈ res.diagnostics, e.kind ≠ .maxDepthExceeded) (place : Place) (d : Inclusion)
    (s : Progress) : ¬ j.Calls 0 place d s := by
  intro hcall
  obtain ⟨items, s', hexpands, -, hdiagnostics⟩ := expands_of_calls hyields hcall
  cases Workspace.outcome_of_expands hexpands with
  | tooDeep adds =>
    have he := hdiagnostics (adds.mem_diagnostics.2 (Or.inr List.mem_concat_self))
    exact hquiet _ he rfl

/-- The limit does not matter to the text of a root file that cannot be parsed. -/
theorem resolveRoot_withLimit {text : String} {failure : ParseFailure}
    (h : j.parse text j.root.text = .error failure) :
    (j.withLimit limit).resolver.resolveRoot j.tree j.parse j.root text {} =
      j.resolver.resolveRoot j.tree j.parse j.root text {} := by
  refine bind_congr fun _ s₁ _ => bind_congr fun _ s₂ _ => bind_congr fun answer s₃ hparse => ?_
  obtain ⟨s₄, heq, -⟩ := Workspace.parseFile_of_error (w := j.workspace) j.start h s₂
  cases heq.symm.trans hparse
  rfl

/-- The limit does not matter to a resolution whose root file has no document. -/
theorem run_withLimit (h : ∀ text, j.source? = some text →
      ∃ failure, j.parse text j.root.text = .error failure) :
    (j.withLimit limit).run {} = j.run {} := by
  cases horigin : j.origin with
  | file root =>
    have hroot : j.origin.rootText = root := by rw [horigin]; rfl
    have horigin' : (j.withLimit limit).origin = .file root := horigin
    simp only [run, horigin, horigin']
    refine bind_congr fun p s hpath => ?_
    have hpath' : Resolver.rootPath j.tree j.origin.rootText {} = .ok p s := hroot ▸ hpath
    obtain ⟨-, rfl, rfl⟩ := rootPath_eq_ok_iff.1 hpath'
    cases htext : j.tree.readText j.root with
    | error e => simp only [withLimit, htext]
    | ok text =>
      obtain ⟨failure, hfailure⟩ := h text (by simp [source?, horigin, htext, Except.toOption])
      simp only [withLimit, htext]
      exact resolveRoot_withLimit hfailure
  | source text root =>
    have hroot : j.origin.rootText = root := by rw [horigin]; rfl
    have horigin' : (j.withLimit limit).origin = .source text root := horigin
    simp only [run, horigin, horigin']
    refine bind_congr fun p s hpath => ?_
    have hpath' : Resolver.rootPath j.tree j.origin.rootText {} = .ok p s := hroot ▸ hpath
    obtain ⟨-, rfl, rfl⟩ := rootPath_eq_ok_iff.1 hpath'
    obtain ⟨failure, hfailure⟩ := h text (by simp [source?, horigin])
    exact resolveRoot_withLimit hfailure

/-- **A limit that is not hit can be raised.** -/
theorem yields_withLimit (hyields : j.Yields res)
    (hquiet : ∀ e ∈ res.diagnostics, e.kind ≠ .maxDepthExceeded)
    (hle : j.resolver.maxDepth ≤ limit) : (j.withLimit limit).Yields res := by
  by_cases hopens : ∃ text document, j.source? = some text ∧ j.parse text j.root.text = .ok document
  · obtain ⟨text, document, hsource, hparsed⟩ := hopens
    obtain ⟨s, hopened⟩ := exists_opening hparsed
    have hroot := rootNameable_of_yields hyields
    obtain ⟨cs, s', hruns, rfl⟩ := (yields_iff_of_opening hroot hsource hopened).1 hyields
    -- the root file is opened in the same way, and there are more levels to start with
    have hroot' : (j.withLimit limit).RootNameable := hroot
    have hsource' : (j.withLimit limit).source? = some text := hsource
    have hopened' : (j.withLimit limit).opening text {} = .ok (some document) s := hopened
    obtain ⟨more, hmore⟩ : ∃ more, limit.toNat = j.resolver.levels + more :=
      Nat.exists_eq_add_of_le (Int.toNat_le_toNat hle)
    refine (yields_iff_of_opening hroot' hsource' hopened').2 ⟨cs, s', ?_, rfl⟩
    show Runs ((j.workspace.withLimit limit).Expands limit.toNat j.start) _ s cs s'
    rw [hmore]
    refine hruns.imp_of_turn fun d s₁ items s₂ hturn => ?_
    exact expands_withLimit (not_calls_zero hyields hquiet) more (.root hroot hsource hopened hturn)
  · obtain ⟨s, hrun⟩ := hyields
    refine ⟨s, (run_withLimit fun text hsource => ?_).trans hrun⟩
    cases hparsed : j.parse text j.root.text with
    | error failure => exact ⟨failure, rfl⟩
    | ok document => exact absurd ⟨text, document, hsource, hparsed⟩ hopens

end Job

/-! ## As many files as there are -/

/-- Whether what was found is a regular file. -/
def Found.isFile : Found → Bool
  | file _ => true
  | _ => false

theorem Found.isFile_iff {found : Found} : found.isFile = true ↔ ∃ bytes, found = .file bytes := by
  cases found <;> simp [isFile]

namespace FileTree

variable {t : FileTree} {p : Path} {bytes : List UInt8}

/-- What a walk without steps up finds is filed under the names along the way. -/
theorem find?_of_walk {here names : List String} (hdown : ".." ∉ names)
    (h : t.walk here names = .file bytes) : t.files.find? (here ++ names) = some bytes := by
  induction names generalizing here with
  | nil => cases h
  | cons name rest ih =>
    rw [List.mem_cons, not_or] at hdown
    rw [walk.eq_3 _ _ _ _ fun hup => hdown.1 hup.symm] at h
    split at h
    · cases h
    · cases hfile : t.files.find? (here ++ [name]) with
      | some found =>
        simp only [hfile] at h
        split at h
        · next hrest =>
          cases h
          rw [List.isEmpty_iff.1 hrest, hfile]
        · cases h
      | none =>
        simp only [hfile] at h
        split at h
        · have hfound := ih hdown.2 h
          rwa [List.append_assoc, List.singleton_append] at hfound
        · cases h

/-- The regular files of a tree: the paths at which one stands. -/
def regularFiles (t : FileTree) : List Path :=
  (t.files.keys.filterMap Path.ofNames?).filter fun p => (t.find p).isFile

theorem mem_regularFiles_iff : p ∈ t.regularFiles ↔ ∃ bytes, t.find p = .file bytes := by
  rw [regularFiles, List.mem_filter, Found.isFile_iff]
  constructor
  · exact fun h => h.2
  · rintro ⟨bytes, hfind⟩
    refine ⟨?_, bytes, hfind⟩
    have hwalk : t.walk [] p.names = .file bytes := by
      unfold find at hfind
      split at hfind
      · cases hfind
      · exact hfind
    -- the names of a path are proper, so the walk never steps up
    have hdown : ".." ∉ p.names := fun hmem => (p.proper _ hmem).2.2.1 rfl
    have hkey : p.names ∈ t.files.keys := Table.mem_keys_iff.2 ⟨bytes, find?_of_walk hdown hwalk⟩
    exact List.mem_filterMap.2 ⟨p.names, hkey, Path.ofNames?_eq_some_iff.2 rfl⟩

/-- No regular file is listed twice. -/
theorem nodup_regularFiles (t : FileTree) : t.regularFiles.Nodup := by
  have hpaths : (t.files.keys.filterMap Path.ofNames?).Nodup := by
    -- a path is made of one list of names only
    refine List.Nodup.filterMap (fun names names' p hp hp' => ?_) t.files.keys_nodup
    rw [← Path.ofNames?_eq_some_iff.1 hp, ← Path.ofNames?_eq_some_iff.1 hp']
  exact List.Pairwise.filter _ hpaths

end FileTree

namespace Job

variable {j : Job} {levels : Nat} {place : Place} {d : Inclusion} {s : Progress} {res : Resolution}

/-- **A chain has no more files than there are.** The root file may be one more, for its text can be
given without a file. -/
theorem length_chain_le_regularFiles (hcall : j.Calls levels place d s) :
    place.chain.length ≤ j.tree.regularFiles.length + 1 := by
  obtain ⟨hunder, hd⟩ := under_of_calls hcall
  have hsub : place.chain ⊆ j.root :: j.tree.regularFiles := by
    intro f hf
    obtain ⟨-, hdown⟩ := hunder.between f hf
    -- a file on the chain leads on to the next one, and the last one has the directive
    have hnext : ∃ g, j.Includes f g := by
      rcases hdown.cases_head with rfl | ⟨g, hg, -⟩
      · exact ⟨_, d, hd, rfl⟩
      · exact ⟨g, hg⟩
    obtain ⟨g, hg⟩ := hnext
    rcases eq_root_or_isFile_of_includes hg with rfl | hfile
    · exact List.mem_cons_self
    · exact List.mem_cons_of_mem _ (FileTree.mem_regularFiles_iff.2 hfile)
  -- no file is on a chain twice
  exact (traced_of_calls hcall).nodup.length_le_of_subset hsub

/-- A limit above the number of files is not hit. -/
theorem kind_ne_of_regularFiles_lt
    (hlimit : j.tree.regularFiles.length + 1 ≤ j.resolver.maxDepth) (hyields : j.Yields res)
    {e : Diagnostic} (he : e ∈ res.diagnostics) : e.kind ≠ .maxDepthExceeded := by
  intro hkind
  obtain ⟨place, d, s, hcall, -⟩ := exists_calls_zero hyields he hkind
  have hlength := (traced_of_calls hcall).length
  have hfiles := length_chain_le_regularFiles hcall
  have hlevels : j.resolver.levels = j.resolver.maxDepth.toNat := rfl
  omega

/-- **The limit only matters when it is hit.** A resolution that reports no nesting too deep has the
same result with every higher limit. The regular files of a tree are listed once each. A limit above
their number is never hit, however the files include each other. Whatever the limit is, a chain has
at most one file more than there are. And if every path can be looked up, all limits above the
number of files give one and the same result. -/
theorem limit_matters_when_hit (j : Job) :
    (∀ res, j.Yields res → (∀ e ∈ res.diagnostics, e.kind ≠ .maxDepthExceeded) →
      ∀ limit, j.resolver.maxDepth ≤ limit → (j.withLimit limit).Yields res) ∧
    j.tree.regularFiles.Nodup ∧ (∀ f, f ∈ j.tree.regularFiles ↔ j.IsFile f) ∧
    (j.tree.regularFiles.length + 1 ≤ j.resolver.maxDepth → ∀ res, j.Yields res →
      ∀ e ∈ res.diagnostics, e.kind ≠ .maxDepthExceeded) ∧
    (∀ levels place d s, j.Calls levels place d s →
      place.chain.length ≤ j.tree.regularFiles.length + 1) ∧
    (j.LooksUp → ∃ res, ∀ limit : Int, j.tree.regularFiles.length + 1 ≤ limit →
      (j.withLimit limit).Yields res) := by
  refine ⟨fun res hyields hquiet limit => yields_withLimit hyields hquiet,
    j.tree.nodup_regularFiles, fun f => FileTree.mem_regularFiles_iff, ?_, ?_, ?_⟩
  · intro hlimit res hyields e
    exact kind_ne_of_regularFiles_lt hlimit hyields
  · intro levels place d s hcall
    exact length_chain_le_regularFiles hcall
  · intro hlook
    -- take the result that the least of these limits gives
    let least := j.withLimit (j.tree.regularFiles.length + 1)
    have hlook' : least.LooksUp := ⟨hlook.root, hlook.targets⟩
    obtain ⟨res, hyields⟩ := exists_yields hlook'
    have hquiet : ∀ e ∈ res.diagnostics, e.kind ≠ .maxDepthExceeded := fun e =>
      kind_ne_of_regularFiles_lt (j := least) (Int.le_refl _) hyields
    exact ⟨res, fun limit hlimit => yields_withLimit (j := least) hyields hquiet hlimit⟩

/-- The shop has four files and a cycle. A limit of five is not hit, and so is no higher one. -/
theorem shop_limit_not_hit :
    shop.tree.regularFiles.length = 4 ∧ shop.LooksUp ∧
      (∃ res, ∀ limit : Int, 5 ≤ limit → (shop.withLimit limit).Yields res) ∧
      ∃ res, shop.Yields res ∧ (∃ e ∈ res.diagnostics, e.kind = .circularInclude) ∧
        (∀ e ∈ res.diagnostics, e.kind ≠ .maxDepthExceeded) ∧
        ∀ limit, shop.resolver.maxDepth ≤ limit → (shop.withLimit limit).Yields res := by
  have hfour : shop.tree.regularFiles.length = 4 := by decide +kernel
  have hkinds : shop.result?.map (fun res => res.diagnostics.map Diagnostic.kind) =
      some [.fileNotFound, .circularInclude, .parseError] := by decide +kernel
  obtain ⟨res, hres, hkinds⟩ := Option.map_eq_some_iff.1 hkinds
  have hyields := yields_iff.2 hres
  obtain ⟨hraise, -, -, hnever, -, hone⟩ := limit_matters_when_hit shop
  have hquiet := hnever (by rw [hfour]; decide) res hyields
  refine ⟨hfour, looksUp_shop, ?_, res, hyields, ?_, hquiet, hraise res hyields hquiet⟩
  · obtain ⟨res', hres'⟩ := hone looksUp_shop
    exact ⟨res', fun limit hlimit => hres' limit (by rw [hfour]; exact hlimit)⟩
  · rw [← List.mem_map, hkinds]
    decide

end Job

end Blueprint
