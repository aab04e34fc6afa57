import Blueprint.Proofs.Ownership.Entities
import Blueprint.Proofs.Resolution.Closure
import Blueprint.Proofs.Resolution.Recovery

/-!
# Files that are included in components

What a component includes is its own, and so is what the included file includes in turn, however
many files it takes, as long as no other component comes in between. A system on the way makes no
difference, because what has no place in a system comes to stand before it. So the constructs of all
these files stand directly in the component in the end, and the first pass gives them to it.

- `Site`, `Document.sites`: where a directive stands.
- `Site.Receives`, `Item.receives_fillBody`: what becomes of the content of a directive, by its
  site.
- `Job.Reads`, `Job.LoadedThrough`: the directives that led to a file, by their sites.
- `Job.Landed`, `Job.landed_of_reads`: where the items of a file are in the merged document.
- `Job.component_owns_includes`: the constructs of a file that a component includes.
-/

namespace Blueprint

open Resolve

/-! ## Sites -/

/-- Where a directive stands: among the items of a document, of a system, or of a component. -/
inductive Site where
  | document
  | system
  | component (c : Component)

namespace Item

/-- The include directives of a system, each with its site. -/
def sitesInSystem : List Item → List (Inclusion × Site)
  | [] => []
  | .inclusion d :: rest => (d, .system) :: sitesInSystem rest
  | .component head body :: rest =>
    (directivesInComponent body).map (fun d => (d, .component ⟨head, body⟩)) ++ sitesInSystem rest
  | _ :: rest => sitesInSystem rest

/-- The include directives of the items of a document, each with its site. -/
def sitesInBody : List Item → List (Inclusion × Site)
  | [] => []
  | .system _ body :: rest => sitesInSystem body ++ sitesInBody rest
  | .component head body :: rest =>
    (directivesInComponent body).map (fun d => (d, .component ⟨head, body⟩)) ++ sitesInBody rest
  | .inclusion d :: rest => (d, .document) :: sitesInBody rest
  | _ :: rest => sitesInBody rest

theorem map_fst_sitesInSystem (items : List Item) :
    (sitesInSystem items).map Prod.fst = directivesInSystem items := by
  induction items with
  | nil => rfl
  | cons i rest ih =>
    cases i with
    | component head body => simp [sitesInSystem, directivesInSystem, ih, Function.comp_def]
    | inclusion d => exact congrArg (List.cons d) ih
    | _ => exact ih

theorem map_fst_sitesInBody (items : List Item) :
    (sitesInBody items).map Prod.fst = directivesInBody items := by
  induction items with
  | nil => rfl
  | cons i rest ih =>
    cases i with
    | system head body => simp [sitesInBody, directivesInBody, ih, map_fst_sitesInSystem]
    | component head body => simp [sitesInBody, directivesInBody, ih, Function.comp_def]
    | inclusion d => exact congrArg (List.cons d) ih
    | _ => exact ih

theorem length_sitesInSystem (items : List Item) :
    (sitesInSystem items).length = (directivesInSystem items).length := by
  rw [← map_fst_sitesInSystem, List.length_map]

end Item

/-- The include directives of a document, each with its site, in the order in which they are run. -/
def Document.sites (d : Document) : List (Inclusion × Site) := Item.sitesInBody d.body

theorem Document.map_fst_sites (d : Document) : d.sites.map Prod.fst = d.directives :=
  Item.map_fst_sitesInBody d.body

theorem Document.directives_of_sites {document : Document} {before after : List (Inclusion × Site)}
    {d : Inclusion} {site : Site} (h : document.sites = before ++ (d, site) :: after) :
    document.directives = before.map Prod.fst ++ d :: after.map Prod.fst := by
  rw [← map_fst_sites, h, List.map_append, List.map_cons]

/-! ## What becomes of the content of a directive -/

open Item in
/-- What becomes of the items that a directive stands for, by its site. In a component they come to
stand directly in it, and the component is met on the walk. Anywhere else, all of them are met on
the walk, and the constructs among them come to stand at the top. -/
def Site.Receives (items top walk : List Item) : Site → Prop
  | component c => ∃ contents, .component c.head (fillComponent c.body contents) ∈ walk ∧
      items ⊆ fillComponent c.body contents
  | _ => preorderAll items ⊆ walk ∧ ∀ decl, .construct decl ∈ items → .construct decl ∈ top

theorem Site.Receives.mono {items top top' walk walk' : List Item} {site : Site}
    (h : site.Receives items top walk) (htop : top ⊆ top') (hwalk : walk ⊆ walk') :
    site.Receives items top' walk' := by
  cases site with
  | component c =>
    obtain ⟨contents, hmem, hitems⟩ := h
    exact ⟨contents, hwalk hmem, hitems⟩
  | _ => exact ⟨List.Subset.trans h.1 hwalk, fun decl hdecl => htop (h.2 decl hdecl)⟩

/-- Whatever the site, the walk goes on to the items. -/
theorem Site.Receives.met {items top out : List Item} {site : Site}
    (h : site.Receives items top (Item.preorderAll out)) :
    Item.preorderAll items ⊆ Item.preorderAll out := by
  cases site with
  | component c =>
    obtain ⟨contents, hmem, hitems⟩ := h
    exact List.Subset.trans (Item.preorderAll_mono hitems) (Item.preorderAll_body_subset hmem)
  | _ => exact h.1

namespace Item

variable {cs : List (List Item)} {p : Inclusion × Site} {items top walk : List Item}

/-- A component takes in what its directives stand for. -/
theorem subset_fillComponent {body : List Item}
    (hlen : cs.length = (directivesInComponent body).length) (h : items ∈ cs) :
    items ⊆ fillComponent body cs := by
  induction body generalizing cs with
  | nil =>
    rw [List.length_eq_zero_iff.1 hlen] at h
    exact absurd h List.not_mem_nil
  | cons i rest ih =>
    cases i with
    | inclusion d =>
      obtain ⟨c, cs, rfl⟩ := List.exists_cons_of_length_eq_add_one hlen
      rcases List.mem_cons.1 h with rfl | h
      · exact List.subset_append_left _ _
      · exact List.subset_append_of_subset_right _ (ih (Nat.succ.inj hlen) h)
    | _ => exact List.subset_cons_of_subset _ (ih hlen h)

/-- So its directives find their contents in it, provided that it is met on the walk. -/
theorem receives_component {head : ComponentHead} {body : List Item}
    (hlen : cs.length = (directivesInComponent body).length)
    (h : (p, items) ∈ ((directivesInComponent body).map
      fun d => (d, Site.component ⟨head, body⟩)).zip cs)
    (hwalk : .component head (fillComponent body cs) ∈ walk) : p.2.Receives items top walk := by
  obtain ⟨hp, hitems⟩ := List.of_mem_zip h
  obtain ⟨d, -, rfl⟩ := List.mem_map.1 hp
  exact ⟨cs, hwalk, subset_fillComponent hlen hitems⟩

/-- What a directive of a list or of the rest stands for, when the contents are taken in turn. -/
theorem mem_zip_append {α : Type} {xs ys : List α} {x : α}
    (hlen : cs.length = (xs ++ ys).length) (h : (x, items) ∈ (xs ++ ys).zip cs) :
    (cs.take xs.length).length = xs.length ∧ (x, items) ∈ xs.zip (cs.take xs.length) ∨
      (cs.drop xs.length).length = ys.length ∧ (x, items) ∈ ys.zip (cs.drop xs.length) := by
  rw [List.length_append] at hlen
  have htake : (cs.take xs.length).length = xs.length := by
    rw [List.length_take]
    omega
  have hdrop : (cs.drop xs.length).length = ys.length := by
    rw [List.length_drop]
    omega
  rw [← List.take_append_drop xs.length cs, List.zip_append htake.symm, List.mem_append] at h
  exact h.imp (And.intro htake) (And.intro hdrop)

/-- A system keeps what fits, and the rest comes to stand before it. -/
theorem receives_fillSystem {body : List Item} (hlen : cs.length = (sitesInSystem body).length)
    (h : (p, items) ∈ (sitesInSystem body).zip cs) :
    p.2.Receives items (fillSystem body cs).2
      (preorderAll ((fillSystem body cs).2 ++ (fillSystem body cs).1)) := by
  induction body generalizing cs with
  | nil => exact absurd h List.not_mem_nil
  | cons i rest ih =>
    cases i with
    | inclusion d =>
      obtain ⟨c, cs, rfl⟩ := List.exists_cons_of_length_eq_add_one hlen
      rw [fillSystem]
      rcases List.mem_cons.1 h with heq | h
      · cases heq
        refine ⟨preorderAll_mono fun i hi => ?_, fun decl hdecl => ?_⟩
        · -- in the system or before it, and on the walk in either case
          cases hfits : fitsSystem i <;> simp [hi, hfits]
        · -- a system takes in no constructs
          exact List.mem_append_left _ (List.mem_filter.2 ⟨hdecl, rfl⟩)
      · refine (ih (Nat.succ.inj hlen) h).mono (List.subset_append_right _ _) (preorderAll_mono ?_)
        intro i hi
        simp only [List.headD_cons, List.tail_cons, List.mem_append] at hi ⊢
        exact hi.imp Or.inr Or.inr
    | component head body =>
      rw [fillSystem]
      rcases mem_zip_append hlen h with ⟨htake, h⟩ | ⟨hdrop, h⟩
      · rw [List.length_map] at htake h
        refine receives_component htake h (subset_preorderAll ?_)
        exact List.mem_append_right _ List.mem_cons_self
      · rw [List.length_map] at hdrop h
        refine (ih hdrop h).mono (List.Subset.refl _) (preorderAll_mono ?_)
        exact ((List.sublist_cons_self _ _).append_left _).subset
    | _ =>
      refine (ih hlen h).mono (List.Subset.refl _) (preorderAll_mono ?_)
      exact ((List.sublist_cons_self _ _).append_left _).subset

/-- **A document puts the content of each of its directives where the site of the directive says.**
-/
theorem receives_fillBody {body : List Item} (hlen : cs.length = (sitesInBody body).length)
    (h : (p, items) ∈ (sitesInBody body).zip cs) :
    p.2.Receives items (fillBody body cs) (preorderAll (fillBody body cs)) := by
  induction body generalizing cs with
  | nil => exact absurd h List.not_mem_nil
  | cons i rest ih =>
    cases i with
    | inclusion d =>
      obtain ⟨c, cs, rfl⟩ := List.exists_cons_of_length_eq_add_one hlen
      rcases List.mem_cons.1 h with heq | h
      · cases heq
        have hsub : items ⊆ fillBody (.inclusion d :: rest) (items :: cs) :=
          List.subset_append_left _ _
        exact ⟨preorderAll_mono hsub, fun decl hdecl => hsub hdecl⟩
      · have hsub : fillBody rest cs ⊆ fillBody (.inclusion d :: rest) (c :: cs) :=
          List.subset_append_right _ _
        exact (ih (Nat.succ.inj hlen) h).mono hsub (preorderAll_mono hsub)
    | component head body =>
      rw [fillBody]
      rcases mem_zip_append hlen h with ⟨htake, h⟩ | ⟨hdrop, h⟩
      · rw [List.length_map] at htake h
        exact receives_component htake h (subset_preorderAll List.mem_cons_self)
      · rw [List.length_map] at hdrop h
        exact (ih hdrop h).mono (List.subset_cons_self _ _)
          (preorderAll_mono (List.subset_cons_self _ _))
    | system head body =>
      rw [fillBody]
      rcases mem_zip_append hlen h with ⟨htake, h⟩ | ⟨hdrop, h⟩
      · have hsystem := receives_fillSystem htake h
        rw [length_sitesInSystem] at hsystem
        refine hsystem.mono (List.subset_append_left _ _) ?_
        generalize fillSystem body _ = filled
        generalize fillBody rest _ = others
        -- what is kept stands in the system, and the system is met on the walk
        have hmem : Item.system head filled.1 ∈ filled.2 ++ .system head filled.1 :: others :=
          List.mem_append_right _ List.mem_cons_self
        have hkept := preorderAll_body_subset (subset_preorderAll hmem)
        rw [preorderAll_append filled.2 filled.1]
        exact List.append_subset.2 ⟨preorderAll_mono (List.subset_append_left _ _), hkept⟩
      · rw [length_sitesInSystem] at hdrop h
        refine (ih hdrop h).mono ?_ (preorderAll_mono ?_) <;>
          exact List.subset_append_of_subset_right _ (List.subset_cons_self _ _)
    | _ =>
      exact (ih hlen h).mono (List.subset_cons_self _ _)
        (preorderAll_mono (List.subset_cons_self _ _))

/-- The same, for a directive that others stand before and after. -/
theorem receives_fillBody_of_sites {body : List Item} {before after : List (Inclusion × Site)}
    {d : Inclusion} {site : Site} {cs₁ cs₂ : List (List Item)}
    (h : sitesInBody body = before ++ (d, site) :: after) (hbefore : cs₁.length = before.length)
    (hafter : cs₂.length = after.length) :
    site.Receives items (fillBody body (cs₁ ++ items :: cs₂))
      (preorderAll (fillBody body (cs₁ ++ items :: cs₂))) := by
  have hlen : (cs₁ ++ items :: cs₂).length = (sitesInBody body).length := by
    simp [h, hbefore, hafter]
  have hmem : ((d, site), items) ∈ (sitesInBody body).zip (cs₁ ++ items :: cs₂) := by
    rw [h, List.zip_append hbefore.symm]
    exact List.mem_append_right _ List.mem_cons_self
  exact receives_fillBody hlen hmem

/-- The constructs of a document are kept. -/
theorem construct_mem_fillBody {body : List Item} {decl : Construct}
    (h : .construct decl ∈ body) : .construct decl ∈ fillBody body cs := by
  induction body generalizing cs with
  | nil => exact absurd h List.not_mem_nil
  | cons i rest ih =>
    rcases List.mem_cons.1 h with rfl | hrest
    · exact List.mem_cons_self
    · cases i with
      | inclusion d => exact List.mem_append_right _ (ih hrest)
      | system head body => exact List.mem_append_right _ (List.mem_cons_of_mem _ (ih hrest))
      | _ => exact List.mem_cons_of_mem _ (ih hrest)

end Item

/-! ## Chains of directives -/

section

variable {expand : Inclusion → Resolve (List Item)} {ds : List Inclusion} {d : Inclusion}
  {s s₁ s₂ : Progress} {cs cs' : List (List Item)}

/-- Directives come to one thing only. -/
theorem Runs.unique (h : Runs (Answers expand) ds s cs s₁)
    (h' : Runs (Answers expand) ds s cs' s₂) : cs = cs' ∧ s₁ = s₂ := by
  induction h generalizing cs' s₂ with
  | nil s =>
    obtain ⟨rfl, rfl⟩ := Runs.nil_iff.1 h'
    exact ⟨rfl, rfl⟩
  | cons first _ ih =>
    obtain ⟨items, s₃, rest, rfl, first', others'⟩ := Runs.cons_iff.1 h'
    -- both runs start from the same progress, and a step is a function of it
    have hsame := first.symm.trans first'
    cases hsame
    obtain ⟨rfl, rfl⟩ := ih others'
    exact ⟨rfl, rfl⟩

variable {step : Inclusion → Progress → List Item → Progress → Prop}

/-- A directive has its turn when those before it have been run. -/
theorem turn_iff :
    Turn step ds s d s₁ ↔
      ∃ before after cs, ds = before ++ d :: after ∧ Runs step before s cs s₁ := by
  constructor
  · intro h
    induction h with
    | here => exact ⟨[], _, [], rfl, .nil _⟩
    | later first _ ih =>
      obtain ⟨before, after, cs, rfl, hruns⟩ := ih
      exact ⟨_ :: before, after, _ :: cs, rfl, .cons first hruns⟩
  · rintro ⟨before, after, cs, rfl, hruns⟩
    induction hruns with
    | nil s => exact .here
    | cons first _ ih => exact .later first ih

/-- The same for a directive of a document, which then has a site. -/
theorem Document.turn_iff_sites {document : Document} :
    Turn step document.directives s d s₁ ↔ ∃ before site after cs,
      document.sites = before ++ (d, site) :: after ∧
        Runs step (before.map Prod.fst) s cs s₁ := by
  rw [turn_iff]
  constructor
  · rintro ⟨before, after, cs, heq, hruns⟩
    rw [← document.map_fst_sites] at heq
    obtain ⟨before, others, hsites, rfl, hothers⟩ := List.map_eq_append_iff.1 heq
    obtain ⟨⟨d, site⟩, after, rfl, rfl, -⟩ := List.map_eq_cons_iff.1 hothers
    exact ⟨before, site, after, cs, hsites, hruns⟩
  · rintro ⟨before, site, after, cs, hsites, hruns⟩
    exact ⟨_, _, cs, directives_of_sites hsites, hruns⟩

end

namespace Job

variable {j : Job} {sites : List Site} {levels : Nat} {place : Place} {document : Document}
  {d : Inclusion} {s s' : Progress} {res : Resolution} {f : Path}

/-- A document whose directives are run next: the sites of the directives that led to it, the
outermost first, the levels left, the place of its file and the progress so far. -/
inductive Reads (j : Job) : List Site → Nat → Place → Document → Progress → Prop
  | root {text : String} {document : Document} {s : Progress} (named : j.RootNameable)
      (source : j.source? = some text) (opened : j.opening text {} = .ok (some document) s) :
      Reads j [] j.resolver.levels j.start document s
  | next {sites : List Site} {levels : Nat} {place : Place} {document document' : Document}
      {before after : List (Inclusion × Site)} {d : Inclusion} {site : Site}
      {s s₁ s₂ : Progress} {cs : List (List Item)}
      (reads : Reads j sites (levels + 1) place document s)
      (stands : document.sites = before ++ (d, site) :: after)
      (runs : Runs (j.workspace.Expands (levels + 1) place) (before.map Prod.fst) s cs s₁)
      (enters : j.workspace.Enters place d s₁ document' s₂) :
      Reads j (sites ++ [site]) levels (place.enter (j.workspace.target place.file d)) document' s₂

/-- A file is loaded and has a document, and the directives that led to it stand at the given sites,
the outermost first. -/
def LoadedThrough (j : Job) (sites : List Site) (f : Path) (document : Document) : Prop :=
  ∃ levels place s, j.Reads sites levels place document s ∧ place.file = f

/-- The directives of a document that is read are calls. -/
theorem calls_of_reads (h : j.Reads sites levels place document s)
    (hturn : Turn (j.workspace.Expands levels place) document.directives s d s') :
    j.Calls levels place d s' := by
  induction h generalizing d s' with
  | root named source opened => exact .root named source opened hturn
  | next _ stands runs enters ih =>
    have hcall := ih (Document.turn_iff_sites.2 ⟨_, _, _, _, stands, runs⟩)
    exact .deeper hcall enters hturn

/-- And every call is for a directive of a document that is read. -/
theorem exists_reads_of_calls (h : j.Calls levels place d s) :
    ∃ sites document s₀ before site after cs, j.Reads sites levels place document s₀ ∧
      document.sites = before ++ (d, site) :: after ∧
      Runs (j.workspace.Expands levels place) (before.map Prod.fst) s₀ cs s := by
  induction h with
  | root named source opened turn =>
    obtain ⟨before, site, after, cs, hsites, hruns⟩ := Document.turn_iff_sites.1 turn
    exact ⟨_, _, _, before, site, after, cs, .root named source opened, hsites, hruns⟩
  | deeper _ enters turn ih =>
    obtain ⟨sites, _, _, _, _, _, _, hreads, hsites, hruns⟩ := ih
    obtain ⟨before, site, after, cs, hsites', hruns'⟩ := Document.turn_iff_sites.1 turn
    exact ⟨_, _, _, before, site, after, cs, .next hreads hsites hruns enters, hsites', hruns'⟩

/-- **The files that are loaded through directives are the loaded files that have a document.** -/
theorem exists_loadedThrough_iff (hyields : j.Yields res) :
    (∃ sites, j.LoadedThrough sites f document) ↔
      f ∈ res.files ∧ j.documentOf f = some document := by
  constructor
  · rintro ⟨sites, levels, place, s, hreads, rfl⟩
    cases hreads with
    | root named source opened =>
      obtain ⟨hparsed, hadds⟩ := of_opening_eq_some opened
      obtain ⟨cs, s', hruns, rfl⟩ := (yields_iff_of_opening named source opened).1 hyields
      have hgrows := hruns.grows fun _ _ _ _ => Workspace.grows_of_expands
      exact ⟨hgrows.files.subset (hadds.mem_files.2 (Or.inr List.mem_cons_self)),
        documentOf_root_eq_some source hparsed⟩
    | next reads stands runs enters =>
      have hcall := calls_of_reads reads (Document.turn_iff_sites.2 ⟨_, _, _, _, stands, runs⟩)
      obtain ⟨items, s', hexpands, hfiles, -⟩ := expands_of_calls hyields hcall
      obtain ⟨cs, hruns, -⟩ := enters.expands_iff.1 hexpands
      have hgrows := hruns.grows fun _ _ _ _ => Workspace.grows_of_expands
      have hunknown := (under_of_calls hcall).1.ne_root enters.unknown
      rw [Place.file_enter]
      exact ⟨hfiles (hgrows.files.subset (enters.adds.mem_files.2 (Or.inr List.mem_cons_self))),
        documentOf_of_reading_eq_ok hunknown rfl enters.reading⟩
  · rintro ⟨hf, hdocument⟩
    -- a loaded file is the root or was loaded by a call, and the call knows its site
    obtain ⟨depth, hloaded⟩ := exists_loadedAt hyields hf
    cases hloaded with
    | root =>
      obtain ⟨text, hsource, hparsed⟩ := exists_source_of_documentOf_root hdocument
      obtain ⟨s, hopened⟩ := exists_opening hparsed
      exact ⟨[], _, j.start, s, .root (rootNameable_of_yields hyields) hsource hopened, rfl⟩
    | call call loads =>
      obtain ⟨items, s', hexpands, -⟩ := expands_of_calls hyields call
      rcases refused_or_enters (under_of_calls call).1 loads hexpands with
        ⟨hnone, -⟩ | ⟨document', s₁, hsome, henters⟩
      · cases hdocument.symm.trans hnone
      · cases hdocument.symm.trans hsome
        obtain ⟨sites, _, _, _, site, _, _, hreads, hsites, hruns⟩ := exists_reads_of_calls call
        exact ⟨sites ++ [site], _, _, s₁, .next hreads hsites hruns henters, Place.file_enter _ _⟩

/-- The first directive of a document leads on to the document of a file that is not loaded yet. -/
theorem Reads.first {document' : Document} {site : Site} {after : List (Inclusion × Site)}
    (hyields : j.Yields res) (h : j.Reads sites (levels + 1) place document s)
    (hsites : document.sites = (d, site) :: after)
    (hchain : j.workspace.target place.file d ∉ place.chain)
    (hunknown : j.workspace.target place.file d ∉ s.files)
    (hdocument : j.documentOf (j.workspace.target place.file d) = some document') :
    ∃ s', j.Reads (sites ++ [site]) levels (place.enter (j.workspace.target place.file d)) document'
        s' ∧ s'.files = s.files ++ [j.workspace.target place.file d] := by
  have hstands : document.sites = [] ++ (d, site) :: after := hsites
  have hcall := calls_of_reads h (Document.turn_iff_sites.2 ⟨_, _, _, _, hstands, .nil s⟩)
  have hunder := (under_of_calls hcall).1
  have hfile : j.IsFile (j.workspace.target place.file d) := by
    by_contra hnone
    rw [documentOf_of_not_isFile (hunder.ne_root hunknown) hnone] at hdocument
    cases hdocument
  obtain ⟨items, s', hexpands, -⟩ := expands_of_calls hyields hcall
  rcases refused_or_enters hunder ⟨hchain, hunknown, hfile⟩ hexpands with
    ⟨hnone, -⟩ | ⟨document'', s₁, hsome, henters⟩
  · cases hdocument.symm.trans hnone
  · cases hdocument.symm.trans hsome
    exact ⟨s₁, .next h hstands (.nil s) henters, henters.adds.files⟩

end Job

/-! ## Where items come to stand -/

/-- The component of the last site that is in a component. -/
def Site.innermost? (sites : List Site) : Option Component :=
  sites.reverse.findSome? fun
    | component c => some c
    | _ => none

theorem Site.innermost?_append {before later : List Site} {c : Component}
    (h : ∀ site ∈ later, site = .document ∨ site = .system) :
    innermost? (before ++ .component c :: later) = some c := by
  have hlater : (later.reverse.findSome? fun
      | component c => some c
      | _ => none) = none := by
    rw [List.findSome?_eq_none_iff]
    intro site hsite
    rcases h site (List.mem_reverse.1 hsite) with rfl | rfl <;> rfl
  rw [innermost?, List.reverse_append, List.reverse_cons, List.append_assoc, List.findSome?_append,
    hlater]
  rfl

namespace Job

variable {j : Job} {sites : List Site} {levels : Nat} {place : Place} {document : Document}
  {d : Inclusion} {s s' : Progress} {res : Resolution} {f : Path}

open Item in
/-- Where the items of a document are in a result. All of them are met on the walk, and the
constructs that stand at the top of the document stand directly in the innermost component on the
way to it, if there is one. -/
structure Landed (res : Resolution) (sites : List Site) (items : List Item) : Prop where
  met : preorderAll items ⊆ res.document.preorder
  direct : ∀ c, Site.innermost? sites = some c → ∃ contents,
    .component c.head (fillComponent c.body contents) ∈ res.document.preorder ∧
      ∀ decl, .construct decl ∈ items → .construct decl ∈ fillComponent c.body contents

/-- The step: what a directive stands for lands where its site says. -/
theorem Landed.next {items out : List Item} {site : Site} (h : Landed res sites out)
    (hreceives : site.Receives items out (Item.preorderAll out)) :
    Landed res (sites ++ [site]) items := by
  refine ⟨List.Subset.trans hreceives.met h.met, fun c hc => ?_⟩
  rw [Site.innermost?, List.reverse_append] at hc
  cases site with
  | component c' =>
    obtain rfl := Option.some.inj hc
    obtain ⟨contents, hmem, hitems⟩ := hreceives
    exact ⟨contents, h.met hmem, fun decl hdecl => hitems hdecl⟩
  | _ =>
    -- no other component has come in between
    obtain ⟨contents, hmem, hout⟩ := h.direct c hc
    exact ⟨contents, hmem, fun decl hdecl => hout decl (hreceives.2 decl hdecl)⟩

/-- The run: the items of every document that is read land in the result. -/
theorem landed_of_reads (hyields : j.Yields res) (h : j.Reads sites levels place document s) :
    ∃ cs s', Runs (j.workspace.Expands levels place) document.directives s cs s' ∧
      Landed res sites (Item.fillBody document.body cs) := by
  induction h with
  | root named source opened =>
    obtain ⟨cs, s', hruns, rfl⟩ := (yields_iff_of_opening named source opened).1 hyields
    refine ⟨cs, s', hruns, fun i hi => hi, ?_⟩
    intro c hc
    cases hc
  | next _ stands runs enters ih =>
    obtain ⟨cs, s', hruns, hlanded⟩ := ih
    rw [Document.directives_of_sites stands] at hruns
    obtain ⟨cs₁, s₁, cs₂, rfl, hbefore, hrest⟩ := Runs.append_iff.1 hruns
    obtain ⟨items, s₂, cs₂, rfl, hexpands, hafter⟩ := Runs.cons_iff.1 hrest
    -- a directive has its turn at one point of the progress only
    obtain ⟨rfl, rfl⟩ := runs.unique hbefore
    obtain ⟨contents, hruns', rfl⟩ := enters.expands_iff.1 hexpands
    refine ⟨contents, s₂, hruns', hlanded.next (Item.receives_fillBody_of_sites stands ?_ ?_)⟩
    · rw [hbefore.length_eq, List.length_map]
    · rw [hafter.length_eq, List.length_map]

end Job

/-! ## Owners -/

/-- A construct that stands in a component belongs to it, or to a component before it in which a
construct with the same key stands. -/
theorem Model.exists_owner_of_nested {m : Model} {earlier others : List Component} {c : Component}
    {decl : Construct} (hm : m.components = earlier ++ c :: others)
    (hdecl : .construct decl ∈ c.body) :
    ∃ owner : Component,
      m.assignOwners.assignments.find? decl.key = some ⟨owner.name, .directNesting⟩ ∧
        (owner = c ∨ owner ∈ earlier ∧ decl.key ∈ Pass.nestedKeys owner) := by
  have hc : decl.key ∈ Pass.nestedKeys c := Pass.mem_nestedKeys_iff.2 ⟨decl, hdecl, rfl⟩
  have howner {owner : Component}
      (h : (m.components.find? fun c => decl.key ∈ Pass.nestedKeys c) = some owner) :
      m.assignOwners.assignments.find? decl.key = some ⟨owner.name, .directNesting⟩ :=
    find?_assignOwners_of_nested decl.kind_ne_component h
  rw [hm, List.find?_append] at howner
  -- the pass gives a key to the first component that has it, so one before `c` may take it
  cases hearlier : earlier.find? fun c => decl.key ∈ Pass.nestedKeys c with
  | some owner =>
    have hkey := List.find?_some hearlier
    rw [decide_eq_true_eq] at hkey
    exact ⟨owner, howner (by rw [hearlier, Option.some_or]),
      Or.inr ⟨List.mem_of_find?_eq_some hearlier, hkey⟩⟩
  | none =>
    refine ⟨c, howner ?_, Or.inl rfl⟩
    rw [hearlier, Option.none_or, List.find?_cons, decide_eq_true hc]

namespace Job

variable {j : Job} {res : Resolution}

open Item in
/-- **What a component includes is its own.** The files that are loaded through directives are the
loaded files that have a document. When one of the directives that led to a file stands in a
component and all later ones stand in documents or systems, then every construct at the top of the
file stands directly in that component in the merged document. The first pass gives it to the
component, or to a component before it in which a construct with the same key stands. -/
theorem component_owns_includes (hyields : j.Yields res) :
    (∀ f document, (∃ sites, j.LoadedThrough sites f document) ↔
      f ∈ res.files ∧ j.documentOf f = some document) ∧
    ∀ before c later g document, j.LoadedThrough (before ++ .component c :: later) g document →
      (∀ site ∈ later, site = .document ∨ site = .system) →
      ∃ contents earlier others,
        res.document.collect.components =
          earlier ++ ⟨c.head, fillComponent c.body contents⟩ :: others ∧
        ∀ decl, .construct decl ∈ document.body →
          .construct decl ∈ fillComponent c.body contents ∧
          ∃ owner : Component,
            res.document.collect.assignOwners.assignments.find? decl.key =
              some ⟨owner.name, .directNesting⟩ ∧
            (owner = ⟨c.head, fillComponent c.body contents⟩ ∨
              owner ∈ earlier ∧ decl.key ∈ Pass.nestedKeys owner) := by
  refine ⟨fun f document => exists_loadedThrough_iff hyields, ?_⟩
  rintro before c later g document ⟨levels, place, s, hreads, -⟩ hlater
  obtain ⟨cs, s', -, hlanded⟩ := landed_of_reads hyields hreads
  obtain ⟨contents, hmem, hdirect⟩ := hlanded.direct c (Site.innermost?_append hlater)
  have hcomponent : ⟨c.head, fillComponent c.body contents⟩ ∈ res.document.collect.components :=
    Document.mem_components_collect_iff.2 hmem
  obtain ⟨earlier, others, hcomponents⟩ := List.append_of_mem hcomponent
  refine ⟨contents, earlier, others, hcomponents, fun decl hdecl => ?_⟩
  have hstands := hdirect decl (construct_mem_fillBody hdecl)
  exact ⟨hstands, Model.exists_owner_of_nested hcomponents hstands⟩

/-- The gallery of a museum. -/
def gallery : Component := ⟨⟨none, "Gallery", none, [], []⟩, [sampleDirective "wing"]⟩

/-- What the gallery includes: a wing with a store room, which includes the vault. -/
def wing : Document where
  body :=
    [ .construct (.entity ⟨none, "Ticket", none, [], [], []⟩),
      .system ⟨none, "Store", []⟩ [sampleDirective "vault"] ]

/-- What the vault holds. -/
def painting : Construct := .entity ⟨none, "Painting", none, [], [], []⟩

/-- What the store room includes. -/
def vault : Document where
  body := [.construct painting]

/-- A museum with a gallery and a shop. The shop has tickets like those of the wing. -/
def museum : Job where
  resolver := {}
  tree := sampleTree ["main", "wing", "vault"]
  parse source path :=
    match source with
    | "main" => .ok { body :=
        [ .component ⟨none, "Shop", none, [], []⟩
            [.construct (.entity ⟨none, "Ticket", none, [], [], []⟩)],
          .component gallery.head gallery.body ] }
    | "wing" => .ok wing
    | "vault" => .ok vault
    | _ => .error (.refused ⟨path, "Expecting value", some (1, 1)⟩)
  origin := .file "main.mfd"

theorem looksUp_museum : museum.LooksUp := by
  refine looksUp_of_list
    [.mk ["w", "main.mfd"], .mk ["w", "wing.mfd"], .mk ["w", "vault.mfd"]] ?_ ?_ ?_
  · decide +kernel
  · decide +kernel
  · decide +kernel

theorem documentOf_museum :
    museum.documentOf (.mk ["w", "wing.mfd"]) = some wing ∧
      museum.documentOf (.mk ["w", "vault.mfd"]) = some vault := by
  have hwing : (museum.tree.readText (.mk ["w", "wing.mfd"])).toOption = some "wing" := by
    decide +kernel
  have hvault : (museum.tree.readText (.mk ["w", "vault.mfd"])).toOption = some "vault" := by
    decide +kernel
  rw [documentOf, documentOf, if_neg (by decide +kernel), if_neg (by decide +kernel), hwing, hvault]
  exact ⟨rfl, rfl⟩

/-- The vault is loaded through a directive in the gallery and one in a system. -/
theorem vault_loadedThrough (hyields : museum.Yields res) :
    museum.LoadedThrough [.component gallery, .system] (.mk ["w", "vault.mfd"]) vault := by
  obtain ⟨hwing, hvault⟩ := documentOf_museum
  have hsource : museum.source? = some "main" := by decide +kernel
  have hparsed : museum.parse "main" museum.root.text = .ok _ := rfl
  obtain ⟨s, hopened⟩ := exists_opening hparsed
  have hmain : museum.root = .mk ["w", "main.mfd"] := by decide +kernel
  have htoWing : museum.workspace.target museum.start.file ⟨none, "wing"⟩ =
      .mk ["w", "wing.mfd"] := by decide +kernel
  have htoVault : museum.workspace.target (.mk ["w", "wing.mfd"]) ⟨none, "vault"⟩ =
      .mk ["w", "vault.mfd"] := by decide +kernel
  have hfiles : s.files = [.mk ["w", "main.mfd"]] := by
    rw [(of_opening_eq_some hopened).2.files, hmain]
    rfl
  -- one directive after the other: the wing from the root file, the vault from the wing
  have hroot := Reads.root (rootNameable_of_yields hyields) hsource hopened
  obtain ⟨s₁, hreads, hfiles₁⟩ := hroot.first hyields (d := ⟨none, "wing"⟩) rfl (by decide +kernel)
    (by rw [hfiles]; decide +kernel) (htoWing ▸ hwing)
  rw [htoWing] at hreads hfiles₁
  obtain ⟨s₂, hreads₂, -⟩ := hreads.first hyields (d := ⟨none, "vault"⟩) rfl (by decide +kernel)
    (by rw [hfiles₁, hfiles]; decide +kernel) (htoVault ▸ hvault)
  exact ⟨_, _, s₂, hreads₂, htoVault⟩

open Item in
/-- The painting stands in the gallery in the end and belongs to it. The ticket of the wing does
too, but it belongs to the shop, which comes first. -/
theorem museum_component_owns_includes :
    ∃ res, museum.Yields res ∧
      museum.LoadedThrough [.component gallery, .system] (.mk ["w", "vault.mfd"]) vault ∧
      .construct painting ∈ vault.body ∧
      (∃ contents earlier others,
        res.document.collect.components =
          earlier ++ ⟨gallery.head, fillComponent gallery.body contents⟩ :: others ∧
        .construct painting ∈ fillComponent gallery.body contents ∧
        ∃ owner : Component,
          res.document.collect.assignOwners.assignments.find? painting.key =
            some ⟨owner.name, .directNesting⟩ ∧
          (owner = ⟨gallery.head, fillComponent gallery.body contents⟩ ∨
            owner ∈ earlier ∧ painting.key ∈ Pass.nestedKeys owner)) ∧
      res.document.collect.assignOwners.assignments.find? ⟨.entity, "Painting"⟩ =
        some ⟨"Gallery", .directNesting⟩ ∧
      res.document.collect.assignOwners.assignments.find? ⟨.entity, "Ticket"⟩ =
        some ⟨"Shop", .directNesting⟩ := by
  obtain ⟨res, hyields⟩ := exists_yields looksUp_museum
  have howners : museum.result?.map (fun res =>
      (res.document.collect.assignOwners.assignments.find? ⟨.entity, "Painting"⟩,
        res.document.collect.assignOwners.assignments.find? ⟨.entity, "Ticket"⟩)) =
      some (some ⟨"Gallery", .directNesting⟩, some ⟨"Shop", .directNesting⟩) := by decide +kernel
  rw [yields_iff.1 hyields, Option.map_some, Option.some_inj, Prod.mk.injEq] at howners
  have hloaded := vault_loadedThrough hyields
  have hpainting : .construct painting ∈ vault.body := List.mem_singleton_self _
  have hlater : ∀ site ∈ [Site.system], site = .document ∨ site = .system := by
    intro site hsite
    exact Or.inr (List.mem_singleton.1 hsite)
  obtain ⟨contents, earlier, others, hcomponents, hall⟩ :=
    (component_owns_includes hyields).2 [] gallery [.system] _ vault hloaded hlater
  exact ⟨res, hyields, hloaded, hpainting,
    ⟨contents, earlier, others, hcomponents, hall painting hpainting⟩, howners⟩

end Job

end Blueprint
