import Blueprint.Proofs.Document.Placement
import Blueprint.Proofs.Resolution.Conservation

/-!
# Merged documents are fully expanded

A resolution leaves no include directive behind, however deep it stood and however many files it is
away from the root file, and it leaves nothing in a system that does not belong there. So a second
resolution has nothing to do. In the specification this is the testable property of idempotence
(§8).

- `Item.Settled`: an item that is no directive and, if it is a system, holds what may stay in one.
- `Item.allSettled_fillBody`: a file is settled when what is filled in is settled.
- `Workspace.allSettled_of_expands`: whatever a directive stands for is settled.
- `expandBody_of_allSettled`: settled items stay as they are, and nothing happens.
- `Job.fully_expanded`: the merged document is settled and stays as it is.
-/

namespace Blueprint

namespace Item

/-! ## Settled items -/

/-- What may stay in a system. -/
def staysInSystem : Item → Bool
  | component _ _ => true
  | comment _ => true
  | unparsed _ => true
  | _ => false

/-- An item that is no directive and, if it is a system, holds what may stay in one. -/
def Settled : Item → Prop
  | inclusion _ => False
  | system _ body => ∀ i ∈ body, i.staysInSystem = true
  | _ => True

/-- The items of a list and all items in them are settled. -/
def AllSettled (items : List Item) : Prop := ∀ i ∈ preorderAll items, i.Settled

variable {items : List Item} {cs : List (List Item)}

theorem allSettled_nil : AllSettled [] := nofun

theorem allSettled_append {xs ys : List Item} :
    AllSettled (xs ++ ys) ↔ AllSettled xs ∧ AllSettled ys := by
  simp only [AllSettled, preorderAll_eq_flatMap, List.flatMap_append, List.forall_mem_append]

theorem allSettled_cons {i : Item} {rest : List Item} :
    AllSettled (i :: rest) ↔ i.Settled ∧ AllSettled i.body ∧ AllSettled rest := by
  simp only [AllSettled, preorderAll, preorder_eq_cons, List.forall_mem_append,
    List.forall_mem_cons, and_assoc]

theorem AllSettled.of_subset {xs ys : List Item} (h : AllSettled ys) (hsub : xs ⊆ ys) :
    AllSettled xs := by
  intro i hi
  rw [preorderAll_eq_flatMap, List.mem_flatMap] at hi
  obtain ⟨x, hx, hi⟩ := hi
  refine h i ?_
  rw [preorderAll_eq_flatMap, List.mem_flatMap]
  exact ⟨x, hsub hx, hi⟩

/-! ## Filling in settled contents -/

theorem allSettled_headD (h : ∀ c ∈ cs, AllSettled c) : AllSettled (cs.headD []) := by
  cases cs with
  | nil => exact allSettled_nil
  | cons c cs => exact h c List.mem_cons_self

theorem allSettled_take_drop (h : ∀ c ∈ cs, AllSettled c) (n : Nat) :
    (∀ c ∈ cs.take n, AllSettled c) ∧ ∀ c ∈ cs.drop n, AllSettled c :=
  ⟨fun c hc => h c (List.mem_of_mem_take hc), fun c hc => h c (List.mem_of_mem_drop hc)⟩

theorem allSettled_fillComponent (hitems : ∀ i ∈ items, i.standsInComponent = true)
    (hcs : ∀ c ∈ cs, AllSettled c) : AllSettled (fillComponent items cs) := by
  induction items generalizing cs with
  | nil => exact allSettled_nil
  | cons i rest ih =>
    rw [List.forall_mem_cons] at hitems
    cases i with
    | inclusion d =>
      have hrest := ih hitems.2 fun c hc => hcs c (List.mem_of_mem_tail hc)
      exact allSettled_append.2 ⟨allSettled_headD hcs, hrest⟩
    -- a component holds none of these, so nothing in it is nested
    | system | component | fragment => cases hitems.1
    | _ => exact allSettled_cons.2 ⟨trivial, allSettled_nil, ih hitems.2 hcs⟩

/-- What is kept in a system may stay there, and what comes to stand before it is settled too. -/
theorem allSettled_fillSystem (hitems : ∀ i ∈ items, i.standsInSystem = true)
    (hcs : ∀ c ∈ cs, AllSettled c) :
    AllSettled (fillSystem items cs).1 ∧ AllSettled (fillSystem items cs).2 ∧
      ∀ i ∈ (fillSystem items cs).1, i.staysInSystem = true := by
  induction items generalizing cs with
  | nil => exact ⟨allSettled_nil, allSettled_nil, nofun⟩
  | cons i rest ih =>
    rw [List.forall_mem_cons] at hitems
    cases i with
    | inclusion d =>
      obtain ⟨hkept, hhoisted, hstay⟩ := ih hitems.2 fun c hc => hcs c (List.mem_of_mem_tail hc)
      have hhead := allSettled_headD hcs
      refine ⟨allSettled_append.2 ⟨hhead.of_subset (List.filter_subset_self _), hkept⟩,
        allSettled_append.2 ⟨hhead.of_subset (List.filter_subset_self _), hhoisted⟩, ?_⟩
      refine List.forall_mem_append.2 ⟨fun i hi => ?_, hstay⟩
      -- of the content of another file, only what fits is let in
      have hfits := (List.mem_filter.1 hi).2
      cases i with
      | component => rfl
      | comment => rfl
      | _ => cases hfits
    | component head body =>
      obtain ⟨hfirst, hothers⟩ := allSettled_take_drop hcs (directivesInComponent body).length
      have hbody := allSettled_fillComponent (List.all_eq_true.1 hitems.1) hfirst
      obtain ⟨hkept, hhoisted, hstay⟩ := ih hitems.2 hothers
      exact ⟨allSettled_cons.2 ⟨trivial, hbody, hkept⟩, hhoisted,
        List.forall_mem_cons.2 ⟨rfl, hstay⟩⟩
    | comment | unparsed =>
      obtain ⟨hkept, hhoisted, hstay⟩ := ih hitems.2 hcs
      exact ⟨allSettled_cons.2 ⟨trivial, allSettled_nil, hkept⟩, hhoisted,
        List.forall_mem_cons.2 ⟨rfl, hstay⟩⟩
    | _ => cases hitems.1

/-- **A file is settled when what is filled in is settled.** -/
theorem allSettled_fillBody (hitems : ∀ i ∈ items, i.standsInDocument = true)
    (hcs : ∀ c ∈ cs, AllSettled c) : AllSettled (fillBody items cs) := by
  induction items generalizing cs with
  | nil => exact allSettled_nil
  | cons i rest ih =>
    rw [List.forall_mem_cons] at hitems
    cases i with
    | system head body =>
      obtain ⟨hfirst, hothers⟩ := allSettled_take_drop hcs (directivesInSystem body).length
      obtain ⟨hkept, hhoisted, hstay⟩ :=
        allSettled_fillSystem (List.all_eq_true.1 hitems.1) hfirst
      -- what does not fit comes to stand before the system
      have hrest := ih hitems.2 hothers
      exact allSettled_append.2 ⟨hhoisted, allSettled_cons.2 ⟨hstay, hkept, hrest⟩⟩
    | component head body =>
      obtain ⟨hfirst, hothers⟩ := allSettled_take_drop hcs (directivesInComponent body).length
      have hbody := allSettled_fillComponent (List.all_eq_true.1 hitems.1) hfirst
      exact allSettled_cons.2 ⟨trivial, hbody, ih hitems.2 hothers⟩
    | inclusion d =>
      have hrest := ih hitems.2 fun c hc => hcs c (List.mem_of_mem_tail hc)
      exact allSettled_append.2 ⟨allSettled_headD hcs, hrest⟩
    | fragment => cases hitems.1
    | _ => exact allSettled_cons.2 ⟨trivial, allSettled_nil, ih hitems.2 hcs⟩

/-! ## Nothing to run -/

theorem directivesInComponent_eq_nil (h : AllSettled items) : directivesInComponent items = [] := by
  induction items with
  | nil => rfl
  | cons i rest ih =>
    obtain ⟨hi, -, hrest⟩ := allSettled_cons.1 h
    cases i with
    | inclusion => exact hi.elim
    | _ => exact ih hrest

theorem directivesInSystem_eq_nil (h : AllSettled items) : directivesInSystem items = [] := by
  induction items with
  | nil => rfl
  | cons i rest ih =>
    obtain ⟨hi, hbody, hrest⟩ := allSettled_cons.1 h
    cases i with
    | inclusion => exact hi.elim
    | component head body =>
      have hnone : directivesInComponent body = [] := directivesInComponent_eq_nil hbody
      rw [directivesInSystem, hnone, ih hrest, List.append_nil]
    | _ => exact ih hrest

theorem directivesInBody_eq_nil (h : AllSettled items) : directivesInBody items = [] := by
  induction items with
  | nil => rfl
  | cons i rest ih =>
    obtain ⟨hi, hbody, hrest⟩ := allSettled_cons.1 h
    cases i with
    | inclusion => exact hi.elim
    | system head body =>
      have hnone : directivesInSystem body = [] := directivesInSystem_eq_nil hbody
      rw [directivesInBody, hnone, ih hrest, List.append_nil]
    | component head body =>
      have hnone : directivesInComponent body = [] := directivesInComponent_eq_nil hbody
      rw [directivesInBody, hnone, ih hrest, List.append_nil]
    | _ => exact ih hrest

theorem fillComponent_of_directives_eq_nil (h : directivesInComponent items = []) :
    fillComponent items [] = items := by
  induction items with
  | nil => rfl
  | cons i rest ih =>
    cases i with
    | inclusion => cases h
    | _ => exact congrArg (List.cons _) (ih h)

theorem fillSystem_of_directives_eq_nil (h : directivesInSystem items = []) :
    fillSystem items [] = (items, []) := by
  induction items with
  | nil => rfl
  | cons i rest ih =>
    cases i with
    | inclusion => cases h
    | component head body =>
      obtain ⟨hbody, hrest⟩ := List.append_eq_nil_iff.1 h
      rw [fillSystem, List.take_nil, List.drop_nil, ih hrest,
        fillComponent_of_directives_eq_nil hbody]
    | _ =>
      have hrest : fillSystem rest [] = (rest, []) := ih h
      simp only [fillSystem, hrest]

theorem fillBody_of_directives_eq_nil (h : directivesInBody items = []) :
    fillBody items [] = items := by
  induction items with
  | nil => rfl
  | cons i rest ih =>
    cases i with
    | inclusion => cases h
    | system head body =>
      obtain ⟨hbody, hrest⟩ := List.append_eq_nil_iff.1 h
      rw [fillBody, List.take_nil, List.drop_nil, ih hrest, fillSystem_of_directives_eq_nil hbody]
      rfl
    | component head body =>
      obtain ⟨hbody, hrest⟩ := List.append_eq_nil_iff.1 h
      rw [fillBody, List.take_nil, List.drop_nil, ih hrest,
        fillComponent_of_directives_eq_nil hbody]
    | _ => exact congrArg (List.cons _) (ih h)

end Item

open Item

/-- **Settled items stay as they are, and nothing happens**, whatever directives would stand for. -/
theorem expandBody_of_allSettled {items : List Item} (h : AllSettled items)
    (expand : Inclusion → Resolve (List Item)) (s : Progress) :
    expandBody expand items s = .ok items s := by
  -- without directives nothing is run and nothing is filled in
  have hnone := directivesInBody_eq_nil h
  refine expandBody_eq_ok_iff.2 ⟨[], ?_, fillBody_of_directives_eq_nil hnone⟩
  rw [hnone]
  exact .nil s

/-! ## Resolutions -/

/-- The run: what holds of the items that each directive stands for. -/
theorem Runs.forall_contents {P : List Item → Prop}
    {step : Inclusion → Progress → List Item → Progress → Prop} {ds : List Inclusion}
    {s s' : Progress} {cs : List (List Item)} (h : Runs step ds s cs s')
    (hstep : ∀ d s items s', step d s items s' → P items) : ∀ c ∈ cs, P c := by
  induction h with
  | nil s => exact nofun
  | cons first _ ih => exact List.forall_mem_cons.2 ⟨hstep _ _ _ _ first, ih⟩

theorem Workspace.wellPlaced_of_reading {w : Workspace} (hparse : w.parse.WellPlaced)
    {place : Place} {d : Inclusion} {target : Path} {found : Found} {document : Document}
    (h : w.reading place d target found = .ok document) : document.WellPlaced := by
  unfold reading at h
  split at h
  · cases h
  · next source _ =>
    split at h
    · next hparsed =>
      cases h
      exact hparse source target.text document hparsed
    · cases h

/-- **The step: whatever a directive stands for is settled.** -/
theorem Workspace.allSettled_of_expands {w : Workspace} (hparse : w.parse.WellPlaced)
    {levels : Nat} {place : Place} {d : Inclusion} {s s' : Progress} {items : List Item}
    (h : w.Expands levels place d s items s') : AllSettled items := by
  -- the directives of a loaded file have settled contents by the induction hypothesis
  refine expandDirective_induct (P := fun _ _ _ _ items _ => AllSettled items) ?_ h
  intro levels place d s items s' h
  cases h with
  | loaded _ _ _ read _ runs =>
    exact allSettled_fillBody (wellPlaced_of_reading hparse read)
      (runs.forall_contents fun _ _ _ _ hd => hd.2)
  | _ =>
    -- in every other case the directive stands for nothing
    exact allSettled_nil

namespace Job

variable {j : Job} {res : Resolution}

theorem allSettled_of_ending (hparse : j.parse.WellPlaced) (h : j.Ending res) :
    AllSettled res.document.body := by
  cases h with
  | unreadable => exact allSettled_nil
  | refused => exact allSettled_nil
  | expanded source parsed adds runs =>
    exact allSettled_fillBody (hparse _ _ _ parsed)
      (runs.forall_contents fun _ _ _ _ hd => Workspace.allSettled_of_expands hparse hd)

/-- **Merged documents are fully expanded.** Take any parser in whose documents everything stands
where it may; the parser of JSON texts is one. A resolution of which every path can be looked up has
a result. In every result there is no include directive at any depth, a system holds only
components, comments and lines that could not be parsed, and to expand the items once more, in
whatever workspace, place and depth, changes nothing, reports nothing and loads nothing. -/
theorem fully_expanded :
    Parser.WellPlaced Document.parse ∧
    ∀ j : Job, j.parse.WellPlaced →
      (j.LooksUp → ∃ res, j.Yields res) ∧
      ∀ res, j.Yields res →
        (∀ i ∈ res.document.preorder, i.isInclusion = false) ∧
        (∀ head body, Item.system head body ∈ res.document.preorder →
          ∀ i ∈ body, i.staysInSystem = true) ∧
        ∀ (w : Workspace) (levels : Nat) (place : Place) (s : Progress),
          expandBody (w.expandDirective levels place) res.document.body s =
            .ok res.document.body s := by
  refine ⟨Document.wellPlaced_parse, fun j hparse => ⟨exists_yields, fun res hyields => ?_⟩⟩
  have hsettled := allSettled_of_ending hparse (ending_of_yields hyields)
  refine ⟨fun i hi => ?_, fun head body hbody => hsettled _ hbody,
    fun w levels place => expandBody_of_allSettled hsettled _⟩
  cases i with
  | inclusion => exact (hsettled _ hi).elim
  | _ => rfl

/-- The merged document of the shop has the orders, the key that was included in them and the shop,
and stays as it is. -/
theorem shop_fully_expanded :
    shop.parse.WellPlaced ∧ shop.LooksUp ∧
      ∃ res, shop.Yields res ∧
        res.document.preorder.map Item.key? =
          [some ⟨.component, "Orders"⟩, some ⟨.secret, "key"⟩, some ⟨.system, "Shop"⟩] ∧
        (∀ i ∈ res.document.preorder, i.isInclusion = false) ∧
        ∀ (w : Workspace) (levels : Nat) (place : Place) (s : Progress),
          expandBody (w.expandDirective levels place) res.document.body s =
            .ok res.document.body s := by
  have hparse : shop.parse.WellPlaced := by
    intro source path d h
    dsimp only [shop] at h
    split at h <;> cases h <;> decide
  have hkeys : shop.result?.map (fun res => res.document.preorder.map Item.key?) =
      some [some ⟨.component, "Orders"⟩, some ⟨.secret, "key"⟩, some ⟨.system, "Shop"⟩] := by
    decide +kernel
  obtain ⟨hends, hresult⟩ := fully_expanded.2 shop hparse
  obtain ⟨res, hyields⟩ := hends looksUp_shop
  obtain ⟨hnone, -, hagain⟩ := hresult res hyields
  rw [yields_iff.1 hyields, Option.map_some, Option.some_inj] at hkeys
  exact ⟨hparse, looksUp_shop, res, hyields, hkeys, hnone, hagain⟩

end Job

end Blueprint
