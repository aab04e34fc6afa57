import Blueprint.Proofs.Resolution.Calls
import Blueprint.Proofs.Resolution.Closure

/-!
# Directives that lead nowhere

A directive whose file does not exist stands for nothing. Put into a root file it is reported, and
it leaves no other trace: what comes after it goes the same way as before, because a resolution
looks at the files loaded so far and never at what was reported. This is a statement about two runs,
one with the directive and one without it.

- `Resolve.Alike`: two steps that come to the same and add the same, whatever was reported before.
- `Workspace.alike_expandDirective`, `Runs.of_alike`: a directive and a list of directives, in two
  projects that differ in the root file only.
- `Document.Inserts`, `Item.Opens`: a directive that is put somewhere into a document, and what that
  means for the directives to run and for filling in.
- `Workspace.leadsNowhere_of_expands`: what a directive without a file comes to.
- `Job.dangling_include_only_reports`: the two runs.
-/

namespace Blueprint

/-! ## Steps that go the same way -/

namespace Resolve

variable {α β : Type}

/-- What two steps come to, from one point each: the same value with the same additions, or the same
failure. -/
inductive Agree (s t : Progress) :
    EStateM.Result Abort Progress α → EStateM.Result Abort Progress α → Prop
  | ok {a : α} {fs : List Path} {es : List Diagnostic} {s' t' : Progress} (left : s.Adds fs es s')
      (right : t.Adds fs es t') : Agree s t (.ok a s') (.ok a t')
  | error {e : Abort} {s' t' : Progress} : Agree s t (.error e s') (.error e t')

/-- Two steps that only look at the files loaded so far, and go the same way where these are the
same. -/
def Alike (x y : Resolve α) : Prop := ∀ s t, s.files = t.files → Agree s t (x s) (y t)

namespace Alike

theorem pure (a : α) : Alike (Pure.pure a) (Pure.pure a) :=
  fun s t _ => .ok (.refl s) (.refl t)

theorem throw (e : Abort) : Alike (MonadExcept.throw e : Resolve α) (MonadExcept.throw e) :=
  fun _ _ _ => .error

theorem log (entry : Entry) : Alike (Progress.log entry) (Progress.log entry) :=
  fun _ _ _ => @Agree.ok _ _ _ _ [] [] _ _ ⟨by simp, by simp⟩ ⟨by simp, by simp⟩

theorem report (e : Diagnostic) : Alike (Progress.report e) (Progress.report e) :=
  fun _ _ _ => @Agree.ok _ _ _ _ [] [e] _ _ ⟨by simp, rfl⟩ ⟨by simp, rfl⟩

theorem bind {x y : Resolve α} {f g : α → Resolve β} (hx : Alike x y)
    (hf : ∀ a, Alike (f a) (g a)) : Alike (x >>= f) (y >>= g) := by
  intro s t hfiles
  show Agree s t (EStateM.bind x f s) (EStateM.bind y g t)
  unfold EStateM.bind
  have hfirst := hx s t hfiles
  revert hfirst
  generalize x s = rx, y t = ry
  rintro (@⟨a, fs, es, s₁, t₁, left, right⟩ | _)
  · have hnext := hf a s₁ t₁ (by rw [left.files, right.files, hfiles])
    show Agree s t (f a s₁) (g a t₁)
    revert hnext
    generalize f a s₁ = rf, g a t₁ = rg
    rintro (⟨left', right'⟩ | _)
    · exact .ok (left.trans left') (right.trans right')
    · exact .error
  · exact .error

/-- Looking at how far the resolution has come. -/
theorem get {f g : Progress → Resolve β} (hf : ∀ s t, s.files = t.files → Alike (f s) (g t)) :
    Alike (MonadState.get >>= f) (MonadState.get >>= g) :=
  fun s t hfiles => hf s t hfiles s t hfiles

end Alike

/-! Items go the same way when their directives do. -/

section

variable {expand expand' : Inclusion → Resolve (List Item)}
  (h : ∀ d, Alike (expand d) (expand' d))

include h

theorem alike_expandComponent (items : List Item) :
    Alike (expandComponent expand items) (expandComponent expand' items) := by
  induction items with
  | nil => exact .pure []
  | cons i rest ih =>
    cases i with
    | inclusion d => exact (h d).bind fun _ => ih.bind fun _ => .pure _
    | _ => exact ih.bind fun _ => .pure _

theorem alike_expandSystem (items : List Item) :
    Alike (expandSystem expand items) (expandSystem expand' items) := by
  induction items with
  | nil => exact .pure ([], [])
  | cons i rest ih =>
    cases i with
    | inclusion d => exact (h d).bind fun _ => ih.bind fun _ => .pure _
    | component head body =>
      exact (alike_expandComponent h body).bind fun _ => ih.bind fun _ => .pure _
    | _ => exact ih.bind fun _ => .pure _

theorem alike_expandBody (items : List Item) :
    Alike (expandBody expand items) (expandBody expand' items) := by
  induction items with
  | nil => exact .pure []
  | cons i rest ih =>
    cases i with
    | system head body =>
      exact (alike_expandSystem h body).bind fun _ => ih.bind fun _ => .pure _
    | component head body =>
      exact (alike_expandComponent h body).bind fun _ => ih.bind fun _ => .pure _
    | inclusion d => exact (h d).bind fun _ => ih.bind fun _ => .pure _
    | _ => exact ih.bind fun _ => .pure _

end

end Resolve

open Resolve

/-! ## Directives in two trees -/

namespace Workspace

variable (w : Workspace)

theorem alike_locate (place : Place) (d : Inclusion) :
    Alike (w.locate place d) (w.locate place d) := by
  intro s t _
  -- the outcome depends on what is written alone, not on the progress made so far
  cases hnull : (w.written d).toList.contains (Char.ofNat 0) with
  | false =>
    obtain ⟨s', hs, left⟩ := locate_of_nameable (w := w) hnull place s
    obtain ⟨t', ht, right⟩ := locate_of_nameable (w := w) hnull place t
    rw [hs, ht]
    exact .ok left right
  | true =>
    unfold locate
    simp only [hnull, if_true]
    split
    · exact .error
    · exact .error

theorem alike_load (place : Place) (d : Inclusion) (target : Path) (found : Found) :
    Alike (w.load place d target found) (w.load place d target found) := by
  intro s t _
  cases hread : w.reading place d target found with
  | ok document =>
    obtain ⟨s', hs, left⟩ := load_of_ok hread s
    obtain ⟨t', ht, right⟩ := load_of_ok hread t
    rw [hs, ht]
    exact .ok left right
  | error e =>
    obtain ⟨s', hs, left⟩ := load_of_error hread s
    obtain ⟨t', ht, right⟩ := load_of_error hread t
    rw [hs, ht]
    exact .ok left right

/-- The project with another file tree. -/
def withTree (tree : FileTree) : Workspace := { w with tree }

/-- **A directive goes the same way in two trees that differ in one file on the way to it.** The
file is never looked up, because a directive that leads to it is a cycle. -/
theorem alike_expandDirective {tree : FileTree} (root : Path)
    (htree : ∀ f, f ≠ root → tree.find f = w.tree.find f) (levels : Nat) {place : Place}
    (hroot : root ∈ place.chain) (d : Inclusion) :
    Alike (w.expandDirective levels place d)
      ((w.withTree tree).expandDirective levels place d) := by
  -- on the levels, for any place: one file deeper the chain is longer, and still holds the root
  induction levels generalizing place d with
  | zero => exact .bind (w.alike_locate place d) fun _ => .bind (.report _) fun _ => .pure _
  | succ levels ih =>
    refine .bind (w.alike_locate place d) fun target => ?_
    by_cases hchain : target ∈ place.chain
    · rw [if_pos (List.contains_iff_mem.2 hchain), if_pos (List.contains_iff_mem.2 hchain)]
      exact .bind (.report _) fun _ => .pure _
    rw [if_neg (mt List.contains_iff_mem.1 hchain), if_neg (mt List.contains_iff_mem.1 hchain)]
    refine .get fun now now' hfiles => ?_
    rw [hfiles]
    split
    · exact .bind (.log _) fun _ => .pure _
    -- the trees are asked about a file off the chain, so not about the root, where they may differ
    have hfind : (w.withTree tree).tree.find target = w.tree.find target :=
      htree target fun heq => hchain (heq ▸ hroot)
    rw [hfind]
    cases w.tree.find target with
    | nameTooLong => exact .throw _
    | file bytes =>
      refine .bind (w.alike_load place d target _) fun answer => ?_
      cases answer with
      | none => exact .pure _
      | some document =>
        refine alike_expandBody (fun d' => ih ?_ d') document.body
        rw [Place.chain_enter]
        exact List.mem_append_left _ hroot
    | _ => exact .bind (.report _) fun _ => .pure _

end Workspace

/-- A list of directives goes the same way when each of them does. -/
theorem Runs.of_alike {expand expand' : Inclusion → Resolve (List Item)}
    (halike : ∀ d, Alike (expand d) (expand' d)) {ds : List Inclusion} {s s' t : Progress}
    {cs : List (List Item)} (hfiles : s.files = t.files) (h : Runs (Answers expand) ds s cs s') :
    ∃ t', Runs (Answers expand') ds t cs t' ∧ ∃ fs es, s.Adds fs es s' ∧ t.Adds fs es t' := by
  induction h generalizing t with
  | nil s => exact ⟨t, .nil t, [], [], .refl s, .refl t⟩
  | @cons d ds s s₁ s' items rest first _ ih =>
    have hagree := halike d s t hfiles
    rw [show expand d s = .ok items s₁ from first] at hagree
    generalize hresult : expand' d t = r at hagree
    cases hagree with
    | @ok _ _ _ _ t₁ left right =>
      obtain ⟨t', others, fs, es, left', right'⟩ :=
        ih (t := t₁) (by rw [left.files, right.files, hfiles])
      exact ⟨t', .cons hresult others, _, _, left.trans left', right.trans right'⟩

/-! ## Putting a directive into a document -/

namespace Item

variable {d : Inclusion}

/-- A directive is put between items. -/
def Inserts (d : Inclusion) (items items' : List Item) : Prop :=
  ∃ before after, items = before ++ after ∧ items' = before ++ .inclusion d :: after

/-- A directive is put into a system: between its items, or into one of its components. -/
inductive InsertsInSystem (d : Inclusion) : List Item → List Item → Prop
  | between {items items' : List Item} (h : Inserts d items items') :
      InsertsInSystem d items items'
  | component {head : ComponentHead} {body body' : List Item} (before after : List Item)
      (h : Inserts d body body') :
      InsertsInSystem d (before ++ .component head body :: after)
        (before ++ .component head body' :: after)

/-- A directive is put among the items of a document: between them, into a component or into a
system. -/
inductive InsertsInBody (d : Inclusion) : List Item → List Item → Prop
  | between {items items' : List Item} (h : Inserts d items items') : InsertsInBody d items items'
  | component {head : ComponentHead} {body body' : List Item} (before after : List Item)
      (h : Inserts d body body') :
      InsertsInBody d (before ++ .component head body :: after)
        (before ++ .component head body' :: after)
  | system {head : SystemHead} {body body' : List Item} (before after : List Item)
      (h : InsertsInSystem d body body') :
      InsertsInBody d (before ++ .system head body :: after) (before ++ .system head body' :: after)

/-! ### What changes for running and filling in -/

variable {β : Type}

/-- One more directive is to be run, and if it stands for nothing, filling in gives the same. -/
def Opens (directives : List Item → List Inclusion) (fill : List Item → List (List Item) → β)
    (d : Inclusion) (items items' : List Item) : Prop :=
  ∃ ds₁ ds₂, directives items = ds₁ ++ ds₂ ∧ directives items' = ds₁ ++ d :: ds₂ ∧
    ∀ cs₁ cs₂ : List (List Item), cs₁.length = ds₁.length → cs₂.length = ds₂.length →
      fill items' (cs₁ ++ [] :: cs₂) = fill items (cs₁ ++ cs₂)

/-- Directives are run and filled in item by item. -/
structure Itemwise (directives : List Item → List Inclusion)
    (fill : List Item → List (List Item) → β) (join : β → β → β) : Prop where
  directives_append : ∀ items items',
    directives (items ++ items') = directives items ++ directives items'
  fill_append : ∀ items items' cs cs', cs.length = (directives items).length →
    fill (items ++ items') (cs ++ cs') = join (fill items cs) (fill items' cs')

/-- What stands before and after makes no difference. -/
theorem Itemwise.opens_within {directives : List Item → List Inclusion}
    {fill : List Item → List (List Item) → β} {join : β → β → β}
    (hwise : Itemwise directives fill join) (before after : List Item) {items items' : List Item}
    (h : Opens directives fill d items items') :
    Opens directives fill d (before ++ items ++ after) (before ++ items' ++ after) := by
  obtain ⟨ds₁, ds₂, hds, hds', hfill⟩ := h
  refine ⟨directives before ++ ds₁, ds₂ ++ directives after, ?_, ?_, fun cs₁ cs₂ hcs₁ hcs₂ => ?_⟩
  · simp only [hwise.directives_append, hds, List.append_assoc]
  · simp only [hwise.directives_append, hds', List.append_assoc, List.cons_append]
  rw [List.length_append] at hcs₁ hcs₂
  -- the contents fall into those before, those for the items on either side, and those after
  obtain ⟨bs, cs₁, rfl, hbs, hcs₁⟩ : ∃ bs cs, cs₁ = bs ++ cs ∧
      bs.length = (directives before).length ∧ cs.length = ds₁.length :=
    ⟨cs₁.take (directives before).length, cs₁.drop (directives before).length,
      (List.take_append_drop _ _).symm, by simp [hcs₁], by simp [hcs₁]⟩
  obtain ⟨cs₂, as, rfl, hcs₂, -⟩ : ∃ cs as, cs₂ = cs ++ as ∧
      cs.length = ds₂.length ∧ as.length = (directives after).length :=
    ⟨cs₂.take ds₂.length, cs₂.drop ds₂.length, (List.take_append_drop _ _).symm,
      by simp [hcs₂], by simp [hcs₂]⟩
  -- `mid` is `[[]]` with the directive and `[]` without it
  have hsplit : ∀ mid, bs ++ cs₁ ++ (mid ++ (cs₂ ++ as)) = bs ++ (cs₁ ++ (mid ++ cs₂)) ++ as := by
    simp only [List.append_assoc, implies_true]
  have hlength : ∀ xs (mid : List (List Item)),
      (directives xs).length = ds₁.length + (mid.length + ds₂.length) →
      (bs ++ (cs₁ ++ (mid ++ cs₂))).length = (directives (before ++ xs)).length := by
    intro xs mid hxs
    simp only [hwise.directives_append, List.length_append, hbs, hcs₁, hcs₂, hxs]
  calc fill (before ++ items' ++ after) (bs ++ cs₁ ++ [] :: (cs₂ ++ as))
      = join (join (fill before bs) (fill items' (cs₁ ++ [] :: cs₂))) (fill after as) := by
        rw [show ([] : List Item) :: (cs₂ ++ as) = [[]] ++ (cs₂ ++ as) from rfl, hsplit,
          hwise.fill_append _ _ _ _ (hlength _ _ (by simp [hds']; omega)),
          hwise.fill_append _ _ _ _ hbs]
        rfl
    _ = join (join (fill before bs) (fill items (cs₁ ++ cs₂))) (fill after as) := by
        rw [hfill cs₁ cs₂ hcs₁ hcs₂]
    _ = fill (before ++ items ++ after) (bs ++ cs₁ ++ (cs₂ ++ as)) := by
        rw [show cs₂ ++ as = [] ++ (cs₂ ++ as) from rfl, hsplit,
          hwise.fill_append _ _ _ _ (hlength _ _ (by simp [hds])),
          hwise.fill_append _ _ _ _ hbs]
        rfl

theorem itemwise_component : Itemwise directivesInComponent fillComponent (· ++ ·) where
  directives_append items items' := by
    induction items with
    | nil => rfl
    | cons i rest ih => cases i <;> simp [directivesInComponent, ih]
  fill_append items items' cs cs' h := by
    induction items generalizing cs with
    | nil =>
      rw [List.length_eq_zero_iff.1 h]
      rfl
    | cons i rest ih =>
      cases i with
      | inclusion d =>
        obtain ⟨c, cs, rfl⟩ := List.exists_cons_of_length_eq_add_one h
        simp [fillComponent, ih cs (Nat.succ.inj h)]
      | _ => simp [fillComponent, ih cs h]

theorem itemwise_system : Itemwise directivesInSystem fillSystem
    fun p q => (p.1 ++ q.1, p.2 ++ q.2) where
  directives_append items items' := by
    induction items with
    | nil => rfl
    | cons i rest ih => cases i <;> simp [directivesInSystem, ih]
  fill_append items items' cs cs' h := by
    induction items generalizing cs with
    | nil =>
      rw [List.length_eq_zero_iff.1 h]
      rfl
    | cons i rest ih =>
      cases i with
      | inclusion d =>
        obtain ⟨c, cs, rfl⟩ := List.exists_cons_of_length_eq_add_one h
        simp [fillSystem, ih cs (Nat.succ.inj h)]
      | component head body =>
        rw [directivesInSystem, List.length_append] at h
        have hn : (directivesInComponent body).length ≤ cs.length := by omega
        have hrest : (cs.drop (directivesInComponent body).length).length =
            (directivesInSystem rest).length := by
          rw [List.length_drop]
          omega
        simp [fillSystem, List.take_append_of_le_length hn, List.drop_append_of_le_length hn,
          ih _ hrest]
      | _ => simp [fillSystem, ih cs h]

theorem itemwise_body : Itemwise directivesInBody fillBody (· ++ ·) where
  directives_append items items' := by
    induction items with
    | nil => rfl
    | cons i rest ih => cases i <;> simp [directivesInBody, ih]
  fill_append items items' cs cs' h := by
    induction items generalizing cs with
    | nil =>
      rw [List.length_eq_zero_iff.1 h]
      rfl
    | cons i rest ih =>
      cases i with
      | inclusion d =>
        obtain ⟨c, cs, rfl⟩ := List.exists_cons_of_length_eq_add_one h
        simp [fillBody, ih cs (Nat.succ.inj h)]
      | component head body =>
        rw [directivesInBody, List.length_append] at h
        have hn : (directivesInComponent body).length ≤ cs.length := by omega
        have hrest : (cs.drop (directivesInComponent body).length).length =
            (directivesInBody rest).length := by
          rw [List.length_drop]
          omega
        simp [fillBody, List.take_append_of_le_length hn, List.drop_append_of_le_length hn,
          ih _ hrest]
      | system head body =>
        rw [directivesInBody, List.length_append] at h
        have hn : (directivesInSystem body).length ≤ cs.length := by omega
        have hrest : (cs.drop (directivesInSystem body).length).length =
            (directivesInBody rest).length := by
          rw [List.length_drop]
          omega
        simp [fillBody, List.take_append_of_le_length hn, List.drop_append_of_le_length hn,
          ih _ hrest]
      | _ => simp [fillBody, ih cs h]

/-- A directive by itself that stands for nothing. -/
theorem Itemwise.opens_of_inserts {directives : List Item → List Inclusion}
    {fill : List Item → List (List Item) → β} {join : β → β → β}
    (hwise : Itemwise directives fill join) (hnil : directives [] = [])
    (hone : directives [.inclusion d] = [d]) (hfill : fill [.inclusion d] [[]] = fill [] [])
    {items items' : List Item} (h : Inserts d items items') :
    Opens directives fill d items items' := by
  obtain ⟨before, after, rfl, rfl⟩ := h
  have hopens : Opens directives fill d [] [.inclusion d] := by
    refine ⟨[], [], hnil, hone, fun cs₁ cs₂ hcs₁ hcs₂ => ?_⟩
    rw [List.length_eq_zero_iff.1 hcs₁, List.length_eq_zero_iff.1 hcs₂]
    exact hfill
  simpa using hwise.opens_within before after hopens

/-- A component into which a directive is put, where it stands. -/
theorem Itemwise.opens_of_body {directives inner : List Item → List Inclusion} {γ : Type}
    {fill : List Item → List (List Item) → β} {join : β → β → β}
    {fillInner : List Item → List (List Item) → γ} (hwise : Itemwise directives fill join)
    (wrap : List Item → Item) (give : γ → β) (hinner : ∀ body, directives [wrap body] = inner body)
    (hfill : ∀ body cs, cs.length = (inner body).length →
      fill [wrap body] cs = give (fillInner body cs))
    (before after : List Item) {body body' : List Item} (h : Opens inner fillInner d body body') :
    Opens directives fill d (before ++ wrap body :: after) (before ++ wrap body' :: after) := by
  have hopens : Opens directives fill d [wrap body] [wrap body'] := by
    obtain ⟨ds₁, ds₂, hds, hds', hsame⟩ := h
    refine ⟨ds₁, ds₂, by rw [hinner, hds], by rw [hinner, hds'], fun cs₁ cs₂ hcs₁ hcs₂ => ?_⟩
    rw [hfill _ _ (by simp [hds', hcs₁, hcs₂]), hfill _ _ (by simp [hds, hcs₁, hcs₂]),
      hsame cs₁ cs₂ hcs₁ hcs₂]
  simpa using hwise.opens_within before after hopens

theorem opens_component {items items' : List Item} (h : Inserts d items items') :
    Opens directivesInComponent fillComponent d items items' :=
  itemwise_component.opens_of_inserts rfl rfl rfl h

theorem opens_system {items items' : List Item} (h : InsertsInSystem d items items') :
    Opens directivesInSystem fillSystem d items items' := by
  cases h with
  | between h => exact itemwise_system.opens_of_inserts rfl rfl rfl h
  | @component head body body' before after h =>
    refine itemwise_system.opens_of_body (.component head)
      (fun body => ([.component head body], [])) (fun body => by simp [directivesInSystem])
      (fun body cs hcs => ?_) before after (opens_component h)
    simp [fillSystem, List.take_of_length_le (Nat.le_of_eq hcs)]

/-- **A directive that is put into a document is one more to be run**, and if it stands for nothing,
filling in gives the same. -/
theorem opens_body {items items' : List Item} (h : InsertsInBody d items items') :
    Opens directivesInBody fillBody d items items' := by
  cases h with
  | between h => exact itemwise_body.opens_of_inserts rfl rfl rfl h
  | @component head body body' before after h =>
    refine itemwise_body.opens_of_body (.component head)
      (fun body => [.component head body]) (fun body => by simp [directivesInBody])
      (fun body cs hcs => ?_) before after (opens_component h)
    simp [fillBody, List.take_of_length_le (Nat.le_of_eq hcs)]
  | @system head body body' before after h =>
    refine itemwise_body.opens_of_body (.system head)
      (fun body => body.2 ++ [.system head body.1])
      (fun body => by simp [directivesInBody]) (fun body cs hcs => ?_) before after (opens_system h)
    simp [fillBody, List.take_of_length_le (Nat.le_of_eq hcs)]

end Item

/-- A directive is put somewhere into a document. -/
def Document.Inserts (d : Inclusion) (document document' : Document) : Prop :=
  document'.loc = document.loc ∧ Item.InsertsInBody d document.body document'.body

/-! ## Directives without a file -/

namespace Workspace

variable {w : Workspace} {levels : Nat} {place : Place} {d : Inclusion} {s s' : Progress}
  {items : List Item}

/-- A diagnostic about a directive: it names the file with the directive, and the file that the
directive leads to or, for an absolute path, the path as it is written. -/
structure About (w : Workspace) (place : Place) (d : Inclusion) (e : Diagnostic) : Prop where
  includedFrom : e.includedFrom = some place.file
  file : e.file = (w.target place.file d).text ∨ isAbsolute d.path = true ∧ e.file = tidyPath d.path

theorem about_of_mem_suspicions {e : Diagnostic} (h : e ∈ w.suspicions place d) :
    w.About place d e := by
  obtain ⟨habsolute, rfl⟩ | ⟨-, rfl⟩ := mem_suspicions_iff.1 h
  · exact ⟨rfl, Or.inr ⟨habsolute, rfl⟩⟩
  · exact ⟨rfl, Or.inl rfl⟩

/-- A directive stands for nothing, loads nothing and is reported. -/
def LeadsNowhere (w : Workspace) (place : Place) (d : Inclusion) (s : Progress) (items : List Item)
    (s' : Progress) : Prop :=
  items = [] ∧ ∃ es, es ≠ [] ∧ (∀ e ∈ es, w.About place d e) ∧ s.Adds [] es s'

theorem LeadsNowhere.of_adds {e : Diagnostic} (hfrom : e.includedFrom = some place.file)
    (hfile : e.file = (w.target place.file d).text)
    (hadds : s.Adds [] (w.suspicions place d ++ [e]) s') : w.LeadsNowhere place d s [] s' := by
  refine ⟨rfl, _, by simp, fun e' he' => ?_, hadds⟩
  rcases List.mem_append.1 he' with he' | he'
  · exact about_of_mem_suspicions he'
  · rw [List.mem_singleton.1 he']
    exact ⟨hfrom, Or.inl hfile⟩

/-- **A directive without a file leads nowhere**, whichever of the ways to refuse it comes first.
That its file is loaded already is no excuse, unless it is on the way to the directive. -/
theorem leadsNowhere_of_expands (place : Place)
    (hfile : ∀ bytes, w.tree.find (w.target place.file d) ≠ .file bytes)
    (hknown : w.target place.file d ∈ s.files → w.target place.file d ∈ place.chain)
    (h : w.Expands levels place d s items s') : w.LeadsNowhere place d s items s' := by
  cases outcome_of_expands h with
  | tooDeep adds => exact .of_adds rfl rfl adds
  | circular _ adds => exact .of_adds rfl rfl adds
  -- a skip alone is silent, and `hknown` turns it into a cycle
  | skipped offChain known => exact absurd (hknown known) offChain
  | missing _ _ _ _ adds => exact .of_adds rfl rfl adds
  | refused _ _ isFile => exact absurd isFile (hfile _)
  | loaded _ _ isFile => exact absurd isFile (hfile _)

theorem exists_leadsNowhere (place : Place) (hname : w.Nameable d)
    (hfind : w.tree.find (w.target place.file d) ≠ .nameTooLong)
    (hfile : ∀ bytes, w.tree.find (w.target place.file d) ≠ .file bytes)
    (hknown : w.target place.file d ∈ s.files → w.target place.file d ∈ place.chain)
    (levels : Nat) : ∃ s', w.Expands levels place d s [] s' ∧ w.LeadsNowhere place d s [] s' := by
  obtain ⟨items, s', h⟩ : ∃ items s', w.Expands levels place d s items s' :=
    exists_expands_of_not_stuck (not_stuck hname hfind) fun _ _ _ _ henters =>
      absurd henters.isFile (not_exists.2 hfile)
  have hnowhere := leadsNowhere_of_expands place hfile hknown h
  obtain rfl := hnowhere.1
  exact ⟨s', h, hnowhere⟩

end Workspace

/-! ## The two runs -/

namespace Job

variable {j j' : Job} {d : Inclusion} {document document' : Document} {s s' t : Progress}
  {res res' : Resolution} {cs : List (List Item)} {ds₁ ds₂ : List Inclusion}

/-- Two resolutions of one project, which may differ in the text of the root file. -/
structure SameProject (j j' : Job) : Prop where
  resolver : j'.resolver = j.resolver
  parse : j'.parse = j.parse
  rootText : j'.origin.rootText = j.origin.rootText
  current : j'.tree.current = j.tree.current
  elsewhere : ∀ f, f ≠ j.root → j'.tree.find f = j.tree.find f

namespace SameProject

theorem root (h : j.SameProject j') : j'.root = j.root := by
  rw [Job.root, Job.root, h.rootText, h.current]

theorem symm (h : j.SameProject j') : j'.SameProject j where
  resolver := h.resolver.symm
  parse := h.parse.symm
  rootText := h.rootText.symm
  current := h.current.symm
  elsewhere f hf := (h.elsewhere f (h.root ▸ hf)).symm

theorem workspace (h : j.SameProject j') : j'.workspace = j.workspace.withTree j'.tree := by
  simp only [Job.workspace, Resolver.workspace, Workspace.withTree, h.resolver, h.parse, h.root]

theorem start (h : j.SameProject j') : j'.start = j.start := by
  rw [Job.start, Job.start, h.root]

theorem rootNameable (h : j.SameProject j') : j'.RootNameable ↔ j.RootNameable := by
  rw [RootNameable, RootNameable, h.rootText]

/-- The directives that the root files have in common go the same way. -/
theorem alike (h : j.SameProject j') (levels : Nat) (d : Inclusion) :
    Alike (j.workspace.expandDirective levels j.start d)
      (j'.workspace.expandDirective levels j'.start d) := by
  rw [h.workspace, h.start]
  refine j.workspace.alike_expandDirective j.root h.elsewhere levels ?_ d
  exact List.mem_singleton_self _

end SameProject

/-- A file that does not exist is loaded only if it is the root file, which is on the way to all of
its directives. -/
theorem mem_chain_of_mem_files (hyields : j.Yields res) (hsource : j.source? ≠ none)
    {files : List Path} (hsub : files ⊆ res.files) {f : Path} (hfile : f ≠ j.root → ¬ j.IsFile f)
    (hf : f ∈ files) : f ∈ j.start.chain := by
  by_cases hroot : f = j.root
  · exact hroot ▸ List.mem_singleton_self _
  · rcases (closed_of_ending (ending_of_yields hyields) hsource).reached f (hsub hf) with h | h
    · exact absurd h hroot
    · exact absurd h.1 (hfile hroot)

/-- The result of a resolution is that of another with diagnostics about a directive put in. -/
def OnlyReports (j' : Job) (d : Inclusion) (res res' : Resolution) : Prop :=
  res'.document = res.document ∧ res'.files = res.files ∧
    ∃ before new after, res.diagnostics = before ++ after ∧
      res'.diagnostics = before ++ new ++ after ∧ new ≠ [] ∧
      ∀ e ∈ new, j'.workspace.About j'.start d e

/-- A directive of the root file that can be looked up and whose file does not exist. -/
structure Dangles (j : Job) (d : Inclusion) : Prop where
  nameable : j.workspace.Nameable d
  lookup : j.tree.find (j.workspace.target j.root d) ≠ .nameTooLong
  noFile : ¬ j.IsFile (j.workspace.target j.root d)

section

variable (hproject : j.SameProject j') (hdocument : j.documentOf j.root = some document)
  (hdocument' : j'.documentOf j'.root = some document') (hinserts : document.Inserts d document')
  (hdangles : j'.Dangles d)

include hproject hdocument hdocument' hinserts hdangles

/-- The run without the directive shows what the run with it comes to. -/
theorem exists_yields_with (hyields : j.Yields res) :
    ∃ res', j'.Yields res' ∧ OnlyReports j' d res res' := by
  have hroot := rootNameable_of_yields hyields
  obtain ⟨text, hsource, hparsed⟩ := exists_source_of_documentOf_root hdocument
  obtain ⟨s, hopened⟩ := exists_opening hparsed
  obtain ⟨text', hsource', hparsed'⟩ := exists_source_of_documentOf_root hdocument'
  obtain ⟨t, hopened'⟩ := exists_opening hparsed'
  have hs := (of_opening_eq_some hopened).2
  have ht := (of_opening_eq_some hopened').2
  have hst : s.files = t.files := by rw [hs.files, ht.files, hproject.root]
  obtain ⟨hloc, hbody⟩ := hinserts
  obtain ⟨ds₁, ds₂, hds, hds', hfill⟩ := Item.opens_body hbody
  obtain ⟨cs, s', hruns, rfl⟩ := (yields_iff_of_opening hroot hsource hopened).1 hyields
  rw [Document.directives, hds] at hruns
  obtain ⟨cs₁, s₁, cs₂, rfl, hruns₁, hruns₂⟩ := Runs.append_iff.1 hruns
  -- up to the directive both runs go the same way
  obtain ⟨t₁, hruns₁', fs₁, es₁, left₁, right₁⟩ :=
    hruns₁.of_alike (hproject.alike j.resolver.levels) hst
  have hsame : s₁.files = t₁.files := by rw [left₁.files, right₁.files, hst]
  -- only files that exist are loaded, so a target that is known by now is the root
  have hknown : j'.workspace.target j'.root d ∈ t₁.files →
      j'.workspace.target j'.root d ∈ j'.start.chain := by
    intro hf
    rw [hproject.start]
    have hgrows := hruns₂.grows fun _ _ _ _ => Workspace.grows_of_expands
    refine mem_chain_of_mem_files hyields (by simp [hsource]) hgrows.files.subset ?_ (hsame ▸ hf)
    rintro hne ⟨bytes, hbytes⟩
    exact hdangles.noFile ⟨bytes, (hproject.elsewhere _ hne).trans hbytes⟩
  obtain ⟨t₂, hexpands, -, new, hnew, habout, hadds⟩ :=
    Workspace.exists_leadsNowhere j'.start hdangles.nameable hdangles.lookup
      (fun bytes hbytes => hdangles.noFile ⟨bytes, hbytes⟩) hknown j'.resolver.levels
  -- and so they do after it, for the directive loads nothing
  obtain ⟨t₃, hruns₂', fs₂, es₂, left₂, right₂⟩ :=
    hruns₂.of_alike (t := t₂) (hproject.alike j.resolver.levels)
      (by rw [hsame, hadds.files, List.append_nil])
  rw [← hproject.resolver] at hruns₁' hruns₂'
  have hruns' : Runs (j'.workspace.Expands j'.resolver.levels j'.start) document'.directives t
      (cs₁ ++ [] :: cs₂) t₃ := by
    rw [Document.directives, hds']
    exact Runs.append_iff.2 ⟨cs₁, t₁, [] :: cs₂, rfl, hruns₁', .cons hexpands hruns₂'⟩
  refine ⟨_, (yields_iff_of_opening (hproject.rootNameable.2 hroot) hsource' hopened').2
    ⟨_, t₃, hruns', rfl⟩, ?_, ?_, es₁, new, es₂, ?_, ?_, hnew, habout⟩
  · rw [hfill cs₁ cs₂ hruns₁.length_eq hruns₂.length_eq, hloc]
  · simp only [right₂.files, hadds.files, List.append_nil, left₂.files, hsame]
  · simp only [left₂.diagnostics, left₁.diagnostics, hs.diagnostics, List.nil_append]
  · simp only [right₂.diagnostics, hadds.diagnostics, right₁.diagnostics, ht.diagnostics,
      List.nil_append, List.append_assoc]

/-- The run with the directive shows that the run without it comes to something. -/
theorem exists_yields_without (hyields' : j'.Yields res') : ∃ res, j.Yields res := by
  have hroot' := rootNameable_of_yields hyields'
  obtain ⟨text, hsource, hparsed⟩ := exists_source_of_documentOf_root hdocument
  obtain ⟨s, hopened⟩ := exists_opening hparsed
  obtain ⟨text', hsource', hparsed'⟩ := exists_source_of_documentOf_root hdocument'
  obtain ⟨t, hopened'⟩ := exists_opening hparsed'
  have hs := (of_opening_eq_some hopened).2
  have ht := (of_opening_eq_some hopened').2
  have hst : s.files = t.files := by rw [hs.files, ht.files, hproject.root]
  -- the run is split at the directive, whose own part is left out
  obtain ⟨ds₁, ds₂, hds, hds', -⟩ := Item.opens_body hinserts.2
  obtain ⟨cs, t', hruns', rfl⟩ := (yields_iff_of_opening hroot' hsource' hopened').1 hyields'
  rw [Document.directives, hds'] at hruns'
  obtain ⟨cs₁, t₁, _, rfl, hruns₁', hruns'⟩ := Runs.append_iff.1 hruns'
  obtain ⟨items, t₂, cs₂, rfl, hexpands, hruns₂'⟩ := Runs.cons_iff.1 hruns'
  have halike := hproject.symm.alike
  obtain ⟨s₁, hruns₁, fs₁, es₁, left₁, right₁⟩ :=
    hruns₁'.of_alike (halike j'.resolver.levels) hst.symm
  have hknown : j'.workspace.target j'.root d ∈ t₁.files →
      j'.workspace.target j'.root d ∈ j'.start.chain := by
    have hgrows := hruns'.grows fun _ _ _ _ => Workspace.grows_of_expands
    exact mem_chain_of_mem_files hyields' (by simp [hsource']) hgrows.files.subset
      fun _ => hdangles.noFile
  obtain ⟨-, new, -, -, hadds⟩ := Workspace.leadsNowhere_of_expands j'.start
    (fun bytes hbytes => hdangles.noFile ⟨bytes, hbytes⟩) hknown hexpands
  have hsame : t₂.files = s₁.files := by
    rw [hadds.files, left₁.files, right₁.files, hst, List.append_nil]
  obtain ⟨s₂, hruns₂, -⟩ := hruns₂'.of_alike (halike j'.resolver.levels) hsame
  rw [hproject.resolver] at hruns₁ hruns₂
  have hruns : Runs (j.workspace.Expands j.resolver.levels j.start) document.directives s
      (cs₁ ++ cs₂) s₂ := by
    rw [Document.directives, hds]
    exact Runs.append_iff.2 ⟨cs₁, s₁, cs₂, rfl, hruns₁, hruns₂⟩
  exact ⟨_, (yields_iff_of_opening (hproject.rootNameable.1 hroot') hsource hopened).2
    ⟨_, s₂, hruns, rfl⟩⟩

end

/-- **A directive without a file changes nothing but the diagnostics.** Take two resolutions of one
project, where the root file of the second has one more directive, between the items of the
document, of a system or of a component. If the path of the directive can be looked up and no file
stands there, then the second comes to a result if and only if the first does. The two results have
the same document and the same files, and the diagnostics of the second are those of the first with
one or more about the directive in between, all at one place. -/
theorem dangling_include_only_reports (j j' : Job) (d : Inclusion) (document document' : Document)
    (hproject : j.SameProject j') (hdocument : j.documentOf j.root = some document)
    (hdocument' : j'.documentOf j'.root = some document') (hinserts : document.Inserts d document')
    (hnameable : j'.workspace.Nameable d)
    (hlookup : j'.tree.find (j'.workspace.target j'.root d) ≠ .nameTooLong)
    (hnoFile : ¬ j'.IsFile (j'.workspace.target j'.root d)) :
    ((∃ res, j.Yields res) ↔ ∃ res', j'.Yields res') ∧
    ∀ res res', j.Yields res → j'.Yields res' →
      res'.document = res.document ∧ res'.files = res.files ∧
      ∃ before new after, res.diagnostics = before ++ after ∧
        res'.diagnostics = before ++ new ++ after ∧ new ≠ [] ∧
        ∀ e ∈ new, j'.workspace.About j'.start d e := by
  have hdangles : j'.Dangles d := ⟨hnameable, hlookup, hnoFile⟩
  have hwith := fun res (hyields : j.Yields res) =>
    exists_yields_with hproject hdocument hdocument' hinserts hdangles hyields
  refine ⟨⟨?_, ?_⟩, ?_⟩
  · rintro ⟨res, hyields⟩
    obtain ⟨res', hyields', -⟩ := hwith res hyields
    exact ⟨res', hyields'⟩
  · rintro ⟨res', hyields'⟩
    exact exists_yields_without hproject hdocument hdocument' hinserts hdangles hyields'
  · intro res res' hyields hyields'
    obtain ⟨res'', hyields'', hreports⟩ := hwith res hyields
    -- a resolution comes to one result only
    rw [yields_iff] at hyields' hyields''
    obtain rfl : res'' = res' := Option.some.inj (hyields''.symm.trans hyields')
    exact hreports

/-- The root document of a harbour: a system that includes the quay and has a crane. -/
def harbourDocument (crane : List Item) : Document where
  body := [.system ⟨none, "Harbour", []⟩
    [sampleDirective "quay", .component ⟨none, "Crane", none, [], []⟩ crane],
    sampleDirective "gone"]

/-- A harbour whose root file is saved. The parser knows a draft of it too, where the crane includes
a file far away that does not exist. -/
def harbour : Job where
  resolver := {}
  tree := sampleTree ["main", "quay", "rope"]
  parse source path :=
    match source with
    | "main" => .ok (harbourDocument [sampleDirective "rope"])
    | "draft" => .ok (harbourDocument [sampleDirective "/far/away", sampleDirective "rope"])
    | "quay" => .ok { body := [.construct (.secret ⟨none, "key", []⟩)] }
    | "rope" => .ok { body := [.construct (.secret ⟨none, "knot", []⟩), sampleDirective "main"] }
    | _ => .error (.refused ⟨path, "Expecting value", some (1, 1)⟩)
  origin := .file "main.mfd"

/-- The harbour with the draft in the place of the saved file. -/
def harbourDraft : Job := { harbour with origin := .source "draft" "main.mfd" }

/-- In the harbour, the file far away adds to the diagnostics and to nothing else. -/
theorem harbour_dangling :
    harbour.SameProject harbourDraft ∧ ¬ harbourDraft.IsFile (.mk ["far", "away.mfd"]) ∧
      ∃ res res', harbour.Yields res ∧ harbourDraft.Yields res' ∧
        res'.document = res.document ∧ res'.files = res.files ∧
        ∃ before new after, res.diagnostics = before ++ after ∧
          res'.diagnostics = before ++ new ++ after ∧ new ≠ [] ∧
          ∀ e ∈ new, harbourDraft.workspace.About harbourDraft.start ⟨none, "/far/away"⟩ e := by
  have hproject : harbour.SameProject harbourDraft := ⟨rfl, rfl, rfl, rfl, fun _ _ => rfl⟩
  have hmissing : harbourDraft.tree.find (.mk ["far", "away.mfd"]) = .missing := by decide +kernel
  have htarget : harbourDraft.workspace.target harbourDraft.root ⟨none, "/far/away"⟩ =
      (.mk ["far", "away.mfd"]) := by decide +kernel
  have hnoFile : ¬ harbourDraft.IsFile (.mk ["far", "away.mfd"]) := by
    rintro ⟨bytes, hbytes⟩
    cases hmissing.symm.trans hbytes
  have hsource : harbour.source? = some "main" := by decide +kernel
  have hsource' : harbourDraft.source? = some "draft" := rfl
  have hinserts : (harbourDocument [sampleDirective "rope"]).Inserts ⟨none, "/far/away"⟩
      (harbourDocument [sampleDirective "/far/away", sampleDirective "rope"]) :=
    ⟨rfl, .system [] [sampleDirective "gone"]
      (.component [sampleDirective "quay"] [] ⟨[], [sampleDirective "rope"], rfl, rfl⟩)⟩
  obtain ⟨hexists, hsame⟩ := dangling_include_only_reports harbour harbourDraft ⟨none, "/far/away"⟩
    _ _ hproject (documentOf_root_eq_some hsource rfl)
    (documentOf_root_eq_some hsource' rfl) hinserts (by decide +kernel)
    (by rw [htarget, hmissing]; exact nofun) (by rwa [htarget])
  have hyields : ∃ res, harbour.Yields res := by
    have hsome : harbour.result?.isSome = true := by decide +kernel
    obtain ⟨res, hres⟩ := Option.isSome_iff_exists.1 hsome
    exact ⟨res, yields_iff.2 hres⟩
  obtain ⟨res', hyields'⟩ := hexists.1 hyields
  obtain ⟨res, hyields⟩ := hyields
  exact ⟨hproject, hnoFile, res, res', hyields, hyields', hsame res res' hyields hyields'⟩

end Job

end Blueprint
