import Blueprint.Resolution.Basic

/-!
# What becomes of the items of a file

The items of a file are expanded in three ways, depending on where they stand: in the document, in a
system or in a component. All three do the same two things. They run the include directives from
left to right, and they put what the directives stand for among the items that are there already.
The two are kept apart here, so that what a resolution does to its progress can be studied without
the items, and what it does to the items without the progress.

- `Document.directives`: the include directives of a document, in the order in which they are run.
- `Runs`: directives that are run one after the other.
- `Item.fillBody`: the items of a document, given what its directives stand for.
- `expandBody_eq_ok_iff`: an expansion is a run of the directives followed by filling in.
-/

namespace Blueprint

/-! ## Steps of a resolution -/

namespace Resolve

variable {α β : Type} {s s' : Progress}

/-- Two steps come to something when the first does and the second does from there. -/
theorem bind_eq_ok_iff {x : Resolve α} {f : α → Resolve β} {b : β} :
    (x >>= f) s = .ok b s' ↔ ∃ a s₁, x s = .ok a s₁ ∧ f a s₁ = .ok b s' := by
  show EStateM.bind x f s = .ok b s' ↔ _
  unfold EStateM.bind
  cases x s with
  | ok a s₁ => exact ⟨fun h => ⟨a, s₁, rfl, h⟩, fun ⟨_, _, h, hf⟩ => by cases h; exact hf⟩
  | error e s₁ => exact ⟨nofun, fun ⟨_, _, h, _⟩ => nomatch h⟩

/-- Two steps come to something when the second does from where the first one leads. -/
theorem exists_ok_bind {x : Resolve α} {f : α → Resolve β} {a : α} (hx : x s = .ok a s')
    (hf : ∃ b s'', f a s' = .ok b s'') : ∃ b s'', (x >>= f) s = .ok b s'' := by
  obtain ⟨b, s'', h⟩ := hf
  exact ⟨b, s'', bind_eq_ok_iff.2 ⟨a, s', hx, h⟩⟩

theorem pure_eq_ok_iff {a b : α} : (pure a : Resolve α) s = .ok b s' ↔ a = b ∧ s = s' := by
  show EStateM.Result.ok a s = .ok b s' ↔ _
  simp

end Resolve

/-! ## Directives -/

namespace Item

/-- The include directives among the items of a component. -/
def directivesInComponent : List Item → List Inclusion
  | [] => []
  | .inclusion d :: rest => d :: directivesInComponent rest
  | _ :: rest => directivesInComponent rest

/-- The include directives of a system: those among its items and those of its components. -/
def directivesInSystem : List Item → List Inclusion
  | [] => []
  | .inclusion d :: rest => d :: directivesInSystem rest
  | .component _ body :: rest => directivesInComponent body ++ directivesInSystem rest
  | _ :: rest => directivesInSystem rest

/-- The include directives of the items of a document: those among them, and those of systems and
components. -/
def directivesInBody : List Item → List Inclusion
  | [] => []
  | .system _ body :: rest => directivesInSystem body ++ directivesInBody rest
  | .component _ body :: rest => directivesInComponent body ++ directivesInBody rest
  | .inclusion d :: rest => d :: directivesInBody rest
  | _ :: rest => directivesInBody rest

end Item

/-- The include directives of a document, wherever they stand, in order. -/
def Document.directives (d : Document) : List Inclusion := Item.directivesInBody d.body

/-! ## Running directives -/

/-- Directives that are run one after the other: what each stands for, and how far the resolution
has come. `step` says what a single directive may come to. -/
inductive Runs (step : Inclusion → Progress → List Item → Progress → Prop) :
    List Inclusion → Progress → List (List Item) → Progress → Prop
  | nil (s : Progress) : Runs step [] s [] s
  | cons {d : Inclusion} {ds : List Inclusion} {s s₁ s' : Progress} {items : List Item}
      {rest : List (List Item)} (first : step d s items s₁) (others : Runs step ds s₁ rest s') :
      Runs step (d :: ds) s (items :: rest) s'

namespace Runs

variable {step step' : Inclusion → Progress → List Item → Progress → Prop} {d : Inclusion}
  {ds ds' : List Inclusion} {s s' : Progress} {cs : List (List Item)}

theorem nil_iff : Runs step [] s cs s' ↔ cs = [] ∧ s = s' := by
  constructor
  · rintro ⟨⟩
    exact ⟨rfl, rfl⟩
  · rintro ⟨rfl, rfl⟩
    exact .nil s

theorem cons_iff :
    Runs step (d :: ds) s cs s' ↔
      ∃ items s₁ rest, cs = items :: rest ∧ step d s items s₁ ∧ Runs step ds s₁ rest s' := by
  constructor
  · rintro (_ | ⟨first, others⟩)
    exact ⟨_, _, _, rfl, first, others⟩
  · rintro ⟨items, s₁, rest, rfl, first, others⟩
    exact .cons first others

theorem append_iff :
    Runs step (ds ++ ds') s cs s' ↔
      ∃ cs₁ s₁ cs₂, cs = cs₁ ++ cs₂ ∧ Runs step ds s cs₁ s₁ ∧ Runs step ds' s₁ cs₂ s' := by
  constructor
  · intro h
    induction ds generalizing s cs with
    | nil => exact ⟨[], s, cs, rfl, .nil s, h⟩
    | cons d ds ih =>
      obtain ⟨items, s₁, rest, rfl, first, others⟩ := cons_iff.1 h
      -- contents are cut where the directives are
      obtain ⟨cs₁, s₂, cs₂, rfl, h₁, h₂⟩ := ih others
      exact ⟨items :: cs₁, s₂, cs₂, rfl, .cons first h₁, h₂⟩
  · rintro ⟨cs₁, s₁, cs₂, rfl, h₁, h₂⟩
    induction h₁ with
    | nil _ => exact h₂
    | cons first _ ih => exact .cons first (ih h₂)

/-- Every directive stands for one list of items. -/
theorem length_eq (h : Runs step ds s cs s') : cs.length = ds.length := by
  induction h with
  | nil _ => rfl
  | cons _ _ ih => simp [ih]

/-- What holds of every directive of a list holds of it when the list is run. -/
theorem imp (h : Runs step ds s cs s')
    (hstep : ∀ d ∈ ds, ∀ s items s', step d s items s' → step' d s items s') :
    Runs step' ds s cs s' := by
  induction h with
  | nil s => exact .nil s
  | cons first _ ih =>
    exact .cons (hstep _ List.mem_cons_self _ _ _ first)
      (ih fun d hd => hstep d (List.mem_cons_of_mem _ hd))

/-- A list can be run when each of its directives can, and leaves things so that the next one
can. -/
theorem exists_of_forall {I : Progress → Prop}
    (hstep : ∀ d ∈ ds, ∀ s, I s → ∃ items s', step d s items s' ∧ I s') (hs : I s) :
    ∃ cs s', Runs step ds s cs s' ∧ I s' := by
  induction ds generalizing s with
  | nil => exact ⟨[], s, .nil s, hs⟩
  | cons d ds ih =>
    obtain ⟨items, s₁, first, hs₁⟩ := hstep d List.mem_cons_self s hs
    obtain ⟨cs, s', others, hs'⟩ := ih (fun d' hd' => hstep d' (List.mem_cons_of_mem _ hd')) hs₁
    exact ⟨items :: cs, s', .cons first others, hs'⟩

end Runs

/-- The steps of a function that says what a directive stands for. -/
def Answers (expand : Inclusion → Resolve (List Item)) (d : Inclusion) (s : Progress)
    (items : List Item) (s' : Progress) : Prop :=
  expand d s = .ok items s'

/-! ## Putting contents in the place of directives -/

namespace Item

/-- A component whose directives stand for the given lists of items, in order. -/
def fillComponent : List Item → List (List Item) → List Item
  | [], _ => []
  | .inclusion _ :: rest, cs => cs.headD [] ++ fillComponent rest cs.tail
  | i :: rest, cs => i :: fillComponent rest cs

/-- A system whose directives stand for the given lists of items: what it holds, and what comes to
stand before it. -/
def fillSystem : List Item → List (List Item) → List Item × List Item
  | [], _ => ([], [])
  | .inclusion _ :: rest, cs =>
    let items := cs.headD []
    let (kept, hoisted) := fillSystem rest cs.tail
    (items.filter fitsSystem ++ kept, items.filter (fun i => !fitsSystem i) ++ hoisted)
  | .component head body :: rest, cs =>
    let n := (directivesInComponent body).length
    let (kept, hoisted) := fillSystem rest (cs.drop n)
    (.component head (fillComponent body (cs.take n)) :: kept, hoisted)
  | i :: rest, cs =>
    let (kept, hoisted) := fillSystem rest cs
    (i :: kept, hoisted)

/-- The items of a document whose directives stand for the given lists of items. -/
def fillBody : List Item → List (List Item) → List Item
  | [], _ => []
  | .system head body :: rest, cs =>
    let n := (directivesInSystem body).length
    let (kept, hoisted) := fillSystem body (cs.take n)
    hoisted ++ .system head kept :: fillBody rest (cs.drop n)
  | .component head body :: rest, cs =>
    let n := (directivesInComponent body).length
    .component head (fillComponent body (cs.take n)) :: fillBody rest (cs.drop n)
  | .inclusion _ :: rest, cs => cs.headD [] ++ fillBody rest cs.tail
  | i :: rest, cs => i :: fillBody rest cs

end Item

/-! ## Expansions run directives and fill in their contents -/

section

open Item Resolve

variable {expand : Inclusion → Resolve (List Item)} {s s' : Progress}

theorem expandComponent_eq_ok_iff {items out : List Item} :
    expandComponent expand items s = .ok out s' ↔
      ∃ cs, Runs (Answers expand) (directivesInComponent items) s cs s' ∧
        fillComponent items cs = out := by
  induction items generalizing s s' out with
  | nil =>
    simp [expandComponent, pure_eq_ok_iff, directivesInComponent, Runs.nil_iff, fillComponent,
      and_comm]
  | cons i rest ih =>
    cases i with
    | inclusion d =>
      simp only [expandComponent, bind_eq_ok_iff, pure_eq_ok_iff, ih, directivesInComponent,
        Runs.cons_iff]
      constructor
      · -- the directive takes the first content and leaves the others to the rest
        rintro ⟨c, s₁, hd, _, s₂, ⟨cs, hruns, rfl⟩, rfl, rfl⟩
        exact ⟨c :: cs, ⟨c, s₁, cs, rfl, hd, hruns⟩, rfl⟩
      · rintro ⟨_, ⟨c, s₁, cs, rfl, hd, hruns⟩, rfl⟩
        exact ⟨c, s₁, hd, _, s', ⟨cs, hruns, rfl⟩, rfl, rfl⟩
    | _ =>
      simp only [expandComponent, bind_eq_ok_iff, pure_eq_ok_iff, ih, directivesInComponent]
      constructor
      · rintro ⟨_, s₁, ⟨cs, hruns, rfl⟩, rfl, rfl⟩
        exact ⟨cs, hruns, rfl⟩
      · rintro ⟨cs, hruns, rfl⟩
        exact ⟨_, s', ⟨cs, hruns, rfl⟩, rfl, rfl⟩

theorem expandSystem_eq_ok_iff {items : List Item} {out : List Item × List Item} :
    expandSystem expand items s = .ok out s' ↔
      ∃ cs, Runs (Answers expand) (directivesInSystem items) s cs s' ∧
        fillSystem items cs = out := by
  induction items generalizing s s' out with
  | nil =>
    simp [expandSystem, pure_eq_ok_iff, directivesInSystem, Runs.nil_iff, fillSystem, and_comm]
  | cons i rest ih =>
    cases i with
    | inclusion d =>
      simp only [expandSystem, bind_eq_ok_iff, pure_eq_ok_iff, ih, directivesInSystem,
        Runs.cons_iff]
      constructor
      · rintro ⟨c, s₁, hd, _, s₂, ⟨cs, hruns, rfl⟩, rfl, rfl⟩
        exact ⟨c :: cs, ⟨c, s₁, cs, rfl, hd, hruns⟩, rfl⟩
      · rintro ⟨_, ⟨c, s₁, cs, rfl, hd, hruns⟩, rfl⟩
        exact ⟨c, s₁, hd, _, s', ⟨cs, hruns, rfl⟩, rfl, rfl⟩
    | component head body =>
      simp only [expandSystem, bind_eq_ok_iff, pure_eq_ok_iff, ih, expandComponent_eq_ok_iff,
        directivesInSystem, Runs.append_iff]
      constructor
      · rintro ⟨_, s₁, ⟨cs₁, hbody, rfl⟩, _, s₂, ⟨cs₂, hrest, rfl⟩, rfl, rfl⟩
        refine ⟨cs₁ ++ cs₂, ⟨cs₁, s₁, cs₂, rfl, hbody, hrest⟩, ?_⟩
        -- a component takes as many contents as it has directives
        rw [fillSystem, List.take_left' hbody.length_eq, List.drop_left' hbody.length_eq]
      · rintro ⟨_, ⟨cs₁, s₁, cs₂, rfl, hbody, hrest⟩, rfl⟩
        refine ⟨_, s₁, ⟨cs₁, hbody, rfl⟩, _, s', ⟨cs₂, hrest, rfl⟩, ?_, rfl⟩
        rw [fillSystem, List.take_left' hbody.length_eq, List.drop_left' hbody.length_eq]
    | _ =>
      simp only [expandSystem, bind_eq_ok_iff, pure_eq_ok_iff, ih, directivesInSystem]
      constructor
      · rintro ⟨_, s₁, ⟨cs, hruns, rfl⟩, rfl, rfl⟩
        exact ⟨cs, hruns, rfl⟩
      · rintro ⟨cs, hruns, rfl⟩
        exact ⟨_, s', ⟨cs, hruns, rfl⟩, rfl, rfl⟩

/-- **An expansion runs the directives of a document in order and fills in what they stand for.** -/
theorem expandBody_eq_ok_iff {items out : List Item} :
    expandBody expand items s = .ok out s' ↔
      ∃ cs, Runs (Answers expand) (directivesInBody items) s cs s' ∧ fillBody items cs = out := by
  induction items generalizing s s' out with
  | nil => simp [expandBody, pure_eq_ok_iff, directivesInBody, Runs.nil_iff, fillBody, and_comm]
  | cons i rest ih =>
    cases i with
    | system head body =>
      simp only [expandBody, bind_eq_ok_iff, pure_eq_ok_iff, ih, expandSystem_eq_ok_iff,
        directivesInBody, Runs.append_iff]
      constructor
      · rintro ⟨_, s₁, ⟨cs₁, hbody, rfl⟩, _, s₂, ⟨cs₂, hrest, rfl⟩, rfl, rfl⟩
        refine ⟨cs₁ ++ cs₂, ⟨cs₁, s₁, cs₂, rfl, hbody, hrest⟩, ?_⟩
        rw [fillBody, List.take_left' hbody.length_eq, List.drop_left' hbody.length_eq]
      · rintro ⟨_, ⟨cs₁, s₁, cs₂, rfl, hbody, hrest⟩, rfl⟩
        refine ⟨_, s₁, ⟨cs₁, hbody, rfl⟩, _, s', ⟨cs₂, hrest, rfl⟩, ?_, rfl⟩
        rw [fillBody, List.take_left' hbody.length_eq, List.drop_left' hbody.length_eq]
    | component head body =>
      simp only [expandBody, bind_eq_ok_iff, pure_eq_ok_iff, ih, expandComponent_eq_ok_iff,
        directivesInBody, Runs.append_iff]
      constructor
      · rintro ⟨_, s₁, ⟨cs₁, hbody, rfl⟩, _, s₂, ⟨cs₂, hrest, rfl⟩, rfl, rfl⟩
        refine ⟨cs₁ ++ cs₂, ⟨cs₁, s₁, cs₂, rfl, hbody, hrest⟩, ?_⟩
        rw [fillBody, List.take_left' hbody.length_eq, List.drop_left' hbody.length_eq]
      · rintro ⟨_, ⟨cs₁, s₁, cs₂, rfl, hbody, hrest⟩, rfl⟩
        refine ⟨_, s₁, ⟨cs₁, hbody, rfl⟩, _, s', ⟨cs₂, hrest, rfl⟩, ?_, rfl⟩
        rw [fillBody, List.take_left' hbody.length_eq, List.drop_left' hbody.length_eq]
    | inclusion d =>
      simp only [expandBody, bind_eq_ok_iff, pure_eq_ok_iff, ih, directivesInBody, Runs.cons_iff]
      constructor
      · rintro ⟨c, s₁, hd, _, s₂, ⟨cs, hruns, rfl⟩, rfl, rfl⟩
        exact ⟨c :: cs, ⟨c, s₁, cs, rfl, hd, hruns⟩, rfl⟩
      · rintro ⟨_, ⟨c, s₁, cs, rfl, hd, hruns⟩, rfl⟩
        exact ⟨c, s₁, hd, _, s', ⟨cs, hruns, rfl⟩, rfl, rfl⟩
    | _ =>
      simp only [expandBody, bind_eq_ok_iff, pure_eq_ok_iff, ih, directivesInBody]
      constructor
      · rintro ⟨_, s₁, ⟨cs, hruns, rfl⟩, rfl, rfl⟩
        exact ⟨cs, hruns, rfl⟩
      · rintro ⟨cs, hruns, rfl⟩
        exact ⟨_, s', ⟨cs, hruns, rfl⟩, rfl, rfl⟩

end

end Blueprint
