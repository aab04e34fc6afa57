import Mathlib.Algebra.Order.Group.Multiset
import Mathlib.Tactic.Abel
import Blueprint.Proofs.Model.Collection
import Blueprint.Proofs.Resolution.Closure

/-!
# What a resolution merges

A resolution moves items about. What a directive stands for is put in its place, and in a system
some of it comes to stand before the system. Files are passed over, cut off or refused. Through all
of this, every item of every file that was loaded is kept, once.

- `Item.content`: the items of a list and all items in them, without order and without directives.
- `Item.content_fillBody`: filling in adds what is filled in.
- `Job.held`: the content of the documents of a list of files.
- `Job.held_of_expands`, `Job.held_of_runs`: a directive stands for the content of the files that
  are loaded for it.
- `Job.content_conserved`: the merged document has the content of the loaded files.
-/

namespace Blueprint

/-! ## Content -/

namespace Item

/-- An item without the items in it. -/
def shell : Item → Item
  | system head _ => system head []
  | component head _ => component head []
  | i => i

/-- Whether an item is an include directive. -/
def isInclusion : Item → Bool
  | inclusion _ => true
  | _ => false

/-- The items of a list and all items in them, include directives left out. -/
def content (items : List Item) : Multiset Item :=
  ↑(((preorderAll items).filter fun i => !i.isInclusion).map shell)

@[simp] theorem content_nil : content [] = 0 := rfl

@[simp] theorem content_append (xs ys : List Item) :
    content (xs ++ ys) = content xs + content ys := by
  simp [content, preorderAll_eq_flatMap]

theorem content_cons (i : Item) (rest : List Item) :
    content (i :: rest) = content [i] + content rest :=
  content_append [i] rest

@[simp] theorem content_inclusion (d : Inclusion) : content [.inclusion d] = 0 := by
  simp [content, preorderAll, preorder, isInclusion]

theorem content_system (head : SystemHead) (body : List Item) :
    content [.system head body] = {.system head []} + content body := by
  simp [content, preorderAll, preorder, isInclusion, shell]

theorem content_component (head : ComponentHead) (body : List Item) :
    content [.component head body] = {.component head []} + content body := by
  simp [content, preorderAll, preorder, isInclusion, shell]

/-- The order of the items does not matter. -/
theorem content_perm {xs ys : List Item} (h : xs.Perm ys) : content xs = content ys := by
  rw [content, content, preorderAll_eq_flatMap, preorderAll_eq_flatMap]
  exact Multiset.coe_eq_coe.2 (((h.flatMap_right preorder).filter _).map shell)

/-- Sorting items into two lists keeps their content. -/
theorem content_filter_add (p : Item → Bool) (items : List Item) :
    content (items.filter p) + content (items.filter fun i => !p i) = content items := by
  rw [← content_append]
  exact content_perm (List.filter_append_perm p items)

/-- The content of several lists of items. -/
def contents (cs : List (List Item)) : Multiset Item := (cs.map content).sum

@[simp] theorem contents_nil : contents [] = 0 := rfl

@[simp] theorem contents_cons (c : List Item) (cs : List (List Item)) :
    contents (c :: cs) = content c + contents cs := by
  simp [contents]

theorem contents_take_add_drop (n : Nat) (cs : List (List Item)) :
    contents (cs.take n) + contents (cs.drop n) = contents cs := by
  unfold contents
  rw [← List.sum_append, ← List.map_append, List.take_append_drop]

/-! ## Filling in -/

variable {items : List Item} {cs : List (List Item)}

theorem content_fillComponent (h : cs.length = (directivesInComponent items).length) :
    content (fillComponent items cs) = content items + contents cs := by
  induction items generalizing cs with
  | nil =>
    obtain rfl := List.length_eq_zero_iff.1 h
    rfl
  | cons i rest ih =>
    cases i with
    | inclusion d =>
      -- the directive itself is no content, and its own content comes in its place
      obtain ⟨c, cs, rfl⟩ := List.exists_cons_of_length_eq_add_one h
      have hrest := ih (Nat.succ.inj h)
      show content (c ++ fillComponent rest cs) = _
      rw [content_append, hrest, content_cons, content_inclusion, contents_cons]
      abel
    | _ =>
      have hrest := ih h
      show content (_ :: fillComponent rest cs) = _
      rw [content_cons, hrest, content_cons _ rest, add_assoc]

/-- What a system holds and what comes to stand before it are its own items and what is filled
in. -/
theorem content_fillSystem (h : cs.length = (directivesInSystem items).length) :
    content (fillSystem items cs).2 + content (fillSystem items cs).1 =
      content items + contents cs := by
  induction items generalizing cs with
  | nil =>
    obtain rfl := List.length_eq_zero_iff.1 h
    rfl
  | cons i rest ih =>
    cases i with
    | inclusion d =>
      obtain ⟨c, cs, rfl⟩ := List.exists_cons_of_length_eq_add_one h
      have hrest := ih (Nat.succ.inj h)
      -- what fits stays in the system and the rest comes before it: nothing is dropped
      have hsorted := content_filter_add fitsSystem c
      show content (c.filter (fun i => !fitsSystem i) ++ (fillSystem rest cs).2) +
        content (c.filter fitsSystem ++ (fillSystem rest cs).1) = _
      rw [content_append, content_append, content_cons, content_inclusion, contents_cons,
        ← hsorted, zero_add, add_left_comm (content rest), ← hrest]
      abel
    | component head body =>
      -- the first contents belong to the directives of the component, the others to what follows
      rw [directivesInSystem, List.length_append] at h
      generalize hn : (directivesInComponent body).length = n at h
      have hbody : content (fillComponent body (cs.take n)) =
          content body + contents (cs.take n) :=
        content_fillComponent (by rw [List.length_take]; omega)
      have hrest := ih (show (cs.drop n).length = _ by rw [List.length_drop]; omega)
      rw [fillSystem, hn]
      show content (fillSystem rest (cs.drop n)).2 +
        content (.component head (fillComponent body (cs.take n)) ::
          (fillSystem rest (cs.drop n)).1) = _
      rw [content_cons, content_component, hbody, add_left_comm, hrest, content_cons _ rest,
        content_component, ← contents_take_add_drop n cs]
      abel
    | _ =>
      have hrest := ih h
      show content (fillSystem rest cs).2 + content (_ :: (fillSystem rest cs).1) = _
      rw [content_cons, add_left_comm, hrest, content_cons _ rest, add_assoc]

/-- **Filling in adds what is filled in, and nothing else.** -/
theorem content_fillBody (h : cs.length = (directivesInBody items).length) :
    content (fillBody items cs) = content items + contents cs := by
  induction items generalizing cs with
  | nil =>
    obtain rfl := List.length_eq_zero_iff.1 h
    rfl
  | cons i rest ih =>
    cases i with
    | system head body =>
      rw [directivesInBody, List.length_append] at h
      generalize hn : (directivesInSystem body).length = n at h
      have hbody : content (fillSystem body (cs.take n)).2 +
          content (fillSystem body (cs.take n)).1 = content body + contents (cs.take n) :=
        content_fillSystem (by rw [List.length_take]; omega)
      have hrest := ih (show (cs.drop n).length = _ by rw [List.length_drop]; omega)
      rw [fillBody, hn]
      show content ((fillSystem body (cs.take n)).2 ++
        .system head (fillSystem body (cs.take n)).1 :: fillBody rest (cs.drop n)) = _
      rw [content_append, content_cons, content_system, hrest, add_assoc {_}, add_left_comm,
        ← add_assoc (content _) (content _), hbody, content_cons _ rest, content_system,
        ← contents_take_add_drop n cs]
      abel
    | component head body =>
      rw [directivesInBody, List.length_append] at h
      generalize hn : (directivesInComponent body).length = n at h
      have hbody : content (fillComponent body (cs.take n)) =
          content body + contents (cs.take n) :=
        content_fillComponent (by rw [List.length_take]; omega)
      have hrest := ih (show (cs.drop n).length = _ by rw [List.length_drop]; omega)
      rw [fillBody, hn, content_cons, content_component, hbody, hrest, content_cons _ rest,
        content_component, ← contents_take_add_drop n cs]
      abel
    | inclusion d =>
      obtain ⟨c, cs, rfl⟩ := List.exists_cons_of_length_eq_add_one h
      have hrest := ih (Nat.succ.inj h)
      show content (c ++ fillBody rest cs) = _
      rw [content_append, hrest, content_cons, content_inclusion, contents_cons]
      abel
    | _ =>
      have hrest := ih h
      show content (_ :: fillBody rest cs) = _
      rw [content_cons, hrest, content_cons _ rest, add_assoc]

end Item

/-- The content of a document. -/
def Document.content (d : Document) : Multiset Item := Item.content d.body

/-! ## Content of files -/

namespace Job

open Item

variable {j : Job} {place : Place} {s s' : Progress}

/-- The content of the document of a file. A file that cannot be read and parsed has none. -/
def contentOf (j : Job) (f : Path) : Multiset Item := (j.documentOf f).elim 0 Document.content

/-- The content of the documents of files. -/
def held (j : Job) (files : List Path) : Multiset Item := (files.map j.contentOf).sum

theorem held_append (j : Job) (fs gs : List Path) : j.held (fs ++ gs) = j.held fs + j.held gs := by
  unfold held
  rw [List.map_append, List.sum_append]

theorem held_singleton (j : Job) (f : Path) : j.held [f] = j.contentOf f := by
  simp [held]

theorem contentOf_of_some {f : Path} {document : Document} (h : j.documentOf f = some document) :
    j.contentOf f = content document.body := by
  simp [contentOf, h, Document.content]

theorem contentOf_of_none {f : Path} (h : j.documentOf f = none) : j.contentOf f = 0 := by
  simp [contentOf, h]

/-- A directive that loads nothing stands for nothing. -/
theorem held_of_adds_nil {ds : List Diagnostic} (h : s.Adds [] ds s') :
    j.held s'.files = j.held s.files + content [] := by
  rw [h.files, List.append_nil, content_nil, add_zero]

theorem held_of_adds {f : Path} {ds : List Diagnostic} (h : s.Adds [f] ds s') :
    j.held s'.files = j.held s.files + j.contentOf f := by
  rw [h.files, held_append, held_singleton]

/-- The run: directives stand for the content of the files loaded for them. -/
theorem held_of_runs {ds : List Inclusion} {cs : List (List Item)}
    (h : Runs (fun _ s items s' => s.Grows s' ∧
      j.held s'.files = j.held s.files + content items) ds s cs s') :
    j.held s'.files = j.held s.files + contents cs := by
  induction h with
  | nil s => rw [contents_nil, add_zero]
  | cons first _ ih => rw [ih, first.2, contents_cons, add_assoc]

/-- **The step: a directive stands for the content of the files loaded for it.** -/
theorem held_of_expands {levels : Nat} {d : Inclusion} {items : List Item}
    (hunder : j.Under place s) (hd : d ∈ j.directivesOf place.file)
    (h : j.workspace.Expands levels place d s items s') :
    j.held s'.files = j.held s.files + content items := by
  refine expands_induct (P := fun _ _ _ s items s' =>
    j.held s'.files = j.held s.files + content items) ?_ hunder hd h
  intro levels place d s items s' hunder hd h
  cases h with
  | tooDeep adds => exact held_of_adds_nil adds
  | circular _ adds => exact held_of_adds_nil adds
  | skipped _ _ adds => exact held_of_adds_nil adds
  | missing _ _ _ _ adds => exact held_of_adds_nil adds
  | refused _ unknown isFile read adds =>
    have hdocument := documentOf_of_reading_eq_error (hunder.ne_root unknown) isFile read
    -- a file without a document is loaded and holds nothing
    rw [held_of_adds adds, contentOf_of_none hdocument, content_nil]
  | loaded _ unknown isFile read adds runs =>
    have hdocument := documentOf_of_reading_eq_ok (hunder.ne_root unknown) isFile read
    -- what the file holds itself, and what the files loaded for its directives hold
    rw [held_of_runs runs, held_of_adds adds, contentOf_of_some hdocument,
      content_fillBody runs.length_eq, add_assoc]

/-- The merged document has the content of the loaded files. -/
theorem content_of_ending {res : Resolution} (h : j.Ending res) :
    res.document.content = j.held res.files := by
  cases h with
  | unreadable => rfl
  | refused source parsed =>
    have hdocument := documentOf_root_eq_none source parsed
    rw [held_singleton, contentOf_of_none hdocument]
    rfl
  | @expanded text document s s' cs source parsed adds runs =>
    have hdocument := documentOf_root_eq_some source parsed
    have hfiles : s.files = [j.root] := adds.files
    have hruns := held_of_runs (runs_of_start hdocument adds
      (fun _ _ _ _ hunder hd h => held_of_expands hunder hd h) runs)
    show content (fillBody document.body cs) = j.held s'.files
    rw [hruns, hfiles, held_singleton, contentOf_of_some hdocument,
      content_fillBody runs.length_eq]

/-- **Content is conserved.** The merged document holds every item of every loaded file that was
read and parsed, as often as it stands there, and nothing else. No file counts twice. -/
theorem content_conserved (j : Job) (res : Resolution) (hyields : j.Yields res) :
    res.files.Nodup ∧ res.document.content = (res.files.map j.contentOf).sum := by
  have hending := ending_of_yields hyields
  exact ⟨nodup_of_ending hending, content_of_ending hending⟩

/-- The merged document of the shop has the content of four files, one of them without a
document. -/
theorem shop_content_conserved :
    ∃ res, shop.Yields res ∧
      res.files.map Path.text = ["/w/main.mfd", "/w/orders.mfd", "/w/stock.mfd", "/w/notes.mfd"] ∧
      res.files.Nodup ∧ res.document.content = (res.files.map shop.contentOf).sum := by
  obtain ⟨res, hyields⟩ := exists_yields looksUp_shop
  have hfiles : shop.result?.map (fun res => res.files.map Path.text) =
      some ["/w/main.mfd", "/w/orders.mfd", "/w/stock.mfd", "/w/notes.mfd"] := by decide +kernel
  rw [yields_iff.1 hyields, Option.map_some, Option.some_inj] at hfiles
  exact ⟨res, hyields, hfiles, content_conserved shop res hyields⟩

end Job

end Blueprint
