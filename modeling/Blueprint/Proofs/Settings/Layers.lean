import Blueprint.Proofs.Json.Decoded
import Blueprint.Proofs.Json.Overlay

/-!
# Where a setting comes from

Settings are read from two files and put over the defaults, those of the user first and those of the
project last. A setting is therefore what the project says; where the project has no say, what the
user says; and where neither has, the default.

- `Settings.fileAt`, `Settings.HoldsText`: what stands at the place of a settings file.
- `Settings.readLayer_of_text`: what the text of a file comes to.
- `Settings.layerAt`: the settings in a file, none if there is none or it is passed over.
- `Settings.load_of_layers`, `Settings.of_load_eq_ok`: loading puts the layers one over the other.
- `Settings.Layered`: a setting by the layers that it may come from.
- `Settings.override_by_path`: the rule for two objects, and for the settings of a project.
-/

namespace Blueprint.Settings

open Json (obj)

variable {tree : FileTree} {path home project source : String}

/-! ## Files -/

/-- What stands at the place of a settings file. -/
def fileAt (tree : FileTree) (path : String) : Found :=
  if path.toList.contains (Char.ofNat 0) then .missing else tree.findText path

/-- The settings file at a path has a text. -/
def HoldsText (tree : FileTree) (path source : String) : Prop :=
  FileTree.textOf (fileAt tree path) = .ok source

theorem holdsText_iff : HoldsText tree path source ↔
    (FileTree.textOf (fileAt tree path)).toOption = some source := by
  unfold HoldsText
  cases FileTree.textOf (fileAt tree path) with
  | ok text => exact ⟨congrArg Except.toOption, fun h => congrArg Except.ok (Option.some.inj h)⟩
  | error e => exact ⟨congrArg Except.toOption, fun h => absurd h.symm (Option.some_ne_none _)⟩

instance : Decidable (HoldsText tree path source) := decidable_of_iff' _ holdsText_iff

/-- What the text of a settings file comes to, given how it is read. -/
def layerOf (path : String) :
    Except Json.DecodeError Json → Except SettingsError (Option (List (String × Json)))
  | .ok (.obj members) => .ok (some members)
  | .ok _ => .error (.notObject path)
  | .error (.oversized digits) => .error (.oversized digits)
  | .error (.malformed _ _) => .ok none

theorem readLayer_of_text (h : HoldsText tree path source) :
    (readLayer tree path).1 = layerOf path (Json.decode source) := by
  unfold HoldsText fileAt at h
  simp only [readLayer]
  generalize (if path.toList.contains (Char.ofNat 0) then Found.missing else tree.findText path) =
    found at h
  cases found with
  | file bytes =>
    simp only [h]
    cases Json.decode source with
    | ok v => cases v <;> rfl
    | error e => cases e <;> rfl
  | _ => cases h

/-- A file that gives settings has a text that is read as an object. -/
theorem exists_text_of_readLayer {members : List (String × Json)}
    (h : (readLayer tree path).1 = .ok (some members)) :
    ∃ source, HoldsText tree path source ∧ Json.decode source = .ok (obj members) := by
  cases htext : FileTree.textOf (fileAt tree path) with
  | ok source =>
    refine ⟨source, htext, ?_⟩
    rw [readLayer_of_text htext] at h
    cases hdecode : Json.decode source with
    | ok v =>
      rw [hdecode] at h
      cases v <;> cases h
      rfl
    | error e =>
      rw [hdecode] at h
      cases e <;> cases h
  | error e =>
    -- without a text nothing is read, so that no settings come of the file
    simp only [readLayer] at h
    unfold fileAt at htext
    generalize (if path.toList.contains (Char.ofNat 0) then Found.missing else tree.findText path) =
      found at h htext
    cases found with
    | file bytes =>
      simp only [htext] at h
      cases e <;> cases h
    | _ => cases h

/-! ## Layers -/

/-- The settings in the file at a path; none when there is no such file or it is passed over. -/
def layerAt (tree : FileTree) (path : String) : List (String × Json) :=
  match (readLayer tree path).1 with
  | .ok (some members) => members
  | _ => []

/-- What was read from a file has distinct keys. -/
theorem keysDiffer_layerAt (tree : FileTree) (path : String) :
    (obj (layerAt tree path)).Everywhere Json.KeysDiffer := by
  unfold layerAt
  split
  · next members h =>
    obtain ⟨source, -, hdecode⟩ := exists_text_of_readLayer h
    -- of a key that a text repeats only the last member was kept
    exact (Json.everywhere_plain_decode hdecode).mono fun _ => Json.keysDiffer_of_plain
  · exact Json.everywhere_obj_iff.2 ⟨List.nodup_nil, List.forall_mem_nil _⟩

/-- A settings file gives settings or is passed over. -/
def Readable (tree : FileTree) (path : String) : Prop :=
  ∃ layer, (readLayer tree path).1 = .ok layer

/-- A file whose text is read as an object gives the members of the object. -/
theorem layer_of_text {members : List (String × Json)} (h : HoldsText tree path source)
    (hdecode : Json.decode source = .ok (obj members)) :
    Readable tree path ∧ layerAt tree path = members := by
  have hread : (readLayer tree path).1 = .ok (some members) := by
    rw [readLayer_of_text h, hdecode]
    rfl
  exact ⟨⟨some members, hread⟩, by rw [layerAt, hread]⟩

/-- The settings of the user over the defaults. -/
def userStack (tree : FileTree) (home : String) : List (String × Json) :=
  Json.mergeMembers defaults (layerAt tree (configPath home))

/-- The settings of the project over those of the user and the defaults. -/
def stack (tree : FileTree) (home project : String) : List (String × Json) :=
  Json.mergeMembers (userStack tree home) (layerAt tree (configPath project))

/-- A file that can be read is put over the settings, and the other files over these. -/
theorem loadLayers_cons_of_readable (h : Readable tree path) (values : List (String × Json))
    (rest : List String) :
    (loadLayers tree values (path :: rest)).1 =
      (loadLayers tree (Json.mergeMembers values (layerAt tree path)) rest).1 := by
  obtain ⟨layer, h⟩ := h
  rw [loadLayers, layerAt, h]
  cases hread : readLayer tree path with
  | mk result notes =>
    rw [hread] at h
    subst h
    cases layer <;> rfl

theorem loadLayers_cons_of_error {e : SettingsError} (h : (readLayer tree path).1 = .error e)
    (values : List (String × Json)) (rest : List String) :
    (loadLayers tree values (path :: rest)).1 = .error e := by
  rw [loadLayers]
  cases hread : readLayer tree path with
  | mk result notes =>
    rw [hread] at h
    subst h
    rfl

/-! ## Loading -/

theorem load_of_loadLayers {values : List (String × Json)}
    (h : (loadLayers tree defaults [configPath home, configPath project]).1 = .ok values) :
    (load tree home project).1 = (validate (obj values)).map fun _ => ⟨values⟩ := by
  unfold load
  generalize loadLayers tree defaults [configPath home, configPath project] = result at h
  obtain ⟨result, notes⟩ := result
  subst h
  rfl

theorem load_of_error {e : SettingsError}
    (h : (loadLayers tree defaults [configPath home, configPath project]).1 = .error e) :
    (load tree home project).1 = .error e := by
  unfold load
  generalize loadLayers tree defaults [configPath home, configPath project] = result at h
  obtain ⟨result, notes⟩ := result
  subst h
  rfl

/-- **Loading puts the layers one over the other** and checks the result. -/
theorem load_of_layers (hhome : Readable tree (configPath home))
    (hproject : Readable tree (configPath project)) :
    (load tree home project).1 =
      (validate (obj (stack tree home project))).map fun _ => ⟨stack tree home project⟩ := by
  refine load_of_loadLayers ?_
  rw [loadLayers_cons_of_readable hhome, loadLayers_cons_of_readable hproject]
  rfl

theorem load_of_error_home {e : SettingsError}
    (h : (readLayer tree (configPath home)).1 = .error e) (project : String) :
    (load tree home project).1 = .error e :=
  load_of_error (loadLayers_cons_of_error h _ _)

theorem load_of_error_project {e : SettingsError} (hhome : Readable tree (configPath home))
    (h : (readLayer tree (configPath project)).1 = .error e) :
    (load tree home project).1 = .error e := by
  refine load_of_error ?_
  rw [loadLayers_cons_of_readable hhome, loadLayers_cons_of_error h]

theorem readable_or_error (tree : FileTree) (path : String) :
    Readable tree path ∨ ∃ e, (readLayer tree path).1 = .error e := by
  cases h : (readLayer tree path).1 with
  | ok layer => exact Or.inl ⟨layer, h⟩
  | error e => exact Or.inr ⟨e, rfl⟩

/-- Settings that were loaded are the layers, one over the other. -/
theorem of_load_eq_ok {s : Settings} (h : (load tree home project).1 = .ok s) :
    Readable tree (configPath home) ∧ Readable tree (configPath project) ∧
      s = ⟨stack tree home project⟩ := by
  rcases readable_or_error tree (configPath home) with hhome | ⟨e, he⟩
  · -- an error of either file would have been the result
    rcases readable_or_error tree (configPath project) with hproject | ⟨e, he⟩
    · refine ⟨hhome, hproject, ?_⟩
      rw [load_of_layers hhome hproject] at h
      cases hvalid : validate (obj (stack tree home project)) with
      | ok _ =>
        rw [hvalid] at h
        exact (Except.ok.inj h).symm
      | error e =>
        rw [hvalid] at h
        cases h
    · rw [load_of_error_project hhome he] at h
      cases h
  · rw [load_of_error_home he] at h
    cases h

/-! ## The layers of a setting -/

/-- Settings by the layers that they come from: those of the project over those of the user over the
defaults. A dotted path leads to what the project has there, if that is no object; else, where the
project has no say, to what the user has there; else, where the user has no say either, to the
default. Objects of several layers are merged. -/
structure Layered (s : Settings) (user project : List (String × Json)) : Prop where
  project_over : ∀ path, Json.OverridesAt ((obj defaults).merge (obj user)) (obj project) s.toJson
    (Text.splitText '.' path)
  user_over : ∀ path, Json.OverridesAt (obj defaults) (obj user) ((obj defaults).merge (obj user))
    (Text.splitText '.' path)
  leaf : ∀ path v, v.isObject = false →
    (s.get? path = some v ↔
      (obj project).atPath? (Text.splitText '.' path) = some v ∨
      (obj project).LeavesOpen (Text.splitText '.' path) ∧
        ((obj user).atPath? (Text.splitText '.' path) = some v ∨
        (obj user).LeavesOpen (Text.splitText '.' path) ∧
          (obj defaults).atPath? (Text.splitText '.' path) = some v))

theorem obj_stack (tree : FileTree) (home project : String) :
    obj (stack tree home project) =
      ((obj defaults).merge (obj (layerAt tree (configPath home)))).merge
        (obj (layerAt tree (configPath project))) := by
  rw [Json.merge_obj_obj, Json.merge_obj_obj, stack, userStack]

theorem layered_of_load {s : Settings} (h : (load tree home project).1 = .ok s) :
    s.Layered (layerAt tree (configPath home)) (layerAt tree (configPath project)) := by
  obtain ⟨-, -, rfl⟩ := of_load_eq_ok h
  have huser := keysDiffer_layerAt tree (configPath home)
  have hproject := keysDiffer_layerAt tree (configPath project)
  refine ⟨fun path => ?_, fun path => Json.overridesAt_merge huser _ _, fun path v hv => ?_⟩
  · rw [toJson, obj_stack]
    exact Json.overridesAt_merge hproject _ _
  · rw [get?, toJson, obj_stack, Json.atPath?_merge_eq_leaf_iff hproject hv,
      Json.atPath?_merge_eq_leaf_iff huser hv]

/-- **Layers override one another path by path.** Of two objects, the upper one counts at a path
where it has something other than an object, at the path or on the way; the lower one counts where
the upper one has nothing; and two objects are merged again. The settings of a project follow this
rule twice. Nothing changes when an object is put over nothing, under nothing or over itself. -/
theorem override_by_path :
    (∀ base top : List (String × Json), (obj top).Everywhere Json.KeysDiffer →
      ∀ p, Json.OverridesAt (obj base) (obj top) ((obj base).merge (obj top)) p) ∧
    (∀ (tree : FileTree) (home project : String) (s : Settings),
      (load tree home project).1 = .ok s →
        s.Layered (layerAt tree (configPath home)) (layerAt tree (configPath project))) ∧
    (∀ members : List (String × Json), (obj members).Everywhere Json.KeysDiffer →
      (obj members).merge (obj []) = obj members ∧ (obj []).merge (obj members) = obj members ∧
        (obj members).merge (obj members) = obj members) := by
  refine ⟨fun base top htop p => Json.overridesAt_merge htop _ p,
    fun tree home project s h => layered_of_load h, fun members h => ⟨rfl, ?_, ?_⟩⟩
  · rw [Json.merge_obj_obj, Json.mergeMembers_nil_left h.self]
  · exact Json.merge_self _ h

/-- Settings of a user, who thinks of paper by its width. -/
def penSettings : List (String × Json) :=
  [("resolver", obj [("max_include_depth", .int 5)]),
   ("paper", obj [("size", obj [("w", .int 9)])])]

/-- Settings of a project, which names the paper. -/
def easelSettings : List (String × Json) :=
  [("paper", obj [("size", .str "A4")]), ("resolver", obj [("extension", .str ".m")])]

/-- A user and a project, each with settings. -/
def atelier : FileTree :=
  (FileTree.addFile {} ["pen", ".mfd", "config.json"]
    (Utf8.encode (obj penSettings).render)).addFile ["easel", ".mfd", "config.json"]
    (Utf8.encode (obj easelSettings).render)

theorem plain_penSettings : (obj penSettings).Everywhere Json.Plain := by
  have hfive : (Json.int 5).Everywhere Json.Plain :=
    Json.everywhere_of_isLeaf rfl (Json.plain_int_of_lt Nat.one_pos (by decide) (by decide))
  have hnine : (Json.int 9).Everywhere Json.Plain :=
    Json.everywhere_of_isLeaf rfl (Json.plain_int_of_lt Nat.one_pos (by decide) (by decide))
  simp [penSettings, Json.everywhere_obj_iff, Json.Plain, hfive, hnine]

theorem plain_easelSettings : (obj easelSettings).Everywhere Json.Plain := by
  have htext (s : String) : (Json.str s).Everywhere Json.Plain :=
    Json.everywhere_of_isLeaf rfl trivial
  simp [easelSettings, Json.everywhere_obj_iff, Json.Plain, htext]

theorem atelier_layers :
    (Readable atelier (configPath "/pen") ∧ layerAt atelier (configPath "/pen") = penSettings) ∧
    Readable atelier (configPath "/easel") ∧
      layerAt atelier (configPath "/easel") = easelSettings := by
  have htexts : HoldsText atelier (configPath "/pen") (obj penSettings).render ∧
      HoldsText atelier (configPath "/easel") (obj easelSettings).render := by decide +kernel
  exact ⟨layer_of_text htexts.1 (Json.decode_render plain_penSettings),
    layer_of_text htexts.2 (Json.decode_render plain_easelSettings)⟩

/-- In the atelier the depth is the user's, the extension and the paper are the project's, and the
width of the paper is hidden. -/
theorem atelier_override_by_path :
    ∃ s, (load atelier "/pen" "/easel").1 = .ok s ∧
      s.get? "resolver.max_include_depth" = some (.int 5) ∧
      s.get? "resolver.extension" = some (.str ".m") ∧
      s.get? "paper.size" = some (.str "A4") ∧ s.get? "paper.size.w" = none ∧
      (obj []).merge (obj penSettings) = obj penSettings ∧
      (obj penSettings).merge (obj penSettings) = obj penSettings ∧
      ((obj penSettings).merge (obj easelSettings)).atPath? ["paper", "size"] =
        some (.str "A4") := by
  obtain ⟨hrule, hload, hsame⟩ := override_by_path
  obtain ⟨⟨hpen, hpenLayer⟩, heasel, heaselLayer⟩ := atelier_layers
  have hstack : stack atelier "/pen" "/easel" =
      Json.mergeMembers (Json.mergeMembers defaults penSettings) easelSettings := by
    rw [stack, userStack, hpenLayer, heaselLayer]
  have hok : (load atelier "/pen" "/easel").1 = .ok ⟨stack atelier "/pen" "/easel"⟩ := by
    rw [load_of_layers hpen heasel, hstack]
    rfl
  have hlayers := hload _ _ _ _ hok
  rw [hpenLayer, heaselLayer] at hlayers
  have hpaths : Text.splitText '.' "resolver.max_include_depth" =
        ["resolver", "max_include_depth"] ∧
      Text.splitText '.' "resolver.extension" = ["resolver", "extension"] ∧
      Text.splitText '.' "paper.size" = ["paper", "size"] ∧
      Text.splitText '.' "paper.size.w" = ["paper", "size", "w"] := by decide +kernel
  -- the project has the section, but nothing to say about the depth
  have hopen : (obj easelSettings).LeavesOpen ["resolver", "max_include_depth"] := by
    refine Json.leavesOpen_obj_cons_iff.2 fun v hv => ?_
    cases hv
    exact Json.leavesOpen_obj_singleton_iff.2 rfl
  -- the text in the place of the size hides what the user has under it
  have hshadows : (obj easelSettings).Shadows ["paper", "size", "w"] :=
    ⟨["paper", "size"], ⟨["w"], rfl⟩, .str "A4", rfl, rfl⟩
  have hdepth := hlayers.leaf "resolver.max_include_depth" (.int 5) rfl
  have hextension := hlayers.leaf "resolver.extension" (.str ".m") rfl
  have hsize := hlayers.leaf "paper.size" (.str "A4") rfl
  have hwidth := (hlayers.project_over "paper.size.w").shadowed
  rw [hpaths.1] at hdepth
  rw [hpaths.2.1] at hextension
  rw [hpaths.2.2.1] at hsize
  rw [hpaths.2.2.2] at hwidth
  have hplain := plain_penSettings.mono fun _ => Json.keysDiffer_of_plain
  have hplain' := plain_easelSettings.mono fun _ => Json.keysDiffer_of_plain
  refine ⟨_, hok, hdepth.2 (Or.inr ⟨hopen, Or.inl rfl⟩), hextension.2 (Or.inl rfl),
    hsize.2 (Or.inl rfl), ?_, (hsame _ hplain).2.1, (hsame _ hplain).2.2, ?_⟩
  · rw [get?, hpaths.2.2.2]
    exact hwidth hshadows
  · exact (hrule penSettings easelSettings hplain' ["paper", "size"]).shadowed
      ⟨["paper", "size"], List.prefix_rfl, .str "A4", rfl, rfl⟩

end Blueprint.Settings
