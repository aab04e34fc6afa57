import Blueprint.Proofs.Settings.Layers

/-!
# Settings that load and settings that are refused

Settings are checked once, after all layers have been put one over the other. By then any section
may have been replaced by anything. The check looks at two members of the section about include
resolution, and takes for granted that the section has members: a section that is no object stops
the check with an error that says nothing about settings. Every other setting of a wrong type is
refused.

- `Settings.Valid`: what the settings of include resolution have to be.
- `SettingsError.isRefusal`: the errors by which settings are refused.
- `Settings.validate_of_isObject`, `Settings.validate_of_not_isObject`: what the check comes to.
- `Settings.HoldsJson`, `Settings.readLayer_of_holdsJson`: files that are JSON texts.
- `Settings.uppermost?`: the section of the uppermost file that has one.
- `Settings.load_valid_or_refused`: what loading can come to.
- `Settings.storeroom_not_refused`: a section that is no object is not refused.
-/

namespace Blueprint

/-- Whether settings are refused for what they are. -/
def SettingsError.isRefusal : SettingsError → Bool
  | notObject _ => true
  | depth _ => true
  | extension _ => true
  | _ => false

/-- Whether there is no file, for want of the file or of a directory on the way to it. -/
def Found.isAbsent : Found → Bool
  | missing => true
  | notDirectory => true
  | _ => false

namespace Settings

open Json (obj)

variable {tree : FileTree} {path home project : String} {values : List (String × Json)}

/-! ## The check -/

/-- The settings of include resolution are what they have to be: a whole number of at least one and
a text that begins with a dot. -/
structure Valid (s : Settings) : Prop where
  depth : ∃ n, s.get? "resolver.max_include_depth" = some (.int n) ∧ 1 ≤ n
  extension : ∃ e, s.get? "resolver.extension" = some (.str e) ∧ e.toList.head? = some '.'

theorem isDepth_iff {v : Json} : isDepth v = true ↔ ∃ n, v = .int n ∧ 1 ≤ n := by
  cases v <;> simp [isDepth]

theorem isExtension_iff {v : Json} :
    isExtension v = true ↔ ∃ e, v = .str e ∧ e.toList.head? = some '.' := by
  cases v <;> simp [isExtension]

/-- A value other than null was found if it is what was looked for. -/
theorem getD_null_eq_iff {found : Option Json} {v : Json} (hv : v ≠ .null) :
    found.getD .null = v ↔ found = some v := by
  cases found with
  | none => exact iff_of_false hv.symm (Option.some_ne_none v).symm
  | some w => exact (Option.some.injEq w v).to_iff.symm

theorem get?_resolver (values : List (String × Json)) :
    get? ⟨values⟩ "resolver.max_include_depth" =
      (Json.memberOf? "resolver" values).bind (Json.member? "max_include_depth") ∧
    get? ⟨values⟩ "resolver.extension" =
      (Json.memberOf? "resolver" values).bind (Json.member? "extension") := by
  have hpaths : Text.splitText '.' "resolver.max_include_depth" =
        ["resolver", "max_include_depth"] ∧
      Text.splitText '.' "resolver.extension" = ["resolver", "extension"] := by decide
  have hlast (k : String) (v : Json) : v.atPath? [k] = v.member? k := by
    rw [Json.atPath?]
    cases v.member? k <;> rfl
  rw [get?, get?, hpaths.1, hpaths.2, toJson, Json.atPath?_obj_cons, Json.atPath?_obj_cons]
  simp only [hlast, and_self]

/-- The settings are valid if both members of the section pass the check. -/
theorem valid_iff_of_section {r : List (String × Json)}
    (h : (Json.memberOf? "resolver" values).getD (obj []) = obj r) :
    Valid ⟨values⟩ ↔ isDepth ((Json.memberOf? "max_include_depth" r).getD .null) = true ∧
      isExtension ((Json.memberOf? "extension" r).getD .null) = true := by
  have hmember (name : String) :
      (Json.memberOf? "resolver" values).bind (Json.member? name) = Json.memberOf? name r := by
    cases hsection : Json.memberOf? "resolver" values with
    | none =>
      rw [hsection] at h
      cases h
      rfl
    | some v =>
      rw [hsection] at h
      cases h
      rfl
  have hint (n : Int) : Json.int n ≠ .null := by
    intro h
    cases h
  have hstr (e : String) : Json.str e ≠ .null := by
    intro h
    cases h
  simp only [isDepth_iff, isExtension_iff, getD_null_eq_iff (hint _), getD_null_eq_iff (hstr _),
    ← hmember, ← (get?_resolver values).1, ← (get?_resolver values).2]
  exact ⟨fun hvalid => ⟨hvalid.depth, hvalid.extension⟩, fun hboth => ⟨hboth.1, hboth.2⟩⟩

/-- **A section that is an object, or missing, is accepted as valid or refused.** -/
theorem validate_of_isObject
    (h : ∀ v, Json.memberOf? "resolver" values = some v → v.isObject = true) :
    (validate (obj values) = .ok () ∧ Valid ⟨values⟩) ∨
      ¬ Valid ⟨values⟩ ∧ ∃ e, validate (obj values) = .error e ∧ e.isRefusal = true := by
  obtain ⟨r, hr⟩ : ∃ r, (Json.memberOf? "resolver" values).getD (obj []) = obj r := by
    cases hsection : Json.memberOf? "resolver" values with
    | none => exact ⟨[], rfl⟩
    | some v =>
      cases v with
      | obj r => exact ⟨r, rfl⟩
      | _ => cases h _ hsection
  rw [valid_iff_of_section hr]
  simp only [validate, hr]
  cases isDepth ((Json.memberOf? "max_include_depth" r).getD .null) with
  | false => exact Or.inr ⟨fun hvalid => Bool.false_ne_true hvalid.1, _, rfl, rfl⟩
  | true =>
    cases isExtension ((Json.memberOf? "extension" r).getD .null) with
    | false => exact Or.inr ⟨fun hvalid => Bool.false_ne_true hvalid.2, _, rfl, rfl⟩
    | true => exact Or.inl ⟨rfl, rfl, rfl⟩

/-- **A section that is no object stops the check.** -/
theorem validate_of_not_isObject {v : Json} (hv : v.isObject = false)
    (h : Json.memberOf? "resolver" values = some v) :
    validate (obj values) = .error (.noMembers v) ∧ ¬ Valid ⟨values⟩ := by
  constructor
  · simp only [validate, h, Option.getD_some]
    cases v with
    | obj r => cases hv
    | _ => rfl
  · -- there is no depth in what has no members
    rintro ⟨⟨n, hn, -⟩, -⟩
    rw [(get?_resolver values).1, h] at hn
    cases v with
    | obj r => cases hv
    | _ => cases hn

/-- **What the check can come to**: the settings are valid, or they are refused, or the section
about resolution is no object. -/
theorem validate_cases (values : List (String × Json)) :
    (validate (obj values) = .ok () ∧ Valid ⟨values⟩) ∨
      ¬ Valid ⟨values⟩ ∧ ∃ e, validate (obj values) = .error e ∧
        (e.isRefusal = true ∨ ∃ v, e = .noMembers v ∧ v.isObject = false ∧
          Json.memberOf? "resolver" values = some v) := by
  by_cases h : ∃ v, Json.memberOf? "resolver" values = some v ∧ v.isObject = false
  · obtain ⟨v, hsection, hv⟩ := h
    obtain ⟨hvalidate, hinvalid⟩ := validate_of_not_isObject hv hsection
    exact Or.inr ⟨hinvalid, _, hvalidate, Or.inr ⟨v, rfl, hv, hsection⟩⟩
  · have hobject : ∀ v, Json.memberOf? "resolver" values = some v → v.isObject = true := by
      intro v hsection
      by_contra hv
      exact h ⟨v, hsection, Bool.not_eq_true _ ▸ hv⟩
    rcases validate_of_isObject hobject with hok | ⟨hinvalid, e, he, hrefusal⟩
    · exact Or.inl hok
    · exact Or.inr ⟨hinvalid, e, he, Or.inl hrefusal⟩

/-! ## Files -/

/-- There is no settings file at a path, or one whose text is a JSON text of any shape. -/
def HoldsJson (tree : FileTree) (path : String) : Prop :=
  (fileAt tree path).isAbsent = true ∨
    ∃ source, HoldsText tree path source ∧
      ∀ fault mark, Json.decode source ≠ .error (.malformed fault mark)

theorem holdsJson_of_decode {source : String} {v : Json} (htext : HoldsText tree path source)
    (hdecode : Json.decode source = .ok v) : HoldsJson tree path := by
  refine Or.inr ⟨source, htext, fun fault mark h => ?_⟩
  rw [hdecode] at h
  cases h

theorem readLayer_of_absent (h : (fileAt tree path).isAbsent = true) :
    (readLayer tree path).1 = .ok none := by
  unfold fileAt at h
  simp only [readLayer]
  generalize (if path.toList.contains (Char.ofNat 0) then Found.missing else tree.findText path) =
    found at h
  cases found <;> first | rfl | cases h

/-- A file that is a JSON text gives settings, or holds something other than an object, or a number
that is too long. -/
theorem readLayer_of_holdsJson (h : HoldsJson tree path) :
    Readable tree path ∨ (readLayer tree path).1 = .error (.notObject path) ∨
      ∃ source digits, HoldsText tree path source ∧
        Json.decode source = .error (.oversized digits) ∧
        (readLayer tree path).1 = .error (.oversized digits) := by
  rcases h with habsent | ⟨source, htext, hjson⟩
  · exact Or.inl ⟨none, readLayer_of_absent habsent⟩
  · have hread := readLayer_of_text htext
    cases hdecode : Json.decode source with
    | ok v =>
      rw [hdecode] at hread
      cases v with
      | obj members => exact Or.inl ⟨some members, hread⟩
      | _ => exact Or.inr (Or.inl hread)
    | error e =>
      rw [hdecode] at hread
      cases e with
      | malformed fault mark => exact absurd hdecode (hjson fault mark)
      | oversized digits => exact Or.inr (Or.inr ⟨source, digits, htext, hdecode, hread⟩)

/-! ## Sections -/

/-- A section of the settings files: that of the project, or that of the user if the project has
none. -/
def uppermost? (tree : FileTree) (home project name : String) : Option Json :=
  (Json.memberOf? name (layerAt tree (configPath project))).or
    (Json.memberOf? name (layerAt tree (configPath home)))

theorem memberOf?_eq_atPath? (name : String) (members : List (String × Json)) :
    Json.memberOf? name members = (obj members).atPath? [name] := by
  rw [Json.atPath?_obj_cons]
  cases Json.memberOf? name members <;> rfl

/-- What replaces the section about resolution comes from the uppermost file that has one. -/
theorem memberOf?_stack_iff {v : Json} (hv : v.isObject = false) :
    Json.memberOf? "resolver" (stack tree home project) = some v ↔
      uppermost? tree home project "resolver" = some v := by
  -- the section among the defaults is an object
  have hdefault : (obj defaults).atPath? ["resolver"] ≠ some v := by
    rintro ⟨⟩
    cases hv
  rw [memberOf?_eq_atPath?, obj_stack,
    Json.atPath?_merge_eq_leaf_iff (keysDiffer_layerAt tree (configPath project)) hv,
    Json.atPath?_merge_eq_leaf_iff (keysDiffer_layerAt tree (configPath home)) hv,
    Json.leavesOpen_obj_singleton_iff, uppermost?, Option.or_eq_some_iff, memberOf?_eq_atPath?,
    memberOf?_eq_atPath?]
  simp only [hdefault, and_false, or_false]

/-! ## Loading -/

section Loading

variable (huser : Readable tree (configPath home)) (hproject : Readable tree (configPath project))

include huser hproject

/-- What loading can come to when both files can be read. -/
theorem load_cases :
    ((load tree home project).1 = .ok ⟨stack tree home project⟩ ∧
      Valid ⟨stack tree home project⟩) ∨
    ¬ Valid ⟨stack tree home project⟩ ∧ ∃ e, (load tree home project).1 = .error e ∧
      (e.isRefusal = true ∨ ∃ v, e = .noMembers v ∧ v.isObject = false ∧
        uppermost? tree home project "resolver" = some v) := by
  rw [load_of_layers huser hproject]
  rcases validate_cases (stack tree home project) with ⟨hok, hvalid⟩ | ⟨hinvalid, e, he, hreason⟩
  · rw [hok]
    exact Or.inl ⟨rfl, hvalid⟩
  · rw [he]
    refine Or.inr ⟨hinvalid, e, rfl, hreason.imp_right ?_⟩
    rintro ⟨v, rfl, hv, hsection⟩
    exact ⟨v, rfl, hv, (memberOf?_stack_iff hv).1 hsection⟩

theorem load_of_not_isObject {v : Json} (hv : v.isObject = false)
    (h : uppermost? tree home project "resolver" = some v) :
    (load tree home project).1 = .error (.noMembers v) := by
  have hsection := (memberOf?_stack_iff hv).2 h
  rw [load_of_layers huser hproject, (validate_of_not_isObject hv hsection).1]
  rfl

end Loading

/-- Loading succeeds when both files can be read and what they come to is valid. -/
theorem exists_load_eq_ok_iff :
    (∃ s, (load tree home project).1 = .ok s) ↔
      Readable tree (configPath home) ∧ Readable tree (configPath project) ∧
        Valid ⟨stack tree home project⟩ := by
  constructor
  · rintro ⟨s, hs⟩
    obtain ⟨huser, hproject, rfl⟩ := of_load_eq_ok hs
    refine ⟨huser, hproject, ?_⟩
    -- both files were read, so only the check could have refused
    rcases load_cases huser hproject with ⟨-, hvalid⟩ | ⟨-, e, he, -⟩
    · exact hvalid
    · rw [he] at hs
      cases hs
  · rintro ⟨huser, hproject, hvalid⟩
    rcases load_cases huser hproject with ⟨hok, -⟩ | ⟨hinvalid, -⟩
    · exact ⟨_, hok⟩
    · exact absurd hvalid hinvalid

/-- A file that is a JSON text and cannot be read is refused, or has a number that is too long. -/
theorem load_of_not_readable {e : SettingsError}
    (hmem : path ∈ [configPath home, configPath project]) (hjson : HoldsJson tree path)
    (hread : (readLayer tree path).1 = .error e)
    (hload : (load tree home project).1 = .error e) :
    (∃ e, (load tree home project).1 = .error e ∧ e.isRefusal = true) ∨
      ∃ digits, (load tree home project).1 = .error (.oversized digits) ∧
        ∃ path ∈ [configPath home, configPath project], ∃ source, HoldsText tree path source ∧
          Json.decode source = .error (.oversized digits) := by
  rcases readLayer_of_holdsJson hjson with
    ⟨layer, hok⟩ | hobject | ⟨source, digits, htext, hdecode, h⟩
  · rw [hok] at hread
    cases hread
  · rw [hobject] at hread
    cases hread
    exact Or.inl ⟨_, hload, rfl⟩
  · rw [h] at hread
    cases hread
    exact Or.inr ⟨digits, hload, path, hmem, source, htext, hdecode⟩

/-- **Settings load valid or are refused, unless the section about resolution is no object.** Let
each of the two settings files be missing or a JSON text of any shape. Then loading gives valid
settings, or refuses the settings, or stops with another error, for one of two reasons: the
uppermost section about resolution is no object, or a file has a number that is too long. Loading
succeeds exactly when both files can be read and what they come to is valid. A section that is no
object always stops it. -/
theorem load_valid_or_refused (huser : HoldsJson tree (configPath home))
    (hproject : HoldsJson tree (configPath project)) :
    ((∃ s, (load tree home project).1 = .ok s ∧ s.Valid) ∨
      (∃ e, (load tree home project).1 = .error e ∧ e.isRefusal = true) ∨
      (∃ v, (load tree home project).1 = .error (.noMembers v) ∧ v.isObject = false ∧
        uppermost? tree home project "resolver" = some v) ∨
      ∃ digits, (load tree home project).1 = .error (.oversized digits) ∧
        ∃ path ∈ [configPath home, configPath project], ∃ source, HoldsText tree path source ∧
          Json.decode source = .error (.oversized digits)) ∧
    ((∃ s, (load tree home project).1 = .ok s) ↔
      Readable tree (configPath home) ∧ Readable tree (configPath project) ∧
        Valid ⟨stack tree home project⟩) ∧
    (Readable tree (configPath home) → Readable tree (configPath project) →
      ∀ v, v.isObject = false → uppermost? tree home project "resolver" = some v →
        (load tree home project).1 = .error (.noMembers v)) := by
  refine ⟨?_, exists_load_eq_ok_iff, fun hu hp v hv h => load_of_not_isObject hu hp hv h⟩
  rcases readable_or_error tree (configPath home) with hu | ⟨e, he⟩
  · rcases readable_or_error tree (configPath project) with hp | ⟨e, he⟩
    · rcases load_cases hu hp with hok | ⟨-, e, he, hrefusal | ⟨v, rfl, hv, hsection⟩⟩
      · exact Or.inl ⟨_, hok⟩
      · exact Or.inr (Or.inl ⟨e, he, hrefusal⟩)
      · exact Or.inr (Or.inr (Or.inl ⟨v, he, hv, hsection⟩))
    · have hload := load_of_error_project hu he
      rcases load_of_not_readable (by simp) hproject he hload with hrefused | hlong
      · exact Or.inr (Or.inl hrefused)
      · exact Or.inr (Or.inr (Or.inr hlong))
  · -- the project's file is not looked at
    have hload := load_of_error_home he project
    rcases load_of_not_readable (by simp) huser he hload with hrefused | hlong
    · exact Or.inr (Or.inl hrefused)
    · exact Or.inr (Or.inr (Or.inr hlong))

/-- Settings of a user, who includes little. -/
def deskSettings : List (String × Json) := [("resolver", obj [("max_include_depth", .int 3)])]

/-- Settings of a project, with a number in the place of a section. -/
def shelfSettings : List (String × Json) := [("resolver", .int 5)]

/-- A user and a project, each with settings. -/
def storeroom : FileTree :=
  (FileTree.addFile {} ["desk", ".mfd", "config.json"]
    (Utf8.encode (obj deskSettings).render)).addFile ["shelf", ".mfd", "config.json"]
    (Utf8.encode (obj shelfSettings).render)

theorem storeroom_texts :
    (HoldsText storeroom (configPath "/desk") (obj deskSettings).render ∧
      Json.decode (obj deskSettings).render = .ok (obj deskSettings)) ∧
    (HoldsText storeroom (configPath "/shelf") (obj shelfSettings).render ∧
      Json.decode (obj shelfSettings).render = .ok (obj shelfSettings)) ∧
    (fileAt storeroom (configPath "/attic")).isAbsent = true := by
  have hint (n : Int) (hn : n.natAbs < 10) : (Json.int n).Everywhere Json.Plain :=
    Json.everywhere_of_isLeaf rfl (Json.plain_int_of_lt Nat.one_pos (by decide) hn)
  have hdesk : (obj deskSettings).Everywhere Json.Plain := by
    simp [deskSettings, Json.everywhere_obj_iff, Json.Plain, hint]
  have hshelf : (obj shelfSettings).Everywhere Json.Plain := by
    simp [shelfSettings, Json.everywhere_obj_iff, Json.Plain, hint]
  have htexts : HoldsText storeroom (configPath "/desk") (obj deskSettings).render ∧
      HoldsText storeroom (configPath "/shelf") (obj shelfSettings).render ∧
      (fileAt storeroom (configPath "/attic")).isAbsent = true := by decide +kernel
  exact ⟨⟨htexts.1, Json.decode_render hdesk⟩, ⟨htexts.2.1, Json.decode_render hshelf⟩, htexts.2.2⟩

/-- The project has a section, and it is a number. -/
theorem storeroom_uppermost :
    Readable storeroom (configPath "/desk") ∧ Readable storeroom (configPath "/shelf") ∧
      uppermost? storeroom "/desk" "/shelf" "resolver" = some (.int 5) := by
  obtain ⟨⟨hdesk, hdesk'⟩, ⟨hshelf, hshelf'⟩, -⟩ := storeroom_texts
  obtain ⟨hshelf, hlayer⟩ := layer_of_text hshelf hshelf'
  refine ⟨(layer_of_text hdesk hdesk').1, hshelf, ?_⟩
  rw [uppermost?, hlayer]
  rfl

/-- Without settings of a project, the depth of the user and the default extension are valid. -/
theorem storeroom_valid :
    Readable storeroom (configPath "/desk") ∧ Readable storeroom (configPath "/attic") ∧
      Valid ⟨stack storeroom "/desk" "/attic"⟩ := by
  obtain ⟨⟨hdesk, hdesk'⟩, -, hattic⟩ := storeroom_texts
  obtain ⟨hdesk, hlayer⟩ := layer_of_text hdesk hdesk'
  have hread := readLayer_of_absent hattic
  -- a file that is not there changes nothing
  have hnone : layerAt storeroom (configPath "/attic") = [] := by rw [layerAt, hread]
  refine ⟨hdesk, ⟨none, hread⟩, ?_⟩
  rw [stack, userStack, hlayer, hnone]
  exact (valid_iff_of_section rfl).2 ⟨rfl, rfl⟩

/-- The settings of the user load, and those of the project stop the check. -/
theorem storeroom_loads :
    HoldsJson storeroom (configPath "/desk") ∧ HoldsJson storeroom (configPath "/attic") ∧
    HoldsJson storeroom (configPath "/shelf") ∧
    (∃ s, (load storeroom "/desk" "/attic").1 = .ok s) ∧
    (load storeroom "/desk" "/shelf").1 = .error (.noMembers (.int 5)) := by
  obtain ⟨hdesk, hshelf, hattic⟩ := storeroom_texts
  have hdesk := holdsJson_of_decode hdesk.1 hdesk.2
  have hshelf := holdsJson_of_decode hshelf.1 hshelf.2
  have hattic : HoldsJson storeroom (configPath "/attic") := Or.inl hattic
  obtain ⟨hu, hp, hsection⟩ := storeroom_uppermost
  exact ⟨hdesk, hattic, hshelf, (load_valid_or_refused hdesk hattic).2.1.2 storeroom_valid,
    (load_valid_or_refused hdesk hshelf).2.2 hu hp _ rfl hsection⟩

/-- **Not every setting of a wrong type is refused.** A number in the place of a section stops the
check with another error. -/
theorem storeroom_not_refused :
    ¬ ∀ (tree : FileTree) (home project : String), HoldsJson tree (configPath home) →
      HoldsJson tree (configPath project) →
        (∃ s, (load tree home project).1 = .ok s ∧ s.Valid) ∨
          ∃ e, (load tree home project).1 = .error e ∧ e.isRefusal = true := by
  intro h
  obtain ⟨hdesk, hshelf, -⟩ := storeroom_texts
  obtain ⟨hu, hp, hsection⟩ := storeroom_uppermost
  have hload := load_of_not_isObject hu hp rfl hsection
  rcases h storeroom "/desk" "/shelf" (holdsJson_of_decode hdesk.1 hdesk.2)
    (holdsJson_of_decode hshelf.1 hshelf.2) with ⟨s, hs, -⟩ | ⟨e, he, hrefusal⟩
  · rw [hload] at hs
    cases hs
  · rw [hload] at he
    cases he
    cases hrefusal

end Settings

end Blueprint
