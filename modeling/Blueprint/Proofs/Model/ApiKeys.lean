import Blueprint.Model.Key
import Blueprint.Proofs.Text.Trimming

/-!
# What the key of an API tells

An API is addressed by its label and, behind a colon, by the path that its endpoints share. The path
may hold colons of its own. As long as the label holds none, the first colon of a key is the one
between the two, so the key can be taken apart again, and APIs share a key only if they share both.
In the specification this is the testable property of uniqueness of API keys (§8).

- `Decorator.IsFirst`, `decoratorText_of_isFirst`: only the first decorator with a name is read.
- `Api.HasLabel`, `Api.HasBasePath`: the label and the path, told by the declaration.
- `Api.takeWhile_keyName`: the label is what stands before the first colon.
- `Api.key_eq_iff_same_label_and_path`: the key identifies label and path.
-/

namespace Blueprint

/-! ## First decorators -/

/-- A decorator has a name, and none of those before it in a list has it. -/
def Decorator.IsFirst (d : Decorator) (name : String) (decorators : List Decorator) : Prop :=
  ∃ before after, decorators = before ++ d :: after ∧ d.name = name ∧ ∀ e ∈ before, e.name ≠ name

section Decorators

variable {decorators : List Decorator} {d : Decorator} {name : String}

theorem find?_name_eq_some_iff :
    decorators.find? (fun d => d.name = name) = some d ↔ d.IsFirst name decorators := by
  rw [List.find?_eq_some_iff_append]
  constructor
  · rintro ⟨hname, before, after, hsplit, hbefore⟩
    exact ⟨before, after, hsplit, by simpa using hname, by simpa using hbefore⟩
  · rintro ⟨before, after, hsplit, hname, hbefore⟩
    exact ⟨by simpa using hname, before, after, hsplit, by simpa using hbefore⟩

/-- The first decorator with a name is read, and no later one in its place. -/
theorem decoratorText_of_isFirst (h : d.IsFirst name decorators) :
    decoratorText decorators name = d.params.head?.map fun p => p.value.toText := by
  rw [decoratorText, find?_name_eq_some_iff.2 h]

theorem decoratorText_of_forall_ne (h : ∀ d ∈ decorators, d.name ≠ name) :
    decoratorText decorators name = none := by
  have hfind : decorators.find? (fun d => d.name = name) = none :=
    List.find?_eq_none.2 fun d hd => by simpa using h d hd
  rw [decoratorText, hfind]

end Decorators

namespace Api

variable {a b : Api}

/-! ## Labels -/

/-- An API without a name, or with an empty one. -/
def Anonymous (a : Api) : Prop := a.name = none ∨ a.name = some ""

/-- What an API is called: its name, or the name of its style if it is anonymous. -/
inductive HasLabel (a : Api) : String → Prop
  | named {name : String} (hname : a.name = some name) (hne : name ≠ "") : HasLabel a name
  | anonymous (h : a.Anonymous) : HasLabel a (Literal.label a.style)

theorem label_of_name {name : String} (hname : a.name = some name) (hne : name ≠ "") :
    a.label = name := by
  simp [label, hname, nonEmpty?, hne]

theorem label_of_anonymous (h : a.Anonymous) : a.label = Literal.label a.style := by
  obtain h | h := h <;> rw [label, h] <;> rfl

theorem hasLabel_iff {text : String} : a.HasLabel text ↔ a.label = text := by
  constructor
  · intro h
    cases h with
    | named hname hne => exact label_of_name hname hne
    | anonymous h => exact label_of_anonymous h
  · rintro rfl
    by_cases h : a.Anonymous
    · rw [label_of_anonymous h]
      exact .anonymous h
    · obtain ⟨hnone, hempty⟩ := not_or.1 h
      obtain ⟨name, hname⟩ := Option.ne_none_iff_exists'.1 hnone
      have hne : name ≠ "" := fun he => hempty (by rw [hname, he])
      rw [label_of_name hname hne]
      exact .named hname hne

/-- The names of the styles hold no colon. -/
theorem colon_not_mem_style (style : ApiStyle) : ':' ∉ (Literal.label style).toList := by
  cases style <;> decide

/-! ## Base paths -/

/-- The path that all endpoints of an API share: the text of the first parameter of the first
decorator `prefix`. There is none without such a decorator, and also none if that decorator has no
parameter or an empty text, whatever decorators come after it. -/
inductive HasBasePath (a : Api) : Option String → Prop
  | undecorated (h : ∀ d ∈ a.decorators, d.name ≠ "prefix") : HasBasePath a none
  | bare {d : Decorator} (hfirst : d.IsFirst "prefix" a.decorators) (hparams : d.params = []) :
    HasBasePath a none
  | empty {d : Decorator} {p : Param} {rest : List Param}
    (hfirst : d.IsFirst "prefix" a.decorators) (hparams : d.params = p :: rest)
    (htext : p.value.toText = "") : HasBasePath a none
  | path {d : Decorator} {p : Param} {rest : List Param} {text : String}
    (hfirst : d.IsFirst "prefix" a.decorators) (hparams : d.params = p :: rest)
    (htext : p.value.toText = text) (hne : text ≠ "") : HasBasePath a (some text)

theorem basePath?_of_isFirst {d : Decorator} (h : d.IsFirst "prefix" a.decorators) :
    a.basePath? = (d.params.head?.map fun p => p.value.toText).bind nonEmpty? := by
  rw [basePath?, decoratorText_of_isFirst h]

theorem hasBasePath_basePath? (a : Api) : a.HasBasePath a.basePath? := by
  -- only the first decorator of the name is looked at, even if it has nothing to say
  cases hfind : a.decorators.find? fun d => d.name = "prefix" with
  | none =>
    have hnone : ∀ d ∈ a.decorators, d.name ≠ "prefix" := by simpa using hfind
    rw [basePath?, decoratorText_of_forall_ne hnone]
    exact .undecorated hnone
  | some d =>
    have hfirst := find?_name_eq_some_iff.1 hfind
    rw [basePath?_of_isFirst hfirst]
    cases hparams : d.params with
    | nil => exact .bare hfirst hparams
    | cons p rest =>
      by_cases htext : p.value.toText = ""
      · simpa [nonEmpty?, htext] using HasBasePath.empty hfirst hparams htext
      · simpa [nonEmpty?, htext] using HasBasePath.path hfirst hparams rfl htext

theorem hasBasePath_iff {path : Option String} : a.HasBasePath path ↔ a.basePath? = path := by
  constructor
  · intro h
    cases h with
    | undecorated h => rw [basePath?, decoratorText_of_forall_ne h]; rfl
    | bare hfirst hparams => rw [basePath?_of_isFirst hfirst, hparams]; rfl
    | empty hfirst hparams htext => simp [basePath?_of_isFirst hfirst, hparams, htext]
    | path hfirst hparams htext hne => simp [basePath?_of_isFirst hfirst, hparams, htext, hne]
  · rintro rfl
    exact a.hasBasePath_basePath?

/-! ## Key names -/

/-- What stands behind the label in a key name. -/
def keyTail : Option String → List Char
  | some path => ':' :: path.toList
  | none => []

theorem keyTail_injective : Function.Injective keyTail := by
  intro path path' h
  cases path with
  | none =>
    cases path' with
    | none => rfl
    | some text' => cases h
  | some text =>
    cases path' with
    | none => cases h
    | some text' => rw [String.toList_inj.1 (List.cons.inj h).2]

theorem toList_keyName (a : Api) : a.keyName.toList = a.label.toList ++ keyTail a.basePath? := by
  rw [keyName]
  cases a.basePath? <;> simp [keyTail]

/-- The label is what stands before the first colon of a key name, if it holds none itself. -/
theorem takeWhile_keyName (h : ':' ∉ a.label.toList) :
    a.keyName.toList.takeWhile (fun c => c ≠ ':') = a.label.toList := by
  refine Text.takeWhile_eq_iff.2 ⟨fun c hc => ?_, keyTail a.basePath?, a.toList_keyName, ?_⟩
  · have hne : c ≠ ':' := fun he => h (he ▸ hc)
    simpa using hne
  · cases a.basePath? <;> simp [keyTail]

theorem keyName_eq_iff (ha : ':' ∉ a.label.toList) (hb : ':' ∉ b.label.toList) :
    a.keyName = b.keyName ↔ a.label = b.label ∧ a.basePath? = b.basePath? := by
  constructor
  · intro h
    -- colons of the paths come too late to matter: both labels end at the first one
    have hlabel : a.label = b.label := by
      rw [← String.toList_inj, ← takeWhile_keyName ha, ← takeWhile_keyName hb, h]
    have htail : a.label.toList ++ keyTail a.basePath? = a.label.toList ++ keyTail b.basePath? := by
      rw [← toList_keyName, h, toList_keyName, hlabel]
    exact ⟨hlabel, keyTail_injective (List.append_cancel_left htail)⟩
  · rintro ⟨hlabel, hpath⟩
    rw [keyName, keyName, hlabel, hpath]

/-- **The key of an API identifies its label and its base path.** Every API has one label and at
most one base path, and the label of an anonymous API holds no colon. If the labels of two APIs hold
none, then the APIs share a key exactly if they share the label and the base path, whatever colons
the paths hold. -/
theorem key_eq_iff_same_label_and_path :
    (∀ a : Api, ∃! text, a.HasLabel text) ∧ (∀ a : Api, ∃! path, a.HasBasePath path) ∧
    (∀ (a : Api) (text : String), a.Anonymous → a.HasLabel text → ':' ∉ text.toList) ∧
    ∀ (a b : Api) (text text' : String) (path path' : Option String),
      a.HasLabel text → b.HasLabel text' → a.HasBasePath path → b.HasBasePath path' →
      ':' ∉ text.toList → ':' ∉ text'.toList →
      (a.key = b.key ↔ text = text' ∧ path = path') := by
  simp only [hasLabel_iff, hasBasePath_iff]
  refine ⟨fun a => existsUnique_eq', fun a => existsUnique_eq', ?_, ?_⟩
  · rintro a - h rfl
    rw [label_of_anonymous h]
    exact colon_not_mem_style a.style
  · -- all APIs are of one kind, so that keys differ by their names only
    rintro a b - - - - rfl rfl rfl rfl ha hb
    rw [key, key, Key.mk.injEq, keyName_eq_iff ha hb]
    exact and_iff_right rfl

/-- A `prefix` decorator with texts for parameters. -/
def prefixedBy (texts : List String) : Decorator :=
  ⟨none, "prefix", texts.map fun text => ⟨.string, .text text, none⟩⟩

/-- An API whose first `prefix` has no parameter: the second one is not read. -/
def tollBooth : Api := ⟨none, none, .rest, [prefixedBy [], prefixedBy ["/v1:beta"]], [], []⟩

/-- An API whose base path holds a colon. -/
def tollGate : Api := ⟨none, some "", .rest, [prefixedBy ["/v1:beta", "/v2"]], [], []⟩

/-- The two have one label, and their base paths tell them apart. -/
theorem tollBooth_key_ne_tollGate_key :
    tollBooth.HasLabel "REST" ∧ tollGate.HasLabel "REST" ∧
    tollBooth.HasBasePath none ∧ tollGate.HasBasePath (some "/v1:beta") ∧
    ':' ∉ "REST".toList ∧ tollBooth.key ≠ tollGate.key := by
  have hbooth : tollBooth.HasLabel "REST" := .anonymous (.inl rfl)
  have hgate : tollGate.HasLabel "REST" := .anonymous (.inr rfl)
  have hnone : tollBooth.HasBasePath none :=
    .bare ⟨[], [prefixedBy ["/v1:beta"]], rfl, rfl, List.forall_mem_nil _⟩ rfl
  have hpath : tollGate.HasBasePath (some "/v1:beta") :=
    .path ⟨[], [], rfl, rfl, List.forall_mem_nil _⟩ rfl rfl (by decide)
  have hcolon : ':' ∉ "REST".toList := colon_not_mem_style .rest
  obtain ⟨-, -, -, hkeys⟩ := key_eq_iff_same_label_and_path
  have hiff := hkeys tollBooth tollGate _ _ _ _ hbooth hgate hnone hpath hcolon hcolon
  exact ⟨hbooth, hgate, hnone, hpath, hcolon, fun h => nomatch (hiff.1 h).2⟩

/-- A name may hold a colon, and is then not told from a label and a path. -/
example : keyName ⟨none, some "REST:/v1:beta", .gRPC, [], [], []⟩ = tollGate.keyName := by decide

end Api

end Blueprint
