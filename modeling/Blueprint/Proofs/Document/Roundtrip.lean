import Blueprint.Proofs.Document.Rereading

/-!
# Documents read back

A document that was read is written as a text that is read as the same document. Each class of nodes
has its lemma, which goes through its members in the order in which they are read and ends with the
fields that are written. The names of the fields are listed once, where they are seen to be distinct
and in camel case.

- `KeepsVariant.node`: nodes, after their location and type.
- `TypeExpr.keeps`: type expressions, by induction on the bound to which they were read.
- `Construct.keepsVariants`, `Item.keepsTopLevel`, `Document.keepsWith`: declarations, items and
  documents.
- `Document.parse_toSource`: texts.
-/

namespace Blueprint

open Schema

/-! ## Leaves -/

theorem Position.keeps : Keeps Position.read (fun _ => Position.read) Position.toJson := by
  refine .object ["line", "column", "offset", "source"] ?_ ?_
  · decide
  refine .bind (.required keeps_integer) fun line => ?_
  refine .bind (.required keeps_integer) fun column => ?_
  -- a default is written out, so it has to be kept like a value that was read
  refine .bind (.defaulted keeps_integer kept_zero) fun offset => ?_
  refine .bind (.nullable keeps_string) fun source => ?_
  exact .pure rfl rfl

theorem SourceRange.keeps :
    Keeps SourceRange.read (fun _ => SourceRange.read) SourceRange.toJson := by
  refine .object ["start", "end"] ?_ ?_
  · decide
  refine .bind (.required Position.keeps) fun start => ?_
  refine .bind (.required Position.keeps) fun stop => ?_
  exact .pure rfl rfl

/-- A node keeps what it reads if it does so after its location and its type. -/
theorem Schema.KeepsVariant.node {α : Type} {typeName : String} {w : α → Json}
    {read : Members → Location → Except Mismatch α}
    {read' : Nat → Members → Location → Except Mismatch α} (names : List String)
    (hnames : Json.CamelNames ("loc" :: "type" :: names))
    (h : ∀ loc : Location, KeepsRest ("loc" :: "type" :: names) w
      [("loc", loc.map SourceRange.toJson), ("type", some (.str typeName))]
      (fun m => read m loc) fun n m => read' n m loc) :
    KeepsVariant (nodeVariant typeName read) (fun n => nodeVariant typeName (read' n)) w where
  tag_eq _ := rfl
  kept v a hv ha := by
    have hlocMember : KeepsMember (fun m => nullable m "loc" SourceRange.read)
        (fun _ m => nullable m "loc" SourceRange.read)
        fun loc => ("loc", loc.map SourceRange.toJson) := .nullable SourceRange.keeps
    have htypeMember := KeepsMember.hasType typeName
    have hwhole : KeepsRest _ w [] _ _ :=
      .bind hlocMember fun loc => .bind htypeMember fun _ => h loc
    cases v with
    | obj m =>
      have hm := (Json.everywhere_obj_iff.1 hv).2
      obtain ⟨htidy, -, hread⟩ := hwhole.written hnames hm ha nofun
      refine ⟨htidy, ?_, fun n hn => ?_⟩
      · -- the type is among the fields that come before the rest, so it is found under its name
        obtain ⟨loc, hloc, ha⟩ := exists_of_bind_eq_ok ha
        obtain ⟨_, htype, ha⟩ := exists_of_bind_eq_ok ha
        have hbefore : ∀ k v, (k, some v) ∈ [("loc", loc.map SourceRange.toJson),
            ("type", some (.str typeName))] → v.Everywhere Json.Tidy := by
          intro k v hv
          rcases List.mem_cons.1 hv with hv | hv
          · exact (hlocMember m loc hm hloc).1 v (Prod.mk.inj hv).2.symm
          · exact (htypeMember m () hm htype).1 v (Prod.mk.inj (List.mem_singleton.1 hv)).2.symm
        obtain ⟨-, hmember, -⟩ := (h loc).written hnames hm ha hbefore
        exact hmember "type" _ (List.mem_cons_of_mem _ List.mem_cons_self)
      · obtain ⟨m', hw, hm'⟩ := hread n hn
        rw [hw]
        exact hm'
    | _ => cases ha

theorem Scalar.keeps : Keeps Scalar.read (fun _ => Scalar.read) Scalar.toJson := by
  intro v a hv ha
  cases v with
  | int n =>
    cases ha
    exact ⟨Json.everywhere_of_isLeaf rfl ⟨hv.self, trivial⟩, fun _ _ => rfl⟩
  | bool b =>
    cases ha
    -- a truth value comes back as a number, which is how it was read
    have hplain : (Json.int (if b then 1 else 0)).Plain :=
      Json.plain_int_of_lt Nat.one_pos (by decide) (by cases b <;> decide)
    exact ⟨Json.everywhere_of_isLeaf rfl ⟨hplain, trivial⟩, fun _ _ => rfl⟩
  | float x =>
    cases ha
    exact ⟨Json.everywhere_of_isLeaf rfl ⟨hv.self, trivial⟩, fun _ _ => rfl⟩
  | str s =>
    cases ha
    exact ⟨Json.everywhere_of_isLeaf rfl ⟨trivial, trivial⟩, fun _ _ => rfl⟩
  | null => cases ha
  | arr vs => cases ha
  | obj ms => cases ha

theorem Param.keeps : Keeps Param.read (fun _ => Param.read) Param.toJson := by
  refine .object ["kind", "value", "unit"] ?_ ?_
  · decide
  refine .bind (.required keeps_literal) fun kind => ?_
  refine .bind (.required Scalar.keeps) fun value => ?_
  refine .bind (.nullable keeps_string) fun unit => ?_
  exact .pure rfl rfl

theorem Decorator.keeps :
    KeepsVariant Decorator.variant (fun _ => Decorator.variant) Decorator.toJson := by
  refine .node ["name", "params"] ?_ fun loc => ?_
  · decide
  refine .bind (.required keeps_string) fun name => ?_
  refine .bind (.items Param.keeps) fun params => ?_
  exact .pure rfl rfl

theorem keepsMember_decorators :
    KeepsMember readDecorators (fun _ => readDecorators) decoratorsField :=
  .items Decorator.keeps.read

theorem Comment.keeps : KeepsVariant Comment.variant (fun _ => Comment.variant) Comment.toJson := by
  refine .node ["text"] ?_ fun loc => ?_
  · decide
  refine .bind (.required keeps_string) fun text => ?_
  exact .pure rfl rfl

/-! ## Type expressions -/

section

variable {type : Reader TypeExpr} {type' : Nat → Reader TypeExpr}

theorem Field.keeps (htype : Keeps type type' TypeExpr.toJson) :
    KeepsVariant (Field.variant type) (fun n => Field.variant (type' n)) Field.toJson := by
  refine .node ["name", "fieldType", "decorators"] ?_ fun loc => ?_
  · decide
  refine .bind (.required keeps_string) fun name => ?_
  -- the second name is in snake case and never written, so the first one finds the member again
  refine .bind (.requiredOr (by decide) htype) fun type => ?_
  refine .bind keepsMember_decorators fun decorators => ?_
  exact .pure rfl rfl

theorem TypeExpr.keepsVariants (htype : Keeps type type' TypeExpr.toJson) :
    KeepsUnion TypeExpr.toJson (TypeExpr.variants type) fun n => TypeExpr.variants (type' n) := by
  refine .cons ?_ <| .cons ?_ <| .cons ?_ <| .cons ?_ <| .cons ?_ <| .cons ?_ .nil
  · refine .node ["name"] ?_ fun loc => ?_
    · decide
    exact .bind (.required keeps_literal) fun name => .pure rfl rfl
  · refine .node ["name"] ?_ fun loc => ?_
    · decide
    exact .bind (.required keeps_string) fun name => .pure rfl rfl
  · refine .node ["inner"] ?_ fun loc => ?_
    · decide
    exact .bind (.required htype) fun inner => .pure rfl rfl
  · refine .node ["inner"] ?_ fun loc => ?_
    · decide
    exact .bind (.required htype) fun inner => .pure rfl rfl
  · refine .node ["alternatives"] ?_ fun loc => ?_
    · decide
    refine .bind (.items htype) fun alternatives => .pure ?_ rfl
    rw [TypeExpr.toJson, typeExprsJson_eq_map]
    rfl
  · refine .node ["fields"] ?_ fun loc => ?_
    · decide
    refine .bind (.items (Field.keeps htype).read) fun fields => .pure ?_ rfl
    rw [TypeExpr.toJson, fieldsJson_eq_map]
    rfl

/-- Type expressions that were read to some bound are read again to any bound that is large
enough. -/
theorem TypeExpr.keeps (k : Nat) : Keeps (TypeExpr.read k) TypeExpr.read TypeExpr.toJson := by
  induction k with
  | zero => exact nofun
  | succ k ih =>
    intro v a hv ha
    obtain ⟨htidy, hread⟩ := (TypeExpr.keepsVariants ih).kept hv ha
    refine ⟨htidy, fun n hn => ?_⟩
    cases n with
    | zero => exact absurd hn (Nat.not_le_of_gt (Json.depth_pos _))
    | succ n =>
      -- the parts have one level less, which is what the variants promise
      exact hread n hn

end

/-! ## Parts of bodies -/

section

variable {type : Reader TypeExpr} {type' : Nat → Reader TypeExpr}

theorem Property.keeps (htype : Keeps type type' TypeExpr.toJson) :
    KeepsVariant (Property.variant type) (fun n => Property.variant (type' n)) Property.toJson := by
  refine .node ["name", "propType", "decorators"] ?_ fun loc => ?_
  · decide
  refine .bind (.required keeps_string) fun name => ?_
  refine .bind (.requiredOr (by decide) htype) fun type => ?_
  refine .bind keepsMember_decorators fun decorators => ?_
  exact .pure rfl rfl

theorem Form.keeps (htype : Keeps type type' TypeExpr.toJson) :
    KeepsVariant (Form.variant type) (fun n => Form.variant (type' n)) Form.toJson := by
  refine .node ["name", "fields"] ?_ fun loc => ?_
  · decide
  refine .bind (.nullable keeps_string) fun name => ?_
  refine .bind (.items (Field.keeps htype).read) fun fields => ?_
  exact .pure rfl rfl

theorem ElementUse.keeps :
    KeepsVariant ElementUse.variant (fun _ => ElementUse.variant) ElementUse.toJson := by
  refine .node ["element", "alias", "decorators"] ?_ fun loc => ?_
  · decide
  refine .bind (.required keeps_string) fun element => ?_
  refine .bind (.defaulted keeps_string (kept_string "")) fun label => ?_
  refine .bind keepsMember_decorators fun decorators => ?_
  exact .pure rfl rfl

theorem EnumValue.keeps :
    KeepsVariant EnumValue.variant (fun _ => EnumValue.variant) EnumValue.toJson := by
  refine .node ["name"] ?_ fun loc => ?_
  · decide
  refine .bind (.required keeps_string) fun name => ?_
  exact .pure rfl rfl

theorem Branch.keeps :
    KeepsVariant Branch.variant (fun _ => Branch.variant) Branch.toJson := by
  refine .node ["condition", "action"] ?_ fun loc => ?_
  · decide
  refine .bind (.required keeps_string) fun condition => ?_
  refine .bind (.required keeps_string) fun action => ?_
  exact .pure rfl rfl

theorem FlowStep.keeps :
    KeepsVariant FlowStep.variant (fun _ => FlowStep.variant) FlowStep.toJson := by
  refine .node ["hasArrow", "action", "args", "decorators", "branches"] ?_ fun loc => ?_
  · decide
  refine .bind (.defaultedOr (by decide) keeps_boolean (kept_boolean true)) fun hasArrow => ?_
  refine .bind (.required keeps_string) fun action => ?_
  refine .bind (.nullable keeps_string) fun args => ?_
  refine .bind keepsMember_decorators fun decorators => ?_
  refine .bind (.items Branch.keeps.read) fun branches => ?_
  exact .pure rfl rfl

theorem OverrideStep.keeps :
    KeepsVariant OverrideStep.variant (fun _ => OverrideStep.variant) OverrideStep.toJson := by
  refine .node ["target", "action", "args", "decorators"] ?_ fun loc => ?_
  · decide
  refine .bind (.required keeps_string) fun target => ?_
  refine .bind (.required keeps_string) fun action => ?_
  refine .bind (.nullable keeps_string) fun args => ?_
  refine .bind keepsMember_decorators fun decorators => ?_
  exact .pure rfl rfl

theorem EventClause.keeps (typeName : String) :
    KeepsVariant (EventClause.variant typeName)
      (fun _ => EventClause.variant typeName) (EventClause.toJson typeName) := by
  refine .node ["event"] ?_ fun loc => ?_
  · decide
  refine .bind (.required keeps_string) fun event => ?_
  exact .pure rfl rfl

theorem RuleClause.keeps :
    KeepsVariant RuleClause.variant (fun _ => RuleClause.variant) RuleClause.toJson := by
  refine .node ["rule"] ?_ fun loc => ?_
  · decide
  refine .bind (.required keeps_string) fun rule => ?_
  exact .pure rfl rfl

theorem EndpointClause.keeps (typeName : String) :
    KeepsVariant (EndpointClause.variant typeName)
      (fun _ => EndpointClause.variant typeName) (EndpointClause.toJson typeName) := by
  refine .node ["method", "path"] ?_ fun loc => ?_
  · decide
  refine .bind (.required keeps_string) fun method => ?_
  refine .bind (.required keeps_string) fun path => ?_
  exact .pure rfl rfl

theorem SignalClause.keeps (typeName : String) :
    KeepsVariant (SignalClause.variant typeName)
      (fun _ => SignalClause.variant typeName) (SignalClause.toJson typeName) := by
  refine .node ["signal"] ?_ fun loc => ?_
  · decide
  refine .bind (.required keeps_string) fun signal => ?_
  exact .pure rfl rfl

theorem Transition.keeps :
    KeepsVariant Transition.variant (fun _ => Transition.variant) Transition.toJson := by
  refine .node ["from", "to", "event", "decorators"] ?_ fun loc => ?_
  · decide
  refine .bind (.requiredOr (by decide) keeps_string) fun source => ?_
  refine .bind (.required keeps_string) fun target => ?_
  refine .bind (.nullable keeps_string) fun event => ?_
  refine .bind keepsMember_decorators fun decorators => ?_
  exact .pure rfl rfl

theorem JourneyStep.keeps :
    KeepsVariant JourneyStep.variant (fun _ => JourneyStep.variant) JourneyStep.toJson := by
  refine .node ["from", "to", "trigger", "decorators"] ?_ fun loc => ?_
  · decide
  refine .bind (.requiredOr (by decide) keeps_string) fun source => ?_
  refine .bind (.required keeps_string) fun target => ?_
  refine .bind (.defaulted keeps_string (kept_string "")) fun trigger => ?_
  refine .bind keepsMember_decorators fun decorators => ?_
  exact .pure rfl rfl

theorem ActionResult.keeps :
    KeepsVariant ActionResult.variant (fun _ => ActionResult.variant) ActionResult.toJson := by
  refine .node ["outcome", "screen", "decorators"] ?_ fun loc => ?_
  · decide
  refine .bind (.required keeps_string) fun outcome => ?_
  refine .bind (.required keeps_string) fun screen => ?_
  refine .bind keepsMember_decorators fun decorators => ?_
  exact .pure rfl rfl

theorem Endpoint.keepsVariants (htype : Keeps type type' TypeExpr.toJson) :
    KeepsUnion Endpoint.toJson (Endpoint.variants type) fun n => Endpoint.variants (type' n) := by
  refine .cons ?_ <| .cons ?_ .nil
  · refine .node ["method", "path", "inputType", "returnType", "decorators"] ?_ fun loc => ?_
    · decide
    refine .bind (.required keeps_literal) fun method => ?_
    refine .bind (.required keeps_string) fun path => ?_
    refine .bind (.nullableOr (by decide) htype) fun input => ?_
    refine .bind (.nullableOr (by decide) htype) fun output => ?_
    refine .bind keepsMember_decorators fun decorators => ?_
    exact .pure rfl rfl
  · refine .node ["method", "path", "body", "response", "query", "decorators"] ?_ fun loc => ?_
    · decide
    refine .bind (.required keeps_literal) fun method => ?_
    refine .bind (.required keeps_string) fun path => ?_
    refine .bind (.nullable htype) fun input => ?_
    refine .bind (.nullable htype) fun output => ?_
    refine .bind (.nullable htype) fun query => ?_
    refine .bind keepsMember_decorators fun decorators => ?_
    exact .pure rfl rfl

/-! ## Bodies -/

theorem ElementItem.keepsVariants (htype : Keeps type type' TypeExpr.toJson) :
    KeepsUnion ElementItem.toJson (ElementItem.variants type)
      fun n => ElementItem.variants (type' n) :=
  .cons ((Property.keeps htype).map fun _ => rfl) <|
  .cons ((Form.keeps htype).map fun _ => rfl) <|
  .cons (Comment.keeps.map fun _ => rfl) .nil

theorem ScreenItem.keepsVariants (htype : Keeps type type' TypeExpr.toJson) :
    KeepsUnion ScreenItem.toJson (ScreenItem.variants type)
      fun n => ScreenItem.variants (type' n) :=
  .cons (ElementUse.keeps.map fun _ => rfl) <|
  .cons ((Form.keeps htype).map fun _ => rfl) <|
  .cons (Comment.keeps.map fun _ => rfl) .nil

theorem FlowItem.keepsVariants :
    KeepsUnion FlowItem.toJson FlowItem.variants fun _ => FlowItem.variants :=
  .cons (FlowStep.keeps.map fun _ => rfl) <|
  .cons (OverrideStep.keeps.map fun _ => rfl) <|
  .cons ((EventClause.keeps "OnClause").map fun _ => rfl) <|
  .cons ((EventClause.keeps "EmitsClause").map fun _ => rfl) <|
  .cons ((EndpointClause.keeps "OperationHandlesClause").map fun _ => rfl) <|
  .cons (Comment.keeps.map fun _ => rfl) .nil

theorem RuleItem.keepsVariants :
    KeepsUnion RuleItem.toJson RuleItem.variants fun _ => RuleItem.variants := by
  refine .cons ?_ <| .cons ?_ <| .cons ?_ <| .cons ?_ <|
    .cons (Comment.keeps.map fun _ => rfl) .nil
  · refine .node ["expression"] ?_ fun loc => ?_
    · decide
    exact .bind (.required keeps_string) fun expression => .pure rfl rfl
  · refine .node ["action"] ?_ fun loc => ?_
    · decide
    exact .bind (.required keeps_string) fun action => .pure rfl rfl
  · refine .node ["condition", "action"] ?_ fun loc => ?_
    · decide
    refine .bind (.required keeps_string) fun condition => ?_
    exact .bind (.required keeps_string) fun action => .pure rfl rfl
  · refine .node ["action"] ?_ fun loc => ?_
    · decide
    exact .bind (.required keeps_string) fun action => .pure rfl rfl

theorem JourneyItem.keepsVariants :
    KeepsUnion JourneyItem.toJson JourneyItem.variants fun _ => JourneyItem.variants :=
  .cons (JourneyStep.keeps.map fun _ => rfl) <| .cons (Comment.keeps.map fun _ => rfl) .nil

theorem OperationItem.keepsVariants :
    KeepsUnion OperationItem.toJson OperationItem.variants fun _ => OperationItem.variants :=
  .cons ((EndpointClause.keeps "OperationHandlesClause").map fun _ => rfl) <|
  .cons ((EndpointClause.keeps "OperationCallsClause").map fun _ => rfl) <|
  .cons ((EventClause.keeps "EmitsClause").map fun _ => rfl) <|
  .cons ((EventClause.keeps "OnClause").map fun _ => rfl) <|
  .cons (RuleClause.keeps.map fun _ => rfl) <| .cons (Comment.keeps.map fun _ => rfl) .nil

theorem ActionItem.keepsVariants :
    KeepsUnion ActionItem.toJson ActionItem.variants fun _ => ActionItem.variants := by
  refine .cons ?_ <| .cons ((EndpointClause.keeps "ActionCallsClause").map fun _ => rfl) <|
    .cons ?_ <| .cons ((SignalClause.keeps "ActionOnSignalClause").map fun _ => rfl) <|
    .cons ((SignalClause.keeps "ActionEmitsSignalClause").map fun _ => rfl) <|
    .cons (ActionResult.keeps.map fun _ => rfl) <| .cons (Comment.keeps.map fun _ => rfl) .nil
  · refine .node ["screen"] ?_ fun loc => ?_
    · decide
    exact .bind (.required keeps_string) fun screen => .pure rfl rfl
  · refine .node ["path"] ?_ fun loc => ?_
    · decide
    exact .bind (.required keeps_string) fun path => .pure rfl rfl

/-! ## Declarations -/

theorem Named.keeps (typeName : String) :
    KeepsVariant (Named.variant typeName)
      (fun _ => Named.variant typeName) (Named.toJson typeName) := by
  refine .node ["name", "decorators"] ?_ fun loc => ?_
  · decide
  refine .bind (.required keeps_string) fun name => ?_
  refine .bind keepsMember_decorators fun decorators => ?_
  exact .pure rfl rfl

theorem Structured.keeps (typeName : String) (htype : Keeps type type' TypeExpr.toJson) :
    KeepsVariant (Structured.variant type typeName)
      (fun n => Structured.variant (type' n) typeName) (Structured.toJson typeName) := by
  refine .node ["name", "extends", "implements", "decorators", "fields"] ?_ fun loc => ?_
  · decide
  refine .bind (.required keeps_string) fun name => ?_
  refine .bind (.nullable keeps_string) fun parent => ?_
  refine .bind (.items keeps_string) fun interfaces => ?_
  refine .bind keepsMember_decorators fun decorators => ?_
  refine .bind (.items (Field.keeps htype).read) fun fields => ?_
  exact .pure rfl rfl

theorem Dependency.keeps :
    KeepsVariant Dependency.variant (fun _ => Dependency.variant) Dependency.toJson := by
  refine .node ["target", "decorators"] ?_ fun loc => ?_
  · decide
  refine .bind (.required keeps_string) fun target => ?_
  refine .bind keepsMember_decorators fun decorators => ?_
  exact .pure rfl rfl

theorem Element.keeps (htype : Keeps type type' TypeExpr.toJson) :
    KeepsVariant (Element.variant type) (fun n => Element.variant (type' n)) Element.toJson := by
  refine .node ["name", "extends", "implements", "decorators", "body"] ?_ fun loc => ?_
  · decide
  refine .bind (.required keeps_string) fun name => ?_
  refine .bind (.nullable keeps_string) fun parent => ?_
  refine .bind (.items keeps_string) fun interfaces => ?_
  refine .bind keepsMember_decorators fun decorators => ?_
  refine .bind (.items (ElementItem.keepsVariants htype).tagged) fun body => ?_
  exact .pure rfl rfl

theorem Enumeration.keeps :
    KeepsVariant Enumeration.variant (fun _ => Enumeration.variant) Enumeration.toJson := by
  refine .node ["name", "decorators", "values"] ?_ fun loc => ?_
  · decide
  refine .bind (.required keeps_string) fun name => ?_
  refine .bind keepsMember_decorators fun decorators => ?_
  refine .bind (.items EnumValue.keeps.read) fun values => ?_
  exact .pure rfl rfl

theorem Flow.keeps (htype : Keeps type type' TypeExpr.toJson) :
    KeepsVariant (Flow.variant type) (fun n => Flow.variant (type' n)) Flow.toJson := by
  refine .node ["name", "extends", "implements", "params", "returnType", "decorators",
    "body"] ?_ fun loc => ?_
  · decide
  refine .bind (.required keeps_string) fun name => ?_
  refine .bind (.nullable keeps_string) fun parent => ?_
  refine .bind (.items keeps_string) fun interfaces => ?_
  refine .bind (.items htype) fun params => ?_
  refine .bind (.nullableOr (by decide) htype) fun returnType => ?_
  refine .bind keepsMember_decorators fun decorators => ?_
  refine .bind (.items FlowItem.keepsVariants.tagged) fun body => ?_
  exact .pure rfl rfl

theorem StateMachine.keeps :
    KeepsVariant StateMachine.variant (fun _ => StateMachine.variant) StateMachine.toJson := by
  refine .node ["name", "enumRef", "decorators", "transitions",
    "comments"] ?_ fun loc => ?_
  · decide
  refine .bind (.required keeps_string) fun name => ?_
  refine .bind (.requiredOr (by decide) keeps_string) fun enumRef => ?_
  refine .bind keepsMember_decorators fun decorators => ?_
  refine .bind (.items Transition.keeps.read) fun transitions => ?_
  refine .bind (.items Comment.keeps.read) fun comments => ?_
  exact .pure rfl rfl

theorem ApiStyle.kept_rest :
    Kept (fun _ => literal) (fun s : ApiStyle => .str (Literal.label s)) .rest :=
  ⟨Json.everywhere_of_isLeaf rfl ⟨trivial, trivial⟩, fun _ _ => rfl⟩

theorem Api.keeps (htype : Keeps type type' TypeExpr.toJson) :
    KeepsVariant (Api.variant type) (fun n => Api.variant (type' n)) Api.toJson := by
  refine .node ["name", "style", "decorators", "endpoints", "comments"] ?_ fun loc => ?_
  · decide
  refine .bind (.nullable keeps_string) fun name => ?_
  refine .bind (.defaulted keeps_literal ApiStyle.kept_rest) fun style => ?_
  refine .bind keepsMember_decorators fun decorators => ?_
  refine .bind (.items (Endpoint.keepsVariants htype).tagged) fun endpoints => ?_
  refine .bind (.items Comment.keeps.read) fun comments => ?_
  exact .pure rfl rfl

theorem Rule.keeps :
    KeepsVariant Rule.variant (fun _ => Rule.variant) Rule.toJson := by
  refine .node ["name", "decorators", "body"] ?_ fun loc => ?_
  · decide
  refine .bind (.required keeps_string) fun name => ?_
  refine .bind keepsMember_decorators fun decorators => ?_
  refine .bind (.items RuleItem.keepsVariants.tagged) fun body => ?_
  exact .pure rfl rfl

theorem Screen.keeps (htype : Keeps type type' TypeExpr.toJson) :
    KeepsVariant (Screen.variant type) (fun n => Screen.variant (type' n)) Screen.toJson := by
  refine .node ["name", "extends", "implements", "decorators", "body"] ?_ fun loc => ?_
  · decide
  refine .bind (.required keeps_string) fun name => ?_
  refine .bind (.nullable keeps_string) fun parent => ?_
  refine .bind (.items keeps_string) fun interfaces => ?_
  refine .bind keepsMember_decorators fun decorators => ?_
  refine .bind (.items (ScreenItem.keepsVariants htype).tagged) fun body => ?_
  exact .pure rfl rfl

theorem Journey.keeps :
    KeepsVariant Journey.variant (fun _ => Journey.variant) Journey.toJson := by
  refine .node ["name", "decorators", "body"] ?_ fun loc => ?_
  · decide
  refine .bind (.required keeps_string) fun name => ?_
  refine .bind keepsMember_decorators fun decorators => ?_
  refine .bind (.items JourneyItem.keepsVariants.tagged) fun body => ?_
  exact .pure rfl rfl

theorem Operation.keeps (htype : Keeps type type' TypeExpr.toJson) :
    KeepsVariant (Operation.variant type)
      (fun n => Operation.variant (type' n)) Operation.toJson := by
  refine .node ["name", "params", "returnType", "decorators", "body"] ?_ fun loc => ?_
  · decide
  refine .bind (.required keeps_string) fun name => ?_
  refine .bind (.items htype) fun params => ?_
  refine .bind (.nullableOr (by decide) htype) fun returnType => ?_
  refine .bind keepsMember_decorators fun decorators => ?_
  refine .bind (.items OperationItem.keepsVariants.tagged) fun body => ?_
  exact .pure rfl rfl

theorem Action.keeps (htype : Keeps type type' TypeExpr.toJson) :
    KeepsVariant (Action.variant type) (fun n => Action.variant (type' n)) Action.toJson := by
  refine .node ["name", "params", "decorators", "body"] ?_ fun loc => ?_
  · decide
  refine .bind (.required keeps_string) fun name => ?_
  refine .bind (.items htype) fun params => ?_
  refine .bind keepsMember_decorators fun decorators => ?_
  refine .bind (.items ActionItem.keepsVariants.tagged) fun body => ?_
  exact .pure rfl rfl

theorem Construct.keepsVariants (htype : Keeps type type' TypeExpr.toJson) :
    KeepsUnion Construct.toJson (Construct.variants type) fun n => Construct.variants (type' n) :=
  .cons (Dependency.keeps.map fun _ => rfl) <|
  .cons ((Named.keeps "SecretDecl").map fun _ => rfl) <|
  .cons ((Named.keeps "NodeDecl").map fun _ => rfl) <|
  .cons ((Element.keeps htype).map fun _ => rfl) <|
  .cons ((Structured.keeps "EntityDecl" htype).map fun _ => rfl) <|
  .cons (Enumeration.keeps.map fun _ => rfl) <|
  .cons ((Flow.keeps htype).map fun _ => rfl) <|
  .cons (StateMachine.keeps.map fun _ => rfl) <|
  .cons ((Structured.keeps "EventDecl" htype).map fun _ => rfl) <|
  .cons ((Structured.keeps "SignalDecl" htype).map fun _ => rfl) <|
  .cons ((Api.keeps htype).map fun _ => rfl) <|
  .cons (Rule.keeps.map fun _ => rfl) <|
  .cons ((Screen.keeps htype).map fun _ => rfl) <|
  .cons (Journey.keeps.map fun _ => rfl) <|
  .cons ((Operation.keeps htype).map fun _ => rfl) <|
  .cons ((Action.keeps htype).map fun _ => rfl) .nil

/-! ## Items -/

theorem Inclusion.keeps :
    KeepsVariant Inclusion.variant (fun _ => Inclusion.variant) Inclusion.toJson := by
  refine .node ["path"] ?_ fun loc => ?_
  · decide
  refine .bind (.required keeps_string) fun path => ?_
  exact .pure rfl rfl

theorem Unparsed.keeps :
    KeepsVariant Unparsed.variant (fun _ => Unparsed.variant) Unparsed.toJson := by
  refine .node ["raw", "context"] ?_ fun loc => ?_
  · decide
  refine .bind (.required keeps_string) fun raw => ?_
  refine .bind (.defaulted keeps_string (kept_string "")) fun context => ?_
  exact .pure rfl rfl

namespace Item

theorem keepsInComponent (htype : Keeps type type' TypeExpr.toJson) :
    KeepsUnion Item.toJson (inComponent type) fun n => inComponent (type' n) :=
  .append ((Construct.keepsVariants htype).map fun _ => rfl) <|
  .cons (Inclusion.keeps.map fun _ => rfl) <|
  .cons (Comment.keeps.map fun _ => rfl) <|
  .cons (Unparsed.keeps.map fun _ => rfl) .nil

theorem keepsComponent (htype : Keeps type type' TypeExpr.toJson) :
    KeepsVariant (componentVariant type) (fun n => componentVariant (type' n)) Item.toJson := by
  refine .node ["name", "extends", "implements", "decorators", "body"] ?_ fun loc => ?_
  · decide
  refine .bind (.required keeps_string) fun name => ?_
  refine .bind (.nullable keeps_string) fun parent => ?_
  refine .bind (.items keeps_string) fun interfaces => ?_
  refine .bind keepsMember_decorators fun decorators => ?_
  refine .bind (.items (keepsInComponent htype).tagged) fun body => .pure ?_ rfl
  rw [Item.toJson, itemsJson_eq_map]
  rfl

theorem keepsInSystem (htype : Keeps type type' TypeExpr.toJson) :
    KeepsUnion Item.toJson (inSystem type) fun n => inSystem (type' n) :=
  .cons (Inclusion.keeps.map fun _ => rfl) <|
  .cons (keepsComponent htype) <|
  .cons (Comment.keeps.map fun _ => rfl) <|
  .cons (Unparsed.keeps.map fun _ => rfl) .nil

theorem keepsSystem (htype : Keeps type type' TypeExpr.toJson) :
    KeepsVariant (systemVariant type) (fun n => systemVariant (type' n)) Item.toJson := by
  refine .node ["name", "decorators", "body"] ?_ fun loc => ?_
  · decide
  refine .bind (.required keeps_string) fun name => ?_
  refine .bind keepsMember_decorators fun decorators => ?_
  refine .bind (.items (keepsInSystem htype).tagged) fun body => .pure ?_ rfl
  -- items are written by a recursion of their own, which is a map over the list
  rw [Item.toJson, itemsJson_eq_map]
  rfl

theorem keepsTopLevel (htype : Keeps type type' TypeExpr.toJson) :
    KeepsUnion Item.toJson (topLevel type) fun n => topLevel (type' n) :=
  .cons (keepsSystem htype) <| .cons (keepsComponent htype) <| keepsInComponent htype

end Item

theorem Document.keepsWith (htype : Keeps type type' TypeExpr.toJson) :
    Keeps (Document.readWith type) (fun n => Document.readWith (type' n)) Document.toJson := by
  refine .object ["loc", "type", "body"] ?_ ?_
  · decide
  refine .bind (.nullable SourceRange.keeps) fun loc => ?_
  refine .bind (KeepsMember.hasType "MfdDocument") fun _ => ?_
  refine .bind (.items (Item.keepsTopLevel htype).tagged) fun body => .pure ?_ rfl
  rw [Document.toJson, itemsJson_eq_map]
  rfl

end

/-! ## Texts -/

namespace Document

/-- What a document that was read from a plain value is written as is read as this document. -/
theorem read_toJson {v : Json} (hv : v.Everywhere Json.Plain) {d : Document}
    (h : Document.read v = .ok d) :
    d.toJson.Everywhere Json.Tidy ∧ Document.read d.toJson = .ok d := by
  obtain ⟨htidy, hread⟩ := keepsWith (TypeExpr.keeps v.depth) v d hv h
  exact ⟨htidy, hread d.toJson.depth (Nat.le_refl _)⟩

theorem parse_eq_ok_iff {source path : String} {d : Document} :
    parse source path = .ok d ↔
      ∃ v, Json.decode source = .ok v ∧ Document.read v = .ok d := by
  unfold parse
  constructor
  · intro h
    split at h
    · cases h
    · next v hv =>
      split at h
      · cases h
      · next d' hd =>
        cases h
        exact ⟨v, hv, hd⟩
  · rintro ⟨v, hv, hd⟩
    rw [hv]
    simp only [hd]

/-- **Reading undoes writing.** A document that was read from some text is written without null and
without keys in snake case, as a text that stands for just this value and is read as the same
document. So is every other text that stands for this value, in whatever layout. -/
theorem parse_toSource {source path : String} {d : Document} (h : parse source path = .ok d) :
    d.toJson.Everywhere Json.Normal ∧ Json.decode d.toSource = .ok d.toJson ∧
      (∀ path', parse d.toSource path' = .ok d) ∧
      ∀ text, Json.decode text = .ok d.toJson → ∀ path', parse text path' = .ok d := by
  -- a text stands for a plain value, which is all that rereading asks for
  obtain ⟨v, hv, hd⟩ := parse_eq_ok_iff.1 h
  obtain ⟨htidy, hread⟩ := read_toJson (Json.everywhere_plain_decode hv) hd
  have hsource : Json.decode d.toSource = .ok d.toJson :=
    Json.decode_render (htidy.mono fun _ hw => hw.1)
  have htext : ∀ text, Json.decode text = .ok d.toJson → ∀ path', parse text path' = .ok d :=
    fun text htext path' => parse_eq_ok_iff.2 ⟨d.toJson, htext, hread⟩
  exact ⟨htidy.mono fun _ hw => hw.2, hsource, htext d.toSource hsource, htext⟩

/-- A state machine in loose form: a key in snake case, numbers as texts and truth values, nulls, a
member that is not known, and hardly any of the members that have a default. -/
def looseBerth : Json :=
  .obj [("body", .arr [.obj [("type", .str "StateDecl"), ("name", .str "Berth"),
    ("enum_ref", .str "Phase"), ("note", .null),
    ("loc", .obj [("start", .obj [("line", .str " +1 "), ("column", .bool true)]),
      ("end", .obj [("line", .str "2_0"), ("column", .bool false), ("source", .null)])])]])]

/-- The document of the state machine. -/
def berth : Document where
  body := [.construct (.state
    { loc := some ⟨{ line := 1, column := 1 }, { line := 20, column := 0 }⟩
      name := "Berth", enumRef := "Phase", decorators := [], transitions := [], comments := [] })]

/-- The state machine in the form in which it is written. -/
def strictBerth : Json :=
  .obj [("type", .str "MfdDocument"), ("body", .arr [.obj [
    ("loc", .obj [("start", .obj [("line", .int 1), ("column", .int 1), ("offset", .int 0)]),
      ("end", .obj [("line", .int 20), ("column", .int 0), ("offset", .int 0)])]),
    ("type", .str "StateDecl"), ("name", .str "Berth"), ("enumRef", .str "Phase"),
    ("decorators", .arr []), ("transitions", .arr []), ("comments", .arr [])]])]

theorem berth_parse_toSource :
    parse looseBerth.render "berth.json" = .ok berth ∧ berth.toJson = strictBerth ∧
      berth.toJson.Everywhere Json.Normal ∧ Json.decode berth.toSource = .ok berth.toJson ∧
      (∀ path', parse berth.toSource path' = .ok berth) ∧
      ∀ text, Json.decode text = .ok berth.toJson → ∀ path', parse text path' = .ok berth := by
  have hplain : looseBerth.Everywhere Json.Plain := by
    simp only [looseBerth, Json.everywhere_obj_iff, Json.everywhere_arr_iff, List.forall_mem_cons]
    and_intros <;> first | exact Json.everywhere_of_isLeaf rfl trivial | simp [Json.Plain]
  have hparse : parse looseBerth.render "berth.json" = .ok berth :=
    parse_eq_ok_iff.2 ⟨looseBerth, Json.decode_render hplain, rfl⟩
  exact ⟨hparse, rfl, parse_toSource hparse⟩

end Document

end Blueprint
