import Blueprint.Model.Basic

/-!
# Revisions of models

A document can be written in ways that make no difference to what it declares. A type can be wrapped
or its alternatives grouped in another way, a comment can be added, a line that nobody can parse can
be left out. A revision says how: it gives another expression for each type, and it keeps remarks or
strikes them out, remarks being comments and lines that could not be parsed. Two documents that a
revision makes equal differ only in what the revision rewrites.

- `Revision`, `Revision.Faithful`: revisions, and those that keep the references of types.
- `Model.revise`, `Document.revise`: the revised model and document.
- `Document.collect_revise`: revising a document revises its model.
- `Model.keysOf_revise`, `Model.stats_revise`: names and numbers of declarations stay.
-/

namespace Blueprint

/-! ## Comments in bodies -/

/-- What can stand in a body where comments can stand too. -/
class Annotated (α : Type) where
  comment : Comment → α
  isComment : α → Bool
  isComment_iff {i : α} : isComment i = true ↔ ∃ c, comment c = i

instance : Annotated Comment where
  comment c := c
  isComment _ := true
  isComment_iff := by simp

instance : Annotated ElementItem where
  comment := .comment
  isComment
    | .comment _ => true
    | _ => false
  isComment_iff {i} := by cases i <;> simp

instance : Annotated ScreenItem where
  comment := .comment
  isComment
    | .comment _ => true
    | _ => false
  isComment_iff {i} := by cases i <;> simp

instance : Annotated FlowItem where
  comment := .comment
  isComment
    | .comment _ => true
    | _ => false
  isComment_iff {i} := by cases i <;> simp

instance : Annotated RuleItem where
  comment := .comment
  isComment
    | .comment _ => true
    | _ => false
  isComment_iff {i} := by cases i <;> simp

instance : Annotated JourneyItem where
  comment := .comment
  isComment
    | .comment _ => true
    | _ => false
  isComment_iff {i} := by cases i <;> simp

instance : Annotated OperationItem where
  comment := .comment
  isComment
    | .comment _ => true
    | _ => false
  isComment_iff {i} := by cases i <;> simp

instance : Annotated ActionItem where
  comment := .comment
  isComment
    | .comment _ => true
    | _ => false
  isComment_iff {i} := by cases i <;> simp

/-! ## Revisions -/

/-- A way to revise declarations. -/
structure Revision where
  /-- What stands for a type expression. -/
  type : TypeExpr → TypeExpr
  /-- Whether comments and lines that could not be parsed stay. -/
  keepsRemarks : Bool

namespace Revision

variable {α β : Type} [Annotated α] {r : Revision}

/-- A revision is faithful if types keep their references. -/
def Faithful (r : Revision) : Prop := ∀ t, (r.type t).refs = t.refs

/-- A revised body. -/
def body (r : Revision) (items : List α) : List α :=
  items.filter fun i => r.keepsRemarks || !Annotated.isComment i

/-- Only comments are struck out. -/
theorem exists_comment_of_struck {i : α}
    (h : ¬(r.keepsRemarks || !Annotated.isComment i) = true) : ∃ c, Annotated.comment c = i := by
  simp only [Bool.or_eq_true, not_or, Bool.not_eq_true', Bool.not_eq_false] at h
  exact Annotated.isComment_iff.1 h.2

/-- Who does not listen to comments does not see that a body is revised. -/
theorem flatMap_body {f : α → List β} (h : ∀ c, f (Annotated.comment c) = []) (items : List α) :
    (r.body items).flatMap f = items.flatMap f := by
  induction items with
  | nil => rfl
  | cons i rest ih =>
    rw [body, List.filter_cons, List.flatMap_cons, ← ih]
    split
    · rfl
    · next hi =>
      -- what was struck out had nothing to say
      obtain ⟨c, rfl⟩ := exists_comment_of_struck hi
      rw [h]
      rfl

/-- The same for what many declarations say. -/
theorem flatMap_flatMap_body {δ : Type} (body : δ → List α) {f : δ → α → List β}
    (h : ∀ d c, f d (Annotated.comment c) = []) (decls : List δ) :
    (decls.flatMap fun d => (r.body (body d)).flatMap (f d)) =
      decls.flatMap fun d => (body d).flatMap (f d) := by
  congr 1
  funext d
  exact flatMap_body (h d) (body d)

theorem filterMap_body {f : α → Option β} (h : ∀ c, f (Annotated.comment c) = none)
    (items : List α) : (r.body items).filterMap f = items.filterMap f := by
  rw [body, List.filterMap_filter]
  congr 1
  funext i
  split
  · rfl
  · next hi =>
    obtain ⟨c, rfl⟩ := exists_comment_of_struck hi
    exact (h c).symm

/-- Expressions, where there are any, keep their references. -/
theorem Faithful.refsOfAll (h : r.Faithful) (ts : List (Option TypeExpr)) :
    TypeExpr.refsOfAll (ts.map (Option.map r.type)) = TypeExpr.refsOfAll ts := by
  -- the references of a type do not change, so those of all types do not
  have hrefs : TypeExpr.refs ∘ r.type = TypeExpr.refs := funext h
  simp only [TypeExpr.refsOfAll, List.flatMap_map, Option.map_map, hrefs]

end Revision

/-! ## Revised declarations -/

section

variable (r : Revision)

def Structured.revise (d : Structured) : Structured :=
  { d with fields := d.fields.map fun f => { f with type := r.type f.type } }

def Element.revise (d : Element) : Element := { d with body := r.body d.body }

def Flow.revise (d : Flow) : Flow :=
  { d with
    params := d.params.map r.type
    returnType := d.returnType.map r.type
    body := r.body d.body }

def StateMachine.revise (d : StateMachine) : StateMachine :=
  { d with comments := r.body d.comments }

def Endpoint.revise : Endpoint → Endpoint
  | simple loc method path input output decorators =>
    simple loc method path (input.map r.type) (output.map r.type) decorators
  | expanded loc method path input output query decorators =>
    expanded loc method path (input.map r.type) (output.map r.type) (query.map r.type) decorators

def Api.revise (d : Api) : Api :=
  { d with endpoints := d.endpoints.map (Endpoint.revise r), comments := r.body d.comments }

def Rule.revise (d : Rule) : Rule := { d with body := r.body d.body }

def Screen.revise (d : Screen) : Screen := { d with body := r.body d.body }

def Journey.revise (d : Journey) : Journey := { d with body := r.body d.body }

def Operation.revise (d : Operation) : Operation :=
  { d with
    params := d.params.map r.type
    returnType := d.returnType.map r.type
    body := r.body d.body }

def Action.revise (d : Action) : Action :=
  { d with params := d.params.map r.type, body := r.body d.body }

/-- A revised construct. The types of an element's properties and of the fields of forms stay as
they are. -/
def Construct.revise : Construct → Construct
  | dependency d => dependency d
  | secret d => secret d
  | node d => node d
  | element d => element (d.revise r)
  | entity d => entity (d.revise r)
  | enumeration d => enumeration d
  | flow d => flow (d.revise r)
  | state d => state (d.revise r)
  | event d => event (d.revise r)
  | signal d => signal (d.revise r)
  | api d => api (d.revise r)
  | rule d => rule (d.revise r)
  | screen d => screen (d.revise r)
  | journey d => journey (d.revise r)
  | operation d => operation (d.revise r)
  | action d => action (d.revise r)

namespace Item

mutual

/-- What is left of an item when it is revised. -/
def revise : Item → List Item
  | system head body => [system head (reviseAll body)]
  | component head body => [component head (reviseAll body)]
  | construct decl => [construct (decl.revise r)]
  | inclusion directive => [inclusion directive]
  | comment text => if r.keepsRemarks then [comment text] else []
  | unparsed line => if r.keepsRemarks then [unparsed line] else []
  | fragment part => [fragment part]

/-- The revised items of a list. -/
def reviseAll : List Item → List Item
  | [] => []
  | i :: rest => revise i ++ reviseAll rest

end

end Item

/-- The revised document. -/
def Document.revise (d : Document) : Document := { d with body := Item.reviseAll r d.body }

def System.revise (s : System) : System := { s with body := Item.reviseAll r s.body }

def Component.revise (c : Component) : Component := { c with body := Item.reviseAll r c.body }

/-- The revised model. -/
def Model.revise (m : Model) : Model where
  systems := m.systems.map (System.revise r)
  components := m.components.map (Component.revise r)
  elements := m.elements.map (Element.revise r)
  entities := m.entities.map (Structured.revise r)
  enumerations := m.enumerations
  flows := m.flows.map (Flow.revise r)
  states := m.states.map (StateMachine.revise r)
  events := m.events.map (Structured.revise r)
  signals := m.signals.map (Structured.revise r)
  apis := m.apis.map (Api.revise r)
  rules := m.rules.map (Rule.revise r)
  dependencies := m.dependencies
  secrets := m.secrets
  screens := m.screens.map (Screen.revise r)
  journeys := m.journeys.map (Journey.revise r)
  operations := m.operations.map (Operation.revise r)
  actions := m.actions.map (Action.revise r)
  nodes := m.nodes
  unhandled := m.unhandled

end

/-! ## Collecting -/

namespace Model

variable (r : Revision)

theorem addItems_append (m : Model) (xs ys : List Item) :
    m.addItems (xs ++ ys) = (m.addItems xs).addItems ys := by
  induction xs generalizing m with
  | nil => rfl
  | cons x xs ih => exact ih _

theorem revise_addConstruct (m : Model) (c : Construct) :
    (m.addConstruct c).revise r = (m.revise r).addConstruct (c.revise r) := by
  cases c <;> simp [addConstruct, revise, Construct.revise]

mutual

theorem addItems_revise (m : Model) (i : Item) :
    (m.revise r).addItems (i.revise r) = (m.addItem i).revise r := by
  cases i with
  | system head body =>
    -- a container comes in before what it holds
    have hadd : { m.revise r with
        systems := (m.revise r).systems ++ [({ head, body := Item.reviseAll r body } : System)] } =
        { m with systems := m.systems ++ [({ head, body } : System)] }.revise r := by
      simp [revise, System.revise]
    rw [addItem, ← addItems_reviseAll, ← hadd]
    rfl
  | component head body =>
    have hadd : { m.revise r with
        components := (m.revise r).components ++
          [({ head, body := Item.reviseAll r body } : Component)] } =
        { m with components := m.components ++ [({ head, body } : Component)] }.revise r := by
      simp [revise, Component.revise]
    rw [addItem, ← addItems_reviseAll, ← hadd]
    rfl
  | construct decl => exact (revise_addConstruct r m decl).symm
  | comment text => unfold Item.revise; split <;> rfl
  | unparsed line => unfold Item.revise; split <;> rfl
  | inclusion directive => rfl
  | fragment part => rfl

theorem addItems_reviseAll (m : Model) (items : List Item) :
    (m.revise r).addItems (Item.reviseAll r items) = (m.addItems items).revise r := by
  cases items with
  | nil => rfl
  | cons i rest =>
    rw [Item.reviseAll, addItems_append, addItems_revise, addItems_reviseAll]
    rfl

end

end Model

/-- **Revising a document revises its model.** -/
theorem Document.collect_revise (r : Revision) (d : Document) :
    (d.revise r).collect = d.collect.revise r :=
  Model.addItems_reviseAll r {} d.body

/-! ## What a revision leaves as it is -/

theorem Construct.key_revise (r : Revision) (c : Construct) : (c.revise r).key = c.key := by
  cases c <;> rfl

namespace Model

variable (r : Revision) (m : Model)

@[simp] theorem components_revise :
    (m.revise r).components = m.components.map (Component.revise r) := rfl

@[simp] theorem elements_revise : (m.revise r).elements = m.elements.map (Element.revise r) := rfl

@[simp] theorem entities_revise : (m.revise r).entities = m.entities.map (Structured.revise r) :=
  rfl

@[simp] theorem flows_revise : (m.revise r).flows = m.flows.map (Flow.revise r) := rfl

@[simp] theorem states_revise : (m.revise r).states = m.states.map (StateMachine.revise r) := rfl

@[simp] theorem events_revise : (m.revise r).events = m.events.map (Structured.revise r) := rfl

@[simp] theorem signals_revise : (m.revise r).signals = m.signals.map (Structured.revise r) := rfl

@[simp] theorem apis_revise : (m.revise r).apis = m.apis.map (Api.revise r) := rfl

@[simp] theorem rules_revise : (m.revise r).rules = m.rules.map (Rule.revise r) := rfl

@[simp] theorem screens_revise : (m.revise r).screens = m.screens.map (Screen.revise r) := rfl

@[simp] theorem journeys_revise : (m.revise r).journeys = m.journeys.map (Journey.revise r) := rfl

@[simp] theorem operations_revise :
    (m.revise r).operations = m.operations.map (Operation.revise r) := rfl

@[simp] theorem actions_revise : (m.revise r).actions = m.actions.map (Action.revise r) := rfl

@[simp] theorem componentNames_revise : (m.revise r).componentNames = m.componentNames :=
  List.map_map

@[simp] theorem entityNames_revise : (m.revise r).entityNames = m.entityNames := List.map_map

@[simp] theorem enumNames_revise : (m.revise r).enumNames = m.enumNames := rfl

@[simp] theorem eventNames_revise : (m.revise r).eventNames = m.eventNames := List.map_map

@[simp] theorem operationNames_revise : (m.revise r).operationNames = m.operationNames :=
  List.map_map

@[simp] theorem unhandled_revise : (m.revise r).unhandled = m.unhandled := rfl

/-- Declarations keep their keys. -/
@[simp] theorem keysOf_revise (k : Kind) : (m.revise r).keysOf k = m.keysOf k := by
  cases k <;> simp only [keysOf, itemsOf, revise, List.map_map, List.filterMap_map] <;> rfl

@[simp] theorem keys_revise : (m.revise r).keys = m.keys := by
  have hkeysOf : (m.revise r).keysOf = m.keysOf := funext (keysOf_revise r m)
  rw [keys, hkeysOf, keys]

@[simp] theorem stats_revise : (m.revise r).stats = m.stats := by
  refine List.map_congr_left fun k _ => ?_
  cases k <;> simp [itemsOf, revise]

end Model

end Blueprint
