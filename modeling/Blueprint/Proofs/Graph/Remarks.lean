import Blueprint.Document.Recovery
import Blueprint.Proofs.Graph.Faithful

/-!
# Remarks are inert

Comments can stand in every body, and lines that could not be parsed among the items of a document,
a system or a component. Every stage of the analysis passes over them in its own way. Whatever of
them is deleted, wherever it stands, the stages after it find the same: striking out all remarks
leaves the same of a document and of what a deletion makes of it, and to strike out remarks is a
faithful revision.

- `Thinned`, `Construct.Thins`, `Item.Thins`, `Document.Thins`: what a deletion of remarks makes of
  bodies, constructs, items and documents.
- `Document.thins_withoutUnparsed`: leaving out what could not be parsed is such a deletion.
- `Document.remarks_inert`: the analysis does not notice.
-/

namespace Blueprint

/-! ## Deletions -/

/-- The second body is the first without some of its comments. -/
inductive Thinned {α : Type} [Annotated α] : List α → List α → Prop
  | nil : Thinned [] []
  | keep (i : α) {xs ys : List α} : Thinned xs ys → Thinned (i :: xs) (i :: ys)
  | drop (c : Comment) {xs ys : List α} : Thinned xs ys → Thinned (Annotated.comment c :: xs) ys

/-- The second construct is the first without some of its comments. -/
inductive Construct.Thins : Construct → Construct → Prop
  | same (c : Construct) : Thins c c
  | element {d : Element} {body : List ElementItem} :
    Thinned d.body body → Thins (.element d) (.element { d with body })
  | flow {d : Flow} {body : List FlowItem} :
    Thinned d.body body → Thins (.flow d) (.flow { d with body })
  | state {d : StateMachine} {comments : List Comment} :
    Thinned d.comments comments → Thins (.state d) (.state { d with comments })
  | api {d : Api} {comments : List Comment} :
    Thinned d.comments comments → Thins (.api d) (.api { d with comments })
  | rule {d : Rule} {body : List RuleItem} :
    Thinned d.body body → Thins (.rule d) (.rule { d with body })
  | screen {d : Screen} {body : List ScreenItem} :
    Thinned d.body body → Thins (.screen d) (.screen { d with body })
  | journey {d : Journey} {body : List JourneyItem} :
    Thinned d.body body → Thins (.journey d) (.journey { d with body })
  | operation {d : Operation} {body : List OperationItem} :
    Thinned d.body body → Thins (.operation d) (.operation { d with body })
  | action {d : Action} {body : List ActionItem} :
    Thinned d.body body → Thins (.action d) (.action { d with body })

/-- The second list of items is the first without some of the remarks that stand in it, at any
depth. -/
inductive Item.Thins : List Item → List Item → Prop
  | nil : Thins [] []
  | keep (i : Item) {xs ys : List Item} : Thins xs ys → Thins (i :: xs) (i :: ys)
  | comment (c : Comment) {xs ys : List Item} : Thins xs ys → Thins (.comment c :: xs) ys
  | unparsed (line : Unparsed) {xs ys : List Item} : Thins xs ys → Thins (.unparsed line :: xs) ys
  | construct {c c' : Construct} {xs ys : List Item} :
    c.Thins c' → Thins xs ys → Thins (.construct c :: xs) (.construct c' :: ys)
  | system (head : SystemHead) {body body' xs ys : List Item} :
    Thins body body' → Thins xs ys → Thins (.system head body :: xs) (.system head body' :: ys)
  | component (head : ComponentHead) {body body' xs ys : List Item} :
    Thins body body' → Thins xs ys →
      Thins (.component head body :: xs) (.component head body' :: ys)

/-- The second document is the first without some of its remarks. -/
structure Document.Thins (d d' : Document) : Prop where
  loc : d'.loc = d.loc
  body : Item.Thins d.body d'.body

/-! ## Leaving out what could not be parsed -/

mutual

theorem Item.thins_strip (i : Item) {xs ys : List Item} (h : Item.Thins xs ys) :
    Item.Thins (i :: xs) (i.strip ++ ys) := by
  cases i with
  | system head body => exact .system head (Item.thins_stripAll body) h
  | component head body => exact .component head (Item.thins_stripAll body) h
  | unparsed line => exact .unparsed line h
  | construct decl => exact .keep _ h
  | inclusion directive => exact .keep _ h
  | comment text => exact .keep _ h
  | fragment part => exact .keep _ h

theorem Item.thins_stripAll (items : List Item) : Item.Thins items (Item.stripAll items) := by
  cases items with
  | nil => exact .nil
  | cons i rest => exact Item.thins_strip i (Item.thins_stripAll rest)

end

theorem Document.thins_withoutUnparsed (d : Document) : d.Thins d.withoutUnparsed where
  loc := rfl
  body := Item.thins_stripAll d.body

/-! ## What deletions leave -/

/-- Types stay, and remarks are struck out. -/
def Revision.bare : Revision where
  type t := t
  keepsRemarks := false

theorem Revision.faithful_bare : Revision.bare.Faithful := fun _ => rfl

/-- What is left of a body without comments does not depend on whether some had been deleted. -/
theorem Thinned.body_eq {α : Type} [Annotated α] {xs ys : List α} (h : Thinned xs ys) :
    Revision.bare.body xs = Revision.bare.body ys := by
  induction h with
  | nil => rfl
  | keep i _ ih =>
    unfold Revision.body at ih ⊢
    rw [List.filter_cons, List.filter_cons, ih]
  -- the filter strikes out what was deleted
  | drop c _ ih =>
    have hcomment : Annotated.isComment (Annotated.comment c : α) = true :=
      Annotated.isComment_iff.2 ⟨c, rfl⟩
    rw [Revision.body, List.filter_cons, hcomment]
    exact ih

theorem Construct.Thins.revise_eq {c c' : Construct} (h : c.Thins c') :
    c.revise .bare = c'.revise .bare := by
  cases h with
  | same => rfl
  | element h => simp only [revise, Element.revise, h.body_eq]
  | flow h => simp only [revise, Flow.revise, h.body_eq]
  | state h => simp only [revise, StateMachine.revise, h.body_eq]
  | api h => simp only [revise, Api.revise, h.body_eq]
  | rule h => simp only [revise, Rule.revise, h.body_eq]
  | screen h => simp only [revise, Screen.revise, h.body_eq]
  | journey h => simp only [revise, Journey.revise, h.body_eq]
  | operation h => simp only [revise, Operation.revise, h.body_eq]
  | action h => simp only [revise, Action.revise, h.body_eq]

theorem Item.Thins.reviseAll_eq {xs ys : List Item} (h : Item.Thins xs ys) :
    Item.reviseAll .bare xs = Item.reviseAll .bare ys := by
  induction h with
  | nil => rfl
  | keep i _ ih => rw [reviseAll, ih, reviseAll]
  | comment c _ ih => exact ih
  | unparsed line _ ih => exact ih
  | construct hc _ ih => simp only [reviseAll, revise, hc.revise_eq, ih]
  | system head _ _ ihbody ih => simp only [reviseAll, revise, ihbody, ih]
  | component head _ _ ihbody ih => simp only [reviseAll, revise, ihbody, ih]

namespace Document

variable {d d' : Document}

theorem Thins.revise_collect_eq (h : d.Thins d') :
    d'.collect.revise .bare = d.collect.revise .bare := by
  have hrevise : d'.revise .bare = d.revise .bare := by
    rw [revise, revise, h.loc, h.body.reviseAll_eq]
  rw [← collect_revise, hrevise, collect_revise]

/-- **Comments and lines that could not be parsed are inert.** A document without some of them, as
it is left when what could not be parsed is taken out, has the same declarations by number and by
key, the same nodes without a place, the same owners, found by the same passes, and the same
graph. -/
theorem remarks_inert (d : Document) :
    d.Thins d.withoutUnparsed ∧
    ∀ d' : Document, d.Thins d' →
      d'.collect.stats = d.collect.stats ∧ d'.collect.keys = d.collect.keys ∧
      d'.collect.unhandled = d.collect.unhandled ∧ d'.owners = d.owners ∧ d'.graph = d.graph := by
  refine ⟨thins_withoutUnparsed d, ?_⟩
  intro d' h
  -- both models are the same without remarks, and everything below is kept by striking them out
  have heq : d'.collect.revise .bare = d.collect.revise .bare := h.revise_collect_eq
  obtain ⟨howners, hgraph⟩ := Model.analysis_eq_of_revise_eq Revision.faithful_bare heq
  refine ⟨?_, ?_, ?_, howners, ?_⟩
  · rw [← Model.stats_revise .bare, heq, Model.stats_revise]
  · rw [← Model.keys_revise .bare, heq, Model.keys_revise]
  · rw [← Model.unhandled_revise .bare, heq, Model.unhandled_revise]
  · rw [graph, graph, hgraph]
    exact congrArg d.collect.buildGraph howners

/-- A harbour with a pier on its coast and a tower. What else stands among the items, in the flow,
in the rule and beside the rest is left open. -/
def harbour (among : List Item) (inFlow : List FlowItem) (inRule : List RuleItem)
    (beside : List Comment) : Document where
  body :=
    [ .system ⟨none, "Coast", []⟩
        (among ++ [.component ⟨none, "Pier", none, [], []⟩
          (.construct (.entity ⟨none, "Ship", none, [], [], []⟩) :: among)]),
      .component ⟨none, "Tower", none, [], []⟩
        [ .construct (.entity ⟨none, "Signal", none, [], [], []⟩),
          .construct (.flow ⟨none, "Moor", none, [], [], none, [],
            inFlow ++ [.step ⟨none, true, "berth Ship", none, [], []⟩]⟩),
          .construct (.state ⟨none, "Berth", "Status", [], [], beside⟩),
          .construct (.api ⟨none, none, .rest, [], [], beside⟩) ],
      .construct (.rule ⟨none, "Yield", [], inRule ++ [.condition none "Ship is small"]⟩) ]

/-- The harbour as it came from the parser: comments mention signals, and two lines were not
understood. -/
def remarkedHarbour : Document :=
  harbour [.comment ⟨none, "Signal"⟩, .unparsed ⟨none, "???", "Coast"⟩] [.comment ⟨none, "Signal"⟩]
    [.comment ⟨none, "Signal"⟩, .comment ⟨none, "later"⟩] [⟨none, "one"⟩, ⟨none, "two"⟩]

/-- The harbour with fewer remarks. -/
def tidyHarbour : Document :=
  harbour [.comment ⟨none, "Signal"⟩] [] [.comment ⟨none, "later"⟩] [⟨none, "two"⟩]

theorem thins_tidyHarbour : remarkedHarbour.Thins tidyHarbour where
  loc := rfl
  body :=
    .system _
      (.keep _ (.unparsed _ (.component _ (.keep _ (.keep _ (.unparsed _ .nil))) .nil)))
      (.component _
        (.keep _ (.construct (.flow (.drop _ (.keep _ .nil)))
          (.construct (.state (.drop _ (.keep _ .nil)))
            (.construct (.api (.drop _ (.keep _ .nil))) .nil))))
        (.construct (.rule (.drop _ (.keep _ (.keep _ .nil)))) .nil))

/-- The rule stays with the pier, whose ship it mentions, although its comment is about signals. -/
theorem tidyHarbour_remarks_inert :
    remarkedHarbour.Thins tidyHarbour ∧ remarkedHarbour.unparsedLines.length = 2 ∧
      remarkedHarbour.owners.assignments.find? ⟨.rule, "Yield"⟩ = some ⟨"Pier", .kindHeuristics⟩ ∧
      tidyHarbour.collect.stats = remarkedHarbour.collect.stats ∧
      tidyHarbour.collect.keys = remarkedHarbour.collect.keys ∧
      tidyHarbour.collect.unhandled = remarkedHarbour.collect.unhandled ∧
      tidyHarbour.owners = remarkedHarbour.owners ∧ tidyHarbour.graph = remarkedHarbour.graph := by
  obtain ⟨-, hinert⟩ := remarks_inert remarkedHarbour
  exact ⟨thins_tidyHarbour, rfl, by decide +kernel, hinert tidyHarbour thins_tidyHarbour⟩

end Document

end Blueprint
