import Blueprint.Proofs.Ownership.Leaders
import Blueprint.Proofs.Ownership.Nesting

/-!
# Who owns a flow

The fourth pass weighs two kinds of evidence for a flow: the entities that its steps mention and the
types that it takes and gives back. Owners count as the first two passes left them. A mentioned
entity without owner lends its own points, the ones that the third pass has gathered for it, and not
the owner that the third pass has made of them. All flows of a name add to the same totals.

- `Model.supporters`, `Model.typePoints`: whom the third pass gives points for a type, and how many.
- `Model.mentionWeight`, `Flow.weight`, `Model.flowTotal`: what a mention, a flow and all flows of a
  name count for a component.
- `Model.flowScored`: the components in the order in which flows of a name give them points.
- `Pass.best_flowBoard`: the fourth pass speaks for the component that leads.
- `Document.flow_owner`: the owner of a flow.
-/

namespace Blueprint

/-! ## Totals -/

section Totals

variable (m : Model) (owner? : Key → Option String)

/-- The components that the third pass gives points for a type, once for each use. A type whose name
has an owner gets none. -/
def Model.supporters (n : String) : List String :=
  if (typeOwnerBy? owner? n).isSome then [] else m.users owner? n

/-- The points of a component for a type after the third pass. -/
def Model.typePoints (n c : String) : Nat := 3 * (m.supporters owner? n).count c

/-- What the mention of an entity counts for a component. -/
def Model.mentionWeight (c n : String) : Nat :=
  match owner? ⟨.entity, n⟩ with
  | some owner => if owner = c then 2 else 0
  | none => m.typePoints owner? n c

/-- The names that the parameters and the result of a flow refer to. -/
def Flow.typeRefs (f : Flow) : List String :=
  TypeExpr.refsOfAll (f.params.map some ++ [f.returnType])

/-- What a flow counts for a component: by the entities that each step mentions, and by its types.
-/
def Flow.weight (c : String) (f : Flow) : Nat :=
  weigh (fun text => weigh (m.mentionWeight owner? c) (m.entityNames.filter (Text.mentions text)))
    (f.body.filterMap FlowItem.text?) +
  3 * f.typeRefs.countP fun r => typeOwnerBy? owner? r = some c

/-- The flows of a name. -/
def Model.flowsNamed (n : String) : List Flow := m.flows.filter fun f => f.name = n

/-- What all flows of a name count for a component. -/
def Model.flowTotal (n c : String) : Nat := weigh (Flow.weight m owner? c) (m.flowsNamed n)

/-! ## Order -/

/-- The components that are given points by the mention of an entity, in order. -/
def Model.mentionScored (n : String) : List String :=
  match owner? ⟨.entity, n⟩ with
  | some owner => [owner]
  | none => (m.supporters owner? n).eraseDups

/-- The components that a flow gives points, in order: for its steps, then for its types. -/
def Flow.scored (f : Flow) : List String :=
  (f.body.filterMap FlowItem.text?).flatMap (fun text =>
    (m.entityNames.filter (Text.mentions text)).flatMap (m.mentionScored owner?)) ++
  f.typeRefs.filterMap (typeOwnerBy? owner?)

/-- The components that the flows of a name give points, in order. -/
def Model.flowScored (n : String) : List String :=
  (m.flowsNamed n).flatMap (Flow.scored m owner?)

end Totals

/-! ## Points of flows -/

namespace Pass

variable {m : Model} {owners : Owners} {n c : String}

/-- What a mention gives, the evidence being what the third pass has gathered. -/
theorem mentionPoints_scoreTypes (hn : n ∈ m.entityNames) :
    mentionPoints (({} : Evidence).scoreTypes m owners) n =
      match owners.owner? ⟨.entity, n⟩ with
      | some owner => [(owner, 2)]
      | none => (Scores.tally ((m.supporters owners.owner? n).map fun c => (c, 3))).entries := by
  unfold mentionPoints
  rw [Evidence.scores_scoreTypes hn]
  rfl

theorem map_fst_mentionPoints (hn : n ∈ m.entityNames) :
    (mentionPoints (({} : Evidence).scoreTypes m owners) n).map Prod.fst =
      m.mentionScored owners.owner? n := by
  rw [mentionPoints_scoreTypes hn, Model.mentionScored]
  cases owners.owner? ⟨.entity, n⟩ with
  | some owner => rfl
  | none =>
    refine (Scores.keys_tally _).trans ?_
    rw [List.map_map]
    exact congrArg List.eraseDups (List.map_id _)

theorem total_mentionPoints (hn : n ∈ m.entityNames) :
    Scores.total (mentionPoints (({} : Evidence).scoreTypes m owners) n) c =
      m.mentionWeight owners.owner? c n := by
  rw [mentionPoints_scoreTypes hn, Model.mentionWeight]
  cases owners.owner? ⟨.entity, n⟩ with
  | some owner =>
    by_cases h : owner = c
    · simp [Scores.total, h]
    · simp [Scores.total, h]
  | none =>
    show Scores.total (Scores.tally _).entries c = (m.typePoints owners.owner? n c : Int)
    rw [Scores.total_entries, Scores.findD_tally, Scores.total_map_const, Model.typePoints]
    omega

theorem pos_of_mem_mentionPoints (hn : n ∈ m.entityNames) :
    ∀ p ∈ mentionPoints (({} : Evidence).scoreTypes m owners) n, 0 < p.2 := by
  rw [mentionPoints_scoreTypes hn]
  cases owners.owner? ⟨.entity, n⟩ with
  | some owner => simp
  | none =>
    refine Scores.pos_of_mem_entries_tally fun p hp => ?_
    obtain ⟨d, -, rfl⟩ := List.mem_map.1 hp
    exact Int.natCast_pos.2 (Nat.succ_pos 2)

theorem map_fst_flowPoints (f : Flow) :
    (flowPoints m (({} : Evidence).scoreTypes m owners) f).map Prod.fst =
      f.scored m owners.owner? := by
  rw [flowPoints, List.map_append, List.map_flatMap, List.map_filterMap, Flow.scored]
  congr 1
  · refine List.flatMap_congr fun text _ => ?_
    rw [List.map_flatMap]
    exact List.flatMap_congr fun n hn => map_fst_mentionPoints (List.mem_filter.1 hn).1
  · refine List.filterMap_congr fun r _ => ?_
    rw [Option.map_map]
    exact Option.map_id'

theorem total_flowPoints (f : Flow) (c : String) :
    Scores.total (flowPoints m (({} : Evidence).scoreTypes m owners) f) c =
      f.weight m owners.owner? c := by
  have hsteps : Scores.total ((f.body.filterMap FlowItem.text?).flatMap fun text =>
      (m.entityNames.filter (Text.mentions text)).flatMap
        (mentionPoints (({} : Evidence).scoreTypes m owners))) c =
      weigh (fun text => weigh (m.mentionWeight owners.owner? c)
        (m.entityNames.filter (Text.mentions text))) (f.body.filterMap FlowItem.text?) :=
    Scores.total_flatMap fun text _ =>
      Scores.total_flatMap fun n hn => total_mentionPoints (List.mem_filter.1 hn).1
  have hweight : flowRefWeight = (3 : Nat) := rfl
  rw [flowPoints, Scores.total_append, hsteps, Scores.total_filterMap_const _ hweight]
  exact (Int.natCast_add _ _).symm

theorem pos_of_mem_flowPoints (f : Flow) :
    ∀ p ∈ flowPoints m (({} : Evidence).scoreTypes m owners) f, 0 < p.2 := by
  intro p hp
  rcases List.mem_append.1 hp with hp | hp
  · obtain ⟨text, -, hp⟩ := List.mem_flatMap.1 hp
    obtain ⟨n, hn, hp⟩ := List.mem_flatMap.1 hp
    exact pos_of_mem_mentionPoints (List.mem_filter.1 hn).1 p hp
  · obtain ⟨r, -, hr⟩ := List.mem_filterMap.1 hp
    obtain ⟨d, -, rfl⟩ := Option.map_eq_some_iff.1 hr
    exact (by decide : 0 < flowRefWeight)

/-! ## The board of flows -/

/-- What several flows give, seen from one name. -/
theorem scores_foldl_merge (points : Flow → List (String × Int)) (flows : List Flow)
    (b : ScoreBoard) (n : String) :
    (flows.foldl (fun b f => b.merge f.name (points f)) b).scores n =
      ((flows.filter fun f => f.name = n).flatMap points).foldl (fun s p => s.add p.1 p.2)
        (b.scores n) := by
  induction flows generalizing b with
  | nil => rfl
  | cons f rest ih =>
    rw [List.foldl_cons, ih, ScoreBoard.scores_merge, List.filter_cons]
    by_cases hf : f.name = n
    · simp [hf]
    · simp [hf, Ne.symm hf]

/-- A flow without owner has the points that all flows of its name give. -/
theorem scores_flowBoard (m : Model) (e : Evidence) {owners : Owners} {n : String}
    (h : owners.contains ⟨.flow, n⟩ = false) :
    (flowBoard m e owners).scores n =
      Scores.tally ((m.flowsNamed n).flatMap (flowPoints m e)) := by
  -- flows of one name are all scored or all left out
  have hfilter : ((m.flows.filter fun f => !owners.contains ⟨.flow, f.name⟩).filter fun f =>
      f.name = n) = m.flowsNamed n := by
    rw [List.filter_filter, Model.flowsNamed]
    refine List.filter_congr fun f _ => ?_
    by_cases hf : f.name = n
    · simp [hf, h]
    · simp [hf]
  rw [flowBoard, scores_foldl_merge, hfilter]
  rfl

/-- The points that all flows of a name give. -/
def pointsNamed (m : Model) (owners : Owners) (n : String) : List (String × Int) :=
  (m.flowsNamed n).flatMap (flowPoints m (({} : Evidence).scoreTypes m owners))

theorem map_fst_pointsNamed (m : Model) (owners : Owners) (n : String) :
    (pointsNamed m owners n).map Prod.fst = m.flowScored owners.owner? n := by
  rw [pointsNamed, List.map_flatMap]
  exact List.flatMap_congr fun f _ => map_fst_flowPoints f

theorem total_pointsNamed (m : Model) (owners : Owners) (n c : String) :
    Scores.total (pointsNamed m owners n) c = m.flowTotal owners.owner? n c :=
  Scores.total_flatMap fun f _ => total_flowPoints f c

theorem pos_of_mem_pointsNamed : ∀ p ∈ pointsNamed m owners n, 0 < p.2 := by
  intro p hp
  obtain ⟨f, -, hp⟩ := List.mem_flatMap.1 hp
  exact pos_of_mem_flowPoints f p hp

/-- The components that are given points are those with a positive total. -/
theorem mem_flowScored_iff :
    c ∈ m.flowScored owners.owner? n ↔ 0 < m.flowTotal owners.owner? n c := by
  rw [← map_fst_pointsNamed]
  exact Scores.mem_map_fst_iff pos_of_mem_pointsNamed (total_pointsNamed m owners n)

/-- **The fourth pass speaks for the component that leads** by what the flows of a name count. -/
theorem best_flowBoard {shown : Owners} (h : shown.contains ⟨.flow, n⟩ = false) :
    (flowBoard m (({} : Evidence).scoreTypes m owners) shown).best n =
      leader? (m.flowTotal owners.owner? n) (m.flowScored owners.owner? n) := by
  rw [ScoreBoard.best, scores_flowBoard _ _ h, ← map_fst_pointsNamed]
  exact Scores.best_tally_eq_leader? pos_of_mem_pointsNamed (total_pointsNamed m owners n)

end Pass

/-! ## Owners of flows -/

namespace Model

variable {m : Model} {f : Flow}

/-- The owners that the first two passes found. -/
def foundEarly? (m : Model) : Key → Option String :=
  m.assignOwners.foundBy? [.directNesting, .apiNamePrefix]

theorem owner?_runOf_early (m : Model) :
    (m.runOf [.directNesting, .apiNamePrefix]).owners.owner? = m.foundEarly? := by
  have hall : Pass.all = [Pass.directNesting, .apiNamePrefix] ++ Pass.all.drop 2 := rfl
  exact funext fun k => owner?_runOf hall k

/-- The fourth pass speaks for a flow that stands in no component. -/
theorem owner?_flow (hf : f ∈ m.flows)
    (hnested : (m.components.find? fun c => ⟨.flow, f.name⟩ ∈ Pass.nestedKeys c) = none) :
    m.assignOwners.owner? ⟨.flow, f.name⟩ =
      (leader? (m.flowTotal m.foundEarly? f.name) (m.flowScored m.foundEarly? f.name)).or
        m.componentNames.head? := by
  have hk : ⟨.flow, f.name⟩ ∈ m.keys :=
    key_mem_keys_of_construct (c := .flow f) (List.mem_map_of_mem hf)
  have hall : Pass.all = Pass.directNesting :: [Pass.apiNamePrefix, .typeScoring] ++
      Pass.flowScoring :: ([Pass.enumInheritance, .kindHeuristics] ++ [Pass.fallback]) := rfl
  -- no pass before the fourth finds an owner
  have hfree : (m.runOf (.directNesting :: [.apiNamePrefix, .typeScoring])).owners.contains
      ⟨.flow, f.name⟩ = false := by
    have hothers : ∀ q ∈ [Pass.apiNamePrefix, .typeScoring], Kind.flow ∉ q.kinds := by decide
    rw [OwnershipRun.contains_owners, Table.contains, ← List.singleton_append,
      find?_runOf_of_kinds hothers, find?_runOf_directNesting Kind.noConfusion, hnested]
    rfl
  have hfourth (e : Evidence) (owners : Owners) :
      Pass.firstFor ⟨.flow, f.name⟩ (Pass.flowScoring.candidates m e owners) =
        (Pass.flowBoard m e owners).best f.name := by
    have hmap : Pass.flowScoring.candidates m e owners =
        (m.flows.map fun g => (⟨.flow, g.name⟩ : Key)).map fun k =>
          (k, (Pass.flowBoard m e owners).best k.name) := by
      rw [List.map_map]
      rfl
    rw [hmap, Pass.firstFor_map fun k => (Pass.flowBoard m e owners).best k.name, if_pos]
    exact List.mem_map.2 ⟨f, hf, rfl⟩
  -- what the third pass has gathered is read from the owners before it
  have hevidence : (m.runOf (.directNesting :: [.apiNamePrefix, .typeScoring])).evidenceFor m
      .flowScoring = ({} : Evidence).scoreTypes m
        (m.runOf [.directNesting, .apiNamePrefix]).owners := rfl
  rw [owner?_of_kind hall (by decide) Kind.noConfusion hk, hnested, hfourth, hevidence,
    Pass.best_flowBoard hfree, owner?_runOf_early]
  rfl

end Model

namespace Document

/-- **Who owns a flow.** In a document with components, a flow that no component declares belongs to
the component with the greatest total, where all flows of the name count. A step counts for each
entity declaration that its text mentions: two for the owner that the first two passes found, or, if
they found none, what the third pass gave to components for the entity. Each type counts three for
the owner that the first two passes found. A tie goes to the component that was given points first.
The components that were given points are those with a positive total; if there are none, the flow
belongs to the first component. -/
theorem flow_owner (d : Document) {first : Component} {rest : List Component}
    (hd : d.collect.components = first :: rest) {f : Flow} (hf : f ∈ d.collect.flows)
    (hnested : ∀ i ∈ d.preorder, i.declares ⟨.flow, f.name⟩ = false) :
    (∀ c, c ∈ d.collect.flowScored d.collect.foundEarly? f.name ↔
      0 < d.collect.flowTotal d.collect.foundEarly? f.name c) ∧
    d.collect.assignOwners.owner? ⟨.flow, f.name⟩ =
      some ((leader? (d.collect.flowTotal d.collect.foundEarly? f.name)
        (d.collect.flowScored d.collect.foundEarly? f.name)).getD first.name) := by
  have hhead : d.collect.componentNames.head? = some first.name := by
    rw [Model.componentNames, hd]
    rfl
  refine ⟨fun c => ?_, ?_⟩
  · rw [← Model.owner?_runOf_early]
    exact Pass.mem_flowScored_iff
  · rw [Model.owner?_flow hf (find?_components_eq_none hnested), hhead, Option.or_some]

/-- A flow with steps and parameters. -/
def sampleFlow (name : String) (params : List TypeExpr) (steps : List String) : Flow :=
  ⟨none, name, none, [], params, none, [],
    steps.map fun text => .step ⟨none, true, text, none, [], []⟩⟩

/-- A theatre. The stage has plays, and an API that uses seats once. The office is named by an API
outside that uses seats twice. Two flows are called a booking. -/
def theatre : Document where
  body :=
    [ .component ⟨none, "Office", none, [], []⟩ [],
      .component ⟨none, "Stage", none, [], []⟩
        [ .construct (.entity ⟨none, "Play", none, [], [], []⟩),
          .construct (.api ⟨none, none, .rest, [],
            [.simple none .get "/seats" none (some (.reference none "Seat")) []], []⟩) ],
      .construct (.api ⟨none, some "officeApi", .rest, [],
        [.simple none .put "/seats" (some (.reference none "Seat")) (some (.reference none "Seat"))
          []], []⟩),
      .construct (.entity ⟨none, "Seat", none, [], [], []⟩),
      .construct (.flow (sampleFlow "Book" [] ["reserve Seat"])),
      .construct (.flow (sampleFlow "Book" [.reference none "Play"] [])),
      .construct (.flow (sampleFlow "Sell" [] ["pay", "print Seat"])),
      .construct (.flow (sampleFlow "Sweep" [] ["sweep the floor"])) ]

/-- Seats go to the office, which uses them most. Still the stage is given points for a booking that
mentions seats, and it wins the tie that the second flow of the name brings about, because it was
given points first. -/
theorem theatre_flow_owner :
    theatre.collect.assignOwners.owner? ⟨.entity, "Seat"⟩ = some "Office" ∧
    theatre.collect.flowTotal theatre.collect.foundEarly? "Book" "Stage" = 6 ∧
    theatre.collect.flowTotal theatre.collect.foundEarly? "Book" "Office" = 6 ∧
    theatre.collect.flowScored theatre.collect.foundEarly? "Book" = ["Stage", "Office", "Stage"] ∧
    (sampleFlow "Book" [] ["reserve Seat"] ∈ theatre.collect.flows ∧
      (∀ i ∈ theatre.preorder, i.declares ⟨.flow, "Book"⟩ = false) ∧
      theatre.collect.assignOwners.owner? ⟨.flow, "Book"⟩ = some "Stage") ∧
    (sampleFlow "Sell" [] ["pay", "print Seat"] ∈ theatre.collect.flows ∧
      (∀ i ∈ theatre.preorder, i.declares ⟨.flow, "Sell"⟩ = false) ∧
      theatre.collect.assignOwners.owner? ⟨.flow, "Sell"⟩ = some "Office") ∧
    sampleFlow "Sweep" [] ["sweep the floor"] ∈ theatre.collect.flows ∧
      (∀ i ∈ theatre.preorder, i.declares ⟨.flow, "Sweep"⟩ = false) ∧
      theatre.collect.assignOwners.owner? ⟨.flow, "Sweep"⟩ = some "Office" := by
  have hflows : theatre.collect.flows =
      [sampleFlow "Book" [] ["reserve Seat"], sampleFlow "Book" [.reference none "Play"] [],
        sampleFlow "Sell" [] ["pay", "print Seat"],
        sampleFlow "Sweep" [] ["sweep the floor"]] := rfl
  have hbook : sampleFlow "Book" [] ["reserve Seat"] ∈ theatre.collect.flows := by simp [hflows]
  have hsell : sampleFlow "Sell" [] ["pay", "print Seat"] ∈ theatre.collect.flows := by
    simp [hflows]
  have hsweep : sampleFlow "Sweep" [] ["sweep the floor"] ∈ theatre.collect.flows := by
    simp [hflows]
  have hbookFree : ∀ i ∈ theatre.preorder, i.declares ⟨.flow, "Book"⟩ = false := by decide +kernel
  have hsellFree : ∀ i ∈ theatre.preorder, i.declares ⟨.flow, "Sell"⟩ = false := by decide +kernel
  have hsweepFree : ∀ i ∈ theatre.preorder, i.declares ⟨.flow, "Sweep"⟩ = false := by
    decide +kernel
  -- one evaluation for all, since each by itself would run the passes again
  obtain ⟨hseat, hstage, hoffice, hscored, hbookLeader, hsellLeader, hsweepLeader⟩ :
      theatre.collect.assignOwners.owner? ⟨.entity, "Seat"⟩ = some "Office" ∧
      theatre.collect.flowTotal theatre.collect.foundEarly? "Book" "Stage" = 6 ∧
      theatre.collect.flowTotal theatre.collect.foundEarly? "Book" "Office" = 6 ∧
      theatre.collect.flowScored theatre.collect.foundEarly? "Book" =
        ["Stage", "Office", "Stage"] ∧
      leader? (theatre.collect.flowTotal theatre.collect.foundEarly? "Book")
        (theatre.collect.flowScored theatre.collect.foundEarly? "Book") = some "Stage" ∧
      leader? (theatre.collect.flowTotal theatre.collect.foundEarly? "Sell")
        (theatre.collect.flowScored theatre.collect.foundEarly? "Sell") = some "Office" ∧
      leader? (theatre.collect.flowTotal theatre.collect.foundEarly? "Sweep")
        (theatre.collect.flowScored theatre.collect.foundEarly? "Sweep") = none := by
    decide +kernel
  refine ⟨hseat, hstage, hoffice, hscored, ⟨hbook, hbookFree, ?_⟩, ⟨hsell, hsellFree, ?_⟩, hsweep,
    hsweepFree, ?_⟩
  · exact (flow_owner theatre rfl hbook hbookFree).2.trans
      (congrArg (fun c => some (c.getD "Office")) hbookLeader)
  · exact (flow_owner theatre rfl hsell hsellFree).2.trans
      (congrArg (fun c => some (c.getD "Office")) hsellLeader)
  · exact (flow_owner theatre rfl hsweep hsweepFree).2.trans
      (congrArg (fun c => some (c.getD "Office")) hsweepLeader)

end Document

end Blueprint
