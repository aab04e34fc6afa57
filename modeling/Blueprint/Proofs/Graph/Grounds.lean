import Blueprint.Proofs.Graph.References
import Blueprint.Proofs.Ownership.Precedence

/-!
# Owners found by heuristics have grounds in the graph

Ownership and the graph are built from the same declarations, but apart from each other: a pass
looks for a reference or a mention to find an owner, and the graph is told about references and
mentions again later, when all owners are known. They meet in the declarations. A pass that speaks
for a component has seen a declaration that leads to something of that component, the owner it saw
is an owner to the end, and the same declaration gives an instruction to link the two.

- `Model.owner?_of_runOf`: an owner that a pass is shown is an owner to the end.
- `Evidence.given_scoreTypes`: who has points for a type owns an API that uses the type.
- `Pass.exposed_of_candidate`, `Pass.used_of_candidate`, `Pass.mentioned_of_candidate`,
  `Pass.started_of_candidate`: the declarations behind the candidates.
- `Document.heuristic_owners_grounded`: the edges behind the owners.
-/

namespace Blueprint

/-! ## Where an owner comes from -/

namespace Model

variable {m : Model} {k : Key} {c : String}

/-- An owner that a pass is shown is an owner to the end. -/
theorem owner?_of_runOf {ps qs : List Pass} (h : Pass.all = ps ++ qs)
    (hk : (m.runOf ps).owners.owner? k = some c) : m.assignOwners.owner? k = some c := by
  obtain ⟨c', hfind, hname⟩ := Option.bind_eq_some_iff.1 hk
  obtain ⟨rfl, -⟩ := nonEmpty?_eq_some_iff.1 hname
  rw [OwnershipRun.find?_owners] at hfind
  obtain ⟨a, ha, rfl⟩ := Option.map_eq_some_iff.1 hfind
  have hall : (m.runOf Pass.all).assignments.find? k = some a := by
    rw [h]
    exact find?_runOf_append ha qs
  rw [Ownership.owner?]
  exact congrArg (Option.map Assignment.component) hall

end Model

/-! ## What passes have seen -/

/-- Points for a type go to the owners of APIs that use it. -/
theorem Evidence.given_scoreTypes (m : Model) (owners : Owners) :
    (({} : Evidence).scoreTypes m owners).typeScores.Given fun n c =>
      ∃ a ∈ m.apis, owners.owner? a.key = some c ∧ n ∈ a.endpoints.flatMap Endpoint.refs := by
  -- over the APIs, and for each over the references of its endpoints
  refine List.foldlRecOn m.apis _ ScoreBoard.given_empty fun board hboard a ha => ?_
  unfold scoreApi
  split
  · exact hboard
  · next component hc =>
    refine List.foldlRecOn _ _ hboard fun board hboard r hr => ?_
    exact hboard.add ⟨a, ha, hc, (List.mem_filter.1 hr).1⟩ _

namespace Pass

variable {m : Model} {e : Evidence} {owners : Owners} {n c : String}

/-- An entity is given to the owner of an API that uses it. -/
theorem exposed_of_candidate
    (h : (⟨.entity, n⟩, some c) ∈ typeScoring.candidates m (({} : Evidence).scoreTypes m owners)
      owners) :
    n ∈ m.entityNames ∧
      ∃ a ∈ m.apis, owners.owner? a.key = some c ∧ n ∈ a.endpoints.flatMap Endpoint.refs := by
  obtain ⟨j, hj, heq⟩ := List.mem_map.1 h
  obtain ⟨rfl, hbest⟩ := Prod.mk.inj heq
  have hn : n ∈ m.entityNames := by
    rcases List.mem_append.1 hj with hj | hj
    · obtain ⟨n', hn', hkey⟩ := List.mem_map.1 hj
      cases hkey
      exact hn'
    · obtain ⟨n', -, hkey⟩ := List.mem_map.1 hj
      cases hkey
  exact ⟨hn, (Evidence.given_scoreTypes m owners).best hbest⟩

/-- An enumeration is given to the owner of an entity with a field of it. -/
theorem used_of_candidate
    (h : (⟨.enumeration, n⟩, some c) ∈ enumInheritance.candidates m e owners) :
    n ∈ m.enumNames ∧
      ∃ d ∈ m.entities, usesType d n = true ∧ owners.owner? ⟨.entity, d.name⟩ = some c := by
  obtain ⟨n', hn, heq⟩ := List.mem_map.1 h
  obtain ⟨hkey, hheir⟩ := Prod.mk.inj heq
  cases hkey
  obtain ⟨d, hd, howner⟩ := List.exists_of_findSome?_eq_some hheir
  split at howner
  · next huses => exact ⟨hn, d, hd, huses, howner⟩
  · cases howner

/-- The heuristics by kind are tried when only the fallback is left. -/
theorem all_eq_append_kindHeuristics :
    all = [directNesting, apiNamePrefix, typeScoring, flowScoring, enumInheritance] ++
      kindHeuristics :: [fallback] := rfl

/-- A rule is given to the owner of an entity that one of its clauses mentions. -/
theorem mentioned_of_candidate
    (h : (⟨.rule, n⟩, some c) ∈ kindHeuristics.candidates m e owners) :
    ∃ r ∈ m.rules, r.name = n ∧ ∃ item ∈ r.body, ∃ text, item.text? = some text ∧
      ∃ entity ∈ m.mentionedEntities text, owners.owner? ⟨.entity, entity⟩ = some c := by
  simp only [candidates, heuristics, List.mem_append, List.mem_map, Prod.mk.injEq, Key.mk.injEq,
    reduceCtorEq, false_and, and_false, exists_false, false_or, or_false, true_and] at h
  obtain ⟨r, hr, rfl, hbest⟩ := h
  -- the board of a rule is its own, so all points on it are the rule's
  have hgiven : (({} : ScoreBoard).merge r.name (rulePoints m owners r)).Given fun _ c =>
      ∃ points, (c, points) ∈ rulePoints m owners r :=
    ScoreBoard.given_empty.merge r.name fun p hp => ⟨p.2, hp⟩
  obtain ⟨points, hpoints⟩ := hgiven.best hbest
  -- whoever has a point has it from a clause
  obtain ⟨text, htext, hpoints⟩ := List.mem_flatMap.1 hpoints
  obtain ⟨item, hitem, hitemText⟩ := List.mem_filterMap.1 htext
  obtain ⟨entity, hentity, hpoint⟩ := List.mem_filterMap.1 hpoints
  obtain ⟨component, howner, heq⟩ := Option.map_eq_some_iff.1 hpoint
  cases heq
  exact ⟨r, hr, rfl, item, hitem, text, hitemText, entity, hentity, howner⟩

/-- An action is given to the owner of a screen that it starts from. -/
theorem started_of_candidate
    (h : (⟨.action, n⟩, some c) ∈ kindHeuristics.candidates m e owners) :
    ∃ a ∈ m.actions, a.name = n ∧ ∃ loc screen, .startsFrom loc screen ∈ a.body ∧
      owners.owner? ⟨.screen, screen⟩ = some c := by
  simp only [candidates, heuristics, List.mem_append, List.mem_map, Prod.mk.injEq, Key.mk.injEq,
    reduceCtorEq, false_and, and_false, exists_false, false_or, or_false, true_and] at h
  obtain ⟨a, ha, rfl, hfirst⟩ := h
  obtain ⟨k, hk, howner⟩ := List.exists_of_findSome?_eq_some hfirst
  obtain ⟨item, hitem, hscreen⟩ := List.mem_filterMap.1 hk
  split at hscreen
  · next loc screen =>
    obtain rfl := Option.some.inj hscreen
    exact ⟨a, ha, rfl, loc, screen, hitem, howner⟩
  · cases hscreen

end Pass

/-! ## What the graph is told -/

namespace Model

variable {m : Model} {o : Ownership} {n : String}

theorem link_of_exposed {a : Api} (ha : a ∈ m.apis) (hn : n ∈ m.entityNames)
    (href : n ∈ a.endpoints.flatMap Endpoint.refs) :
    .link .apiExposesEntity a.key ⟨.entity, n⟩ ∈ m.instructions o := by
  obtain ⟨e, he, href⟩ := List.mem_flatMap.1 href
  exact link_mem_instructions_iff.2 (link_apiExposesEntity_iff.2 ⟨a, ha, rfl, hn, e, he, href⟩)

/-- A name that both an entity and an enumeration have stands for the enumeration. -/
theorem link_of_used {d : Structured} (hd : d ∈ m.entities) (hn : n ∈ m.enumNames)
    (huses : Pass.usesType d n = true) :
    .link .entityFieldRef ⟨.entity, d.name⟩ ⟨.enumeration, n⟩ ∈ m.instructions o := by
  obtain ⟨f, hf, href⟩ := List.any_eq_true.1 huses
  refine link_mem_instructions_iff.2 (link_entityFieldRef_iff.2
    ⟨d, hd, rfl, f, hf, n, List.contains_iff_mem.1 href, ?_⟩)
  rw [if_pos (List.contains_iff_mem.2 hn)]

theorem link_of_mentioned {r : Rule} {item : RuleItem} {text : String} (hr : r ∈ m.rules)
    (hitem : item ∈ r.body) (htext : item.text? = some text) (hn : n ∈ m.mentionedEntities text) :
    .link .ruleEntity ⟨.rule, r.name⟩ ⟨.entity, n⟩ ∈ m.instructions o :=
  link_mem_instructions_iff.2 (link_ruleEntity_iff.2
    ⟨r, hr, rfl, text, Rule.says_iff.2 ⟨item, hitem, htext⟩, hn⟩)

theorem link_of_started {a : Action} {loc : Location} {screen : String} (ha : a ∈ m.actions)
    (hitem : .startsFrom loc screen ∈ a.body) :
    .link .actionFromScreen ⟨.action, a.name⟩ ⟨.screen, screen⟩ ∈ m.instructions o := by
  have hstage : .link .actionFromScreen ⟨.action, a.name⟩ ⟨.screen, screen⟩ ∈
      m.actionInstructions :=
    List.mem_flatMap.2 ⟨a, ha, List.mem_flatMap.2 ⟨_, hitem, List.mem_singleton_self _⟩⟩
  simp [instructions, hstage]

/-! ## The edges behind owners -/

theorem owner?_of_assignment {k : Key} {c : String} {p : Pass}
    (hk : m.assignOwners.assignments.find? k = some ⟨c, p⟩) : m.assignOwners.owner? k = some c := by
  rw [Ownership.owner?, hk]
  rfl

variable {c : String}

/-- An entity that was scored is exposed by an API of its owner. -/
theorem exposing_edge
    (hk : m.assignOwners.assignments.find? ⟨.entity, n⟩ = some ⟨c, .typeScoring⟩) :
    ∃ api, m.assignOwners.owner? ⟨.api, api⟩ = some c ∧
      ⟨⟨c, .api, api⟩, .apiExposesEntity, ⟨c, .entity, n⟩⟩ ∈
        (m.buildGraph m.assignOwners).edges := by
  have hpasses : Pass.all = [.directNesting, .apiNamePrefix] ++ .typeScoring ::
      [.flowScoring, .enumInheritance, .kindHeuristics, .fallback] := rfl
  -- no pass before has left evidence
  obtain ⟨hn, a, ha, hseen, href⟩ :=
    Pass.exposed_of_candidate (mem_candidates_of_assignment hpasses hk)
  have howner : m.assignOwners.owner? a.key = some c := owner?_of_runOf hpasses hseen
  exact ⟨a.keyName, howner,
    mem_edges_of_link (link_of_exposed ha hn href) rfl howner (owner?_of_assignment hk)⟩

/-- An enumeration that was inherited is the type of a field of an entity of its owner. -/
theorem inheriting_edge
    (hk : m.assignOwners.assignments.find? ⟨.enumeration, n⟩ = some ⟨c, .enumInheritance⟩) :
    ∃ entity, m.assignOwners.owner? ⟨.entity, entity⟩ = some c ∧
      ⟨⟨c, .entity, entity⟩, .entityFieldRef, ⟨c, .enumeration, n⟩⟩ ∈
        (m.buildGraph m.assignOwners).edges := by
  have hpasses : Pass.all = [.directNesting, .apiNamePrefix, .typeScoring, .flowScoring] ++
      .enumInheritance :: [.kindHeuristics, .fallback] := rfl
  obtain ⟨hn, d, hd, huses, hseen⟩ :=
    Pass.used_of_candidate (mem_candidates_of_assignment hpasses hk)
  have howner : m.assignOwners.owner? ⟨.entity, d.name⟩ = some c := owner?_of_runOf hpasses hseen
  exact ⟨d.name, howner,
    mem_edges_of_link (link_of_used hd hn huses) rfl howner (owner?_of_assignment hk)⟩

/-- A rule that went by its clauses governs an entity of its owner. -/
theorem governing_edge
    (hk : m.assignOwners.assignments.find? ⟨.rule, n⟩ = some ⟨c, .kindHeuristics⟩) :
    ∃ entity, m.assignOwners.owner? ⟨.entity, entity⟩ = some c ∧
      ⟨⟨c, .rule, n⟩, .ruleEntity, ⟨c, .entity, entity⟩⟩ ∈
        (m.buildGraph m.assignOwners).edges := by
  obtain ⟨r, hr, rfl, item, hitem, text, htext, entity, hentity, hseen⟩ :=
    Pass.mentioned_of_candidate (mem_candidates_of_assignment Pass.all_eq_append_kindHeuristics hk)
  have howner : m.assignOwners.owner? ⟨.entity, entity⟩ = some c :=
    owner?_of_runOf Pass.all_eq_append_kindHeuristics hseen
  exact ⟨entity, howner, mem_edges_of_link (link_of_mentioned hr hitem htext hentity) rfl
    (owner?_of_assignment hk) howner⟩

/-- An action that went by its screens starts from a screen of its owner. -/
theorem starting_edge
    (hk : m.assignOwners.assignments.find? ⟨.action, n⟩ = some ⟨c, .kindHeuristics⟩) :
    ∃ screen, m.assignOwners.owner? ⟨.screen, screen⟩ = some c ∧
      ⟨⟨c, .action, n⟩, .actionFromScreen, ⟨c, .screen, screen⟩⟩ ∈
        (m.buildGraph m.assignOwners).edges := by
  obtain ⟨a, ha, rfl, loc, screen, hitem, hseen⟩ :=
    Pass.started_of_candidate (mem_candidates_of_assignment Pass.all_eq_append_kindHeuristics hk)
  have howner : m.assignOwners.owner? ⟨.screen, screen⟩ = some c :=
    owner?_of_runOf Pass.all_eq_append_kindHeuristics hseen
  exact ⟨screen, howner, mem_edges_of_link (link_of_started ha hitem) rfl
    (owner?_of_assignment hk) howner⟩

end Model

namespace Document

/-- **Owners found by heuristics are explained by the graph.** Whenever a heuristic gave a construct
to a component, an edge joins the construct to another one of the component: an entity that was
scored to an API that exposes it, an enumeration to the entity it was inherited from, a rule to an
entity it governs and an action to a screen it starts from. -/
theorem heuristic_owners_grounded (d : Document) :
    (∀ n c, d.owners.assignments.find? ⟨.entity, n⟩ = some ⟨c, .typeScoring⟩ →
      ∃ api, d.owners.owner? ⟨.api, api⟩ = some c ∧
        ⟨⟨c, .api, api⟩, .apiExposesEntity, ⟨c, .entity, n⟩⟩ ∈ d.graph.edges) ∧
    (∀ n c, d.owners.assignments.find? ⟨.enumeration, n⟩ = some ⟨c, .enumInheritance⟩ →
      ∃ entity, d.owners.owner? ⟨.entity, entity⟩ = some c ∧
        ⟨⟨c, .entity, entity⟩, .entityFieldRef, ⟨c, .enumeration, n⟩⟩ ∈ d.graph.edges) ∧
    (∀ n c, d.owners.assignments.find? ⟨.rule, n⟩ = some ⟨c, .kindHeuristics⟩ →
      ∃ entity, d.owners.owner? ⟨.entity, entity⟩ = some c ∧
        ⟨⟨c, .rule, n⟩, .ruleEntity, ⟨c, .entity, entity⟩⟩ ∈ d.graph.edges) ∧
    ∀ n c, d.owners.assignments.find? ⟨.action, n⟩ = some ⟨c, .kindHeuristics⟩ →
      ∃ screen, d.owners.owner? ⟨.screen, screen⟩ = some c ∧
        ⟨⟨c, .action, n⟩, .actionFromScreen, ⟨c, .screen, screen⟩⟩ ∈ d.graph.edges := by
  refine ⟨?_, ?_, ?_, ?_⟩ <;> intro n c h
  · exact Model.exposing_edge h
  · exact Model.inheriting_edge h
  · exact Model.governing_edge h
  · exact Model.starting_edge h

/-- A clinic whose ward has an API and a desk. The patients, their status, a rule and an action
stand outside of the components, the first of which is the archive. -/
def clinic : Document where
  body :=
    let patient : TypeExpr := .reference none "Patient"
    [ .component ⟨none, "Archive", none, [], []⟩ [],
      .component ⟨none, "Ward", none, [], []⟩
        [ .construct (.api ⟨none, none, .rest, [],
            [.simple none .get "/patients" none (some (.array none patient)) []], []⟩),
          .construct (.screen ⟨none, "Desk", none, [], [], []⟩) ],
      .construct (.entity ⟨none, "Patient", none, [], [],
        [⟨none, "status", .optional none (.reference none "Status"), []⟩]⟩),
      .construct (.enumeration ⟨none, "Status", [], []⟩),
      .construct (.rule ⟨none, "Consent", [], [.condition none "Patient is of age"]⟩),
      .construct (.action ⟨none, "Admit", [], [], [.startsFrom none "Desk"]⟩) ]

/-- Each of the four heuristics speaks for the ward, and what it saw stands in the graph. -/
theorem clinic_owners_grounded :
    clinic.owners.assignments.find? ⟨.entity, "Patient"⟩ = some ⟨"Ward", .typeScoring⟩ ∧
      (∃ api, clinic.owners.owner? ⟨.api, api⟩ = some "Ward" ∧
        ⟨⟨"Ward", .api, api⟩, .apiExposesEntity, ⟨"Ward", .entity, "Patient"⟩⟩ ∈
          clinic.graph.edges) ∧
      clinic.owners.assignments.find? ⟨.enumeration, "Status"⟩ =
        some ⟨"Ward", .enumInheritance⟩ ∧
      (∃ entity, clinic.owners.owner? ⟨.entity, entity⟩ = some "Ward" ∧
        ⟨⟨"Ward", .entity, entity⟩, .entityFieldRef, ⟨"Ward", .enumeration, "Status"⟩⟩ ∈
          clinic.graph.edges) ∧
      clinic.owners.assignments.find? ⟨.rule, "Consent"⟩ = some ⟨"Ward", .kindHeuristics⟩ ∧
      (∃ entity, clinic.owners.owner? ⟨.entity, entity⟩ = some "Ward" ∧
        ⟨⟨"Ward", .rule, "Consent"⟩, .ruleEntity, ⟨"Ward", .entity, entity⟩⟩ ∈
          clinic.graph.edges) ∧
      clinic.owners.assignments.find? ⟨.action, "Admit"⟩ = some ⟨"Ward", .kindHeuristics⟩ ∧
      ∃ screen, clinic.owners.owner? ⟨.screen, screen⟩ = some "Ward" ∧
        ⟨⟨"Ward", .action, "Admit"⟩, .actionFromScreen, ⟨"Ward", .screen, screen⟩⟩ ∈
          clinic.graph.edges := by
  have hpatient : clinic.owners.assignments.find? ⟨.entity, "Patient"⟩ =
      some ⟨"Ward", .typeScoring⟩ := by decide +kernel
  have hstatus : clinic.owners.assignments.find? ⟨.enumeration, "Status"⟩ =
      some ⟨"Ward", .enumInheritance⟩ := by decide +kernel
  have hconsent : clinic.owners.assignments.find? ⟨.rule, "Consent"⟩ =
      some ⟨"Ward", .kindHeuristics⟩ := by decide +kernel
  have hadmit : clinic.owners.assignments.find? ⟨.action, "Admit"⟩ =
      some ⟨"Ward", .kindHeuristics⟩ := by decide +kernel
  obtain ⟨hexposed, hinherited, hgoverned, hstarted⟩ := heuristic_owners_grounded clinic
  exact ⟨hpatient, hexposed _ _ hpatient, hstatus, hinherited _ _ hstatus, hconsent,
    hgoverned _ _ hconsent, hadmit, hstarted _ _ hadmit⟩

end Document

end Blueprint
