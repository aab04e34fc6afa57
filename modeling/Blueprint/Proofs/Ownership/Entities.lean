import Blueprint.Proofs.Ownership.Precedence
import Blueprint.Proofs.Ownership.Scores

/-!
# Who owns an entity

Three of the seven passes speak for entities: the first one for those that stand in a component, the
third one for those that APIs use, and the last one for the rest. What the third pass counts depends
on the owners of APIs, which the first two passes find, and on an enumeration of the same name,
which may have an owner already. Once this is followed through, the owner of an entity can be read
off the document.

- `Pass.kinds`, `OwnershipRun.find?_step_of_kind`: the kinds of constructs that a pass speaks for;
  nothing changes for the others.
- `Pass.firstFor_directNesting`: the first component in which a construct stands speaks for it.
- `Model.owner?_of_kind`: the owner of a construct of a kind for which one pass between the first
  and the last speaks.
- `Ownership.foundBy?`, `Model.owner?_runOf`: the owners that some passes found.
- `Model.users`, `Evidence.best_scoreTypes`: the components that use an entity, once for each use;
  the third pass speaks for the one that uses it most.
- `Document.entity_owner`: the owner of an entity.
-/

namespace Blueprint

/-! ## Kinds -/

namespace Pass

variable {m : Model} {e : Evidence} {owners : Owners} {k : Key} {c? : Option String}

/-- The kinds of the constructs that a pass speaks for. -/
def kinds : Pass → List Kind
  | directNesting => Kind.ownable
  | apiNamePrefix => [.api]
  | typeScoring => [.entity, .enumeration]
  | flowScoring => [.flow]
  | enumInheritance => [.enumeration]
  | kindHeuristics => [.event, .signal, .state, .rule, .journey, .operation, .element, .action]
  | fallback => Kind.ownable

theorem mem_nestedKeys_iff {c : Component} :
    k ∈ nestedKeys c ↔ ∃ decl, Item.construct decl ∈ c.body ∧ decl.key = k := by
  rw [nestedKeys, List.mem_filterMap]
  constructor
  · rintro ⟨i, hi, hkey⟩
    cases i with
    | construct decl => exact ⟨decl, hi, Option.some.inj hkey⟩
    | _ => cases hkey
  · rintro ⟨decl, hdecl, rfl⟩
    exact ⟨_, hdecl, rfl⟩

theorem kind_mem_of_mem_candidates {p : Pass} (h : (k, c?) ∈ p.candidates m e owners) :
    k.kind ∈ p.kinds := by
  cases p with
  | directNesting =>
    obtain ⟨d, -, h⟩ := List.mem_flatMap.1 h
    obtain ⟨j, hj, heq⟩ := List.mem_map.1 h
    cases heq
    refine Kind.mem_ownable_iff.2 ?_
    rcases List.mem_cons.1 hj with rfl | hj
    · exact Kind.noConfusion
    · obtain ⟨decl, -, rfl⟩ := mem_nestedKeys_iff.1 hj
      exact decl.kind_ne_system
  | apiNamePrefix =>
    obtain ⟨a, -, heq⟩ := List.mem_map.1 h
    cases heq
    exact List.mem_singleton_self _
  | typeScoring =>
    obtain ⟨j, hj, heq⟩ := List.mem_map.1 h
    cases heq
    rcases List.mem_append.1 hj with hj | hj <;> obtain ⟨n, -, rfl⟩ := List.mem_map.1 hj <;>
      simp [kinds]
  | flowScoring =>
    obtain ⟨f, -, heq⟩ := List.mem_map.1 h
    cases heq
    exact List.mem_singleton_self _
  | enumInheritance =>
    obtain ⟨n, -, heq⟩ := List.mem_map.1 h
    cases heq
    exact List.mem_singleton_self _
  | kindHeuristics =>
    simp only [candidates, heuristics, List.mem_append, List.mem_map, Prod.mk.injEq] at h
    rcases h with ((((((h | h) | h) | h) | h) | h) | h) | h <;> obtain ⟨d, -, rfl, -⟩ := h <;>
      simp [kinds]
  | fallback =>
    obtain ⟨j, hj, heq⟩ := List.mem_map.1 h
    cases heq
    exact Kind.mem_ownable_iff.2 (Model.kind_ne_system_of_mem_keys hj)

theorem firstFor_eq_none_of_kind {p : Pass} (h : k.kind ∉ p.kinds) :
    firstFor k (p.candidates m e owners) = none := by
  refine Option.eq_none_iff_forall_ne_some.2 fun c hc => ?_
  exact h (kind_mem_of_mem_candidates (mem_of_firstFor hc))

/-! ## Who speaks for a construct -/

theorem firstFor_map (f : Key → Option String) (ks : List Key) (k : Key) :
    firstFor k (ks.map fun j => (j, f j)) = if k ∈ ks then f k else none := by
  induction ks with
  | nil => rfl
  | cons j rest ih =>
    rw [firstFor] at ih ⊢
    rw [List.map_cons, List.findSome?_cons, ih]
    by_cases hj : j = k
    · subst hj
      cases f j <;> simp
    · simp [hj, Ne.symm hj]

/-- **The first component in which a construct stands directly speaks for it.** -/
theorem firstFor_directNesting (m : Model) (e : Evidence) (owners : Owners)
    (hk : k.kind ≠ .component) :
    firstFor k (directNesting.candidates m e owners) =
      (m.components.find? fun c => k ∈ nestedKeys c).map Component.name := by
  show firstFor k (m.components.flatMap fun c =>
    (⟨.component, c.name⟩ :: nestedKeys c).map fun j => (j, some c.name)) = _
  induction m.components with
  | nil => rfl
  | cons c rest ih =>
    -- a component also speaks for itself, which is why components are left out
    have hself : k ≠ ⟨.component, c.name⟩ := fun h => hk (congrArg Key.kind h)
    have hfirst := firstFor_map (fun _ => some c.name) (⟨.component, c.name⟩ :: nestedKeys c) k
    rw [firstFor] at ih hfirst ⊢
    rw [List.flatMap_cons, List.findSome?_append, hfirst, ih, List.find?_cons]
    by_cases hc : k ∈ nestedKeys c
    · simp [hc]
    · simp [hc, hself]

/-- The last pass speaks for the first component. -/
theorem firstFor_fallback_eq (m : Model) (e : Evidence) (owners : Owners) (hk : k ∈ m.keys) :
    firstFor k (fallback.candidates m e owners) = m.componentNames.head? := by
  rw [candidates, firstFor_map fun _ => m.componentNames.head?, if_pos hk]

end Pass

namespace OwnershipRun

/-- A pass changes nothing for the constructs that it does not speak for. -/
theorem find?_step_of_kind (m : Model) (r : OwnershipRun) {p : Pass} {k : Key}
    (h : k.kind ∉ p.kinds) : (r.step m p).assignments.find? k = r.assignments.find? k := by
  rw [find?_step_eq_firstFor, Pass.firstFor_eq_none_of_kind h, Option.map_none, Option.or_none]

end OwnershipRun

namespace Model

variable {m : Model} {k : Key}

/-- Passes that do not speak for a construct leave it as it is. -/
theorem find?_runOf_of_kinds {ps qs : List Pass} (h : ∀ q ∈ qs, k.kind ∉ q.kinds) :
    (m.runOf (ps ++ qs)).assignments.find? k = (m.runOf ps).assignments.find? k := by
  induction qs using List.reverseRecOn with
  | nil => rw [List.append_nil]
  | append_singleton qs q ih =>
    rw [List.forall_mem_append, List.forall_mem_singleton] at h
    rw [← List.append_assoc, runOf_concat, OwnershipRun.find?_step_of_kind m _ h.2, ih h.1]

/-- The owner of a construct other than a component after the first pass. -/
theorem find?_runOf_directNesting (hk : k.kind ≠ .component) :
    (m.runOf [.directNesting]).assignments.find? k =
      (m.components.find? fun c => k ∈ Pass.nestedKeys c).map
        fun c => ⟨c.name, .directNesting⟩ := by
  show (({} : OwnershipRun).step m .directNesting).assignments.find? k = _
  rw [OwnershipRun.find?_step_eq_firstFor, Pass.firstFor_directNesting _ _ _ hk, Option.map_map]
  rfl

/-- **Where one pass between the first and the last speaks for a kind**, the owner of a construct of
the kind is the first component in which it stands, or else what that pass says, or else the first
component. -/
theorem owner?_of_kind {kind : Kind} {n : String} {ps qs : List Pass} {p : Pass}
    (hall : Pass.all = .directNesting :: ps ++ p :: (qs ++ [.fallback]))
    (hothers : ∀ q ∈ ps ++ qs, kind ∉ q.kinds) (hkind : kind ≠ .component)
    (hk : ⟨kind, n⟩ ∈ m.keys) :
    m.assignOwners.owner? ⟨kind, n⟩ =
      ((m.components.find? fun c => ⟨kind, n⟩ ∈ Pass.nestedKeys c).map Component.name).or
        ((Pass.firstFor ⟨kind, n⟩ (p.candidates m
          ((m.runOf (.directNesting :: ps)).evidenceFor m p)
          (m.runOf (.directNesting :: ps)).owners)).or m.componentNames.head?) := by
  rw [List.forall_mem_append] at hothers
  have hrun : m.runOf Pass.all =
      (m.runOf ((.directNesting :: ps ++ [p]) ++ qs)).step m .fallback := by
    rw [hall, ← runOf_concat]
    simp
  -- only the first pass can have spoken before `p` does
  have hbefore : (m.runOf (.directNesting :: ps)).assignments.find? ⟨kind, n⟩ =
      (m.components.find? fun c => ⟨kind, n⟩ ∈ Pass.nestedKeys c).map fun c =>
        ⟨c.name, .directNesting⟩ := by
    rw [← List.singleton_append, find?_runOf_of_kinds hothers.1, find?_runOf_directNesting hkind]
  show ((m.runOf Pass.all).assignments.find? ⟨kind, n⟩).map Assignment.component = _
  rw [hrun, OwnershipRun.find?_step_eq_firstFor, Pass.firstFor_fallback_eq _ _ _ hk,
    find?_runOf_of_kinds hothers.2, runOf_concat, OwnershipRun.find?_step_eq_firstFor, hbefore]
  simp only [Option.map_or, Option.map_map, Function.comp_def, Option.or_assoc, Option.map_id']

end Model

/-! ## Owners found by some passes -/

/-- The owner of a construct, if one of the given passes found it and it has a name. -/
def Ownership.foundBy? (o : Ownership) (ps : List Pass) (k : Key) : Option String :=
  (o.assignments.find? k).bind fun a => if a.pass ∈ ps then nonEmpty? a.component else none

/-- The owner of the entity of a name, or else of the enumeration of that name. -/
def typeOwnerBy? (owner? : Key → Option String) (n : String) : Option String :=
  (owner? ⟨.entity, n⟩).or (owner? ⟨.enumeration, n⟩)

namespace Model

variable {m : Model}

/-- The owners that a pass is shown are those that the passes before it found. -/
theorem owner?_runOf {ps qs : List Pass} (h : Pass.all = ps ++ qs) (k : Key) :
    (m.runOf ps).owners.owner? k = m.assignOwners.foundBy? ps k := by
  have hall : m.assignOwners.assignments.find? k = (m.runOf (ps ++ qs)).assignments.find? k :=
    h ▸ rfl
  rw [Owners.owner?, OwnershipRun.find?_owners, Ownership.foundBy?, hall]
  cases hps : (m.runOf ps).assignments.find? k with
  | some a =>
    rw [find?_runOf_append hps qs]
    simp [pass_mem_of_find?_runOf hps]
  | none =>
    cases hrun : (m.runOf (ps ++ qs)).assignments.find? k with
    | none => rfl
    | some a =>
      -- what was found later was found by another pass
      have hqs : a.pass ∈ qs := by
        rcases find?_runOf_append_cases hrun with hps' | hqs
        · rw [hps] at hps'
          cases hps'
        · exact hqs
      have hnodup : (ps ++ qs).Nodup := h ▸ nodup_all
      have hnot : a.pass ∉ ps := fun hp => (List.nodup_append.1 hnodup).2.2 _ hp _ hqs rfl
      simp [hnot]

end Model

/-! ## Uses -/

/-- The component that uses a type through an API, which is the owner of the API if it has one, once
for each reference of the endpoints to the type. -/
def Api.users (owner? : Key → Option String) (n : String) (a : Api) : List String :=
  (a.endpoints.flatMap Endpoint.refs).filterMap fun r => if r = n then owner? a.key else none

/-- The components that use a type through APIs, in the order of the uses. -/
def Model.users (m : Model) (owner? : Key → Option String) (n : String) : List String :=
  m.apis.flatMap (Api.users owner? n)

namespace Evidence

variable {m : Model} {owners : Owners} {n : String}

/-- The step: an API gives points to its owner for each use of an entity, unless the name of the
entity has an owner. -/
theorem scores_scoreApi (hn : n ∈ m.entityNames) (b : ScoreBoard) (a : Api) :
    (scoreApi m owners b a).scores n =
      (if (owners.typeOwner? n).isSome then [] else a.users owners.owner? n).foldl
        (fun s c => s.add c endpointRefWeight) (b.scores n) := by
  unfold scoreApi Api.users
  generalize a.endpoints.flatMap Endpoint.refs = refs
  cases owners.owner? a.key with
  | none => simp
  | some component =>
    show ((refs.filter _).foldl _ b).scores n = _
    rw [ScoreBoard.scores_foldl_add, List.filterMap_filter]
    -- of the references that count, only those to the entity itself are left
    congr 1
    cases howner : owners.typeOwner? n with
    | none =>
      refine List.filterMap_congr fun r _ => ?_
      by_cases hr : r = n
      · subst hr
        simp [hn, howner]
      · simp [hr]
    | some c =>
      refine List.filterMap_eq_nil_iff.2 fun r _ => ?_
      by_cases hr : r = n
      · subst hr
        simp [howner]
      · simp [hr]

/-- The run: so do all APIs, one after the other. -/
theorem scores_scoreTypes (hn : n ∈ m.entityNames) :
    (({} : Evidence).scoreTypes m owners).typeScores.scores n =
      Scores.tally ((if (owners.typeOwner? n).isSome then [] else m.users owners.owner? n).map
        fun c => (c, endpointRefWeight)) := by
  -- for any board to start from, as the one of the first API is handed on to the next
  have hrun : ∀ (apis : List Api) (b : ScoreBoard), (apis.foldl (scoreApi m owners) b).scores n =
      (apis.flatMap fun a =>
        if (owners.typeOwner? n).isSome then [] else a.users owners.owner? n).foldl
          (fun s c => s.add c endpointRefWeight) (b.scores n) := by
    intro apis
    induction apis with
    | nil => intro b; rfl
    | cons a rest ih =>
      intro b
      rw [List.foldl_cons, ih, scores_scoreApi hn, List.flatMap_cons, List.foldl_append]
  rw [Scores.tally, List.foldl_map]
  refine (hrun m.apis {}).trans ?_
  split
  · rw [List.flatMap_eq_nil_iff.2 fun _ _ => rfl]
    rfl
  · rfl

/-- **The third pass speaks for the component that uses an entity most**, unless the name of the
entity has an owner. -/
theorem best_scoreTypes (hn : n ∈ m.entityNames) :
    (({} : Evidence).scoreTypes m owners).typeScores.best n =
      if (owners.typeOwner? n).isSome then none else mostFrequent? (m.users owners.owner? n) := by
  have hweight : 0 < endpointRefWeight := by decide
  rw [ScoreBoard.best, scores_scoreTypes hn, Scores.best_tally_const _ hweight]
  split
  · rfl
  · rfl

end Evidence

/-! ## Owners of entities -/

/-- Whether an entity of a name stands directly in a component. -/
def Component.declaresEntity (n : String) (c : Component) : Bool :=
  c.body.any fun
    | .construct (.entity e) => e.name = n
    | _ => false

theorem Pass.entity_mem_nestedKeys_iff {n : String} {c : Component} :
    ⟨.entity, n⟩ ∈ nestedKeys c ↔ c.declaresEntity n = true := by
  rw [mem_nestedKeys_iff, Component.declaresEntity, List.any_eq_true]
  constructor
  · rintro ⟨decl, hdecl, hkey⟩
    cases decl with
    | entity e => exact ⟨_, hdecl, decide_eq_true (congrArg Key.name hkey)⟩
    | _ => cases congrArg Key.kind hkey
  · rintro ⟨i, hi, hname⟩
    split at hname
    · next e => exact ⟨_, hi, congrArg (Key.mk .entity) (of_decide_eq_true hname)⟩
    · cases hname

namespace Model

variable {m : Model} {n : String}

/-- A construct that stands in a component belongs to the first component in which it stands. -/
theorem find?_assignOwners_of_nested {k : Key} (hk : k.kind ≠ .component) {c : Component}
    (h : (m.components.find? fun c => k ∈ Pass.nestedKeys c) = some c) :
    m.assignOwners.assignments.find? k = some ⟨c.name, .directNesting⟩ := by
  have hfirst : (m.runOf [.directNesting]).assignments.find? k = some ⟨c.name, .directNesting⟩ := by
    rw [find?_runOf_directNesting hk, h]
    rfl
  exact find?_runOf_append hfirst Pass.all.tail

/-- The second pass finds owners for APIs only. -/
theorem find?_runOf_apiNamePrefix {k : Key} (hk : k.kind ≠ .api) :
    (m.runOf [.directNesting, .apiNamePrefix]).assignments.find? k =
      (m.runOf [.directNesting]).assignments.find? k :=
  OwnershipRun.find?_step_of_kind m (m.runOf [.directNesting]) (mt List.mem_singleton.1 hk)

theorem find?_runOf_entity (m : Model) (n : String) :
    (m.runOf [.directNesting, .apiNamePrefix]).assignments.find? ⟨.entity, n⟩ =
      (m.components.find? (Component.declaresEntity n)).map fun c => ⟨c.name, .directNesting⟩ := by
  rw [find?_runOf_apiNamePrefix Kind.noConfusion, find?_runOf_directNesting Kind.noConfusion]
  simp only [Pass.entity_mem_nestedKeys_iff, Bool.decide_eq_true]

/-- Three passes speak for an entity: the first, the third and the last. -/
theorem owner?_entity (hn : n ∈ m.entityNames) :
    m.assignOwners.owner? ⟨.entity, n⟩ =
      ((m.components.find? (Component.declaresEntity n)).map Component.name).or
        (((({} : Evidence).scoreTypes m
          (m.runOf [.directNesting, .apiNamePrefix]).owners).typeScores.best n).or
            m.componentNames.head?) := by
  have hk : ⟨.entity, n⟩ ∈ m.keys := by
    obtain ⟨d, hd, rfl⟩ := List.mem_map.1 hn
    exact key_mem_keys_of_construct (c := .entity d) (List.mem_map_of_mem hd)
  have hthird (e : Evidence) (owners : Owners) :
      Pass.firstFor ⟨.entity, n⟩ (Pass.typeScoring.candidates m e owners) =
        e.typeScores.best n := by
    rw [Pass.candidates, Pass.firstFor_map, if_pos]
    exact List.mem_append_left _ (List.mem_map_of_mem hn)
  have hall : Pass.all = Pass.directNesting :: [Pass.apiNamePrefix] ++ Pass.typeScoring ::
      ([Pass.flowScoring, .enumInheritance, .kindHeuristics] ++ [Pass.fallback]) := rfl
  rw [owner?_of_kind hall (by decide) Kind.noConfusion hk, hthird]
  simp only [Pass.entity_mem_nestedKeys_iff, Bool.decide_eq_true]
  rfl

/-- The name of an entity that stands in no component has an owner after the first two passes only
when an enumeration has that name. -/
theorem typeOwner?_runOf (hnested : m.components.find? (Component.declaresEntity n) = none) :
    (m.runOf [.directNesting, .apiNamePrefix]).owners.typeOwner? n =
      m.assignOwners.foundBy? [.directNesting] ⟨.enumeration, n⟩ := by
  have hentity : (m.runOf [.directNesting, .apiNamePrefix]).owners.owner? ⟨.entity, n⟩ = none := by
    rw [Owners.owner?, OwnershipRun.find?_owners, find?_runOf_entity, hnested]
    rfl
  have hfirst : Pass.all = [.directNesting] ++ Pass.all.tail := rfl
  rw [Owners.typeOwner?, hentity, Option.none_or, ← owner?_runOf hfirst, Owners.owner?,
    Owners.owner?, OwnershipRun.find?_owners, OwnershipRun.find?_owners,
    find?_runOf_apiNamePrefix Kind.noConfusion]

end Model

namespace Document

/-- **Who owns an entity.** In a document with components, the owner of an entity is the first
component in which it is declared directly. If there is none, it is the component whose APIs use it
most, the APIs being those whose owners the first two passes found; it does not come to that when
the first pass found an owner with a name for the enumeration of the same name. If there is no such
component either, it is the first component. -/
theorem entity_owner (d : Document) {first : Component} {rest : List Component}
    (hd : d.collect.components = first :: rest) {n : String} (hn : n ∈ d.collect.entityNames) :
    d.collect.assignOwners.owner? ⟨.entity, n⟩ =
      some ((((first :: rest).find? (Component.declaresEntity n)).map Component.name).or
        (if (d.collect.assignOwners.foundBy? [.directNesting] ⟨.enumeration, n⟩).isSome then none
        else mostFrequent? (d.collect.users
          (d.collect.assignOwners.foundBy? [.directNesting, .apiNamePrefix]) n))
        |>.getD first.name) := by
  have hhead : d.collect.componentNames.head? = some first.name := by
    rw [Model.componentNames, hd]
    rfl
  rw [Model.owner?_entity hn, Evidence.best_scoreTypes hn, hhead, ← hd]
  cases hnested : d.collect.components.find? (Component.declaresEntity n) with
  | some c => simp
  | none =>
    have hsecond : Pass.all = [.directNesting, .apiNamePrefix] ++ Pass.all.drop 2 := rfl
    have husers : (d.collect.runOf [.directNesting, .apiNamePrefix]).owners.owner? =
        d.collect.assignOwners.foundBy? [.directNesting, .apiNamePrefix] :=
      funext fun k => Model.owner?_runOf hsecond k
    rw [Model.typeOwner?_runOf hnested, husers, Option.map_none, Option.none_or, Option.none_or,
      Option.or_some]

/-- Two components whose APIs use parcels equally often. One of the APIs stands in its component,
the other one stands outside and is named after it. The name of the stamp is shared by an
enumeration that stands in a component. -/
def postOffice : Document where
  body :=
    [ .construct (.api ⟨none, some "haulageApi", .rest, [],
        [.simple none .post "/parcels"
          (some (.union none [.reference none "Parcel", .optional none (.reference none "Parcel")]))
          (some (.reference none "Stamp")) []], []⟩),
      .component ⟨none, "Sorting", none, [], []⟩
        [ .construct (.api ⟨none, none, .rest, [],
            [.simple none .get "/parcels" (some (.reference none "Parcel"))
              (some (.array none (.reference none "Parcel"))) []], []⟩) ],
      .component ⟨none, "Haulage", none, [], []⟩
        [ .construct (.entity ⟨none, "Truck", none, [], [], []⟩),
          .construct (.enumeration ⟨none, "Stamp", [], []⟩) ],
      .construct (.entity ⟨none, "Parcel", none, [], [], []⟩),
      .construct (.entity ⟨none, "Stamp", none, [], [], []⟩) ]

/-- A tie goes to the component that is the first to use the parcel, though it is declared last. The
stamp gets no points, since its name has an owner, and is left to the first component. -/
theorem postOffice_entity_owner :
    postOffice.collect.users
        (postOffice.collect.assignOwners.foundBy? [.directNesting, .apiNamePrefix]) "Parcel" =
      ["Haulage", "Haulage", "Sorting", "Sorting"] ∧
    "Parcel" ∈ postOffice.collect.entityNames ∧
    postOffice.collect.assignOwners.owner? ⟨.entity, "Parcel"⟩ = some "Haulage" ∧
    "Stamp" ∈ postOffice.collect.entityNames ∧
    postOffice.collect.assignOwners.owner? ⟨.entity, "Stamp"⟩ = some "Sorting" ∧
    "Truck" ∈ postOffice.collect.entityNames ∧
    postOffice.collect.assignOwners.owner? ⟨.entity, "Truck"⟩ = some "Haulage" := by
  have hparcel : "Parcel" ∈ postOffice.collect.entityNames := by decide +kernel
  have hstamp : "Stamp" ∈ postOffice.collect.entityNames := by decide +kernel
  have htruck : "Truck" ∈ postOffice.collect.entityNames := by decide +kernel
  exact ⟨by decide +kernel,
    hparcel, (entity_owner postOffice rfl hparcel).trans (by decide +kernel),
    hstamp, (entity_owner postOffice rfl hstamp).trans (by decide +kernel),
    htruck, (entity_owner postOffice rfl htruck).trans (by decide +kernel)⟩

end Document

end Blueprint
