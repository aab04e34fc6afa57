import Mathlib.Data.List.Induction
import Mathlib.Data.List.Nodup
import Blueprint.Proofs.Ownership.Totality

/-!
# Earlier passes win

A pass is shown what the passes before it found, and what it proposes for a construct that has an
owner already is not kept. So the owner of a construct comes from the first pass that proposes one,
and the snapshots and the groups by component are two ways to cut the owners into parts.

- `Snapshot.union`, `Ownership.before`: what some passes added, taken together.
- `Ownership.proposal`: what a pass proposes when it is run on what the passes before it added.
- `Model.find?_runOf`: the owner comes from the first pass that proposes one.
- `Model.mem_candidates_of_assignment`: what a pass decided was one of its candidates.
- `Model.find?_snapshot`: a snapshot holds what its pass decided.
- `Ownership.ownedBy`, `Ownership.values_byComponent`: the groups by component.
- `Model.earlier_pass_wins`: all of this in one statement.
-/

namespace Blueprint

/-! ## What passes propose, read off the snapshots -/

/-- What some passes added, taken together. -/
def Snapshot.union (snapshots : List Snapshot) : Owners :=
  snapshots.foldl (fun owners s => owners.extend s.owners) ∅

theorem Snapshot.union_concat (snapshots : List Snapshot) (s : Snapshot) :
    union (snapshots ++ [s]) = (union snapshots).extend s.owners := by
  rw [union, List.foldl_append]
  rfl

namespace Ownership

/-- What the passes before a pass added, taken together. -/
def before (o : Ownership) (p : Pass) : Owners :=
  Snapshot.union (o.snapshots.takeWhile fun s => s.pass ≠ p)

/-- The evidence that a pass proposes from: the passes up to it have observed in order, each what
the passes before it added. -/
def evidenceAt (o : Ownership) (m : Model) (p : Pass) : Evidence :=
  (Pass.all.takeWhile (· ≠ p) ++ [p]).foldl (fun e q => q.observe m (o.before q) e) {}

/-- What a pass proposes when it is run on what the passes before it added. -/
def proposal (o : Ownership) (m : Model) (p : Pass) : Owners :=
  p.propose m (o.evidenceAt m p) (o.before p)

end Ownership

/-! ## Snapshots along a run -/

namespace OwnershipRun

variable {m : Model} {r : OwnershipRun}

theorem not_mem_keys_of_mem_accepted {p : Pass} {k : Key} (h : k ∈ (r.accepted m p).keys) :
    k ∉ r.assignments.keys := by
  intro hk
  obtain ⟨c, hc⟩ := Table.mem_keys_iff.1 h
  rw [find?_accepted, if_pos (Table.contains_iff.2 hk)] at hc
  cases hc

/-- The owners are what the passes added, taken together. -/
theorem owners_step (h : r.owners = Snapshot.union r.snapshots) (p : Pass) :
    (r.step m p).owners = Snapshot.union (r.step m p).snapshots := by
  show (r.assignments.extend ((r.accepted m p).mapValues fun _ c => ⟨c, p⟩)).mapValues _ =
    Snapshot.union (r.snapshots ++ [⟨p, r.accepted m p⟩])
  rw [Snapshot.union_concat, ← h]
  -- nothing that is accepted has an owner, so both sides append it
  have hleft : (r.assignments.extend ((r.accepted m p).mapValues fun _ c => ⟨c, p⟩)).entries = _ :=
    Table.entries_extend fun k hk => by
      rw [Table.keys_mapValues] at hk
      exact not_mem_keys_of_mem_accepted hk
  have hright : (r.owners.extend (r.accepted m p)).entries = _ :=
    Table.entries_extend fun k hk => by
      rw [owners, Table.keys_mapValues]
      exact not_mem_keys_of_mem_accepted hk
  refine Table.ext ?_
  rw [hright, Table.entries_mapValues, hleft, owners, Table.entries_mapValues,
    Table.entries_mapValues]
  simp [Function.comp_def]

end OwnershipRun

namespace Model

variable {m : Model} {k : Key}

theorem owners_runOf (m : Model) (ps : List Pass) :
    (m.runOf ps).owners = Snapshot.union (m.runOf ps).snapshots :=
  runOf_induct (P := fun r => r.owners = Snapshot.union r.snapshots) rfl
    (fun _ p h => OwnershipRun.owners_step h p) ps

theorem passes_runOf (m : Model) (ps : List Pass) :
    (m.runOf ps).snapshots.map Snapshot.pass = ps := by
  induction ps using List.reverseRecOn with
  | nil => rfl
  | append_singleton ps p ih =>
    rw [runOf_concat]
    show ((m.runOf ps).snapshots ++ [_]).map Snapshot.pass = ps ++ [p]
    rw [List.map_append, ih]
    rfl

/-- Later passes add snapshots and leave those that are there alone. -/
theorem snapshots_prefix_runOf (m : Model) (ps qs : List Pass) :
    (m.runOf ps).snapshots <+: (m.runOf (ps ++ qs)).snapshots := by
  induction qs using List.reverseRecOn with
  | nil => simp
  | append_singleton qs q ih =>
    rw [← List.append_assoc, runOf_concat]
    exact ih.trans (List.prefix_append _ _)

/-- An owner that is found stays. -/
theorem find?_runOf_append {ps : List Pass} {a : Assignment}
    (h : (m.runOf ps).assignments.find? k = some a) (qs : List Pass) :
    (m.runOf (ps ++ qs)).assignments.find? k = some a := by
  induction qs using List.reverseRecOn with
  | nil => rwa [List.append_nil]
  | append_singleton qs q ih =>
    rw [← List.append_assoc, runOf_concat, OwnershipRun.find?_step, ih, Option.some_or]

/-! ## The first pass that proposes -/

theorem takeWhile_ne_of_nodup {ps qs : List Pass} {p : Pass} (h : (ps ++ p :: qs).Nodup) :
    (ps ++ p :: qs).takeWhile (· ≠ p) = ps := by
  have hp : ∀ q ∈ ps, q ≠ p := fun q hq => (List.nodup_append.1 h).2.2 q hq p List.mem_cons_self
  rw [List.takeWhile_append_of_pos fun q hq => decide_eq_true (hp q hq)]
  simp

theorem nodup_all : Pass.all.Nodup := by decide

/-- What the passes before a pass added is what the pass was shown. -/
theorem before_eq {ps qs : List Pass} {p : Pass} (h : Pass.all = ps ++ p :: qs) :
    m.assignOwners.before p = (m.runOf ps).owners := by
  obtain ⟨rest, hrest⟩ := m.snapshots_prefix_runOf ps (p :: qs)
  have hpasses := m.passes_runOf (ps ++ p :: qs)
  rw [← hrest, List.map_append, passes_runOf] at hpasses
  have hnodup : (ps ++ p :: qs).Nodup := h ▸ nodup_all
  have hps : ∀ s ∈ (m.runOf ps).snapshots, s.pass ≠ p := by
    intro s hs
    have hmem : s.pass ∈ ps := by
      rw [← m.passes_runOf ps]
      exact List.mem_map_of_mem hs
    exact (List.nodup_append.1 hnodup).2.2 s.pass hmem p List.mem_cons_self
  -- the snapshot of the pass itself comes right after those before it
  have hstop : rest.takeWhile (fun s => s.pass ≠ p) = [] := by
    cases rest with
    | nil => rfl
    | cons s rest =>
      have hs : s.pass = p := (List.cons.inj (List.append_cancel_left hpasses)).1
      simp [hs]
  have hbefore : m.assignOwners.snapshots.takeWhile (fun s => s.pass ≠ p) =
      (m.runOf ps).snapshots := by
    show (m.runOf Pass.all).snapshots.takeWhile _ = _
    rw [h, ← hrest, List.takeWhile_append_of_pos fun s hs => decide_eq_true (hps s hs), hstop,
      List.append_nil]
  rw [Ownership.before, hbefore, owners_runOf]

theorem evidence_runOf {ps qs : List Pass} (h : Pass.all = ps ++ qs) :
    (m.runOf ps).evidence = ps.foldl (fun e q => q.observe m (m.assignOwners.before q) e) {} := by
  -- from the end, for a run is extended by its last pass
  induction ps using List.reverseRecOn generalizing qs with
  | nil => rfl
  | append_singleton ps p ih =>
    rw [List.append_assoc, List.singleton_append] at h
    rw [runOf_concat, List.foldl_append, ← ih h]
    show p.observe m (m.runOf ps).owners (m.runOf ps).evidence = _
    rw [← before_eq h]
    rfl

/-- What a pass proposes on what the passes before it added is what it did propose. -/
theorem proposal_eq {ps qs : List Pass} {p : Pass} (h : Pass.all = ps ++ p :: qs) :
    m.assignOwners.proposal m p =
      p.propose m ((m.runOf ps).evidenceFor m p) (m.runOf ps).owners := by
  have hps : Pass.all.takeWhile (· ≠ p) = ps := by
    have hnodup : (ps ++ p :: qs).Nodup := h ▸ nodup_all
    rw [h, takeWhile_ne_of_nodup hnodup]
  have hevidence : m.assignOwners.evidenceAt m p = (m.runOf ps).evidenceFor m p := by
    rw [Ownership.evidenceAt, hps, List.foldl_append, ← evidence_runOf h, OwnershipRun.evidenceFor,
      ← before_eq h]
    rfl
  rw [Ownership.proposal, hevidence, before_eq h]

/-- **The owner of a construct comes from the first pass that proposes one.** -/
theorem find?_runOf {ps qs : List Pass} (h : Pass.all = ps ++ qs) (k : Key) :
    (m.runOf ps).assignments.find? k =
      ps.findSome? fun p => ((m.assignOwners.proposal m p).find? k).map fun c => ⟨c, p⟩ := by
  induction ps using List.reverseRecOn generalizing qs with
  | nil => rfl
  | append_singleton ps p ih =>
    rw [List.append_assoc, List.singleton_append] at h
    rw [runOf_concat, OwnershipRun.find?_step, ih h, List.findSome?_append, ← proposal_eq h]
    simp

/-! ## What snapshots hold -/

theorem pass_mem_of_find?_runOf {ps : List Pass} {a : Assignment}
    (h : (m.runOf ps).assignments.find? k = some a) : a.pass ∈ ps := by
  induction ps using List.reverseRecOn with
  | nil => cases h
  | append_singleton ps p ih =>
    rw [runOf_concat, OwnershipRun.find?_step] at h
    rcases Option.or_eq_some_iff.1 h with h | ⟨-, h⟩
    · exact List.mem_append_left _ (ih h)
    · obtain ⟨c, -, rfl⟩ := Option.map_eq_some_iff.1 h
      exact List.mem_append_right _ (List.mem_singleton_self p)

/-- What is found when more passes are run was found before, or by one of them. -/
theorem find?_runOf_append_cases {ps qs : List Pass} {a : Assignment}
    (h : (m.runOf (ps ++ qs)).assignments.find? k = some a) :
    (m.runOf ps).assignments.find? k = some a ∨ a.pass ∈ qs := by
  induction qs using List.reverseRecOn with
  | nil =>
    rw [List.append_nil] at h
    exact Or.inl h
  | append_singleton qs q ih =>
    rw [← List.append_assoc, runOf_concat, OwnershipRun.find?_step] at h
    rcases Option.or_eq_some_iff.1 h with h | ⟨-, h⟩
    · exact (ih h).imp_right (List.mem_append_left [q])
    · obtain ⟨c, -, rfl⟩ := Option.map_eq_some_iff.1 h
      exact Or.inr (List.mem_append_right qs (List.mem_singleton_self q))

/-- **What a pass decided was one of its candidates**, when it was shown what the passes before it
found. -/
theorem mem_candidates_of_assignment {ps qs : List Pass} {p : Pass} {c : String}
    (h : Pass.all = ps ++ p :: qs)
    (hk : m.assignOwners.assignments.find? k = some ⟨c, p⟩) :
    (k, some c) ∈ p.candidates m ((m.runOf ps).evidenceFor m p) (m.runOf ps).owners := by
  have hnodup : (ps ++ p :: qs).Nodup := h ▸ nodup_all
  obtain ⟨-, hlater, hearlier⟩ := List.nodup_append.1 hnodup
  have hrun : (m.runOf (ps ++ [p] ++ qs)).assignments.find? k = some ⟨c, p⟩ := by
    rw [List.append_assoc, List.singleton_append, ← h]
    exact hk
  rcases find?_runOf_append_cases hrun with hrun | hmem
  · rw [runOf_concat, OwnershipRun.find?_step_eq_firstFor] at hrun
    rcases Option.or_eq_some_iff.1 hrun with hbefore | ⟨-, hrun⟩
    · -- no pass comes twice
      have hmem : p ∈ ps := pass_mem_of_find?_runOf hbefore
      exact absurd rfl (hearlier p hmem p List.mem_cons_self)
    · obtain ⟨c', hfirst, heq⟩ := Option.map_eq_some_iff.1 hrun
      cases heq
      exact Pass.mem_of_firstFor hfirst
  · exact absurd hmem (List.nodup_cons.1 hlater).1

/-- **A snapshot holds what its pass decided.** -/
theorem find?_snapshot {ps : List Pass} (hps : ps.Nodup) {s : Snapshot}
    (hs : s ∈ (m.runOf ps).snapshots) (k : Key) (c : String) :
    s.owners.find? k = some c ↔ (m.runOf ps).assignments.find? k = some ⟨c, s.pass⟩ := by
  induction ps using List.reverseRecOn with
  | nil => exact absurd hs List.not_mem_nil
  | append_singleton ps p ih =>
    obtain ⟨hnodup, -, hne⟩ := List.nodup_append.1 hps
    have hfresh : p ∉ ps := fun hp => hne p hp p (List.mem_singleton_self p) rfl
    rw [runOf_concat] at hs ⊢
    rw [OwnershipRun.find?_step, Option.or_eq_some_iff]
    rcases List.mem_append.1 hs with hs | hs
    · -- a later pass decides nothing that would be credited to an earlier one
      have hpass : s.pass ∈ ps := by
        rw [← m.passes_runOf ps]
        exact List.mem_map_of_mem hs
      rw [ih hnodup hs]
      refine ⟨Or.inl, fun h => h.elim id ?_⟩
      rintro ⟨-, h⟩
      obtain ⟨c', -, heq⟩ := Option.map_eq_some_iff.1 h
      cases heq
      exact absurd hpass hfresh
    · obtain rfl := List.mem_singleton.1 hs
      show ((m.runOf ps).accepted m p).find? k = some c ↔ _
      rw [OwnershipRun.find?_accepted]
      cases hk : (m.runOf ps).assignments.find? k with
      | some a =>
        -- the owner is credited to a pass before, and no pass comes twice
        have ha : a.pass ≠ p := fun heq => hfresh (heq ▸ pass_mem_of_find?_runOf hk)
        simp only [Table.contains, hk, Option.isSome_some, if_true, reduceCtorEq, false_and,
          or_false, Option.some.injEq, false_iff]
        exact fun heq => ha (congrArg Assignment.pass heq)
      | none => simp [Table.contains, hk]

end Model

/-! ## Groups by component -/

namespace Ownership

variable {o : Ownership} {c : String} {k : Key}

/-- The constructs that a component owns, in the order in which they got their owners. -/
def ownedBy (o : Ownership) (c : String) : List Key :=
  (o.assignments.entries.filter fun e => e.2.component = c).map Prod.fst

theorem mem_ownedBy_iff : k ∈ o.ownedBy c ↔ o.owner? k = some c := by
  simp only [ownedBy, List.mem_map, List.mem_filter, decide_eq_true_eq, owner?,
    Option.map_eq_some_iff, Table.find?_eq_some_iff]
  constructor
  · rintro ⟨⟨j, a⟩, ⟨hmem, hc⟩, rfl⟩
    exact ⟨a, hmem, hc⟩
  · rintro ⟨a, hmem, hc⟩
    exact ⟨(k, a), ⟨hmem, hc⟩, rfl⟩

theorem nodup_ownedBy (o : Ownership) (c : String) : (o.ownedBy c).Nodup :=
  o.assignments.nodup.sublist (List.filter_sublist.map Prod.fst)

/-- Add a construct to the group of its owner. -/
def regroup (groups : Table String (List Key)) (e : Key × Assignment) : Table String (List Key) :=
  groups.upsert e.2.component fun old => old.getD [] ++ [e.1]

/-- A construct whose owner has a group opens no other one. -/
theorem keys_foldl_regroup {es : List (Key × Assignment)} {groups : Table String (List Key)}
    (h : ∀ e ∈ es, e.2.component ∈ groups.keys) :
    (es.foldl regroup groups).keys = groups.keys := by
  induction es generalizing groups with
  | nil => rfl
  | cons e rest ih =>
    have hkeys : (regroup groups e).keys = groups.keys := by
      rw [regroup, Table.keys_upsert, if_pos (h e List.mem_cons_self)]
    rw [List.foldl_cons, ih, hkeys]
    intro e' he'
    rw [hkeys]
    exact h e' (List.mem_cons_of_mem e he')

/-- A group gets the constructs of its component, in order. -/
theorem find?_foldl_regroup {es : List (Key × Assignment)} {groups : Table String (List Key)}
    {ks : List Key} (h : groups.find? c = some ks) :
    (es.foldl regroup groups).find? c =
      some (ks ++ (es.filter fun e => e.2.component = c).map Prod.fst) := by
  induction es generalizing groups ks with
  | nil => simpa using h
  | cons e rest ih =>
    rw [List.foldl_cons]
    by_cases hc : e.2.component = c
    · -- the construct joins the group at its end
      have hstep : (regroup groups e).find? c = some (ks ++ [e.1]) := by
        rw [regroup, hc, Table.find?_upsert_self, h]
        rfl
      rw [ih hstep]
      simp [hc]
    · have hstep : (regroup groups e).find? c = some ks := by
        rw [regroup, Table.find?_upsert_of_ne _ _ (Ne.symm hc), h]
      rw [ih hstep]
      simp [hc]

/-- The groups before any construct is in them. -/
def noGroups (names : List String) : Table String (List Key) :=
  names.foldl (fun groups c => groups.insertNew c []) ∅

theorem keys_noGroups (names : List String) : (noGroups names).keys = names.eraseDups := by
  rw [noGroups, Table.keys_foldl_insertNew, Table.keys_empty, Table.foldl_append_new_nil]

theorem find?_noGroups {names : List String} (hc : c ∈ names) :
    (noGroups names).find? c = some [] := by
  rw [noGroups, Table.find?_foldl_insertNew_const, if_pos hc]
  rfl

theorem byComponent_eq (o : Ownership) :
    o.byComponent = o.assignments.entries.foldl regroup (noGroups o.components) := rfl

/-- The group of a component is what the component owns. -/
theorem find?_byComponent (hc : c ∈ o.components) :
    o.byComponent.find? c = some (o.ownedBy c) := by
  rw [byComponent_eq, find?_foldl_regroup (find?_noGroups hc)]
  rfl

/-- Every owner is one of the listed components. -/
def Closed (o : Ownership) : Prop := ∀ k c, o.owner? k = some c → c ∈ o.components

variable (hclosed : o.Closed)

include hclosed

/-- The groups are the components in order, each once. -/
theorem keys_byComponent : o.byComponent.keys = o.components.eraseDups := by
  rw [byComponent_eq, keys_foldl_regroup, keys_noGroups]
  intro e he
  rw [keys_noGroups, List.mem_eraseDups]
  refine hclosed e.1 e.2.component ?_
  rw [owner?, Table.find?_eq_some_iff.2 he]
  rfl

theorem eq_ownedBy_of_find?_byComponent {ks : List Key} (h : o.byComponent.find? c = some ks) :
    ks = o.ownedBy c := by
  have hc : c ∈ o.components := by
    rw [← List.mem_eraseDups, ← keys_byComponent hclosed]
    exact Table.mem_keys_iff.2 ⟨ks, h⟩
  exact Option.some.inj (h.symm.trans (find?_byComponent hc))

theorem values_byComponent : o.byComponent.values = o.components.eraseDups.map o.ownedBy := by
  rw [← keys_byComponent hclosed, Table.values, Table.keys, List.map_map]
  refine List.map_congr_left fun e he => ?_
  exact eq_ownedBy_of_find?_byComponent hclosed (Table.find?_eq_some_iff.2 he)

theorem pairwise_disjoint_byComponent : o.byComponent.values.Pairwise List.Disjoint := by
  have hnodup : o.components.eraseDups.Nodup := keys_byComponent hclosed ▸ Table.keys_nodup _
  rw [values_byComponent hclosed, List.pairwise_map]
  refine hnodup.imp fun hne k hk hk' => hne ?_
  exact Option.some.inj ((mem_ownedBy_iff.1 hk).symm.trans (mem_ownedBy_iff.1 hk'))

/-- The groups hold every construct with an owner, once. -/
theorem flatten_byComponent_perm : o.byComponent.values.flatten.Perm o.assignments.keys := by
  have hnodup : o.byComponent.values.flatten.Nodup := by
    rw [List.nodup_flatten]
    refine ⟨?_, pairwise_disjoint_byComponent hclosed⟩
    rw [values_byComponent hclosed]
    intro ks hks
    obtain ⟨c, -, rfl⟩ := List.mem_map.1 hks
    exact o.nodup_ownedBy c
  -- nothing is listed twice on either side, so it is enough to compare members
  refine (List.perm_ext_iff_of_nodup hnodup (Table.keys_nodup _)).2 fun k => ?_
  rw [values_byComponent hclosed, List.mem_flatten, ← exists_owner?_iff]
  constructor
  · rintro ⟨_, hks, hk⟩
    obtain ⟨c, -, rfl⟩ := List.mem_map.1 hks
    exact ⟨c, mem_ownedBy_iff.1 hk⟩
  · rintro ⟨c, hc⟩
    refine ⟨o.ownedBy c, List.mem_map_of_mem ?_, mem_ownedBy_iff.2 hc⟩
    exact List.mem_eraseDups.2 (hclosed k c hc)

end Ownership

namespace Model

/-- The passes of all snapshots are distinct, so a construct is in one of them. -/
theorem exists_unique_snapshot {m : Model} {k : Key}
    (h : k ∈ m.assignOwners.assignments.keys) :
    ∃ s ∈ m.assignOwners.snapshots, k ∈ s.owners.keys ∧
      ∀ t ∈ m.assignOwners.snapshots, k ∈ t.owners.keys → t = s := by
  obtain ⟨a, ha⟩ : ∃ a, (m.runOf Pass.all).assignments.find? k = some a :=
    Table.mem_keys_iff.1 h
  have hpasses : m.assignOwners.snapshots.map Snapshot.pass = Pass.all := m.passes_runOf Pass.all
  have hmem : a.pass ∈ m.assignOwners.snapshots.map Snapshot.pass := by
    rw [hpasses]
    exact pass_mem_of_find?_runOf ha
  obtain ⟨s, hs, hpass⟩ := List.mem_map.1 hmem
  -- a snapshot holds the construct when its pass is the one that the assignment names
  have hsnapshot : ∀ t ∈ m.assignOwners.snapshots,
      k ∈ t.owners.keys ↔ t.pass = a.pass := by
    intro t ht
    rw [Table.mem_keys_iff]
    have hiff := find?_snapshot (m := m) nodup_all ht k
    constructor
    · rintro ⟨c, hc⟩
      exact congrArg Assignment.pass (Option.some.inj (((hiff c).1 hc).symm.trans ha))
    · intro heq
      exact ⟨a.component, (hiff a.component).2 (heq ▸ ha)⟩
  refine ⟨s, hs, (hsnapshot s hs).2 hpass, fun t ht hk => ?_⟩
  have hnodup : (m.assignOwners.snapshots.map Snapshot.pass).Nodup := hpasses ▸ nodup_all
  exact List.inj_on_of_nodup_map hnodup ht hs (((hsnapshot t ht).1 hk).trans hpass.symm)

/-- **Earlier passes win.** There is a snapshot for each pass, in order. The owner of a construct is
the one proposed by the first pass that proposes any, each pass being run on what the snapshots of
the passes before it hold; no pass run later changes it; and the construct is in the snapshot of
that pass and in no other. The groups by component are the components, each once and in order; they
have nothing in common, hold every construct with an owner once, and hold it under its owner. -/
theorem earlier_pass_wins (m : Model) :
    m.assignOwners.snapshots.map Snapshot.pass = Pass.all ∧
    (∀ k, m.assignOwners.assignments.find? k =
      Pass.all.findSome? fun p => ((m.assignOwners.proposal m p).find? k).map fun c => ⟨c, p⟩) ∧
    (∀ ps qs k a, (m.runOf ps).assignments.find? k = some a →
      (m.runOf (ps ++ qs)).assignments.find? k = some a) ∧
    (∀ s ∈ m.assignOwners.snapshots, ∀ k c,
      s.owners.find? k = some c ↔ m.assignOwners.assignments.find? k = some ⟨c, s.pass⟩) ∧
    (∀ k ∈ m.assignOwners.assignments.keys,
      ∃ s ∈ m.assignOwners.snapshots, k ∈ s.owners.keys ∧
        ∀ t ∈ m.assignOwners.snapshots, k ∈ t.owners.keys → t = s) ∧
    m.assignOwners.byComponent.keys = m.componentNames.eraseDups ∧
    m.assignOwners.byComponent.values.Pairwise List.Disjoint ∧
    m.assignOwners.byComponent.values.flatten.Perm m.assignOwners.assignments.keys ∧
    ∀ c ks, m.assignOwners.byComponent.find? c = some ks →
      ∀ k, k ∈ ks ↔ m.assignOwners.owner? k = some c := by
  have hclosed : m.assignOwners.Closed := fun _ _ => owner_mem_componentNames
  exact ⟨m.passes_runOf Pass.all,
    find?_runOf (List.append_nil Pass.all).symm,
    fun ps qs k a h => find?_runOf_append h qs,
    fun s hs k c => find?_snapshot nodup_all hs k c,
    fun k hk => exists_unique_snapshot hk,
    Ownership.keys_byComponent hclosed,
    Ownership.pairwise_disjoint_byComponent hclosed,
    Ownership.flatten_byComponent_perm hclosed,
    fun c ks h k => Ownership.eq_ownedBy_of_find?_byComponent hclosed h ▸ Ownership.mem_ownedBy_iff⟩

/-- A sale in the bazaar goes to the stalls by the sixth pass and is in no snapshot but its own; the
till and what lies in it are the second group. -/
theorem bazaar_earlier_pass_wins :
    ⟨.event, "WareSold"⟩ ∈ Document.bazaar.collect.assignOwners.assignments.keys ∧
      (∃ s ∈ Document.bazaar.collect.assignOwners.snapshots,
        ⟨.event, "WareSold"⟩ ∈ s.owners.keys ∧
          ∀ t ∈ Document.bazaar.collect.assignOwners.snapshots,
            ⟨.event, "WareSold"⟩ ∈ t.owners.keys → t = s) ∧
      (Pass.all.findSome? fun p =>
        ((Document.bazaar.collect.assignOwners.proposal Document.bazaar.collect p).find?
          ⟨.event, "WareSold"⟩).map fun c => ⟨c, p⟩) =
        some (⟨"Stalls", .kindHeuristics⟩ : Assignment) ∧
      Document.bazaar.collect.assignOwners.byComponent.find? "Till" =
        some [⟨.component, "Till"⟩, ⟨.secret, "pin"⟩] ∧
      ∀ k, k ∈ [⟨.component, "Till"⟩, ⟨.secret, "pin"⟩] ↔
        Document.bazaar.collect.assignOwners.owner? k = some "Till" := by
  have hsold : ⟨.event, "WareSold"⟩ ∈ Document.bazaar.collect.assignOwners.assignments.keys := by
    decide +kernel
  have hfind : Document.bazaar.collect.assignOwners.assignments.find? ⟨.event, "WareSold"⟩ =
      some ⟨"Stalls", .kindHeuristics⟩ := by decide +kernel
  have htill : Document.bazaar.collect.assignOwners.byComponent.find? "Till" =
      some [⟨.component, "Till"⟩, ⟨.secret, "pin"⟩] := by decide +kernel
  obtain ⟨-, hfirst, -, -, honce, -, -, -, hgroup⟩ := earlier_pass_wins Document.bazaar.collect
  exact ⟨hsold, honce _ hsold, (hfirst _).symm.trans hfind, htill, hgroup "Till" _ htill⟩

end Model

end Blueprint
