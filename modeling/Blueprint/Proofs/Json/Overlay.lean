import Blueprint.Proofs.Json.Members
import Blueprint.Proofs.Json.Roundtrip
import Blueprint.Settings

/-!
# One value over another, path by path

A value that is put over another one hides some of it. Where it has an object, members that it does
not mention show through; where it has anything else, nothing does, however deep one looks.

- `Json.KeysDiffer`: the objects that keys tell apart, as those that were read do.
- `Json.Shadows`, `Json.LeavesOpen`: where a value hides what is under it, and where it has no say.
- `Json.memberOf?_mergeMembers_of_some`, `Json.memberOf?_mergeMembers_of_none`: one member of a
  merge.
- `Json.atPath?_merge_of_some`, `Json.atPath?_merge_of_shadows`, `Json.atPath?_merge_of_leavesOpen`:
  the value at a path of a merge.
- `Json.OverridesAt`, `Json.overridesAt_merge`: the rule by which one value overrides another.
- `Json.atPath?_merge_eq_leaf_iff`: where a value that is no object comes from.
- `Json.mergeMembers_nil_left`, `Json.merge_self`: merges that change nothing.
-/

namespace Blueprint.Json

/-- Whether a value is an object. -/
def isObject : Json → Bool
  | obj _ => true
  | _ => false

/-- If the value is an object, its keys differ. -/
def KeysDiffer : Json → Prop
  | obj ms => (ms.map Prod.fst).Nodup
  | _ => True

theorem keysDiffer_of_plain {v : Json} (h : v.Plain) : v.KeysDiffer := by
  cases v with
  | obj ms => exact h
  | _ => trivial

/-- A value hides what is under it at a path: on the way there, or at its end, it has something
other than an object. -/
def Shadows (v : Json) (p : List String) : Prop :=
  ∃ q, q <+: p ∧ ∃ w, v.atPath? q = some w ∧ w.isObject = false

/-- A value has no say at a path: it has nothing there and does not hide what is under it. -/
def LeavesOpen (v : Json) (p : List String) : Prop := v.atPath? p = none ∧ ¬ v.Shadows p

variable {k : String} {p : List String} {v w base top : Json} {ms under : List (String × Json)}

/-! ## Paths -/

theorem atPath?_obj_cons (ms : List (String × Json)) (k : String) (p : List String) :
    (obj ms).atPath? (k :: p) = (memberOf? k ms).bind fun v => v.atPath? p := by
  rw [atPath?, member?]
  cases memberOf? k ms <;> rfl

theorem atPath?_cons_of_not_isObject (h : v.isObject = false) (k : String) (p : List String) :
    v.atPath? (k :: p) = none := by
  cases v with
  | obj ms => cases h
  | _ => rfl

theorem shadows_of_not_isObject (h : v.isObject = false) (p : List String) : v.Shadows p :=
  ⟨[], List.nil_prefix, v, rfl, h⟩

theorem not_shadows_obj_nil (ms : List (String × Json)) : ¬ (obj ms).Shadows [] := by
  rintro ⟨q, hq, w, hw, hobject⟩
  rw [List.prefix_nil.1 hq] at hw
  cases hw
  cases hobject

/-- An object hides what its members hide. -/
theorem shadows_obj_cons_iff :
    (obj ms).Shadows (k :: p) ↔ ∃ v, memberOf? k ms = some v ∧ v.Shadows p := by
  constructor
  · rintro ⟨q, hq, w, hw, hobject⟩
    cases q with
    | nil =>
      cases hw
      cases hobject
    -- what hides lies further down, in the member
    | cons j q =>
      obtain ⟨rfl, hrest⟩ := List.cons_prefix_cons.1 hq
      rw [atPath?_obj_cons] at hw
      obtain ⟨v, hv, hw⟩ := Option.bind_eq_some_iff.1 hw
      exact ⟨v, hv, q, hrest, w, hw, hobject⟩
  · rintro ⟨v, hv, q, hq, w, hw, hobject⟩
    refine ⟨k :: q, List.cons_prefix_cons.2 ⟨rfl, hq⟩, w, ?_, hobject⟩
    rw [atPath?_obj_cons, hv, Option.bind_some, hw]

/-- An object leaves open what it does not mention and what its members leave open. -/
theorem leavesOpen_obj_cons_iff :
    (obj ms).LeavesOpen (k :: p) ↔ ∀ v, memberOf? k ms = some v → v.LeavesOpen p := by
  rw [LeavesOpen, atPath?_obj_cons, Option.bind_eq_none_iff, shadows_obj_cons_iff, not_exists]
  constructor
  · rintro ⟨hnone, hshadows⟩ v hv
    exact ⟨hnone v hv, fun h => hshadows v ⟨hv, h⟩⟩
  · intro h
    exact ⟨fun v hv => (h v hv).1, fun v ⟨hv, hshadows⟩ => (h v hv).2 hshadows⟩

theorem leavesOpen_obj_singleton_iff : (obj ms).LeavesOpen [k] ↔ memberOf? k ms = none := by
  rw [leavesOpen_obj_cons_iff, Option.eq_none_iff_forall_ne_some]
  exact forall_congr' fun v => imp_congr_right fun _ =>
    iff_of_false (fun h => Option.some_ne_none v h.1) id

/-- Only an object leaves anything open. -/
theorem exists_obj_of_leavesOpen (h : v.LeavesOpen p) : ∃ ms, v = obj ms := by
  cases v with
  | obj ms => exact ⟨ms, rfl⟩
  | _ => exact absurd (shadows_of_not_isObject rfl p) h.2

/-! ## Members of a merge -/

theorem merge_of_not_isObject (base : Json) (h : v.isObject = false) : base.merge v = v := by
  cases v with
  | obj ms => cases h
  | _ => rfl

theorem merge_obj_of_not_isObject (h : base.isObject = false) (ms : List (String × Json)) :
    base.merge (obj ms) = obj ms := by
  cases base with
  | obj under => cases h
  | _ => rfl

theorem merge_obj_obj (under ms : List (String × Json)) :
    (obj under).merge (obj ms) = obj (mergeMembers under ms) := rfl

/-- A value over what is under it, if there is anything. -/
def mergeOver (below : Option Json) (v : Json) : Json := (below.map fun w => w.merge v).getD v

theorem mergeMembers_cons (under rest : List (String × Json)) (k : String) (v : Json) :
    mergeMembers under ((k, v) :: rest) =
      mergeMembers (setMember k (mergeOver (memberOf? k under) v) under) rest := by
  rw [mergeMembers]
  cases memberOf? k under <;> rfl

/-- A member that is not mentioned shows through. -/
theorem memberOf?_mergeMembers_of_none (h : memberOf? k ms = none) (under : List (String × Json)) :
    memberOf? k (mergeMembers under ms) = memberOf? k under := by
  induction ms generalizing under with
  | nil => rfl
  | cons m ms ih =>
    obtain ⟨j, w⟩ := m
    rw [memberOf?_eq_none_iff, List.map_cons, List.mem_cons, not_or] at h
    rw [mergeMembers_cons, ih (memberOf?_eq_none_iff.2 h.2), memberOf?_setMember_of_ne _ _ h.1]

/-- A member that is mentioned is put over what was there. -/
theorem memberOf?_mergeMembers_of_some (hms : (ms.map Prod.fst).Nodup)
    (h : memberOf? k ms = some v) (under : List (String × Json)) :
    memberOf? k (mergeMembers under ms) = some (mergeOver (memberOf? k under) v) := by
  induction ms generalizing under with
  | nil => cases h
  | cons m ms ih =>
    obtain ⟨j, w⟩ := m
    rw [List.map_cons, List.nodup_cons] at hms
    rw [mergeMembers_cons]
    by_cases hk : j = k
    · subst hk
      rw [memberOf?, if_pos rfl] at h
      cases h
      -- the key does not come again
      rw [memberOf?_mergeMembers_of_none (memberOf?_eq_none_iff.2 hms.1),
        memberOf?_setMember_self]
    · rw [memberOf?, if_neg hk] at h
      rw [ih hms.2 h, memberOf?_setMember_of_ne _ _ (Ne.symm hk)]

/-! ## Paths of a merge -/

theorem everywhere_of_memberOf? {P : Json → Prop} (h : (obj ms).Everywhere P)
    (hv : memberOf? k ms = some v) : v.Everywhere P :=
  (everywhere_obj_iff.1 h).2 _ (mem_of_memberOf? hv)

/-- What the upper value has at a path is put over what the lower one has there. -/
theorem atPath?_merge_of_some (htop : top.Everywhere KeysDiffer) (h : top.atPath? p = some v)
    (base : Json) : (base.merge top).atPath? p = some (mergeOver (base.atPath? p) v) := by
  induction p generalizing base top with
  | nil =>
    cases h
    rfl
  | cons k p ih =>
    cases top with
    | obj ms =>
      rw [atPath?_obj_cons] at h
      obtain ⟨w, hw, h⟩ := Option.bind_eq_some_iff.1 h
      cases base with
      | obj under =>
        rw [merge_obj_obj, atPath?_obj_cons, memberOf?_mergeMembers_of_some htop.self hw,
          Option.bind_some, atPath?_obj_cons]
        -- a member that is new is taken as it is, and one that is there is merged in turn
        cases memberOf? k under with
        | none => exact h
        | some old => exact ih (everywhere_of_memberOf? htop hw) h old
      | _ =>
        rw [merge_obj_of_not_isObject rfl, atPath?_obj_cons, hw, Option.bind_some, h,
          atPath?_cons_of_not_isObject rfl]
        rfl
    | _ => cases h

/-- Where the upper value hides what is under it, only the upper value counts. -/
theorem atPath?_merge_of_shadows (htop : top.Everywhere KeysDiffer) (h : top.Shadows p)
    (base : Json) : (base.merge top).atPath? p = top.atPath? p := by
  induction p generalizing base top with
  | nil =>
    cases top with
    | obj ms => exact absurd h (not_shadows_obj_nil ms)
    | _ => rfl
  | cons k p ih =>
    cases top with
    | obj ms =>
      obtain ⟨w, hw, hshadows⟩ := shadows_obj_cons_iff.1 h
      cases base with
      | obj under =>
        rw [merge_obj_obj, atPath?_obj_cons, memberOf?_mergeMembers_of_some htop.self hw,
          Option.bind_some, atPath?_obj_cons, hw, Option.bind_some]
        cases memberOf? k under with
        | none => rfl
        | some old => exact ih (everywhere_of_memberOf? htop hw) hshadows old
      | _ => rfl
    | _ => rfl

/-- Where the upper value has no say, only the lower one counts. -/
theorem atPath?_merge_of_leavesOpen (htop : top.Everywhere KeysDiffer) (h : top.LeavesOpen p)
    (base : Json) : (base.merge top).atPath? p = base.atPath? p := by
  induction p generalizing base top with
  | nil => cases h.1
  | cons k p ih =>
    obtain ⟨ms, rfl⟩ := exists_obj_of_leavesOpen h
    cases base with
    | obj under =>
      rw [merge_obj_obj, atPath?_obj_cons, atPath?_obj_cons]
      cases hw : memberOf? k ms with
      | none => rw [memberOf?_mergeMembers_of_none hw]
      | some w =>
        have hopen : w.LeavesOpen p := leavesOpen_obj_cons_iff.1 h w hw
        rw [memberOf?_mergeMembers_of_some htop.self hw, Option.bind_some]
        cases memberOf? k under with
        | none => exact hopen.1
        | some old => exact ih (everywhere_of_memberOf? htop hw) hopen old
    | _ => rw [merge_obj_of_not_isObject rfl, h.1, atPath?_cons_of_not_isObject rfl]

/-! ## The rule -/

/-- What stands at a path when one value has been put over another. -/
structure OverridesAt (base top merged : Json) (p : List String) : Prop where
  /-- Where the upper value has something other than an object, there or on the way, it counts. -/
  shadowed : top.Shadows p → merged.atPath? p = top.atPath? p
  /-- Where it has nothing, and nothing but objects on the way, the lower value counts. -/
  uncovered : top.LeavesOpen p → merged.atPath? p = base.atPath? p
  /-- Two objects are merged. -/
  both : ∀ b o, base.atPath? p = some (obj b) → top.atPath? p = some (obj o) →
    merged.atPath? p = some ((obj b).merge (obj o))
  /-- An object over anything else counts alone. -/
  upper : ∀ o, (∀ b, base.atPath? p ≠ some (obj b)) → top.atPath? p = some (obj o) →
    merged.atPath? p = some (obj o)

theorem mergeOver_obj_of_ne {below : Option Json} (h : ∀ b, below ≠ some (obj b))
    (ms : List (String × Json)) : mergeOver below (obj ms) = obj ms := by
  cases below with
  | none => rfl
  | some w =>
    cases w with
    | obj b => exact absurd rfl (h b)
    | _ => rfl

/-- **A merge follows the rule at every path.** -/
theorem overridesAt_merge (htop : top.Everywhere KeysDiffer) (base : Json) (p : List String) :
    OverridesAt base top (base.merge top) p where
  shadowed h := atPath?_merge_of_shadows htop h base
  uncovered h := atPath?_merge_of_leavesOpen htop h base
  both b o hb ho := by
    rw [atPath?_merge_of_some htop ho, hb]
    rfl
  upper o hb ho := by rw [atPath?_merge_of_some htop ho, mergeOver_obj_of_ne hb]

theorem mergeOver_eq_leaf_iff (below : Option Json) (hv : v.isObject = false) :
    mergeOver below w = v ↔ w = v := by
  cases hw : w.isObject with
  | false =>
    have hsame : mergeOver below w = w := by
      cases below with
      | none => rfl
      | some b => exact merge_of_not_isObject b hw
    rw [hsame]
  | true =>
    -- an object over anything is an object
    have hobject : (mergeOver below w).isObject = true := by
      cases w with
      | obj ms =>
        cases below with
        | none => rfl
        | some b =>
          cases b with
          | _ => rfl
      | _ => cases hw
    refine iff_of_false (fun h => ?_) (fun h => ?_)
    · rw [h, hv] at hobject
      cases hobject
    · rw [h, hv] at hw
      cases hw

/-- **A value that is no object comes from the upper value, or from the lower one where the upper
one has no say.** -/
theorem atPath?_merge_eq_leaf_iff (htop : top.Everywhere KeysDiffer) (hv : v.isObject = false) :
    (base.merge top).atPath? p = some v ↔
      top.atPath? p = some v ∨ top.LeavesOpen p ∧ base.atPath? p = some v := by
  by_cases hopen : top.LeavesOpen p
  · rw [atPath?_merge_of_leavesOpen htop hopen, hopen.1]
    simp [hopen]
  · simp only [hopen, false_and, or_false]
    cases hw : top.atPath? p with
    | some w =>
      rw [atPath?_merge_of_some htop hw, Option.some.injEq, Option.some.injEq,
        mergeOver_eq_leaf_iff _ hv]
    | none =>
      -- nothing is there and yet something to say: what is under it must be hidden
      have hshadows : top.Shadows p := by
        by_contra hnot
        exact hopen ⟨hw, hnot⟩
      rw [atPath?_merge_of_shadows htop hshadows, hw]

/-! ## Merges that change nothing -/

theorem mergeMembers_of_disjoint (hms : (ms.map Prod.fst).Nodup)
    (h : ∀ m ∈ ms, m.1 ∉ under.map Prod.fst) : mergeMembers under ms = under ++ ms := by
  induction ms generalizing under with
  | nil => exact (List.append_nil under).symm
  | cons m ms ih =>
    obtain ⟨k, v⟩ := m
    rw [List.map_cons, List.nodup_cons] at hms
    rw [List.forall_mem_cons] at h
    -- a key that was not there comes last
    have hnew : mergeOver (memberOf? k under) v = v := by
      rw [memberOf?_eq_none_iff.2 h.1]
      rfl
    rw [mergeMembers_cons, hnew, setMember_of_not_mem v h.1, ih hms.2, List.append_assoc,
      List.singleton_append]
    intro m hm
    rw [List.map_append, List.mem_append, not_or]
    refine ⟨h.2 m hm, fun hmem => hms.1 ?_⟩
    rw [← List.mem_singleton.1 hmem]
    exact List.mem_map_of_mem hm

/-- An object over nothing stays as it is. -/
theorem mergeMembers_nil_left (hms : (ms.map Prod.fst).Nodup) : mergeMembers [] ms = ms :=
  mergeMembers_of_disjoint hms fun _ _ => List.not_mem_nil

theorem setMember_of_memberOf? (h : memberOf? k ms = some v) : setMember k v ms = ms := by
  induction ms with
  | nil => cases h
  | cons m ms ih =>
    obtain ⟨j, w⟩ := m
    rw [memberOf?] at h
    rw [setMember]
    by_cases hk : j = k
    · rw [if_pos hk] at h ⊢
      rw [Option.some.inj h]
    · rw [if_neg hk] at h ⊢
      rw [ih h]

mutual

/-- A value over itself stays as it is. -/
theorem merge_self : (v : Json) → v.Everywhere KeysDiffer → v.merge v = v
  | obj ms, hv => by
    obtain ⟨hkeys, hmembers⟩ := everywhere_obj_iff.1 hv
    rw [merge_obj_obj, mergeMembers_self ms ms (fun m hm => (memberOf?_eq_some_iff hkeys).2 hm)
      hmembers]
  | null, _ => merge_of_not_isObject _ rfl
  | bool _, _ => merge_of_not_isObject _ rfl
  | int _, _ => merge_of_not_isObject _ rfl
  | float _, _ => merge_of_not_isObject _ rfl
  | str _, _ => merge_of_not_isObject _ rfl
  | arr _, _ => merge_of_not_isObject _ rfl

/-- Members that are there already change nothing. -/
theorem mergeMembers_self (under : List (String × Json)) : (ms : List (String × Json)) →
    (∀ m ∈ ms, memberOf? m.1 under = some m.2) → (∀ m ∈ ms, m.2.Everywhere KeysDiffer) →
      mergeMembers under ms = under
  | [], _, _ => rfl
  | (k, v) :: rest, hthere, hkeys => by
    rw [List.forall_mem_cons] at hthere hkeys
    have hsame : mergeOver (memberOf? k under) v = v := by
      rw [hthere.1]
      exact merge_self v hkeys.1
    rw [mergeMembers_cons, hsame, setMember_of_memberOf? hthere.1,
      mergeMembers_self under rest hthere.2 hkeys.2]

end

end Blueprint.Json
