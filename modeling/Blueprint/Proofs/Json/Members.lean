import Blueprint.Json.Basic
import Blueprint.Table

/-!
# Members of an object

Members are looked up and set as the entries of a table are, so what is known of tables holds of
them.

- `Json.memberOf?_eq_some_iff`, `Json.memberOf?_eq_none_iff`: looking up and listing.
- `Json.setMember_of_not_mem`, `Json.nodup_setMember`: setting.
- `Json.membersOf`: the members of the fields that have a value.
-/

namespace Blueprint.Json

variable {k : String} {v : Json} {ms ns : List (String × Json)}

/-! ## Looking up -/

/-- Members are looked up as the entries of a table are. -/
theorem memberOf?_eq_lookup (k : String) (ms : List (String × Json)) :
    memberOf? k ms = Table.lookup k ms := by
  induction ms with
  | nil => rfl
  | cons m ms ih => rw [memberOf?, Table.lookup, ih]

theorem mem_of_memberOf? (h : memberOf? k ms = some v) : (k, v) ∈ ms := by
  rw [memberOf?_eq_lookup] at h
  exact Table.lookup_eq_some_mem h

/-- Members with distinct keys are found under their keys. -/
theorem memberOf?_eq_some_iff (hms : (ms.map Prod.fst).Nodup) :
    memberOf? k ms = some v ↔ (k, v) ∈ ms := by
  refine ⟨mem_of_memberOf?, fun h => ?_⟩
  rw [memberOf?_eq_lookup]
  exact Table.lookup_of_mem hms h

theorem memberOf?_eq_none_iff : memberOf? k ms = none ↔ k ∉ ms.map Prod.fst := by
  rw [memberOf?_eq_lookup, ← Option.not_isSome_iff_eq_none, Table.lookup_isSome_iff]

theorem memberOf?_append (k : String) (ms ns : List (String × Json)) :
    memberOf? k (ms ++ ns) = (memberOf? k ms).or (memberOf? k ns) := by
  induction ms with
  | nil => rfl
  | cons m ms ih => by_cases h : m.1 = k <;> simp [memberOf?, h, ih]

/-! ## Setting -/

/-- A member is set as an entry of a table is. -/
theorem setMember_eq_upsertEntries (k : String) (v : Json) (ms : List (String × Json)) :
    setMember k v ms = Table.upsertEntries k (fun _ => v) ms := by
  induction ms with
  | nil => rfl
  | cons m ms ih => rw [setMember, Table.upsertEntries, ih]

theorem setMember_of_not_mem (v : Json) (h : k ∉ ms.map Prod.fst) :
    setMember k v ms = ms ++ [(k, v)] := by
  rw [setMember_eq_upsertEntries]
  exact Table.upsertEntries_of_not_mem _ h

theorem nodup_setMember (h : (ms.map Prod.fst).Nodup) (k : String) (v : Json) :
    ((setMember k v ms).map Prod.fst).Nodup := by
  rw [setMember_eq_upsertEntries]
  exact (Table.upsert ⟨ms, h⟩ k fun _ => v).nodup

theorem of_mem_setMember {m : String × Json} (h : m ∈ setMember k v ms) : m.2 = v ∨ m ∈ ms := by
  induction ms with
  | nil =>
    rw [List.mem_singleton.1 h]
    exact Or.inl rfl
  | cons w ms ih =>
    rw [setMember] at h
    split at h
    · rcases List.mem_cons.1 h with rfl | h
      · exact Or.inl rfl
      · exact Or.inr (List.mem_cons_of_mem _ h)
    · rcases List.mem_cons.1 h with rfl | h
      · exact Or.inr List.mem_cons_self
      · exact (ih h).imp_right (List.mem_cons_of_mem _)

/-! ## Fields -/

/-- The members that are written for fields: those of the fields that have a value. -/
def membersOf (fields : List (String × Option Json)) : List (String × Json) :=
  fields.filterMap fun f => f.2.map fun v => (f.1, v)

theorem ofFields_eq_obj (fields : List (String × Option Json)) :
    ofFields fields = obj (membersOf fields) := rfl

variable {fields : List (String × Option Json)}

theorem mem_membersOf_iff : (k, v) ∈ membersOf fields ↔ (k, some v) ∈ fields := by
  simp only [membersOf, List.mem_filterMap, Option.map_eq_some_iff, Prod.mk.injEq]
  constructor
  · rintro ⟨f, hf, w, hw, rfl, rfl⟩
    rwa [← hw]
  · intro h
    exact ⟨_, h, v, rfl, rfl, rfl⟩

theorem keys_membersOf_sublist (fields : List (String × Option Json)) :
    ((membersOf fields).map Prod.fst).Sublist (fields.map Prod.fst) := by
  induction fields with
  | nil => exact .slnil
  | cons f fields ih =>
    obtain ⟨j, _ | w⟩ := f
    · exact ih.cons j
    · exact ih.cons_cons j

theorem memberOf?_membersOf_eq_none (h : k ∉ fields.map Prod.fst) :
    memberOf? k (membersOf fields) = none :=
  memberOf?_eq_none_iff.2 fun hk => h ((keys_membersOf_sublist fields).subset hk)

/-- Fields with distinct names are found under their names. -/
theorem memberOf?_membersOf (hnames : (fields.map Prod.fst).Nodup) {o : Option Json}
    (h : (k, o) ∈ fields) : memberOf? k (membersOf fields) = o := by
  cases o with
  | some v =>
    rw [memberOf?_eq_some_iff (hnames.sublist (keys_membersOf_sublist fields))]
    exact mem_membersOf_iff.2 h
  | none =>
    induction fields with
    | nil => cases h
    | cons f fields ih =>
      rw [List.map_cons, List.nodup_cons] at hnames
      rcases List.mem_cons.1 h with rfl | hmem
      · have hrest : memberOf? k (membersOf fields) = none := memberOf?_membersOf_eq_none hnames.1
        exact hrest
      · -- another field before it has another name
        have hk : f.1 ≠ k := fun hk => hnames.1 (hk ▸ List.mem_map_of_mem hmem)
        obtain ⟨j, _ | w⟩ := f
        · exact ih hnames.2 hmem
        · exact (if_neg hk).trans (ih hnames.2 hmem)

end Blueprint.Json
