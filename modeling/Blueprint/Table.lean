/-!
# Insertion-ordered tables

A `Table κ α` maps distinct keys to values and remembers the order in which the keys first
came in. Everything the analysis reports (owners, scores, graph records) is listed in that
order, so the order is part of the value and not an artefact of a hash.

- `Table.upsert t k f`: the one way to change a table. The value at `k` becomes `f` of what
  was there; a new key goes to the end, a known key keeps its place.
- `Table.insert`, `Table.insertNew`: last value wins, first value wins.
- `Table.keys_upsert`, `Table.find?_upsert`: what `upsert` does to the two views of a table,
  its list of keys and its look-up function.
- `Table.find?_extend`, `Table.entries_extend`: a table to which another one is added.
-/

namespace Blueprint

universe u v w

/-- A finite map whose entries stand in the order their keys first came in. -/
structure Table (κ : Type u) (α : Type v) where
  entries : List (κ × α) := []
  nodup : (entries.map Prod.fst).Nodup := by simp

namespace Table

variable {κ : Type u} {α : Type v} {β : Type w}

/-- The table without entries. -/
def empty : Table κ α := {}

instance : EmptyCollection (Table κ α) := ⟨empty⟩

instance : Inhabited (Table κ α) := ⟨empty⟩

/-- Two tables with the same entries are equal: the proof field carries no data. -/
@[ext] theorem ext {s t : Table κ α} (h : s.entries = t.entries) : s = t := by
  cases s; cases t; simp_all

/-- The keys in order. -/
def keys (t : Table κ α) : List κ := t.entries.map Prod.fst

/-- The values in the order of their keys. -/
def values (t : Table κ α) : List α := t.entries.map Prod.snd

/-- The number of entries. -/
def size (t : Table κ α) : Nat := t.entries.length

@[simp] theorem keys_empty : (∅ : Table κ α).keys = [] := rfl

theorem keys_nodup (t : Table κ α) : t.keys.Nodup := t.nodup

/-- The table with every value replaced; keys and order stay. -/
def mapValues (f : κ → α → β) (t : Table κ α) : Table κ β where
  entries := t.entries.map fun e => (e.1, f e.1 e.2)
  nodup := by simpa [Function.comp_def] using t.nodup

theorem entries_mapValues (f : κ → α → β) (t : Table κ α) :
    (t.mapValues f).entries = t.entries.map fun e => (e.1, f e.1 e.2) := rfl

@[simp] theorem keys_mapValues (f : κ → α → β) (t : Table κ α) :
    (t.mapValues f).keys = t.keys := by
  simp [keys, mapValues, Function.comp_def]

/-- The entries that pass a test, in order. -/
def filter (p : κ → α → Bool) (t : Table κ α) : Table κ α where
  entries := t.entries.filter fun e => p e.1 e.2
  nodup := t.nodup.sublist (List.filter_sublist.map _)

variable [DecidableEq κ]

/-! ## Looking up -/

/-- The value at a key in a list of entries. -/
def lookup (k : κ) : List (κ × α) → Option α
  | [] => none
  | (k', v) :: rest => if k' = k then some v else lookup k rest

/-- The value at a key, if there is one. -/
def find? (t : Table κ α) (k : κ) : Option α := lookup k t.entries

/-- The value at a key, or a default. -/
def findD (t : Table κ α) (k : κ) (default : α) : α := (t.find? k).getD default

/-- Whether a key has a value. -/
def contains (t : Table κ α) (k : κ) : Bool := (t.find? k).isSome

@[simp] theorem find?_empty (k : κ) : (∅ : Table κ α).find? k = none := rfl

theorem lookup_isSome_iff {k : κ} {es : List (κ × α)} :
    (lookup k es).isSome ↔ k ∈ es.map Prod.fst := by
  induction es with
  | nil => simp [lookup]
  | cons e es ih =>
    obtain ⟨k', v⟩ := e
    by_cases h : k' = k
    · simp [lookup, h]
    · simp [lookup, h, ih, Ne.symm h]

/-- A key has a value exactly when it is listed. -/
theorem contains_iff {t : Table κ α} {k : κ} : t.contains k = true ↔ k ∈ t.keys :=
  lookup_isSome_iff

theorem mem_keys_iff {t : Table κ α} {k : κ} : k ∈ t.keys ↔ ∃ v, t.find? k = some v := by
  rw [← contains_iff, contains, Option.isSome_iff_exists]

theorem find?_eq_none_iff {t : Table κ α} {k : κ} : t.find? k = none ↔ k ∉ t.keys := by
  rw [← contains_iff, contains]
  cases t.find? k <;> simp

theorem lookup_eq_some_mem {k : κ} {v : α} {es : List (κ × α)} (h : lookup k es = some v) :
    (k, v) ∈ es := by
  induction es with
  | nil => simp [lookup] at h
  | cons e es ih =>
    obtain ⟨k', v'⟩ := e
    by_cases hk : k' = k
    · simp [lookup, hk] at h; simp [hk, h]
    · simp [lookup, hk] at h; exact List.mem_cons_of_mem _ (ih h)

theorem lookup_of_mem {k : κ} {v : α} {es : List (κ × α)} (hn : (es.map Prod.fst).Nodup)
    (h : (k, v) ∈ es) : lookup k es = some v := by
  induction es with
  | nil => simp at h
  | cons e es ih =>
    obtain ⟨k', v'⟩ := e
    simp only [List.map_cons, List.nodup_cons] at hn
    rcases List.mem_cons.1 h with h | h
    · cases h; simp [lookup]
    · have hk : k' ≠ k := fun hk => hn.1 (List.mem_map.2 ⟨_, h, hk.symm⟩)
      simp [lookup, hk, ih hn.2 h]

/-- Looking up and listing the entries are two views of one map. -/
theorem find?_eq_some_iff {t : Table κ α} {k : κ} {v : α} :
    t.find? k = some v ↔ (k, v) ∈ t.entries :=
  ⟨lookup_eq_some_mem, lookup_of_mem t.nodup⟩

/-! ## Changing one entry -/

/-- Change the value at a key of a list of entries, or append it. -/
def upsertEntries (k : κ) (f : Option α → α) : List (κ × α) → List (κ × α)
  | [] => [(k, f none)]
  | (k', v) :: rest =>
    if k' = k then (k', f (some v)) :: rest else (k', v) :: upsertEntries k f rest

theorem map_fst_upsertEntries (k : κ) (f : Option α → α) (es : List (κ × α)) :
    (upsertEntries k f es).map Prod.fst =
      if k ∈ es.map Prod.fst then es.map Prod.fst else es.map Prod.fst ++ [k] := by
  induction es with
  | nil => simp [upsertEntries]
  | cons e es ih =>
    obtain ⟨k', v⟩ := e
    by_cases h : k' = k
    · simp [upsertEntries, h]
    · simp only [upsertEntries, h, if_false, List.map_cons, ih, List.mem_cons, Ne.symm h, false_or]
      split <;> simp

theorem lookup_upsertEntries (k j : κ) (f : Option α → α) (es : List (κ × α)) :
    lookup j (upsertEntries k f es) = if j = k then some (f (lookup k es)) else lookup j es := by
  induction es with
  | nil =>
    by_cases h : j = k
    · simp [upsertEntries, lookup, h]
    · simp [upsertEntries, lookup, h, Ne.symm h]
  | cons e es ih =>
    obtain ⟨k', v⟩ := e
    by_cases h : k' = k
    · subst h
      by_cases hj : j = k'
      · simp [upsertEntries, lookup, hj]
      · simp [upsertEntries, lookup, hj, Ne.symm hj]
    · by_cases hj : k' = j
      · subst hj; simp [upsertEntries, lookup, h]
      · simp [upsertEntries, lookup, h, hj, ih]

/-- Change the value at a key. A new key goes to the end, a known one keeps its place. -/
def upsert (t : Table κ α) (k : κ) (f : Option α → α) : Table κ α where
  entries := upsertEntries k f t.entries
  nodup := by
    rw [map_fst_upsertEntries]
    split
    · exact t.nodup
    · next h =>
      rw [List.nodup_append]
      exact ⟨t.nodup, by simp, by intro a ha b hb; simp at hb; rintro rfl; exact h (hb ▸ ha)⟩

/-- Set the value at a key, whatever was there. -/
def insert (t : Table κ α) (k : κ) (v : α) : Table κ α := t.upsert k fun _ => v

/-- Set the value at a key that has none; a known key keeps its value. -/
def insertNew (t : Table κ α) (k : κ) (v : α) : Table κ α := t.upsert k fun old => old.getD v

/-- The table of a list of entries, where the last value of a repeated key counts. -/
def ofList (es : List (κ × α)) : Table κ α := es.foldl (fun t e => t.insert e.1 e.2) ∅

/-- `upsert` appends a new key and changes no key otherwise. -/
theorem keys_upsert (t : Table κ α) (k : κ) (f : Option α → α) :
    (t.upsert k f).keys = if k ∈ t.keys then t.keys else t.keys ++ [k] :=
  map_fst_upsertEntries k f t.entries

theorem find?_upsert (t : Table κ α) (k j : κ) (f : Option α → α) :
    (t.upsert k f).find? j = if j = k then some (f (t.find? k)) else t.find? j :=
  lookup_upsertEntries k j f t.entries

@[simp] theorem find?_upsert_self (t : Table κ α) (k : κ) (f : Option α → α) :
    (t.upsert k f).find? k = some (f (t.find? k)) := by simp [find?_upsert]

theorem find?_upsert_of_ne (t : Table κ α) {k j : κ} (f : Option α → α) (h : j ≠ k) :
    (t.upsert k f).find? j = t.find? j := by simp [find?_upsert, h]

theorem mem_keys_upsert {t : Table κ α} {k j : κ} {f : Option α → α} :
    j ∈ (t.upsert k f).keys ↔ j = k ∨ j ∈ t.keys := by
  rw [keys_upsert]
  split <;> simp <;> grind

/-! ## Adding keys one after the other -/

/-- Elements that are added unless they are there come to stand at the end, each once. -/
theorem foldl_append_new (xs ys : List κ) :
    xs.foldl (fun acc x => if x ∈ acc then acc else acc ++ [x]) ys =
      ys ++ (xs.filter fun x => x ∉ ys).eraseDups := by
  induction xs generalizing ys with
  | nil => simp
  | cons x xs ih =>
    rw [List.foldl_cons, ih]
    by_cases h : x ∈ ys
    · simp [h]
    · simp [h, List.eraseDups_cons, List.filter_filter, Bool.and_comm, Bool.beq_eq_decide_eq]

theorem foldl_append_new_nil (xs : List κ) :
    xs.foldl (fun acc x => if x ∈ acc then acc else acc ++ [x]) [] = xs.eraseDups := by
  rw [foldl_append_new, List.nil_append, List.filter_eq_self.2 fun x _ => by simp]

theorem keys_foldl_insertNew (xs : List κ) (v : α) (t : Table κ α) :
    (xs.foldl (fun acc x => acc.insertNew x v) t).keys =
      xs.foldl (fun acc x => if x ∈ acc then acc else acc ++ [x]) t.keys := by
  induction xs generalizing t with
  | nil => rfl
  | cons x xs ih => rw [List.foldl_cons, List.foldl_cons, ih, insertNew, keys_upsert]

theorem find?_insertNew (t : Table κ α) (k j : κ) (v : α) :
    (t.insertNew k v).find? j = (t.find? j).or (if j = k then some v else none) := by
  rw [insertNew, find?_upsert]
  by_cases h : j = k
  · subst h
    cases t.find? j <;> simp
  · simp [h]

theorem find?_foldl_insertNew_const (xs : List κ) (v : α) (t : Table κ α) (k : κ) :
    (xs.foldl (fun acc x => acc.insertNew x v) t).find? k =
      (t.find? k).or (if k ∈ xs then some v else none) := by
  induction xs generalizing t with
  | nil => simp
  | cons x xs ih =>
    rw [List.foldl_cons, ih, find?_insertNew, Option.or_assoc]
    by_cases h : k = x
    · simp [h]
    · simp [h]

/-! ## Adding the entries of another table -/

/-- Add the entries of `s` whose keys `t` does not have, in order, at the end. -/
def extend (t s : Table κ α) : Table κ α :=
  s.entries.foldl (fun acc e => acc.insertNew e.1 e.2) t

theorem find?_foldl_insertNew (es : List (κ × α)) (t : Table κ α) (k : κ) :
    (es.foldl (fun acc e => acc.insertNew e.1 e.2) t).find? k = (t.find? k).or (lookup k es) := by
  induction es generalizing t with
  | nil => simp [lookup]
  | cons e es ih =>
    rw [List.foldl_cons, ih, find?_insertNew, Option.or_assoc]
    by_cases h : k = e.1
    · simp [lookup, h]
    · simp [lookup, h, Ne.symm h]

/-- What is there stays, and what is not there comes from the other table. -/
theorem find?_extend (t s : Table κ α) (k : κ) :
    (t.extend s).find? k = (t.find? k).or (s.find? k) :=
  find?_foldl_insertNew s.entries t k

theorem upsertEntries_of_not_mem {k : κ} {es : List (κ × α)} (f : Option α → α)
    (h : k ∉ es.map Prod.fst) : upsertEntries k f es = es ++ [(k, f none)] := by
  induction es with
  | nil => rfl
  | cons e es ih =>
    rw [List.map_cons, List.mem_cons, not_or] at h
    rw [upsertEntries, if_neg (Ne.symm h.1), ih h.2, List.cons_append]

theorem entries_foldl_insertNew {es : List (κ × α)} (hes : (es.map Prod.fst).Nodup)
    {t : Table κ α} (h : ∀ e ∈ es, e.1 ∉ t.keys) :
    (es.foldl (fun acc e => acc.insertNew e.1 e.2) t).entries = t.entries ++ es := by
  induction es generalizing t with
  | nil => simp
  | cons e es ih =>
    rw [List.map_cons, List.nodup_cons] at hes
    have hnew : (t.insertNew e.1 e.2).entries = t.entries ++ [e] :=
      upsertEntries_of_not_mem _ (h e List.mem_cons_self)
    have hrest : ∀ e' ∈ es, e'.1 ∉ (t.insertNew e.1 e.2).keys := by
      intro e' he' hmem
      rcases mem_keys_upsert.1 hmem with heq | hmem
      · exact hes.1 (heq ▸ List.mem_map_of_mem he')
      · exact h e' (List.mem_cons_of_mem e he') hmem
    rw [List.foldl_cons, ih hes.2 hrest, hnew, List.append_assoc, List.singleton_append]

/-- A table without keys in common with another is added at its end. -/
theorem entries_extend {t s : Table κ α} (h : ∀ k ∈ s.keys, k ∉ t.keys) :
    (t.extend s).entries = t.entries ++ s.entries :=
  entries_foldl_insertNew s.nodup fun _ he => h _ (List.mem_map_of_mem he)

/-! ## Changing all entries -/

theorem lookup_map (f : κ → α → β) (es : List (κ × α)) (k : κ) :
    lookup k (es.map fun e => (e.1, f e.1 e.2)) = (lookup k es).map (f k) := by
  induction es with
  | nil => rfl
  | cons e es ih =>
    by_cases h : e.1 = k
    · simp [lookup, h]
    · simp [lookup, h, ih]

theorem find?_mapValues (f : κ → α → β) (t : Table κ α) (k : κ) :
    (t.mapValues f).find? k = (t.find? k).map (f k) :=
  lookup_map f t.entries k

theorem find?_filter (p : κ → α → Bool) (t : Table κ α) (k : κ) :
    (t.filter p).find? k = (t.find? k).filter (p k) := by
  refine Option.ext fun v => ?_
  rw [find?_eq_some_iff, Option.filter_eq_some_iff, find?_eq_some_iff]
  exact List.mem_filter

end Table

end Blueprint
