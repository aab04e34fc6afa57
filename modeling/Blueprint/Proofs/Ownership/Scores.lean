import Mathlib.Data.List.Induction
import Blueprint.Ownership.ScoreBoard

/-!
# Points and leaders

Points are given one after the other, and what decides in the end are sums: the component with the
greatest sum is the best, and the order in which components were first given points settles ties.

- `Scores.tally`, `Scores.total`: the scores after points have been given, and the sums.
- `Scores.total_perm`, `Scores.total_flatMap`, `Scores.total_pos_iff`: sums do not depend on the
  order of the points, are sums of sums, and show who was given points.
- `Scores.keys_tally`, `Scores.findD_tally`: scores are sums, listed in the order in which
  components were first given points.
- `Scores.best_eq_find?`: without an order of components, the best is the first one that no other
  one exceeds.
- `Scores.best_tally`: the same, said of the points that were given.
- `mostFrequent?`, `Scores.best_tally_const`: when all points are alike, it is enough to count.
- `ScoreBoard.scores_merge`, `ScoreBoard.best_merge`: points on a board, seen from one target.
-/

namespace Blueprint

/-! ## First occurrences -/

section FirstOccurrence

variable {α : Type} [DecidableEq α]

/-- Of a list one longer, the last element is kept if it is new. -/
theorem eraseDups_concat (xs : List α) (x : α) :
    (xs ++ [x]).eraseDups = if x ∈ xs then xs.eraseDups else xs.eraseDups ++ [x] := by
  rw [← Table.foldl_append_new_nil, List.foldl_append, Table.foldl_append_new_nil, List.foldl_cons,
    List.foldl_nil]
  simp only [List.mem_eraseDups]

/-- The first element that passes a test is the same with and without repetitions. -/
theorem find?_eraseDups (p : α → Bool) (xs : List α) : xs.eraseDups.find? p = xs.find? p := by
  induction xs using List.reverseRecOn with
  | nil => rfl
  | append_singleton xs x ih =>
    rw [eraseDups_concat, List.find?_append]
    by_cases hx : x ∈ xs
    · rw [if_pos hx, ih]
      cases hfind : xs.find? p with
      | some y => rfl
      | none =>
        -- the repeated element has failed the test before
        have hfails : p x = false := by simpa using List.find?_eq_none.1 hfind x hx
        simp [hfails]
    · rw [if_neg hx, List.find?_append, ih]

theorem all_eraseDups (p : α → Bool) (xs : List α) : xs.eraseDups.all p = xs.all p := by
  rw [Bool.eq_iff_iff, List.all_eq_true, List.all_eq_true]
  simp only [List.mem_eraseDups]

end FirstOccurrence

/-- The name that occurs most often; of several, the one that comes first. -/
def mostFrequent? (names : List String) : Option String :=
  names.find? fun c => names.all fun d => names.count d ≤ names.count c

/-- What the elements of a list weigh in all. -/
def weigh {α : Type} (weight : α → Nat) (xs : List α) : Nat :=
  xs.foldr (fun x n => weight x + n) 0

namespace Scores

/-! ## Sums -/

/-- The scores after points have been given to components, one after the other. -/
def tally (points : List (String × Int)) : Scores := points.foldl (fun s p => s.add p.1 p.2) ∅

/-- What a component is given in all. -/
def total (points : List (String × Int)) (c : String) : Int :=
  (points.filter fun p => p.1 = c).foldl (fun n p => n + p.2) 0

theorem total_concat (points : List (String × Int)) (p : String × Int) (c : String) :
    total (points ++ [p]) c = total points c + if c = p.1 then p.2 else 0 := by
  by_cases h : c = p.1
  · simp [total, h]
  · simp [total, h, Ne.symm h]

theorem total_append (ps qs : List (String × Int)) (c : String) :
    total (ps ++ qs) c = total ps c + total qs c := by
  induction qs using List.reverseRecOn with
  | nil => simp [total]
  | append_singleton qs q ih =>
    rw [← List.append_assoc, total_concat, ih, total_concat, Int.add_assoc]

theorem total_cons (p : String × Int) (ps : List (String × Int)) (c : String) :
    total (p :: ps) c = (if c = p.1 then p.2 else 0) + total ps c := by
  rw [← List.singleton_append, total_append, ← List.nil_append [p], total_concat]
  simp [total]

/-- Sums do not depend on the order in which points are given. -/
theorem total_perm {ps qs : List (String × Int)} (h : ps.Perm qs) (c : String) :
    total ps c = total qs c := by
  induction h with
  | nil => rfl
  | cons p _ ih => rw [total_cons, total_cons, ih]
  | swap p q ps => simp only [total_cons, Int.add_left_comm]
  | trans _ _ ih ih' => exact ih.trans ih'

/-- Where all points are positive, a sum is positive if there are any points in it. -/
theorem total_pos_iff {points : List (String × Int)} (h : ∀ p ∈ points, 0 < p.2) (c : String) :
    0 < total points c ↔ c ∈ points.map Prod.fst := by
  -- stronger, for the sum of the rest must not be negative either
  have hboth : 0 ≤ total points c ∧ (0 < total points c ↔ c ∈ points.map Prod.fst) := by
    induction points with
    | nil => simp [total]
    | cons p points ih =>
      rw [List.forall_mem_cons] at h
      obtain ⟨hnonneg, hiff⟩ := ih h.2
      have hp := h.1
      rw [total_cons, List.map_cons, List.mem_cons, ← hiff]
      by_cases hc : c = p.1
      · simp only [hc, if_true, true_or, iff_true]
        rw [hc] at hnonneg
        omega
      · simp only [hc, if_false, false_or, Int.zero_add, iff_self, and_true]
        exact hnonneg
  exact hboth.2

/-- The sum of the points that several occasions give is what the occasions weigh in all. -/
theorem total_flatMap {α : Type} {points : α → List (String × Int)} {weight : α → Nat} {c : String}
    {xs : List α} (h : ∀ x ∈ xs, total (points x) c = weight x) :
    total (xs.flatMap points) c = weigh weight xs := by
  induction xs with
  | nil => rfl
  | cons x xs ih =>
    rw [List.forall_mem_cons] at h
    rw [List.flatMap_cons, total_append, h.1, ih h.2]
    exact (Int.natCast_add _ _).symm

theorem tally_concat (points : List (String × Int)) (p : String × Int) :
    tally (points ++ [p]) = (tally points).add p.1 p.2 := by
  rw [tally, List.foldl_append]
  rfl

theorem findD_add (s : Scores) (c d : String) (points : Int) :
    (s.add c points).findD d 0 = s.findD d 0 + if d = c then points else 0 := by
  by_cases h : d = c
  · subst h
    simp [add, Table.findD]
  · simp [add, Table.findD, Table.find?_upsert, h]

/-- Components are listed in the order in which they were first given points. -/
theorem keys_tally (points : List (String × Int)) :
    (tally points).keys = (points.map Prod.fst).eraseDups := by
  induction points using List.reverseRecOn with
  | nil => rfl
  | append_singleton points p ih =>
    rw [tally_concat, add, Table.keys_upsert, ih, List.map_append, List.map_singleton,
      eraseDups_concat]
    simp only [List.mem_eraseDups]

/-- **Scores are sums.** -/
theorem findD_tally (points : List (String × Int)) (c : String) :
    (tally points).findD c 0 = total points c := by
  induction points using List.reverseRecOn with
  | nil => rfl
  | append_singleton points p ih => rw [tally_concat, findD_add, ih, total_concat]

/-- Where each component is given points once, a sum is what the component was given. -/
theorem total_map_of_nodup {names : List String} (h : names.Nodup) (points : String → Int)
    (c : String) :
    total (names.map fun d => (d, points d)) c = if c ∈ names then points c else 0 := by
  induction names with
  | nil => rfl
  | cons d names ih =>
    rw [List.nodup_cons] at h
    rw [List.map_cons, total_cons, ih h.2]
    by_cases hc : c = d
    · subst hc
      simp [h.1]
    · simp [hc]

/-! ## The best -/

theorem top?_eq_max? (s : Scores) : s.top? = s.values.max? := by
  unfold top?
  cases s.values with
  | nil => rfl
  | cons v rest => rw [List.max?_cons']

theorem entries_eq_map (s : Scores) : s.entries = s.keys.map fun c => (c, s.findD c 0) := by
  rw [Table.keys, List.map_map]
  refine (List.map_id _).symm.trans (List.map_congr_left fun e he => ?_)
  have hfind : s.find? e.1 = some e.2 := Table.find?_eq_some_iff.2 he
  simp [Table.findD, hfind]

/-- To give what is listed in scores is to give the scores. -/
theorem total_entries (s : Scores) (c : String) : total s.entries c = s.findD c 0 := by
  rw [entries_eq_map, total_map_of_nodup s.keys_nodup]
  split
  · rfl
  · next hc => rw [Table.findD, Table.find?_eq_none_iff.2 hc, Option.getD_none]

/-- Where all points are positive, so are the scores. -/
theorem pos_of_mem_entries_tally {points : List (String × Int)} (h : ∀ p ∈ points, 0 < p.2) :
    ∀ p ∈ (tally points).entries, 0 < p.2 := by
  intro p hp
  have hkey : p.1 ∈ (tally points).keys := List.mem_map_of_mem hp
  rw [keys_tally, List.mem_eraseDups, ← total_pos_iff h, ← findD_tally, Table.findD,
    Table.find?_eq_some_iff.2 hp] at hkey
  exact hkey

theorem values_eq_map (s : Scores) : s.values = s.keys.map fun c => s.findD c 0 := by
  rw [Table.values, entries_eq_map, List.map_map]
  rfl

/-- A score is the greatest when none exceeds it. -/
theorem top?_eq_some_iff {s : Scores} {c : String} (hc : c ∈ s.keys) :
    s.top? = some (s.findD c 0) ↔ ∀ d ∈ s.keys, s.findD d 0 ≤ s.findD c 0 := by
  rw [top?_eq_max?, values_eq_map, List.max?_eq_some_iff]
  constructor
  · rintro ⟨-, hmax⟩ d hd
    exact hmax _ (List.mem_map_of_mem hd)
  · intro hmax
    refine ⟨List.mem_map_of_mem hc, ?_⟩
    intro v hv
    obtain ⟨d, hd, rfl⟩ := List.mem_map.1 hv
    exact hmax d hd

/-- The leaders are the components that no other one exceeds. -/
theorem leaders_eq_filter (s : Scores) :
    s.leaders = s.keys.filter fun c => s.keys.all fun d => s.findD d 0 ≤ s.findD c 0 := by
  unfold leaders
  cases htop : s.top? with
  | none =>
    rw [top?_eq_max?, values_eq_map, List.max?_eq_none_iff, List.map_eq_nil_iff] at htop
    rw [htop]
    rfl
  | some top =>
    show (s.entries.filter fun e => e.2 = top).map Prod.fst = _
    rw [entries_eq_map, List.filter_map, List.map_map]
    refine (List.map_id _).trans (List.filter_congr fun c hc => ?_)
    -- to have the greatest score is to be exceeded by none
    have hiff := top?_eq_some_iff hc
    rw [htop, Option.some.injEq] at hiff
    rw [Bool.eq_iff_iff, List.all_eq_true]
    simpa [eq_comm] using hiff

/-- **Without an order of components the best is the first one that no other one exceeds.** -/
theorem best_eq_find? (s : Scores) :
    s.best none = s.keys.find? fun c => s.keys.all fun d => s.findD d 0 ≤ s.findD c 0 := by
  rw [best, leaders_eq_filter, List.head?_filter]

/-- The best is the first component to be given points whose sum no other sum exceeds. -/
theorem best_tally (points : List (String × Int)) :
    (tally points).best none = (points.map Prod.fst).find? fun c =>
      (points.map Prod.fst).all fun d => total points d ≤ total points c := by
  rw [best_eq_find?, keys_tally, find?_eraseDups]
  simp only [all_eraseDups, findD_tally]

/-! ## Counting -/

theorem total_map_const (names : List String) (weight : Int) (c : String) :
    total (names.map fun d => (d, weight)) c = names.count c * weight := by
  induction names using List.reverseRecOn with
  | nil => simp [total]
  | append_singleton names d ih =>
    rw [List.map_append, List.map_singleton, total_concat, ih, List.count_append]
    by_cases h : c = d
    · subst h
      simp [Int.add_mul]
    · simp [h, Ne.symm h]

/-- The same weight for each element that speaks for a component. -/
theorem total_filterMap_const {α : Type} (speaks : α → Option String) {points : Int} {weight : Nat}
    (h : points = weight) (xs : List α) (c : String) :
    total (xs.filterMap fun x => (speaks x).map fun d => (d, points)) c =
      (weight * xs.countP fun x => speaks x = some c : Nat) := by
  have hnames : (xs.filterMap fun x => (speaks x).map fun d => (d, points)) =
      (xs.filterMap speaks).map fun d => (d, points) := List.map_filterMap.symm
  rw [hnames, total_map_const, List.count_filterMap, h, Nat.mul_comm, Int.natCast_mul]
  simp only [beq_eq_decide]

/-- **When all points are alike, the best is who is given points most often.** -/
theorem best_tally_const (names : List String) {weight : Int} (hweight : 0 < weight) :
    (tally (names.map fun c => (c, weight))).best none = mostFrequent? names := by
  -- a sum is a multiple of the weight, which is positive
  have hle : ∀ c d, total (names.map fun c => (c, weight)) d ≤
      total (names.map fun c => (c, weight)) c ↔ names.count d ≤ names.count c := by
    intro c d
    rw [total_map_const, total_map_const, Int.mul_le_mul_right hweight, Int.ofNat_le]
  have hnames : (names.map fun c => (c, weight)).map Prod.fst = names := by
    rw [List.map_map]
    exact List.map_id names
  rw [best_tally, hnames, mostFrequent?]
  simp only [hle]

end Scores

namespace ScoreBoard

/-- Points count for the target to which they are given. -/
theorem scores_merge (b : ScoreBoard) (target : String) (points : List (String × Int))
    (t : String) :
    (b.merge target points).scores t =
      if t = target then points.foldl (fun s p => s.add p.1 p.2) (b.scores t) else b.scores t := by
  induction points using List.reverseRecOn with
  | nil => simp [merge]
  | append_singleton points p ih =>
    rw [merge_append]
    show ((b.merge target points).add target p.1 p.2).scores t = _
    rw [scores_add, ih, List.foldl_append]
    split
    · rfl
    · rfl

theorem best_merge (target : String) (points : List (String × Int))
    (order : Option (List String)) :
    (({} : ScoreBoard).merge target points).best target order =
      (Scores.tally points).best order := by
  rw [best, scores_merge, if_pos rfl]
  rfl

end ScoreBoard

/-- What a component is given for several targets, seen from one of them. -/
theorem ScoreBoard.scores_foldl_add (targets : List String) (c : String) (points : Int)
    (b : ScoreBoard) (t : String) :
    (targets.foldl (fun b target => b.add target c points) b).scores t =
      (targets.filterMap fun target => if target = t then some c else none).foldl
        (fun s c => s.add c points) (b.scores t) := by
  induction targets generalizing b with
  | nil => rfl
  | cons target rest ih =>
    rw [List.foldl_cons, ih, scores_add, List.filterMap_cons]
    by_cases h : target = t
    · simp [h]
    · simp [h, Ne.symm h]

end Blueprint
