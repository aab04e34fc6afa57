import Mathlib.Data.Finset.Card
import Mathlib.Order.Bounds.Basic
import Blueprint.Proofs.Ownership.Leaders

/-!
# Boards after any awards

A board is filled by awards: single points for a component, or the points of several at once. What
stands on it in the end depends on the points that each target was given, one after the other. They
are summed up, the order in which components first appear is kept, and the best is the first of the
greatest sums, by rank where an order of components is given.

- `Award`, `ScoreBoard.after`: ways to give points, and the board after some of them.
- `Award.pointsFor`: the points that a target is given.
- `ScoreBoard.scores_after`, `ScoreBoard.mem_keys_after_iff`: the scores and the targets of a board.
- `Precedes`, `firstMin_eq_some_iff`: the least by a rank, ties going to what comes first.
- `HasRank`, `hasRank_rank`: ranks are last positions, and what is not listed comes after all.
- `Scores.Leads`: a sum that no other one exceeds.
- `ScoreBoard.sums_and_stable_best`: the board after any awards.
-/

namespace Blueprint

/-! ## Awards -/

/-- A way to give points on a board. -/
inductive Award where
  | add (target component : String) (points : Int)
  | merge (target : String) (points : List (String × Int))

namespace Award

/-- The target that points are given for. -/
def target : Award → String
  | add target _ _ => target
  | merge target _ => target

/-- The points, in the order in which they are given. -/
def points : Award → List (String × Int)
  | add _ component points => [(component, points)]
  | merge _ points => points

/-- The board with the points given. -/
def give (b : ScoreBoard) : Award → ScoreBoard
  | add target component points => b.add target component points
  | merge target points => b.merge target points

/-- The points that a target is given by several awards. -/
def pointsFor (t : String) (awards : List Award) : List (String × Int) :=
  (awards.filter fun a => a.target = t).flatMap points

/-- Points for one component are given as those for several are. -/
theorem give_eq_merge (b : ScoreBoard) (a : Award) : a.give b = b.merge a.target a.points := by
  cases a <;> rfl

theorem pointsFor_concat (t : String) (awards : List Award) (a : Award) :
    pointsFor t (awards ++ [a]) =
      pointsFor t awards ++ if t = a.target then a.points else [] := by
  by_cases h : t = a.target
  · simp [pointsFor, h]
  · simp [pointsFor, h, Ne.symm h]

theorem pointsFor_eq_nil_iff {t : String} {awards : List Award} :
    pointsFor t awards = [] ↔ ∀ a ∈ awards, a.target = t → a.points = [] := by
  simp [pointsFor, List.flatMap_eq_nil_iff]

end Award

namespace ScoreBoard

/-- The board after some awards. -/
def after (awards : List Award) : ScoreBoard := awards.foldl (fun b a => a.give b) {}

theorem after_concat (awards : List Award) (a : Award) :
    after (awards ++ [a]) = (after awards).merge a.target a.points := by
  rw [after, List.foldl_append, ← Award.give_eq_merge]
  rfl

/-- **The scores of a target are the tally of its points.** -/
theorem scores_after (awards : List Award) (t : String) :
    (after awards).scores t = Scores.tally (Award.pointsFor t awards) := by
  induction awards using List.reverseRecOn with
  | nil => rfl
  | append_singleton awards a ih =>
    rw [after_concat, scores_merge, ih, Award.pointsFor_concat]
    split
    · rw [Scores.tally, Scores.tally, List.foldl_append]
    · rw [List.append_nil]

theorem mem_keys_merge_iff {b : ScoreBoard} {target t : String} {points : List (String × Int)} :
    t ∈ (b.merge target points).targets.keys ↔
      t ∈ b.targets.keys ∨ t = target ∧ points ≠ [] := by
  induction points using List.reverseRecOn with
  | nil => simp [merge]
  | append_singleton points p ih =>
    rw [merge_append]
    -- any points put the target on the board, even those that come to nothing
    have hstep : t ∈ ((b.merge target points).merge target [p]).targets.keys ↔
        t = target ∨ t ∈ (b.merge target points).targets.keys := Table.mem_keys_upsert
    have hpoints : points ++ [p] ≠ [] := List.concat_ne_nil p points
    rw [hstep, ih]
    tauto

/-- **A target is on the board if some award gave points for it.** -/
theorem mem_keys_after_iff {awards : List Award} {t : String} :
    t ∈ (after awards).targets.keys ↔ ∃ a ∈ awards, a.target = t ∧ a.points ≠ [] := by
  induction awards using List.reverseRecOn with
  | nil => simp [after]
  | append_singleton awards a ih =>
    rw [after_concat, mem_keys_merge_iff, ih, eq_comm (a := t)]
    simp only [List.mem_append, List.mem_singleton, or_and_right, exists_or, exists_eq_left]

end ScoreBoard

/-! ## The first of the least -/

/-- One element comes before another, or is the same: by a rank, then by a position. -/
def Precedes {α : Type} (f position : α → Nat) (x y : α) : Prop :=
  f x < f y ∨ f x = f y ∧ position x ≤ position y

section FirstMin

variable {α : Type} {f position : α → Nat} {xs : List α} {x : α}

theorem precedes_of_firstMin (hxs : xs.Pairwise fun a b => position a < position b)
    (h : firstMin f xs = some x) : ∀ y ∈ xs, Precedes f position x y := by
  cases xs with
  | nil => cases h
  | cons a rest =>
    obtain rfl := Option.some.inj h
    -- what is kept precedes all that has been seen, and so all that comes after it
    induction rest generalizing a with
    | nil =>
      intro y hy
      rw [List.mem_singleton.1 hy]
      exact Or.inr ⟨rfl, Nat.le_refl _⟩
    | cons b rest ih =>
      rw [List.pairwise_cons, List.pairwise_cons] at hxs
      obtain ⟨ha, hb, hrest⟩ := hxs
      have hab := ha b List.mem_cons_self
      rw [List.foldl_cons, List.forall_mem_cons, List.forall_mem_cons]
      by_cases hlt : f b < f a
      · rw [if_pos hlt]
        have hkept := List.forall_mem_cons.1 (ih b (List.pairwise_cons.2 ⟨hb, hrest⟩) rfl)
        refine ⟨?_, hkept⟩
        have hfirst := hkept.1
        unfold Precedes at hfirst ⊢
        omega
      · rw [if_neg hlt]
        have ha' : ∀ c ∈ rest, position a < position c := fun c hc =>
          ha c (List.mem_cons_of_mem b hc)
        have hkept := List.forall_mem_cons.1 (ih a (List.pairwise_cons.2 ⟨ha', hrest⟩) rfl)
        refine ⟨hkept.1, ?_, hkept.2⟩
        have hfirst := hkept.1
        unfold Precedes at hfirst ⊢
        omega

/-- **The element that is taken for the least is the one that precedes all.** -/
theorem firstMin_eq_some_iff (hxs : xs.Pairwise fun a b => position a < position b) :
    firstMin f xs = some x ↔ x ∈ xs ∧ ∀ y ∈ xs, Precedes f position x y := by
  constructor
  · exact fun h => ⟨mem_of_firstMin h, precedes_of_firstMin hxs h⟩
  · rintro ⟨hx, hleast⟩
    cases hmin : firstMin f xs with
    | none =>
      cases xs with
      | nil => cases hx
      | cons a rest => cases hmin
    | some y =>
      have hy := mem_of_firstMin hmin
      have hxy := hleast y hy
      have hyx := precedes_of_firstMin hxs hmin x hx
      -- they precede each other, and only one element stands at a position
      have hposition : position y = position x := by
        unfold Precedes at hxy hyx
        omega
      have hnodup : (xs.map position).Nodup := List.pairwise_map.2 (hxs.imp Nat.ne_of_lt)
      rw [List.inj_on_of_nodup_map hnodup hy hx hposition]

theorem firstMin_const (n : Nat) (xs : List α) : firstMin (fun _ => n) xs = xs.head? := by
  cases xs with
  | nil => rfl
  | cons a rest =>
    have hfold : rest.foldl (fun best x => if n < n then x else best) a = a := by
      induction rest with
      | nil => rfl
      | cons b rest ih => rw [List.foldl_cons, if_neg (Nat.lt_irrefl n), ih]
    exact congrArg some hfold

/-- Elements without their repetitions stand in the order of first occurrences. -/
theorem pairwise_idxOf_eraseDups [DecidableEq α] (xs : List α) :
    xs.eraseDups.Pairwise fun a b => xs.idxOf a < xs.idxOf b := by
  induction xs using List.reverseRecOn with
  | nil => exact List.Pairwise.nil
  | append_singleton xs x ih =>
    -- to append an element does not move the first occurrences of the others
    have hkept : xs.eraseDups.Pairwise fun a b =>
        (xs ++ [x]).idxOf a < (xs ++ [x]).idxOf b := by
      refine ih.imp_of_mem fun ha hb hlt => ?_
      rw [List.idxOf_append_of_mem (List.mem_eraseDups.1 ha),
        List.idxOf_append_of_mem (List.mem_eraseDups.1 hb)]
      exact hlt
    rw [eraseDups_concat]
    split
    · exact hkept
    · next hx =>
      refine List.pairwise_append.2 ⟨hkept, List.pairwise_singleton _ _, fun a ha b hb => ?_⟩
      have ha : a ∈ xs := List.mem_eraseDups.1 ha
      rw [List.mem_singleton.1 hb, List.idxOf_append_of_mem ha, List.idxOf_append_of_notMem hx]
      exact Nat.lt_of_lt_of_le (List.idxOf_lt_length_of_mem ha) (Nat.le_add_right _ _)

theorem length_eraseDups [DecidableEq α] (xs : List α) :
    xs.eraseDups.length = xs.toFinset.card := by
  have hnodup : xs.eraseDups.Nodup :=
    (pairwise_idxOf_eraseDups xs).imp fun hlt heq => by simp [heq] at hlt
  rw [← List.toFinset_card_of_nodup hnodup]
  congr 1
  ext x
  rw [List.mem_toFinset, List.mem_toFinset, List.mem_eraseDups]

end FirstMin

/-! ## Ranks -/

/-- A number is the rank of a component in an order: the last position at which the component is
listed, or the number of components in the order if it is not listed. -/
def HasRank (order : List String) (c : String) (r : Nat) : Prop :=
  IsGreatest {i | order[i]? = some c} r ∨ c ∉ order ∧ r = order.toFinset.card

theorem isGreatest_of_lastPosition {c : String} {i p : Nat} {xs : List String}
    (h : lastPosition c i xs = some p) : ∃ j, p = i + j ∧ IsGreatest {k | xs[k]? = some c} j := by
  induction xs generalizing i with
  | nil => cases h
  | cons x xs ih =>
    rcases Option.or_eq_some_iff.1 h with h | ⟨hnone, h⟩
    · -- the component is listed again further on
      obtain ⟨j, rfl, hj, hmax⟩ := ih h
      refine ⟨j + 1, by omega, hj, fun k hk => ?_⟩
      cases k with
      | zero => exact Nat.zero_le _
      | succ k => exact Nat.succ_le_succ (hmax hk)
    · -- it is not listed again, so this is its last position
      have hx : x = c := by
        by_contra hx
        rw [if_neg hx] at h
        cases h
      rw [if_pos hx] at h
      refine ⟨0, (Option.some.inj h).symm, by simp [hx], fun k hk => ?_⟩
      have hxs : c ∉ xs := by
        rw [← lastPosition_isSome_iff (i := i + 1), hnone]
        exact Bool.false_ne_true
      cases k with
      | zero => exact Nat.le_refl _
      | succ k =>
        have hmem : c ∈ xs := List.mem_of_getElem? hk
        exact absurd hmem hxs

theorem hasRank_rank (order : List String) (c : String) : HasRank order c (rank order c) := by
  cases h : lastPosition c 0 order with
  | some p =>
    obtain ⟨j, rfl, hj⟩ := isGreatest_of_lastPosition h
    rw [rank, h, Option.getD_some, Nat.zero_add]
    exact Or.inl hj
  | none =>
    rw [rank, h, Option.getD_none, length_eraseDups]
    refine Or.inr ⟨?_, rfl⟩
    rw [← lastPosition_isSome_iff (i := 0), h]
    exact Bool.false_ne_true

/-! ## The best -/

namespace Scores

variable {points : List (String × Int)} {c : String}

/-- A component was given points, and nobody has a greater sum. -/
def Leads (points : List (String × Int)) (c : String) : Prop :=
  c ∈ points.map Prod.fst ∧ ∀ d ∈ points.map Prod.fst, total points d ≤ total points c

theorem entries_tally (points : List (String × Int)) :
    (tally points).entries =
      (points.map Prod.fst).eraseDups.map fun c => (c, total points c) := by
  rw [entries_eq_map, keys_tally]
  simp only [findD_tally]

/-- Leaders are listed in the order in which they were first given points. -/
theorem pairwise_idxOf_leaders (points : List (String × Int)) :
    (tally points).leaders.Pairwise fun a b =>
      (points.map Prod.fst).idxOf a < (points.map Prod.fst).idxOf b := by
  rw [leaders_eq_filter, keys_tally]
  exact (pairwise_idxOf_eraseDups _).sublist List.filter_sublist

theorem firstMin_leaders_eq_some_iff {f : String → Nat} :
    firstMin f (tally points).leaders = some c ↔
      Leads points c ∧ ∀ d, Leads points d → Precedes f (points.map Prod.fst).idxOf c d := by
  rw [firstMin_eq_some_iff (pairwise_idxOf_leaders points)]
  simp only [mem_leaders_tally_iff, Leads]

/-- Somebody leads as soon as points have been given. -/
theorem leaders_eq_nil_iff (s : Scores) : s.leaders = [] ↔ s.keys = [] := by
  constructor
  · intro h
    unfold leaders at h
    -- the greatest score is somebody's, so nobody leads only if there are no scores
    cases htop : s.top? with
    | none =>
      rw [top?_eq_max?, List.max?_eq_none_iff] at htop
      exact List.map_eq_nil_iff.2 (List.map_eq_nil_iff.1 htop)
    | some top =>
      simp only [htop, List.map_eq_nil_iff, List.filter_eq_nil_iff, decide_eq_true_eq] at h
      rw [top?_eq_max?] at htop
      obtain ⟨e, he, htop⟩ := List.mem_map.1 (List.max?_mem htop)
      exact absurd htop (h e he)
  · intro h
    rw [leaders_eq_filter, h]
    rfl

theorem best_eq_none_iff (s : Scores) (order : Option (List String)) :
    s.best order = none ↔ s.keys = [] := by
  rw [← leaders_eq_nil_iff]
  cases order with
  | none => exact List.head?_eq_none_iff
  | some order =>
    rw [best]
    cases s.leaders with
    | nil => exact iff_of_true rfl rfl
    | cons a rest => exact iff_of_false (Option.some_ne_none _) (List.cons_ne_nil _ _)

theorem keys_tally_eq_nil_iff : (tally points).keys = [] ↔ points = [] := by
  cases points with
  | nil => exact iff_of_true rfl rfl
  | cons p points =>
    refine iff_of_false (fun h => ?_) (List.cons_ne_nil _ _)
    have hp : p.1 ∈ (tally (p :: points)).keys := by
      rw [keys_tally, List.mem_eraseDups]
      exact List.mem_cons_self
    rw [h] at hp
    cases hp

end Scores

namespace ScoreBoard

/-- **A board sums up, and its best is the first of the greatest sums.** After any awards, the
scores of a target list its components in the order in which they were first given points, each with
the sum of its points. A target is on the board if an award gave points for it, and has a best
component exactly then. Without an order of components the best is the first of those that lead.
With an order it is the leader of least rank, and of several the first. -/
theorem sums_and_stable_best (awards : List Award) (t : String) :
    ((after awards).scores t).entries =
      ((Award.pointsFor t awards).map Prod.fst).eraseDups.map
        (fun c => (c, Scores.total (Award.pointsFor t awards) c)) ∧
    ((after awards).targets.contains t = true ↔
      ∃ a ∈ awards, a.target = t ∧ a.points ≠ []) ∧
    (∀ order, (after awards).best t order = none ↔ (after awards).targets.contains t = false) ∧
    (∀ c, (after awards).best t = some c ↔ Scores.Leads (Award.pointsFor t awards) c ∧
      ∀ d, Scores.Leads (Award.pointsFor t awards) d →
        ((Award.pointsFor t awards).map Prod.fst).idxOf c ≤
          ((Award.pointsFor t awards).map Prod.fst).idxOf d) ∧
    (∀ order c, (after awards).best t (some order) = some c ↔
      Scores.Leads (Award.pointsFor t awards) c ∧
      ∀ d, Scores.Leads (Award.pointsFor t awards) d →
        Precedes (rank order) ((Award.pointsFor t awards).map Prod.fst).idxOf c d) ∧
    (∀ order c, HasRank order c (rank order c)) := by
  have hpresent : (after awards).targets.contains t = true ↔
      ∃ a ∈ awards, a.target = t ∧ a.points ≠ [] := by
    rw [Table.contains_iff, mem_keys_after_iff]
  refine ⟨?_, hpresent, fun order => ?_, fun c => ?_, fun order c => ?_, hasRank_rank⟩
  · rw [scores_after, Scores.entries_tally]
  · rw [best, scores_after, Scores.best_eq_none_iff, Scores.keys_tally_eq_nil_iff,
      Award.pointsFor_eq_nil_iff, ← Bool.not_eq_true, hpresent]
    grind
  · rw [best, scores_after, Scores.best, ← firstMin_const 0, Scores.firstMin_leaders_eq_some_iff]
    simp only [Precedes, Nat.lt_irrefl, false_or, true_and]
  · rw [best, scores_after]
    exact Scores.firstMin_leaders_eq_some_iff

end ScoreBoard

end Blueprint
