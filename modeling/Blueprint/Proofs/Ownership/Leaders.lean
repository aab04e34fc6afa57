import Mathlib.Data.List.Dedup
import Mathlib.Data.List.Find
import Blueprint.Proofs.Ownership.Scores
import Blueprint.Proofs.Ownership.Totality

/-!
# Who leads, and who wins a tie

The component with the greatest sum of points leads. When several lead, the tie goes to the one that
was given points first, or, where an order of components is given, to the one of least rank. A
component that the order lists more than once has the rank of its last position, so the order that
counts is the list in which every component stands where it is listed last.

- `leader?`: the first of some components that leads them.
- `firstMin_eq_find?`: to take the least by a rank is to search in the order of the rank.
- `pairwise_rank_dedup`, `eq_of_rank_eq`: ranks follow the last positions, so they tell components
  apart.
- `Scores.best_tally_eq_leader?`, `Scores.best_tally_order_eq_leader?`: the best of a tally leads,
  without an order and with one.
- `Scores.best_tally_perm`: with an order of all components that were given points, the best does
  not depend on the order in which points were given.
-/

namespace Blueprint

/-- The first of some components whose total is positive and not exceeded by that of another. -/
def leader? (total : String → Nat) (names : List String) : Option String :=
  names.find? fun c => 0 < total c && names.all fun d => total d ≤ total c

/-! ## Ranks -/

/-- Nothing is less than what is taken for the least. -/
theorem le_of_firstMin {α : Type} {f : α → Nat} {xs : List α} {x : α}
    (h : firstMin f xs = some x) : ∀ y ∈ xs, f x ≤ f y := by
  -- what is kept is never greater than what has been seen
  have hfold : ∀ (rest : List α) (a : α),
      f (rest.foldl (fun best y => if f y < f best then y else best) a) ≤ f a ∧
        ∀ y ∈ rest, f (rest.foldl (fun best y => if f y < f best then y else best) a) ≤ f y := by
    intro rest
    induction rest with
    | nil => exact fun a => ⟨Nat.le_refl _, nofun⟩
    | cons y rest ih =>
      intro a
      rw [List.foldl_cons, List.forall_mem_cons]
      obtain ⟨hkept, hrest⟩ := ih (if f y < f a then y else a)
      by_cases hy : f y < f a
      · rw [if_pos hy] at hkept hrest ⊢
        exact ⟨by omega, hkept, hrest⟩
      · rw [if_neg hy] at hkept hrest ⊢
        exact ⟨hkept, by omega, hrest⟩
  cases xs with
  | nil => cases h
  | cons a rest =>
    obtain rfl := Option.some.inj h
    obtain ⟨hkept, hrest⟩ := hfold rest a
    exact List.forall_mem_cons.2 ⟨hkept, hrest⟩

/-- **To take the least by a rank is to search in the order of the rank.** -/
theorem firstMin_eq_find? {α : Type} [DecidableEq α] {f : α → Nat} {order xs : List α}
    (horder : order.Pairwise fun a b => f a < f b) (hxs : ∀ x ∈ xs, x ∈ order) :
    firstMin f xs = order.find? fun a => a ∈ xs := by
  cases hmin : firstMin f xs with
  | none =>
    have hnil : xs = [] := by
      cases xs with
      | nil => rfl
      | cons a rest => cases hmin
    rw [hnil]
    exact (List.find?_eq_none.2 fun a _ => by simp).symm
  | some x =>
    have hx : x ∈ xs := mem_of_firstMin hmin
    obtain ⟨before, after, rfl⟩ := List.append_of_mem (hxs x hx)
    symm
    rw [List.find?_eq_some_iff_append]
    refine ⟨decide_eq_true hx, before, after, rfl, fun a ha => ?_⟩
    -- what stands before the least element has a lesser rank, so it is not there to choose
    have hlt : f a < f x := (List.pairwise_append.1 horder).2.2 a ha x List.mem_cons_self
    have hnot : a ∉ xs := fun hmem => by
      have hle := le_of_firstMin hmin a hmem
      omega
    simp [hnot]

theorem lastPosition_isSome_iff {c : String} {i : Nat} {xs : List String} :
    (lastPosition c i xs).isSome ↔ c ∈ xs := by
  induction xs generalizing i with
  | nil => simp [lastPosition]
  | cons x xs ih =>
    by_cases hx : x = c
    · simp [lastPosition, hx]
    · simp [lastPosition, hx, ih, Ne.symm hx]

theorem le_of_lastPosition {c : String} {i p : Nat} {xs : List String}
    (h : lastPosition c i xs = some p) : i ≤ p := by
  induction xs generalizing i with
  | nil => cases h
  | cons x xs ih =>
    rcases Option.or_eq_some_iff.1 h with h | ⟨-, h⟩
    · have hle := ih h
      omega
    · split at h
      · exact (Option.some.inj h).le
      · cases h

/-- A component that is listed again has its last position further on. -/
theorem lastPosition_cons_of_mem {c x : String} {xs : List String} (hc : c ∈ xs) (i : Nat) :
    lastPosition c i (x :: xs) = lastPosition c (i + 1) xs := by
  obtain ⟨p, hp⟩ := Option.isSome_iff_exists.1 (lastPosition_isSome_iff (i := i + 1).2 hc)
  rw [lastPosition, hp, Option.some_or]

theorem pairwise_lastPosition_dedup (i : Nat) (order : List String) :
    order.dedup.Pairwise fun a b =>
      (lastPosition a i order).getD 0 < (lastPosition b i order).getD 0 := by
  induction order generalizing i with
  | nil => exact List.Pairwise.nil
  | cons x rest ih =>
    -- all in `rest` have their last position there, whether or not `x` is one of them
    have hrest : rest.dedup.Pairwise fun a b => (lastPosition a i (x :: rest)).getD 0 <
        (lastPosition b i (x :: rest)).getD 0 := by
      refine (ih (i + 1)).imp_of_mem fun ha hb hlt => ?_
      rw [lastPosition_cons_of_mem (List.mem_dedup.1 ha),
        lastPosition_cons_of_mem (List.mem_dedup.1 hb)]
      exact hlt
    by_cases hx : x ∈ rest
    · rw [List.dedup_cons_of_mem hx]
      exact hrest
    · rw [List.dedup_cons_of_notMem hx, List.pairwise_cons]
      refine ⟨fun b hb => ?_, hrest⟩
      have hb : b ∈ rest := List.mem_dedup.1 hb
      -- a component that does not come again stands before all that follow
      have hfirst : lastPosition x i (x :: rest) = some i := by
        have hnone : lastPosition x (i + 1) rest = none := by
          rw [← Option.not_isSome_iff_eq_none, lastPosition_isSome_iff]
          exact hx
        simp [lastPosition, hnone]
      obtain ⟨p, hp⟩ := Option.isSome_iff_exists.1 (lastPosition_isSome_iff (i := i + 1).2 hb)
      have hle := le_of_lastPosition hp
      rw [hfirst, lastPosition_cons_of_mem hb, hp, Option.getD_some, Option.getD_some]
      omega

/-- **Ranks follow the last positions.** -/
theorem pairwise_rank_dedup (order : List String) :
    order.dedup.Pairwise fun a b => rank order a < rank order b := by
  refine (pairwise_lastPosition_dedup 0 order).imp_of_mem fun ha hb hlt => ?_
  obtain ⟨p, hp⟩ := Option.isSome_iff_exists.1
    (lastPosition_isSome_iff (i := 0).2 (List.mem_dedup.1 ha))
  obtain ⟨q, hq⟩ := Option.isSome_iff_exists.1
    (lastPosition_isSome_iff (i := 0).2 (List.mem_dedup.1 hb))
  rw [hp, hq] at hlt
  rw [rank, rank, hp, hq]
  exact hlt

/-- **Different components have different ranks**, as long as they are listed. -/
theorem eq_of_rank_eq {order : List String} {c d : String} (hc : c ∈ order) (hd : d ∈ order)
    (h : rank order c = rank order d) : c = d := by
  have hnodup : (order.dedup.map (rank order)).Nodup :=
    List.pairwise_map.2 ((pairwise_rank_dedup order).imp Nat.ne_of_lt)
  exact List.inj_on_of_nodup_map hnodup (List.mem_dedup.2 hc) (List.mem_dedup.2 hd) h

/-! ## Leaders -/

namespace Scores

variable {points : List (String × Int)} {order : List String} {c : String}

theorem mem_leaders_tally_iff :
    c ∈ (tally points).leaders ↔ c ∈ points.map Prod.fst ∧
      ∀ d ∈ points.map Prod.fst, total points d ≤ total points c := by
  simp only [leaders_eq_filter, keys_tally, all_eraseDups, findD_tally, List.mem_filter,
    List.mem_eraseDups, List.all_eq_true, decide_eq_true_eq]

/-- With an order of components the best is the leader whose last position comes first. -/
theorem best_tally_order (horder : ∀ p ∈ points, p.1 ∈ order) :
    (tally points).best (some order) =
      order.dedup.find? fun c => c ∈ (tally points).leaders := by
  refine firstMin_eq_find? (pairwise_rank_dedup order) fun c hc => ?_
  obtain ⟨p, hp, rfl⟩ := List.mem_map.1 (mem_leaders_tally_iff.1 hc).1
  exact List.mem_dedup.2 (horder p hp)

/-- **With an order of components the best does not depend on the order of the points.** -/
theorem best_tally_perm {points' : List (String × Int)} (h : points.Perm points')
    (horder : ∀ p ∈ points, p.1 ∈ order) :
    (tally points').best (some order) = (tally points).best (some order) := by
  have hmem : ∀ d, d ∈ points'.map Prod.fst ↔ d ∈ points.map Prod.fst :=
    fun d => (h.map Prod.fst).mem_iff.symm
  -- who leads is a matter of the sums
  have hleaders : ∀ d, d ∈ (tally points').leaders ↔ d ∈ (tally points).leaders := by
    intro d
    simp only [mem_leaders_tally_iff, hmem, total_perm h]
  rw [best_tally_order horder, best_tally_order fun p hp => horder p (h.mem_iff.2 hp)]
  simp only [hleaders]

variable {sum : String → Nat} (hpos : ∀ p ∈ points, 0 < p.2)
  (hsum : ∀ c, total points c = sum c)

include hpos hsum

/-- Who was given points has a positive sum. -/
theorem mem_map_fst_iff : c ∈ points.map Prod.fst ↔ 0 < sum c := by
  rw [← total_pos_iff hpos, hsum, Int.natCast_pos]

/-- **The best leads those who were given points**, in the order in which they were. -/
theorem best_tally_eq_leader? :
    (tally points).best none = leader? sum (points.map Prod.fst) := by
  rw [best_tally, leader?]
  refine List.find?_congr fun c hc => ?_
  have hc : 0 < sum c := (mem_map_fst_iff hpos hsum).1 hc
  simp only [hsum, Int.ofNat_le, hc, decide_true, Bool.true_and]

/-- **With an order of components the best leads them all**, in the order of their last positions.
-/
theorem best_tally_order_eq_leader? (horder : ∀ p ∈ points, p.1 ∈ order) :
    (tally points).best (some order) = leader? sum order.dedup := by
  rw [best_tally_order horder, leader?]
  refine List.find?_congr fun c _ => ?_
  rw [Bool.eq_iff_iff]
  simp only [decide_eq_true_eq, Bool.and_eq_true, List.all_eq_true,
    mem_leaders_tally_iff, mem_map_fst_iff hpos hsum, hsum, Int.ofNat_le, List.mem_dedup]
  refine and_congr_right fun hc => ⟨fun hmax d hd => ?_, fun hmax d hd => ?_⟩
  · -- who was given no points does not exceed anybody
    by_cases hd : 0 < sum d
    · exact hmax d hd
    · omega
  · obtain ⟨p, hp, rfl⟩ := List.mem_map.1 ((mem_map_fst_iff hpos hsum).2 hd)
    exact hmax p.1 (horder p hp)

end Scores

end Blueprint
