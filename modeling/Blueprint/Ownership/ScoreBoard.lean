import Blueprint.Table

/-!
# Score boards

Scores of components, kept per target in the order in which components were first scored. Passes 3,
4 and 6 of the specification decide by them (§4.3).

- `ScoreBoard.add`, `ScoreBoard.merge`: give points.
- `ScoreBoard.scores`: what the components have for a target.
- `ScoreBoard.best`: the component with the most points. A tie goes to the component that was
  scored first, or, when an order of components is given, to the one of least rank in it.
- `rank`: the last position of a component in an order; one that is not listed comes after all.
-/

namespace Blueprint

/-- The points of components. -/
abbrev Scores := Table String Int

/-- The points of components for each of several targets. -/
structure ScoreBoard where
  targets : Table String Scores := ∅

/-- The first of the elements for which `f` is least. -/
def firstMin {α : Type} (f : α → Nat) : List α → Option α
  | [] => none
  | a :: rest => some (rest.foldl (fun best x => if f x < f best then x else best) a)

/-- The last position of an element in a list whose first position is given. -/
def lastPosition (c : String) : Nat → List String → Option Nat
  | _, [] => none
  | i, x :: rest => (lastPosition c (i + 1) rest).or (if x = c then some i else none)

/-- The rank of a component in an order. -/
def rank (order : List String) (c : String) : Nat :=
  (lastPosition c 0 order).getD order.eraseDups.length

namespace Scores

/-- The scores with points added for a component. -/
def add (s : Scores) (component : String) (points : Int) : Scores :=
  s.upsert component fun old => old.getD 0 + points

/-- The greatest score. -/
def top? (s : Scores) : Option Int :=
  match s.values with
  | [] => none
  | v :: rest => some (rest.foldl max v)

/-- The components with the greatest score, in the order in which they were first scored. -/
def leaders (s : Scores) : List String :=
  match s.top? with
  | none => []
  | some top => (s.entries.filter fun e => e.2 = top).map Prod.fst

/-- The leader of least rank in an order, or the first one without an order. -/
def best (s : Scores) (order : Option (List String)) : Option String :=
  match order with
  | none => s.leaders.head?
  | some order => firstMin (rank order) s.leaders

end Scores

namespace ScoreBoard

/-- The board with points added for a component. -/
def add (b : ScoreBoard) (target component : String) (points : Int) : ScoreBoard :=
  ⟨b.targets.upsert target fun old => (old.getD ∅).add component points⟩

/-- The board with all of the given points added. -/
def merge (b : ScoreBoard) (target : String) (points : List (String × Int)) : ScoreBoard :=
  points.foldl (fun b p => b.add target p.1 p.2) b

/-- The scores of a target. -/
def scores (b : ScoreBoard) (target : String) : Scores := b.targets.findD target ∅

/-- Points that are given count for their target only. -/
theorem scores_add (b : ScoreBoard) (target component : String) (points : Int) (t : String) :
    (b.add target component points).scores t =
      if t = target then (b.scores t).add component points else b.scores t := by
  by_cases h : t = target
  · subst h; simp [scores, add, Table.findD]
  · simp [scores, add, Table.findD, Table.find?_upsert, h]

theorem merge_append (b : ScoreBoard) (target : String) (ps qs : List (String × Int)) :
    b.merge target (ps ++ qs) = (b.merge target ps).merge target qs := by simp [merge]

/-- The component with the most points for a target. -/
def best (b : ScoreBoard) (target : String) (order : Option (List String) := none) :
    Option String :=
  (b.scores target).best order

end ScoreBoard

end Blueprint
