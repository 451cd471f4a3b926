/- PrivateBtc/Library/HashTree
   digest: Binary hash trees that pair an odd last node with itself, and their opening paths. -/

import Mathlib.Algebra.Ring.Nat
import Mathlib.Data.Nat.Log
import Mathlib.Data.List.Basic

set_option autoImplicit false
set_option relaxedAutoImplicit false

namespace PrivateBtc.Library.HashTree

universe u

variable {N : Type u} (combine : N → N → N)

/-- The sibling pairs of a level; an odd last node is paired with itself. -/
def pairs : List N → List (N × N)
  | [] => []
  | [a] => [(a, a)]
  | a :: b :: rest => (a, b) :: pairs rest

/-- The next level up. -/
def parents (level : List N) : List N := (pairs level).map fun p => combine p.1 p.2

/-- Go up at most `fuel` levels, until one node is left. -/
def climb : Nat → List N → Option N
  | _, [] => none
  | _, [a] => some a
  | 0, _ :: _ :: _ => none
  | fuel + 1, a :: b :: rest => climb fuel (parents combine (a :: b :: rest))

/-- The root of a nonempty list of leaves. -/
def root (leaves : List N) : Option N := climb combine leaves.length leaves

/-- The number of levels above `n` leaves. -/
def height (n : Nat) : Nat := Nat.clog 2 n

/-- A node and a sibling in the order the position asks for. -/
def ordered (current sibling : N) (index : Nat) : N × N :=
  if index % 2 = 0 then (current, sibling) else (sibling, current)

/-- Recompute a root from a node, its siblings from the bottom up and its position. -/
def fold (current : N) : List N → Nat → N
  | [], _ => current
  | sibling :: path, index =>
      fold (combine (ordered current sibling index).1 (ordered current sibling index).2)
        path (index / 2)

/-- The pairs that `fold` combines on the way up. -/
def foldPairs (current : N) : List N → Nat → List (N × N)
  | [], _ => []
  | sibling :: path, index =>
      ordered current sibling index ::
        foldPairs (combine (ordered current sibling index).1 (ordered current sibling index).2)
          path (index / 2)

/-- The pairs that the first `k` levels of the tree combine. -/
def treePairs : Nat → List N → List (N × N)
  | 0, _ => []
  | k + 1, level => pairs level ++ treePairs k (parents combine level)

/-- The other child of the same parent; a lone last node is its own sibling. -/
def sibling (level : List N) (index : Nat) : Option N :=
  if index % 2 = 0 then level[index + 1]? <|> level[index]? else level[index - 1]?

/-- The siblings met on the way up `k` levels from a position. -/
def branch : Nat → List N → Nat → List N
  | 0, _, _ => []
  | k + 1, level, index =>
      (sibling level index).toList ++ branch k (parents combine level) (index / 2)

/-- The node that a position reaches on a level of `n` nodes, `k` levels below
the root. Positions past the end fall on the duplicated nodes. -/
def slot (n : Nat) : Nat → Nat → Nat
  | 0, _ => 0
  | k + 1, index =>
      let above := slot ((n + 1) / 2) k (index / 2)
      if index % 2 = 0 then 2 * above else min (2 * above + 1) (n - 1)

theorem pairs_length (level : List N) : (pairs level).length = (level.length + 1) / 2 := by
  induction level using pairs.induct with
  | case1 => simp [pairs]
  | case2 a => simp [pairs]
  | case3 a b rest ih =>
      simp only [pairs, List.length_cons, ih]
      omega

theorem parents_length (level : List N) :
    (parents combine level).length = (level.length + 1) / 2 := by
  rw [parents, List.length_map, pairs_length]

/-- The pair at place `j` holds the nodes `2j` and `2j + 1`, or the last node twice. -/
theorem pairs_getElem? (level : List N) (j : Nat) (inside : 2 * j < level.length) :
    ∃ a b, (pairs level)[j]? = some (a, b) ∧ level[2 * j]? = some a ∧
      level[min (2 * j + 1) (level.length - 1)]? = some b := by
  induction level using pairs.induct generalizing j with
  | case1 => simp at inside
  | case2 a =>
      obtain rfl : j = 0 := by
        simp only [List.length_singleton] at inside
        omega
      exact ⟨a, a, rfl, rfl, rfl⟩
  | case3 a b rest ih =>
      cases j with
      | zero =>
          refine ⟨a, b, rfl, rfl, ?_⟩
          have second : min (2 * 0 + 1) ((a :: b :: rest).length - 1) = 1 := by
            simp only [List.length_cons]
            omega
          rw [second]
          rfl
      | succ j =>
          have shorter : 2 * j < rest.length := by
            simp only [List.length_cons] at inside
            omega
          obtain ⟨c, d, pair, left, right⟩ := ih j shorter
          have shift : min (2 * (j + 1) + 1) ((a :: b :: rest).length - 1) =
              min (2 * j + 1) (rest.length - 1) + 1 + 1 := by
            simp only [List.length_cons]
            omega
          refine ⟨c, d, by simpa [pairs] using pair, ?_, ?_⟩
          · rw [show 2 * (j + 1) = 2 * j + 1 + 1 by omega]
            simpa using left
          · rw [shift]
            simpa using right

private theorem iterate_parents_length (k : Nat) (level : List N) (r : N)
    (top : (parents combine)^[k] level = [r]) : 0 < level.length := by
  rcases level with _ | ⟨a, rest⟩
  · have empty : ∀ k : Nat, (parents combine)^[k] ([] : List N) = [] := by
      intro k
      induction k with
      | zero => rfl
      | succ k ih => rw [Function.iterate_succ_apply]; exact ih
    rw [empty k] at top
    exact absurd top (by simp)
  · simp

theorem slot_lt (k n index : Nat) (positive : 0 < n) : slot n k index < n := by
  induction k generalizing n index with
  | zero => exact positive
  | succ k ih =>
      have above := ih ((n + 1) / 2) (index / 2) (by omega)
      simp only [slot]
      split <;> omega

/-- A position inside the level reaches the node of that number. -/
theorem slot_of_lt (k n index : Nat) (inside : index < n) (small : n ≤ 2 ^ k) :
    slot n k index = index := by
  induction k generalizing n index with
  | zero =>
      rw [Nat.pow_zero] at small
      simp only [slot]
      omega
  | succ k ih =>
      rw [Nat.pow_succ] at small
      have above := ih ((n + 1) / 2) (index / 2) (by omega) (by omega)
      simp only [slot, above]
      split <;> omega

private theorem parents_getElem? (level : List N) (j : Nat) (inside : 2 * j < level.length) :
    ∃ a b, (a, b) ∈ pairs level ∧ (parents combine level)[j]? = some (combine a b) ∧
      level[2 * j]? = some a ∧ level[min (2 * j + 1) (level.length - 1)]? = some b := by
  obtain ⟨a, b, pair, left, right⟩ := pairs_getElem? level j inside
  refine ⟨a, b, List.mem_of_getElem? pair, ?_, left, right⟩
  rw [parents, List.getElem?_map, pair]
  rfl

/-- The pair above a position, with the position's own node on its side. -/
private theorem slot_pair (k : Nat) (level : List N) (index : Nat) (positive : 0 < level.length) :
    ∃ a b, (a, b) ∈ pairs level ∧
      (parents combine level)[slot ((level.length + 1) / 2) k (index / 2)]? = some (combine a b) ∧
      level[slot level.length (k + 1) index]? = some (if index % 2 = 0 then a else b) := by
  have above := slot_lt k ((level.length + 1) / 2) (index / 2) (by omega)
  obtain ⟨a, b, member, parent, left, right⟩ :=
    parents_getElem? combine level (slot ((level.length + 1) / 2) k (index / 2)) (by omega)
  refine ⟨a, b, member, parent, ?_⟩
  simp only [slot]
  split
  · exact left
  · exact right

/-- Every position of every level has an opening path, made of the tree's own pairs. -/
theorem exists_fold_eq (k : Nat) (level : List N) (index : Nat) (r : N)
    (top : (parents combine)^[k] level = [r]) :
    ∃ x path, level[slot level.length k index]? = some x ∧ path.length = k ∧
      fold combine x path index = r ∧
      ∀ p ∈ foldPairs combine x path index, p ∈ treePairs combine k level := by
  induction k generalizing level index with
  | zero =>
      obtain rfl : level = [r] := top
      exact ⟨r, [], rfl, rfl, rfl, by simp [foldPairs]⟩
  | succ k ih =>
      have positive := iterate_parents_length combine (k + 1) level r top
      rw [Function.iterate_succ_apply] at top
      obtain ⟨above, path, parent, count, opens, own⟩ :=
        ih (parents combine level) (index / 2) top
      obtain ⟨a, b, member, pair, node⟩ := slot_pair combine k level index positive
      rw [parents_length, pair, Option.some_inj] at parent
      have ordering : ordered (if index % 2 = 0 then a else b) (if index % 2 = 0 then b else a)
          index = (a, b) := by
        by_cases even : index % 2 = 0 <;> simp [ordered, even]
      refine ⟨_, (if index % 2 = 0 then b else a) :: path, node, by simp [count], ?_, ?_⟩
      · rw [fold, ordering, parent]
        exact opens
      · intro p met
        rw [foldPairs, ordering, parent, List.mem_cons] at met
        rcases met with rfl | met
        · exact List.mem_append_left _ member
        · exact List.mem_append_right _ (own p met)

/-- A path that recomputes the root starts at the node its position reaches,
provided the pairs met on the way do not collide with the tree's own pairs. -/
theorem slot_of_fold_eq (k : Nat) (level : List N) (x : N) (path : List N) (index : Nat) (r : N)
    (top : (parents combine)^[k] level = [r]) (count : path.length = k)
    (injective : ∀ p ∈ foldPairs combine x path index, ∀ q ∈ treePairs combine k level,
      combine p.1 p.2 = combine q.1 q.2 → p = q)
    (opens : fold combine x path index = r) :
    level[slot level.length k index]? = some x := by
  induction k generalizing level x path index with
  | zero =>
      obtain rfl : level = [r] := top
      obtain rfl : path = [] := List.length_eq_zero_iff.mp count
      obtain rfl : x = r := opens
      rfl
  | succ k ih =>
      have positive := iterate_parents_length combine (k + 1) level r top
      rw [Function.iterate_succ_apply] at top
      match path, count with
      | s :: path, count =>
          have parent := ih (parents combine level)
            (combine (ordered x s index).1 (ordered x s index).2) path (index / 2) top
            (by simpa using count)
            (fun p before q after =>
              injective p (List.mem_cons_of_mem _ before) q (List.mem_append_right _ after)) opens
          obtain ⟨a, b, member, pair, node⟩ := slot_pair combine k level index positive
          rw [parents_length, pair, Option.some_inj] at parent
          have same := injective (ordered x s index) List.mem_cons_self (a, b)
            (List.mem_append_left _ member) parent.symm
          have child : (if index % 2 = 0 then a else b) = x := by
            rw [ordered] at same
            by_cases even : index % 2 = 0
            · rw [if_pos even] at same ⊢
              exact (congrArg Prod.fst same).symm
            · rw [if_neg even] at same ⊢
              exact (congrArg Prod.snd same).symm
          rw [node, child]

private theorem ordered_injective {x y s t : N} {i j : Nat} (parity : i % 2 = j % 2)
    (same : ordered x s i = ordered y t j) : x = y ∧ s = t := by
  rw [ordered, ordered, parity] at same
  by_cases even : j % 2 = 0
  · rw [if_pos even, if_pos even, Prod.mk.injEq] at same
    exact same
  · rw [if_neg even, if_neg even, Prod.mk.injEq] at same
    exact ⟨same.2, same.1⟩

/-- A path binds its start and its siblings: two paths of one length that turn the
same way at every level and reach one root are the same path, provided the pairs
met on the two ways do not collide. -/
theorem eq_of_fold_eq (x y : N) (path path' : List N) (i j : Nat)
    (count : path.length = path'.length)
    (turns : i % 2 ^ path.length = j % 2 ^ path.length)
    (injective : ∀ p ∈ foldPairs combine x path i, ∀ q ∈ foldPairs combine y path' j,
      combine p.1 p.2 = combine q.1 q.2 → p = q)
    (same : fold combine x path i = fold combine y path' j) : x = y ∧ path = path' := by
  induction path generalizing x y path' i j with
  | nil =>
      obtain rfl : path' = [] := List.length_eq_zero_iff.mp count.symm
      exact ⟨same, rfl⟩
  | cons s path ih =>
      match path', count with
      | t :: path', count =>
          rw [List.length_cons, Nat.pow_succ] at turns
          have parity : i % 2 = j % 2 := by
            have low := congrArg (· % 2) turns
            simpa only [Nat.mod_mul_left_mod] using low
          have halves : i / 2 % 2 ^ path.length = j / 2 % 2 ^ path.length := by
            have high := congrArg (· / 2) turns
            simpa only [Nat.mul_comm _ 2, Nat.mod_mul_right_div_self] using high
          -- the parents are equal by induction, then the children by the top pair
          obtain ⟨parents, rfl⟩ := ih
            (combine (ordered x s i).1 (ordered x s i).2)
            (combine (ordered y t j).1 (ordered y t j).2) path' (i / 2) (j / 2)
            (by simpa using count) halves
            (fun p metP q metQ =>
              injective p (List.mem_cons_of_mem _ metP) q (List.mem_cons_of_mem _ metQ)) same
          have pair := injective (ordered x s i) List.mem_cons_self (ordered y t j)
            List.mem_cons_self parents
          obtain ⟨rfl, rfl⟩ := ordered_injective parity pair
          exact ⟨rfl, rfl⟩

/-- The authentication path of a leaf recomputes the root. -/
theorem fold_branch (k : Nat) (level : List N) (index : Nat) (x r : N)
    (top : (parents combine)^[k] level = [r]) (leaf : level[index]? = some x) :
    fold combine x (branch combine k level index) index = r := by
  induction k generalizing level index x with
  | zero =>
      obtain rfl : level = [r] := top
      have first : index = 0 := by
        have inside := (List.getElem?_eq_some_iff.mp leaf).1
        simp only [List.length_singleton] at inside
        omega
      subst first
      exact (Option.some_inj.mp leaf).symm
  | succ k ih =>
      rw [Function.iterate_succ_apply] at top
      have inside := (List.getElem?_eq_some_iff.mp leaf).1
      obtain ⟨a, b, -, parent, left, right⟩ :=
        parents_getElem? combine level (index / 2) (by omega)
      have above := ih (parents combine level) (index / 2) (combine a b) top parent
      have ordering : ∃ s, sibling level index = some s ∧ ordered x s index = (a, b) := by
        by_cases even : index % 2 = 0
        · have place : 2 * (index / 2) = index := by omega
          rw [place] at left right
          obtain rfl : x = a := Option.some_inj.mp (leaf.symm.trans left)
          refine ⟨b, ?_, by simp [ordered, even]⟩
          rw [sibling, if_pos even]
          by_cases last : index + 1 < level.length
          · rw [min_eq_left (by omega)] at right
            rw [right]
            rfl
          · rw [min_eq_right (by omega), show level.length - 1 = index by omega] at right
            rw [List.getElem?_eq_none (by omega), right]
            rfl
        · have place : 2 * (index / 2) = index - 1 := by omega
          rw [place, show index - 1 + 1 = index by omega, min_eq_left (by omega)] at right
          rw [place] at left
          obtain rfl : x = b := Option.some_inj.mp (leaf.symm.trans right)
          refine ⟨a, ?_, by simp [ordered, even]⟩
          rw [sibling, if_neg even, left]
      obtain ⟨s, found, pair⟩ := ordering
      rw [branch, found, Option.toList_some, List.singleton_append, fold, pair]
      exact above

/-- A map that respects the combination respects the fold. -/
theorem fold_map {M : Type u} {combine' : M → M → M} {f : N → M}
    (respects : ∀ a b, f (combine a b) = combine' (f a) (f b)) (x : N) (path : List N)
    (index : Nat) : fold combine' (f x) (path.map f) index = f (fold combine x path index) := by
  induction path generalizing x index with
  | nil => rfl
  | cons s path ih =>
      rw [List.map_cons, fold, fold, ← ih, respects]
      by_cases even : index % 2 = 0 <;> simp [ordered, even]

theorem fold_append (x : N) (path rest : List N) (index : Nat) :
    fold combine x (path ++ rest) index =
      fold combine (fold combine x path index) rest (index / 2 ^ path.length) := by
  induction path generalizing x index with
  | nil => simp [fold]
  | cons s path ih =>
      rw [List.cons_append, fold, ih, fold, Nat.div_div_eq_div_mul, List.length_cons, Nat.pow_succ,
        Nat.mul_comm 2]

theorem foldPairs_append (x : N) (path rest : List N) (index : Nat) :
    foldPairs combine x (path ++ rest) index = foldPairs combine x path index ++
      foldPairs combine (fold combine x path index) rest (index / 2 ^ path.length) := by
  induction path generalizing x index with
  | nil => simp [fold, foldPairs]
  | cons s path ih =>
      rw [List.cons_append, foldPairs, ih, foldPairs, fold, Nat.div_div_eq_div_mul,
        List.length_cons, Nat.pow_succ, Nat.mul_comm 2, List.cons_append]

/-- The last pair met is the one that gives the folded value. -/
theorem foldPairs_getLast? (x s : N) (path : List N) (index : Nat) :
    ∃ p, (foldPairs combine x (s :: path) index).getLast? = some p ∧
      fold combine x (s :: path) index = combine p.1 p.2 := by
  induction path generalizing x s index with
  | nil => exact ⟨ordered x s index, rfl, rfl⟩
  | cons t path ih =>
      obtain ⟨p, last, value⟩ :=
        ih (combine (ordered x s index).1 (ordered x s index).2) t (index / 2)
      refine ⟨p, ?_, by rw [fold]; exact value⟩
      rw [foldPairs, foldPairs, List.getLast?_cons_cons]
      exact last

theorem treePairs_add (j k : Nat) (level : List N) :
    treePairs combine (j + k) level =
      treePairs combine j level ++ treePairs combine k ((parents combine)^[j] level) := by
  induction j generalizing level with
  | zero => simp [treePairs]
  | succ j ih =>
      rw [Nat.succ_add, treePairs, ih, treePairs, Function.iterate_succ_apply, List.append_assoc]

/-- Climbing stops at the root of `height` levels. -/
private theorem climb_eq (fuel : Nat) (leaves : List N) (nonempty : leaves ≠ [])
    (enough : leaves.length ≤ fuel + 1) :
    ∃ r, climb combine fuel leaves = some r ∧
      (parents combine)^[height leaves.length] leaves = [r] := by
  induction fuel generalizing leaves with
  | zero =>
      match leaves, nonempty with
      | [a], _ => exact ⟨a, rfl, by simp [height]⟩
      | a :: b :: rest, _ => simp at enough
  | succ fuel ih =>
      match leaves, nonempty with
      | [a], _ => exact ⟨a, by simp [climb], by simp [height]⟩
      | a :: b :: rest, _ =>
          have length := parents_length combine (a :: b :: rest)
          simp only [List.length_cons] at length enough
          obtain ⟨r, climbed, top⟩ := ih (parents combine (a :: b :: rest))
            (by simp [parents, pairs]) (by omega)
          refine ⟨r, by rw [climb]; exact climbed, ?_⟩
          have up : height (a :: b :: rest).length =
              height (parents combine (a :: b :: rest)).length + 1 := by
            rw [height, height, length, Nat.clog_of_two_le (by omega) (by simp)]
            rfl
          rw [up, Function.iterate_succ_apply]
          exact top

/-- A nonempty list of leaves has one root, `height` levels up. -/
theorem root_eq_some (leaves : List N) (r : N) :
    root combine leaves = some r ↔
      leaves ≠ [] ∧ (parents combine)^[height leaves.length] leaves = [r] := by
  rcases leaves with _ | ⟨a, rest⟩
  · simp [root, climb]
  · obtain ⟨s, climbed, top⟩ := climb_eq combine (a :: rest).length (a :: rest) (by simp) (by simp)
    rw [root, climbed, top]
    simp

theorem root_isSome (leaves : List N) (nonempty : leaves ≠ []) :
    ∃ r, root combine leaves = some r := by
  obtain ⟨r, climbed, -⟩ := climb_eq combine leaves.length leaves nonempty (by omega)
  exact ⟨r, climbed⟩

theorem le_two_pow_height (n : Nat) : n ≤ 2 ^ height n :=
  Nat.le_pow_clog (by omega) n

end PrivateBtc.Library.HashTree
