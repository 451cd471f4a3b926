/- PrivateBtc/Library/Greedy
   digest: Largest-first selection: the first prefix that covers is a shortest sublist that does. -/

import Mathlib.Algebra.BigOperators.Group.List.Basic
import Mathlib.Algebra.Order.Monoid.Defs
import Mathlib.Data.List.Sort

set_option autoImplicit false
set_option relaxedAutoImplicit false

namespace PrivateBtc.Library.Greedy

universe u v

variable {A : Type u}

/-- Take items one by one and stop at the first list that is accepted. -/
def firstPrefix (accepts : List A → Bool) (taken : List A) : List A → Option (List A)
  | [] => none
  | a :: rest =>
      if accepts (taken ++ [a]) then some (taken ++ [a])
      else firstPrefix accepts (taken ++ [a]) rest

section Prefixes

variable (accepts : List A → Bool)

theorem firstPrefix_eq_none (taken rest : List A) :
    firstPrefix accepts taken rest = none ↔
      ∀ k, 0 < k → k ≤ rest.length → accepts (taken ++ rest.take k) = false := by
  induction rest generalizing taken with
  | nil =>
      refine iff_of_true rfl ?_
      intro k positive inside
      simp only [List.length_nil] at inside
      omega
  | cons a rest ih =>
      rw [firstPrefix]
      by_cases first : accepts (taken ++ [a]) = true
      · rw [if_pos first]
        refine iff_of_false (by simp) ?_
        intro none
        have refused := none 1 Nat.one_pos (by simp)
        simp [first] at refused
      · rw [if_neg first, ih]
        constructor
        · intro none k positive inside
          rcases Nat.eq_or_lt_of_le (Nat.succ_le_of_lt positive) with rfl | more
          · simpa using first
          · obtain ⟨j, rfl⟩ : ∃ j, k = j + 1 := ⟨k - 1, by omega⟩
            have refused := none j (by omega) (by simpa using inside)
            simpa using refused
        · intro none k positive inside
          have refused := none (k + 1) (Nat.succ_pos k) (by simpa using inside)
          simpa using refused

theorem firstPrefix_eq_some {taken rest selected : List A}
    (found : firstPrefix accepts taken rest = some selected) :
    ∃ k, 0 < k ∧ k ≤ rest.length ∧ selected = taken ++ rest.take k ∧
      accepts selected = true ∧ ∀ j, 0 < j → j < k → accepts (taken ++ rest.take j) = false := by
  induction rest generalizing taken with
  | nil => cases found
  | cons a rest ih =>
      rw [firstPrefix] at found
      by_cases first : accepts (taken ++ [a]) = true
      · rw [if_pos first, Option.some_inj] at found
        subst found
        exact ⟨1, Nat.one_pos, by simp, by simp, first, by omega⟩
      · rw [if_neg first] at found
        obtain ⟨k, positive, inside, rfl, accepted, shortest⟩ := ih found
        refine ⟨k + 1, Nat.succ_pos k, by simpa using inside, by simp, accepted, ?_⟩
        intro j positive' before
        rcases Nat.eq_or_lt_of_le (Nat.succ_le_of_lt positive') with rfl | more
        · simpa using first
        · obtain ⟨i, rfl⟩ : ∃ i, j = i + 1 := ⟨j - 1, by omega⟩
          have refused := shortest i (by omega) (by omega)
          simpa using refused

end Prefixes

section Covering

variable {M : Type v} [AddCommMonoid M] (value : A → M)

def total (items : List A) : M := (items.map value).sum

theorem total_perm {items items' : List A} (perm : items.Perm items') :
    total value items = total value items' :=
  (perm.map value).sum_eq

@[simp] theorem total_cons (a : A) (items : List A) :
    total value (a :: items) = value a + total value items := by
  rw [total, List.map_cons, List.sum_cons, total]

variable [LinearOrder M] [IsOrderedAddMonoid M]

/-- Under a head that no item exceeds, a longer front is worth at most the head more. -/
private theorem total_take_succ_le {a : A} {items : List A}
    (head : ∀ b ∈ items, value b ≤ value a) {k : Nat} (inside : k < items.length) :
    total value (items.take (k + 1)) ≤ value a + total value (items.take k) := by
  have front : items.take (k + 1) = items.take k ++ [items[k]] := by
    rw [List.take_concat_get']
  rw [front, total, List.map_append, List.sum_append, List.map_singleton, List.sum_singleton,
    add_comm, total]
  exact add_le_add_left (head _ (List.getElem_mem inside)) _

/-- Of all sublists of one length the front of a descending list is worth the most. -/
theorem total_sublist_le {items S : List A} (descending : items.Pairwise fun a b => value b ≤ value a)
    (sublist : S.Sublist items) : total value S ≤ total value (items.take S.length) := by
  induction sublist with
  | slnil => exact le_rfl
  | @cons S items a sublist ih =>
      obtain ⟨head, tail⟩ := List.pairwise_cons.mp descending
      have below := ih tail
      cases S with
      | nil => exact le_rfl
      | cons b S =>
          have inside : S.length < items.length := sublist.length_le
          rw [List.length_cons, List.take_succ_cons, total_cons value a]
          exact below.trans (total_take_succ_le value head inside)
  | @cons_cons S items a sublist ih =>
      obtain ⟨-, tail⟩ := List.pairwise_cons.mp descending
      rw [List.length_cons, List.take_succ_cons, total_cons, total_cons]
      exact add_le_add_right (ih tail) _

/-- The chosen items cover the target and the fee for their number. -/
def Covers (fee : Nat → M) (target : M) (S : List A) : Prop :=
  S ≠ [] ∧ target + fee S.length ≤ total value S

/-- A shortest choice among the items that covers. -/
structure Shortest (fee : Nat → M) (target : M) (items S : List A) : Prop where
  among : S.Subperm items
  covers : Covers value fee target S
  shortest : ∀ S' : List A, S'.Subperm items → Covers value fee target S' → S.length ≤ S'.length

variable {value} {fee : Nat → M} {target : M} {items sorted : List A}

/-- A choice that covers has a front of its length that covers. -/
private theorem covers_take (perm : sorted.Perm items)
    (descending : sorted.Pairwise fun a b => value b ≤ value a) {S : List A}
    (among : S.Subperm items) (covers : Covers value fee target S) :
    0 < S.length ∧ S.length ≤ sorted.length ∧
      target + fee S.length ≤ total value (sorted.take S.length) := by
  obtain ⟨S', same, sublist⟩ := among.trans perm.symm.subperm
  have front := total_sublist_le value descending sublist
  rw [total_perm value same, same.length_eq] at front
  refine ⟨List.length_pos_of_ne_nil covers.1, ?_, covers.2.trans front⟩
  rw [← same.length_eq]
  exact sublist.length_le

variable {accepts : List A → Bool}

/-- Largest first gives up only when no choice covers. -/
theorem greedy_eq_none (perm : sorted.Perm items)
    (descending : sorted.Pairwise fun a b => value b ≤ value a)
    (test : ∀ S, accepts S = true ↔ target + fee S.length ≤ total value S) :
    firstPrefix accepts [] sorted = none ↔
      ¬ ∃ S : List A, S.Subperm items ∧ Covers value fee target S := by
  rw [firstPrefix_eq_none]
  constructor
  · rintro refused ⟨S, among, covers⟩
    obtain ⟨positive, inside, enough⟩ := covers_take perm descending among covers
    have failed := refused S.length positive inside
    have accepted := (test (sorted.take S.length)).mpr
      (by rwa [List.length_take, min_eq_left inside])
    rw [List.nil_append, accepted] at failed
    cases failed
  · intro none k positive inside
    by_contra accepted
    rw [List.nil_append, Bool.not_eq_false] at accepted
    refine none ⟨sorted.take k, ?_, ?_, (test _).mp accepted⟩
    · exact (List.take_sublist k sorted).subperm.trans perm.subperm
    · intro empty
      have length := congrArg List.length empty
      rw [List.length_take, List.length_nil] at length
      omega

/-- What largest first chooses is a shortest choice that covers. -/
theorem greedy_shortest (perm : sorted.Perm items)
    (descending : sorted.Pairwise fun a b => value b ≤ value a)
    (test : ∀ S, accepts S = true ↔ target + fee S.length ≤ total value S) {selected : List A}
    (found : firstPrefix accepts [] sorted = some selected) :
    Shortest value fee target items selected := by
  obtain ⟨k, positive, inside, taken, accepted, shortest⟩ := firstPrefix_eq_some accepts found
  rw [List.nil_append] at taken
  have count : selected.length = k := by
    rw [taken, List.length_take, min_eq_left inside]
  refine ⟨?_, ⟨?_, (test selected).mp accepted⟩, ?_⟩
  · rw [taken]
    exact (List.take_sublist k sorted).subperm.trans perm.subperm
  · exact List.ne_nil_of_length_pos (by omega)
  · intro S among covers
    obtain ⟨positive', inside', enough⟩ := covers_take perm descending among covers
    by_contra fewer
    have refused := shortest S.length positive' (by omega)
    have accepted' := (test (sorted.take S.length)).mpr
      (by rwa [List.length_take, min_eq_left inside'])
    rw [List.nil_append, accepted'] at refused
    cases refused

end Covering

end PrivateBtc.Library.Greedy
