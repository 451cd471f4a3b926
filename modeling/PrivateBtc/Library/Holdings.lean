/- PrivateBtc/Library/Holdings
   digest: The total of a finite table of amounts when an amount is added to it or moved in it. -/

import Mathlib.Algebra.BigOperators.Group.Finset.Piecewise
import Mathlib.Algebra.Order.BigOperators.Group.Finset
import Mathlib.Algebra.Order.Group.Nat
import Mathlib.Data.Fintype.Basic

set_option autoImplicit false
set_option relaxedAutoImplicit false

namespace PrivateBtc.Library.Holdings

universe u

variable {K : Type u}

def total [Fintype K] (table : K → Nat) : Nat := ∑ key, table key

/-- The amount, at its own key only. -/
def only [DecidableEq K] (own : K) (amount : Nat) (key : K) : Nat :=
  if key = own then amount else 0

section Sums

variable [Fintype K]

theorem total_add (table other : K → Nat) :
    total (fun key => table key + other key) = total table + total other :=
  Finset.sum_add_distrib

theorem total_zero : total (fun _ : K => 0) = 0 := Finset.sum_const_zero

theorem le_total (table : K → Nat) (key : K) : table key ≤ total table :=
  Finset.single_le_sum (fun _ _ => Nat.zero_le _) (Finset.mem_univ key)

end Sums

variable [Fintype K] [DecidableEq K]

theorem total_only (own : K) (amount : Nat) : total (only own amount) = amount := by
  rw [total]
  exact (Finset.sum_ite_eq' Finset.univ own fun _ => amount).trans (if_pos (Finset.mem_univ own))

theorem total_credit {table table' : K → Nat} {own : K} {amount : Nat}
    (credited : ∀ key, table' key = table key + only own amount key) :
    total table' = total table + amount := by
  rw [funext credited, total_add, total_only]

/-- A move leaves the total alone, also where both keys are the same. -/
theorem total_move {table table' : K → Nat} {source target : K} {amount : Nat}
    (moved : ∀ key, table' key + only source amount key = table key + only target amount key) :
    total table' = total table := by
  have sums := congrArg total (funext moved)
  rw [total_add, total_add, total_only, total_only] at sums
  exact Nat.add_right_cancel sums

/-- Two keys together hold no more than all do. -/
theorem pair_le_total (table : K → Nat) {key other : K} (distinct : key ≠ other) :
    table key + table other ≤ total table := by
  rw [← Finset.sum_pair distinct]
  exact Finset.sum_le_sum_of_subset (Finset.subset_univ _)

end PrivateBtc.Library.Holdings
