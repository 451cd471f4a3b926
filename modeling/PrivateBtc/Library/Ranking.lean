/- PrivateBtc/Library/Ranking
   digest: The first element of a class in a ranked list is one that nothing in the class precedes. -/

import Mathlib.Data.List.Sort

set_option autoImplicit false
set_option relaxedAutoImplicit false

namespace PrivateBtc.Library.Ranking

variable {A : Type} (r : A → A → Prop) [DecidableRel r]

theorem find_ranked_none {items : List A} {p : A → Bool} :
    (items.insertionSort r).find? p = none ↔ items.filter p = [] := by
  rw [List.find?_eq_none, List.filter_eq_nil_iff]
  simp only [List.mem_insertionSort]

theorem head_ranked (items : List A) :
    (items.insertionSort r).head? = (items.insertionSort r).find? fun _ => true := by
  cases items.insertionSort r <;> rfl

variable [Std.Total r] [IsTrans A r]

theorem find_ranked {items : List A} {p : A → Bool} {chosen : A}
    (found : (items.insertionSort r).find? p = some chosen) :
    chosen ∈ items.filter p ∧ ∀ other ∈ items.filter p, r chosen other := by
  obtain ⟨holds, before, after, split, passed⟩ := List.find?_eq_some_iff_append.mp found
  have ranked := List.pairwise_insertionSort r items
  have member : chosen ∈ items := by
    rw [← List.mem_insertionSort r, split]
    simp
  refine ⟨List.mem_filter.mpr ⟨member, holds⟩, ?_⟩
  intro other inside
  obtain ⟨listed, matched⟩ := List.mem_filter.mp inside
  rw [← List.mem_insertionSort r, split, List.mem_append, List.mem_cons] at listed
  rw [split] at ranked
  rcases listed with early | rfl | late
  · have skipped := passed other early
    simp [matched] at skipped
  · exact Std.Refl.refl other
  · exact (List.pairwise_cons.mp (List.pairwise_append.mp ranked).2.1).1 other late

end PrivateBtc.Library.Ranking
