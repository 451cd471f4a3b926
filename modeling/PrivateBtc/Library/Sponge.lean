/- PrivateBtc/Library/Sponge
   digest: Two paddings of an element meet only where the permutation collides in its first word. -/

import Mathlib.Algebra.Group.Basic
import Mathlib.Algebra.NeZero
import Mathlib.Logic.Equiv.Defs

set_option autoImplicit false
set_option relaxedAutoImplicit false

namespace PrivateBtc.Library.Sponge

/-- Two words of rate and one of capacity. -/
abbrev Words (F : Type) := F × F × F

variable {F : Type} (P : Equiv.Perm (Words F))

/-- The hash of two elements under a capacity of their own. -/
def hashPair (capacity x y : F) : F := (P (x, y, capacity)).1

/-- Different states whose images share the first word. -/
def Collides (s t : Words F) : Prop := s ≠ t ∧ (P s).1 = (P t).1

section Span

variable [AddMonoid F] [One F]

/-- Elements are added by twos; a one stands after the last. -/
def absorb : Words F → List F → Words F
  | (s0, s1, s2), [] => P (s0 + 1, s1, s2)
  | (s0, s1, s2), [x] => P (s0 + x, s1 + 1, s2)
  | (s0, s1, s2), x :: y :: rest => absorb (P (s0 + x, s1 + y, s2)) rest

def hashSpan (span : List F) : F := (absorb P (0, 0, 0) span).1

end Span

variable {P}

theorem hashPair_eq_hashPair [Zero F] {capacity x y : F} :
    hashPair P capacity y 0 = hashPair P capacity x 0 ↔
      y = x ∨ Collides P (x, 0, capacity) (y, 0, capacity) := by
  constructor
  · intro meet
    by_cases same : y = x
    · exact Or.inl same
    · refine Or.inr ⟨?_, meet.symm⟩
      intro equal
      exact same (congrArg Prod.fst equal).symm
  · rintro (rfl | collides)
    · rfl
    · exact collides.2.symm

theorem hashSpan_singleton [AddMonoid F] [One F] (x : F) : hashSpan P [x] = (P (x, 1, 0)).1 := by
  rw [hashSpan, absorb, zero_add, zero_add]

/-- The pair with zero and the span of one element are never the same state. -/
theorem hashPair_eq_hashSpan [AddMonoid F] [One F] [NeZero (1 : F)] {capacity x y : F} :
    hashSpan P [y] = hashPair P capacity x 0 ↔ Collides P (x, 0, capacity) (y, 1, 0) := by
  rw [hashSpan_singleton, hashPair, eq_comm]
  constructor
  · intro meet
    refine ⟨?_, meet⟩
    intro same
    have padding : (0 : F) = 1 := congrArg (fun s => s.2.1) same
    exact one_ne_zero padding.symm
  · exact fun collides => collides.2

end PrivateBtc.Library.Sponge
