/- PrivateBtc/Library/Binary64
   digest: Rounding of natural numbers to the 53-bit significand of a double. -/

import Mathlib.Data.Nat.Log
import Mathlib.Tactic.NormNum

set_option autoImplicit false
set_option relaxedAutoImplicit false

namespace PrivateBtc.Library.Binary64

/-- The nearest double of a natural number, ties to the even significand. -/
def ofNat (n : Nat) : Nat :=
  let unit := 2 ^ (n.log2 - 52)
  let low := n / unit
  let rest := n % unit
  if 2 * rest < unit ∨ (2 * rest = unit ∧ low % 2 = 0) then low * unit else (low + 1) * unit

/-- Below 2^53 every integer is a double. -/
theorem ofNat_of_lt {n : Nat} (small : n < 2 ^ 53) : ofNat n = n := by
  have exponent : n.log2 - 52 = 0 := by
    rcases Nat.eq_zero_or_pos n with rfl | positive
    · rfl
    · have bound := (Nat.log2_lt (by omega)).mpr small
      omega
  simp [ofNat, exponent, Nat.mod_one]

end PrivateBtc.Library.Binary64
