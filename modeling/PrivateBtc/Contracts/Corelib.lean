/- PrivateBtc/Contracts/Corelib
   digest: The Cairo types and checked operations that the contracts use. -/

import Mathlib.Algebra.Ring.Nat
import Mathlib.Logic.Function.Basic
import Mathlib.Tactic.SplitIfs
import PrivateBtc.Library.Outcome

set_option autoImplicit false
set_option relaxedAutoImplicit false

namespace PrivateBtc.Contracts.Corelib

open Library.Outcome

abbrev Felt := Fin (2 ^ 251 + 17 * 2 ^ 192 + 1)

abbrev ContractAddress := Felt

abbrev U256 := Fin (2 ^ 256)

instance (priority := 2000) felt_neZero : NeZero (2 ^ 251 + 17 * 2 ^ 192 + 1) := ⟨Nat.succ_ne_zero _⟩

instance (priority := 2000) u256_neZero : NeZero (2 ^ 256) := ⟨by decide⟩

def assert (condition : Bool) (message : String) : Except String Unit :=
  if condition then .ok () else .error message

def addU256 (a b : U256) : Except String U256 :=
  if fits : a.val + b.val < 2 ^ 256 then .ok ⟨a.val + b.val, fits⟩ else .error "u256_add Overflow"

def subU256 (a b : U256) : Except String U256 :=
  if b ≤ a then .ok ⟨a.val - b.val, by omega⟩ else .error "u256_sub Overflow"

theorem assert_ok {condition : Bool} {message : String} {u : Unit} :
    assert condition message = .ok u ↔ condition = true := by
  cases condition <;> simp [assert]

theorem assert_fails {allowed : String → Prop} {condition : Bool} {message : String}
    (known : condition = false → allowed message) : Fails allowed (assert condition message) := by
  cases condition with
  | false => exact fails_error (known rfl)
  | true => exact fails_ok ()

theorem assert_error {condition : Bool} {message e : String} :
    assert condition message = .error e ↔ condition = false ∧ message = e := by
  cases condition <;> simp [assert]

theorem addU256_fails (a b : U256) : Fails (· = "u256_add Overflow") (addU256 a b) := by
  unfold addU256
  split_ifs
  · exact fails_ok _
  · exact fails_error rfl

theorem addU256_ok {a b c : U256} : addU256 a b = .ok c ↔ a.val + b.val = c.val := by
  unfold addU256
  split_ifs with fits
  · simp [Fin.ext_iff]
  · simp only [false_iff]
    omega

theorem subU256_ok {a b c : U256} : subU256 a b = .ok c ↔ c.val + b.val = a.val := by
  unfold subU256
  split_ifs with fits
  · rw [Fin.le_def] at fits
    simp only [Except.ok.injEq, Fin.ext_iff]
    omega
  · rw [Fin.le_def] at fits
    simp only [false_iff]
    omega

end PrivateBtc.Contracts.Corelib
