/- PrivateBtc/Contracts/HonestToken
   digest: Tokens that move exactly the amount or revert; the repository's own token is one. -/

import PrivateBtc.Contracts.TokenRuns

set_option autoImplicit false
set_option relaxedAutoImplicit false

namespace PrivateBtc.Contracts.HonestToken

open Library.Holdings Library.Outcome Corelib MockBtc

/-- An honest token: a call moves exactly the amount or reverts, a spender needs an allowance,
and nobody else's call lowers a balance or raises an allowance. -/
structure Erc20 where
  State : Type
  Other : Type
  balance : State → ContractAddress → Nat
  allowance : State → ContractAddress → ContractAddress → Nat
  transfer : State → ContractAddress → ContractAddress → U256 → Except String State
  transferFrom : State → ContractAddress → ContractAddress → ContractAddress → U256 →
    Except String State
  other : State → ContractAddress → Other → Except String State
  /-- The panic of a transfer that the balance does not cover. -/
  insufficient : String
  transfer_moves : ∀ {s s' caller recipient amount},
    transfer s caller recipient amount = .ok s' →
      ∀ x, balance s' x + only caller amount.val x = balance s x + only recipient amount.val x
  transfer_grants : ∀ {s s' caller recipient amount},
    transfer s caller recipient amount = .ok s' →
      ∀ owner spender, allowance s' owner spender ≤ allowance s owner spender
  transfer_insufficient : ∀ {s caller recipient amount},
    transfer s caller recipient amount = .error insufficient → balance s caller < amount.val
  transferFrom_moves : ∀ {s s' caller sender recipient amount},
    transferFrom s caller sender recipient amount = .ok s' →
      ∀ x, balance s' x + only sender amount.val x = balance s x + only recipient amount.val x
  transferFrom_within : ∀ {s s' caller sender recipient amount},
    transferFrom s caller sender recipient amount = .ok s' →
      amount.val ≤ allowance s sender caller
  transferFrom_grants : ∀ {s s' caller sender recipient amount},
    transferFrom s caller sender recipient amount = .ok s' →
      ∀ owner spender, allowance s' owner spender ≤ allowance s owner spender
  other_keeps : ∀ {s s' caller call}, other s caller call = .ok s' →
    ∀ owner, owner ≠ caller → balance s owner ≤ balance s' owner ∧
      ∀ spender, allowance s' owner spender ≤ allowance s owner spender

/-- A call of the token. -/
inductive TokenCall (T : Erc20) where
  | transfer (recipient : ContractAddress) (amount : U256)
  | transferFrom (sender recipient : ContractAddress) (amount : U256)
  | other (call : T.Other)

def perform (T : Erc20) (s : T.State) (caller : ContractAddress) :
    TokenCall T → Except String T.State
  | .transfer recipient amount => T.transfer s caller recipient amount
  | .transferFrom sender recipient amount => T.transferFrom s caller sender recipient amount
  | .other call => T.other s caller call

/-- An owner who has given no allowance keeps what it holds whatever the others call. -/
theorem perform_keeps {T : Erc20} {s s' : T.State} {caller owner : ContractAddress}
    {call : TokenCall T} (performed : perform T s caller call = .ok s') (apart : owner ≠ caller)
    (ungranted : ∀ spender, T.allowance s owner spender = 0) :
    T.balance s owner ≤ T.balance s' owner ∧ ∀ spender, T.allowance s' owner spender = 0 := by
  cases call with
  | transfer recipient amount =>
      have balance := T.transfer_moves performed owner
      rw [only, if_neg apart] at balance
      have grants := T.transfer_grants performed owner
      exact ⟨by omega, fun spender => Nat.le_zero.mp (ungranted spender ▸ grants spender)⟩
  | transferFrom sender recipient amount =>
      have balance := T.transferFrom_moves performed owner
      have within := T.transferFrom_within performed
      have grants := T.transferFrom_grants performed owner
      have kept : only sender amount.val owner = 0 := by
        rw [only]
        split_ifs with own
        · subst own
          rw [ungranted] at within
          omega
        · rfl
      exact ⟨by omega, fun spender => Nat.le_zero.mp (ungranted spender ▸ grants spender)⟩
  | other call =>
      obtain ⟨balance, grants⟩ := T.other_keeps performed owner apart
      exact ⟨balance, fun spender => Nat.le_zero.mp (ungranted spender ▸ grants spender)⟩

section Mock

variable {s s' : Token} {caller sender recipient : ContractAddress} {amount : U256}

theorem mock_transfer_ok
    (performed : TokenRuns.execute s (.transfer caller recipient amount) = .ok s') :
    (∀ x, (s'.balances x).val + only caller amount.val x =
      (s.balances x).val + only recipient amount.val x) ∧
      ∀ owner spender, (s'.allowances owner spender).val ≤ (s.allowances owner spender).val := by
  obtain ⟨-, -, -, balances, -, allowances⟩ :=
    InternalFunctions.transfer_ok (TokenRuns.execute_transfer_ok performed)
  exact ⟨balances, fun owner spender => by rw [allowances]⟩

theorem mock_transfer_insufficient
    (failed : TokenRuns.execute s (.transfer caller recipient amount) =
      .error "ERC20: insufficient balance") : (s.balances caller).val < amount.val := by
  by_contra enough
  have covered : amount ≤ s.balances caller := not_lt.mp enough
  simp only [TokenRuns.execute, MockBtc.transfer, InternalFunctions.transfer, bind_eq_error,
    pure_eq_ok, assert_error, reduceCtorEq, and_false, exists_false, or_false] at failed
  rcases failed with ⟨-, refused⟩ | ⟨_, -, ⟨-, refused⟩ | ⟨_, -, ⟨short, -⟩ | ⟨_, -, refused |
    ⟨rest, -, refused⟩⟩⟩⟩
  · exact absurd refused (by decide)
  · exact absurd refused (by decide)
  · exact of_decide_eq_false short covered
  · rw [subU256, if_pos covered] at refused
    cases refused
  · exact absurd (addU256_fails _ _ _ refused) (by decide)

theorem mock_transferFrom_ok
    (performed : TokenRuns.execute s (.transferFrom caller sender recipient amount) = .ok s') :
    (∀ x, (s'.balances x).val + only sender amount.val x =
      (s.balances x).val + only recipient amount.val x) ∧
      amount.val ≤ (s.allowances sender caller).val ∧
      ∀ owner spender, (s'.allowances owner spender).val ≤ (s.allowances owner spender).val := by
  obtain ⟨spent, spends, moved⟩ := TokenRuns.execute_transferFrom_ok performed
  obtain ⟨-, -, -, balances, -, allowances⟩ := InternalFunctions.transfer_ok moved
  obtain ⟨same, -, granted⟩ := InternalFunctions.spendAllowance_ok spends
  rw [same] at balances
  rw [allowances]
  refine ⟨balances, ?_⟩
  rcases granted with ⟨unlimited, kept⟩ | ⟨taken, others⟩
  · rw [kept, unlimited]
    exact ⟨Nat.le_sub_one_of_lt amount.isLt, fun owner spender => le_refl _⟩
  · refine ⟨by omega, ?_⟩
    intro owner spender
    by_cases own : owner = sender ∧ spender = caller
    · obtain ⟨rfl, rfl⟩ := own
      omega
    · rw [others owner spender own]

end Mock

inductive MockOther where
  | approve (spender : ContractAddress) (amount : U256)
  | mint (recipient : ContractAddress) (amount : U256)

def MockOther.call (caller : ContractAddress) : MockOther → TokenRuns.Call
  | .approve spender amount => .approve caller spender amount
  | .mint recipient amount => .mint caller recipient amount

theorem mock_other_ok {s s' : Token} {caller : ContractAddress} {call : MockOther}
    (performed : TokenRuns.execute s (call.call caller) = .ok s') (owner : ContractAddress)
    (apart : owner ≠ caller) : (s.balances owner).val ≤ (s'.balances owner).val ∧
      ∀ spender, (s'.allowances owner spender).val ≤ (s.allowances owner spender).val := by
  cases call with
  | approve spender amount =>
      obtain ⟨-, -, balances, -, allowances⟩ :=
        InternalFunctions.approve_ok (TokenRuns.execute_approve_ok performed)
      refine ⟨by rw [balances], ?_⟩
      intro other
      rw [allowances, if_neg fun same => apart same.1]
  | mint recipient amount =>
      obtain ⟨-, -, balances, allowances⟩ := InternalFunctions.mint_ok performed
      exact ⟨by have balance := balances owner; omega, fun spender => by rw [allowances]⟩

def mockErc20 : Erc20 where
  State := Token
  Other := MockOther
  balance s account := (s.balances account).val
  allowance s owner spender := (s.allowances owner spender).val
  transfer s caller recipient amount := TokenRuns.execute s (.transfer caller recipient amount)
  transferFrom s caller sender recipient amount :=
    TokenRuns.execute s (.transferFrom caller sender recipient amount)
  other s caller call := TokenRuns.execute s (call.call caller)
  insufficient := "ERC20: insufficient balance"
  transfer_moves performed := (mock_transfer_ok performed).1
  transfer_grants performed := (mock_transfer_ok performed).2
  transfer_insufficient := mock_transfer_insufficient
  transferFrom_moves performed := (mock_transferFrom_ok performed).1
  transferFrom_within performed := (mock_transferFrom_ok performed).2.1
  transferFrom_grants performed := (mock_transferFrom_ok performed).2.2
  other_keeps := mock_other_ok

end PrivateBtc.Contracts.HonestToken
