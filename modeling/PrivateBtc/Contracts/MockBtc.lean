/- PrivateBtc/Contracts/MockBtc
   digest: The token contract; each call moves exactly what it names or changes nothing. -/

import PrivateBtc.Contracts.Corelib

set_option autoImplicit false
set_option relaxedAutoImplicit false

namespace PrivateBtc.Contracts.MockBtc

open Library.Outcome Corelib

inductive Event where
  | transfer (sender recipient : ContractAddress) (value : U256)
  | approval (owner spender : ContractAddress) (value : U256)
  deriving DecidableEq

/-- The storage, and the events emitted so far. -/
structure Token where
  totalSupply : U256
  balances : ContractAddress → U256
  allowances : ContractAddress → ContractAddress → U256
  events : List Event

namespace Token

def setBalance (self : Token) (account : ContractAddress) (value : U256) : Token :=
  { self with balances := Function.update self.balances account value }

theorem setBalance_self (self : Token) (account : ContractAddress) (value : U256) :
    (self.setBalance account value).balances account = value := Function.update_self ..

theorem setBalance_other (self : Token) {account other : ContractAddress} (value : U256)
    (distinct : other ≠ account) :
    (self.setBalance account value).balances other = self.balances other :=
  Function.update_of_ne distinct ..

def emit (self : Token) (event : Event) : Token :=
  { self with events := self.events ++ [event] }

end Token

namespace InternalFunctions

def mint (self : Token) (recipient : ContractAddress) (amount : U256) : Except String Token := do
  assert (recipient ≠ 0) "ERC20: mint to 0"
  let supply ← addU256 self.totalSupply amount
  let self := { self with totalSupply := supply }
  let balance ← addU256 (self.balances recipient) amount
  pure ((self.setBalance recipient balance).emit (.transfer 0 recipient amount))

def transfer (self : Token) (sender recipient : ContractAddress) (amount : U256) :
    Except String Token := do
  assert (sender ≠ 0) "ERC20: transfer from 0"
  assert (recipient ≠ 0) "ERC20: transfer to 0"
  assert (amount ≤ self.balances sender) "ERC20: insufficient balance"
  let rest ← subU256 (self.balances sender) amount
  let self := self.setBalance sender rest
  -- read after the first write, so a transfer to oneself sees the reduced balance
  let balance ← addU256 (self.balances recipient) amount
  pure ((self.setBalance recipient balance).emit (.transfer sender recipient amount))

def approve (self : Token) (owner spender : ContractAddress) (amount : U256) :
    Except String Token := do
  assert (owner ≠ 0) "ERC20: approve from 0"
  assert (spender ≠ 0) "ERC20: approve to 0"
  let allowances := Function.update self.allowances owner
    (Function.update (self.allowances owner) spender amount)
  pure ({ self with allowances := allowances }.emit (.approval owner spender amount))

def spendAllowance (self : Token) (owner spender : ContractAddress) (amount : U256) :
    Except String Token := do
  let currentAllowance := self.allowances owner spender
  if currentAllowance ≠ Fin.last (2 ^ 256 - 1) then
    assert (amount ≤ currentAllowance) "ERC20: insufficient allowance"
    let rest ← subU256 currentAllowance amount
    approve self owner spender rest
  else
    pure self

end InternalFunctions

/-- The constructor mints 100,000 tokens of 18 decimals to `recipient`. -/
def initialMint : U256 := 100000 * 1000000000000000000

def constructor (recipient : ContractAddress) : Except String Token :=
  InternalFunctions.mint ⟨0, fun _ => 0, fun _ _ => 0, []⟩ recipient initialMint

def totalSupply (self : Token) : U256 := self.totalSupply

def balanceOf (self : Token) (account : ContractAddress) : U256 := self.balances account

def allowance (self : Token) (owner spender : ContractAddress) : U256 :=
  self.allowances owner spender

def transfer (self : Token) (caller recipient : ContractAddress) (amount : U256) :
    Except String (Token × Bool) := do
  pure (← InternalFunctions.transfer self caller recipient amount, true)

def approve (self : Token) (caller spender : ContractAddress) (amount : U256) :
    Except String (Token × Bool) := do
  pure (← InternalFunctions.approve self caller spender amount, true)

def transferFrom (self : Token) (caller sender recipient : ContractAddress) (amount : U256) :
    Except String (Token × Bool) := do
  let self ← InternalFunctions.spendAllowance self sender caller amount
  pure (← InternalFunctions.transfer self sender recipient amount, true)

/-- Open to every caller. -/
def mint (self : Token) (recipient : ContractAddress) (amount : U256) : Except String Token :=
  InternalFunctions.mint self recipient amount

/-- The amount, where the account is the one it is moved from or to. -/
def share (account party : ContractAddress) (amount : U256) : Nat :=
  if account = party then amount.val else 0

namespace InternalFunctions

theorem mint_ok {self self' : Token} {recipient : ContractAddress} {amount : U256}
    (accepted : mint self recipient amount = .ok self') :
    recipient ≠ 0 ∧ self'.totalSupply.val = self.totalSupply.val + amount.val ∧
      (∀ x, (self'.balances x).val = (self.balances x).val + share x recipient amount) ∧
      self'.allowances = self.allowances := by
  simp only [mint, bind_eq_ok, assert_ok, addU256_ok, pure_eq_ok, Except.ok.injEq] at accepted
  obtain ⟨_, nonzero, supply, total, balance, sum, rfl⟩ := accepted
  refine ⟨by simpa using nonzero, total.symm, ?_, rfl⟩
  intro x
  by_cases own : x = recipient
  · subst own
    simp [Token.emit, Token.setBalance, share, sum]
  · simp [Token.emit, Token.setBalance, share, own]

theorem mint_fails (self : Token) (recipient : ContractAddress) (amount : U256) :
    Fails (· ∈ ["ERC20: mint to 0", "u256_add Overflow"]) (mint self recipient amount) := by
  have overflow (a b : U256) :
      Fails (· ∈ ["ERC20: mint to 0", "u256_add Overflow"]) (addU256 a b) := by
    intro e failed
    simp [addU256_fails a b e failed]
  unfold mint
  refine (assert_fails fun _ => by simp).bind ?_
  intro _ _
  apply (overflow _ _).bind
  intro supply _
  apply (overflow _ _).bind
  intro balance _
  exact fails_ok _

theorem transfer_ok {self self' : Token} {sender recipient : ContractAddress} {amount : U256}
    (accepted : transfer self sender recipient amount = .ok self') :
    sender ≠ 0 ∧ recipient ≠ 0 ∧ amount ≤ self.balances sender ∧
      (∀ x, (self'.balances x).val + share x sender amount =
        (self.balances x).val + share x recipient amount) ∧
      self'.totalSupply = self.totalSupply ∧ self'.allowances = self.allowances := by
  simp only [transfer, bind_eq_ok, assert_ok, addU256_ok, subU256_ok, pure_eq_ok,
    Except.ok.injEq] at accepted
  obtain ⟨_, fromNonzero, _, toNonzero, _, enough, rest, taken, balance, sum, rfl⟩ := accepted
  refine ⟨by simpa using fromNonzero, by simpa using toNonzero, by simpa using enough, ?_, rfl, rfl⟩
  intro x
  by_cases same : recipient = sender
  · subst same
    by_cases own : x = recipient
    · subst own
      simp only [Token.setBalance, Function.update_self] at sum
      simp only [Token.emit, Token.setBalance, share, Function.update_self, if_true]
      omega
    · simp [Token.emit, Token.setBalance, share, own]
  · simp only [Token.setBalance, Function.update_of_ne same] at sum
    by_cases out : x = sender
    · subst out
      have other : x ≠ recipient := fun equal => same equal.symm
      simp only [Token.emit, Token.setBalance, share, Function.update_of_ne other,
        Function.update_self, if_true, if_neg other]
      omega
    · by_cases into : x = recipient
      · subst into
        simp only [Token.emit, Token.setBalance, share, Function.update_self, if_true, if_neg out]
        omega
      · simp [Token.emit, Token.setBalance, share, out, into]

/-- A transfer succeeds exactly when both parties exist, the sender can pay and the
recipient's balance has room; a transfer to oneself always has. -/
theorem transfer_accepted_iff (self : Token) (sender recipient : ContractAddress) (amount : U256) :
    (∃ self', transfer self sender recipient amount = .ok self') ↔
      sender ≠ 0 ∧ recipient ≠ 0 ∧ amount ≤ self.balances sender ∧
        (recipient = sender ∨ (self.balances recipient).val + amount.val < 2 ^ 256) := by
  constructor
  · rintro ⟨self', moved⟩
    obtain ⟨fromNonzero, toNonzero, enough, balances, -⟩ := transfer_ok moved
    refine ⟨fromNonzero, toNonzero, enough, ?_⟩
    by_cases same : recipient = sender
    · exact Or.inl same
    · have credit := balances recipient
      rw [share, share, if_neg same, if_pos rfl] at credit
      have bound := (self'.balances recipient).isLt
      exact Or.inr (by omega)
  · rintro ⟨fromNonzero, toNonzero, enough, room⟩
    have within : amount.val ≤ (self.balances sender).val := enough
    let rest : U256 := ⟨(self.balances sender).val - amount.val, by omega⟩
    have taken : subU256 (self.balances sender) amount = .ok rest :=
      subU256_ok.mpr (Nat.sub_add_cancel within)
    have fits : ((self.setBalance sender rest).balances recipient).val + amount.val < 2 ^ 256 := by
      by_cases same : recipient = sender
      · subst same
        have bound := (self.balances recipient).isLt
        rw [Token.setBalance_self]
        show (self.balances recipient).val - amount.val + amount.val < 2 ^ 256
        omega
      · rw [Token.setBalance_other self rest same]
        exact room.resolve_left same
    let credit : U256 := ⟨_, fits⟩
    have added : addU256 ((self.setBalance sender rest).balances recipient) amount =
        .ok credit := addU256_ok.mpr rfl
    refine ⟨((self.setBalance sender rest).setBalance recipient credit).emit
      (.transfer sender recipient amount), ?_⟩
    simp only [transfer, assert, fromNonzero, toNonzero, enough, taken, added, ne_eq,
      not_false_eq_true, decide_true, if_true, ok_bind, pure_eq_ok]

theorem approve_ok {self self' : Token} {owner spender : ContractAddress} {amount : U256}
    (accepted : approve self owner spender amount = .ok self') :
    owner ≠ 0 ∧ spender ≠ 0 ∧ self'.balances = self.balances ∧
      self'.totalSupply = self.totalSupply ∧
      ∀ o s, self'.allowances o s =
        if o = owner ∧ s = spender then amount else self.allowances o s := by
  simp only [approve, bind_eq_ok, assert_ok, pure_eq_ok, Except.ok.injEq] at accepted
  obtain ⟨_, ownerNonzero, _, spenderNonzero, rfl⟩ := accepted
  refine ⟨by simpa using ownerNonzero, by simpa using spenderNonzero, rfl, rfl, ?_⟩
  intro o s
  by_cases own : o = owner
  · subst own
    by_cases spend : s = spender
    · subst spend
      simp [Token.emit]
    · simp [Token.emit, spend]
  · simp [Token.emit, own]

/-- Spending lowers a finite allowance by the amount and touches nothing else. -/
theorem spendAllowance_ok {self self' : Token} {owner spender : ContractAddress} {amount : U256}
    (accepted : spendAllowance self owner spender amount = .ok self') :
    self'.balances = self.balances ∧ self'.totalSupply = self.totalSupply ∧
      ((self.allowances owner spender = Fin.last (2 ^ 256 - 1) ∧
          self'.allowances = self.allowances) ∨
        (self'.allowances owner spender).val + amount.val =
            (self.allowances owner spender).val ∧
          ∀ o s, ¬ (o = owner ∧ s = spender) →
            self'.allowances o s = self.allowances o s) := by
  unfold spendAllowance at accepted
  dsimp only at accepted
  split_ifs at accepted with finite
  · simp only [bind_eq_ok, assert_ok, subU256_ok] at accepted
    obtain ⟨_, _, rest, taken, approved⟩ := accepted
    obtain ⟨_, _, balances, supply, allowances⟩ := approve_ok approved
    refine ⟨balances, supply, Or.inr ⟨?_, ?_⟩⟩
    · rw [allowances, if_pos ⟨rfl, rfl⟩, taken]
    · intro o s other
      rw [allowances, if_neg other]
  · rw [pure_eq_ok, Except.ok.injEq] at accepted
    subst accepted
    exact ⟨rfl, rfl, Or.inl ⟨not_not.mp finite, rfl⟩⟩

end InternalFunctions

end PrivateBtc.Contracts.MockBtc
