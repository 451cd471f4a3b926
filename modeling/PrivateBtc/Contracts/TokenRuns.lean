/- PrivateBtc/Contracts/TokenRuns
   digest: Runs of token calls; the supply is the sum of the balances, so no balance overflows. -/

import PrivateBtc.Contracts.VaultRuns
import PrivateBtc.Library.Holdings

set_option autoImplicit false
set_option relaxedAutoImplicit false

namespace PrivateBtc.Contracts.TokenRuns

open Library Library.Holdings Library.Outcome Library.Transactional Corelib MockBtc

/-- The calls that accounts and contracts, the vault among them, can make to the token. -/
inductive Call where
  | mint (caller recipient : ContractAddress) (amount : U256)
  | transfer (caller recipient : ContractAddress) (amount : U256)
  | approve (caller spender : ContractAddress) (amount : U256)
  | transferFrom (caller sender recipient : ContractAddress) (amount : U256)

def execute (self : Token) : Call → Except String Token
  | .mint _ recipient amount => MockBtc.mint self recipient amount
  | .transfer caller recipient amount => do
      pure (← MockBtc.transfer self caller recipient amount).1
  | .approve caller spender amount => do
      pure (← MockBtc.approve self caller spender amount).1
  | .transferFrom caller sender recipient amount => do
      pure (← MockBtc.transferFrom self caller sender recipient amount).1

section Accepted

variable {self self' : Token} {caller sender recipient spender : ContractAddress} {amount : U256}

theorem execute_transfer_ok
    (accepted : execute self (.transfer caller recipient amount) = .ok self') :
    InternalFunctions.transfer self caller recipient amount = .ok self' := by
  simp only [execute, MockBtc.transfer, bind_eq_ok, pure_eq_ok, Except.ok.injEq] at accepted
  obtain ⟨_, ⟨token, moved, rfl⟩, rfl⟩ := accepted
  exact moved

theorem execute_approve_ok
    (accepted : execute self (.approve caller spender amount) = .ok self') :
    InternalFunctions.approve self caller spender amount = .ok self' := by
  simp only [execute, MockBtc.approve, bind_eq_ok, pure_eq_ok, Except.ok.injEq] at accepted
  obtain ⟨_, ⟨token, approved, rfl⟩, rfl⟩ := accepted
  exact approved

theorem execute_transferFrom_ok
    (accepted : execute self (.transferFrom caller sender recipient amount) = .ok self') :
    ∃ spent, InternalFunctions.spendAllowance self sender caller amount = .ok spent ∧
      InternalFunctions.transfer spent sender recipient amount = .ok self' := by
  simp only [execute, MockBtc.transferFrom, bind_eq_ok, pure_eq_ok, Except.ok.injEq] at accepted
  obtain ⟨_, ⟨spent, spends, token, moved, rfl⟩, rfl⟩ := accepted
  exact ⟨spent, spends, moved⟩

end Accepted

def holdings (self : Token) (account : ContractAddress) : Nat := (self.balances account).val

/-- The supply is the sum of all balances. -/
def Conserved (self : Token) : Prop := total (holdings self) = self.totalSupply.val

theorem conserved_mint {self self' : Token} {recipient : ContractAddress} {amount : U256}
    (conserved : Conserved self)
    (accepted : InternalFunctions.mint self recipient amount = .ok self') : Conserved self' := by
  obtain ⟨-, supply, balances, -⟩ := InternalFunctions.mint_ok accepted
  have credited : total (holdings self') = total (holdings self) + amount.val :=
    total_credit balances
  rw [Conserved, credited, conserved, supply]

theorem conserved_transfer {self self' : Token} {sender recipient : ContractAddress} {amount : U256}
    (conserved : Conserved self)
    (accepted : InternalFunctions.transfer self sender recipient amount = .ok self') :
    Conserved self' := by
  obtain ⟨-, -, -, balances, supply, -⟩ := InternalFunctions.transfer_ok accepted
  have moved : total (holdings self') = total (holdings self) := total_move balances
  rw [Conserved, moved, conserved, supply]

theorem conserved_spend {self spent : Token} {owner spender : ContractAddress} {amount : U256}
    (conserved : Conserved self)
    (accepted : InternalFunctions.spendAllowance self owner spender amount = .ok spent) :
    Conserved spent := by
  obtain ⟨balances, supply, -⟩ := InternalFunctions.spendAllowance_ok accepted
  have same : holdings spent = holdings self := by
    funext account
    rw [holdings, holdings, balances]
  rw [Conserved, same, conserved, supply]

theorem conserved_step {self self' : Token} {call : Call} (conserved : Conserved self)
    (accepted : execute self call = .ok self') : Conserved self' := by
  cases call with
  | mint caller recipient amount => exact conserved_mint conserved accepted
  | transfer caller recipient amount =>
      exact conserved_transfer conserved (execute_transfer_ok accepted)
  | approve caller spender amount =>
      obtain ⟨-, -, balances, supply, -⟩ :=
        InternalFunctions.approve_ok (execute_approve_ok accepted)
      have same : holdings self' = holdings self := by
        funext account
        rw [holdings, holdings, balances]
      rw [Conserved, same, conserved, supply]
  | transferFrom caller sender recipient amount =>
      obtain ⟨spent, spends, moved⟩ := execute_transferFrom_ok accepted
      exact conserved_transfer (conserved_spend conserved spends) moved

theorem conserved_constructor {token : Token} {recipient : ContractAddress}
    (deployed : MockBtc.constructor recipient = .ok token) : Conserved token := by
  have empty : Conserved ⟨0, fun _ => 0, fun _ _ => 0, []⟩ := total_zero
  exact conserved_mint empty deployed

theorem conserved_run {token : Token} (conserved : Conserved token) (calls : List Call) :
    Conserved (run execute token calls) :=
  run_history_invariant execute (fun _ => True) (fun _ self => Conserved self)
    (fun _ _ _ _ before _ accepted => conserved_step before accepted) [] token conserved calls
    fun _ _ => trivial

/-- The sums that the internal functions compute once their checks have passed fit. -/
structure Roomy (self : Token) : Prop where
  transfer : ∀ sender recipient amount rest, subU256 (self.balances sender) amount = .ok rest →
    ∃ balance, addU256 ((self.setBalance sender rest).balances recipient) amount = .ok balance
  mint : ∀ recipient amount supply, addU256 self.totalSupply amount = .ok supply →
    ∃ balance, addU256 (self.balances recipient) amount = .ok balance

theorem balance_le_supply {self : Token} (conserved : Conserved self)
    (account : ContractAddress) : self.balances account ≤ self.totalSupply := by
  have part := le_total (holdings self) account
  rw [conserved] at part
  exact part

theorem addU256_fits {a b : U256} (fits : a.val + b.val < 2 ^ 256) :
    ∃ c, addU256 a b = .ok c := ⟨⟨_, fits⟩, addU256_ok.mpr rfl⟩

theorem roomy_of_conserved {self : Token} (conserved : Conserved self) : Roomy self := by
  constructor
  · intro sender recipient amount rest taken
    have before := subU256_ok.mp taken
    apply addU256_fits
    by_cases same : recipient = sender
    · subst same
      have bound := (self.balances recipient).isLt
      rw [Token.setBalance_self]
      omega
    · -- two different accounts hold at most the supply together
      have both := pair_le_total (holdings self) same
      have bound := self.totalSupply.isLt
      rw [conserved, holdings, holdings] at both
      rw [Token.setBalance_other self rest same]
      omega
  · intro recipient amount supply added
    have sum := addU256_ok.mp added
    have part : (self.balances recipient).val ≤ self.totalSupply.val :=
      balance_le_supply conserved recipient
    have bound := supply.isLt
    exact addU256_fits (by omega)

/-- After every run of calls the supply is the sum of the balances; so no balance exceeds it
and no sum overflows where the checks before it have passed. -/
theorem supply_conserved (recipient : ContractAddress) (token : Token)
    (deployed : MockBtc.constructor recipient = .ok token) (calls : List Call) :
    let self := run execute token calls
    total (holdings self) = self.totalSupply.val ∧
      (∀ account, self.balances account ≤ self.totalSupply) ∧ Roomy self ∧
      ∀ owner spender amount spent,
        InternalFunctions.spendAllowance self owner spender amount = .ok spent → Roomy spent := by
  intro self
  have conserved : Conserved self := conserved_run (conserved_constructor deployed) calls
  refine ⟨conserved, balance_le_supply conserved, roomy_of_conserved conserved, ?_⟩
  intro owner spender amount spent spends
  exact roomy_of_conserved (conserved_spend conserved spends)

theorem genesis_token (genesis : Vault.Genesis) :
    MockBtc.constructor genesis.holder = .ok genesis.world.token := by
  have deployed := genesis.deployed
  simp only [Vault.deploy, bind_eq_ok, pure_eq_ok, Except.ok.injEq] at deployed
  obtain ⟨token, built, start⟩ := deployed
  rw [built]
  exact congrArg (fun w => Except.ok w.token) start

theorem supply_conserved_faucet :
    let self := run execute VaultRuns.robbedGenesis.world.token
      [.mint 14 14 5, .transfer 14 14 5, .transferFrom 12 14 13 1]
    total (holdings self) = self.totalSupply.val ∧
      (∀ account, self.balances account ≤ self.totalSupply) ∧ Roomy self ∧
      ∀ owner spender amount spent,
        InternalFunctions.spendAllowance self owner spender amount = .ok spent → Roomy spent :=
  supply_conserved 13 _ (genesis_token VaultRuns.robbedGenesis) _

section World

variable {sha : Hashing.HashFunction} {w w' : Vault.World}

/-- What a call of any of the contracts asks of the token: one call of it, or none. -/
theorem execute_token {call : Vault.Call} (accepted : Vault.execute sha w call = .ok w') :
    ∃ calls, w'.token = run execute w.token calls := by
  have one {token : Token} (call : Call) (made : execute w.token call = .ok token) :
      ∃ calls, token = run execute w.token calls := by
    refine ⟨[call], ?_⟩
    rw [run_cons, step, made]
    rfl
  cases call with
  | deposit caller args =>
      obtain ⟨script, token, -, -, -, -, -, -, -, minted, rfl⟩ := Vault.deposit_ok accepted
      exact one (.mint w.address w.address _) minted
  | withdraw caller args =>
      obtain ⟨token, -, -, -, moved, rfl⟩ := Vault.withdraw_ok accepted
      refine one (.transfer w.address args.recipient args.amount) ?_
      rw [execute, MockBtc.transfer, moved]
      rfl
  | storeHeader caller height merkleRoot =>
      simp only [Vault.execute, bind_eq_ok, pure_eq_ok, Except.ok.injEq] at accepted
      obtain ⟨headers, -, rfl⟩ := accepted
      exact ⟨[], rfl⟩
  | transfer caller recipient amount =>
      simp only [Vault.execute, bind_eq_ok, pure_eq_ok, Except.ok.injEq] at accepted
      obtain ⟨⟨token, answer⟩, moved, rfl⟩ := accepted
      refine one (.transfer caller recipient amount) ?_
      rw [execute, moved]
      rfl
  | approve caller spender amount =>
      simp only [Vault.execute, bind_eq_ok, pure_eq_ok, Except.ok.injEq] at accepted
      obtain ⟨⟨token, answer⟩, approved, rfl⟩ := accepted
      refine one (.approve caller spender amount) ?_
      rw [execute, approved]
      rfl
  | transferFrom caller sender recipient amount =>
      simp only [Vault.execute, bind_eq_ok, pure_eq_ok, Except.ok.injEq] at accepted
      obtain ⟨⟨token, answer⟩, moved, rfl⟩ := accepted
      refine one (.transferFrom caller sender recipient amount) ?_
      rw [execute, moved]
      rfl
  | mint caller recipient amount =>
      simp only [Vault.execute, bind_eq_ok, pure_eq_ok, Except.ok.injEq] at accepted
      obtain ⟨token, minted, rfl⟩ := accepted
      exact one (.mint caller recipient amount) minted

/-- The token of the deployed system is conserved too, whatever calls the contracts receive. -/
theorem world_conserved (sha : Hashing.HashFunction) (genesis : Vault.Genesis)
    (calls : List Vault.Call) :
    Conserved (run (Vault.execute sha) genesis.world calls).token := by
  refine run_history_invariant (Vault.execute sha) (fun _ => True)
    (fun _ w => Conserved w.token) ?_ [] genesis.world
    (conserved_constructor (genesis_token genesis)) calls fun _ _ => trivial
  intro past w call w' conserved allowed accepted
  obtain ⟨asked, token⟩ := execute_token accepted
  rw [token]
  exact conserved_run conserved asked

end World

end PrivateBtc.Contracts.TokenRuns
