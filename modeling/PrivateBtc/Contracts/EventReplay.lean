/- PrivateBtc/Contracts/EventReplay
   digest: What the events alone tell: a reader of the logs rebuilds the storage. -/

import PrivateBtc.Contracts.HeaderRuns
import PrivateBtc.Contracts.TokenRuns

set_option autoImplicit false
set_option relaxedAutoImplicit false

namespace PrivateBtc.Contracts.EventReplay

open Library Library.Outcome Library.Transactional Corelib Vault VaultRuns
open Hashing (HashFunction)
open MockBtc (Token share)
open MockBtc.InternalFunctions (approve_ok mint_ok transfer_ok)

/-- Double-entry books: the zero address stands for what is not in circulation. -/
structure Book where
  balances : ContractAddress → ℤ
  allowances : ContractAddress → ContractAddress → U256

def Book.blank : Book := ⟨fun _ => 0, fun _ _ => 0⟩

def Book.read (book : Book) : MockBtc.Event → Book
  | .transfer sender recipient value =>
      { book with
        balances := fun x => book.balances x + share x recipient value - share x sender value }
  | .approval owner spender value =>
      { book with
        allowances := Function.update book.allowances owner
          (Function.update (book.allowances owner) spender value) }

theorem Book.read_transfer (book : Book) (sender recipient account : ContractAddress)
    (value : U256) :
    (book.read (.transfer sender recipient value)).balances account =
      book.balances account + share account recipient value - share account sender value := rfl

def replay (events : List MockBtc.Event) : Book := events.foldl Book.read Book.blank

/-- The books agree with the storage of the token. -/
structure Mirrors (book : Book) (token : Token) : Prop where
  balances : ∀ account, account ≠ 0 → book.balances account = (token.balances account).val
  supply : book.balances 0 = -(token.totalSupply.val : ℤ)
  zero : token.balances 0 = 0
  allowances : book.allowances = token.allowances

/-- What the log of a token tells is its storage. -/
def Told (self : Token) : Prop := Mirrors (replay self.events) self

section Token

variable {self self' spent : Token} {book : Book} {sender recipient owner spender : ContractAddress}
  {amount : U256}

theorem replay_snoc (events : List MockBtc.Event) (event : MockBtc.Event) :
    replay (events ++ [event]) = (replay events).read event := by
  rw [replay, List.foldl_append]
  rfl

theorem told_of_read {event : MockBtc.Event} (events : self'.events = self.events ++ [event])
    (reads : Mirrors (replay self.events) self → Mirrors ((replay self.events).read event) self')
    (told : Told self) : Told self' := by
  rw [Told, events, replay_snoc]
  exact reads told

theorem mint_events (accepted : MockBtc.InternalFunctions.mint self recipient amount = .ok self') :
    self'.events = self.events ++ [.transfer 0 recipient amount] := by
  simp only [MockBtc.InternalFunctions.mint, bind_eq_ok, pure_eq_ok, Except.ok.injEq] at accepted
  obtain ⟨_, -, supply, -, balance, -, rfl⟩ := accepted
  rfl

theorem transfer_events
    (accepted : MockBtc.InternalFunctions.transfer self sender recipient amount = .ok self') :
    self'.events = self.events ++ [.transfer sender recipient amount] := by
  simp only [MockBtc.InternalFunctions.transfer, bind_eq_ok, pure_eq_ok,
    Except.ok.injEq] at accepted
  obtain ⟨_, -, _, -, _, -, rest, -, balance, -, rfl⟩ := accepted
  rfl

theorem approve_events
    (accepted : MockBtc.InternalFunctions.approve self owner spender amount = .ok self') :
    self'.events = self.events ++ [.approval owner spender amount] := by
  simp only [MockBtc.InternalFunctions.approve, bind_eq_ok, pure_eq_ok, Except.ok.injEq] at accepted
  obtain ⟨_, -, _, -, rfl⟩ := accepted
  rfl

theorem told_mint (accepted : MockBtc.InternalFunctions.mint self recipient amount = .ok self')
    (told : Told self) : Told self' := by
  refine told_of_read (mint_events accepted) (fun mirrors => ?_) told
  obtain ⟨nonzero, supply, balances, allowances⟩ := mint_ok accepted
  refine ⟨?_, ?_, ?_, mirrors.allowances.trans allowances.symm⟩
  · intro account here
    have before := mirrors.balances account here
    have after := balances account
    have none_ : share account 0 amount = 0 := if_neg here
    rw [Book.read_transfer, none_]
    omega
  · have none_ : share 0 recipient amount = 0 := if_neg (Ne.symm nonzero)
    have all : share 0 0 amount = amount.val := if_pos rfl
    have before := mirrors.supply
    rw [Book.read_transfer, none_, all]
    omega
  · have after := balances 0
    have none_ : share 0 recipient amount = 0 := if_neg (Ne.symm nonzero)
    rw [mirrors.zero, none_] at after
    exact Fin.ext after

theorem told_transfer
    (accepted : MockBtc.InternalFunctions.transfer self sender recipient amount = .ok self')
    (told : Told self) : Told self' := by
  refine told_of_read (transfer_events accepted) (fun mirrors => ?_) told
  obtain ⟨fromNonzero, toNonzero, -, balances, supply, allowances⟩ := transfer_ok accepted
  have noneOut : share 0 sender amount = 0 := if_neg (Ne.symm fromNonzero)
  have noneIn : share 0 recipient amount = 0 := if_neg (Ne.symm toNonzero)
  refine ⟨?_, ?_, ?_, mirrors.allowances.trans allowances.symm⟩
  · intro account here
    have before := mirrors.balances account here
    have after := balances account
    rw [Book.read_transfer]
    omega
  · have before := mirrors.supply
    rw [Book.read_transfer, supply, noneOut, noneIn]
    omega
  · have after := balances 0
    rw [mirrors.zero, noneOut, noneIn] at after
    exact Fin.ext after

theorem told_approve
    (accepted : MockBtc.InternalFunctions.approve self owner spender amount = .ok self')
    (told : Told self) : Told self' := by
  refine told_of_read (approve_events accepted) (fun mirrors => ?_) told
  obtain ⟨-, -, balances, supply, allowances⟩ := approve_ok accepted
  refine ⟨?_, ?_, ?_, ?_⟩
  · rw [balances]
    exact mirrors.balances
  · rw [supply]
    exact mirrors.supply
  · rw [balances]
    exact mirrors.zero
  · funext o s
    rw [allowances, Book.read, ← mirrors.allowances]
    by_cases own : o = owner
    · subst own
      by_cases spend : s = spender
      · subst spend
        simp
      · simp [spend]
    · simp [own]

/-- An unlimited allowance is spent without an event. -/
theorem spendAllowance_events
    (accepted : MockBtc.InternalFunctions.spendAllowance self owner spender amount = .ok spent) :
    ∃ noted, spent.events = self.events ++ noted := by
  unfold MockBtc.InternalFunctions.spendAllowance at accepted
  dsimp only at accepted
  split_ifs at accepted with finite
  · simp only [bind_eq_ok] at accepted
    obtain ⟨_, -, rest, -, approved⟩ := accepted
    exact ⟨_, approve_events approved⟩
  · cases accepted
    exact ⟨[], (List.append_nil _).symm⟩

theorem told_spendAllowance
    (accepted : MockBtc.InternalFunctions.spendAllowance self owner spender amount = .ok spent)
    (told : Told self) : Told spent := by
  unfold MockBtc.InternalFunctions.spendAllowance at accepted
  dsimp only at accepted
  split_ifs at accepted with finite
  · simp only [bind_eq_ok] at accepted
    obtain ⟨_, -, rest, -, approved⟩ := accepted
    exact told_approve approved told
  · cases accepted
    exact told

end Token

/-- The token's event for what the vault tells. -/
def settled (vault : ContractAddress) : Vault.Event → MockBtc.Event
  | .deposit _ amountSats _ => .transfer 0 vault (toWei amountSats)
  | .withdrawal _ recipient amount => .transfer vault recipient amount

/-- The storage of the three contracts, as their logs tell it. -/
structure Logged (w : World) : Prop where
  token : Told w.token
  commitments : ∀ commitment, w.vault.commitments commitment = true ↔
    ∃ amountSats blockHeight, .deposit commitment amountSats blockHeight ∈ w.vault.events
  nullifiers : ∀ nullifier, w.vault.nullifiers nullifier = true ↔
    ∃ recipient amount, .withdrawal nullifier recipient amount ∈ w.vault.events
  settled : (w.vault.events.map (settled w.address)).Sublist w.token.events

section World

variable {sha : HashFunction} {w w' : World}

theorem logged_token {token : Token} {noted : List MockBtc.Event}
    (events : token.events = w.token.events ++ noted) (told : Told w.token → Told token)
    (logged : Logged w) : Logged { w with token } := by
  refine ⟨told logged.token, logged.commitments, logged.nullifiers, ?_⟩
  rw [events]
  exact logged.settled.trans (List.sublist_append_left _ _)

theorem marked_iff {K : Type} [DecidableEq K] (marks : K → Bool) (key other : K) :
    Function.update marks key true other = true ↔ other = key ∨ marks other = true := by
  rw [Function.update_apply]
  split_ifs with same
  · simp [same]
  · simp [same]

theorem logged_deposit {args : DepositArgs} (accepted : deposit sha w args = .ok w')
    (logged : Logged w) : Logged w' := by
  obtain ⟨_, token, -, -, -, -, -, -, -, minted, rfl⟩ := deposit_ok accepted
  refine ⟨told_mint minted logged.token, ?_, ?_, ?_⟩
  · intro commitment
    rw [deposited, marked_iff, logged.commitments]
    simp [exists_or, or_comm, and_comm]
  · intro nullifier
    rw [deposited, logged.nullifiers]
    simp
  · rw [deposited, List.map_append, mint_events minted]
    exact logged.settled.append (List.Sublist.refl _)

theorem logged_withdraw {args : WithdrawArgs} (accepted : withdraw w args = .ok w')
    (logged : Logged w) : Logged w' := by
  obtain ⟨token, -, -, -, moved, rfl⟩ := withdraw_ok accepted
  refine ⟨told_transfer moved logged.token, ?_, ?_, ?_⟩
  · intro commitment
    rw [withdrawn, logged.commitments]
    simp
  · intro nullifier
    rw [withdrawn, marked_iff, logged.nullifiers]
    simp [exists_or, or_comm, and_comm]
  · rw [withdrawn, List.map_append, transfer_events moved]
    exact logged.settled.append (List.Sublist.refl _)

theorem logged_step {call : Call} (accepted : execute sha w call = .ok w') (logged : Logged w) :
    Logged w' := by
  cases call with
  | deposit caller args => exact logged_deposit accepted logged
  | withdraw caller args => exact logged_withdraw accepted logged
  | storeHeader caller height merkleRoot =>
      simp only [execute, bind_eq_ok, pure_eq_ok, Except.ok.injEq] at accepted
      obtain ⟨headers, -, rfl⟩ := accepted
      exact ⟨logged.token, logged.commitments, logged.nullifiers, logged.settled⟩
  | transfer caller recipient amount =>
      simp only [execute, MockBtc.transfer, bind_eq_ok, pure_eq_ok, Except.ok.injEq] at accepted
      obtain ⟨_, ⟨token, moved, rfl⟩, rfl⟩ := accepted
      exact logged_token (transfer_events moved) (told_transfer moved) logged
  | approve caller spender amount =>
      simp only [execute, MockBtc.approve, bind_eq_ok, pure_eq_ok, Except.ok.injEq] at accepted
      obtain ⟨_, ⟨token, approved, rfl⟩, rfl⟩ := accepted
      exact logged_token (approve_events approved) (told_approve approved) logged
  | transferFrom caller sender recipient amount =>
      simp only [execute, MockBtc.transferFrom, bind_eq_ok, pure_eq_ok, Except.ok.injEq] at accepted
      obtain ⟨_, ⟨spent, spends, token, moved, rfl⟩, rfl⟩ := accepted
      obtain ⟨noted, spending⟩ := spendAllowance_events spends
      have events : token.events =
          w.token.events ++ (noted ++ [.transfer sender recipient amount]) := by
        rw [transfer_events moved, spending, List.append_assoc]
      exact logged_token events
        (fun told => told_transfer moved (told_spendAllowance spends told)) logged
  | mint caller recipient amount =>
      simp only [execute, bind_eq_ok, pure_eq_ok, Except.ok.injEq] at accepted
      obtain ⟨token, minted, rfl⟩ := accepted
      exact logged_token (mint_events minted) (told_mint minted) logged

theorem logged_genesis (genesis : Genesis) : Logged genesis.world := by
  have deployed := genesis.deployed
  simp only [deploy, bind_eq_ok, pure_eq_ok, Except.ok.injEq] at deployed
  obtain ⟨token, minted, start⟩ := deployed
  have blank : Told ⟨0, fun _ => 0, fun _ _ => 0, []⟩ := ⟨fun _ _ => rfl, rfl, rfl, rfl⟩
  rw [← start]
  refine ⟨told_mint minted blank, fun commitment => ?_, fun nullifier => ?_, List.nil_sublist _⟩
  · simp
  · simp

end World

/-- After every run of calls, whoever has read the three logs knows the storage: the balances, the
supply and the allowances are the books kept over the token's events, the commitments and the
nullifiers are those of the vault's events, each with its own token event in the same order, and
the stored heights are those of the header store's events. -/
theorem logs_tell_storage (sha : HashFunction) (genesis : Genesis) (calls : List Call) :
    let w := run (execute sha) genesis.world calls
    Mirrors (replay w.token.events) w.token ∧
      (∀ commitment, isCommitmentRegistered w commitment = true ↔
        ∃ amountSats blockHeight, .deposit commitment amountSats blockHeight ∈ w.vault.events) ∧
      (∀ nullifier, w.vault.nullifiers nullifier = true ↔
        ∃ recipient amount, .withdrawal nullifier recipient amount ∈ w.vault.events) ∧
      (w.vault.events.map (settled w.address)).Sublist w.token.events ∧
      ∀ height, HeaderStore.isHeaderStored w.headers height = true ↔
        ∃ event ∈ w.headers.events, event.height = height := by
  intro w
  have logged : Logged w :=
    run_history_invariant (execute sha) (fun _ => True) (fun _ w => Logged w)
      (fun _ _ _ _ logged _ accepted => logged_step accepted logged) [] genesis.world
      (logged_genesis genesis) calls fun _ _ => trivial
  have tells := (HeaderRuns.authentic_run sha genesis calls).tells
  refine ⟨logged.token, logged.commitments, logged.nullifiers, logged.settled, ?_⟩
  intro height
  rw [HeaderStore.isHeaderStored, tells.known, tells.events]
  simp [HeaderRuns.lastRoot, HeaderRuns.announced]

end PrivateBtc.Contracts.EventReplay
